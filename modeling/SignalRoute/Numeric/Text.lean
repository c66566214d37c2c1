import SignalRoute.Numeric.Double
import Mathlib.Data.List.TakeWhile
import Mathlib.Data.Nat.Log
import Mathlib.Algebra.Order.Round

/-!
# Numbers as text, as the C and C++ libraries read and print them

`stoull`, `stoll`, `stoi` and `stod` skip leading blanks, read the longest numeral they can and
ignore what follows it, which is `integerRest` and `floatingRest`; they fail on a text without a
numeral and on a numeral out of range.
`toString` on integers is `std::to_string`, and `ostreamDouble` is the stream insertion of a double
in its default format (`%g` with six significant digits).

A byte string is a `String` whose characters stand for its bytes. The value of a decimal or
hexadecimal numeral is the exact rational that it denotes; a conversion rounds it to the nearest
number of its format.
-/

namespace Numeric

/-- Why a conversion failed: `std::invalid_argument` or `std::out_of_range`. -/
inductive ConversionError where
  | invalid_argument
  | out_of_range
  deriving DecidableEq

/-- A computation that succeeds after another one: both do. -/
theorem exists_of_bind_eq_ok {ε α β : Type} {x : Except ε α} {f : α → Except ε β} {b : β}
    (h : x >>= f = .ok b) : ∃ a, x = .ok a ∧ f a = .ok b := by
  cases x with
  | error e => cases h
  | ok a => exact ⟨a, rfl, h⟩

/-- `std::isspace` in the C locale. -/
def isspace (c : Char) : Bool :=
  c = ' ' || c = '\t' || c = '\n' || c = '\x0b' || c = '\x0c' || c = '\r'

/-- An optional sign: whether it is a minus, and the text after it. -/
def splitSign : List Char → Bool × List Char
  | '-' :: cs => (true, cs)
  | '+' :: cs => (false, cs)
  | cs => (false, cs)

/-- The integer numeral at the start of a text, in base ten: its sign and its magnitude. -/
def readInteger (s : String) : Except ConversionError (Bool × ℕ) :=
  let (negative, cs) := splitSign (s.toList.dropWhile isspace)
  let digits := cs.takeWhile Char.isDigit
  if digits = [] then .error .invalid_argument
  else .ok (negative, Nat.ofDigitChars 10 digits 0)

/-- `std::stoull`: a magnitude of 64 bits, negated modulo `2^64` after a minus sign. -/
def stoull (s : String) : Except ConversionError ℕ := do
  let (negative, n) ← readInteger s
  if 2^64 ≤ n then .error .out_of_range
  else .ok (if negative then (2^64 - n) % 2^64 else n)

/-- `std::stoll`: a value between `-2^63` and `2^63 - 1`. -/
def stoll (s : String) : Except ConversionError ℤ := do
  let (negative, n) ← readInteger s
  let z : ℤ := if negative then -n else n
  if z < -2^63 ∨ 2^63 ≤ z then .error .out_of_range else .ok z

/-- What an integer conversion leaves of the text: the part after the digits. -/
def integerRest (s : String) : List Char :=
  (splitSign (s.toList.dropWhile isspace)).2.dropWhile Char.isDigit

/-- `std::stoi`: a value between `-2^31` and `2^31 - 1`. -/
def stoi (s : String) : Except ConversionError ℤ := do
  let (negative, n) ← readInteger s
  let z : ℤ := if negative then -n else n
  if z < -2^31 ∨ 2^31 ≤ z then .error .out_of_range else .ok z

/-- Whether a text starts with the lower-case word `w`, whatever the case of its letters. -/
def startsWithWord (w cs : List Char) : Bool := w.isPrefixOf (cs.map Char.toLower)

/-- The value of a hexadecimal digit. -/
def hexValue (c : Char) : ℕ :=
  if c.isDigit then c.toNat - '0'.toNat else c.toLower.toNat - 'a'.toNat + 10

/-- Whether a character is a hexadecimal digit. -/
def isHexDigit (c : Char) : Bool := c.isDigit || ('a' ≤ c.toLower && c.toLower ≤ 'f')

/-- The value of digits in base `b`. -/
def digitsValue (b : ℕ) (value : Char → ℕ) (digits : List Char) : ℕ :=
  digits.foldl (fun n c => b * n + value c) 0

/-- An exponent part: the marker, an optional sign and at least one digit; zero when it is not
there. -/
def readExponent (marker : Char) : List Char → ℤ
  | c :: cs =>
    if c.toLower = marker then
      let (negative, cs) := splitSign cs
      let n : ℤ := Nat.ofDigitChars 10 (cs.takeWhile Char.isDigit) 0
      if negative then -n else n
    else 0
  | [] => 0

/-- A mantissa in the digits `isDig`, with an optional point, and what follows it: the digits before
and after the point, or nothing where there is no digit. -/
def readMantissa (isDig : Char → Bool) (cs : List Char) :
    Option (List Char × List Char × List Char) :=
  let whole := cs.takeWhile isDig
  let rest := cs.dropWhile isDig
  let (frac, rest) := match rest with
    | '.' :: rest' => (rest'.takeWhile isDig, rest'.dropWhile isDig)
    | _ => ([], rest)
  if whole = [] ∧ frac = [] then none else some (whole, frac, rest)

/-- A hexadecimal floating numeral after its `0x`. -/
def readHexFloat (cs : List Char) : Option ℚ := do
  let (whole, frac, rest) ← readMantissa isHexDigit cs
  let m : ℚ := digitsValue 16 hexValue (whole ++ frac)
  return m * (2 : ℚ)^(readExponent 'p' rest - 4 * frac.length)

/-- A decimal floating numeral. -/
def readDecFloat (cs : List Char) : Option ℚ := do
  let (whole, frac, rest) ← readMantissa Char.isDigit cs
  let m : ℚ := Nat.ofDigitChars 10 (whole ++ frac) 0
  return m * (10 : ℚ)^(readExponent 'e' rest - frac.length)

/-- The magnitude of the floating numeral at the start of a text: an infinity or NaN by name, or a
hexadecimal or a decimal numeral. A `0x` without a hexadecimal digit is the numeral `0`. -/
def readFloat (cs : List Char) : Option Double :=
  if startsWithWord ['i', 'n', 'f'] cs then some (.infinite false)
  else if startsWithWord ['n', 'a', 'n'] cs then some .nan
  else if startsWithWord ['0', 'x'] cs then
    match readHexFloat (cs.drop 2) with
    | some q => some (.finite q)
    | none => some (.finite 0)
  else (readDecFloat cs).map .finite

/-- What follows an exponent part. A marker without a digit after it is no exponent part. -/
def exponentRest (marker : Char) : List Char → List Char
  | c :: cs =>
    if c.toLower = marker then
      let digits := (splitSign cs).2
      if digits.takeWhile Char.isDigit = [] then c :: cs else digits.dropWhile Char.isDigit
    else c :: cs
  | [] => []

/-- What follows a NaN: the name may have a tag of letters, digits and underscores in parentheses. -/
def nanRest : List Char → List Char
  | '(' :: cs =>
    match cs.dropWhile fun c => c.isAlphanum || c = '_' with
    | ')' :: rest => rest
    | _ => '(' :: cs
  | cs => cs

/-- What follows the floating numeral at the start of a text that `readFloat` reads. -/
def floatRest (cs : List Char) : List Char :=
  if startsWithWord ['i', 'n', 'f', 'i', 'n', 'i', 't', 'y'] cs then cs.drop 8
  else if startsWithWord ['i', 'n', 'f'] cs then cs.drop 3
  else if startsWithWord ['n', 'a', 'n'] cs then nanRest (cs.drop 3)
  else if startsWithWord ['0', 'x'] cs then
    match readMantissa isHexDigit (cs.drop 2) with
    | some (_, _, rest) => exponentRest 'p' rest
    | none => cs.drop 1
  else
    match readMantissa Char.isDigit cs with
    | some (_, _, rest) => exponentRest 'e' rest
    | none => cs

/-- What a floating conversion leaves of the text. -/
def floatingRest (s : String) : List Char := floatRest (splitSign (s.toList.dropWhile isspace)).2

/-- The nearest integer to a nonnegative rational, ties to even. -/
def roundHalfEven (q : ℚ) : ℕ :=
  let n := ⌊q⌋.toNat
  if q - n < 1 / 2 then n
  else if 1 / 2 < q - n then n + 1
  else if n % 2 = 0 then n else n + 1

/-- The exponent of a positive rational in base `b`: the `e` with `b^e ≤ q < b^(e+1)`. -/
def exponent (b : ℕ) (q : ℚ) : ℤ :=
  let e : ℤ := (Nat.log b q.num.natAbs : ℤ) - Nat.log b q.den
  if q < (b : ℚ)^e then e - 1 else e

/-- A binary floating-point format: the bits of its significand, and its largest and its smallest
normal exponent. -/
structure Format where
  precision : ℕ
  emax : ℕ
  emin : ℕ

/-- `double`. -/
def Format.double : Format := ⟨53, 1023, 1022⟩

/-- `float`. -/
def Format.float : Format := ⟨24, 127, 126⟩

/-- Whether a magnitude is out of the range of a format: it rounds past the largest number, or it is
below the smallest normal one and no number of the format. -/
def Format.outOfRange (fmt : Format) (q : ℚ) : Bool :=
  2^(fmt.emax + 1) - 2^(fmt.emax - fmt.precision) ≤ q ||
    (0 < q && q < 1 / 2^fmt.emin && (q * 2^(fmt.emin + fmt.precision - 1)).den ≠ 1)

/-- The number of a format that is nearest to a magnitude, ties to even, however large it is. -/
def Format.round (fmt : Format) (q : ℚ) : ℚ :=
  let e := max (exponent 2 q) (-fmt.emin)
  let ulp : ℚ := 2^(e - (fmt.precision - 1))
  roundHalfEven (q / ulp) * ulp

/-- `std::stod` and `std::stof`, by the format of the result. -/
def readFloating (fmt : Format) (s : String) : Except ConversionError Double :=
  let (negative, cs) := splitSign (s.toList.dropWhile isspace)
  match readFloat cs with
  | none => .error .invalid_argument
  | some (.finite q) =>
    if fmt.outOfRange q then .error .out_of_range
    else .ok (.finite (if negative then -fmt.round q else fmt.round q))
  | some d => .ok (if negative then -d else d)

/-- `std::stod`. -/
def stod (s : String) : Except ConversionError Double := readFloating .double s

/-- `std::stof`. -/
def stof (s : String) : Except ConversionError Double := readFloating .float s

/-- The decimal exponent of a positive rational. -/
def decimalExponent (q : ℚ) : ℤ := exponent 10 q

/-- A digit string without its trailing zeros. -/
def dropTrailingZeros (ds : List Char) : List Char := (ds.reverse.dropWhile (· = '0')).reverse

/-- A whole part and a fraction, with the point only where the fraction is not empty. -/
def withPoint (whole frac : List Char) : List Char :=
  if frac = [] then whole else whole ++ '.' :: frac

/-- `%g` with six significant digits, for a positive rational: fixed notation for a decimal exponent
between -4 and 5, and else scientific notation, both without trailing zeros. -/
def formatG (q : ℚ) : List Char :=
  let e := decimalExponent q
  let m := roundHalfEven (q * (10 : ℚ)^(5 - e))
  let (e, m) := if m = 10^6 then (e + 1, 10^5) else (e, m)
  let ds := Nat.toDigits 10 m
  if -4 ≤ e ∧ e < 6 then
    if 0 ≤ e then
      withPoint (ds.take (e.toNat + 1)) (dropTrailingZeros (ds.drop (e.toNat + 1)))
    else
      withPoint ['0'] (List.replicate ((-e).toNat - 1) '0' ++ dropTrailingZeros ds)
  else
    let exponent := Nat.toDigits 10 e.natAbs
    withPoint (ds.take 1) (dropTrailingZeros (ds.drop 1)) ++
      'e' :: (if e < 0 then '-' else '+') ::
        (if exponent.length < 2 then '0' :: exponent else exponent)

/-- The stream insertion of a double in its default format. -/
def ostreamDouble : Double → String
  | .finite q =>
    if q = 0 then "0"
    else if q < 0 then String.ofList ('-' :: formatG (-q))
    else String.ofList (formatG q)
  | .infinite negative => if negative then "-inf" else "inf"
  | .nan => "nan"

/-- `std::to_string` of a double, which is `%f`: six digits after the point. -/
def to_string : Double → String
  | .finite q =>
    let n := roundHalfEven (|q| * 10^6)
    let fraction := Nat.toDigits 10 (n % 10^6)
    (if q < 0 then "-" else "") ++ toString (n / 10^6) ++ "." ++
      String.ofList (List.replicate (6 - fraction.length) '0' ++ fraction)
  | .infinite negative => if negative then "-inf" else "inf"
  | .nan => "nan"

/-- Every character of a printed number is a digit. -/
theorem isDigit_of_mem_toString {n : ℕ} {c : Char} (h : c ∈ (toString n).toList) :
    c.isDigit = true := by
  rw [Nat.toString_eq_repr, Nat.toList_repr] at h
  exact Nat.isDigit_of_mem_toDigits (by decide) (by decide) h

/-- A printed number determines the number. -/
theorem toString_injective {m n : ℕ} (h : toString m = toString n) : m = n := by
  rw [Nat.toString_eq_repr, Nat.toString_eq_repr, Nat.repr_eq_ofList_toDigits,
    Nat.repr_eq_ofList_toDigits, String.ofList_inj] at h
  rw [← Nat.ofDigitChars_ten_toDigits (n := m), h, Nat.ofDigitChars_ten_toDigits]

/-- A list is cut at the last occurrence of a mark in one way. -/
theorem append_mark_injective {α : Type} {mark : α} {a b m n : List α} (hm : mark ∉ m)
    (hn : mark ∉ n) (h : a ++ mark :: m = b ++ mark :: n) : a = b ∧ m = n := by
  rcases List.append_eq_append_iff.mp h with ⟨c, hb, hc⟩ | ⟨c, ha, hc⟩
  · cases c with
    | nil => simp_all
    | cons x c =>
      have hmem : mark ∈ m := by simp_all
      exact absurd hmem hm
  · cases c with
    | nil => simp_all
    | cons x c =>
      have hmem : mark ∈ n := by simp_all
      exact absurd hmem hn

/-- A list is cut at the first occurrence of a mark in one way. -/
theorem mark_append_injective {α : Type} {mark : α} {a b m n : List α} (ha : mark ∉ a)
    (hb : mark ∉ b) (h : a ++ mark :: m = b ++ mark :: n) : a = b ∧ m = n := by
  have hreverse := congrArg List.reverse h
  simp only [List.reverse_append, List.reverse_cons, List.append_assoc, List.singleton_append] at hreverse
  obtain ⟨hm, hab⟩ := append_mark_injective (List.mem_reverse.not.mpr ha) (List.mem_reverse.not.mpr hb)
    hreverse
  exact ⟨List.reverse_injective hab, List.reverse_injective hm⟩

/-- A printed number after a mark that is no digit is cut off in one way: what stands before the mark
and the number are determined by the whole. -/
theorem append_toString_injective (mark : Char) (hmark : mark.isDigit = false) {a b : String}
    {m n : ℕ} (h : a ++ String.singleton mark ++ toString m = b ++ String.singleton mark ++ toString n) :
    a = b ∧ m = n := by
  have hnot : ∀ k : ℕ, mark ∉ (toString k).toList := by
    intro k hk
    rw [isDigit_of_mem_toString hk] at hmark
    exact Bool.noConfusion hmark
  have hl := congrArg String.toList h
  simp only [String.toList_append, String.toList_singleton, List.append_assoc,
    List.singleton_append] at hl
  obtain ⟨hab, hmn⟩ := append_mark_injective (hnot m) (hnot n) hl
  exact ⟨String.toList_inj.mp hab, toString_injective (String.toList_inj.mp hmn)⟩

/-- A printed number starts with a digit. -/
theorem toList_toString_cons (n : ℕ) : ∃ c cs, (toString n).toList = c :: cs ∧ c.isDigit = true := by
  cases h : (toString n).toList with
  | nil =>
    rw [Nat.toString_eq_repr, Nat.toList_repr] at h
    exact absurd h Nat.toDigits_ne_nil
  | cons c cs => exact ⟨c, cs, rfl, isDigit_of_mem_toString (h ▸ List.mem_cons_self)⟩

/-- No digit is a blank. -/
theorem isspace_of_isDigit {c : Char} (h : c.isDigit = true) : isspace c = false := by
  have hc : 48 ≤ c.toNat := by
    have := (Char.isDigit_iff_toNat.mp h).1
    simpa using this
  have hne : ∀ d : Char, d.toNat < 48 → c ≠ d := by
    rintro d hd rfl
    omega
  simp [isspace, hne]

/-- A text that starts with a digit has no sign. -/
theorem splitSign_of_isDigit {c : Char} {cs : List Char} (h : c.isDigit = true) :
    splitSign (c :: cs) = (false, c :: cs) := by
  unfold splitSign
  split
  · cases ‹_ = _›
    cases h
  · cases ‹_ = _›
    cases h
  · rfl

/-- The digits of a printed number denote it. -/
theorem ofDigitChars_takeWhile_toString (n : ℕ) :
    (toString n).toList.takeWhile Char.isDigit = (toString n).toList ∧
      Nat.ofDigitChars 10 (toString n).toList 0 = n := by
  refine ⟨List.takeWhile_eq_self_iff.mpr fun c hc => isDigit_of_mem_toString hc, ?_⟩
  rw [Nat.toString_eq_repr, Nat.toList_repr, Nat.ofDigitChars_ten_toDigits]

/-- Reading a printed natural number gives it back. -/
theorem readInteger_toString (n : ℕ) : readInteger (toString n) = .ok (false, n) := by
  obtain ⟨c, cs, hcs, hc⟩ := toList_toString_cons n
  obtain ⟨htake, hvalue⟩ := ofDigitChars_takeWhile_toString n
  unfold readInteger
  rw [hcs, List.dropWhile_cons_of_neg (by simp [isspace_of_isDigit hc]), splitSign_of_isDigit hc]
  dsimp only
  rw [← hcs, htake, hcs, if_neg (List.cons_ne_nil _ _), ← hcs, hvalue]

/-- `stoull` reads a printed 64-bit number. -/
theorem stoull_toString {n : ℕ} (h : n < 2^64) : stoull (toString n) = .ok n := by
  unfold stoull
  rw [readInteger_toString]
  show (if 2^64 ≤ n then _ else _ : Except ConversionError ℕ) = _
  rw [if_neg (by omega)]
  rfl

/-- The text of a negative integer is that of its magnitude after a minus sign. -/
theorem toString_negSucc (n : ℕ) : toString (Int.negSucc n) = "-" ++ toString (n + 1) := rfl

/-- Reading a printed negative integer gives its magnitude back. -/
theorem readInteger_neg (n : ℕ) : readInteger ("-" ++ toString n) = .ok (true, n) := by
  obtain ⟨htake, hvalue⟩ := ofDigitChars_takeWhile_toString n
  obtain ⟨c, cs, hcs, -⟩ := toList_toString_cons n
  have hl : ("-" ++ toString n).toList = '-' :: (toString n).toList := by
    rw [String.toList_append]
    rfl
  have hsign : splitSign ('-' :: (toString n).toList) = (true, (toString n).toList) := rfl
  unfold readInteger
  rw [hl, List.dropWhile_cons_of_neg (by decide), hsign]
  dsimp only
  rw [htake, hcs, if_neg (List.cons_ne_nil _ _), ← hcs, hvalue]

/-- A printed integer determines the integer: its sign and its magnitude can be read off. -/
theorem toString_int_injective {y z : ℤ} (h : toString y = toString z) : y = z := by
  have hread := congrArg readInteger h
  have hnat : ∀ n : ℕ, readInteger (toString (Int.ofNat n)) = .ok (false, n) := readInteger_toString
  cases y <;> cases z <;>
    simp only [hnat, toString_negSucc, readInteger_neg, Except.ok.injEq, Prod.mk.injEq,
      Bool.false_eq_true, Bool.true_eq_false, false_and, true_and] at hread
  · rw [hread]
  · rw [Nat.succ.inj hread]

/-- `stoll` reads a printed 64-bit integer. -/
theorem stoll_toString {z : ℤ} (h : -2^63 ≤ z ∧ z < 2^63) : stoll (toString z) = .ok z := by
  unfold stoll
  cases z with
  | ofNat n =>
    have hread : readInteger (toString (Int.ofNat n)) = .ok (false, n) := readInteger_toString n
    rw [hread]
    show (if (n : ℤ) < -2^63 ∨ 2^63 ≤ (n : ℤ) then _ else _ : Except ConversionError ℤ) = _
    rw [if_neg (by rw [Int.ofNat_eq_natCast] at h; omega)]
    rfl
  | negSucc n =>
    rw [toString_negSucc, readInteger_neg]
    show (if (-((n + 1 : ℕ) : ℤ)) < -2^63 ∨ 2^63 ≤ -((n + 1 : ℕ) : ℤ) then _ else _ :
      Except ConversionError ℤ) = _
    rw [if_neg (by omega)]
    rfl

end Numeric
