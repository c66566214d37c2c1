import SignalRoute.Numeric.Decimal
import Mathlib.Data.List.Induction

/-!
# The grammar of numerals

Which texts the integer and floating conversions read to their end (`integerRest_eq_nil_iff`,
`floatingRest_eq_nil_iff`), and which of those that `stoull` and `stoll` read are the text of the number
that they give (`stoull_eq_toString_iff`, `stoll_eq_toString_iff`). The conversions skip blanks before a
numeral, take a sign and leading zeros, and stop where the numeral ends, so these are fewer than the
texts that they read.
-/

namespace Numeric

section Canonical

/-- Decimal digits without a leading zero. -/
def IsCanonical (cs : List Char) : Prop :=
  (∀ c ∈ cs, c.isDigit = true) ∧ (cs.head? = some '0' → cs = ['0'])

/-- The digit of a character. -/
theorem digitChar_of_isDigit {c : Char} (h : c.isDigit = true) :
    c.toNat - '0'.toNat < 10 ∧ (c.toNat - '0'.toNat).digitChar = c := by
  obtain ⟨hlow, hhigh⟩ := Char.isDigit_iff_toNat.mp h
  have hlt : c.toNat - '0'.toNat < 10 := by
    have : '0'.toNat = 48 := rfl
    have : '9'.toNat = 57 := rfl
    omega
  refine ⟨hlt, Char.toNat_inj.mp ((Nat.toNat_digitChar_of_lt_ten hlt).trans ?_)⟩
  exact Nat.add_sub_cancel' hlow

/-- The digits of a printed number are canonical. -/
theorem isCanonical_toDigits (n : ℕ) : IsCanonical (Nat.toDigits 10 n) := by
  refine ⟨fun c => Nat.isDigit_of_mem_toDigits (by decide) (by decide), ?_⟩
  induction n using Nat.strong_induction_on with
  | _ n ih =>
    rw [Nat.toDigits_eq_if (by decide)]
    split
    · exact fun h => by rw [List.head?_cons, Option.some_inj] at h; rw [h]
    · rename_i hlarge
      rw [List.head?_append_of_ne_nil _ Nat.toDigits_ne_nil]
      intro hzero
      have hdigits := ih (n / 10) (by omega) hzero
      have hvalue := Nat.ofDigitChars_ten_toDigits (n := n / 10)
      rw [hdigits] at hvalue
      have : Nat.ofDigitChars 10 ['0'] 0 = 0 := rfl
      omega

/-- Canonical digits are those of their value. -/
theorem toDigits_ofDigitChars {cs : List Char} (hne : cs ≠ []) (h : IsCanonical cs) :
    Nat.toDigits 10 (Nat.ofDigitChars 10 cs 0) = cs := by
  induction cs using List.reverseRecOn with
  | nil => exact absurd rfl hne
  | append_singleton ds c ih =>
    obtain ⟨hdigit, hzero⟩ := h
    obtain ⟨hlt, hchar⟩ := digitChar_of_isDigit (hdigit c (List.mem_append_right _ List.mem_cons_self))
    rw [Nat.ofDigitChars_append, Nat.ofDigitChars_cons, Nat.ofDigitChars_nil]
    cases hds : ds with
    | nil =>
      rw [Nat.ofDigitChars_nil, Nat.mul_zero, Nat.zero_add, Nat.toDigits_of_lt_base hlt, hchar]
      rfl
    | cons d rest =>
      rw [← hds]
      have hne : ds ≠ [] := by rw [hds]; exact List.cons_ne_nil _ _
      have hlead : ds.head? ≠ some '0' := by
        intro hhead
        have := congrArg List.length (hzero (by rw [List.head?_append_of_ne_nil _ hne, hhead]))
        rw [List.length_append, hds] at this
        simp at this
      have hprefix := ih hne ⟨fun c hc => hdigit c (List.mem_append_left _ hc), fun h => absurd h hlead⟩
      -- The digits before the last have a positive value, so the last one is split off.
      have hpos : 0 < Nat.ofDigitChars 10 ds 0 := by
        refine Nat.pos_of_ne_zero fun hz => hlead ?_
        rw [← hprefix, hz]
        rfl
      rw [Nat.toDigits_of_base_le (by decide) (by omega), Nat.mul_add_div (by decide),
        Nat.div_eq_of_lt hlt, Nat.add_zero, hprefix, Nat.mul_add_mod, Nat.mod_eq_of_lt hlt, hchar]

/-- An integer conversion reads a text of digits whole. -/
theorem readInteger_digits {s : String} (hne : s.toList ≠ []) (h : ∀ c ∈ s.toList, c.isDigit = true) :
    readInteger s = .ok (false, Nat.ofDigitChars 10 s.toList 0) := by
  obtain ⟨c, cs, hcs⟩ := List.exists_cons_of_ne_nil hne
  have hc : c.isDigit = true := h c (hcs ▸ List.mem_cons_self)
  have htake : s.toList.takeWhile Char.isDigit = s.toList := List.takeWhile_eq_self_iff.mpr h
  unfold readInteger
  rw [hcs] at htake ⊢
  rw [List.dropWhile_cons_of_neg (by simp [isspace_of_isDigit hc]), splitSign_of_isDigit hc]
  dsimp only
  rw [htake, if_neg (List.cons_ne_nil _ _)]

/-- So it does after a minus sign. -/
theorem readInteger_minus_digits {s : String} {ds : List Char} (hs : s.toList = '-' :: ds) (hne : ds ≠ [])
    (h : ∀ c ∈ ds, c.isDigit = true) : readInteger s = .ok (true, Nat.ofDigitChars 10 ds 0) := by
  have htake : ds.takeWhile Char.isDigit = ds := List.takeWhile_eq_self_iff.mpr h
  have hsign : splitSign ('-' :: ds) = (true, ds) := rfl
  unfold readInteger
  rw [hs, List.dropWhile_cons_of_neg (by decide), hsign]
  dsimp only
  rw [htake, if_neg hne]

/-- A text without a numeral is not read. -/
theorem readInteger_nil {s : String} (h : s.toList = []) : readInteger s = .error .invalid_argument := by
  unfold readInteger
  rw [h]
  rfl

/-- What `stoull` reads is the text of what it gives exactly if it is canonical digits. -/
theorem stoull_eq_toString_iff {s : String} {n : ℕ} (h : stoull s = .ok n) :
    s = toString n ↔ IsCanonical s.toList := by
  constructor
  · rintro rfl
    rw [Nat.toString_eq_repr, Nat.toList_repr]
    exact isCanonical_toDigits n
  · intro hcanonical
    obtain ⟨⟨negative, m⟩, hread, hrange⟩ := exists_of_bind_eq_ok h
    have hne : s.toList ≠ [] := by
      intro hnil
      rw [readInteger_nil hnil] at hread
      cases hread
    rw [readInteger_digits hne hcanonical.1] at hread
    cases hread
    dsimp only at hrange
    split at hrange
    · cases hrange
    · cases hrange
      rw [← String.toList_inj, Nat.toString_eq_repr, Nat.toList_repr, if_neg Bool.false_ne_true,
        toDigits_ofDigitChars hne hcanonical]

/-- What `stoll` gives is the numeral with its sign. -/
theorem value_of_stoll {s : String} {z : ℤ} (h : stoll s = .ok z) :
    ∃ negative n, readInteger s = .ok (negative, n) ∧ z = if negative then -(n : ℤ) else n := by
  obtain ⟨⟨negative, n⟩, hread, hrange⟩ := exists_of_bind_eq_ok h
  refine ⟨negative, n, hread, ?_⟩
  dsimp only at hrange
  generalize (if negative then -(n : ℤ) else n) = value at *
  split at hrange
  · cases hrange
  · cases hrange
    rfl

/-- Canonical digits, or a minus sign and canonical digits other than zero. -/
def IsSignedCanonical (cs : List Char) : Prop :=
  IsCanonical cs ∨ ∃ ds, cs = '-' :: ds ∧ IsCanonical ds ∧ ds ≠ ['0']

/-- What `stoll` reads is the text of what it gives exactly if it is signed canonical digits. -/
theorem stoll_eq_toString_iff {s : String} {z : ℤ} (h : stoll s = .ok z) :
    s = toString z ↔ IsSignedCanonical s.toList := by
  constructor
  · rintro rfl
    cases z with
    | ofNat n =>
      refine .inl ?_
      rw [show toString (Int.ofNat n) = toString n from rfl, Nat.toString_eq_repr, Nat.toList_repr]
      exact isCanonical_toDigits n
    | negSucc n =>
      refine .inr ⟨Nat.toDigits 10 (n + 1), ?_, isCanonical_toDigits _, fun hzero => ?_⟩
      · rw [toString_negSucc, String.toList_append, Nat.toString_eq_repr, Nat.toList_repr]
        rfl
      · have hvalue := Nat.ofDigitChars_ten_toDigits (n := n + 1)
        rw [hzero] at hvalue
        have : Nat.ofDigitChars 10 ['0'] 0 = 0 := rfl
        omega
  · intro hcanonical
    obtain ⟨negative, m, hread, rfl⟩ := value_of_stoll h
    have hne : s.toList ≠ [] := by
      intro hnil
      rw [readInteger_nil hnil] at hread
      cases hread
    rcases hcanonical with hcanonical | ⟨ds, hds, hcanonical, hzero⟩
    · rw [readInteger_digits hne hcanonical.1] at hread
      cases hread
      rw [← String.toList_inj, if_neg Bool.false_ne_true]
      show _ = (toString (Nat.ofDigitChars 10 s.toList 0)).toList
      rw [Nat.toString_eq_repr, Nat.toList_repr, toDigits_ofDigitChars hne hcanonical]
    · have hne : ds ≠ [] := by
        rintro rfl
        have : readInteger s = .error .invalid_argument := by
          unfold readInteger
          rw [hds]
          rfl
        rw [this] at hread
        cases hread
      rw [readInteger_minus_digits hds hne hcanonical.1] at hread
      cases hread
      rw [if_pos rfl]
      have hdigits := toDigits_ofDigitChars hne hcanonical
      cases hm : Nat.ofDigitChars 10 ds 0 with
      | zero =>
        rw [hm] at hdigits
        exact absurd hdigits.symm hzero
      | succ m =>
        rw [hm] at hdigits
        rw [← String.toList_inj, show -((m + 1 : ℕ) : ℤ) = Int.negSucc m from rfl, toString_negSucc,
          String.toList_append, Nat.toString_eq_repr, Nat.toList_repr, hdigits, hds]
        rfl

/-- Reading a printed integer gives its sign and its magnitude. -/
theorem readInteger_toString_int (z : ℤ) : ∃ negative n, readInteger (toString z) = .ok (negative, n) ∧
    (if negative then -(n : ℤ) else n) = z := by
  cases z with
  | ofNat n => exact ⟨false, n, readInteger_toString n, rfl⟩
  | negSucc n => exact ⟨true, n + 1, readInteger_neg (n + 1), rfl⟩

/-- `stoi` reads a printed 32-bit integer. -/
theorem stoi_toString {z : ℤ} (h : -2^31 ≤ z ∧ z < 2^31) : stoi (toString z) = .ok z := by
  obtain ⟨negative, n, hread, hvalue⟩ := readInteger_toString_int z
  unfold stoi
  rw [hread]
  show (if (if negative then -(n : ℤ) else n) < -2^31 ∨ 2^31 ≤ (if negative then -(n : ℤ) else n)
    then _ else _ : Except ConversionError ℤ) = _
  rw [hvalue, if_neg (by omega)]

end Canonical

section Signs

/-- A sign or none. -/
def IsSign (cs : List Char) : Prop := cs = [] ∨ cs = ['+'] ∨ cs = ['-']

/-- What `splitSign` takes off a text is a sign. -/
theorem exists_sign (cs : List Char) : ∃ sign, IsSign sign ∧ cs = sign ++ (splitSign cs).2 := by
  unfold splitSign
  split
  · exact ⟨['-'], .inr (.inr rfl), rfl⟩
  · exact ⟨['+'], .inr (.inl rfl), rfl⟩
  · exact ⟨[], .inl rfl, rfl⟩

/-- It takes no more off than a sign. -/
theorem splitSign_append {sign : List Char} (hsign : IsSign sign) {c : Char} {cs : List Char}
    (hplus : c ≠ '+') (hminus : c ≠ '-') : (splitSign (sign ++ c :: cs)).2 = c :: cs := by
  rcases hsign with rfl | rfl | rfl
  · rw [List.nil_append]
    unfold splitSign
    split
    · exact absurd (List.cons.inj ‹_›).1 hminus
    · exact absurd (List.cons.inj ‹_›).1 hplus
    · rfl
  · rfl
  · rfl

/-- A numeral after blanks and a sign. -/
def Signed (numeral : List Char → Prop) (cs : List Char) : Prop :=
  ∃ blanks sign body, (∀ c ∈ blanks, isspace c = true) ∧ IsSign sign ∧ cs = blanks ++ (sign ++ body) ∧
    numeral body

/-- Whether what follows the blanks and the sign is a numeral, which starts with neither. -/
theorem signed_iff {numeral : List Char → Prop} (hstart : ∀ body, numeral body →
    ∃ c rest, body = c :: rest ∧ isspace c = false ∧ c ≠ '+' ∧ c ≠ '-') (cs : List Char) :
    numeral (splitSign (cs.dropWhile isspace)).2 ↔ Signed numeral cs := by
  constructor
  · intro h
    obtain ⟨sign, hsign, heq⟩ := exists_sign (cs.dropWhile isspace)
    refine ⟨cs.takeWhile isspace, sign, _, fun c hc => List.mem_takeWhile_imp hc, hsign, ?_, h⟩
    rw [← heq, List.takeWhile_append_dropWhile]
  · rintro ⟨blanks, sign, body, hblanks, hsign, rfl, hbody⟩
    obtain ⟨c, rest, rfl, hspace, hplus, hminus⟩ := hstart body hbody
    have hstop : (sign ++ c :: rest).dropWhile isspace = sign ++ c :: rest := by
      rcases hsign with rfl | rfl | rfl
      · exact List.dropWhile_cons_of_neg (by simp [hspace])
      · exact List.dropWhile_cons_of_neg (by decide)
      · exact List.dropWhile_cons_of_neg (by decide)
    rw [List.dropWhile_append_of_pos hblanks, hstop, splitSign_append hsign hplus hminus]
    exact hbody

/-- Digits, at least one. -/
def IsDigits (cs : List Char) : Prop := cs ≠ [] ∧ ∀ c ∈ cs, c.isDigit = true

theorem not_sign_of_isDigit {c : Char} (h : c.isDigit = true) : c ≠ '+' ∧ c ≠ '-' := by
  constructor
  · rintro rfl
    cases h
  · rintro rfl
    cases h

theorem IsDigits.start {body : List Char} (h : IsDigits body) :
    ∃ c rest, body = c :: rest ∧ isspace c = false ∧ c ≠ '+' ∧ c ≠ '-' := by
  obtain ⟨c, rest, rfl⟩ := List.exists_cons_of_ne_nil h.1
  have hc := h.2 c List.mem_cons_self
  exact ⟨c, rest, rfl, isspace_of_isDigit hc, not_sign_of_isDigit hc⟩

/-- An integer conversion reads a text to its end exactly if it is blanks, a sign and digits. -/
theorem integerRest_eq_nil_iff {s : String} {r : Bool × ℕ} (h : readInteger s = .ok r) :
    integerRest s = [] ↔ Signed IsDigits s.toList := by
  rw [← signed_iff fun _ => IsDigits.start]
  have hdigits : (splitSign (s.toList.dropWhile isspace)).2.takeWhile Char.isDigit ≠ [] := by
    intro hnone
    unfold readInteger at h
    dsimp only at h
    rw [if_pos hnone] at h
    cases h
  unfold integerRest IsDigits
  rw [List.dropWhile_eq_nil_iff]
  refine (and_iff_right ?_).symm
  intro hnil
  rw [hnil] at hdigits
  exact hdigits rfl

end Signs

section Floating

/-- Digits with an optional point, and at least one digit. -/
def IsMantissa (isDig : Char → Bool) (cs : List Char) : Prop :=
  ∃ whole frac, (∀ c ∈ whole, isDig c = true) ∧ (∀ c ∈ frac, isDig c = true) ∧
    ¬(whole = [] ∧ frac = []) ∧ (cs = whole ∧ frac = [] ∨ cs = whole ++ '.' :: frac)

/-- A marker, a sign and digits, or nothing. -/
def IsExponent (marker : Char) (cs : List Char) : Prop :=
  cs = [] ∨ ∃ c sign digits, cs = c :: (sign ++ digits) ∧ c.toLower = marker ∧ IsSign sign ∧
    IsDigits digits

/-- The tag of a NaN. -/
def IsTag (cs : List Char) : Prop :=
  cs = [] ∨ ∃ tag, cs = '(' :: (tag ++ [')']) ∧ ∀ c ∈ tag, (c.isAlphanum || c = '_') = true

/-- A floating numeral: the name of an infinity or of NaN, or a hexadecimal or a decimal numeral, in
letters of either case. -/
def IsFloat (cs : List Char) : Prop :=
  cs.map Char.toLower = ['i', 'n', 'f'] ∨
    cs.map Char.toLower = ['i', 'n', 'f', 'i', 'n', 'i', 't', 'y'] ∨
    (∃ name tag, cs = name ++ tag ∧ name.map Char.toLower = ['n', 'a', 'n'] ∧ IsTag tag) ∨
    (∃ x mantissa exponent, cs = '0' :: x :: (mantissa ++ exponent) ∧ x.toLower = 'x' ∧
      IsMantissa isHexDigit mantissa ∧ IsExponent 'p' exponent) ∨
    ∃ mantissa exponent, cs = mantissa ++ exponent ∧ IsMantissa Char.isDigit mantissa ∧
      IsExponent 'e' exponent

/-- Nothing follows an exponent part. -/
theorem exponentRest_eq_nil_iff {marker : Char} {cs : List Char} :
    exponentRest marker cs = [] ↔ IsExponent marker cs := by
  cases cs with
  | nil => exact iff_of_true rfl (.inl rfl)
  | cons c cs =>
    unfold exponentRest IsExponent
    dsimp only
    constructor
    · intro h
      split at h
      · split at h
        · cases h
        · rename_i hmarker hdigits
          obtain ⟨sign, hsign, heq⟩ := exists_sign cs
          refine .inr ⟨c, sign, (splitSign cs).2, by rw [← heq], hmarker, hsign, ?_,
            List.dropWhile_eq_nil_iff.mp h⟩
          intro hnil
          rw [hnil] at hdigits
          exact hdigits rfl
      · cases h
    · rintro (h | ⟨c', sign, digits, h, hmarker, hsign, hdigits⟩)
      · cases h
      · obtain ⟨rfl, rfl⟩ := List.cons.inj h
        obtain ⟨d, rest, rfl, -, hplus, hminus⟩ := hdigits.start
        rw [if_pos hmarker, splitSign_append hsign hplus hminus,
          List.takeWhile_eq_self_iff.mpr hdigits.2, if_neg (List.cons_ne_nil _ _),
          List.dropWhile_eq_nil_iff.mpr hdigits.2]

/-- Nothing follows the name of a NaN but a tag. -/
theorem nanRest_eq_nil_iff {cs : List Char} : nanRest cs = [] ↔ IsTag cs := by
  have hread : ∀ tag rest : List Char, (∀ c ∈ tag, (c.isAlphanum || c = '_') = true) →
      (tag ++ ')' :: rest).dropWhile (fun c => c.isAlphanum || c = '_') = ')' :: rest := by
    intro tag rest htag
    rw [List.dropWhile_append_of_pos htag]
    exact List.dropWhile_cons_of_neg (by decide)
  unfold nanRest IsTag
  split
  · rename_i cs
    rw [or_iff_right (List.cons_ne_nil _ _)]
    split
    · rename_i rest hdrop
      constructor
      · rintro rfl
        refine ⟨cs.takeWhile fun c => c.isAlphanum || c = '_', ?_, fun c hc =>
          List.mem_takeWhile_imp (p := fun c => c.isAlphanum || decide (c = '_')) hc⟩
        rw [← hdrop, List.takeWhile_append_dropWhile]
      · rintro ⟨tag, heq, htag⟩
        rw [(List.cons.inj heq).2, hread tag [] htag] at hdrop
        exact (List.cons.inj hdrop).2.symm
    · rename_i hdrop
      refine iff_of_false (List.cons_ne_nil _ _) ?_
      rintro ⟨tag, heq, htag⟩
      rw [(List.cons.inj heq).2] at hdrop
      exact hdrop [] (hread tag [] htag)
  · rename_i hother
    refine (or_iff_left ?_).symm
    rintro ⟨tag, rfl, -⟩
    exact hother _ rfl

section Mantissa

variable {isDig : Char → Bool} {cs whole frac rest : List Char}

/-- A mantissa is read from the start of a text. -/
theorem exists_mantissa (h : readMantissa isDig cs = some (whole, frac, rest)) :
    ∃ mantissa, cs = mantissa ++ rest ∧ IsMantissa isDig mantissa := by
  have hsplit : cs.takeWhile isDig ++ cs.dropWhile isDig = cs := List.takeWhile_append_dropWhile
  have hwhole : ∀ c ∈ cs.takeWhile isDig, isDig c = true := fun c hc => List.mem_takeWhile_imp hc
  unfold readMantissa at h
  dsimp only at h
  split at h
  · rename_i rest' hdrop
    split at h
    · cases h
    · rename_i hne
      cases h
      refine ⟨cs.takeWhile isDig ++ '.' :: rest'.takeWhile isDig, ?_, _, _, hwhole,
        fun c hc => List.mem_takeWhile_imp hc, hne, .inr rfl⟩
      rw [List.append_assoc, List.cons_append, List.takeWhile_append_dropWhile, ← hdrop, hsplit]
  · split at h
    · cases h
    · rename_i hne
      cases h
      exact ⟨_, hsplit.symm, _, [], hwhole, fun c hc => absurd hc List.not_mem_nil, hne, .inl ⟨rfl, rfl⟩⟩

/-- It is read to its end. -/
theorem readMantissa_append (hpoint : isDig '.' = false) (h : IsMantissa isDig cs)
    (hrest : ∀ c ∈ rest.head?, isDig c = false ∧ c ≠ '.') :
    ∃ whole frac, readMantissa isDig (cs ++ rest) = some (whole, frac, rest) := by
  have htake : rest.takeWhile isDig = [] ∧ rest.dropWhile isDig = rest := by
    cases rest with
    | nil => exact ⟨rfl, rfl⟩
    | cons c rest =>
      have hc := (hrest c rfl).1
      exact ⟨List.takeWhile_cons_of_neg (by simp [hc]), List.dropWhile_cons_of_neg (by simp [hc])⟩
  obtain ⟨whole, frac, hwhole, hfrac, hne, ⟨rfl, rfl⟩ | rfl⟩ := h
  · refine ⟨cs, [], ?_⟩
    unfold readMantissa
    rw [List.takeWhile_append_of_pos hwhole, List.dropWhile_append_of_pos hwhole, htake.1, htake.2,
      List.append_nil]
    cases rest with
    | nil => exact if_neg hne
    | cons c rest =>
      dsimp only
      split
      · exact absurd (List.cons.inj ‹_›).1 (hrest c rfl).2
      · exact if_neg hne
  · refine ⟨whole, frac, ?_⟩
    have hstop : ('.' :: (frac ++ rest)).takeWhile isDig = [] ∧
        ('.' :: (frac ++ rest)).dropWhile isDig = '.' :: (frac ++ rest) :=
      ⟨List.takeWhile_cons_of_neg (by simp [hpoint]), List.dropWhile_cons_of_neg (by simp [hpoint])⟩
    unfold readMantissa
    rw [List.append_assoc, List.cons_append, List.takeWhile_append_of_pos hwhole,
      List.dropWhile_append_of_pos hwhole, hstop.1, hstop.2, List.append_nil]
    show (if whole = [] ∧ (frac ++ rest).takeWhile isDig = [] then none
      else some (whole, (frac ++ rest).takeWhile isDig, (frac ++ rest).dropWhile isDig)) = _
    rw [List.takeWhile_append_of_pos hfrac, List.dropWhile_append_of_pos hfrac, htake.1, htake.2,
      List.append_nil, if_neg hne]

/-- A numeral with an exponent is read to its end where its exponent part is. -/
theorem readMantissa_exponent {marker : Char} (hpoint : isDig '.' = false)
    (hmarker : ∀ c, c.toLower = marker → isDig c = false ∧ c ≠ '.') :
    (∃ whole frac rest, readMantissa isDig cs = some (whole, frac, rest) ∧
        exponentRest marker rest = []) ↔
      ∃ mantissa exponent, cs = mantissa ++ exponent ∧ IsMantissa isDig mantissa ∧
        IsExponent marker exponent := by
  constructor
  · rintro ⟨whole, frac, rest, hread, hrest⟩
    obtain ⟨mantissa, heq, hmantissa⟩ := exists_mantissa hread
    exact ⟨mantissa, rest, heq, hmantissa, exponentRest_eq_nil_iff.mp hrest⟩
  · rintro ⟨mantissa, exponent, rfl, hmantissa, hexponent⟩
    have hstart : ∀ c ∈ exponent.head?, isDig c = false ∧ c ≠ '.' := by
      rintro c hc
      rcases hexponent with rfl | ⟨c', sign, digits, rfl, hlower, -, -⟩
      · cases hc
      · cases hc
        exact hmarker _ hlower
    obtain ⟨whole, frac, hread⟩ := readMantissa_append hpoint hmantissa hstart
    exact ⟨whole, frac, exponent, hread, exponentRest_eq_nil_iff.mpr hexponent⟩

end Mantissa

/-- The markers of exponents are neither digits nor points. -/
theorem marker_decimal (c : Char) (h : c.toLower = 'e') : c.isDigit = false ∧ c ≠ '.' := by
  constructor
  · rw [← Bool.not_eq_true]
    intro hdigit
    rw [toLower_of_isDigit hdigit] at h
    rw [h] at hdigit
    cases hdigit
  · rintro rfl
    cases h

theorem marker_hex (c : Char) (h : c.toLower = 'p') : isHexDigit c = false ∧ c ≠ '.' := by
  constructor
  · rw [← Bool.not_eq_true]
    intro hdigit
    unfold isHexDigit at hdigit
    rw [h, Bool.or_eq_true] at hdigit
    rcases hdigit with hdigit | hdigit
    · rw [toLower_of_isDigit hdigit] at h
      rw [h] at hdigit
      cases hdigit
    · revert hdigit
      decide
  · rintro rfl
    cases h

/-- The only letter of a decimal numeral is the marker of its exponent. -/
theorem toLower_of_mem_decimal {mantissa exponent : List Char} (hm : IsMantissa Char.isDigit mantissa)
    (he : IsExponent 'e' exponent) {c : Char} (hc : c ∈ mantissa ++ exponent) :
    c.isDigit = true ∨ c.toLower ∈ ['.', 'e', '+', '-'] := by
  rcases List.mem_append.mp hc with hc | hc
  · obtain ⟨whole, frac, hwhole, hfrac, -, ⟨rfl, -⟩ | rfl⟩ := hm
    · exact .inl (hwhole c hc)
    · rcases List.mem_append.mp hc with hc | hc
      · exact .inl (hwhole c hc)
      · rcases List.mem_cons.mp hc with rfl | hc
        · exact .inr (by decide)
        · exact .inl (hfrac c hc)
  · rcases he with rfl | ⟨m, sign, digits, rfl, hlower, hsign, hdigits⟩
    · cases hc
    · rcases List.mem_cons.mp hc with rfl | hc
      · exact .inr (by rw [hlower]; decide)
      · rcases List.mem_append.mp hc with hc | hc
        · rcases hsign with rfl | rfl | rfl
          · cases hc
          · rw [List.mem_singleton.mp hc]
            exact .inr (by decide)
          · rw [List.mem_singleton.mp hc]
            exact .inr (by decide)
        · exact .inl (hdigits.2 c hc)

/-- A text that starts with a word has its letters. -/
theorem exists_toLower_of_startsWithWord {w cs : List Char} (h : startsWithWord w cs = true) {l : Char}
    (hl : l ∈ w) : ∃ c ∈ cs, c.toLower = l :=
  List.mem_map.mp ((List.isPrefixOf_iff_prefix.mp h).subset hl)

/-- A decimal numeral starts with no word. -/
theorem not_startsWithWord_decimal {mantissa exponent : List Char} (hm : IsMantissa Char.isDigit mantissa)
    (he : IsExponent 'e' exponent) {w : List Char} {l : Char} (hl : l ∈ w)
    (hletter : l.isDigit = false ∧ l ∉ ['.', 'e', '+', '-']) :
    startsWithWord w (mantissa ++ exponent) = false := by
  rw [← Bool.not_eq_true]
  intro hstart
  obtain ⟨c, hc, rfl⟩ := exists_toLower_of_startsWithWord hstart hl
  rcases toLower_of_mem_decimal hm he hc with hdigit | hmem
  · rw [toLower_of_isDigit hdigit, hdigit] at hletter
    exact Bool.noConfusion hletter.1
  · exact hletter.2 hmem

/-- A text that starts with a word has its letters first, in either case. -/
theorem exists_name_of_startsWithWord {w cs : List Char} (h : startsWithWord w cs = true) {n : ℕ}
    (hn : w.length = n) : ∃ name, cs = name ++ cs.drop n ∧ name.map Char.toLower = w := by
  obtain ⟨rest, heq⟩ := List.isPrefixOf_iff_prefix.mp h
  refine ⟨cs.take n, (List.take_append_drop _ _).symm, ?_⟩
  rw [List.map_take, ← heq, ← hn, List.take_left]

/-- Only the digit zero is a zero in lower case. -/
theorem eq_zero_of_toLower {c : Char} (h : c.toLower = '0') : c = '0' := by
  unfold Char.toLower at h
  split at h
  · -- A capital letter becomes a small one.
    rename_i hcapital
    have hvalue := congrArg (fun c : Char => c.val.toNat) h
    have hlow : 65 ≤ c.val.toNat := by exact_mod_cast hcapital.1
    have hhigh : c.val.toNat ≤ 90 := by exact_mod_cast hcapital.2
    have hzero : ('0' : Char).val.toNat = 48 := rfl
    have hshift : ('a'.val - 'A'.val).toNat = 32 := rfl
    simp only [UInt32.toNat_add, hzero, hshift] at hvalue
    omega
  · exact h

/-- A floating numeral is read to its end. -/
theorem IsFloat.floatRest_eq_nil {cs : List Char} (h : IsFloat cs) : floatRest cs = [] := by
  rcases h with h | h | ⟨name, tag, rfl, hname, htag⟩ | ⟨x, mantissa, exponent, rfl, hx, hm, he⟩ |
    ⟨mantissa, exponent, rfl, hm, he⟩
  · have hlength := congrArg List.length h
    rw [List.length_map] at hlength
    unfold floatRest startsWithWord
    rw [h, if_neg (by decide), if_pos (by decide), List.drop_eq_nil_iff]
    exact hlength.le
  · have hlength := congrArg List.length h
    rw [List.length_map] at hlength
    unfold floatRest startsWithWord
    rw [h, if_pos (by decide), List.drop_eq_nil_iff]
    exact hlength.le
  · have hlength : name.length = 3 := by simpa using congrArg List.length hname
    unfold floatRest startsWithWord
    rw [List.map_append, hname, if_neg (by simp), if_neg (by simp), if_pos (by simp),
      List.drop_left' hlength]
    exact nanRest_eq_nil_iff.mpr htag
  · obtain ⟨whole, frac, rest, hread, hrest⟩ :=
      (readMantissa_exponent (by decide) marker_hex).mpr ⟨mantissa, exponent, rfl, hm, he⟩
    unfold floatRest startsWithWord
    rw [List.map_cons, List.map_cons, hx, show '0'.toLower = '0' from rfl, if_neg (by simp),
      if_neg (by simp), if_neg (by simp), if_pos (by simp), List.drop_succ_cons, List.drop_succ_cons,
      List.drop_zero, hread]
    exact hrest
  · obtain ⟨whole, frac, rest, hread, hrest⟩ :=
      (readMantissa_exponent (by decide) marker_decimal).mpr ⟨mantissa, exponent, rfl, hm, he⟩
    have hword : ∀ {w l}, l ∈ w → l.isDigit = false ∧ l ∉ ['.', 'e', '+', '-'] →
        startsWithWord w (mantissa ++ exponent) = false := not_startsWithWord_decimal hm he
    unfold floatRest
    rw [hword (l := 'n') (by decide) (by decide), hword (l := 'n') (by decide) (by decide),
      hword (l := 'n') (by decide) (by decide), hword (l := 'x') (by decide) (by decide), hread]
    exact hrest

/-- A text that is read to its end is a floating numeral. -/
theorem isFloat_of_floatRest {cs : List Char} (hne : cs ≠ []) (h : floatRest cs = []) : IsFloat cs := by
  unfold floatRest at h
  split at h
  · obtain ⟨name, heq, hname⟩ := exists_name_of_startsWithWord ‹_› (n := 8) rfl
    rw [h, List.append_nil] at heq
    exact .inr (.inl (heq ▸ hname))
  split at h
  · obtain ⟨name, heq, hname⟩ := exists_name_of_startsWithWord ‹_› (n := 3) rfl
    rw [h, List.append_nil] at heq
    exact .inl (heq ▸ hname)
  split at h
  · obtain ⟨name, heq, hname⟩ := exists_name_of_startsWithWord ‹_› (n := 3) rfl
    exact .inr (.inr (.inl ⟨name, _, heq, hname, nanRest_eq_nil_iff.mp h⟩))
  split at h
  · obtain ⟨name, heq, hname⟩ := exists_name_of_startsWithWord ‹_› (n := 2) rfl
    obtain ⟨zero, x, rfl⟩ := List.length_eq_two.mp (by simpa using congrArg List.length hname)
    obtain ⟨hzero, hx, -⟩ : zero.toLower = '0' ∧ x.toLower = 'x' ∧ True := by simpa using hname
    rw [eq_zero_of_toLower hzero] at heq
    split at h
    · obtain ⟨mantissa, exponent, hrest, hm, he⟩ :=
        (readMantissa_exponent (by decide) marker_hex).mp ⟨_, _, _, ‹_›, h⟩
      rw [hrest] at heq
      exact .inr (.inr (.inr (.inl ⟨x, mantissa, exponent, heq, hx, hm, he⟩)))
    · -- Where no digit follows, the numeral is the zero alone.
      rw [heq] at h
      cases h
  · split at h
    · exact .inr (.inr (.inr (.inr ((readMantissa_exponent (by decide) marker_decimal).mp
        ⟨_, _, _, ‹_›, h⟩))))
    · exact absurd h hne

/-- The letters with which names start are neither blanks nor signs. -/
theorem not_blank_of_toLower {c l : Char} (h : c.toLower = l) (hl : l ∈ ['i', 'n']) :
    isspace c = false ∧ c ≠ '+' ∧ c ≠ '-' := by
  refine ⟨?_, ?_, ?_⟩
  · rw [← Bool.not_eq_true]
    intro hspace
    simp only [isspace, Bool.or_eq_true, decide_eq_true_eq] at hspace
    obtain ((((rfl | rfl) | rfl) | rfl) | rfl) | rfl := hspace <;> subst h <;> revert hl <;> decide
  · rintro rfl
    subst h
    revert hl
    decide
  · rintro rfl
    subst h
    revert hl
    decide

/-- A floating numeral starts with neither a blank nor a sign. -/
theorem IsFloat.start {body : List Char} (h : IsFloat body) :
    ∃ c rest, body = c :: rest ∧ isspace c = false ∧ c ≠ '+' ∧ c ≠ '-' := by
  have hname : ∀ {name : List Char} {l w}, name.map Char.toLower = l :: w → l ∈ ['i', 'n'] → ∀ tail,
      ∃ c rest, name ++ tail = c :: rest ∧ isspace c = false ∧ c ≠ '+' ∧ c ≠ '-' := by
    intro name l w heq hl tail
    cases name with
    | nil => cases heq
    | cons c name => exact ⟨c, name ++ tail, rfl, not_blank_of_toLower (List.cons.inj heq).1 hl⟩
  have hdigit : ∀ {c : Char}, c.isDigit = true → isspace c = false ∧ c ≠ '+' ∧ c ≠ '-' :=
    fun hc => ⟨isspace_of_isDigit hc, not_sign_of_isDigit hc⟩
  rcases h with h | h | ⟨name, tag, rfl, h, -⟩ | ⟨x, mantissa, exponent, rfl, -, -, -⟩ |
    ⟨mantissa, exponent, rfl, ⟨whole, frac, hwhole, hfrac, hne, hm⟩, -⟩
  · simpa using hname h (by decide) []
  · simpa using hname h (by decide) []
  · exact hname h (by decide) tag
  · exact ⟨'0', _, rfl, hdigit (by decide)⟩
  · cases whole with
    | cons c whole =>
      have hc := hdigit (hwhole c List.mem_cons_self)
      rcases hm with ⟨rfl, -⟩ | rfl
      · exact ⟨c, _, rfl, hc⟩
      · exact ⟨c, _, rfl, hc⟩
    | nil =>
      rcases hm with ⟨-, rfl⟩ | rfl
      · exact absurd ⟨rfl, rfl⟩ hne
      · exact ⟨'.', _, rfl, by decide, by decide, by decide⟩

/-- A floating conversion reads a text to its end exactly if it is blanks, a sign and a floating
numeral. -/
theorem floatingRest_eq_nil_iff {fmt : Format} {s : String} {x : Double}
    (h : readFloating fmt s = .ok x) : floatingRest s = [] ↔ Signed IsFloat s.toList := by
  rw [← signed_iff fun _ => IsFloat.start]
  refine ⟨fun hrest => isFloat_of_floatRest ?_ hrest, IsFloat.floatRest_eq_nil⟩
  intro hnil
  unfold readFloating at h
  dsimp only at h
  rw [hnil] at h
  cases h

end Floating

end Numeric
