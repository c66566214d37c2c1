import SignalRoute.Numeric.Rounding

/-!
# Doubles printed with six digits and read back

What the stream insertion prints of a double denotes its six-digit value (`sixDigits`), and
`std::stod` reads of that text the nearest double of this value (`stod_ostreamDouble`). The double
comes back exactly if it is the nearest one to a number with at most six significant digits
(`SixDigit`): six digits are few enough that such a number can be told from its double
(`sixDigits_eq`). A double whose six digits are below the smallest normal double does not come back
at all (`Tiny`).
-/

namespace Numeric

section SixDigits

variable {q : ℚ}

/-- The decimal number with six significant digits that is nearest to a positive rational, ties to
even. -/
def sixDigits (q : ℚ) : ℚ :=
  roundHalfEven (q * (10 : ℚ)^(5 - decimalExponent q)) * (10 : ℚ)^(decimalExponent q - 5)

/-- A positive rational lies between two powers of ten. -/
theorem decimalExponent_spec (hq : 0 < q) :
    (10 : ℚ)^decimalExponent q ≤ q ∧ q < (10 : ℚ)^(decimalExponent q + 1) := by
  have hspec := exponent_spec (b := 10) (by omega) hq
  push_cast at hspec
  exact hspec

/-- Scaled to its first six digits, a positive rational lies between `10^5` and `10^6`. -/
theorem scaled_bounds (hq : 0 < q) :
    (10 : ℚ)^5 ≤ q * (10 : ℚ)^(5 - decimalExponent q) ∧
      q * (10 : ℚ)^(5 - decimalExponent q) < (10 : ℚ)^6 := by
  obtain ⟨hle, hlt⟩ := decimalExponent_spec hq
  have hpos : (0 : ℚ) < (10 : ℚ)^(5 - decimalExponent q) := by positivity
  constructor
  · calc (10 : ℚ)^5
      _ = (10 : ℚ)^decimalExponent q * (10 : ℚ)^(5 - decimalExponent q) := by
        rw [← zpow_add₀ (by norm_num), add_sub_cancel]
        norm_num
      _ ≤ q * (10 : ℚ)^(5 - decimalExponent q) := mul_le_mul_of_nonneg_right hle hpos.le
  · calc q * (10 : ℚ)^(5 - decimalExponent q)
      _ < (10 : ℚ)^(decimalExponent q + 1) * (10 : ℚ)^(5 - decimalExponent q) :=
        mul_lt_mul_of_pos_right hlt hpos
      _ = (10 : ℚ)^6 := by
        rw [← zpow_add₀ (by norm_num), show decimalExponent q + 1 + (5 - decimalExponent q) = 6 by ring]
        norm_num

/-- The six digits as an integer. -/
theorem mantissa_bounds (hq : 0 < q) :
    10^5 ≤ roundHalfEven (q * (10 : ℚ)^(5 - decimalExponent q)) ∧
      roundHalfEven (q * (10 : ℚ)^(5 - decimalExponent q)) ≤ 10^6 := by
  obtain ⟨hle, hlt⟩ := scaled_bounds hq
  constructor
  · exact le_roundHalfEven (by exact_mod_cast hle)
  · exact roundHalfEven_le (by positivity) (by exact_mod_cast hlt.le)

/-- The six digits of a number lie between the same powers of ten as the number. -/
theorem sixDigits_bounds {q : ℚ} (hq : 0 < q) :
    (10 : ℚ)^decimalExponent q ≤ sixDigits q ∧ sixDigits q ≤ (10 : ℚ)^(decimalExponent q + 1) := by
  obtain ⟨hle, hlt⟩ := mantissa_bounds hq
  unfold sixDigits
  generalize roundHalfEven (q * (10 : ℚ)^(5 - decimalExponent q)) = m at *
  have hten : (0 : ℚ) < (10 : ℚ)^(decimalExponent q - 5) := by positivity
  have hscale : ∀ i : ℕ, (10 : ℚ)^(decimalExponent q + i - 5) =
      (10 : ℚ)^i * (10 : ℚ)^(decimalExponent q - 5) := by
    intro i
    rw [← zpow_natCast (10 : ℚ) i, ← zpow_add₀ (by norm_num)]
    congr 1
    ring
  have hfive := hscale 5
  have hsix := hscale 6
  rw [Nat.cast_ofNat, add_sub_cancel_right] at hfive
  rw [Nat.cast_ofNat, show decimalExponent q + 6 - 5 = decimalExponent q + 1 by ring] at hsix
  rw [hfive, hsix]
  constructor
  · exact mul_le_mul_of_nonneg_right (by exact_mod_cast hle) hten.le
  · exact mul_le_mul_of_nonneg_right (by exact_mod_cast hlt) hten.le

/-- A number with at most six significant digits has a mantissa of exactly six. -/
theorem exists_six_digits {n : ℕ} (hn : 0 < n) (hn6 : n < 10^6) (k : ℤ) :
    ∃ (m : ℕ) (j : ℤ), 10^5 ≤ m ∧ m < 10^6 ∧ (n : ℚ) * (10 : ℚ)^k = m * (10 : ℚ)^j := by
  have hlog : Nat.log 10 n ≤ 5 := Nat.le_of_lt_succ (Nat.log_lt_of_lt_pow hn.ne' hn6)
  obtain ⟨i, hi⟩ := Nat.exists_eq_add_of_le hlog
  have hpow : ∀ a, 10^(a + i) = 10^a * 10^i := fun a => Nat.pow_add 10 a i
  have hle := Nat.pow_log_le_self 10 hn.ne'
  have hlt := Nat.lt_pow_succ_log_self (b := 10) (by decide) n
  refine ⟨n * 10^i, k - i, ?_, ?_, ?_⟩
  · rw [hi, hpow]
    exact Nat.mul_le_mul_right _ hle
  · have hsix : 10^6 = 10^(Nat.log 10 n + 1) * 10^i := by
      rw [← hpow]
      congr 1
      omega
    rw [hsix]
    exact Nat.mul_lt_mul_of_pos_right hlt (by positivity)
  · push_cast
    rw [mul_assoc, ← zpow_natCast (10 : ℚ) i, ← zpow_add₀ (by norm_num), add_sub_cancel]

/-- A number close enough to one with six significant digits has its six digits. -/
theorem sixDigits_eq {x : ℚ} {n : ℕ} {k : ℤ} (hn : 0 < n) (hn6 : n < 10^6)
    (hx : |x - n * (10 : ℚ)^k| ≤ n * (10 : ℚ)^k / 10^7) : sixDigits x = n * (10 : ℚ)^k := by
  obtain ⟨m, j, hm, hm6, heq⟩ := exists_six_digits hn hn6 k
  rw [heq] at hx ⊢
  have hm_le : (100000 : ℚ) ≤ m := by exact_mod_cast hm
  have hm6_le : (m : ℚ) ≤ 999999 := by exact_mod_cast Nat.le_of_lt_succ hm6
  have hten : (0 : ℚ) < (10 : ℚ)^j := by positivity
  -- In units of the last digit, `x` is next to `m`.
  obtain ⟨y, rfl⟩ : ∃ y, x = y * (10 : ℚ)^j := ⟨x / (10 : ℚ)^j, (div_mul_cancel₀ x hten.ne').symm⟩
  have hy : |y - m| ≤ m / 10000000 := by
    rw [← sub_mul, abs_mul, abs_of_pos hten, mul_div_right_comm] at hx
    exact (le_of_mul_le_mul_right hx hten).trans_eq (by norm_num)
  obtain ⟨hlower, hupper⟩ := abs_le.mp hy
  have hy0 : 0 < y := by linarith
  -- So the decimal exponent of `x` is that of the last digit plus five, or plus four.
  obtain ⟨hle, hlt⟩ := decimalExponent_spec (mul_pos hy0 hten)
  have hscale : ∀ i : ℤ, (10 : ℚ)^(j + i) = (10 : ℚ)^i * (10 : ℚ)^j := fun i => by
    rw [zpow_add₀ (by norm_num), mul_comm]
  have habove : decimalExponent (y * (10 : ℚ)^j) < j + 6 := by
    rw [← zpow_lt_zpow_iff_right₀ (a := (10 : ℚ)) (by norm_num)]
    refine hle.trans_lt ?_
    rw [hscale]
    have hmillion : (10 : ℚ)^(6 : ℤ) = 1000000 := by norm_num
    exact mul_lt_mul_of_pos_right (by linarith) hten
  have hbelow : j + 4 < decimalExponent (y * (10 : ℚ)^j) + 1 := by
    rw [← zpow_lt_zpow_iff_right₀ (a := (10 : ℚ)) (by norm_num)]
    refine lt_of_le_of_lt ?_ hlt
    rw [hscale]
    have hmyriad : (10 : ℚ)^(4 : ℤ) = 10000 := by norm_num
    exact mul_le_mul_of_nonneg_right (by linarith) hten.le
  have hscaled : ∀ i : ℤ, decimalExponent (y * (10 : ℚ)^j) = j + i →
      y * (10 : ℚ)^j * (10 : ℚ)^(5 - decimalExponent (y * (10 : ℚ)^j)) = y * (10 : ℚ)^(5 - i) := by
    intro i hi
    rw [hi, mul_assoc, ← zpow_add₀ (by norm_num)]
    congr 2
    ring
  unfold sixDigits
  rcases Int.lt_or_le (decimalExponent (y * (10 : ℚ)^j)) (j + 5) with hcase | hcase
  · -- `x` is just below a power of ten, and `m` is that power.
    have hexponent : decimalExponent (y * (10 : ℚ)^j) = j + 4 := by omega
    have hten_y : y < 100000 := by
      rw [hexponent, add_assoc, hscale] at hlt
      exact (lt_of_mul_lt_mul_right hlt hten.le).trans_eq (by norm_num)
    have hm_lt : (m : ℚ) < 100001 := by linarith
    have hpower : m = 100000 := Nat.le_antisymm (Nat.le_of_lt_succ (by exact_mod_cast hm_lt)) hm
    rw [hpower] at hlower
    have hround : roundHalfEven (y * (10 : ℚ)^(5 - 4 : ℤ)) = 1000000 := by
      refine roundHalfEven_eq (by positivity) ?_
      rw [abs_lt]
      norm_num at hlower ⊢
      constructor <;> linarith
    rw [hscaled 4 hexponent, hexponent, hround, hpower, show j + 4 - 5 = j + -1 by ring, hscale]
    norm_num
    ring
  · -- Otherwise `x` has the exponent of `m`, and `m` is the nearest integer.
    have hexponent : decimalExponent (y * (10 : ℚ)^j) = j + 5 := by omega
    have hround : roundHalfEven y = m := by
      refine roundHalfEven_eq hy0.le (hy.trans_lt ?_)
      linarith
    rw [hscaled 5 hexponent, hexponent, sub_self, zpow_zero, mul_one, hround, add_sub_cancel_right]

end SixDigits

section Text

/-- A digit has no case. -/
theorem toLower_of_isDigit {c : Char} (h : c.isDigit = true) : c.toLower = c := by
  have hc := Char.isDigit_iff_toNat.mp h
  unfold Char.toLower
  rw [dif_neg]
  rintro ⟨hA, -⟩
  have hA' : 65 ≤ c.toNat := by exact_mod_cast hA
  have : c.toNat ≤ 57 := hc.2
  omega

/-- Digits with a point in them are read up to the exponent. -/
theorem readMantissa_withPoint {whole frac tail : List Char} (hwhole : ∀ c ∈ whole, c.isDigit = true)
    (hne : whole ≠ []) (hfrac : ∀ c ∈ frac, c.isDigit = true)
    (htail : tail = [] ∨ ∃ rest, tail = 'e' :: rest) :
    readMantissa Char.isDigit (withPoint whole frac ++ tail) = some (whole, frac, tail) := by
  have htake : tail.takeWhile Char.isDigit = [] ∧ tail.dropWhile Char.isDigit = tail := by
    rcases htail with rfl | ⟨rest, rfl⟩
    · exact ⟨rfl, rfl⟩
    · exact ⟨rfl, rfl⟩
  unfold readMantissa withPoint
  split_ifs with hempty
  · rw [hempty, List.takeWhile_append_of_pos hwhole, List.dropWhile_append_of_pos hwhole, htake.1, htake.2,
      List.append_nil]
    rcases htail with rfl | ⟨rest, rfl⟩
    · simp [hne]
    · simp [hne]
  · -- The whole part ends at the point, and the digits after it at the tail.
    have hpoint : (whole ++ '.' :: frac) ++ tail = whole ++ '.' :: (frac ++ tail) := by simp
    have hstop : ('.' :: (frac ++ tail)).takeWhile Char.isDigit = [] ∧
        ('.' :: (frac ++ tail)).dropWhile Char.isDigit = '.' :: (frac ++ tail) := ⟨rfl, rfl⟩
    have hfrac_take : (frac ++ tail).takeWhile Char.isDigit = _ := List.takeWhile_append_of_pos hfrac
    have hfrac_drop : (frac ++ tail).dropWhile Char.isDigit = _ := List.dropWhile_append_of_pos hfrac
    rw [htake.1, List.append_nil] at hfrac_take
    rw [htake.2] at hfrac_drop
    rw [hpoint, List.takeWhile_append_of_pos hwhole, List.dropWhile_append_of_pos hwhole, hstop.1,
      hstop.2, List.append_nil]
    simp [hne, hfrac_take, hfrac_drop]

/-- The zeros that are dropped. -/
theorem dropTrailingZeros_append (f : List Char) :
    ∃ k, f = dropTrailingZeros f ++ List.replicate k '0' := by
  have hsplit : f.reverse.takeWhile (· = '0') ++ f.reverse.dropWhile (· = '0') = f.reverse :=
    List.takeWhile_append_dropWhile
  have hzeros : ∀ c ∈ f.reverse.takeWhile (· = '0'), c = '0' := fun c hc =>
    of_decide_eq_true (List.mem_takeWhile_imp (p := fun c => decide (c = '0')) hc)
  rw [List.eq_replicate_of_mem hzeros] at hsplit
  refine ⟨(f.reverse.takeWhile (· = '0')).length, ?_⟩
  unfold dropTrailingZeros
  rw [← List.reverse_replicate, ← List.reverse_append, hsplit, List.reverse_reverse]

/-- Dropping zeros after the point does not change a value. -/
theorem digits_value (l f : List Char) (z : ℤ) :
    (Nat.ofDigitChars 10 (l ++ dropTrailingZeros f) 0 : ℚ) *
        (10 : ℚ)^(z - (dropTrailingZeros f).length) =
      (Nat.ofDigitChars 10 (l ++ f) 0 : ℚ) * (10 : ℚ)^(z - f.length) := by
  obtain ⟨k, hk⟩ := dropTrailingZeros_append f
  generalize dropTrailingZeros f = g at hk
  -- Each zero multiplies the value by ten and is worth one place.
  have hvalue : Nat.ofDigitChars 10 (l ++ f) 0 = 10^k * Nat.ofDigitChars 10 (l ++ g) 0 := by
    rw [hk, ← List.append_assoc, Nat.ofDigitChars_append, Nat.ofDigitChars_replicate_zero]
  have hlength : z - (g.length : ℤ) = k + (z - f.length) := by
    rw [hk, List.length_append, List.length_replicate]
    push_cast
    ring
  rw [hvalue, hlength, zpow_add₀ (by norm_num), zpow_natCast]
  push_cast
  ring

/-- The exponent part that is printed. -/
theorem readExponent_printed (e : ℤ) :
    readExponent 'e' ('e' :: (if e < 0 then '-' else '+') ::
      (if (Nat.toDigits 10 e.natAbs).length < 2 then '0' :: Nat.toDigits 10 e.natAbs
        else Nat.toDigits 10 e.natAbs)) = e := by
  have hdigits : ∀ c ∈ Nat.toDigits 10 e.natAbs, c.isDigit = true := fun c =>
    Nat.isDigit_of_mem_toDigits (by decide) (by decide)
  generalize hds : (if (Nat.toDigits 10 e.natAbs).length < 2 then '0' :: Nat.toDigits 10 e.natAbs
        else Nat.toDigits 10 e.natAbs) = ds
  have hall : ds.takeWhile Char.isDigit = ds := by
    rw [← hds, List.takeWhile_eq_self_iff]
    split
    · exact List.forall_mem_cons.mpr ⟨rfl, hdigits⟩
    · exact hdigits
  have hvalue : Nat.ofDigitChars 10 ds 0 = e.natAbs := by
    rw [← hds]
    split
    · exact Nat.ofDigitChars_ten_toDigits
    · exact Nat.ofDigitChars_ten_toDigits
  have hread : ∀ negative : Bool, readExponent 'e' ('e' :: (if negative then '-' else '+') :: ds) =
      if negative then -(e.natAbs : ℤ) else e.natAbs := by
    intro negative
    rw [← hvalue]
    cases negative <;> simp [readExponent, splitSign, hall]
  have hsign := hread (decide (e < 0))
  simp only [decide_eq_true_eq] at hsign
  rw [hsign]
  split_ifs <;> omega

/-- The zeros that are left out of digits are the only thing that is. -/
theorem isDigit_of_mem_dropTrailingZeros {f : List Char} (hf : ∀ c ∈ f, c.isDigit = true) :
    ∀ c ∈ dropTrailingZeros f, c.isDigit = true := by
  intro c hc
  obtain ⟨k, hk⟩ := dropTrailingZeros_append f
  exact hf c (hk ▸ List.mem_append_left _ hc)

/-- A text is a decimal numeral of this value: digits, with or without a point and digits after it, and
then nothing or an exponent. -/
def Denotes (text : List Char) (value : ℚ) : Prop :=
  ∃ whole frac tail, text = withPoint whole frac ++ tail ∧ whole ≠ [] ∧
    (∀ c ∈ whole, c.isDigit = true) ∧ (∀ c ∈ frac, c.isDigit = true) ∧
    (tail = [] ∨ ∃ rest, tail = 'e' :: rest) ∧
    (Nat.ofDigitChars 10 (whole ++ frac) 0 : ℚ) * (10 : ℚ)^(readExponent 'e' tail - frac.length) = value

/-- The digits `ds` with the point after the first `n + 1` of them, and an exponent. -/
theorem denotes_point {ds : List Char} (hds : ∀ c ∈ ds, c.isDigit = true) (n : ℕ) (hn : n < ds.length)
    (tail : List Char) (htail : tail = [] ∨ ∃ rest, tail = 'e' :: rest) :
    Denotes (withPoint (ds.take (n + 1)) (dropTrailingZeros (ds.drop (n + 1))) ++ tail)
      ((Nat.ofDigitChars 10 ds 0 : ℚ) * (10 : ℚ)^(readExponent 'e' tail - (ds.length - (n + 1)))) := by
  refine ⟨_, _, tail, rfl, ?_, fun c hc => hds c (List.mem_of_mem_take hc),
    isDigit_of_mem_dropTrailingZeros fun c hc => hds c (List.mem_of_mem_drop hc), htail, ?_⟩
  · rw [← List.length_pos_iff, List.length_take]
    omega
  · rw [digits_value, List.take_append_drop, List.length_drop]
    push_cast [Nat.succ_le_of_lt hn]
    rfl

/-- The digits `ds` after a point and `n` zeros. -/
theorem denotes_below_one {ds : List Char} (hds : ∀ c ∈ ds, c.isDigit = true) (n : ℕ) :
    Denotes (withPoint ['0'] (List.replicate n '0' ++ dropTrailingZeros ds))
      ((Nat.ofDigitChars 10 ds 0 : ℚ) * (10 : ℚ)^(-(n : ℤ) - ds.length)) := by
  refine ⟨['0'], _, [], (List.append_nil _).symm, List.cons_ne_nil _ _, ?_, ?_, .inl rfl, ?_⟩
  · exact List.forall_mem_singleton.mpr rfl
  · intro c hc
    rcases List.mem_append.mp hc with hc | hc
    · rw [List.eq_of_mem_replicate hc]
      rfl
    · exact isDigit_of_mem_dropTrailingZeros hds c hc
  · have hexponent : readExponent 'e' [] - ((List.replicate n '0' ++ dropTrailingZeros ds).length : ℤ) =
        -(n : ℤ) - (dropTrailingZeros ds).length := by
      change 0 - ((List.replicate n '0' ++ dropTrailingZeros ds).length : ℤ) = _
      rw [List.length_append, List.length_replicate]
      omega
    have hzeros : Nat.ofDigitChars 10 (['0'] ++ List.replicate n '0') 0 = 0 := by
      rw [Nat.ofDigitChars_append, Nat.ofDigitChars_replicate_zero]
      exact Nat.mul_zero _
    rw [hexponent, ← List.append_assoc, digits_value, Nat.ofDigitChars_append, hzeros]

/-- A positive rational is printed as a numeral of its six-digit value. -/
theorem denotes_formatG {q : ℚ} (hq : 0 < q) : Denotes (formatG q) (sixDigits q) := by
  obtain ⟨hle, hlt⟩ := mantissa_bounds hq
  unfold formatG sixDigits
  dsimp only
  generalize decimalExponent q = e at *
  generalize roundHalfEven (q * (10 : ℚ)^(5 - e)) = m at *
  -- A carry into a seventh digit moves the point.
  obtain ⟨e', m', hcarry, hle', hlt', hvalue⟩ : ∃ e' m',
      (if m = 10^6 then (e + 1, 10^5) else (e, m)) = (e', m') ∧ 10^5 ≤ m' ∧ m' < 10^6 ∧
        (m' : ℚ) * (10 : ℚ)^(e' - 5) = m * (10 : ℚ)^(e - 5) := by
    by_cases hm : m = 10^6
    · refine ⟨e + 1, 10^5, if_pos hm, le_refl _, by norm_num, ?_⟩
      rw [hm, show e + 1 - 5 = 1 + (e - 5) by ring, zpow_add₀ (by norm_num)]
      push_cast
      ring
    · exact ⟨e, m, if_neg hm, hle, Nat.lt_of_le_of_ne hlt hm, rfl⟩
  rw [← hvalue, hcarry]
  dsimp only
  have hdigits : ∀ c ∈ Nat.toDigits 10 m', c.isDigit = true := fun c =>
    Nat.isDigit_of_mem_toDigits (by decide) (by decide)
  have hlength : (Nat.toDigits 10 m').length = 6 := by
    have hlength_le := fun k (hk : 0 < k) =>
      Nat.length_toDigits_le_iff (k := k) (n := m') (b := 10) (by decide) hk
    have hupper := (hlength_le 6 (by decide)).mpr hlt'
    have hlower := (hlength_le 5 (by decide)).not.mpr (Nat.not_lt.mpr hle')
    omega
  have hread : Nat.ofDigitChars 10 (Nat.toDigits 10 m') 0 = m' := Nat.ofDigitChars_ten_toDigits
  generalize Nat.toDigits 10 m' = ds at *
  rw [← hread]
  -- The three layouts: with a point, below one, and with an exponent.
  by_cases hfixed : -4 ≤ e' ∧ e' < 6
  · rw [if_pos hfixed]
    by_cases hwhole : 0 ≤ e'
    · rw [if_pos hwhole]
      have hdenotes := denotes_point hdigits e'.toNat (by omega) [] (.inl rfl)
      rw [List.append_nil, hlength] at hdenotes
      convert hdenotes using 3
      change e' - 5 = 0 - _
      push_cast
      omega
    · rw [if_neg hwhole]
      have hdenotes := denotes_below_one hdigits ((-e').toNat - 1)
      rw [hlength] at hdenotes
      convert hdenotes using 3
      push_cast
      omega
  · rw [if_neg hfixed]
    have hexponent := readExponent_printed e'
    generalize (if e' < 0 then '-' else '+') :: _ = rest at hexponent ⊢
    have hdenotes := denotes_point hdigits 0 (by omega) ('e' :: rest) (.inr ⟨rest, rfl⟩)
    rw [hexponent, hlength] at hdenotes
    convert hdenotes using 3
    push_cast
    ring

/-- A numeral starts with a digit, and the next character is no letter but `e`. -/
theorem Denotes.cons {text : List Char} {value : ℚ} (h : Denotes text value) : ∃ c cs, text = c :: cs ∧
    c.isDigit = true ∧ ∀ d ∈ cs.head?, d.isDigit = true ∨ d = '.' ∨ d = 'e' := by
  obtain ⟨whole, frac, tail, rfl, hne, hwhole, -, htail, -⟩ := h
  obtain ⟨c, cs, rfl⟩ := List.exists_cons_of_ne_nil hne
  obtain ⟨hc, hcs⟩ := List.forall_mem_cons.mp hwhole
  -- What follows the first character is a digit, or the start of what follows the whole part.
  have hrest : ∀ after : List Char, (∀ d ∈ after.head?, d = '.' ∨ d = 'e') →
      ∀ d ∈ (cs ++ after).head?, d.isDigit = true ∨ d = '.' ∨ d = 'e' := by
    intro after hafter d hd
    cases cs with
    | nil => exact .inr (hafter d hd)
    | cons x xs => exact .inl (hcs d (Option.mem_some_iff.mp hd ▸ List.mem_cons_self))
  have htail_head : ∀ d ∈ tail.head?, d = '.' ∨ d = 'e' := by
    rcases htail with rfl | ⟨rest, rfl⟩
    · exact nofun
    · exact fun d hd => .inr (Option.mem_some_iff.mp hd).symm
  unfold withPoint
  by_cases hempty : frac = []
  · rw [if_pos hempty]
    exact ⟨c, cs ++ tail, rfl, hc, hrest tail htail_head⟩
  · rw [if_neg hempty]
    refine ⟨c, cs ++ ('.' :: frac ++ tail), by simp, hc, hrest _ fun d hd => ?_⟩
    exact .inl (Option.mem_some_iff.mp hd).symm

/-- A numeral is read as what it denotes. -/
theorem Denotes.readFloat {text : List Char} {value : ℚ} (h : Denotes text value) :
    readFloat text = some (.finite value) := by
  obtain ⟨c, cs, htext, hc, hnext⟩ := h.cons
  have hdec : readDecFloat text = some value := by
    obtain ⟨whole, frac, tail, rfl, hne, hwhole, hfrac, htail, hvalue⟩ := h
    unfold readDecFloat
    rw [readMantissa_withPoint hwhole hne hfrac htail]
    exact congrArg some hvalue
  -- A numeral starts with a digit, so it is no word, and has no `x` in the second place.
  have hword : ∀ x ws, x.isDigit = false → startsWithWord (x :: ws) text = false := by
    intro x ws hx
    have hne : (x == c) = false := by
      rw [beq_eq_false_iff_ne]
      rintro rfl
      rw [hc] at hx
      cases hx
    unfold startsWithWord
    rw [htext, List.map_cons, toLower_of_isDigit hc, List.isPrefixOf_cons_cons, hne, Bool.false_and]
  have hhex : startsWithWord ['0', 'x'] text = false := by
    unfold startsWithWord
    rw [htext, List.map_cons, List.isPrefixOf_cons_cons]
    cases cs with
    | nil => exact Bool.and_false _
    | cons d ds =>
      have hd : (('x' : Char) == d.toLower) = false := by
        rw [beq_eq_false_iff_ne]
        rcases hnext d rfl with hd | rfl | rfl
        · rw [toLower_of_isDigit hd]
          rintro rfl
          cases hd
        · decide
        · decide
      rw [List.map_cons, List.isPrefixOf_cons_cons, hd, Bool.false_and, Bool.and_false]
  unfold Numeric.readFloat
  rw [hword 'i' _ rfl, hword 'n' _ rfl, hhex, hdec]
  rfl

/-- The sign of a numeral with or without a minus sign. -/
theorem Denotes.splitSign {text : List Char} {value : ℚ} (h : Denotes text value) (negative : Bool) :
    splitSign ((if negative then '-' :: text else text).dropWhile isspace) = (negative, text) := by
  obtain ⟨c, cs, htext, hc, -⟩ := h.cons
  cases negative with
  | false =>
    rw [if_neg Bool.false_ne_true, htext, List.dropWhile_cons_of_neg (by simp [isspace_of_isDigit hc])]
    exact splitSign_of_isDigit hc
  | true => rfl

/-- What is read of a numeral with or without a minus sign. -/
theorem Denotes.readFloating {text : List Char} {value : ℚ} (h : Denotes text value) (fmt : Format)
    (negative : Bool) :
    readFloating fmt (String.ofList (if negative then '-' :: text else text)) =
      if fmt.outOfRange value then .error .out_of_range
      else .ok (.finite (if negative then -fmt.round value else fmt.round value)) := by
  unfold Numeric.readFloating
  rw [String.toList_ofList, h.splitSign]
  dsimp only
  rw [h.readFloat]

/-- The characters of printed numbers. -/
def IsNumeral (c : Char) : Prop := c.isAlphanum = true ∨ c = '.' ∨ c = '+' ∨ c = '-'

instance : DecidablePred IsNumeral := fun _ => inferInstanceAs (Decidable (_ ∨ _ ∨ _ ∨ _))

/-- A digit is one. -/
theorem isNumeral_of_isDigit {c : Char} (h : c.isDigit = true) : IsNumeral c := by
  left
  unfold Char.isAlphanum
  rw [h, Bool.or_true]

/-- A printed natural number consists of numeral characters. -/
theorem isNumeral_of_mem_toString {n : ℕ} {c : Char} (h : c ∈ (toString n).toList) : IsNumeral c :=
  isNumeral_of_isDigit (isDigit_of_mem_toString h)

/-- So does a printed integer. -/
theorem isNumeral_of_mem_toString_int {z : ℤ} {c : Char} (h : c ∈ (toString z).toList) : IsNumeral c := by
  cases z with
  | ofNat n => exact isNumeral_of_mem_toString (n := n) h
  | negSucc n =>
    rw [toString_negSucc, String.toList_append] at h
    rcases List.mem_append.mp h with h | h
    · cases List.mem_singleton.mp h
      exact .inr (.inr (.inr rfl))
    · exact isNumeral_of_mem_toString h

/-- A point is one too. -/
theorem isNumeral_of_mem_withPoint {whole frac : List Char} (hwhole : ∀ c ∈ whole, IsNumeral c)
    (hfrac : ∀ c ∈ frac, IsNumeral c) : ∀ c ∈ withPoint whole frac, IsNumeral c := by
  unfold withPoint
  split
  · exact hwhole
  · intro c hc
    rcases List.mem_append.mp hc with hc | hc
    · exact hwhole c hc
    · rcases List.mem_cons.mp hc with rfl | hc
      · exact .inr (.inl rfl)
      · exact hfrac c hc

/-- So does what `%g` prints. -/
theorem isNumeral_of_mem_formatG (q : ℚ) : ∀ c ∈ formatG q, IsNumeral c := by
  have hdigits : ∀ n, ∀ c ∈ Nat.toDigits 10 n, IsNumeral c := fun n c hc =>
    isNumeral_of_isDigit (Nat.isDigit_of_mem_toDigits (by decide) (by decide) hc)
  have hdrop : ∀ f, (∀ c ∈ f, IsNumeral c) → ∀ c ∈ dropTrailingZeros f, IsNumeral c := by
    intro f hf c hc
    obtain ⟨k, hk⟩ := dropTrailingZeros_append f
    exact hf c (hk ▸ List.mem_append_left _ hc)
  have hzeros : ∀ n, ∀ c ∈ List.replicate n '0', IsNumeral c := fun n c hc =>
    List.eq_of_mem_replicate hc ▸ .inl rfl
  unfold formatG
  dsimp only
  generalize (if _ = 10^6 then _ else _ : ℤ × ℕ) = em
  obtain ⟨e, m⟩ := em
  dsimp only
  have hds : ∀ c ∈ Nat.toDigits 10 m, IsNumeral c := hdigits m
  generalize Nat.toDigits 10 m = ds at *
  have htake : ∀ n, ∀ c ∈ ds.take n, IsNumeral c := fun n c hc => hds c (List.mem_of_mem_take hc)
  have hskip : ∀ n, ∀ c ∈ ds.drop n, IsNumeral c := fun n c hc => hds c (List.mem_of_mem_drop hc)
  split
  · split
    · exact isNumeral_of_mem_withPoint (htake _) (hdrop _ (hskip _))
    · refine isNumeral_of_mem_withPoint (List.forall_mem_singleton.mpr (.inl rfl)) fun c hc => ?_
      rcases List.mem_append.mp hc with hc | hc
      · exact hzeros _ c hc
      · exact hdrop _ hds c hc
  · intro c hc
    rcases List.mem_append.mp hc with hc | hc
    · exact isNumeral_of_mem_withPoint (htake _) (hdrop _ (hskip _)) c hc
    -- The exponent has a marker, a sign and digits.
    · rcases List.mem_cons.mp hc with rfl | hc
      · exact .inl rfl
      rcases List.mem_cons.mp hc with rfl | hc
      · split
        · exact .inr (.inr (.inr rfl))
        · exact .inr (.inr (.inl rfl))
      · split at hc
        · rcases List.mem_cons.mp hc with rfl | hc
          · exact .inl rfl
          · exact hdigits _ c hc
        · exact hdigits _ c hc

/-- A printed double consists of numeral characters. -/
theorem isNumeral_of_mem_ostreamDouble {x : Double} {c : Char} (h : c ∈ (ostreamDouble x).toList) :
    IsNumeral c := by
  have hword (word : String) (hall : word.toList.all (fun c => c.isAlphanum || c == '-') = true)
      (hc : c ∈ word.toList) : IsNumeral c := by
    rcases Bool.or_eq_true_iff.mp (List.all_eq_true.mp hall c hc) with halnum | hminus
    · exact .inl halnum
    · exact .inr (.inr (.inr (eq_of_beq hminus)))
  unfold ostreamDouble at h
  cases x with
  | finite q =>
    dsimp only at h
    split at h
    · exact List.mem_singleton.mp h ▸ .inl rfl
    · split at h
      · rw [String.toList_ofList] at h
        rcases List.mem_cons.mp h with rfl | h
        · exact .inr (.inr (.inr rfl))
        · exact isNumeral_of_mem_formatG _ c h
      · rw [String.toList_ofList] at h
        exact isNumeral_of_mem_formatG _ c h
  | infinite negative =>
    cases negative with
    | false => exact hword "inf" (by decide) h
    | true => exact hword "-inf" (by decide) h
  | nan => exact hword "nan" (by decide) h

/-- No printed double is empty. -/
theorem ostreamDouble_ne_nil (x : Double) : (ostreamDouble x).toList ≠ [] := by
  unfold ostreamDouble
  cases x with
  | finite q =>
    dsimp only
    split
    · decide
    · rename_i hzero
      split
      · rw [String.toList_ofList]
        exact List.cons_ne_nil _ _
      · rename_i hneg
        have hpos : 0 < q := lt_of_le_of_ne (not_lt.mp hneg) (Ne.symm hzero)
        obtain ⟨c, cs, htext, -⟩ := (denotes_formatG hpos).cons
        rw [String.toList_ofList, htext]
        exact List.cons_ne_nil _ _
  | infinite negative => cases negative <;> decide
  | nan => decide

end Text

/-- A printed number has no comma in it, and a printed integer is not empty. -/
theorem comma_notMem_int (z : ℤ) : ',' ∉ (toString z).toList := fun h =>
  absurd (isNumeral_of_mem_toString_int h) (by decide)

theorem comma_notMem_double (x : Double) : ',' ∉ (ostreamDouble x).toList := fun h =>
  absurd (isNumeral_of_mem_ostreamDouble h) (by decide)

theorem toString_int_ne_nil (z : ℤ) : (toString z).toList ≠ [] := by
  cases z with
  | ofNat n =>
    obtain ⟨c, cs, hcs, -⟩ := toList_toString_cons n
    rw [show toString (Int.ofNat n) = toString n from rfl, hcs]
    exact List.cons_ne_nil _ _
  | negSucc n =>
    rw [toString_negSucc, String.toList_append]
    exact List.cons_ne_nil _ _

section Range

/-- The smallest double that is not subnormal lies between two neighbouring six-digit numbers. -/
theorem double_range : (222507 / 10^313 : ℚ) < 1 / 2^Format.double.emin ∧
    (1 / 2^Format.double.emin : ℚ) < 222508 / 10^313 := by
  decide +kernel

/-- The six digits of the largest doubles round down. -/
theorem largest_double : (10^308 : ℚ) < 2^1024 ∧ (2^1024 : ℚ) < (179769 + 1 / 2) * 10^303 ∧
    (179769 * 10^303 : ℚ) < 2^(Format.double.emax + 1) - 2^(Format.double.emax - Format.double.precision) ∧
    (10^308 : ℚ) < 2^(Format.double.emax + 1) - 2^(Format.double.emax - Format.double.precision) ∧
    (2^1024 : ℚ) < 10^(309 : ℤ) := by
  decide +kernel

/-- Printed with six digits, no positive double is too large. -/
theorem sixDigits_lt {q : ℚ} (hq : 0 < q) (hmax : q < 2^1024) :
    sixDigits q < 2^(Format.double.emax + 1) - 2^(Format.double.emax - Format.double.precision) := by
  obtain ⟨-, hhalf, hdigits, hpower, hexponent_max⟩ := largest_double
  obtain ⟨hle, -⟩ := decimalExponent_spec hq
  have hexponent : decimalExponent q < 309 :=
    (zpow_lt_zpow_iff_right₀ (by norm_num)).mp ((hle.trans_lt hmax).trans hexponent_max)
  generalize (2^(Format.double.emax + 1) - 2^(Format.double.emax - Format.double.precision) : ℚ) = limit at *
  rcases Int.lt_or_le (decimalExponent q) 308 with hcase | hcase
  · calc sixDigits q
      _ ≤ (10 : ℚ)^(decimalExponent q + 1) := (sixDigits_bounds hq).2
      _ ≤ (10 : ℚ)^(308 : ℤ) := zpow_le_zpow_right₀ (by norm_num) (by omega)
      _ = (10 : ℚ)^308 := zpow_natCast _ 308
      _ < limit := hpower
  · have heq : decimalExponent q = 308 := by omega
    have hunit : (0 : ℚ) < (10 : ℚ)^303 := by positivity
    have hscale : (10 : ℚ)^(5 - 308 : ℤ) = ((10 : ℚ)^303)⁻¹ := by
      rw [← zpow_natCast (10 : ℚ) 303, ← zpow_neg]
      rfl
    have hround : roundHalfEven (q * (10 : ℚ)^(5 - 308 : ℤ)) ≤ 179769 := by
      refine roundHalfEven_le_of_lt 179769 (by positivity) ?_
      rw [hscale, ← div_eq_mul_inv, div_lt_iff₀ hunit]
      exact hmax.trans (by exact_mod_cast hhalf)
    calc sixDigits q
      _ = roundHalfEven (q * (10 : ℚ)^(5 - 308 : ℤ)) * (10 : ℚ)^(308 - 5 : ℤ) := by
        unfold sixDigits
        rw [heq]
      _ ≤ 179769 * (10 : ℚ)^(308 - 5 : ℤ) :=
        mul_le_mul_of_nonneg_right (by exact_mod_cast hround) (by positivity)
      _ = 179769 * (10 : ℚ)^303 := by rw [show (308 - 5 : ℤ) = (303 : ℕ) from rfl, zpow_natCast]
      _ < limit := hdigits

/-- A small number with few significant digits is no multiple of a power of two. -/
theorem den_mul_zpow_ne_one {m : ℕ} (hm : 0 < m) (hm6 : m ≤ 10^6) {k : ℤ} (hk : k ≤ -9) (n : ℕ) :
    ((m : ℚ) * (10 : ℚ)^k * 2^n).den ≠ 1 := by
  intro hden
  obtain ⟨i, hi⟩ : ∃ i : ℕ, k = -((9 + i : ℕ) : ℤ) := ⟨(-(k + 9)).toNat, by push_cast; omega⟩
  rw [hi, zpow_neg, zpow_natCast] at hden
  -- Powers of five do not cancel against powers of two.
  have hint : ((m * 2^n : ℕ) : ℚ) = (((m : ℚ) * ((10 : ℚ)^(9 + i))⁻¹ * 2^n).num : ℚ) * (10 : ℚ)^(9 + i) := by
    rw [(Rat.den_eq_one_iff _).mp hden]
    push_cast
    field_simp
  generalize ((m : ℚ) * ((10 : ℚ)^(9 + i))⁻¹ * 2^n).num = z at hint
  have heq : ((m * 2^n : ℕ) : ℤ) = z * 10^(9 + i) := by exact_mod_cast hint
  have hdvd : ((5^9 : ℕ) : ℤ) ∣ ((m * 2^n : ℕ) : ℤ) := by
    rw [heq]
    refine Dvd.dvd.mul_left ?_ _
    push_cast
    exact (pow_dvd_pow_of_dvd (by norm_num : (5 : ℤ) ∣ 10) 9).trans (pow_dvd_pow _ (Nat.le_add_right 9 i))
  -- So `5^9` divides `m`, which is positive and smaller.
  have hdvd_m : 5^9 ∣ m := by
    have hnat : 5^9 ∣ m * 2^n := Int.natCast_dvd_natCast.mp hdvd
    exact (Nat.Coprime.pow 9 n (by decide)).dvd_of_dvd_mul_right hnat
  have := Nat.le_of_dvd hm hdvd_m
  omega

/-- So is a six-digit number below the normal range. -/
theorem den_sixDigits_ne_one {q : ℚ} (hq : 0 < q) (hexponent : decimalExponent q ≤ -5) (n : ℕ) :
    (sixDigits q * 2^n).den ≠ 1 := by
  obtain ⟨hle, hlt⟩ := mantissa_bounds hq
  exact den_mul_zpow_ne_one (lt_of_lt_of_le (by norm_num) hle) hlt (by omega) n

/-- Where the numbers are that are printed below the smallest normal double. -/
theorem tiny_range : (2225075 / 10^314 : ℚ) = (222507 + 1 / 2) / 10^313 ∧
    (2225075 / 10^314 : ℚ) < 10^(-307 : ℤ) ∧ (10^(-308 : ℤ) : ℚ) ≤ 2225075 / 10^314 ∧
    (10^(-308 : ℤ) : ℚ) ≤ 222507 / 10^313 ∧ (222508 / 10^313 : ℚ) ≤ 10^(-307 : ℤ) ∧
    (2225075 / 10^314 : ℚ) < 2^1024 ∧ (2 : ℚ)^(-(Format.double.emin : ℤ)) < 2225075 / 10^314 := by
  decide +kernel

/-- Printed with six digits, a positive double is out of the range of doubles exactly if it is tiny. -/
theorem outOfRange_sixDigits {q : ℚ} (hq : 0 < q) (hmax : q < 2^1024) :
    Format.double.outOfRange (sixDigits q) = true ↔ q < 2225075 / 10^314 := by
  obtain ⟨hbelow, habove⟩ := double_range
  obtain ⟨htie, hupper, hlower, hlower6, hupper6, -, -⟩ := tiny_range
  obtain ⟨hle, hlt⟩ := decimalExponent_spec hq
  obtain ⟨hle6, hlt6⟩ := sixDigits_bounds hq
  have hmono : ∀ i j : ℤ, i ≤ j → (10 : ℚ)^i ≤ (10 : ℚ)^j := fun i j =>
    zpow_le_zpow_right₀ (by norm_num)
  have hlarge := sixDigits_lt hq hmax
  have hpos : 0 < sixDigits q := lt_of_lt_of_le (by positivity) hle6
  have hscaled : decimalExponent q = -308 →
      sixDigits q = roundHalfEven (q * (10 : ℚ)^313) / (10 : ℚ)^313 := by
    intro hexponent
    unfold sixDigits
    rw [hexponent, div_eq_mul_inv, ← zpow_natCast (10 : ℚ) 313, ← zpow_neg]
    rfl
  have hunit : (0 : ℚ) < (10 : ℚ)^313 := by positivity
  rw [Format.outOfRange_iff, or_iff_right hlarge.not_ge]
  generalize (1 / 2^Format.double.emin : ℚ) = smallest at *
  generalize (10 : ℚ)^313 = unit at *
  constructor
  · -- From the tie on, the digits round up to a number that is above the smallest normal double.
    rintro ⟨-, hsmall, -⟩
    by_contra htiny
    rw [not_lt] at htiny
    have hexponent : -308 ≤ decimalExponent q := by
      have := (zpow_lt_zpow_iff_right₀ (by norm_num)).mp ((hlower.trans htiny).trans_lt hlt)
      omega
    rcases Int.lt_or_le (-308) (decimalExponent q) with hcase | hcase
    · have := (hmono (-307) _ hcase).trans hle6
      exact absurd (hsmall.trans (habove.trans_le (hupper6.trans this))) (lt_irrefl _)
    · rw [htie, div_le_iff₀ hunit] at htiny
      have hround : 222507 < roundHalfEven (q * unit) :=
        lt_roundHalfEven_of_odd (by decide) (by exact_mod_cast htiny)
      have hround' : (222508 : ℚ) ≤ roundHalfEven (q * unit) := by exact_mod_cast hround
      have := div_le_div_of_nonneg_right hround' hunit.le
      rw [← hscaled (le_antisymm hcase hexponent)] at this
      exact absurd (hsmall.trans (habove.trans_le this)) (lt_irrefl _)
  · -- Below the tie they round to a number that is under it, and that is no double.
    intro htiny
    have hexponent : decimalExponent q ≤ -308 := by
      have := (zpow_lt_zpow_iff_right₀ (by norm_num)).mp (hle.trans_lt (htiny.trans hupper))
      omega
    refine ⟨hpos, lt_of_le_of_lt ?_ hbelow, den_sixDigits_ne_one hq (by omega) _⟩
    rcases Int.lt_or_le (decimalExponent q) (-308) with hcase | hcase
    · exact (hlt6.trans (hmono _ (-308) hcase)).trans hlower6
    · rw [htie, lt_div_iff₀ hunit] at htiny
      have hround : roundHalfEven (q * unit) ≤ 222507 :=
        roundHalfEven_le_of_lt 222507 (by positivity) (by exact_mod_cast htiny)
      have hround' : (roundHalfEven (q * unit) : ℚ) ≤ 222507 := by exact_mod_cast hround
      rw [hscaled (le_antisymm hexponent hcase)]
      exact div_le_div_of_nonneg_right hround' hunit.le

end Range

/-- A double that is printed and read back: the nearest double of its six-digit value, or out of
range. -/
theorem stod_ostreamDouble (q : ℚ) : stod (ostreamDouble (.finite q)) =
    if q = 0 then .ok (.finite 0)
    else if Format.double.outOfRange (sixDigits |q|) then .error .out_of_range
    else .ok (.finite (if q < 0 then -Format.double.round (sixDigits |q|)
      else Format.double.round (sixDigits |q|))) := by
  unfold ostreamDouble stod
  dsimp only
  by_cases hzero : q = 0
  · rw [if_pos hzero, if_pos hzero]
    decide +kernel
  rw [if_neg hzero, if_neg hzero]
  -- The sign is printed and read apart from the magnitude.
  by_cases hneg : q < 0
  · have hread := (denotes_formatG (neg_pos.mpr hneg)).readFloating Format.double true
    rw [if_pos hneg, abs_of_neg hneg]
    simpa only [if_true, if_pos hneg] using hread
  · have hpos : 0 < q := lt_of_le_of_ne (not_lt.mp hneg) (Ne.symm hzero)
    have hread := (denotes_formatG hpos).readFloating Format.double false
    rw [if_neg hneg, abs_of_pos hpos]
    simpa only [Bool.false_eq_true, if_false, if_neg hneg] using hread

/-- The double that is read of the six digits of a number. -/
def reread (q : ℚ) : ℚ :=
  if q = 0 then 0
  else if q < 0 then -Format.double.round (sixDigits |q|)
  else Format.double.round (sixDigits |q|)

/-- The number is nearest to one with at most six significant digits, among the doubles. -/
def SixDigit (q : ℚ) : Prop :=
  ∃ (n : ℕ) (k : ℤ), n < 10^6 ∧ |q| = Format.double.round (n * (10 : ℚ)^k)

/-- The number is not zero, and its six digits are below the smallest normal double. -/
def Tiny (q : ℚ) : Prop := q ≠ 0 ∧ |q| < 2225075 / 10^314

section RoundTrip

variable {q : ℚ}

/-- The six digits of a number are at most six significant digits. -/
theorem sixDigits_eq_mul (hq : 0 < q) :
    ∃ (n : ℕ) (k : ℤ), n < 10^6 ∧ sixDigits q = n * (10 : ℚ)^k := by
  obtain ⟨-, hle⟩ := mantissa_bounds hq
  unfold sixDigits
  generalize roundHalfEven (q * (10 : ℚ)^(5 - decimalExponent q)) = m at *
  rcases Nat.lt_or_eq_of_le hle with hlt | rfl
  · exact ⟨m, _, hlt, rfl⟩
  · refine ⟨10^5, decimalExponent q - 5 + 1, by norm_num, ?_⟩
    rw [zpow_add_one₀ (by norm_num)]
    push_cast
    ring

/-- A number that is not tiny is the nearest double of its six digits exactly if it is nearest to any
number with at most six significant digits. -/
theorem sixDigit_iff (hq : 0 < |q|) (hnormal : 2225075 / 10^314 ≤ |q|) :
    SixDigit q ↔ |q| = Format.double.round (sixDigits |q|) := by
  constructor
  · rintro ⟨n, k, hn6, hround⟩
    have hn : 0 < n := by
      refine Nat.pos_of_ne_zero fun hzero => hq.ne' ?_
      rw [hround, hzero, Nat.cast_zero, zero_mul, Format.round_zero]
    have hd : (0 : ℚ) < n * (10 : ℚ)^k := by positivity
    -- A subnormal double would be below the limit, so the rounding error is relative.
    have hexponent : -(Format.double.emin : ℤ) ≤ exponent 2 (n * (10 : ℚ)^k) := by
      by_contra hsubnormal
      have hsmall : Format.double.round (n * (10 : ℚ)^k) ≤ _ :=
        round_le_of_subnormal hd (by decide) (not_le.mp hsubnormal)
      obtain ⟨-, -, -, -, -, -, hlimit⟩ := tiny_range
      rw [← hround] at hsmall
      exact absurd (hsmall.trans_lt hlimit) (not_lt.mpr hnormal)
    have hnear : |Format.double.round (n * (10 : ℚ)^k) - n * (10 : ℚ)^k| ≤ n * (10 : ℚ)^k / 10^7 := by
      refine (abs_round_sub_le hd hexponent).trans (div_le_div_of_nonneg_left hd.le (by norm_num) ?_)
      norm_num [Format.double]
    rw [← hround] at hnear
    rw [sixDigits_eq hn hn6 hnear]
    exact hround
  · intro hround
    obtain ⟨n, k, hn6, heq⟩ := sixDigits_eq_mul hq
    exact ⟨n, k, hn6, heq ▸ hround⟩

/-- A tiny double is printed as a number that is out of range. -/
theorem stod_ostreamDouble_tiny (htiny : Tiny q) :
    stod (ostreamDouble (.finite q)) = .error .out_of_range := by
  obtain ⟨hzero, hlt⟩ := htiny
  obtain ⟨-, -, -, -, -, hrange, -⟩ := tiny_range
  rw [stod_ostreamDouble, if_neg hzero,
    if_pos ((outOfRange_sixDigits (abs_pos.mpr hzero) (hlt.trans hrange)).mpr hlt)]

/-- A double that is not tiny is read back as reread of its six digits. -/
theorem stod_ostreamDouble_ok (htiny : ¬Tiny q) (hmax : |q| < 2^1024) :
    stod (ostreamDouble (.finite q)) = .ok (.finite (reread q)) := by
  rw [stod_ostreamDouble]
  unfold reread
  by_cases hzero : q = 0
  · rw [if_pos hzero, if_pos hzero]
  have hnormal : ¬ |q| < 2225075 / 10^314 := fun hlt => htiny ⟨hzero, hlt⟩
  rw [if_neg hzero, if_neg hzero, if_neg ((outOfRange_sixDigits (abs_pos.mpr hzero) hmax).not.mpr hnormal)]

end RoundTrip

end Numeric
