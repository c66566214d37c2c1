import SignalRoute.Numeric.Decimal

/-!
# Printed numbers that come back

`std::strtod` reads the six digits of a double without a range error, so every double that is nearest to
a number with at most six significant digits comes back (`reread_eq_iff`), also below the
normal range: the printed digits are at least as near as any six digits (`abs_sixDigits_sub_le`).

`std::to_string` prints six digits after the point, however large or small the number is. It comes back
exactly if it is nearest to a multiple of `10^-6` (`rereadFixed_eq_iff`): where the numbers of
the format are farther apart than the multiples, each number is, and where they are not, the multiple can
be told from the number.
-/

namespace Numeric

/-- `std::strtod`, whose callers do not look at the range error: no numeral is zero, and a number that is
too large is an infinity. -/
def strtod (s : String) : Double :=
  let (negative, cs) := splitSign (s.toList.dropWhile isspace)
  match readFloat cs with
  | none => 0
  | some (.finite q) =>
    if 2^(Format.double.emax + 1) - 2^(Format.double.emax - Format.double.precision) ≤ q then
      .infinite negative
    else .finite (if negative then -Format.double.round q else Format.double.round q)
  | some d => if negative then -d else d

/-- An optional minus sign: whether it is there, and the text after it. -/
def splitMinus : List Char → Bool × List Char
  | '-' :: cs => (true, cs)
  | cs => (false, cs)

/-- What `std::from_chars` reads into an `int64_t`, and what it leaves. -/
def from_chars (cs : List Char) : Except ConversionError (ℤ × List Char) :=
  let (negative, cs) := splitMinus cs
  let digits := cs.takeWhile Char.isDigit
  let n : ℤ := Nat.ofDigitChars 10 digits 0
  let z := if negative then -n else n
  if digits = [] then .error .invalid_argument
  else if z < -2^63 ∨ 2^63 ≤ z then .error .out_of_range
  else .ok (z, cs.dropWhile Char.isDigit)

/-- A printed integer of 64 bits is read to its end. -/
theorem from_chars_toString {z : ℤ} (h : -2^63 ≤ z ∧ z < 2^63) : from_chars (toString z).toList = .ok (z, []) := by
  obtain ⟨negative, n, htext, hvalue⟩ : ∃ (negative : Bool) (n : ℕ),
      splitMinus (toString z).toList = (negative, (toString n).toList) ∧
        (if negative then -(n : ℤ) else n) = z := by
    cases z with
    | ofNat n =>
      refine ⟨false, n, ?_, rfl⟩
      obtain ⟨c, cs, hcs, hc⟩ := toList_toString_cons n
      change splitMinus (toString n).toList = _
      rw [hcs]
      unfold splitMinus
      split
      · cases ‹_ = _›
        cases hc
      · rfl
    | negSucc n =>
      refine ⟨true, n + 1, ?_, rfl⟩
      rw [toString_negSucc, String.toList_append]
      rfl
  obtain ⟨htake, hdigits⟩ := ofDigitChars_takeWhile_toString n
  obtain ⟨c, cs, hcs, -⟩ := toList_toString_cons n
  unfold from_chars
  rw [htext]
  dsimp only
  rw [htake, hdigits, hvalue, if_neg (hcs ▸ List.cons_ne_nil c cs), if_neg (by omega),
    List.dropWhile_eq_nil_iff.mpr fun c => isDigit_of_mem_toString]

section Nearest

variable {q : ℚ}

/-- No integer is nearer than the nearest one. -/
theorem abs_roundHalfEven_sub_le_abs (hq : 0 ≤ q) (n : ℕ) : |(roundHalfEven q : ℚ) - q| ≤ |(n : ℚ) - q| := by
  rcases eq_or_ne n (roundHalfEven q) with rfl | hne
  · exact le_refl _
  · have hround := abs_roundHalfEven_sub_le hq
    have hstep : (1 : ℚ) ≤ |(n : ℚ) - roundHalfEven q| := by
      exact_mod_cast Int.one_le_abs (show (n : ℤ) - roundHalfEven q ≠ 0 by omega)
    have htriangle := abs_sub_le (n : ℚ) q (roundHalfEven q)
    rw [abs_sub_comm q] at htriangle
    linarith

/-- The multiple of a unit that is nearest to a number is at most half a unit away. -/
theorem abs_roundHalfEven_mul_sub_le {ulp : ℚ} (hq : 0 ≤ q) (hulp : 0 < ulp) :
    |roundHalfEven (q / ulp) * ulp - q| ≤ ulp / 2 := by
  have hle := abs_roundHalfEven_sub_le (div_nonneg hq hulp.le)
  have hmul := div_mul_cancel₀ q hulp.ne'
  generalize q / ulp = y at *
  rw [← hmul, ← sub_mul, abs_mul, abs_of_pos hulp]
  exact (mul_le_mul_of_nonneg_right hle hulp.le).trans_eq (by ring)

/-- A number that is no multiple of half a unit is nearer than that to the multiple of a unit. -/
theorem abs_sub_roundHalfEven_mul_lt {ulp : ℚ} (hq : 0 ≤ q) (hulp : 0 < ulp) (hden : (q / ulp * 2).den ≠ 1) :
    |q - roundHalfEven (q / ulp) * ulp| < ulp / 2 := by
  have hle := abs_roundHalfEven_sub_le (div_nonneg hq hulp.le)
  have hmul := div_mul_cancel₀ q hulp.ne'
  generalize q / ulp = y at *
  have hlt : |(roundHalfEven y : ℚ) - y| < 1 / 2 := by
    refine lt_of_le_of_ne hle fun htie => hden ?_
    rcases (abs_eq (by norm_num)).mp htie with htie | htie
    · rw [show y * 2 = ((2 * roundHalfEven y - 1 : ℤ) : ℚ) by push_cast; linarith]
      exact Rat.den_intCast _
    · rw [show y * 2 = ((2 * roundHalfEven y + 1 : ℤ) : ℚ) by push_cast; linarith]
      exact Rat.den_intCast _
  rw [← hmul, ← sub_mul, abs_mul, abs_of_pos hulp, abs_sub_comm]
  exact (mul_lt_mul_of_pos_right hlt hulp).trans_eq (by ring)

/-- No number with at most six significant digits is nearer than the six digits. -/
theorem abs_sixDigits_sub_le (hq : 0 < q) {n : ℕ} (hn : n < 10^6) (k : ℤ) :
    |sixDigits q - q| ≤ |n * (10 : ℚ)^k - q| := by
  obtain ⟨hle, -⟩ := scaled_bounds hq
  unfold sixDigits
  generalize decimalExponent q = e at *
  have hunit : (0 : ℚ) < (10 : ℚ)^(e - 5) := by positivity
  have hscale : q = q * (10 : ℚ)^(5 - e) * (10 : ℚ)^(e - 5) := by
    rw [mul_assoc, ← zpow_add₀ (by norm_num), sub_add_sub_cancel, sub_self, zpow_zero, mul_one]
  generalize hy : q * (10 : ℚ)^(5 - e) = y at *
  -- In units of the last digit, the six digits are the integer that is nearest to `y`.
  have hdistance : ∀ x : ℚ, |x * (10 : ℚ)^(e - 5) - q| = |x - y| * (10 : ℚ)^(e - 5) := by
    intro x
    rw [hscale, ← sub_mul, abs_mul, abs_of_pos hunit]
  have hnearest : ∀ j : ℕ, |(roundHalfEven y : ℚ) - y| ≤ |(j : ℚ) - y| :=
    abs_roundHalfEven_sub_le_abs (le_trans (by positivity) hle)
  rw [hdistance]
  rcases Int.lt_or_le k (e - 5) with hcase | hcase
  · -- A finer number is below the power of ten that `y` is not below.
    have hfine : (n : ℚ) * (10 : ℚ)^k ≤ 10^5 * (10 : ℚ)^(e - 5) := by
      calc (n : ℚ) * (10 : ℚ)^k
        _ ≤ 10^6 * (10 : ℚ)^k :=
          mul_le_mul_of_nonneg_right (by exact_mod_cast hn.le) (by positivity)
        _ ≤ 10^6 * (10 : ℚ)^(e - 5 - 1) :=
          mul_le_mul_of_nonneg_left (zpow_le_zpow_right₀ (by norm_num) (by omega)) (by positivity)
        _ = 10^5 * (10 : ℚ)^(e - 5) := by
          rw [zpow_sub_one₀ (by norm_num)]
          ring
    have hpower := hnearest (10^5)
    rw [Nat.cast_pow, Nat.cast_ofNat, abs_of_nonpos (sub_nonpos.mpr hle)] at hpower
    calc |(roundHalfEven y : ℚ) - y| * (10 : ℚ)^(e - 5)
      _ ≤ -(10^5 - y) * (10 : ℚ)^(e - 5) := mul_le_mul_of_nonneg_right hpower hunit.le
      _ = q - 10^5 * (10 : ℚ)^(e - 5) := by rw [hscale]; ring
      _ ≤ q - n * (10 : ℚ)^k := sub_le_sub_left hfine q
      _ ≤ |n * (10 : ℚ)^k - q| := by
        rw [abs_sub_comm]
        exact le_abs_self _
  · -- A coarser number is a whole number of units.
    obtain ⟨i, hi⟩ : ∃ i : ℕ, k = i + (e - 5) := ⟨(k - (e - 5)).toNat, by omega⟩
    have hcoarse : (n : ℚ) * (10 : ℚ)^k = ((n * 10^i : ℕ) : ℚ) * (10 : ℚ)^(e - 5) := by
      rw [hi, zpow_add₀ (by norm_num), zpow_natCast]
      push_cast
      ring
    rw [hcoarse, hdistance]
    exact mul_le_mul_of_nonneg_right (hnearest _) hunit.le

/-- A number between two neighbouring powers has the exponent of the lower one. -/
theorem exponent_eq {b : ℕ} (hb : 2 ≤ b) {e : ℤ} (hle : (b : ℚ)^e ≤ q) (hlt : q < (b : ℚ)^(e + 1)) :
    exponent b q = e := by
  have hone : (1 : ℚ) < b := by exact_mod_cast hb
  have hq : 0 < q := lt_of_lt_of_le (zpow_pos (by linarith) e) hle
  obtain ⟨hle', hlt'⟩ := exponent_spec hb hq
  have hbelow := (zpow_lt_zpow_iff_right₀ hone).mp (hle.trans_lt hlt')
  have habove := (zpow_lt_zpow_iff_right₀ hone).mp (hle'.trans_lt hlt)
  omega

end Nearest

section Formats

variable {fmt : Format} {q : ℚ}

/-- A number within half a unit of one of a format is rounded to it, if its units are the same. -/
theorem Format.round_eq {e : ℤ} (hq : 0 ≤ q) (he : max (exponent 2 q) (-(fmt.emin : ℤ)) = e) {n : ℕ}
    (h : |q - n * (2 : ℚ)^(e - (fmt.precision - 1))| < (2 : ℚ)^(e - (fmt.precision - 1)) / 2) :
    fmt.round q = n * (2 : ℚ)^(e - (fmt.precision - 1)) := by
  have hulp : (0 : ℚ) < (2 : ℚ)^(e - (fmt.precision - 1)) := by positivity
  unfold Format.round
  dsimp only
  rw [he]
  generalize (2 : ℚ)^(e - (fmt.precision - 1)) = ulp at *
  congr 2
  refine roundHalfEven_eq (div_nonneg hq hulp.le) ?_
  rw [← mul_lt_mul_iff_of_pos_right hulp, ← abs_of_pos hulp, ← abs_mul, abs_of_pos hulp, sub_mul,
    div_mul_cancel₀ q hulp.ne']
  exact h.trans_eq (by ring)

end Formats

section SixDigits

variable {q : ℚ}

/-- Where the tiny doubles are among the powers of two. -/
theorem tiny_powers : (2225075 / 10^314 : ℚ) < (2 : ℚ)^(-1021 : ℤ) * (1 - 1 / 2^53) ∧
    (2225075 / 10^314 : ℚ) + (2 : ℚ)^(-1074 : ℤ) / 2 < (2 : ℚ)^(-1021 : ℤ) ∧
    (2 : ℚ)^(-1021 : ℤ) < (10 : ℚ)^(-9 : ℤ) := by
  decide +kernel

/-- Below the normal range the units of the doubles are the same. -/
theorem exponent_of_subnormal (hq : 0 < q) (hlt : q < (2 : ℚ)^(-1021 : ℤ)) :
    max (exponent 2 q) (-(Format.double.emin : ℤ)) = -1022 := by
  obtain ⟨hle, -⟩ := exponent_spec (b := 2) (le_refl 2) hq
  push_cast at hle
  have := (zpow_lt_zpow_iff_right₀ one_lt_two).mp (hle.trans_lt hlt)
  exact max_eq_right (by change _ ≤ (-1022 : ℤ); omega)

/-- A tiny double comes back of its six digits exactly if it is nearest to a number with at most six
significant digits. -/
theorem sixDigit_iff_of_tiny (htiny : Tiny q) :
    SixDigit q ↔ |q| = Format.double.round (sixDigits |q|) := by
  obtain ⟨hzero, hlt⟩ := htiny
  obtain ⟨hnormal, hhalf, hnine⟩ := tiny_powers
  have hpos : 0 < |q| := abs_pos.mpr hzero
  unfold SixDigit
  generalize |q| = x at *
  generalize (2225075 / 10^314 : ℚ) = smallest at *
  constructor
  · rintro ⟨n, k, hn6, hround⟩
    have hn : 0 < n := by
      refine Nat.pos_of_ne_zero fun hnone => hpos.ne' ?_
      rw [hround, hnone, Nat.cast_zero, zero_mul, Format.round_zero]
    have hd : (0 : ℚ) < n * (10 : ℚ)^k := by positivity
    have hnearest := abs_sixDigits_sub_le hpos hn6 k
    have hsix : 0 < sixDigits x := lt_of_lt_of_le (by positivity) (sixDigits_bounds hpos).1
    have hk : (10 : ℚ)^k ≤ n * (10 : ℚ)^k :=
      le_mul_of_one_le_left (by positivity) (by exact_mod_cast hn)
    -- The number is in the subnormal range too: a normal one would be rounded to a normal double.
    have hsmall : n * (10 : ℚ)^k < (2 : ℚ)^(-1021 : ℤ) := by
      by_contra hlarge
      rw [not_lt] at hlarge
      have hexponent : -(Format.double.emin : ℤ) ≤ exponent 2 (n * (10 : ℚ)^k) := by
        obtain ⟨-, habove⟩ := exponent_spec (b := 2) (le_refl 2) hd
        push_cast at habove
        have := (zpow_lt_zpow_iff_right₀ one_lt_two).mp (hlarge.trans_lt habove)
        change (-1022 : ℤ) ≤ _
        omega
      have hnear := abs_round_sub_le hd hexponent
      rw [← hround, abs_le] at hnear
      have hkeep : (2 : ℚ)^(-1021 : ℤ) * (1 - 1 / 2^53) ≤ n * (10 : ℚ)^k * (1 - 1 / 2^53) :=
        mul_le_mul_of_nonneg_right hlarge (by norm_num)
      have hprecision : n * (10 : ℚ)^k / 2^Format.double.precision = n * (10 : ℚ)^k * (1 / 2^53) := by
        rw [div_eq_mul_one_div]
        rfl
      linarith
    have hulp : (-1022 : ℤ) - ((Format.double.precision : ℤ) - 1) = -1074 := rfl
    have hunit : (0 : ℚ) < (2 : ℚ)^(-1074 : ℤ) := by positivity
    have hround' : x = roundHalfEven (n * (10 : ℚ)^k / (2 : ℚ)^(-1074 : ℤ)) * (2 : ℚ)^(-1074 : ℤ) := by
      rw [hround]
      unfold Format.round
      dsimp only
      rw [exponent_of_subnormal hd hsmall, hulp]
    -- It is nearer than half a unit, since it is no odd number of half units.
    have hnear : |n * (10 : ℚ)^k - x| < (2 : ℚ)^(-1074 : ℤ) / 2 := by
      have hk9 : k ≤ -9 := ((zpow_lt_zpow_iff_right₀ (by norm_num)).mp ((hk.trans_lt hsmall).trans hnine)).le
      have hscale : n * (10 : ℚ)^k / (2 : ℚ)^(-1074 : ℤ) * 2 = n * (10 : ℚ)^k * 2^1075 := by
        rw [zpow_neg, div_inv_eq_mul, show (1074 : ℤ) = (1074 : ℕ) from rfl, zpow_natCast,
          mul_assoc (n * (10 : ℚ)^k), ← pow_succ]
      have hlt := abs_sub_roundHalfEven_mul_lt hd.le hunit
        (hscale ▸ den_mul_zpow_ne_one hn hn6.le hk9 1075)
      rwa [← hround'] at hlt
    rw [abs_sub_comm (n * (10 : ℚ)^k)] at hnear
    rw [abs_sub_comm (n * (10 : ℚ)^k)] at hnearest
    have hsix_near := hnearest.trans_lt hnear
    have hsix_small : sixDigits x < (2 : ℚ)^(-1021 : ℤ) := by
      have := (abs_lt.mp hsix_near).2
      linarith
    have hsame : ∀ m : ℕ, _ → Format.double.round (sixDigits x) = m * _ := fun m =>
      Format.round_eq hsix.le (exponent_of_subnormal hsix hsix_small)
    rw [hulp] at hsame
    refine hround'.trans (hsame _ ?_).symm
    rwa [← hround']
  · intro hround
    obtain ⟨n, k, hn6, heq⟩ := sixDigits_eq_mul hpos
    exact ⟨n, k, hn6, heq ▸ hround⟩

/-- A double comes back of its six digits exactly if it is nearest to a number with at most six
significant digits. -/
theorem sixDigit_iff_round (hzero : q ≠ 0) : SixDigit q ↔ |q| = Format.double.round (sixDigits |q|) := by
  by_cases htiny : Tiny q
  · exact sixDigit_iff_of_tiny htiny
  · exact sixDigit_iff (abs_pos.mpr hzero) (not_lt.mp fun hlt => htiny ⟨hzero, hlt⟩)

/-- What is read of a numeral without a range error. -/
theorem Denotes.strtod {text : List Char} {value : ℚ} (h : Denotes text value) (negative : Bool)
    (hmax : value < 2^(Format.double.emax + 1) - 2^(Format.double.emax - Format.double.precision)) :
    strtod (String.ofList (if negative then '-' :: text else text)) =
      .finite (if negative then -Format.double.round value else Format.double.round value) := by
  unfold Numeric.strtod
  rw [String.toList_ofList, h.splitSign]
  dsimp only
  rw [h.readFloat]
  exact if_neg (not_le.mpr hmax)

/-- A double that is printed and read back without a range error is reread of its six digits. -/
theorem strtod_ostreamDouble (hmax : |q| < 2^1024) : strtod (ostreamDouble (.finite q)) = .finite (reread q) := by
  unfold ostreamDouble reread
  dsimp only
  by_cases hzero : q = 0
  · rw [if_pos hzero, if_pos hzero]
    decide +kernel
  rw [if_neg hzero, if_neg hzero]
  have hlt := sixDigits_lt (abs_pos.mpr hzero) hmax
  by_cases hneg : q < 0
  · rw [if_pos hneg, if_pos hneg]
    rw [abs_of_neg hneg] at hlt ⊢
    exact (denotes_formatG (neg_pos.mpr hneg)).strtod true hlt
  · have hpos : 0 < q := lt_of_le_of_ne (not_lt.mp hneg) (Ne.symm hzero)
    rw [if_neg hneg, if_neg hneg]
    rw [abs_of_pos hpos] at hlt ⊢
    exact (denotes_formatG hpos).strtod false hlt

/-- It comes back exactly if it is nearest to a number with at most six significant digits. -/
theorem reread_eq_iff : reread q = q ↔ SixDigit q := by
  unfold reread
  by_cases hzero : q = 0
  · rw [if_pos hzero]
    refine iff_of_true hzero.symm ⟨0, 0, by norm_num, ?_⟩
    rw [hzero, abs_zero, Nat.cast_zero, zero_mul, Format.round_zero]
  rw [if_neg hzero, sixDigit_iff_round hzero]
  by_cases hneg : q < 0
  · rw [if_pos hneg, abs_of_neg hneg, neg_eq_iff_eq_neg, eq_comm]
  · rw [if_neg hneg, abs_of_nonneg (not_lt.mp hneg), eq_comm]

end SixDigits

section SixDecimals

variable {fmt : Format} {q : ℚ}

/-- The multiple of `10^-6` that is nearest to a nonnegative rational, ties to even. -/
def sixDecimals (q : ℚ) : ℚ := roundHalfEven (q * 10^6) / 10^6

/-- What `std::to_string` prints of a magnitude. -/
theorem denotes_sixDecimals (n : ℕ) : Denotes ((toString (n / 10^6)).toList ++ '.' ::
    (List.replicate (6 - (Nat.toDigits 10 (n % 10^6)).length) '0' ++ Nat.toDigits 10 (n % 10^6))) (n / 10^6 : ℚ) := by
  have hlength : (List.replicate (6 - (Nat.toDigits 10 (n % 10^6)).length) '0' ++
      Nat.toDigits 10 (n % 10^6)).length = 6 := by
    have hle := (Nat.length_toDigits_le_iff (k := 6) (n := n % 10^6) (b := 10) (by decide) (by decide)).mpr
      (Nat.mod_lt _ (by norm_num))
    rw [List.length_append, List.length_replicate]
    omega
  have hdigits : ∀ c ∈ List.replicate (6 - (Nat.toDigits 10 (n % 10^6)).length) '0' ++
      Nat.toDigits 10 (n % 10^6), c.isDigit = true := by
    intro c hc
    rcases List.mem_append.mp hc with hc | hc
    · rw [List.eq_of_mem_replicate hc]
      rfl
    · exact Nat.isDigit_of_mem_toDigits (by decide) (by decide) hc
  have hfrac : Nat.ofDigitChars 10 (List.replicate (6 - (Nat.toDigits 10 (n % 10^6)).length) '0' ++
      Nat.toDigits 10 (n % 10^6)) 0 = n % 10^6 := by
    rw [Nat.ofDigitChars_append, Nat.ofDigitChars_replicate_zero, Nat.mul_zero, Nat.ofDigitChars_ten_toDigits]
  generalize List.replicate (6 - (Nat.toDigits 10 (n % 10^6)).length) '0' ++ Nat.toDigits 10 (n % 10^6) = frac at *
  have hvalue : Nat.ofDigitChars 10 ((toString (n / 10^6)).toList ++ frac) 0 = n := by
    rw [Nat.ofDigitChars_append, (ofDigitChars_takeWhile_toString _).2, Nat.ofDigitChars_eq_ofDigitChars_zero,
      hlength, hfrac]
    exact Nat.div_add_mod n (10^6)
  obtain ⟨c, cs, hcs, -⟩ := toList_toString_cons (n / 10^6)
  refine ⟨(toString (n / 10^6)).toList, frac, [], ?_, hcs ▸ List.cons_ne_nil c cs,
    fun c => isDigit_of_mem_toString, hdigits, .inl rfl, ?_⟩
  · have hne : frac ≠ [] := by
      rintro rfl
      cases hlength
    unfold withPoint
    rw [if_neg hne, List.append_nil]
  · rw [hvalue, hlength, div_eq_mul_inv]
    rfl

/-- The largest number of a format. -/
def Format.largest (fmt : Format) : ℚ := 2^(fmt.emax + 1) - 2^(fmt.emax + 1 - fmt.precision)

/-- A format that is fine enough for six decimals. -/
structure Format.Fine (fmt : Format) : Prop where
  precision : 20 ≤ fmt.precision
  emin : 20 ≤ fmt.emin
  emax : fmt.precision ≤ fmt.emax

theorem Format.fine_double : Format.double.Fine := ⟨by decide, by decide, by decide⟩

theorem Format.fine_float : Format.float.Fine := ⟨by decide, by decide, by decide⟩

/-- The decimals are at most half a unit away. -/
theorem abs_sixDecimals_sub_le (hq : 0 ≤ q) : |sixDecimals q - q| ≤ 1 / 2 / 10^6 := by
  have hround := abs_roundHalfEven_sub_le (mul_nonneg hq (by norm_num : (0 : ℚ) ≤ 10^6))
  unfold sixDecimals
  have hscale : (roundHalfEven (q * 10^6) : ℚ) / 10^6 - q = (roundHalfEven (q * 10^6) - q * 10^6) / 10^6 := by
    ring
  rw [hscale, abs_div, abs_of_pos (by norm_num : (0 : ℚ) < 10^6)]
  exact div_le_div_of_nonneg_right hround (by norm_num)

/-- The decimals of a number of a format are not out of its range. -/
theorem outOfRange_sixDecimals (hfmt : fmt.Fine) (hq : 0 ≤ q) (hmax : q ≤ fmt.largest) :
    fmt.outOfRange (sixDecimals q) = false := by
  have hnear := (abs_le.mp (abs_sixDecimals_sub_le hq)).2
  rw [Bool.eq_false_iff, Ne, Format.outOfRange_iff]
  rintro (hlarge | ⟨hpos, hsmall, -⟩)
  · -- The gap below the first number that is too large is wider than half a millionth.
    have hgap : (2 : ℚ)^(fmt.emax + 1 - fmt.precision) = 2 * 2^(fmt.emax - fmt.precision) := by
      rw [← pow_succ', Nat.sub_add_comm hfmt.emax]
    have hone : (1 : ℚ) ≤ 2^(fmt.emax - fmt.precision) := one_le_pow₀ (by norm_num)
    unfold Format.largest at hmax
    rw [hgap] at hmax
    norm_num at hnear
    linarith
  · -- What is not zero is at least a millionth.
    have hnum : 0 < roundHalfEven (q * 10^6) := by
      refine Nat.pos_of_ne_zero fun hzero => hpos.ne' ?_
      unfold sixDecimals
      rw [hzero, Nat.cast_zero, zero_div]
    have hmillionth : (1 : ℚ) / 10^6 ≤ sixDecimals q := by
      unfold sixDecimals
      exact div_le_div_of_nonneg_right (by exact_mod_cast hnum) (by norm_num)
    have hpower : (10^6 : ℚ) ≤ 2^fmt.emin :=
      le_trans (by norm_num : (10^6 : ℚ) ≤ 2^20) (pow_le_pow_right₀ (by norm_num) hfmt.emin)
    exact absurd (hmillionth.trans_lt hsmall) (not_lt.mpr (one_div_le_one_div_of_le (by norm_num) hpower))

/-- What `std::to_string` prints is a numeral of the six decimals, after a minus sign if the number is
negative. -/
theorem exists_denotes_to_string (q : ℚ) : ∃ text, Denotes text (sixDecimals |q|) ∧
    to_string (.finite q) = String.ofList (if decide (q < 0) then '-' :: text else text) := by
  refine ⟨_, denotes_sixDecimals (roundHalfEven (|q| * 10^6)), ?_⟩
  unfold to_string
  rw [← String.toList_inj]
  by_cases hneg : q < 0
  · simp [hneg]
  · simp [hneg]

/-- The number that is read of the six decimals of a number. -/
def rereadFixed (fmt : Format) : Double → Double
  | .finite q => .finite (if q < 0 then -fmt.round (sixDecimals |q|) else fmt.round (sixDecimals |q|))
  | x => x

/-- A number of a format that is printed by `std::to_string` is reread of its six decimals. -/
theorem readFloating_to_string (hfmt : fmt.Fine) {x : Double} (hmax : ∀ q, x = .finite q → |q| ≤ fmt.largest) :
    readFloating fmt (to_string x) = .ok (rereadFixed fmt x) := by
  cases x with
  | finite q =>
    obtain ⟨text, hdenotes, htext⟩ := exists_denotes_to_string q
    rw [htext, hdenotes.readFloating, outOfRange_sixDecimals hfmt (abs_nonneg q) (hmax q rfl)]
    simp only [Bool.false_eq_true, if_false, decide_eq_true_eq]
    rfl
  | infinite negative => cases negative <;> rfl
  | nan => rfl

/-- A number of the format that is nearest to a multiple of `10^-6`. -/
def SixDecimal (fmt : Format) (q : ℚ) : Prop := ∃ n : ℕ, |q| = fmt.round (n / 10^6)

/-- A power of two is a number of a format. -/
theorem Format.round_zpow (hprecision : 1 ≤ fmt.precision) {j : ℤ} (hj : -(fmt.emin : ℤ) ≤ j) :
    fmt.round ((2 : ℚ)^j) = (2 : ℚ)^j := by
  have hexponent : exponent 2 ((2 : ℚ)^j) = j :=
    exponent_eq (le_refl 2) (le_refl _) (zpow_lt_zpow_right₀ one_lt_two (lt_add_one j))
  have hunits : ((2^(fmt.precision - 1) : ℕ) : ℚ) * (2 : ℚ)^(j - (fmt.precision - 1)) = (2 : ℚ)^j := by
    push_cast
    rw [← zpow_natCast, ← zpow_add₀ two_ne_zero]
    congr 1
    omega
  rw [Format.round_eq (n := 2^(fmt.precision - 1)) (e := j) (by positivity) (by omega), hunits]
  rw [hunits, sub_self, abs_zero]
  positivity

/-- An integer has no decimals. -/
theorem sixDecimals_natCast (n : ℕ) : sixDecimals n = n := by
  have hround : roundHalfEven ((n : ℚ) * 10^6) = n * 10^6 :=
    roundHalfEven_eq (by positivity) (by rw [Nat.cast_mul, Nat.cast_pow, Nat.cast_ofNat, sub_self]; norm_num)
  unfold sixDecimals
  rw [hround]
  push_cast
  exact mul_div_cancel_right₀ _ (by norm_num)

/-- A power of two that is an integer has no decimals. -/
theorem sixDecimals_zpow {j : ℤ} (hj : 0 ≤ j) : sixDecimals ((2 : ℚ)^j) = (2 : ℚ)^j := by
  obtain ⟨i, rfl⟩ := Int.eq_ofNat_of_zero_le hj
  rw [zpow_natCast, ← Nat.cast_ofNat, ← Nat.cast_pow]
  exact sixDecimals_natCast _

/-- What is less than half a millionth away from a multiple of `10^-6` has its decimals. -/
theorem sixDecimals_eq (hq : 0 ≤ q) {n : ℕ} (h : |q - n / 10^6| < 1 / 2 / 10^6) : sixDecimals q = n / 10^6 := by
  have hscale : |q * 10^6 - n| = |q - n / 10^6| * 10^6 := by
    rw [← abs_of_pos (by norm_num : (0 : ℚ) < 10^6), ← abs_mul, abs_of_pos (by norm_num : (0 : ℚ) < 10^6)]
    congr 1
    ring
  unfold sixDecimals
  rw [roundHalfEven_eq (by positivity) (n := n)]
  rw [hscale]
  exact (mul_lt_mul_of_pos_right h (by norm_num)).trans_eq (by norm_num)

/-- A number of a format that is nearest to a multiple of `10^-6` is so to its own six decimals. -/
theorem round_sixDecimals_round (hfmt : fmt.Fine) {n : ℕ} (hn : 0 < n) :
    fmt.round (sixDecimals (fmt.round (n / 10^6))) = fmt.round (n / 10^6) := by
  obtain ⟨hprecision, hemin, -⟩ := hfmt
  have hd : (0 : ℚ) < n / 10^6 := by positivity
  obtain ⟨hle, hlt⟩ := exponent_spec (b := 2) (le_refl 2) hd
  push_cast at hle hlt
  generalize he : exponent 2 ((n : ℚ) / 10^6) = e at *
  have hnormal : max e (-(fmt.emin : ℤ)) = e := by
    have hmillionth : (2 : ℚ)^(-20 : ℤ) < n / 10^6 :=
      lt_of_lt_of_le (by norm_num) (div_le_div_of_nonneg_right (Nat.one_le_cast.mpr hn) (by norm_num))
    have := (zpow_lt_zpow_iff_right₀ one_lt_two).mp (hmillionth.trans hlt)
    omega
  have hulp : (0 : ℚ) < (2 : ℚ)^(e - (fmt.precision - 1)) := by positivity
  have hround : fmt.round (n / 10^6) = roundHalfEven (n / 10^6 / (2 : ℚ)^(e - (fmt.precision - 1))) *
      (2 : ℚ)^(e - (fmt.precision - 1)) := by
    unfold Format.round
    dsimp only
    rw [he, hnormal]
  rcases Int.lt_or_le (e - (fmt.precision - 1)) (-19) with hfine | hcoarse
  · -- The numbers of the format are closer to each other than the multiples of `10^-6`.
    have hnear := abs_roundHalfEven_mul_sub_le hd.le hulp
    rw [← hround] at hnear
    have hulp_le : (2 : ℚ)^(e - (fmt.precision - 1)) ≤ (2 : ℚ)^(-20 : ℤ) :=
      zpow_le_zpow_right₀ one_le_two (by omega)
    rw [sixDecimals_eq (n := n)]
    · rw [hround]
      positivity
    · refine hnear.trans_lt ?_
      norm_num at hulp_le ⊢
      linarith
  · -- They are farther apart, so the multiple that is nearest to the number is rounded to it.
    have hulp_le : (2 : ℚ)^(-19 : ℤ) ≤ (2 : ℚ)^(e - (fmt.precision - 1)) :=
      zpow_le_zpow_right₀ one_le_two (by omega)
    have hsix : |sixDecimals (fmt.round (n / 10^6)) - fmt.round (n / 10^6)| <
        (2 : ℚ)^(e - (fmt.precision - 1)) / 2 := by
      refine (abs_sixDecimals_sub_le (by rw [hround]; positivity)).trans_lt ?_
      norm_num at hulp_le ⊢
      linarith
    have hlow : (2 : ℚ)^e = (2^(fmt.precision - 1) : ℕ) * (2 : ℚ)^(e - (fmt.precision - 1)) := by
      push_cast
      rw [← zpow_natCast, ← zpow_add₀ two_ne_zero]
      congr 1
      omega
    have hhigh : (2 : ℚ)^(e + 1) = (2^fmt.precision : ℕ) * (2 : ℚ)^(e - (fmt.precision - 1)) := by
      push_cast
      rw [← zpow_natCast, ← zpow_add₀ two_ne_zero]
      congr 1
      omega
    have hmantissa_le : 2^(fmt.precision - 1) ≤ roundHalfEven (n / 10^6 / (2 : ℚ)^(e - (fmt.precision - 1))) :=
      le_roundHalfEven ((le_div_iff₀ hulp).mpr (hlow ▸ hle))
    have hmantissa_ge : roundHalfEven (n / 10^6 / (2 : ℚ)^(e - (fmt.precision - 1))) ≤ 2^fmt.precision :=
      roundHalfEven_le (by positivity) ((div_le_iff₀ hulp).mpr (hhigh ▸ hlt.le))
    generalize roundHalfEven (n / 10^6 / (2 : ℚ)^(e - (fmt.precision - 1))) = m at *
    rcases eq_or_lt_of_le hmantissa_le with rfl | hmantissa_lt
    · rw [hround, ← hlow, sixDecimals_zpow (by omega), Format.round_zpow (by omega) (by omega)]
    rcases eq_or_lt_of_le hmantissa_ge with rfl | hmantissa_gt
    · rw [hround, ← hhigh, sixDecimals_zpow (by omega), Format.round_zpow (by omega) (by omega)]
    -- Off the powers of two, the multiple has the units of the number.
    rw [hround] at hsix ⊢
    have hlow_lt : ((2^(fmt.precision - 1) : ℕ) : ℚ) + 1 ≤ m := by exact_mod_cast hmantissa_lt
    have hhigh_lt : (m : ℚ) + 1 ≤ ((2^fmt.precision : ℕ) : ℚ) := by exact_mod_cast hmantissa_gt
    have hlow_mul := mul_le_mul_of_nonneg_right hlow_lt hulp.le
    have hhigh_mul := mul_le_mul_of_nonneg_right hhigh_lt hulp.le
    rw [add_mul, one_mul, ← hlow] at hlow_mul
    rw [add_mul, one_mul, ← hhigh] at hhigh_mul
    obtain ⟨hbelow, habove⟩ := abs_lt.mp hsix
    have hexponent : exponent 2 (sixDecimals (m * (2 : ℚ)^(e - (fmt.precision - 1)))) = e :=
      exponent_eq (le_refl 2) (by push_cast; linarith) (by push_cast; linarith)
    refine Format.round_eq (le_of_lt ?_) (by rw [hexponent, hnormal]) hsix
    have hpos : (0 : ℚ) < (2 : ℚ)^e := by positivity
    linarith

/-- So it is such a number exactly if it is nearest to its own six decimals. -/
theorem sixDecimal_iff (hfmt : fmt.Fine) : SixDecimal fmt q ↔ |q| = fmt.round (sixDecimals |q|) := by
  constructor
  · rintro ⟨n, hn⟩
    rcases Nat.eq_zero_or_pos n with rfl | hpos
    · rw [Nat.cast_zero, zero_div, Format.round_zero] at hn
      rw [hn, ← Nat.cast_zero, sixDecimals_natCast, Nat.cast_zero, Format.round_zero]
    · rw [hn, round_sixDecimals_round hfmt hpos]
  · exact fun h => ⟨roundHalfEven (|q| * 10^6), h⟩

/-- A number that is printed by `std::to_string` comes back exactly if it is nearest to a multiple of
`10^-6`. -/
theorem rereadFixed_eq_iff (hfmt : fmt.Fine) {x : Double} :
    rereadFixed fmt x = x ↔ ∀ q, x = .finite q → SixDecimal fmt q := by
  cases x with
  | finite q =>
    simp only [Double.finite.injEq, forall_eq']
    rw [sixDecimal_iff hfmt]
    unfold rereadFixed
    rw [Double.finite.injEq]
    by_cases hneg : q < 0
    · rw [if_pos hneg, abs_of_neg hneg, neg_eq_iff_eq_neg, eq_comm]
    · rw [if_neg hneg, abs_of_nonneg (not_lt.mp hneg), eq_comm]
  | infinite negative => exact iff_of_true rfl nofun
  | nan => exact iff_of_true rfl nofun

end SixDecimals

end Numeric
