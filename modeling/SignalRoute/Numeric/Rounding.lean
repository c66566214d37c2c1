import SignalRoute.Numeric.Text
import Mathlib.Algebra.Order.Field.Power
import Mathlib.Tactic.FieldSimp
import Mathlib.Tactic.Linarith
import Mathlib.Tactic.Positivity

/-!
# Rounding to the nearest

`roundHalfEven` is at most a half away from what it rounds (`abs_roundHalfEven_sub_le`) and does not
cross an integer. `exponent_spec` places a positive rational between two powers of the base, and so
a number is rounded to a binary format by at most half a unit in its last place
(`abs_round_sub_le`), unless it is below the normal range (`round_le_of_subnormal`). Rounding keeps the
order (`Format.round_mono`) and the integers that the significand holds (`Format.round_natCast`).
-/

namespace Numeric

section Rounding

variable {q : ℚ} {n : ℕ}

/-- The nearest integer is at most a half away. -/
theorem abs_roundHalfEven_sub_le (hq : 0 ≤ q) : |(roundHalfEven q : ℚ) - q| ≤ 1 / 2 := by
  have hfloor : ((⌊q⌋.toNat : ℕ) : ℚ) = ⌊q⌋ := by
    exact_mod_cast Int.toNat_of_nonneg (Int.floor_nonneg.mpr hq)
  have hle := Int.floor_le q
  have hlt := Int.lt_floor_add_one q
  unfold roundHalfEven
  dsimp only
  rw [abs_le]
  split_ifs <;> push_cast [hfloor] at * <;> constructor <;> linarith

/-- A rational closer than a half to an integer is rounded to it. -/
theorem roundHalfEven_eq (hq : 0 ≤ q) (h : |q - n| < 1 / 2) : roundHalfEven q = n := by
  have hround := abs_roundHalfEven_sub_le hq
  rw [abs_le] at hround
  rw [abs_lt] at h
  have hlt : (roundHalfEven q : ℚ) < n + 1 := by linarith
  have hgt : (n : ℚ) < roundHalfEven q + 1 := by linarith
  have hlt' : roundHalfEven q < n + 1 := by exact_mod_cast hlt
  have hgt' : n < roundHalfEven q + 1 := by exact_mod_cast hgt
  omega

/-- Rounding does not cross an integer from above. -/
theorem le_roundHalfEven (h : (n : ℚ) ≤ q) : n ≤ roundHalfEven q := by
  have hround := abs_roundHalfEven_sub_le (n.cast_nonneg.trans h)
  rw [abs_le] at hround
  have hgt : (n : ℚ) < roundHalfEven q + 1 := by linarith
  have hgt' : n < roundHalfEven q + 1 := by exact_mod_cast hgt
  omega

/-- Rounding does not cross an integer from below. -/
theorem roundHalfEven_le (hq : 0 ≤ q) (h : q ≤ n) : roundHalfEven q ≤ n := by
  have hround := abs_roundHalfEven_sub_le hq
  rw [abs_le] at hround
  have hlt : (roundHalfEven q : ℚ) < n + 1 := by linarith
  have hlt' : roundHalfEven q < n + 1 := by exact_mod_cast hlt
  omega

/-- Rounding to an integer keeps the order. -/
theorem roundHalfEven_mono {p : ℚ} (hp : 0 ≤ p) (h : p ≤ q) : roundHalfEven p ≤ roundHalfEven q := by
  have hq : 0 ≤ q := hp.trans h
  rcases lt_or_eq_of_le (Int.floor_le_floor h) with hlt | heq
  · -- There is an integer between the two.
    have hfloor : ((⌊q⌋.toNat : ℕ) : ℚ) = ⌊q⌋ := by
      exact_mod_cast Int.toNat_of_nonneg (Int.floor_nonneg.mpr hq)
    have hbelow : p ≤ (⌊q⌋.toNat : ℕ) := by
      have hnext : ((⌊p⌋ + 1 : ℤ) : ℚ) ≤ ⌊q⌋ := by exact_mod_cast hlt
      rw [hfloor]
      push_cast at hnext
      exact (Int.lt_floor_add_one p).le.trans hnext
    have habove : ((⌊q⌋.toNat : ℕ) : ℚ) ≤ q := hfloor.trans_le (Int.floor_le q)
    exact (roundHalfEven_le hp hbelow).trans (le_roundHalfEven habove)
  · unfold roundHalfEven
    rw [heq]
    dsimp only
    split_ifs <;> first | omega | linarith

/-- What is below the half after an integer is not rounded past it. -/
theorem roundHalfEven_le_of_lt {q : ℚ} (n : ℕ) (hq : 0 ≤ q) (h : q < n + 1 / 2) : roundHalfEven q ≤ n := by
  have hround := abs_roundHalfEven_sub_le hq
  rw [abs_le] at hround
  have hlt : (roundHalfEven q : ℚ) < n + 1 := by linarith
  have hlt' : roundHalfEven q < n + 1 := by exact_mod_cast hlt
  omega

/-- From the half after an odd integer on, rounding goes past it. -/
theorem lt_roundHalfEven_of_odd (hodd : n % 2 = 1) (h : (n : ℚ) + 1 / 2 ≤ q) :
    n < roundHalfEven q := by
  have hn : (n : ℚ) ≤ q := by linarith
  by_contra hle
  have heq : roundHalfEven q = n := Nat.le_antisymm (Nat.not_lt.mp hle) (le_roundHalfEven hn)
  have hround := abs_roundHalfEven_sub_le (n.cast_nonneg.trans hn)
  rw [heq, abs_le] at hround
  have htie : q = n + 1 / 2 := by linarith
  -- At the tie itself, the even neighbour is the one above.
  have hfloor : ⌊q⌋ = n := by
    rw [Int.floor_eq_iff, htie]
    constructor <;> push_cast <;> linarith
  unfold roundHalfEven at heq
  rw [hfloor, Int.toNat_natCast, htie] at heq
  norm_num [hodd] at heq

/-- A positive rational lies between two powers of the base. -/
theorem exponent_spec {b : ℕ} (hb : 2 ≤ b) (hq : 0 < q) :
    (b : ℚ)^exponent b q ≤ q ∧ q < (b : ℚ)^(exponent b q + 1) := by
  have hb0 : (0 : ℚ) < b := by exact_mod_cast Nat.lt_of_lt_of_le Nat.zero_lt_two hb
  have hb1 : 1 < b := hb
  obtain ⟨num, hnum⟩ : ∃ n : ℕ, q.num = n := Int.eq_ofNat_of_zero_le (Rat.num_pos.mpr hq).le
  have hnum0 : num ≠ 0 := by
    rintro rfl
    exact (Rat.num_pos.mpr hq).ne' hnum
  have hmul : q * q.den = num := by
    rw [Rat.mul_den_eq_num, hnum, Int.cast_natCast]
  have hden : (0 : ℚ) < q.den := by exact_mod_cast q.den_pos
  -- The powers around the numerator and around the denominator.
  have hn : (b : ℚ)^(Nat.log b num : ℤ) ≤ num := by
    rw [zpow_natCast]
    exact_mod_cast Nat.pow_log_le_self b hnum0
  have hn' : (num : ℚ) < (b : ℚ)^((Nat.log b num : ℤ) + 1) := by
    exact_mod_cast Nat.lt_pow_succ_log_self hb1 num
  have hd : (b : ℚ)^(Nat.log b q.den : ℤ) ≤ q.den := by
    rw [zpow_natCast]
    exact_mod_cast Nat.pow_log_le_self b q.den_nz
  have hd' : (q.den : ℚ) < (b : ℚ)^((Nat.log b q.den : ℤ) + 1) := by
    exact_mod_cast Nat.lt_pow_succ_log_self hb1 q.den
  unfold exponent
  rw [hnum, Int.natAbs_natCast]
  generalize (Nat.log b num : ℤ) = ln at *
  generalize (Nat.log b q.den : ℤ) = ld at *
  -- The exponent is the difference of the two, or one less.
  have hupper : q < (b : ℚ)^(ln - ld + 1) := by
    refine lt_of_mul_lt_mul_right ?_ hden.le
    calc q * q.den
      _ = num := hmul
      _ < (b : ℚ)^(ln + 1) := hn'
      _ = (b : ℚ)^(ln - ld + 1) * (b : ℚ)^ld := by rw [← zpow_add₀ hb0.ne']; congr 1; ring
      _ ≤ (b : ℚ)^(ln - ld + 1) * q.den :=
        mul_le_mul_of_nonneg_left hd (zpow_nonneg hb0.le _)
  have hlower : (b : ℚ)^(ln - ld - 1) ≤ q := by
    refine le_of_mul_le_mul_right ?_ hden
    calc (b : ℚ)^(ln - ld - 1) * q.den
      _ ≤ (b : ℚ)^(ln - ld - 1) * (b : ℚ)^(ld + 1) :=
        mul_le_mul_of_nonneg_left hd'.le (zpow_nonneg hb0.le _)
      _ = (b : ℚ)^ln := by rw [← zpow_add₀ hb0.ne']; congr 1; ring
      _ ≤ num := hn
      _ = q * q.den := hmul.symm
  dsimp only
  split_ifs with hlt
  · rw [sub_add_cancel]
    exact ⟨hlower, hlt⟩
  · exact ⟨not_lt.mp hlt, hupper⟩

/-- A larger number has no smaller exponent. -/
theorem exponent_mono {b : ℕ} (hb : 2 ≤ b) {p : ℚ} (hp : 0 < p) (h : p ≤ q) : exponent b p ≤ exponent b q := by
  have hone : (1 : ℚ) < b := by exact_mod_cast hb
  have hlt := ((exponent_spec hb hp).1.trans h).trans_lt (exponent_spec hb (hp.trans_le h)).2
  have := (zpow_lt_zpow_iff_right₀ hone).mp hlt
  omega

end Rounding

section Formats

variable {fmt : Format} {q : ℚ}

/-- Zero is a number of every format. -/
theorem Format.round_zero (fmt : Format) : fmt.round 0 = 0 := by
  have hzero : roundHalfEven 0 = 0 := by norm_num [roundHalfEven]
  unfold Format.round
  dsimp only
  rw [zero_div, hzero, Nat.cast_zero, zero_mul]

/-- A magnitude is out of the range of a format when it is too large, or when it is too small and no
number of the format. -/
theorem Format.outOfRange_iff (fmt : Format) (q : ℚ) : fmt.outOfRange q = true ↔
    2^(fmt.emax + 1) - 2^(fmt.emax - fmt.precision) ≤ q ∨
      0 < q ∧ q < 1 / 2^fmt.emin ∧ (q * 2^(fmt.emin + fmt.precision - 1)).den ≠ 1 := by
  unfold Format.outOfRange
  rw [Bool.or_eq_true, decide_eq_true_iff, Bool.and_eq_true, Bool.and_eq_true, decide_eq_true_iff,
    decide_eq_true_iff, decide_eq_true_iff, and_assoc]

/-- In the normal range, a number is rounded by at most half a unit in its last place. -/
theorem abs_round_sub_le (hq : 0 < q) (hnormal : -(fmt.emin : ℤ) ≤ exponent 2 q) :
    |fmt.round q - q| ≤ q / 2^fmt.precision := by
  obtain ⟨hle, -⟩ := exponent_spec (b := 2) (le_refl 2) hq
  unfold Format.round
  dsimp only
  rw [max_eq_left hnormal]
  push_cast at hle
  have hulp : (0 : ℚ) < 2^(exponent 2 q - (fmt.precision - 1)) := by positivity
  have hhalf : (2 : ℚ)^(exponent 2 q - (fmt.precision - 1)) / 2 = 2^exponent 2 q / 2^fmt.precision := by
    rw [sub_sub_eq_add_sub, zpow_sub₀ two_ne_zero, zpow_add_one₀ two_ne_zero, zpow_natCast]
    field_simp
  generalize (2 : ℚ)^(exponent 2 q - (fmt.precision - 1)) = ulp at *
  have hround := abs_roundHalfEven_sub_le (div_nonneg hq.le hulp.le)
  calc |(roundHalfEven (q / ulp) : ℚ) * ulp - q|
    _ = |(roundHalfEven (q / ulp) : ℚ) - q / ulp| * ulp := by
      rw [← abs_of_pos hulp, ← abs_mul, abs_of_pos hulp, sub_mul, div_mul_cancel₀ q hulp.ne']
    _ ≤ 1 / 2 * ulp := mul_le_mul_of_nonneg_right hround hulp.le
    _ = 2^exponent 2 q / 2^fmt.precision := by rw [← hhalf]; ring
    _ ≤ q / 2^fmt.precision := by gcongr

/-- Below the normal range, a number is rounded to at most the smallest normal one. -/
theorem round_le_of_subnormal (hq : 0 < q) (hprecision : 0 < fmt.precision)
    (hsubnormal : exponent 2 q < -(fmt.emin : ℤ)) : fmt.round q ≤ 2^(-(fmt.emin : ℤ)) := by
  obtain ⟨-, hlt⟩ := exponent_spec (b := 2) (le_refl 2) hq
  push_cast at hlt
  unfold Format.round
  dsimp only
  rw [max_eq_right hsubnormal.le]
  have hulp : (0 : ℚ) < 2^(-(fmt.emin : ℤ) - (fmt.precision - 1)) := by positivity
  -- The smallest normal number is a whole number of the units to which a subnormal is rounded.
  have hsmallest : (2 : ℚ)^(-(fmt.emin : ℤ)) =
      ((2^(fmt.precision - 1) : ℕ) : ℚ) * 2^(-(fmt.emin : ℤ) - (fmt.precision - 1)) := by
    push_cast
    rw [← zpow_natCast, ← zpow_add₀ two_ne_zero]
    congr 1
    omega
  have hbelow : q / 2^(-(fmt.emin : ℤ) - (fmt.precision - 1)) ≤ ((2^(fmt.precision - 1) : ℕ) : ℚ) := by
    rw [div_le_iff₀ hulp, ← hsmallest]
    exact hlt.le.trans (zpow_le_zpow_right₀ one_le_two (by omega))
  have hround := roundHalfEven_le (div_nonneg hq.le hulp.le) hbelow
  rw [hsmallest]
  exact mul_le_mul_of_nonneg_right (by exact_mod_cast hround) hulp.le

/-- A number below a power of two is not rounded past it. -/
theorem Format.round_le_zpow (hq : 0 ≤ q) {e : ℤ}
    (he : max (exponent 2 q) (-(fmt.emin : ℤ)) = e) (h : q ≤ 2^(e + 1)) : fmt.round q ≤ 2^(e + 1) := by
  unfold Format.round
  dsimp only
  rw [he]
  have hulp : (0 : ℚ) < 2^(e - (fmt.precision - 1)) := by positivity
  have hunits : (2 : ℚ)^(e + 1) = ((2^fmt.precision : ℕ) : ℚ) * 2^(e - (fmt.precision - 1)) := by
    push_cast
    rw [← zpow_natCast, ← zpow_add₀ two_ne_zero]
    congr 1
    omega
  rw [hunits] at h ⊢
  have hround := roundHalfEven_le (div_nonneg hq hulp.le) ((div_le_iff₀ hulp).mpr h)
  exact mul_le_mul_of_nonneg_right (by exact_mod_cast hround) hulp.le

/-- A number from a power of two on is not rounded below it. -/
theorem Format.zpow_le_round (hprecision : 0 < fmt.precision) {e : ℤ}
    (he : max (exponent 2 q) (-(fmt.emin : ℤ)) = e) (h : 2^e ≤ q) : 2^e ≤ fmt.round q := by
  unfold Format.round
  dsimp only
  rw [he]
  have hulp : (0 : ℚ) < 2^(e - (fmt.precision - 1)) := by positivity
  have hunits : (2 : ℚ)^e = ((2^(fmt.precision - 1) : ℕ) : ℚ) * 2^(e - (fmt.precision - 1)) := by
    push_cast
    rw [← zpow_natCast, ← zpow_add₀ two_ne_zero]
    congr 1
    omega
  rw [hunits] at h ⊢
  have hround := le_roundHalfEven ((le_div_iff₀ hulp).mpr h)
  exact mul_le_mul_of_nonneg_right (by exact_mod_cast hround) hulp.le

/-- A magnitude is not rounded to a negative number. -/
theorem Format.round_nonneg : 0 ≤ fmt.round q := by
  unfold Format.round
  positivity

/-- Rounding to a format keeps the order. -/
theorem Format.round_mono (hprecision : 0 < fmt.precision) {p : ℚ} (hp : 0 ≤ p) (h : p ≤ q) :
    fmt.round p ≤ fmt.round q := by
  rcases hp.eq_or_lt with rfl | hp
  · rw [fmt.round_zero]
    exact Format.round_nonneg
  have hexponent := exponent_mono (le_refl 2) hp h
  obtain ⟨hle, -⟩ := exponent_spec (b := 2) (le_refl 2) (hp.trans_le h)
  obtain ⟨-, hlt⟩ := exponent_spec (b := 2) (le_refl 2) hp
  push_cast at hle hlt
  generalize hep : max (exponent 2 p) (-(fmt.emin : ℤ)) = ep
  generalize heq : max (exponent 2 q) (-(fmt.emin : ℤ)) = eq
  rcases lt_or_eq_of_le (show ep ≤ eq by omega) with hstep | rfl
  · -- There is a power of two between the two.
    have hpower : (2 : ℚ)^(ep + 1) ≤ 2^eq := zpow_le_zpow_right₀ one_le_two (by omega)
    have hbelow : p ≤ 2^(ep + 1) := hlt.le.trans (zpow_le_zpow_right₀ one_le_two (by omega))
    have habove : (2 : ℚ)^eq ≤ q := by rwa [show eq = exponent 2 q by omega]
    calc fmt.round p
      _ ≤ 2^(ep + 1) := Format.round_le_zpow hp.le hep hbelow
      _ ≤ 2^eq := hpower
      _ ≤ fmt.round q := Format.zpow_le_round hprecision heq habove
  · -- Both are rounded to the same units.
    unfold Format.round
    dsimp only
    rw [hep, heq]
    have hulp : (0 : ℚ) < 2^(ep - (fmt.precision - 1)) := by positivity
    have hround := roundHalfEven_mono (div_nonneg hp.le hulp.le) (div_le_div_of_nonneg_right h hulp.le)
    exact mul_le_mul_of_nonneg_right (by exact_mod_cast hround) hulp.le

/-- An integer that fits the significand is a number of the format. -/
theorem Format.round_natCast {n : ℕ} (hn : n < 2^fmt.precision) : fmt.round n = n := by
  rcases n.eq_zero_or_pos with rfl | hpos
  · exact_mod_cast fmt.round_zero
  have hn0 : (0 : ℚ) < n := by exact_mod_cast hpos
  obtain ⟨hle, hlt⟩ := exponent_spec (b := 2) (le_refl 2) hn0
  push_cast at hle hlt
  have hn' : (n : ℚ) < 2^(fmt.precision : ℤ) := by exact_mod_cast hn
  have hlow : 0 < exponent 2 n + 1 := by
    refine (zpow_lt_zpow_iff_right₀ (one_lt_two (α := ℚ))).mp (lt_of_le_of_lt ?_ hlt)
    rw [zpow_zero]
    exact_mod_cast hpos
  have hhigh := (zpow_lt_zpow_iff_right₀ (one_lt_two (α := ℚ))).mp (hle.trans_lt hn')
  unfold Format.round
  dsimp only
  rw [max_eq_left (by omega)]
  generalize exponent 2 (n : ℚ) = e at *
  have hulp : (0 : ℚ) < 2^(e - (fmt.precision - 1)) := by positivity
  -- In the units of the significand the integer is an integer.
  have hunits : (n : ℚ) / 2^(e - (fmt.precision - 1)) = ((n * 2^(fmt.precision - 1 - e).toNat : ℕ) : ℚ) := by
    push_cast
    rw [div_eq_mul_inv, ← zpow_neg, ← zpow_natCast]
    congr 2
    omega
  rw [roundHalfEven_eq (div_nonneg hn0.le hulp.le) (n := n * 2^(fmt.precision - 1 - e).toNat), ← hunits,
    div_mul_cancel₀ _ hulp.ne']
  rw [hunits, sub_self, abs_zero]
  norm_num

/-- The number of a format that is nearest to a rational of either sign, ties to even, however large it
is. -/
def Format.nearest (fmt : Format) (q : ℚ) : ℚ := if q < 0 then -fmt.round (-q) else fmt.round q

/-- A number that is not negative is rounded as a magnitude. -/
theorem Format.nearest_of_nonneg (hq : 0 ≤ q) : fmt.nearest q = fmt.round q := if_neg hq.not_gt

/-- What a number that is not negative is rounded to is not negative. -/
theorem Format.nearest_nonneg (hq : 0 ≤ q) : 0 ≤ fmt.nearest q :=
  (Format.nearest_of_nonneg hq).symm ▸ Format.round_nonneg

/-- Rounding keeps the order of numbers that are not negative. -/
theorem Format.nearest_mono (hprecision : 0 < fmt.precision) {p : ℚ} (hp : 0 ≤ p) (h : p ≤ q) :
    fmt.nearest p ≤ fmt.nearest q := by
  rw [Format.nearest_of_nonneg hp, Format.nearest_of_nonneg (hp.trans h)]
  exact Format.round_mono hprecision hp h

/-- From the smallest normal number on, a number is rounded by at most half a unit in its last place. -/
theorem Format.abs_nearest_sub_le (hq : 2^(-(fmt.emin : ℤ)) ≤ q) : |fmt.nearest q - q| ≤ q / 2^fmt.precision := by
  have hpos : 0 < q := lt_of_lt_of_le (by positivity) hq
  obtain ⟨-, hlt⟩ := exponent_spec (b := 2) (le_refl 2) hpos
  push_cast at hlt
  have := (zpow_lt_zpow_iff_right₀ one_lt_two).mp (hq.trans_lt hlt)
  rw [Format.nearest_of_nonneg hpos.le]
  exact abs_round_sub_le hpos (by omega)

/-- An integer that fits the significand is a number of the format. -/
theorem Format.nearest_natCast {n : ℕ} (hn : n < 2^fmt.precision) : fmt.nearest n = n :=
  (Format.nearest_of_nonneg n.cast_nonneg).trans (Format.round_natCast hn)

/-- The sum of two numbers of a format: the number that is nearest to the exact sum, or an infinity where that
is past the largest number. -/
def Format.add (fmt : Format) (a b : Double) : Double :=
  match a + b with
  | .finite q =>
    if 2^(fmt.emax + 1) ≤ |fmt.nearest q| then .infinite (q < 0) else .finite (fmt.nearest q)
  | sum => sum

end Formats

end Numeric
