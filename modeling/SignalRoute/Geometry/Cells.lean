import Mathlib.Analysis.InnerProductSpace.PiL2
import Mathlib.Tactic.Linarith

/-!
# Unit cells of the plane

A point is in the cell of its integer parts. Two points whose cells are `n` apart on an axis are less
than `n + 1` and more than `n - 1` apart there, and nothing else follows: so the cells that are reached
within a distance are told by the full cells between (`exists_offset_iff`).
-/

namespace Geometry

/-- The plane. -/
abbrev Plane : Type := EuclideanSpace ℝ (Fin 2)

/-- The cell of a point. -/
noncomputable def cell (p : Plane) : ℤ × ℤ := (⌊p 0⌋, ⌊p 1⌋)

/-- How far the cell of `q` is from the cell of `p` on each axis. -/
noncomputable def offset (p q : Plane) : ℤ × ℤ := ((cell q).1 - (cell p).1, (cell q).2 - (cell p).2)

/-- The number of full cells between two that are `n` apart on an axis. -/
def between (n : ℤ) : ℕ := n.natAbs - 1

/-- The square of a distance. -/
theorem dist_sq_eq (p q : Plane) : dist p q ^ 2 = (q 0 - p 0) ^ 2 + (q 1 - p 1) ^ 2 := by
  rw [EuclideanSpace.dist_sq_eq, Fin.sum_univ_two, Real.dist_eq, Real.dist_eq, sq_abs, sq_abs, sub_sq_comm (p 0),
    sub_sq_comm (p 1)]

/-- A distance on an axis is at most the distance. -/
theorem abs_sub_le_dist (p q : Plane) (i : Fin 2) : |q i - p i| ≤ dist p q := by
  rw [abs_sub_comm, ← Real.dist_eq]
  exact PiLp.dist_apply_le p q i

section Axis

variable {x y d t : ℝ} {n : ℤ}

/-- What the cells of two numbers say about their difference. -/
theorem exists_floor_sub_iff : (∃ x y : ℝ, ⌊y⌋ - ⌊x⌋ = n ∧ y - x = d) ↔ (n : ℝ) - 1 < d ∧ d < n + 1 := by
  constructor
  · rintro ⟨x, y, rfl, rfl⟩
    have hx := Int.floor_le x
    have hx' := Int.lt_floor_add_one x
    have hy := Int.floor_le y
    have hy' := Int.lt_floor_add_one y
    push_cast
    constructor <;> linarith
  · rintro ⟨hlo, hhi⟩
    obtain h | h := le_or_gt (n : ℝ) d
    · refine ⟨0, d, ?_, sub_zero d⟩
      rw [Int.floor_zero, sub_zero, Int.floor_eq_iff]
      exact ⟨h, hhi⟩
    · refine ⟨n - d, n, ?_, sub_sub_cancel _ _⟩
      have hfloor : ⌊(n : ℝ) - d⌋ = 0 := Int.floor_eq_zero_iff.mpr ⟨by linarith, by linarith⟩
      rw [Int.floor_intCast, hfloor, sub_zero]

/-- Numbers at a distance of at most `k` are in cells that are at most `k` apart. -/
theorem abs_floor_sub_le {k : ℤ} (h : |y - x| ≤ k) : |⌊y⌋ - ⌊x⌋| ≤ k := by
  obtain ⟨hlo, hhi⟩ := abs_le.mp h
  have hy : ⌊y⌋ ≤ ⌊x⌋ + k := by
    rw [← Int.floor_add_intCast]
    exact Int.floor_mono (by linarith)
  have hx : ⌊x⌋ ≤ ⌊y⌋ + k := by
    rw [← Int.floor_add_intCast]
    exact Int.floor_mono (by linarith)
  rw [abs_le]
  constructor <;> omega

/-- The full cells between two different ones. -/
theorem between_cast (h : n ≠ 0) : (between n : ℝ) = |(n : ℝ)| - 1 := by
  have : (between n : ℤ) = |n| - 1 := by
    unfold between
    rw [Int.abs_eq_natAbs]
    omega
  exact_mod_cast this

/-- Two numbers of different cells are more than the full cells between them apart. -/
theorem between_lt_abs (h : n ≠ 0) (hlo : (n : ℝ) - 1 < d) (hhi : d < n + 1) : (between n : ℝ) < |d| := by
  rw [between_cast h]
  obtain hpos | hneg := lt_or_gt_of_ne (Ne.symm h)
  · have : (0 : ℝ) < n := by exact_mod_cast hpos
    rw [abs_of_pos this]
    exact hlo.trans_le (le_abs_self d)
  · have : (n : ℝ) < 0 := by exact_mod_cast hneg
    rw [abs_of_neg this]
    exact (by linarith : -(n : ℝ) - 1 < -d).trans_le (neg_le_abs d)

/-- The same, for any two numbers. -/
theorem between_le_abs (hlo : (n : ℝ) - 1 < d) (hhi : d < n + 1) : (between n : ℝ) ≤ |d| := by
  obtain rfl | h := eq_or_ne n 0
  · exact Nat.cast_zero.trans_le (abs_nonneg d)
  · exact (between_lt_abs h hlo hhi).le

/-- Some numbers are hardly further apart than that. -/
theorem exists_abs_le_between (n : ℤ) (ht : 0 < t) (ht' : t < 1) :
    ∃ d : ℝ, ((n : ℝ) - 1 < d ∧ d < n + 1) ∧ |d| ≤ between n + t := by
  obtain rfl | h := eq_or_ne n 0
  · exact ⟨0, by norm_num, by rw [abs_zero]; positivity⟩
  · rw [between_cast h]
    obtain hpos | hneg := lt_or_gt_of_ne (Ne.symm h)
    · have : (1 : ℝ) ≤ n := by exact_mod_cast hpos
      refine ⟨n - 1 + t, ⟨by linarith, by linarith⟩, ?_⟩
      rw [abs_of_nonneg (by linarith), abs_of_nonneg (by linarith)]
    · have : (n : ℝ) ≤ -1 := by exact_mod_cast Int.le_sub_one_of_lt hneg
      refine ⟨n + 1 - t, ⟨by linarith, by linarith⟩, ?_⟩
      rw [abs_of_nonpos (by linarith), abs_of_nonpos (by linarith)]
      linarith

end Axis

/-- A sum of two squares below a third one leaves room in both. -/
theorem exists_add_sq_le {a b r : ℝ} (ha : 0 ≤ a) (hb : 0 ≤ b) (h : a ^ 2 + b ^ 2 < r ^ 2) :
    ∃ t : ℝ, (0 < t ∧ t < 1) ∧ (a + t) ^ 2 + (b + t) ^ 2 ≤ r ^ 2 := by
  have hslope : 0 < 2 * (a + b) + 2 := by linarith
  have hroom : 0 < (r ^ 2 - (a ^ 2 + b ^ 2)) / (2 * (a + b) + 2) := div_pos (by linarith) hslope
  obtain ⟨t, ht, hle⟩ := exists_between (lt_min (by norm_num : (0 : ℝ) < 1) hroom)
  obtain ⟨ht1, htroom⟩ := lt_min_iff.mp hle
  rw [lt_div_iff₀ hslope] at htroom
  exact ⟨t, ⟨ht, ht1⟩, by nlinarith⟩

/-- Some two points of cells that are `offset` apart are at a distance of at most `r`, exactly if the full
cells between them leave less than `r`. -/
theorem exists_offset_iff {n : ℤ × ℤ} (hn : n ≠ 0) {r : ℝ} (hr : 0 ≤ r) :
    (∃ p q : Plane, offset p q = n ∧ dist p q ≤ r) ↔ (between n.1 : ℝ) ^ 2 + (between n.2 : ℝ) ^ 2 < r ^ 2 := by
  constructor
  · rintro ⟨p, q, rfl, hdist⟩
    have hx := exists_floor_sub_iff.mp ⟨p 0, q 0, rfl, rfl⟩
    have hy := exists_floor_sub_iff.mp ⟨p 1, q 1, rfl, rfl⟩
    have hsum : (q 0 - p 0) ^ 2 + (q 1 - p 1) ^ 2 ≤ r ^ 2 := by
      rw [← dist_sq_eq]
      exact pow_le_pow_left₀ dist_nonneg hdist 2
    have hle {m : ℤ} {d : ℝ} (hd : (m : ℝ) - 1 < d ∧ d < m + 1) : (between m : ℝ) ^ 2 ≤ d ^ 2 :=
      sq_le_sq.mpr ((abs_of_nonneg (Nat.cast_nonneg _)).trans_le (between_le_abs hd.1 hd.2))
    have hlt {m : ℤ} {d : ℝ} (hm : m ≠ 0) (hd : (m : ℝ) - 1 < d ∧ d < m + 1) : (between m : ℝ) ^ 2 < d ^ 2 :=
      sq_lt_sq.mpr ((abs_of_nonneg (Nat.cast_nonneg _)).trans_lt (between_lt_abs hm hd.1 hd.2))
    by_cases h0 : (offset p q).1 = 0
    · have h1 : (offset p q).2 ≠ 0 := fun h1 => hn (Prod.ext h0 h1)
      exact (add_lt_add_of_le_of_lt (hle hx) (hlt h1 hy)).trans_le hsum
    · exact (add_lt_add_of_lt_of_le (hlt h0 hx) (hle hy)).trans_le hsum
  · intro hlt
    -- On both axes the points are the full cells and the same small `t` apart.
    obtain ⟨t, ⟨ht, ht'⟩, hroom⟩ := exists_add_sq_le (Nat.cast_nonneg _) (Nat.cast_nonneg _) hlt
    obtain ⟨u, hu, hu'⟩ := exists_abs_le_between n.1 ht ht'
    obtain ⟨v, hv, hv'⟩ := exists_abs_le_between n.2 ht ht'
    obtain ⟨x, x', hx, rfl⟩ := exists_floor_sub_iff.mpr hu
    obtain ⟨y, y', hy, rfl⟩ := exists_floor_sub_iff.mpr hv
    refine ⟨!₂[x, y], !₂[x', y'], Prod.ext hx hy, (sq_le_sq₀ dist_nonneg hr).mp ?_⟩
    rw [dist_sq_eq]
    exact (add_le_add (sq_le_sq' (abs_le.mp hu').1 (abs_le.mp hu').2)
      (sq_le_sq' (abs_le.mp hv').1 (abs_le.mp hv').2)).trans hroom

end Geometry
