import SignalRoute.Geometry.Cells
import SignalRoute.Spatial.GridDisk

/-!
# Which points a disk covers

The nearby query takes the cells of a disk for those of a circle. In grid coordinates, where a cell is a
unit square, a disk of radius `k` has every cell that is off the centre by at most `k` rows, by at most `k`
columns, and by at most `k` of both together with their signs. The last is what a circle of radius `k`
does not keep: towards rising or towards falling coordinates of both kinds a disk ends at half of a square
(`grid_disk_covers_iff`), and the circle that it covers around every point of its middle cell has about
`k / √2` for its radius (`grid_disk_covers_circle_iff`).
-/

namespace SignalRoute.H3Index

open Geometry (Plane cell offset between)
open Numeric (Double Format)

variable (h : H3Index)

/-- The cell of a point in grid coordinates. -/
noncomputable def cell_at (p : Plane) : ℤ := pack_cell h.resolution (cell p).1 (cell p).2

/-- The grid coordinate of an angle from the edge of the globe, as doubles are multiplied. -/
def coordinate (x : ℚ) : ℚ := Format.double.nearest (Format.double.nearest x * h.scale)

/-- The grid coordinates of a position. -/
noncomputable def grid_point (lat lon : ℚ) : Plane :=
  (EuclideanSpace.equiv (Fin 2) ℝ).symm ![h.coordinate (lat + 90), h.coordinate (lon + 180)]

/-- The grid coordinates that positions have. -/
structure OnGlobe (p : Plane) : Prop where
  row : 0 ≤ p 0 ∧ p 0 ≤ 180 * h.scale
  column : 0 ≤ p 1 ∧ p 1 ≤ 360 * h.scale

/-- Two coordinates in their ranges. -/
theorem onGlobe_mk {x y : ℝ} (hx : 0 ≤ x ∧ x ≤ 180 * h.scale) (hy : 0 ≤ y ∧ y ≤ 360 * h.scale) :
    h.OnGlobe !₂[x, y] := ⟨hx, hy⟩

/-- A coordinate counts cells from the edge of the globe. -/
theorem coordinate_bounds {x : ℚ} {m : ℕ} (hm : m ≤ 360) (hx : 0 ≤ x ∧ x ≤ m) :
    (0 : ℝ) ≤ h.coordinate x ∧ (h.coordinate x : ℝ) ≤ m * h.scale := by
  obtain ⟨hlo, hhi⟩ := h.nearest_scale_mono hx.1 hx.2
  rw [h.nearest_scale_natCast hm] at hhi
  exact ⟨by exact_mod_cast hlo, by exact_mod_cast hhi⟩

/-- The cell of a position is that of its grid coordinates. -/
theorem lat_lng_to_cell_grid_point {lat lon : ℚ} (hv : valid_lat_lon (.finite lat) (.finite lon) = true) :
    h.OnGlobe (h.grid_point lat lon) ∧
      h.lat_lng_to_cell (.finite lat) (.finite lon) = .ok (h.cell_at (h.grid_point lat lon)) := by
  obtain ⟨a, b, ha, hb, ha0, ha1, hb0, hb1⟩ := (valid_lat_lon_iff _ _).mp hv
  obtain rfl : lat = a := Double.finite.inj ha
  obtain rfl : lon = b := Double.finite.inj hb
  constructor
  · have hrow := h.coordinate_bounds (x := lat + 90) (m := 180) (by decide)
      ⟨by linarith, by push_cast; linarith⟩
    have hcol := h.coordinate_bounds (x := lon + 180) (m := 360) le_rfl
      ⟨by linarith, by push_cast; linarith⟩
    exact h.onGlobe_mk (by exact_mod_cast hrow) (by exact_mod_cast hcol)
  · rw [lat_lng_to_cell_ok_iff]
    refine ⟨hv, ?_⟩
    show pack_cell h.resolution ⌊(h.coordinate (lat + 90) : ℝ)⌋ ⌊(h.coordinate (lon + 180) : ℝ)⌋ = _
    rw [Rat.floor_cast, Rat.floor_cast]
    rfl

section Disk

variable {k : ℤ} {p q : Plane}

/-- Cells that are less than `2^28` apart on both axes are in each other's disks by their offset. -/
theorem cell_at_mem_grid_disk_iff (hk : 0 ≤ k) (hmax : k < 2^28) (hrow : |(offset p q).1| < 2^28)
    (hcol : |(offset p q).2| < 2^28) :
    h.cell_at q ∈ grid_disk (h.cell_at p) k ↔ InHexagon k (offset p q).1 (offset p q).2 := by
  unfold cell_at
  rw [h.pack_cell_mem_grid_disk hk]
  constructor
  · rintro ⟨dx, dy, hxy, hx, hy⟩
    have hdx := abs_le.mp hxy.1
    have hdy := abs_le.mp hxy.2.1
    rw [abs_lt] at hrow hcol
    unfold offset at *
    dsimp only at *
    obtain rfl : dx = (cell q).1 - (cell p).1 := by omega
    obtain rfl : dy = (cell q).2 - (cell p).2 := by omega
    exact hxy
  · intro hxy
    exact ⟨_, _, hxy, rfl, rfl⟩

/-- Points at a distance of at most `k`: their rows and columns are, by themselves, those of the disk. -/
theorem abs_offset_le (hdist : dist p q ≤ k) : |(offset p q).1| ≤ k ∧ |(offset p q).2| ≤ k :=
  ⟨Geometry.abs_floor_sub_le ((Geometry.abs_sub_le_dist p q 0).trans hdist),
    Geometry.abs_floor_sub_le ((Geometry.abs_sub_le_dist p q 1).trans hdist)⟩

/-- Outside of a hexagon there are almost `n` full cells to the middle, rows and columns together. -/
theorem le_between_of_not_inHexagon {n : ℕ} {d : ℤ × ℤ} (hd : ¬InHexagon n d.1 d.2) :
    ((n - 1) ^ 2 + 1) / 2 ≤ between d.1 ^ 2 + between d.2 ^ 2 := by
  have hsum : n - 1 ≤ between d.1 + between d.2 := by
    unfold InHexagon at hd
    rw [Int.abs_eq_natAbs, Int.abs_eq_natAbs, Int.abs_eq_natAbs] at hd
    unfold between
    omega
  have hsq : (n - 1) ^ 2 ≤ 2 * (between d.1 ^ 2 + between d.2 ^ 2) :=
    (Nat.pow_le_pow_left hsum 2).trans (add_sq_le)
  omega

/-- The offset in the middle of the side where both indices rise. -/
def side (n : ℕ) : ℤ × ℤ := ((n + 2) / 2, (n + 1) / 2)

/-- That offset is outside, with as few full cells to the middle as there are outside. -/
theorem side_spec (n : ℕ) : ¬InHexagon n (side n).1 (side n).2 ∧
    between (side n).1 ^ 2 + between (side n).2 ^ 2 = ((n - 1) ^ 2 + 1) / 2 := by
  constructor
  · intro hside
    have := abs_le.mp hside.2.2
    unfold side at this
    dsimp only at this
    omega
  · have hrow : between (side n).1 = n / 2 := by
      unfold side between
      dsimp only
      omega
    have hcol : between (side n).2 = (n - 1) / 2 := by
      unfold side between
      dsimp only
      omega
    rw [hrow, hcol]
    obtain ⟨m, rfl | rfl⟩ := n.even_or_odd'
    · cases m with
      | zero => rfl
      | succ m =>
        rw [show 2 * (m + 1) / 2 = m + 1 by omega, show (2 * (m + 1) - 1) / 2 = m by omega,
          show 2 * (m + 1) - 1 = 2 * m + 1 by omega, show (2 * m + 1) ^ 2 + 1 = 2 * ((m + 1) ^ 2 + m ^ 2) by ring]
        omega
    · rw [show (2 * m + 1) / 2 = m by omega, Nat.add_sub_cancel, Nat.mul_div_cancel_left m two_pos, mul_pow]
      omega

/-- The origin is in every hexagon. -/
theorem inHexagon_zero (n : ℕ) : InHexagon n 0 0 := by simp [InHexagon]

/-- The disk of a radius covers the circle around every point of its middle cell, exactly if the circle's
radius is at most `k / √2` or so: its square is at most half the square of `k - 1`, rounded up. -/
theorem grid_disk_covers_circle_iff (hk : 0 ≤ k) (hmax : k < 2^27) {r : ℝ} (hr : 0 ≤ r) :
    (∀ p q, dist p q ≤ r → h.cell_at q ∈ grid_disk (h.cell_at p) k) ↔
      r ^ 2 ≤ (((k.toNat - 1) ^ 2 + 1) / 2 : ℕ) := by
  lift k to ℕ using hk
  rw [Int.toNat_natCast]
  constructor
  · intro hcovers
    by_contra! hlt
    obtain ⟨hout, hsq⟩ := side_spec k
    have hne : side k ≠ 0 := fun h0 => hout (h0 ▸ inHexagon_zero k)
    rw [← hsq] at hlt
    push_cast at hlt
    obtain ⟨p, q, hoffset, hdist⟩ := (Geometry.exists_offset_iff hne hr).mpr hlt
    have hmem := hcovers p q hdist
    rw [h.cell_at_mem_grid_disk_iff (by omega) (by omega), hoffset] at hmem
    · exact hout hmem
    · rw [hoffset, abs_lt]
      unfold side
      dsimp only
      omega
    · rw [hoffset, abs_lt]
      unfold side
      dsimp only
      omega
  · intro hle p q hdist
    have hrk : r ≤ k := by
      refine (sq_le_sq₀ hr (Nat.cast_nonneg k)).mp (hle.trans ?_)
      have : ((k - 1) ^ 2 + 1) / 2 ≤ k ^ 2 := by
        cases k with
        | zero => decide
        | succ k =>
          rw [Nat.add_sub_cancel]
          refine (Nat.div_le_self _ 2).trans ?_
          rw [add_sq]
          omega
      exact_mod_cast this
    obtain ⟨hrow, hcol⟩ := @abs_offset_le k p q (by exact_mod_cast hdist.trans hrk)
    rw [h.cell_at_mem_grid_disk_iff (by omega) (by omega) (by omega) (by omega)]
    by_contra hout
    have hne : offset p q ≠ 0 := fun h0 => hout (h0 ▸ inHexagon_zero k)
    have hlt := (Geometry.exists_offset_iff hne hr).mp ⟨p, q, rfl, hdist⟩
    have hbetween := le_between_of_not_inHexagon hout
    refine absurd hle (not_le.mpr (lt_of_le_of_lt ?_ hlt))
    exact_mod_cast hbetween

/-- Indices of positions. -/
theorem OnGlobe.floor_bounds {h : H3Index} (hp : h.OnGlobe p) :
    (0 ≤ ⌊p 0⌋ ∧ ⌊p 0⌋ ≤ 180 * h.scale) ∧ (0 ≤ ⌊p 1⌋ ∧ ⌊p 1⌋ ≤ 360 * h.scale) := by
  have hrow : ((⌊p 0⌋ : ℤ) : ℝ) ≤ ((180 * h.scale : ℤ) : ℝ) := by
    push_cast
    exact (Int.floor_le _).trans hp.row.2
  have hcol : ((⌊p 1⌋ : ℤ) : ℝ) ≤ ((360 * h.scale : ℤ) : ℝ) := by
    push_cast
    exact (Int.floor_le _).trans hp.column.2
  exact ⟨⟨Int.floor_nonneg.mpr hp.row.1, by exact_mod_cast hrow⟩,
    ⟨Int.floor_nonneg.mpr hp.column.1, by exact_mod_cast hcol⟩⟩

/-- A corner of the grid and the middle of the first cell: the full cells between and another half one. -/
theorem dist_corner_le {a b : ℤ} (ha : 1 ≤ a) (hb : 1 ≤ b) :
    dist (!₂[1 / 2, 1 / 2] : Plane) !₂[(a : ℝ), (b : ℝ)] ≤ (a + b - 1 : ℤ) := by
  have ha' : (1 : ℝ) ≤ a := by exact_mod_cast ha
  have hb' : (1 : ℝ) ≤ b := by exact_mod_cast hb
  push_cast
  rw [← sq_le_sq₀ dist_nonneg (by linarith), Geometry.dist_sq_eq]
  show ((a : ℝ) - 1 / 2) ^ 2 + ((b : ℝ) - 1 / 2) ^ 2 ≤ _
  nlinarith [mul_nonneg (by linarith : (0 : ℝ) ≤ a - 1 / 2) (by linarith : (0 : ℝ) ≤ b - 1 / 2)]

/-- The offset of such a corner. -/
theorem offset_corner (a b : ℤ) : offset !₂[1 / 2, 1 / 2] !₂[(a : ℝ), (b : ℝ)] = (a, b) := by
  have hhalf : ⌊(1 / 2 : ℝ)⌋ = 0 := Int.floor_eq_zero_iff.mpr (by norm_num)
  show (⌊(a : ℝ)⌋ - ⌊(1 / 2 : ℝ)⌋, ⌊(b : ℝ)⌋ - ⌊(1 / 2 : ℝ)⌋) = (a, b)
  rw [hhalf, Int.floor_intCast, Int.floor_intCast, sub_zero, sub_zero]

/-- The cell of a point at a distance of at most `k` is in the disk of radius `k`, exactly if the rows and
the columns to it add up to at most `k`. So a disk covers its circle on the whole globe only if the circle
is a point, or the disk has all rows and columns together. -/
theorem grid_disk_covers_iff (hk : 0 ≤ k) (hfits : 3 * k * (k + 1) + 1 ≤ 2^31 - 1) :
    (∀ p q, dist p q ≤ k →
      (h.cell_at q ∈ grid_disk (h.cell_at p) k ↔ |(offset p q).1 + (offset p q).2| ≤ k)) ∧
      ((∀ p q, h.OnGlobe p → h.OnGlobe q → dist p q ≤ k → h.cell_at q ∈ grid_disk (h.cell_at p) k) ↔
        k = 0 ∨ 540 * h.scale ≤ k) := by
  have hmax : k < 2^15 := by nlinarith
  have hpair : ∀ p q, dist p q ≤ k →
      (h.cell_at q ∈ grid_disk (h.cell_at p) k ↔ |(offset p q).1 + (offset p q).2| ≤ k) := by
    intro p q hdist
    obtain ⟨hrow, hcol⟩ := abs_offset_le hdist
    rw [h.cell_at_mem_grid_disk_iff hk (by omega) (by omega) (by omega)]
    exact ⟨fun hxy => hxy.2.2, fun hsum => ⟨hrow, hcol, hsum⟩⟩
  refine ⟨hpair, ?_⟩
  constructor
  · intro hcovers
    by_contra! hnot
    obtain ⟨hne, hlt⟩ := hnot
    have hscale := h.scale_bounds.1
    -- A corner of the globe's grid, `k + 1` rows and columns from the first cell.
    obtain ⟨a, b, ha, ha', hb, hb', hab⟩ : ∃ a b : ℤ, 1 ≤ a ∧ a ≤ 180 * h.scale ∧ 1 ≤ b ∧ b ≤ 360 * h.scale ∧
        a + b = k + 1 :=
      ⟨min k (180 * h.scale), k + 1 - min k (180 * h.scale), by omega, by omega, by omega, by omega, by omega⟩
    have hdist := dist_corner_le ha hb
    rw [hab, add_sub_cancel_right] at hdist
    have hone : (1 : ℝ) ≤ h.scale := by exact_mod_cast hscale
    have hmiddle : h.OnGlobe !₂[1 / 2, 1 / 2] :=
      h.onGlobe_mk ⟨by norm_num, by linarith⟩ ⟨by norm_num, by linarith⟩
    have hcorner : h.OnGlobe !₂[(a : ℝ), (b : ℝ)] :=
      h.onGlobe_mk ⟨by exact_mod_cast zero_le_one.trans ha, by exact_mod_cast ha'⟩
        ⟨by exact_mod_cast zero_le_one.trans hb, by exact_mod_cast hb'⟩
    have hmem := hcovers _ _ hmiddle hcorner hdist
    rw [hpair _ _ hdist, offset_corner, hab, abs_of_nonneg (by omega)] at hmem
    omega
  · rintro (rfl | hall) p q hp hq hdist
    · obtain rfl : p = q := dist_le_zero.mp (by exact_mod_cast hdist)
      rw [hpair p p hdist]
      simp [offset]
    · obtain ⟨⟨h1, h2⟩, ⟨h3, h4⟩⟩ := hp.floor_bounds
      obtain ⟨⟨h5, h6⟩, ⟨h7, h8⟩⟩ := hq.floor_bounds
      rw [hpair p q hdist]
      show |⌊q 0⌋ - ⌊p 0⌋ + (⌊q 1⌋ - ⌊p 1⌋)| ≤ k
      rw [abs_le]
      constructor <;> omega

end Disk

/-- The disk of radius one at the default resolution. -/
theorem grid_disk_covers_iff_default :
    (∀ p q, dist p q ≤ (1 : ℤ) →
      (default.cell_at q ∈ grid_disk (default.cell_at p) 1 ↔ |(offset p q).1 + (offset p q).2| ≤ 1)) ∧
      ((∀ p q, default.OnGlobe p → default.OnGlobe q → dist p q ≤ (1 : ℤ) →
        default.cell_at q ∈ grid_disk (default.cell_at p) 1) ↔ (1 : ℤ) = 0 ∨ 540 * default.scale ≤ 1) :=
  default.grid_disk_covers_iff (by decide) (by decide)

/-- At the default resolution, the middle of a cell and the near corner of the cell diagonal to it are less
than one cell apart, and the second is not in the disk of radius one around the first. -/
theorem grid_disk_misses_corner :
    default.OnGlobe !₂[1 / 2, 1 / 2] ∧ default.OnGlobe !₂[1, 1] ∧
      dist (!₂[1 / 2, 1 / 2] : Plane) !₂[1, 1] ≤ 1 ∧
      default.cell_at !₂[1, 1] ∉ grid_disk (default.cell_at !₂[1 / 2, 1 / 2]) 1 := by
  have hscale : default.scale = 91 := by decide +kernel
  have hhalf : ⌊(1 / 2 : ℝ)⌋ = 0 := Int.floor_eq_zero_iff.mpr (by norm_num)
  refine ⟨default.onGlobe_mk ?_ ?_, default.onGlobe_mk ?_ ?_, ?_, ?_⟩
  · rw [hscale]
    norm_num
  · rw [hscale]
    norm_num
  · rw [hscale]
    norm_num
  · rw [hscale]
    norm_num
  · have hdist := @dist_corner_le 1 1 le_rfl le_rfl
    norm_num at hdist ⊢
    exact hdist
  · show pack_cell 7 ⌊(1 : ℝ)⌋ ⌊(1 : ℝ)⌋ ∉ grid_disk (pack_cell 7 ⌊(1 / 2 : ℝ)⌋ ⌊(1 / 2 : ℝ)⌋) 1
    rw [hhalf, Int.floor_one]
    decide +kernel

end SignalRoute.H3Index
