import SignalRoute.Spatial.H3Index
import Mathlib.Algebra.BigOperators.Ring.Finset

/-!
# Disks of the grid

The disk around any cell of the grid, also where its coordinates wrap around at 29 bits. A disk is the
image of a hexagon of offsets (`grid_disk_eq_map`), and the packing keeps the offsets of a disk that
fits its vector apart. So a disk has as many cells as the hexagon has offsets, and since the hexagon
is symmetric, two cells are in each other's disks or neither is.
-/

namespace SignalRoute

/-- Integer ranges grow at their upper end. -/
theorem range_succ_right {m n : ℤ} (h : m ≤ n) : Int.range m (n + 1) = Int.range m n ++ [n] := by
  unfold Int.range
  rw [show (n + 1 - m).toNat = (n - m).toNat + 1 by omega, List.range_succ, List.map_append,
    List.map_singleton, show m + ((n - m).toNat : ℤ) = n by omega]

/-- Integer ranges grow at their lower end. -/
theorem range_succ_left {m n : ℤ} (h : m < n) : Int.range m n = m :: Int.range (m + 1) n := by
  unfold Int.range
  rw [show (n - m).toNat = (n - (m + 1)).toNat + 1 by omega, List.range_succ_eq_map, List.map_cons,
    List.map_map]
  congr 1
  · omega
  · refine List.map_congr_left fun r _ => ?_
    simp only [Function.comp_apply, Nat.cast_succ]
    omega

/-- The number of integers in a range. -/
theorem length_range (m n : ℤ) : (Int.range m n).length = (n - m).toNat := by
  unfold Int.range
  rw [List.length_map, List.length_range]

/-- No integer comes twice in a range. -/
theorem nodup_range (m n : ℤ) : (Int.range m n).Nodup :=
  List.nodup_range.map fun r r' h => by omega

/-- The rows of a hexagon get shorter by one with each step from the middle. -/
theorem sum_range_sub_abs (c : ℤ) (k : ℕ) :
    ((Int.range (-k) (k + 1)).map fun x => c - |x|).sum = (2 * k + 1) * c - k * (k + 1) := by
  induction k with
  | zero => simp [Int.range]
  | succ k ih =>
    rw [range_succ_left (by omega), range_succ_right (by omega), List.map_cons, List.map_append,
      List.map_singleton, List.sum_cons, List.sum_append, List.sum_singleton]
    push_cast
    rw [show -((k : ℤ) + 1) + 1 = -k by ring, ih, abs_neg, abs_of_nonneg (by omega : (0 : ℤ) ≤ k + 1)]
    ring

/-- Unpacking a packed cell gives the resolution, and the indices modulo `2^29`. -/
theorem unpack_pack_cell_mod {r : ℤ} (hr : 0 ≤ r ∧ r < 2^4) (a b : ℤ) :
    unpack_cell (pack_cell r a b) = (r, a % 2^29, b % 2^29) := by
  unfold unpack_cell pack_cell
  simp only [Prod.mk.injEq]
  omega

/-- Two packed cells of a resolution are the same where their indices agree modulo `2^29`. -/
theorem pack_cell_eq_iff {r a b a' b' : ℤ} :
    pack_cell r a b = pack_cell r a' b' ↔ a % 2^29 = a' % 2^29 ∧ b % 2^29 = b' % 2^29 := by
  unfold pack_cell
  omega

namespace H3Index

/-- The offsets that the two loops of `grid_disk` run through. -/
def hexagon (k : ℤ) : List (ℤ × ℤ) :=
  (Int.range (-k) (k + 1)).flatMap fun dx =>
    (Int.range (max (-k) (-dx - k)) (min k (-dx + k) + 1)).map fun dy => (dx, dy)

/-- The offsets of a hexagon. -/
theorem mem_hexagon {k dx dy : ℤ} : (dx, dy) ∈ hexagon k ↔ InHexagon k dx dy := by
  unfold hexagon InHexagon
  simp only [List.mem_flatMap, List.mem_map, Int.mem_range_iff, Prod.mk.injEq, abs_le]
  constructor
  · rintro ⟨dx, hdx, dy, hdy, rfl, rfl⟩
    omega
  · intro h
    exact ⟨dx, by omega, dy, by omega, rfl, rfl⟩

/-- No offset comes twice. -/
theorem nodup_hexagon (k : ℤ) : (hexagon k).Nodup := by
  unfold hexagon
  rw [List.nodup_flatMap]
  refine ⟨fun dx _ => (nodup_range _ _).map fun dy dy' h => (Prod.mk.inj h).2, ?_⟩
  refine (nodup_range _ _).imp fun {dx dx'} hne => ?_
  -- Offsets of different rows are different.
  intro offset hoffset hoffset'
  obtain ⟨dy, -, rfl⟩ := List.mem_map.mp hoffset
  obtain ⟨dy', -, heq⟩ := List.mem_map.mp hoffset'
  exact hne (Prod.mk.inj heq).1.symm

/-- The number of offsets of a hexagon. -/
theorem length_hexagon {k : ℤ} (hk : 0 ≤ k) : ((hexagon k).length : ℤ) = 3 * k * (k + 1) + 1 := by
  lift k to ℕ using hk
  have hrow : ∀ dx ∈ Int.range (-k) (k + 1),
      (((Int.range (max (-(k : ℤ)) (-dx - k)) (min (k : ℤ) (-dx + k) + 1)).map
        fun dy => (dx, dy)).length : ℤ) = (2 * k + 1) - |dx| := by
    intro dx hdx
    rw [Int.mem_range_iff] at hdx
    rw [List.length_map, length_range]
    rcases le_total 0 dx with h | h
    · rw [abs_of_nonneg h, max_eq_left (by omega), min_eq_right (by omega)]
      omega
    · rw [abs_of_nonpos h, max_eq_right (by omega), min_eq_left (by omega)]
      omega
  unfold hexagon
  rw [List.length_flatMap, Nat.cast_list_sum, List.map_map]
  calc (((Int.range (-k) (k + 1)).map _).sum : ℤ)
      = ((Int.range (-k) (k + 1)).map fun dx => (2 * (k : ℤ) + 1) - |dx|).sum :=
        congrArg List.sum (List.map_congr_left hrow)
    _ = (2 * k + 1) * (2 * k + 1) - k * (k + 1) := sum_range_sub_abs _ k
    _ = 3 * k * (k + 1) + 1 := by ring

/-- A disk is the image of a hexagon. -/
theorem grid_disk_eq_map {r a b k : ℤ} (hr : 0 ≤ r ∧ r < 2^4) (hk : 0 ≤ k) :
    grid_disk (pack_cell r a b) k =
      (hexagon k).map fun offset => pack_cell r (a % 2^29 + offset.1) (b % 2^29 + offset.2) := by
  unfold grid_disk hexagon
  rw [if_neg (not_lt.mpr hk), unpack_pack_cell_mod hr, List.map_flatMap]
  refine List.flatMap_congr fun dx _ => ?_
  rw [List.map_map]
  rfl

/-- The cells of the grid: a resolution and two indices of any size. -/
def IsCell (h : H3Index) (cell : ℤ) : Prop := ∃ a b, cell = pack_cell h.resolution a b

/-- What the disk of radius `k` around a cell is, at the resolution of the cell. -/
structure DiskLaws (h : H3Index) (k center : ℤ) : Prop where
  length : ((grid_disk center k).length : ℤ) = 3 * k * (k + 1) + 1
  nodup : (grid_disk center k).Nodup
  resolution : ∀ cell ∈ grid_disk center k, (unpack_cell cell).1 = h.resolution
  center_mem : center ∈ grid_disk center k
  subset_succ : 3 * (k + 1) * (k + 2) + 1 ≤ 2^31 - 1 → grid_disk center k ⊆ grid_disk center (k + 1)
  mem_comm : ∀ cell, h.IsCell cell → (cell ∈ grid_disk center k ↔ center ∈ grid_disk cell k)

variable (h : H3Index)

/-- A resolution has four bits. -/
theorem resolution_bounds : 0 ≤ (h.resolution : ℤ) ∧ (h.resolution : ℤ) < 2^4 := by
  have := h.valid
  omega

/-- A cell is in a disk if its indices are those of the centre and an offset, modulo `2^29`. -/
theorem pack_cell_mem_grid_disk {a b a' b' k : ℤ} (hk : 0 ≤ k) :
    pack_cell h.resolution a' b' ∈ grid_disk (pack_cell h.resolution a b) k ↔
      ∃ dx dy, InHexagon k dx dy ∧ (a' - a) % 2^29 = dx % 2^29 ∧ (b' - b) % 2^29 = dy % 2^29 := by
  rw [grid_disk_eq_map h.resolution_bounds hk, List.mem_map]
  constructor
  · rintro ⟨⟨dx, dy⟩, hoffset, heq⟩
    rw [pack_cell_eq_iff] at heq
    dsimp only at heq
    exact ⟨dx, dy, mem_hexagon.mp hoffset, by omega, by omega⟩
  · rintro ⟨dx, dy, hoffset, hrow, hcol⟩
    refine ⟨(dx, dy), mem_hexagon.mpr hoffset, pack_cell_eq_iff.mpr ⟨?_, ?_⟩⟩ <;> dsimp only <;> omega

/-- A hexagon is its own mirror image. -/
theorem InHexagon.neg {k dx dy : ℤ} (hxy : InHexagon k dx dy) : InHexagon k (-dx) (-dy) := by
  unfold InHexagon at hxy ⊢
  rwa [abs_neg, abs_neg, ← neg_add, abs_neg]

/-- Every disk around a cell of the grid that fits its vector keeps the laws of disks, and unpacking
inverts packing modulo `2^29`. -/
theorem grid_disk_laws {k : ℤ} (hk : 0 ≤ k) (hfits : 3 * k * (k + 1) + 1 ≤ 2^31 - 1) :
    (∀ lat lon cell, h.lat_lng_to_cell lat lon = .ok cell → h.IsCell cell) ∧
      (∀ center, h.IsCell center → h.DiskLaws k center) ∧
      ∀ lat_idx lon_idx, unpack_cell (pack_cell h.resolution lat_idx lon_idx) =
        ((h.resolution : ℤ), lat_idx % 2^29, lon_idx % 2^29) := by
  refine ⟨fun lat lon cell hcell => ⟨_, _, (h.lat_lng_to_cell_ok_iff.mp hcell).2⟩, ?_,
    unpack_pack_cell_mod h.resolution_bounds⟩
  rintro _ ⟨a, b, rfl⟩
  have hr := h.resolution_bounds
  refine ⟨?_, ?_, ?_, ?_, fun _ => ?_, ?_⟩
  · rw [grid_disk_eq_map hr hk, List.length_map, length_hexagon hk]
  · -- Two offsets of the disk differ by less than the indices wrap around at.
    rw [grid_disk_eq_map hr hk]
    refine (nodup_hexagon k).map_on fun offset hoffset offset' hoffset' heq => ?_
    have hk' : k < 2^15 := by nlinarith
    have hx := mem_hexagon.mp hoffset
    have hx' := mem_hexagon.mp hoffset'
    unfold InHexagon at hx hx'
    rw [abs_le, abs_le] at hx hx'
    rw [pack_cell_eq_iff] at heq
    exact Prod.ext (by omega) (by omega)
  · intro cell hcell
    rw [grid_disk_eq_map hr hk] at hcell
    obtain ⟨offset, -, rfl⟩ := List.mem_map.mp hcell
    rw [unpack_pack_cell_mod hr]
  · rw [h.pack_cell_mem_grid_disk hk]
    exact ⟨0, 0, by simp [InHexagon, hk], by rw [sub_self], by rw [sub_self]⟩
  · rw [grid_disk_eq_map hr hk, grid_disk_eq_map hr (by omega)]
    refine List.map_subset _ ?_
    rintro ⟨dx, dy⟩ hoffset
    obtain ⟨hdx, hdy, hsum⟩ := mem_hexagon.mp hoffset
    exact mem_hexagon.mpr ⟨by omega, by omega, by omega⟩
  · rintro _ ⟨a', b', rfl⟩
    rw [h.pack_cell_mem_grid_disk hk, h.pack_cell_mem_grid_disk hk]
    constructor
    · rintro ⟨dx, dy, hoffset, hrow, hcol⟩
      exact ⟨-dx, -dy, hoffset.neg, by omega, by omega⟩
    · rintro ⟨dx, dy, hoffset, hrow, hcol⟩
      exact ⟨-dx, -dy, hoffset.neg, by omega, by omega⟩

/-- The disk of radius one around the cell in the corner of the grid, which wraps around. -/
theorem grid_disk_laws_corner :
    ((∀ lat lon cell, coarsest.lat_lng_to_cell lat lon = .ok cell → coarsest.IsCell cell) ∧
      (∀ center, coarsest.IsCell center → coarsest.DiskLaws 1 center) ∧
      ∀ lat_idx lon_idx, unpack_cell (pack_cell coarsest.resolution lat_idx lon_idx) =
        ((coarsest.resolution : ℤ), lat_idx % 2^29, lon_idx % 2^29)) ∧
      pack_cell 0 (-1) 0 ∈ grid_disk (pack_cell 0 0 0) 1 ∧ (grid_disk (pack_cell 0 0 0) 1).length = 7 :=
  ⟨coarsest.grid_disk_laws (by decide) (by decide), by decide +kernel, by decide +kernel⟩

end H3Index

end SignalRoute
