import SignalRoute.Types
import SignalRoute.Numeric.Rounding
import Mathlib.Data.Int.Range
import Mathlib.Tactic.Linarith
import Mathlib.Tactic.IntervalCases

/-!
# The cell index (fallback grid build)

`src/common/spatial/h3_index.cpp` without the H3 library: a square grid of a fixed number of cells
per degree, packed into an `int64_t` with the resolution, and disks that are hexagons in the grid's
axial coordinates. `mem_grid_disk_iff` says which cells a disk around a cell has: those whose row
and column are off by `dx` and `dy` with `|dx|`, `|dy|` and `|dx + dy|` at most `k`. In particular a
disk never reaches a cell through the masking of an index.

Sums, products and quotients of doubles are rounded, so a row can begin a little below the latitude that
it begins at on the globe. Since rounding keeps the order and the integers that doubles hold, the bounds of
rows and columns are the exact ones, and a larger radius has no fewer rings (`edges_mono`).
-/

namespace SignalRoute

open Numeric (Double Format)

/-- `std::llround`: the nearest integer, halves away from zero. -/
def llround (q : ℚ) : ℤ := if 0 ≤ q then ⌊q + 1 / 2⌋ else -⌊-q + 1 / 2⌋

/-- `cells_per_degree`. -/
def cells_per_degree (edge_m : ℚ) : ℤ := max 1 (llround (Format.double.nearest (111320 / edge_m)))

/-- `pack_cell`: the resolution above two 29-bit indices. Masking with `kCoordMask` is the residue
modulo `2^29`, also of a negative index. -/
def pack_cell (resolution lat_idx lon_idx : ℤ) : ℤ :=
  resolution * 2^58 + lat_idx % 2^29 * 2^29 + lon_idx % 2^29

/-- `unpack_cell`: the resolution and the two indices. -/
def unpack_cell (cell : ℤ) : ℤ × ℤ × ℤ :=
  (cell / 2^58 % 2^4, cell / 2^29 % 2^29, cell % 2^29)

/-- `valid_lat_lon`. -/
def valid_lat_lon (lat lon : Double) : Bool :=
  lat.isfinite && lon.isfinite && .finite (-90) ≤ lat && lat ≤ .finite 90 &&
    .finite (-180) ≤ lon && lon ≤ .finite 180

/-- `validate_lat_lon`. -/
def validate_lat_lon (lat lon : Double) : Except Exception Unit :=
  if valid_lat_lon lat lon then .ok () else .error (.std "coordinate out of range")

/-- `H3Index`: its constructor throws on a resolution that is not between 0 and 15. -/
structure H3Index where
  resolution : ℕ
  valid : resolution ≤ 15
  deriving DecidableEq

namespace H3Index

/-- The resolution that `config.h` has for the default. -/
def default : H3Index := ⟨7, by decide⟩

/-- The coarsest resolution. -/
def coarsest : H3Index := ⟨0, by decide⟩

/-- The table `edge_lengths`, in metres: the doubles that its decimals denote. -/
def edge_lengths : List ℚ :=
  [1107712591 / 1000, 418676005 / 1000, 158244655 / 1000, 59810858 / 1000, 22606379 / 1000,
    8544408 / 1000, 3229482 / 1000, 1220629 / 1000, 461354 / 1000, 174375 / 1000, 65907 / 1000,
    24910 / 1000, 9415 / 1000, 3559 / 1000, 1348 / 1000, 509 / 1000].map Format.double.nearest

/-- `avg_edge_length_m`. -/
def avg_edge_length_m (h : H3Index) : ℚ :=
  edge_lengths.getD h.resolution (Format.double.nearest (1220629 / 1000))

/-- The grid's number of cells per degree at the resolution. -/
def scale (h : H3Index) : ℤ := cells_per_degree h.avg_edge_length_m

/-- The row of a latitude: the sum and the product are doubles. -/
def lat_idx (h : H3Index) (lat : ℚ) : ℤ :=
  ⌊Format.double.nearest (Format.double.nearest (lat + 90) * h.scale)⌋

/-- The column of a longitude. -/
def lon_idx (h : H3Index) (lon : ℚ) : ℤ :=
  ⌊Format.double.nearest (Format.double.nearest (lon + 180) * h.scale)⌋

/-- `lat_lng_to_cell`. -/
def lat_lng_to_cell (h : H3Index) (lat lon : Double) : Except Exception ℤ := do
  validate_lat_lon lat lon
  return pack_cell h.resolution (h.lat_idx lat.toRat) (h.lon_idx lon.toRat)

/-- `grid_disk`: the hexagon of radius `k` in axial coordinates. -/
def grid_disk (center_cell k : ℤ) : List ℤ :=
  if k < 0 then []
  else
    let (encoded_resolution, center_lat, center_lon) := unpack_cell center_cell
    (Int.range (-k) (k + 1)).flatMap fun dx =>
      (Int.range (max (-k) (-dx - k)) (min k (-dx + k) + 1)).map fun dy =>
        pack_cell encoded_resolution (center_lat + dx) (center_lon + dy)

/-- The quotient of a radius and the edge length, as a double. -/
def edges (h : H3Index) (radius_m : ℚ) : ℚ := Format.double.nearest (radius_m / h.avg_edge_length_m)

/-- `radius_to_k`. A quotient that is no `int` once it is rounded up is not cast. -/
def radius_to_k (h : H3Index) (radius_m : Double) : Except Exception ℤ :=
  if !radius_m.isfinite || radius_m < .finite 0 then
    .error (.std "radius must be finite and non-negative")
  else .ok ⌈h.edges radius_m.toRat⌉

end H3Index

/-- Valid coordinates are two rationals in range. -/
theorem valid_lat_lon_iff (lat lon : Double) :
    valid_lat_lon lat lon = true ↔ ∃ a b : ℚ, lat = .finite a ∧ lon = .finite b ∧
      -90 ≤ a ∧ a ≤ 90 ∧ -180 ≤ b ∧ b ≤ 180 := by
  cases lat <;> cases lon <;> simp [valid_lat_lon, and_assoc]

/-- Packing is injective on resolutions of four bits and indices of 29 bits. -/
theorem pack_cell_inj {r a b r' a' b' : ℤ} (ha : 0 ≤ a ∧ a < 2^29) (hb : 0 ≤ b ∧ b < 2^29)
    (ha' : 0 ≤ a' ∧ a' < 2^29) (hb' : 0 ≤ b' ∧ b' < 2^29) :
    pack_cell r a b = pack_cell r' a' b' ↔ r = r' ∧ a = a' ∧ b = b' := by
  unfold pack_cell
  constructor
  · intro h
    omega
  · rintro ⟨rfl, rfl, rfl⟩
    rfl

/-- Unpacking gives the resolution and the indices back. -/
theorem unpack_pack_cell {r a b : ℤ} (hr : 0 ≤ r ∧ r < 2^4) (ha : 0 ≤ a ∧ a < 2^29)
    (hb : 0 ≤ b ∧ b < 2^29) : unpack_cell (pack_cell r a b) = (r, a, b) := by
  unfold unpack_cell pack_cell
  simp only [Prod.mk.injEq]
  omega

namespace H3Index

variable (h : H3Index)

/-- At every resolution a degree has between 1 and 218703 cells. -/
theorem scale_bounds : 1 ≤ h.scale ∧ h.scale ≤ 218703 := by
  obtain ⟨r, hr⟩ := h
  have hall : ∀ r : Fin 16,
      1 ≤ cells_per_degree (edge_lengths.getD r (Format.double.nearest (1220629 / 1000))) ∧
        cells_per_degree (edge_lengths.getD r (Format.double.nearest (1220629 / 1000))) ≤ 218703 := by
    decide +kernel
  exact hall ⟨r, by omega⟩

/-- Every edge length is positive. -/
theorem avg_edge_length_m_pos : 0 < h.avg_edge_length_m := by
  obtain ⟨r, hr⟩ := h
  have hall : ∀ r : Fin 16, 0 < edge_lengths.getD r (Format.double.nearest (1220629 / 1000)) := by
    decide +kernel
  exact hall ⟨r, by omega⟩

/-- A larger angle from the edge of the globe has no smaller grid coordinate. -/
theorem nearest_scale_mono {x y : ℚ} (h0 : 0 ≤ x) (hxy : x ≤ y) :
    0 ≤ Format.double.nearest (Format.double.nearest x * h.scale) ∧
      Format.double.nearest (Format.double.nearest x * h.scale) ≤
        Format.double.nearest (Format.double.nearest y * h.scale) := by
  have hscale : (0 : ℚ) ≤ h.scale := by exact_mod_cast zero_le_one.trans h.scale_bounds.1
  have hnonneg : 0 ≤ Format.double.nearest x * h.scale := mul_nonneg (Format.nearest_nonneg h0) hscale
  have hangle : Format.double.nearest x ≤ Format.double.nearest y := Format.nearest_mono (by decide) h0 hxy
  exact ⟨Format.nearest_nonneg hnonneg,
    Format.nearest_mono (by decide) hnonneg (mul_le_mul_of_nonneg_right hangle hscale)⟩

/-- A larger latitude is in no lower row. -/
theorem lat_idx_mono {lat lat' : ℚ} (h0 : -90 ≤ lat) (hle : lat ≤ lat') : h.lat_idx lat ≤ h.lat_idx lat' :=
  Int.floor_le_floor (h.nearest_scale_mono (by linarith) (by linarith)).2

/-- Whole degrees are not rounded. -/
theorem nearest_scale_natCast {m : ℕ} (hm : m ≤ 360) :
    Format.double.nearest (Format.double.nearest m * h.scale) = m * h.scale := by
  obtain ⟨hlo, hhi⟩ := h.scale_bounds
  obtain ⟨scale, hscale⟩ : ∃ n : ℕ, h.scale = n := Int.eq_ofNat_of_zero_le (by omega)
  have hfits : m * scale < 2^53 := by
    have := Nat.mul_le_mul hm (show scale ≤ 218703 by omega)
    omega
  rw [hscale, Format.nearest_natCast (by show m < 2^53; omega), Int.cast_natCast, ← Nat.cast_mul,
    Format.nearest_natCast hfits]

/-- For an angle of at most 360 degrees an index is a 27-bit number. -/
theorem floor_scale_bounds {x : ℚ} (h0 : 0 ≤ x) (h1 : x ≤ 360) :
    0 ≤ ⌊Format.double.nearest (Format.double.nearest x * h.scale)⌋ ∧
      ⌊Format.double.nearest (Format.double.nearest x * h.scale)⌋ < 2^27 := by
  obtain ⟨hlo, hhi⟩ := h.nearest_scale_mono h0 (y := (360 : ℕ)) (by exact_mod_cast h1)
  rw [h.nearest_scale_natCast (le_refl 360)] at hhi
  have hscale : (h.scale : ℚ) ≤ 218703 := by exact_mod_cast h.scale_bounds.2
  refine ⟨Int.floor_nonneg.mpr hlo, Int.floor_lt.mpr ?_⟩
  push_cast at hhi ⊢
  linarith

/-- Rows are 27-bit numbers. -/
theorem lat_idx_bounds {lat : ℚ} (h0 : -90 ≤ lat) (h1 : lat ≤ 90) :
    0 ≤ h.lat_idx lat ∧ h.lat_idx lat < 2^27 :=
  h.floor_scale_bounds (by linarith) (by linarith)

/-- Columns are 27-bit numbers. -/
theorem lon_idx_bounds {lon : ℚ} (h0 : -180 ≤ lon) (h1 : lon ≤ 180) :
    0 ≤ h.lon_idx lon ∧ h.lon_idx lon < 2^27 :=
  h.floor_scale_bounds (by linarith) (by linarith)

/-- The row and the column of valid coordinates are 27-bit numbers. -/
theorem idx_bounds {lat lon : Double} (hv : valid_lat_lon lat lon = true) :
    (0 ≤ h.lat_idx lat.toRat ∧ h.lat_idx lat.toRat < 2^27) ∧
      (0 ≤ h.lon_idx lon.toRat ∧ h.lon_idx lon.toRat < 2^27) := by
  obtain ⟨a, b, rfl, rfl, ha0, ha1, hb0, hb1⟩ := (valid_lat_lon_iff lat lon).mp hv
  exact ⟨h.lat_idx_bounds ha0 ha1, h.lon_idx_bounds hb0 hb1⟩

/-- Encoding succeeds exactly on valid coordinates. -/
theorem lat_lng_to_cell_ok_iff {lat lon : Double} {cell : ℤ} :
    h.lat_lng_to_cell lat lon = .ok cell ↔ valid_lat_lon lat lon = true ∧
      cell = pack_cell h.resolution (h.lat_idx lat.toRat) (h.lon_idx lon.toRat) := by
  unfold lat_lng_to_cell validate_lat_lon
  cases hv : valid_lat_lon lat lon with
  | false => exact ⟨nofun, fun he => absurd he.1 (by simp)⟩
  | true =>
    refine ⟨fun he => ⟨rfl, ?_⟩, fun he => ?_⟩
    · exact (Except.ok.inj he).symm
    · rw [he.2]
      rfl

/-- Encoding throws exactly on invalid coordinates. -/
theorem lat_lng_to_cell_of_invalid {lat lon : Double} (hv : valid_lat_lon lat lon = false) :
    h.lat_lng_to_cell lat lon = .error (.std "coordinate out of range") := by
  simp only [lat_lng_to_cell, validate_lat_lon, hv]
  rfl

/-- The offset from one cell to another, in rows and columns, lies in the hexagon of radius `k`. -/
def InHexagon (k dx dy : ℤ) : Prop := |dx| ≤ k ∧ |dy| ≤ k ∧ |dx + dy| ≤ k

instance (k dx dy : ℤ) : Decidable (InHexagon k dx dy) :=
  inferInstanceAs (Decidable (_ ∧ _ ∧ _))

/-- The two nested loops of `grid_disk` run through the hexagon. -/
theorem mem_grid_disk {center k cell : ℤ} (hk : 0 ≤ k) :
    cell ∈ grid_disk center k ↔ ∃ dx dy, InHexagon k dx dy ∧
      cell = pack_cell (unpack_cell center).1 ((unpack_cell center).2.1 + dx)
        ((unpack_cell center).2.2 + dy) := by
  unfold grid_disk
  rw [if_neg (by omega)]
  simp only [List.mem_flatMap, List.mem_map, Int.mem_range_iff, InHexagon, abs_le]
  constructor
  · rintro ⟨dx, hdx, dy, hdy, rfl⟩
    exact ⟨dx, dy, by omega, rfl⟩
  · rintro ⟨dx, dy, hxy, rfl⟩
    exact ⟨dx, by omega, dy, by omega, rfl⟩

/-- The cells of a disk, by row and column. Up to the largest disk that fits its vector, the masking
of indices makes no cell of the globe a neighbour that it is not. -/
theorem mem_grid_disk_iff {r a b a' b' k : ℤ} (hr : 0 ≤ r ∧ r < 2^4) (ha : 0 ≤ a ∧ a < 2^27)
    (hb : 0 ≤ b ∧ b < 2^27) (ha' : 0 ≤ a' ∧ a' < 2^27) (hb' : 0 ≤ b' ∧ b' < 2^27) (hk : 0 ≤ k)
    (hmax : 3 * k * (k + 1) + 1 ≤ 2^31 - 1) :
    pack_cell r a' b' ∈ grid_disk (pack_cell r a b) k ↔ InHexagon k (a' - a) (b' - b) := by
  have hk' : k < 2^15 := by nlinarith
  rw [mem_grid_disk hk, unpack_pack_cell hr (by omega) (by omega)]
  dsimp only
  constructor
  · rintro ⟨dx, dy, hxy, heq⟩
    have hx := abs_le.mp hxy.1
    have hy := abs_le.mp hxy.2.1
    have hdx : dx = a' - a := by
      unfold pack_cell at heq
      omega
    have hdy : dy = b' - b := by
      unfold pack_cell at heq
      omega
    exact hdx ▸ hdy ▸ hxy
  · intro hxy
    exact ⟨a' - a, b' - b, hxy, by rw [add_sub_cancel, add_sub_cancel]⟩

/-- A finite radius that is not negative has a number of rings. -/
theorem radius_to_k_finite {r : ℚ} (hr : 0 ≤ r) : h.radius_to_k (.finite r) = .ok ⌈h.edges r⌉ := by
  unfold radius_to_k
  rw [if_neg]
  · rfl
  · simpa using hr

/-- The quotient of a radius that is not negative. -/
theorem edges_nonneg {r : ℚ} (hr : 0 ≤ r) : 0 ≤ h.edges r :=
  Format.nearest_nonneg (div_nonneg hr h.avg_edge_length_m_pos.le)

/-- A larger radius has no smaller quotient. -/
theorem edges_mono {r r' : ℚ} (hr : 0 ≤ r) (hle : r ≤ r') : h.edges r ≤ h.edges r' :=
  Format.nearest_mono (by decide) (div_nonneg hr h.avg_edge_length_m_pos.le)
    (div_le_div_of_nonneg_right hle h.avg_edge_length_m_pos.le)

end H3Index

end SignalRoute
