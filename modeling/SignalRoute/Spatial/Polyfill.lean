import SignalRoute.Spatial.H3Index
import SignalRoute.Geofence.Containment

/-!
# Polygons as cells (fallback grid build)

`H3Index::polygon_to_cells` of `src/common/spatial/h3_index.cpp` without the H3 library: the cells of
the vertices, sorted and without repetitions. A point inside the polygon is in one of them exactly if
it shares its grid square with a vertex (`polygon_to_cells_covers_iff`). So a fence that is larger
than a few cells is not covered: each row of the grid between two of its vertices would need a vertex
of its own (`exists_vertex_in_row`).
-/

namespace SignalRoute

open Numeric (Double Format)

/-- `std::unique`: equal neighbours become one. -/
def unique : List ℤ → List ℤ
  | [] => []
  | [a] => [a]
  | a :: b :: l => if a = b then unique (b :: l) else a :: unique (b :: l)

/-- What is left of a list are its elements. -/
theorem mem_unique {a : ℤ} (l : List ℤ) : a ∈ unique l ↔ a ∈ l := by
  fun_induction unique l with
  | case1 => rfl
  | case2 b => rfl
  | case3 b l ih => rw [ih, List.mem_cons (l := b :: l), or_iff_right_of_imp fun h => h ▸ List.mem_cons_self]
  | case4 b c l hne ih => rw [List.mem_cons, List.mem_cons, ih]

/-- Of a sorted list a strictly increasing one is left. -/
theorem sorted_unique {l : List ℤ} (h : l.Pairwise (· ≤ ·)) : (unique l).Pairwise (· < ·) := by
  fun_induction unique l with
  | case1 => exact List.Pairwise.nil
  | case2 b => exact List.pairwise_singleton _ _
  | case3 b l ih => exact ih (List.pairwise_cons.mp h).2
  | case4 b c l hne ih =>
    obtain ⟨hfirst, hrest⟩ := List.pairwise_cons.mp h
    refine List.pairwise_cons.mpr ⟨fun x hx => ?_, ih hrest⟩
    have hcx : c ≤ x := by
      rcases List.mem_cons.mp ((mem_unique _).mp hx) with rfl | hx
      · exact le_rfl
      · exact (List.pairwise_cons.mp hrest).1 x hx
    exact lt_of_lt_of_le (lt_of_le_of_ne (hfirst c List.mem_cons_self) hne) hcx

/-- A loop whose steps all succeed. -/
theorem mapM_eq_ok {α β ε : Type} {f : α → Except ε β} {g : α → β} {l : List α}
    (h : ∀ a ∈ l, f a = .ok (g a)) : l.mapM f = .ok (l.map g) := by
  induction l with
  | nil => rfl
  | cons a l ih =>
    rw [List.mapM_cons, h a List.mem_cons_self, ih fun b hb => h b (List.mem_cons_of_mem _ hb)]
    rfl

namespace H3Index

variable (h : H3Index)

/-- `polygon_to_cells`. -/
def polygon_to_cells (polygon : List (Double × Double)) : Except Exception (List ℤ) := do
  if polygon = [] then
    return []
  let _ ← polygon.mapM fun v => validate_lat_lon v.1 v.2
  let cells ← polygon.mapM fun v => h.lat_lng_to_cell v.1 v.2
  return unique (cells.mergeSort (· ≤ ·))

/-- The grid square of a point: its row and its column. -/
def square (v : Double × Double) : ℤ × ℤ := (h.lat_idx v.1.toRat, h.lon_idx v.2.toRat)

/-- The cells of a polygon are those of its vertices, in increasing order. -/
theorem polygon_to_cells_spec {polygon : List (Double × Double)}
    (hvalid : ∀ v ∈ polygon, valid_lat_lon v.1 v.2 = true) :
    ∃ cells, h.polygon_to_cells polygon = .ok cells ∧ cells.Pairwise (· < ·) ∧
      ∀ cell, cell ∈ cells ↔ ∃ v ∈ polygon, h.lat_lng_to_cell v.1 v.2 = .ok cell := by
  let cell := fun v : Double × Double => pack_cell h.resolution (h.square v).1 (h.square v).2
  have hcell : ∀ v ∈ polygon, h.lat_lng_to_cell v.1 v.2 = .ok (cell v) := fun v hv =>
    h.lat_lng_to_cell_ok_iff.mpr ⟨hvalid v hv, rfl⟩
  have hcheck : ∀ v ∈ polygon, validate_lat_lon v.1 v.2 = .ok () := by
    intro v hv
    unfold validate_lat_lon
    rw [hvalid v hv, if_pos rfl]
  have hmem : ∀ c, (∃ v ∈ polygon, h.lat_lng_to_cell v.1 v.2 = .ok c) ↔ c ∈ polygon.map cell := by
    intro c
    rw [List.mem_map]
    refine exists_congr fun v => and_congr_right fun hv => ?_
    rw [hcell v hv, Except.ok.injEq]
  refine ⟨unique ((polygon.map cell).mergeSort (· ≤ ·)), ?_, ?_, fun c => ?_⟩
  · unfold polygon_to_cells
    split
    · subst polygon
      rw [List.map_nil, List.mergeSort_nil]
      rfl
    · rw [mapM_eq_ok hcheck, mapM_eq_ok hcell]
      rfl
  · have hsorted : ((polygon.map cell).mergeSort (· ≤ ·)).Pairwise fun a b => decide (a ≤ b) = true :=
      List.pairwise_mergeSort
        (fun a b c hab hbc => decide_eq_true ((of_decide_eq_true hab).trans (of_decide_eq_true hbc)))
        (fun a b => by simpa only [Bool.or_eq_true, decide_eq_true_eq] using le_total a b) _
    exact sorted_unique (hsorted.imp of_decide_eq_true)
  · rw [mem_unique, List.mem_mergeSort, hmem]

/-- The polyfill covers a point of a polygon exactly if the point is in the grid square of a vertex. Its
cells are in increasing order. -/
theorem polygon_to_cells_covers_iff {polygon : List (Double × Double)}
    (hvalid : ∀ v ∈ polygon, valid_lat_lon v.1 v.2 = true) :
    ∃ cells, h.polygon_to_cells polygon = .ok cells ∧ cells.Pairwise (· < ·) ∧
      ∀ lat lon, valid_lat_lon lat lon = true → geo.point_in_polygon lat lon polygon = true →
        ((∃ cell ∈ cells, h.lat_lng_to_cell lat lon = .ok cell) ↔
          ∃ v ∈ polygon, h.square v = h.square (lat, lon)) := by
  obtain ⟨cells, hcells, hsorted, hmem⟩ := h.polygon_to_cells_spec hvalid
  refine ⟨cells, hcells, hsorted, fun lat lon hpoint _ => ?_⟩
  obtain ⟨hlat, hlon⟩ := h.idx_bounds hpoint
  constructor
  · rintro ⟨cell, hcell, hof⟩
    obtain ⟨v, hv, hvertex⟩ := (hmem cell).mp hcell
    obtain ⟨hvlat, hvlon⟩ := h.idx_bounds (hvalid v hv)
    have heq := (h.lat_lng_to_cell_ok_iff.mp hvertex).2.symm.trans (h.lat_lng_to_cell_ok_iff.mp hof).2
    rw [pack_cell_inj (by omega) (by omega) (by omega) (by omega)] at heq
    exact ⟨v, hv, Prod.ext heq.2.1 heq.2.2⟩
  · rintro ⟨v, hv, hsquare⟩
    have hvertex := h.lat_lng_to_cell_ok_iff.mpr ⟨hvalid v hv, rfl⟩
    refine ⟨_, (hmem _).mpr ⟨v, hv, hvertex⟩, h.lat_lng_to_cell_ok_iff.mpr ⟨hpoint, ?_⟩⟩
    obtain ⟨hrow, hcol⟩ := Prod.ext_iff.mp hsquare
    exact congrArg₂ (pack_cell h.resolution) hrow hcol

/-- A point between two numbers that are in range is in range. -/
theorem between_bounds {a b x lo hi : ℚ} (ha : lo ≤ a ∧ a ≤ hi) (hb : lo ≤ b ∧ b ≤ hi)
    (hx : min a b ≤ x ∧ x ≤ max a b) : lo ≤ x ∧ x ≤ hi :=
  ⟨(le_min ha.1 hb.1).trans hx.1, hx.2.trans (max_le ha.2 hb.2)⟩

/-- A point between two valid positions is valid. -/
theorem valid_lat_lon_between {a b : ℚ × ℚ} {y x : ℚ}
    (ha : valid_lat_lon (.finite a.1) (.finite a.2) = true)
    (hb : valid_lat_lon (.finite b.1) (.finite b.2) = true)
    (hy : min a.1 b.1 ≤ y ∧ y ≤ max a.1 b.1) (hx : min a.2 b.2 ≤ x ∧ x ≤ max a.2 b.2) :
    valid_lat_lon (.finite y) (.finite x) = true := by
  have hbounds : ∀ {v : ℚ × ℚ}, valid_lat_lon (.finite v.1) (.finite v.2) = true →
      (-90 ≤ v.1 ∧ v.1 ≤ 90) ∧ -180 ≤ v.2 ∧ v.2 ≤ 180 := by
    intro v hv
    obtain ⟨lat, lon, hlat, hlon, hlat0, hlat1, hlon0, hlon1⟩ := (valid_lat_lon_iff _ _).mp hv
    rw [Double.finite.injEq] at hlat hlon
    subst hlat hlon
    exact ⟨⟨hlat0, hlat1⟩, hlon0, hlon1⟩
  obtain ⟨hy0, hy1⟩ := between_bounds (hbounds ha).1 (hbounds hb).1 hy
  obtain ⟨hx0, hx1⟩ := between_bounds (hbounds ha).2 (hbounds hb).2 hx
  exact (valid_lat_lon_iff _ _).mpr ⟨y, x, rfl, rfl, hy0, hy1, hx0, hx1⟩

/-- Every row has a latitude, also where the arithmetic rounds: the middle of the row is one. -/
theorem lat_idx_middle {row : ℤ} (h0 : 0 ≤ row) (h1 : row < 2^27) :
    h.lat_idx ((row + 1 / 2) / h.scale - 90) = row := by
  obtain ⟨hlo, hhi⟩ := h.scale_bounds
  have hscale : (1 : ℚ) ≤ h.scale := by exact_mod_cast hlo
  have hscale' : (h.scale : ℚ) ≤ 218703 := by exact_mod_cast hhi
  have hrow : (0 : ℚ) ≤ row := by exact_mod_cast h0
  have hrow' : (row : ℚ) < 2^27 := by exact_mod_cast h1
  have hsmall : (2 : ℚ)^(-(Format.double.emin : ℤ)) ≤ 1 / 2 / 218703 := by decide +kernel
  -- The angle is rounded by little, so the product with the scale is near the middle of the row.
  have hangle : |Format.double.nearest ((row + 1 / 2) / h.scale) - (row + 1 / 2) / h.scale| ≤
      (row + 1 / 2) / h.scale / 2^53 := by
    refine Format.abs_nearest_sub_le (hsmall.trans ?_)
    exact div_le_div₀ (by linarith) (by linarith) (by linarith) hscale'
  have hcancel : (row + 1 / 2 : ℚ) / h.scale * h.scale = row + 1 / 2 := div_mul_cancel₀ _ (by linarith)
  have hproduct : |Format.double.nearest ((row + 1 / 2) / h.scale) * h.scale - (row + 1 / 2)| ≤
      (row + 1 / 2) / 2^53 := by
    have hmul := mul_le_mul_of_nonneg_right hangle (show (0 : ℚ) ≤ h.scale by linarith)
    rwa [← abs_of_nonneg (show (0 : ℚ) ≤ h.scale by linarith), ← abs_mul,
      abs_of_nonneg (show (0 : ℚ) ≤ h.scale by linarith), sub_mul, hcancel, div_mul_eq_mul_div, hcancel] at hmul
  unfold lat_idx
  rw [sub_add_cancel]
  generalize Format.double.nearest ((row + 1 / 2) / h.scale) * h.scale = product at hproduct
  rw [abs_le] at hproduct
  have hlow : 1 / 4 ≤ product := by linarith
  have hround := @Format.abs_nearest_sub_le .double product (hsmall.trans (le_trans (by norm_num) hlow))
  rw [abs_le] at hround
  change -(product / 2^53) ≤ _ ∧ _ ≤ product / 2^53 at hround
  rw [Int.floor_eq_iff]
  constructor <;> linarith

/-- Where a polygon with an area is covered, each row of the grid between two of its vertices has a
vertex. -/
theorem exists_vertex_in_row {ring : List (ℚ × ℚ)} (hopen : geo.Open ring) (hlen : 3 ≤ ring.length)
    (harea : 1 / 10^12 < |Geometry.areaTwice ring|)
    (hvalid : ∀ v ∈ ring, valid_lat_lon (.finite v.1) (.finite v.2) = true)
    (hcovers : ∀ lat lon, valid_lat_lon lat lon = true →
      geo.point_in_polygon lat lon (ring.map geo.vertex) = true →
        ∃ v ∈ ring.map geo.vertex, h.square v = h.square (lat, lon))
    {v w : ℚ × ℚ} (hv : v ∈ ring) (hw : w ∈ ring) {row : ℤ} (hbelow : h.lat_idx v.1 < row)
    (habove : row < h.lat_idx w.1) : ∃ u ∈ ring, h.lat_idx u.1 = row := by
  by_contra hno
  -- Some edge passes the row without a vertex in it.
  obtain ⟨e, he, hfst, hsnd⟩ := Geometry.exists_edge_of_not_all (P := fun u : ℚ × ℚ => row < h.lat_idx u.1) hv hw
    (by omega) habove
  obtain ⟨hmem, hmem'⟩ := Geometry.mem_of_mem_edges he
  have hlow : h.lat_idx e.1.1 < row := lt_of_le_of_ne (not_lt.mp hfst) fun heq => hno ⟨e.1, hmem, heq⟩
  -- The point of the edge in the middle of the row.
  have hbounds : ∀ u ∈ ring, -90 ≤ u.1 ∧ 0 ≤ h.lat_idx u.1 ∧ h.lat_idx u.1 < 2^27 := by
    intro u hu
    obtain ⟨lat, -, hlat, -, hlat0, hlat1, -⟩ := (valid_lat_lon_iff _ _).mp (hvalid u hu)
    obtain rfl := Double.finite.inj hlat
    exact ⟨hlat0, h.lat_idx_bounds hlat0 hlat1⟩
  have hrow : 0 ≤ row ∧ row < 2^27 := by
    have := (hbounds v hv).2.1
    have := (hbounds w hw).2.2
    omega
  have hmiddle := h.lat_idx_middle hrow.1 hrow.2
  have hsouth : -90 ≤ (row + 1 / 2) / (h.scale : ℚ) - 90 := by
    have hrow0 : (0 : ℚ) ≤ row := by exact_mod_cast hrow.1
    have hscale0 : (0 : ℚ) ≤ h.scale := by exact_mod_cast zero_le_one.trans h.scale_bounds.1
    have := div_nonneg (show (0 : ℚ) ≤ row + 1 / 2 by linarith) hscale0
    linarith
  generalize (row + 1 / 2) / (h.scale : ℚ) - 90 = y at hmiddle hsouth
  have hylow : e.1.1 < y := by
    by_contra! hle
    have := h.lat_idx_mono hsouth hle
    omega
  have hyhigh : y < e.2.1 := by
    by_contra! hle
    have := h.lat_idx_mono (hbounds e.2 hmem').1 hle
    omega
  obtain ⟨x, hx, hon⟩ := Geometry.exists_onEdge_level (by norm_num : (0 : ℚ) ≤ 1 / 10^12) hylow hyhigh
  have hin : geo.point_in_polygon (.finite y) (.finite x) (ring.map geo.vertex) = true :=
    (geo.point_in_polygon_open hopen).mpr ⟨hlen, harea, .inl ⟨e, he, hon⟩⟩
  have hpoint : valid_lat_lon (.finite y) (.finite x) = true :=
    valid_lat_lon_between (hvalid _ hmem) (hvalid _ hmem')
      ⟨(min_le_left _ _).trans hylow.le, hyhigh.le.trans (le_max_right _ _)⟩ hx
  obtain ⟨u, hu, hsquare⟩ := hcovers _ _ hpoint hin
  obtain ⟨u', hu', rfl⟩ := List.mem_map.mp hu
  unfold square geo.vertex at hsquare
  have hsame := (Prod.mk.inj hsquare).1
  rw [Double.toRat_finite, Double.toRat_finite, hmiddle] at hsame
  exact hno ⟨u', hu', hsame⟩

/-- A triangle within one square of the grid. -/
theorem polygon_to_cells_covers_iff_small :
    let triangle : List (Double × Double) := [(.finite (1 / 10), .finite (1 / 10)),
      (.finite (2 / 10), .finite (1 / 10)), (.finite (1 / 10), .finite (2 / 10))]
    (∃ cells, coarsest.polygon_to_cells triangle = .ok cells ∧ cells.Pairwise (· < ·) ∧
      ∀ lat lon, valid_lat_lon lat lon = true → geo.point_in_polygon lat lon triangle = true →
        ((∃ cell ∈ cells, coarsest.lat_lng_to_cell lat lon = .ok cell) ↔
          ∃ v ∈ triangle, coarsest.square v = coarsest.square (lat, lon))) ∧
      ∃ v ∈ triangle, coarsest.square v = coarsest.square (.finite (12 / 100), .finite (12 / 100)) :=
  ⟨coarsest.polygon_to_cells_covers_iff (by decide +kernel), by decide +kernel⟩

/-- The square from `(0, 0)` to `(10, 10)`. -/
def wide_fence : List (Double × Double) :=
  [(0, 0), (0, .finite 10), (.finite 10, .finite 10), (.finite 10, 0)]

/-- The middle of a wide fence is inside it and in none of its cells, at the default resolution. -/
theorem polyfill_misses_middle : ¬∀ (h : H3Index) (polygon : List (Double × Double)),
    (∀ v ∈ polygon, valid_lat_lon v.1 v.2 = true) →
      ∃ cells, h.polygon_to_cells polygon = .ok cells ∧ cells.Pairwise (· < ·) ∧
        ∀ lat lon, valid_lat_lon lat lon = true → geo.point_in_polygon lat lon polygon = true →
          ∃ cell ∈ cells, h.lat_lng_to_cell lat lon = .ok cell := by
  intro hall
  have hvertices : ∀ v ∈ wide_fence, valid_lat_lon v.1 v.2 = true := by decide +kernel
  obtain ⟨cells, hcells, -, hcover⟩ := hall default wide_fence hvertices
  obtain ⟨cells', hcells', -, hmem⟩ := default.polygon_to_cells_spec hvertices
  obtain rfl := Except.ok.inj (hcells.symm.trans hcells')
  obtain ⟨cell, hcell, hmiddle⟩ := hcover (.finite 5) (.finite 5) (by decide +kernel) (by decide +kernel)
  -- The cells are those of the four corners.
  obtain ⟨v, hv, hvertex⟩ := (hmem cell).mp hcell
  have hne : ∀ v ∈ wide_fence, default.lat_lng_to_cell v.1 v.2 ≠
      default.lat_lng_to_cell (.finite 5) (.finite 5) := by
    decide +kernel
  exact hne v hv (hvertex.trans hmiddle.symm)

end H3Index

end SignalRoute
