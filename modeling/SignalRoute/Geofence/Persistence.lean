import SignalRoute.Numeric.Reread
import SignalRoute.Numeric.Grammar
import SignalRoute.Geofence.Reloads
import SignalRoute.Geofence.Containment
import SignalRoute.Processor.Codec
import Mathlib.Data.List.DropRight

/-!
# Fence geometry in PostgreSQL

The PostGIS build of `set_active_fences` and `load_active_fences` in
`src/common/clients/postgres_client.cpp`, with its hand-written text formats. A polygon goes out as a
closed ring of pairs, longitude first, in six digits, and comes back as the open list of the vertices as
they are reread (`parse_polygon_wkt_polygon_to_wkt`). Cells go out as sorted integers and come back
exactly (`parse_h3_cells_h3_cells_to_csv`). So a fence is loaded with its cells, but with its polygon
only where the coordinates are six-digit numbers (`fence_geometry_iff`).
-/

namespace SignalRoute

open Numeric
open Store (UnorderedMap)

/-- A token of `parse_h3_cells`, which skips what is no integer. -/
def parse_h3_cell (token : List Char) : Option ℤ :=
  if token = [] then none
  else
    match from_chars token with
    | .ok (value, []) => some value
    | _ => none

/-- `parse_h3_cells`. The tokens are the pieces up to each comma, with none after a comma at the end. -/
def parse_h3_cells (csv : String) : List ℤ := (getlines ',' csv.toList).filterMap parse_h3_cell

/-- `parse_lon_lat_pair`: the latitude and the longitude of a pair that has the longitude first. -/
def parse_lon_lat_pair (pair : List Char) : Option (Double × Double) :=
  let pair := (pair.dropWhile (· = ' ')).rdropWhile (· = ' ')
  match pair.dropWhile (· ≠ ' ') with
  | [] => none
  | _ :: lat_view =>
    let lon_text := String.ofList (pair.takeWhile (· ≠ ' '))
    let lat_text := String.ofList (lat_view.dropWhile (· = ' '))
    some (strtod lat_text, strtod lon_text)

/-- `==` of two vertices; a NaN is not equal to itself. -/
def same_vertex (a b : Double × Double) : Bool := a.1 ≤ b.1 && b.1 ≤ a.1 && a.2 ≤ b.2 && b.2 ≤ a.2

/-- Whether the front of a list of vertices is its back. -/
def closes (vertices : List (Double × Double)) : Bool :=
  match vertices.head?, vertices.getLast? with
  | some front, some back => same_vertex front back
  | _, _ => false

/-- `parse_polygon_wkt`. -/
def parse_polygon_wkt (wkt : String) : List (Double × Double) :=
  if ¬"POLYGON((".toList.isPrefixOf wkt.toList ∨ wkt.length ≤ 9 + 2 then []
  else
    let vertices := (getlines ',' (wkt.toList.drop 9).dropLast.dropLast).filterMap parse_lon_lat_pair
    if vertices.length > 1 ∧ closes vertices then vertices.dropLast else vertices

/-- A vertex as it is printed. -/
def lon_lat_pair (v : Double × Double) : List Char :=
  (ostreamDouble v.2).toList ++ ' ' :: (ostreamDouble v.1).toList

/-- `polygon_to_wkt`. -/
def polygon_to_wkt (vertices : List (Double × Double)) : String :=
  if vertices = [] then "POLYGON EMPTY"
  else
    let ring := if closes vertices then vertices else vertices ++ vertices.take 1
    String.ofList ("POLYGON((".toList ++ [','].intercalate (ring.map lon_lat_pair) ++ "))".toList)

/-- `h3_cells_to_csv`, which sorts the cells in ascending order. -/
def h3_cells_to_csv (cells : Finset ℤ) : String :=
  String.ofList ([','].intercalate ((cells.sort (· ≥ ·)).reverse.map fun cell => (toString cell).toList))

/-- `parse_i64`, whose `std::strtoll` reads no numeral as zero and stops at the ends of its range. -/
def parse_i64 (value : String) : ℤ :=
  match readInteger value with
  | .error _ => 0
  | .ok (negative, n) => max (-2^63) (min (2^63 - 1) (if negative then -n else n))

/-- `parse_bool`. -/
def parse_bool (value : String) : Bool := value = "t" || value = "true" || value = "1"

/-- What PostgreSQL makes of the texts of a statement: geometries, arrays of cells, and refusals with the
message that `PQerrorMessage` gives. -/
structure PostGIS (G A : Type) where
  ST_GeomFromText : String → Option G
  ST_AsText : G → String
  string_to_array : String → Option A
  array_to_string : A → String
  no_cells : A
  error_message : String

/-- A row of `geofence_rules` but for its key; an integer column is the text that it is printed as. -/
structure FenceRow (G A : Type) where
  name : String
  geometry : G
  h3_cells : A
  dwell_threshold_s : String
  active : Bool

namespace PostGIS

variable {G A : Type} (db : PostGIS G A)

/-- The array of a column of cells: the `CASE` of the upsert. -/
def h3_cells_array (csv : String) : Option A := if csv = "" then some db.no_cells else db.string_to_array csv

/-- The upsert of a fence, which fails where a text is refused. -/
def upsert (rows : UnorderedMap String (FenceRow G A)) (fence : GeofenceRule) :
    Option (UnorderedMap String (FenceRow G A)) := do
  let geometry ← db.ST_GeomFromText (polygon_to_wkt fence.polygon_vertices)
  let h3_cells ← db.h3_cells_array (h3_cells_to_csv fence.h3_cells)
  return rows.insert fence.fence_id
    { name := fence.name, geometry, h3_cells, dwell_threshold_s := toString fence.dwell_threshold_s,
      active := fence.active }

/-- `set_active_fences`: the upserts are one transaction, which is rolled back where one fails. -/
def set_active_fences (rows : UnorderedMap String (FenceRow G A)) (fences : List GeofenceRule) :
    Except Exception Unit × UnorderedMap String (FenceRow G A) :=
  match fences.foldlM db.upsert rows with
  | some rows => (.ok (), rows)
  | none => (.error (.std ("upsert geofence rule failed: " ++ db.error_message)), rows)

/-- A row as a fence. -/
def fence_from_row (row : Σ _ : String, FenceRow G A) : GeofenceRule where
  fence_id := row.fst
  name := row.snd.name
  dwell_threshold_s := castInt (parse_i64 row.snd.dwell_threshold_s)
  active := parse_bool (if row.snd.active then "t" else "f")
  h3_cells := (parse_h3_cells (db.array_to_string row.snd.h3_cells)).toFinset
  polygon_vertices := parse_polygon_wkt (db.ST_AsText row.snd.geometry)

/-- `load_active_fences`: the rows that are active, in the order of their keys. -/
def load_active_fences (rows : UnorderedMap String (FenceRow G A)) : List GeofenceRule :=
  ((rows.entries.filter fun row => row.snd.active).mergeSort fun a b => a.fst ≤ b.fst).map db.fence_from_row

end PostGIS

section Text

/-- Texts with commas between them are split off again, if the last is not empty. -/
theorem getlines_intercalate {fields : List (List Char)} (hne : fields ≠ []) (hfields : ∀ f ∈ fields, ',' ∉ f)
    (hlast : [] ∉ fields) : getlines ',' ([','].intercalate fields) = fields := by
  unfold getlines
  dsimp only
  rw [List.splitOn_intercalate ',' hfields hne, if_neg]
  exact fun h => hlast (List.mem_of_getLast? h)

/-- A printed cell is read to its end. -/
theorem parse_h3_cell_toString {z : ℤ} (h : -2^63 ≤ z ∧ z < 2^63) :
    parse_h3_cell (toString z).toList = some z := by
  unfold parse_h3_cell
  rw [if_neg (toString_int_ne_nil z), from_chars_toString h]

/-- A printed vertex has no comma in it. -/
theorem comma_notMem_lon_lat_pair (v : Double × Double) : ',' ∉ lon_lat_pair v := by
  unfold lon_lat_pair
  simp [comma_notMem_double]

/-- A printed vertex is read as the numbers that its coordinates are read as. -/
theorem parse_lon_lat_pair_lon_lat_pair (v : Double × Double) :
    parse_lon_lat_pair (lon_lat_pair v) = some (strtod (ostreamDouble v.1), strtod (ostreamDouble v.2)) := by
  have hspace : ∀ x : Double, ∀ c ∈ (ostreamDouble x).toList, c ≠ ' ' := by
    rintro x c hc rfl
    exact absurd (isNumeral_of_mem_ostreamDouble hc) (by decide)
  have hcons : ∀ x : Double, ∃ c cs, (ostreamDouble x).toList = c :: cs ∧ c ≠ ' ' := by
    intro x
    obtain ⟨c, cs, hcs⟩ := List.exists_cons_of_ne_nil (ostreamDouble_ne_nil x)
    exact ⟨c, cs, hcs, hspace x c (hcs ▸ List.mem_cons_self)⟩
  -- There is no space at either end of the pair, and one between the numbers.
  have hfront : (lon_lat_pair v).dropWhile (· = ' ') = lon_lat_pair v := by
    obtain ⟨c, cs, hcs, hc⟩ := hcons v.2
    unfold lon_lat_pair
    rw [hcs, List.cons_append, List.dropWhile_cons_of_neg (by simpa using hc)]
  have hback : (lon_lat_pair v).rdropWhile (· = ' ') = lon_lat_pair v := by
    rw [List.rdropWhile_eq_self_iff]
    unfold lon_lat_pair
    intro hne
    rw [List.getLast_append_of_ne_nil _ (List.cons_ne_nil _ _), List.getLast_cons (ostreamDouble_ne_nil v.1)]
    simpa using hspace _ _ (List.getLast_mem (ostreamDouble_ne_nil v.1))
  have hlon : ∀ c ∈ (ostreamDouble v.2).toList, decide (c ≠ ' ') = true := fun c hc =>
    decide_eq_true (hspace _ c hc)
  have hlat : (ostreamDouble v.1).toList.dropWhile (· = ' ') = (ostreamDouble v.1).toList := by
    obtain ⟨c, cs, hcs, hc⟩ := hcons v.1
    rw [hcs, List.dropWhile_cons_of_neg (by simpa using hc)]
  unfold parse_lon_lat_pair
  rw [hfront, hback]
  unfold lon_lat_pair
  dsimp only
  rw [List.dropWhile_append_of_pos hlon, List.takeWhile_append_of_pos hlon,
    List.dropWhile_cons_of_neg (by decide), List.takeWhile_cons_of_neg (by decide), List.append_nil]
  dsimp only
  rw [hlat, String.ofList_toList, String.ofList_toList]

end Text

section Polygon

open geo (vertex)

variable {a b : ℚ × ℚ} {ring : List (ℚ × ℚ)}

/-- The vertices are compared as numbers. -/
theorem same_vertex_vertex : same_vertex (vertex a) (vertex b) = true ↔ a = b := by
  unfold same_vertex vertex
  simp only [Double.finite_le_finite, Bool.and_eq_true, decide_eq_true_iff, Prod.ext_iff]
  constructor
  · rintro ⟨⟨⟨hle, hge⟩, hle'⟩, hge'⟩
    exact ⟨le_antisymm hle hge, le_antisymm hle' hge'⟩
  · rintro ⟨hlat, hlon⟩
    exact ⟨⟨⟨hlat.le, hlat.ge⟩, hlon.le⟩, hlon.ge⟩

/-- So is the front of a list of vertices with its back. -/
theorem closes_vertex (hne : ring ≠ []) : closes (ring.map vertex) = true ↔ ring.head? = ring.getLast? := by
  unfold closes
  rw [List.head?_map, List.getLast?_map, List.head?_eq_some_head hne, List.getLast?_eq_some_getLast hne]
  exact same_vertex_vertex.trans Option.some_inj.symm

/-- Between its first nine characters and its last two, a polygon is the pairs of a ring, whose last
vertex is left out if it is the first. -/
theorem parse_polygon_wkt_ring {inner : List Char} (hinner : 0 < inner.length) :
    parse_polygon_wkt (String.ofList ("POLYGON((".toList ++ inner ++ "))".toList)) =
      let vertices := (getlines ',' inner).filterMap parse_lon_lat_pair
      if vertices.length > 1 ∧ closes vertices then vertices.dropLast else vertices := by
  have hcut : (("POLYGON((".toList ++ inner ++ "))".toList).drop 9).dropLast.dropLast = inner := by
    change (inner ++ [')', ')']).dropLast.dropLast = inner
    rw [List.dropLast_append_cons, List.dropLast_cons_cons, List.dropLast_singleton, List.dropLast_concat]
  have hopening : "POLYGON((".toList.isPrefixOf ("POLYGON((".toList ++ inner ++ "))".toList) = true := by
    rw [List.isPrefixOf_iff_prefix, List.append_assoc]
    exact List.prefix_append _ _
  have hsize : 9 + 2 < (String.ofList ("POLYGON((".toList ++ inner ++ "))".toList)).length := by
    rw [String.length_ofList, List.length_append, List.length_append]
    change 9 + 2 < 9 + inner.length + 2
    omega
  unfold parse_polygon_wkt
  rw [if_neg (not_or.mpr ⟨fun h => h ((congrArg _ String.toList_ofList).trans hopening), not_le.mpr hsize⟩), String.toList_ofList,
    hcut]

/-- The vertices of a polygon come back in their order, each with its coordinates reread. -/
theorem parse_polygon_wkt_polygon_to_wkt (hmax : ∀ v ∈ ring, |v.1| < 2^1024 ∧ |v.2| < 2^1024)
    (hends : ring.head? ≠ ring.getLast?) :
    parse_polygon_wkt (polygon_to_wkt (ring.map vertex)) =
      (ring.map fun v => (reread v.1, reread v.2)).map vertex := by
  have hne : ring ≠ [] := by
    rintro rfl
    exact hends rfl
  obtain ⟨first, rest, hring⟩ := List.exists_cons_of_ne_nil hne
  have hopen : closes (ring.map vertex) = false := by
    rw [Bool.eq_false_iff, Ne, closes_vertex hne]
    exact hends
  -- The ring goes out with its first vertex at the end, and each vertex is reread by itself.
  have hpairs : getlines ',' ([','].intercalate (((ring ++ [first]).map vertex).map lon_lat_pair)) =
      ((ring ++ [first]).map vertex).map lon_lat_pair := by
    refine getlines_intercalate (by simp) (fun f hf => ?_) (by simp [lon_lat_pair])
    obtain ⟨v, -, rfl⟩ := List.mem_map.mp hf
    exact comma_notMem_lon_lat_pair v
  have hreread : ∀ v ∈ ring ++ [first], parse_lon_lat_pair (lon_lat_pair (vertex v)) =
      some (vertex (reread v.1, reread v.2)) := by
    intro v hv
    obtain ⟨hlat, hlon⟩ : |v.1| < 2^1024 ∧ |v.2| < 2^1024 := by
      refine hmax v ((List.mem_append.mp hv).elim id fun h => ?_)
      rw [List.mem_singleton.mp h, hring]
      exact List.mem_cons_self
    rw [parse_lon_lat_pair_lon_lat_pair]
    unfold vertex
    rw [strtod_ostreamDouble hlat, strtod_ostreamDouble hlon]
  have hvertices : (((ring ++ [first]).map vertex).map lon_lat_pair).filterMap parse_lon_lat_pair =
      ((ring ++ [first]).map fun v => (reread v.1, reread v.2)).map vertex := by
    rw [List.map_map, List.map_map, List.filterMap_map, ← List.filterMap_eq_map]
    exact List.filterMap_congr hreread
  have htext : polygon_to_wkt (ring.map vertex) = String.ofList ("POLYGON((".toList ++
      [','].intercalate (((ring ++ [first]).map vertex).map lon_lat_pair) ++ "))".toList) := by
    unfold polygon_to_wkt
    rw [if_neg (by simpa using hne), hopen]
    simp only [Bool.false_eq_true, if_false, hring, List.map_cons, List.take_succ_cons, List.take_zero,
      List.map_append, List.map_nil]
  have hinner : 0 < ([','].intercalate (((ring ++ [first]).map vertex).map lon_lat_pair)).length := by
    refine List.length_pos_iff.mpr fun hnil => ?_
    rw [hnil] at hpairs
    simp [getlines] at hpairs
  generalize [','].intercalate (((ring ++ [first]).map vertex).map lon_lat_pair) = inner at *
  have hclosed : closes (((ring ++ [first]).map fun v => (reread v.1, reread v.2)).map vertex) = true := by
    rw [closes_vertex (by simp), List.map_append, List.map_singleton, List.getLast?_concat, hring]
    rfl
  have hlength : 1 < (((ring ++ [first]).map fun v => (reread v.1, reread v.2)).map vertex).length := by
    simp [hring]
  rw [htext, parse_polygon_wkt_ring hinner, hpairs, hvertices, if_pos ⟨hlength, hclosed⟩, List.map_append,
    List.map_append, List.map_singleton, List.map_singleton, List.dropLast_concat]

/-- A polygon comes back exactly if its coordinates are six-digit numbers. -/
theorem parse_polygon_wkt_eq_iff (hmax : ∀ v ∈ ring, |v.1| < 2^1024 ∧ |v.2| < 2^1024)
    (hends : ring.head? ≠ ring.getLast?) :
    parse_polygon_wkt (polygon_to_wkt (ring.map vertex)) = ring.map vertex ↔
      ∀ v ∈ ring, SixDigit v.1 ∧ SixDigit v.2 := by
  have hinjective : Function.Injective vertex := fun a b h => by
    cases a
    cases b
    cases h
    rfl
  rw [parse_polygon_wkt_polygon_to_wkt hmax hends, (List.map_injective_iff.mpr hinjective).eq_iff]
  conv_lhs => rw [← List.map_id ring, List.map_map]
  rw [List.map_inj_left]
  refine forall₂_congr fun v _ => ?_
  rw [← reread_eq_iff, ← reread_eq_iff]
  exact Prod.ext_iff

end Polygon

/-- Cells come back. -/
theorem parse_h3_cells_h3_cells_to_csv {cells : Finset ℤ} (h : ∀ cell ∈ cells, -2^63 ≤ cell ∧ cell < 2^63) :
    (parse_h3_cells (h3_cells_to_csv cells)).toFinset = cells := by
  unfold parse_h3_cells h3_cells_to_csv
  have hcells : (cells.sort (· ≥ ·)).reverse.toFinset = cells := by
    rw [List.toFinset_reverse, Finset.sort_toFinset]
  generalize (cells.sort (· ≥ ·)).reverse = sorted at *
  have hmem : ∀ cell ∈ sorted, -2^63 ≤ cell ∧ cell < 2^63 := fun cell hcell =>
    h cell (hcells ▸ List.mem_toFinset.mpr hcell)
  refine (congrArg List.toFinset ?_).trans hcells
  rw [String.toList_ofList]
  by_cases hne : sorted = []
  · rw [hne]
    rfl
  · rw [getlines_intercalate, List.filterMap_map, List.filterMap_congr (g := some), List.filterMap_some]
    · exact fun cell hcell => parse_h3_cell_toString (hmem cell hcell)
    · simpa using hne
    · intro f hf
      obtain ⟨cell, -, rfl⟩ := List.mem_map.mp hf
      exact comma_notMem_int cell
    · intro hnil
      obtain ⟨cell, -, hcell⟩ := List.mem_map.mp hnil
      exact toString_int_ne_nil cell hcell

section Tables

open geo (vertex)

variable {G A : Type} {db : PostGIS G A}

/-- Geometries and arrays give back the texts that the client makes them of. -/
structure PostGIS.Inverse (db : PostGIS G A) : Prop where
  geometry : ∀ vertices geometry, db.ST_GeomFromText (polygon_to_wkt vertices) = some geometry →
    db.ST_AsText geometry = polygon_to_wkt vertices
  cells : ∀ cells array, db.string_to_array (h3_cells_to_csv cells) = some array →
    db.array_to_string array = h3_cells_to_csv cells
  no_cells : db.array_to_string db.no_cells = ""

/-- The row of a fence. -/
structure PostGIS.Stores (db : PostGIS G A) (fence : GeofenceRule) (row : FenceRow G A) : Prop where
  geometry : db.ST_AsText row.geometry = polygon_to_wkt fence.polygon_vertices
  cells : db.array_to_string row.h3_cells = h3_cells_to_csv fence.h3_cells
  active : row.active = fence.active

namespace PostGIS

variable {fence : GeofenceRule} {rows rows' : UnorderedMap String (FenceRow G A)}

/-- An upsert stores the fence and leaves the other rows alone. -/
theorem upsert_spec (hdb : db.Inverse) (h : db.upsert rows fence = some rows') :
    (∃ row, rows'.lookup fence.fence_id = some row ∧ db.Stores fence row) ∧
      ∀ id, id ≠ fence.fence_id → rows'.lookup id = rows.lookup id := by
  unfold upsert at h
  simp only [Option.bind_eq_bind, Option.bind_eq_some_iff, Option.pure_def, Option.some.injEq] at h
  obtain ⟨geometry, hgeometry, h3_cells, hcells, rfl⟩ := h
  refine ⟨⟨_, AList.lookup_insert _, hdb.geometry _ _ hgeometry, ?_, rfl⟩, fun id hid => AList.lookup_insert_ne hid⟩
  unfold h3_cells_array at hcells
  split_ifs at hcells with hempty
  · obtain rfl := Option.some.inj hcells
    exact hdb.no_cells.trans hempty.symm
  · exact hdb.cells _ _ hcells

/-- The upserts of other fences leave a row alone too. -/
theorem lookup_foldlM_upsert (hdb : db.Inverse) {fences : List GeofenceRule}
    (h : fences.foldlM db.upsert rows = some rows') {id : String} (hid : ∀ f ∈ fences, f.fence_id ≠ id) :
    rows'.lookup id = rows.lookup id := by
  induction fences generalizing rows with
  | nil =>
    cases h
    rfl
  | cons f fences ih =>
    obtain ⟨hf, hfences⟩ := List.forall_mem_cons.mp hid
    rw [List.foldlM_cons, Option.bind_eq_bind, Option.bind_eq_some_iff] at h
    obtain ⟨rows'', hupsert, hrest⟩ := h
    rw [ih hrest hfences, (upsert_spec hdb hupsert).2 id hf.symm]

/-- A call that succeeds stores each fence that is the last with its id. -/
theorem stores_of_set (hdb : db.Inverse) {before after : List GeofenceRule}
    (h : db.set_active_fences rows (before ++ fence :: after) = (.ok (), rows'))
    (hlast : ∀ f ∈ after, f.fence_id ≠ fence.fence_id) :
    ∃ row, rows'.lookup fence.fence_id = some row ∧ db.Stores fence row := by
  unfold set_active_fences at h
  cases hfold : (before ++ fence :: after).foldlM db.upsert rows with
  | none =>
    rw [hfold] at h
    cases h
  | some rows'' =>
    rw [hfold] at h
    cases h
    rw [List.foldlM_append, Option.bind_eq_bind, Option.bind_eq_some_iff] at hfold
    obtain ⟨rows₁, -, hfold⟩ := hfold
    rw [List.foldlM_cons, Option.bind_eq_bind, Option.bind_eq_some_iff] at hfold
    obtain ⟨rows₂, hupsert, hrest⟩ := hfold
    rw [lookup_foldlM_upsert hdb hrest hlast]
    exact (upsert_spec hdb hupsert).1

/-- What is loaded of the fence of an id is its row, if it is active. -/
theorem mem_load_active_fences {loaded : GeofenceRule} : loaded ∈ db.load_active_fences rows ↔
    ∃ row, rows.lookup loaded.fence_id = some row ∧ row.active = true ∧
      loaded = db.fence_from_row ⟨loaded.fence_id, row⟩ := by
  unfold load_active_fences
  rw [List.mem_map]
  constructor
  · rintro ⟨⟨id, row⟩, hmem, rfl⟩
    obtain ⟨hmem, hactive⟩ := List.mem_filter.mp (List.mem_mergeSort.mp hmem)
    exact ⟨row, AList.mem_lookup_iff.mpr hmem, hactive, rfl⟩
  · rintro ⟨row, hlookup, hactive, heq⟩
    exact ⟨⟨loaded.fence_id, row⟩, List.mem_mergeSort.mpr (List.mem_filter.mpr
      ⟨AList.mem_lookup_iff.mp hlookup, hactive⟩), heq.symm⟩

end PostGIS

/-- A ring of doubles whose first and last vertices differ. -/
structure OpenRing (ring : List (ℚ × ℚ)) : Prop where
  in_range : ∀ v ∈ ring, |v.1| < 2^1024 ∧ |v.2| < 2^1024
  ends : ring.head? ≠ ring.getLast?

/-- A fence of 64-bit cells. -/
def GeofenceRule.InRange (fence : GeofenceRule) : Prop := ∀ cell ∈ fence.h3_cells, -2^63 ≤ cell ∧ cell < 2^63

/-- A fence comes back as its polygon and its cells, which cover the polygon if they did. -/
def GeofenceRule.Survives (fence loaded : GeofenceRule) : Prop :=
  loaded.polygon_vertices = fence.polygon_vertices ∧ loaded.h3_cells = fence.h3_cells ∧
    ∀ h3, fence.Covered h3 → loaded.Covered h3

/-- A fence whose row is stored is loaded unchanged exactly if its coordinates are six-digit numbers. -/
theorem PostGIS.Stores.survives_iff {fence : GeofenceRule} {row : FenceRow G A} (h : db.Stores fence row)
    {ring : List (ℚ × ℚ)} (hring : OpenRing ring) (hpolygon : fence.polygon_vertices = ring.map vertex)
    (hcells : fence.InRange) :
    fence.Survives (db.fence_from_row ⟨fence.fence_id, row⟩) ↔ ∀ v ∈ ring, SixDigit v.1 ∧ SixDigit v.2 := by
  have hpolygon_loaded : (db.fence_from_row ⟨fence.fence_id, row⟩).polygon_vertices =
      parse_polygon_wkt (polygon_to_wkt (ring.map vertex)) := by
    rw [← hpolygon, ← h.geometry]
    rfl
  have hcells_loaded : (db.fence_from_row ⟨fence.fence_id, row⟩).h3_cells = fence.h3_cells := by
    change (parse_h3_cells (db.array_to_string row.h3_cells)).toFinset = _
    rw [h.cells, parse_h3_cells_h3_cells_to_csv hcells]
  rw [← parse_polygon_wkt_eq_iff hring.in_range hring.ends, ← hpolygon_loaded, ← hpolygon]
  constructor
  · rintro ⟨hsame, -, -⟩
    exact hsame
  · intro hsame
    refine ⟨hsame, hcells_loaded, fun h3 hcovered => ?_⟩
    unfold GeofenceRule.Covered
    rw [hsame, hcells_loaded]
    exact hcovered

end Tables

/-- A polygon, and a fence that is stored and loaded again, come back exactly if the coordinates are
six-digit numbers; cells always do. -/
theorem fence_geometry_iff (ring : List (ℚ × ℚ)) (hring : OpenRing ring) :
    (parse_polygon_wkt (polygon_to_wkt (ring.map geo.vertex)) = ring.map geo.vertex ↔
      ∀ v ∈ ring, SixDigit v.1 ∧ SixDigit v.2) ∧
    (∀ cells : Finset ℤ, (∀ cell ∈ cells, -2^63 ≤ cell ∧ cell < 2^63) →
      (parse_h3_cells (h3_cells_to_csv cells)).toFinset = cells) ∧
    ∀ {G A : Type} (db : PostGIS G A), db.Inverse → ∀ rows rows' before fence after,
      db.set_active_fences rows (before ++ fence :: after) = (.ok (), rows') →
      (∀ f ∈ after, f.fence_id ≠ fence.fence_id) → fence.active = true → fence.InRange →
      fence.polygon_vertices = ring.map geo.vertex →
        ∃ loaded ∈ db.load_active_fences rows', loaded.fence_id = fence.fence_id ∧
          (∀ other ∈ db.load_active_fences rows', other.fence_id = fence.fence_id → other = loaded) ∧
          (fence.Survives loaded ↔ ∀ v ∈ ring, SixDigit v.1 ∧ SixDigit v.2) := by
  refine ⟨parse_polygon_wkt_eq_iff hring.in_range hring.ends,
    fun cells hcells => parse_h3_cells_h3_cells_to_csv hcells, ?_⟩
  intro G A db hdb rows rows' before fence after hset hlast hactive hcells hpolygon
  obtain ⟨row, hlookup, hstores⟩ := PostGIS.stores_of_set hdb hset hlast
  refine ⟨db.fence_from_row ⟨fence.fence_id, row⟩, ?_, rfl, ?_, hstores.survives_iff hring hpolygon hcells⟩
  · exact PostGIS.mem_load_active_fences.mpr ⟨row, hlookup, hstores.active.trans hactive, rfl⟩
  · intro other hother hid
    obtain ⟨row', hlookup', -, heq⟩ := PostGIS.mem_load_active_fences.mp hother
    rw [hid, hlookup] at hlookup'
    cases hlookup'
    rw [heq, hid]

/-- A database that keeps the texts that it is given. -/
def textStore : PostGIS String String where
  ST_GeomFromText := some
  ST_AsText := id
  string_to_array := some
  array_to_string := id
  no_cells := ""
  error_message := ""

/-- A triangle with one vertex at a latitude. -/
def triangle (lat : ℚ) : List (ℚ × ℚ) := [(lat, 20), (11, 20), (11, 21)]

theorem openRing_triangle {lat : ℚ} (hlat : |lat| < 2^1024) (hne : lat ≠ 11) : OpenRing (triangle lat) where
  in_range := by
    have hmax : |(11 : ℚ)| < 2^1024 ∧ |(20 : ℚ)| < 2^1024 ∧ |(21 : ℚ)| < 2^1024 := by decide +kernel
    simpa [triangle] using ⟨⟨hlat, hmax.2.1⟩, ⟨hmax.1, hmax.2.1⟩, hmax.1, hmax.2.2⟩
  ends := by simp [triangle, hne]

/-- A fence of the triangle and one cell. -/
def triangleFence (lat : ℚ) : GeofenceRule where
  fence_id := "f"
  polygon_vertices := (triangle lat).map geo.vertex
  h3_cells := {7}

/-- With its vertex at half a degree, the fence survives in such a database. -/
theorem fence_geometry_iff_half : ∃ loaded, (triangleFence (21 / 2)).Survives loaded := by
  have hring : OpenRing (triangle (21 / 2)) := openRing_triangle (by decide +kernel) (by norm_num)
  have hset : textStore.set_active_fences ∅ ([] ++ triangleFence (21 / 2) :: []) =
      (.ok (), (textStore.set_active_fences ∅ [triangleFence (21 / 2)]).2) := by
    unfold PostGIS.set_active_fences PostGIS.upsert PostGIS.h3_cells_array
    dsimp only [List.nil_append, List.foldlM]
    split_ifs <;> rfl
  have hdb : textStore.Inverse :=
    ⟨fun _ _ h => (Option.some.inj h).symm, fun _ _ h => (Option.some.inj h).symm, rfl⟩
  obtain ⟨loaded, -, -, -, hiff⟩ := (fence_geometry_iff (triangle (21 / 2)) hring).2.2 textStore hdb ∅ _ [] _ []
    hset (fun f hf => by cases hf) rfl (by simp [GeofenceRule.InRange, triangleFence]) rfl
  refine ⟨loaded, hiff.mpr ?_⟩
  have hsix : ∀ q ∈ [(21 / 2 : ℚ), 11, 20, 21], SixDigit q := by
    intro q hq
    rw [← reread_eq_iff]
    revert q
    decide +kernel
  simp only [List.forall_mem_cons] at hsix
  obtain ⟨hhalf, h11, h20, h21, -⟩ := hsix
  simpa [triangle] using ⟨⟨hhalf, h20⟩, ⟨h11, h20⟩, h11, h21⟩

/-- Nearer to the equator by about half a degree, its latitude has more digits than are printed. -/
theorem fence_geometry_shifts : OpenRing (triangle (1281 / 128)) ∧
    polygon_to_wkt ((triangle (1281 / 128)).map geo.vertex) = "POLYGON((20 10.0078,20 11,21 11,20 10.0078))" ∧
    parse_polygon_wkt (polygon_to_wkt ((triangle (1281 / 128)).map geo.vertex)) ≠
      (triangle (1281 / 128)).map geo.vertex := by
  have hring : OpenRing (triangle (1281 / 128)) := openRing_triangle (by decide +kernel) (by norm_num)
  refine ⟨hring, by decide +kernel, fun heq => ?_⟩
  have hsix := (parse_polygon_wkt_eq_iff hring.in_range hring.ends).mp heq _ List.mem_cons_self
  have hreread : reread (1281 / 128) = 1281 / 128 := reread_eq_iff.mpr hsix.1
  revert hreread
  decide +kernel

end SignalRoute
