import SignalRoute.Geofence.PointInPolygon
import SignalRoute.Geometry.Convex

/-!
# What point in polygon decides

On vertices with finite coordinates, in exact arithmetic, `point_in_polygon` decides whether a ring
contains a point (`Geometry.Contains`), for the ring as an open list of vertices and for the list with
the first vertex appended (`point_in_polygon_open`, `point_in_polygon_closed`). What it decides is
therefore the same for every presentation of a ring, and on convex polygons it is the conjunction of
the half-plane tests of the edges.
-/

namespace SignalRoute.geo

open Numeric (Double)
open Geometry (edges cross OnEdge crossing areaTwice winding Contains side StrictlyConvex)

/-- A vertex with finite coordinates. -/
def vertex (v : ℚ × ℚ) : Double × Double := (.finite v.1, .finite v.2)

/-- Two vertices that are farther than `kEpsilon` apart in some coordinate. -/
def Apart (a b : ℚ × ℚ) : Prop := 1 / 10^12 < |a.1 - b.1| ∨ 1 / 10^12 < |a.2 - b.2|

variable {lat lon : ℚ} {a b : ℚ × ℚ} {ring : List (ℚ × ℚ)}

/-- The tolerance separates the vertices that are apart. -/
theorem same_point_vertex : same_point (vertex a) (vertex b) = false ↔ Apart a b := by
  unfold same_point vertex kEpsilon Apart
  simp only [Double.finite_sub, Double.abs, Double.finite_le_finite, Bool.and_eq_false_iff,
    decide_eq_false_iff_not, not_le]

/-- A vertex is the same point as itself. -/
theorem same_point_self (a : ℚ × ℚ) : same_point (vertex a) (vertex a) = true := by
  unfold same_point vertex kEpsilon
  simp [Double.abs]

/-- The cross product in exact arithmetic. -/
theorem cross_product_vertex :
    cross_product (.finite lat) (.finite lon) (vertex a) (vertex b) = .finite (cross (lat, lon) a b) := by
  unfold cross_product vertex cross
  simp

/-- The minimum of finite numbers. -/
theorem finite_min (p q : ℚ) : (Double.finite p).min (.finite q) = .finite (min p q) := by
  unfold Double.min
  simp only [Double.finite_lt_finite]
  split
  · rw [min_eq_right (le_of_lt ‹_›)]
  · rw [min_eq_left (not_lt.mp ‹_›)]

/-- Being on a segment in exact arithmetic. -/
theorem point_on_segment_vertex :
    point_on_segment (.finite lat) (.finite lon) (vertex a) (vertex b) = true ↔
      OnEdge (1 / 10^12) (lat, lon) a b := by
  unfold point_on_segment OnEdge kEpsilon
  rw [cross_product_vertex]
  unfold vertex
  simp only [Double.abs, Double.finite_lt_finite, finite_min, Double.finite_max, Double.finite_sub,
    Double.finite_add, Double.finite_le_finite]
  split
  · exact iff_of_false Bool.false_ne_true fun h => absurd h.1 (not_le.mpr ‹_›)
  · simp only [Bool.and_eq_true, decide_eq_true_eq, not_lt.mp ‹_›, true_and, and_assoc]

/-- What a side adds to the winding number in exact arithmetic. -/
theorem wind_vertex (w : ℤ) :
    wind (.finite lat) (.finite lon) w (vertex a, vertex b) =
      if point_on_segment (.finite lat) (.finite lon) (vertex a) (vertex b) then none
      else some (w + crossing (lat, lon) a b) := by
  unfold wind crossing
  dsimp only
  rw [cross_product_vertex]
  split
  · rfl
  · unfold vertex
    simp only [Double.zero_eq, Double.finite_le_finite, Double.finite_lt_finite]
    split <;> split
    · by_cases hcross : 0 < cross (lat, lon) a b <;> simp [*]
    · simp [*]
    · by_cases hcross : cross (lat, lon) a b < 0 <;> simp [*, sub_eq_add_neg]
    · simp [*]

/-- The sides of a list that begins with a ring are the edges of the ring. -/
theorem sides_of_take {vertices : List (Double × Double)}
    (h : vertices.take ring.length = ring.map vertex) :
    sides vertices ring.length = (edges ring).map (Prod.map vertex vertex) := by
  have hget : ∀ i, (hi : i < ring.length) → vertices.getD i (0, 0) = vertex (ring.get ⟨i, hi⟩) := by
    intro i hi
    have hlookup := congrArg (fun l => l[i]?) h
    simp only [List.getElem?_take, if_pos hi, List.getElem?_map, List.getElem?_eq_getElem hi] at hlookup
    rw [List.getD_eq_getElem?_getD, hlookup]
    rfl
  unfold sides edges
  refine List.ext_getElem ?_ fun i hi hi' => ?_
  · simp only [List.length_map, List.length_range, List.length_zip, List.length_rotate, min_self]
  · rw [List.length_map, List.length_range] at hi
    simp only [List.getElem_map, List.getElem_range, List.getElem_zip, List.getElem_rotate, Prod.map_apply]
    rw [hget i hi, hget _ (Nat.mod_lt _ (by omega))]
    rfl

/-- The loop stops at the first side that the point is on, and otherwise adds up the winding number. -/
theorem foldlM_wind (l : List ((ℚ × ℚ) × (ℚ × ℚ))) (w : ℤ) :
    (l.map (Prod.map vertex vertex)).foldlM (wind (.finite lat) (.finite lon)) w =
      if ∃ e ∈ l, OnEdge (1 / 10^12) (lat, lon) e.1 e.2 then none
      else some (w + (l.map fun e => crossing (lat, lon) e.1 e.2).sum) := by
  induction l generalizing w with
  | nil => simp
  | cons e l ih =>
    rw [List.map_cons, List.foldlM_cons, Prod.map_apply', wind_vertex]
    simp only [point_on_segment_vertex, List.mem_cons, exists_eq_or_imp]
    by_cases hon : OnEdge (1 / 10^12) (lat, lon) e.1 e.2
    · rw [if_pos hon, if_pos (.inl hon)]
      rfl
    · rw [if_neg hon]
      simp only [hon, false_or]
      rw [List.map_cons, List.sum_cons, ← add_assoc]
      exact ih _

/-- The sum of the sides in exact arithmetic. -/
theorem signed_area_twice_of_take {vertices : List (Double × Double)}
    (h : vertices.take ring.length = ring.map vertex) :
    signed_area_twice vertices ring.length = .finite (areaTwice ring) := by
  have hfold : ∀ (l : List ((ℚ × ℚ) × (ℚ × ℚ))) (x : ℚ),
      (l.map (Prod.map vertex vertex)).foldl (fun area side =>
        area + (side.1.2 * side.2.1 - side.2.2 * side.1.1)) (Double.finite x) =
        .finite (x + (l.map fun e => e.1.2 * e.2.1 - e.2.2 * e.1.1).sum) := by
    intro l
    induction l with
    | nil => intro x; simp
    | cons e l ih =>
      intro x
      have hterm : Double.finite x + ((vertex e.1).2 * (vertex e.2).1 - (vertex e.2).2 * (vertex e.1).1) =
          .finite (x + (e.1.2 * e.2.1 - e.2.2 * e.1.1)) := by
        unfold vertex
        simp only [Double.finite_mul, Double.finite_sub, Double.finite_add]
      rw [List.map_cons, List.foldl_cons, Prod.map_fst, Prod.map_snd, hterm, ih, List.map_cons,
        List.sum_cons, add_assoc]
  unfold signed_area_twice areaTwice
  rw [sides_of_take h, Double.zero_eq, hfold, zero_add]

/-- A list of vertices is decided by the ring that is left without its closing vertex. -/
theorem point_in_polygon_of_take {vertices : List (Double × Double)}
    (h : vertices.take ring.length = ring.map vertex)
    (hn : (if same_point (vertices.headD (0, 0)) (vertices.getLastD (0, 0)) then vertices.length - 1
      else vertices.length) = ring.length) :
    point_in_polygon (.finite lat) (.finite lon) vertices = true ↔
      Contains (1 / 10^12) (lat, lon) ring := by
  have hle : ring.length ≤ vertices.length := by
    rw [← hn]
    split <;> omega
  have hdegenerate : (Double.finite (areaTwice ring)).abs ≤ kEpsilon ↔ |areaTwice ring| ≤ 1 / 10^12 :=
    Double.finite_le_finite _ _
  unfold point_in_polygon Contains
  by_cases hshort : vertices.length < 3
  · rw [if_pos hshort]
    exact iff_of_false Bool.false_ne_true fun hin => by omega
  · rw [if_neg hshort]
    dsimp only
    rw [hn, signed_area_twice_of_take h, sides_of_take h, foldlM_wind]
    by_cases hfew : ring.length < 3
    · rw [if_pos hfew]
      exact iff_of_false Bool.false_ne_true fun hin => by omega
    · rw [if_neg hfew]
      by_cases harea : |areaTwice ring| ≤ 1 / 10^12
      · rw [if_pos (hdegenerate.mpr harea)]
        exact iff_of_false Bool.false_ne_true fun hin => absurd harea (not_le.mpr hin.2.1)
      · rw [if_neg (hdegenerate.not.mpr harea)]
        simp only [not_lt.mp hfew, not_le.mp harea, true_and]
        by_cases hon : ∃ e ∈ edges ring, OnEdge (1 / 10^12) (lat, lon) e.1 e.2
        · rw [if_pos hon]
          exact iff_of_true rfl (.inl hon)
        · rw [if_neg hon, or_iff_right hon, zero_add]
          exact decide_eq_true_iff

/-- The first and the last vertex are apart. -/
def Open (ring : List (ℚ × ℚ)) : Prop := ∀ first ∈ ring.head?, ∀ last ∈ ring.getLast?, Apart first last

/-- An open list of vertices is a ring. -/
theorem point_in_polygon_open (hopen : Open ring) :
    point_in_polygon (.finite lat) (.finite lon) (ring.map vertex) = true ↔
      Contains (1 / 10^12) (lat, lon) ring := by
  have htake : (ring.map vertex).take ring.length = ring.map vertex :=
    List.take_of_length_le (List.length_map _).le
  rcases List.eq_nil_or_concat' ring with rfl | ⟨l, last, rfl⟩
  · exact iff_of_false Bool.false_ne_true fun hin => absurd hin.1 (by decide)
  · refine point_in_polygon_of_take htake ?_
    obtain ⟨first, hfirst⟩ : ∃ first, (l ++ [last]).head? = some first :=
      ⟨_, List.head?_eq_some_head (by simp)⟩
    have hapart : Apart first last := hopen first hfirst last (by simp)
    have hhead : ((l ++ [last]).map vertex).headD (0, 0) = vertex first := by
      rw [List.headD_eq_head?_getD, List.head?_map, hfirst]
      rfl
    have hlast : ((l ++ [last]).map vertex).getLastD (0, 0) = vertex last := by
      rw [List.getLastD_eq_getLast?, List.getLast?_map, List.getLast?_concat]
      rfl
    rw [hhead, hlast, same_point_vertex.mpr hapart, if_neg Bool.false_ne_true, List.length_map]

/-- A list of vertices that ends with the first one is the same ring. -/
theorem point_in_polygon_closed {first : ℚ × ℚ} (hfirst : ring.head? = some first) :
    point_in_polygon (.finite lat) (.finite lon) ((ring ++ [first]).map vertex) = true ↔
      Contains (1 / 10^12) (lat, lon) ring := by
  obtain ⟨rest, rfl⟩ : ∃ rest, ring = first :: rest := by
    cases ring with
    | nil => cases hfirst
    | cons v rest => exact ⟨rest, by rw [Option.some.inj hfirst]⟩
  refine point_in_polygon_of_take ?_ ?_
  · rw [List.map_append]
    exact List.take_left' (List.length_map _)
  · have hlast : (((first :: rest) ++ [first]).map vertex).getLastD (0, 0) = vertex first := by
      rw [List.getLastD_eq_getLast?, List.getLast?_map, List.getLast?_concat]
      rfl
    have hhead : (((first :: rest) ++ [first]).map vertex).headD (0, 0) = vertex first := rfl
    rw [hhead, hlast, same_point_self, if_pos rfl]
    simp

/-- Cyclically consecutive vertices are apart. -/
def CyclicallyApart (ring : List (ℚ × ℚ)) : Prop := ∀ e ∈ edges ring, Apart e.1 e.2

instance (a b : ℚ × ℚ) : Decidable (Apart a b) := inferInstanceAs (Decidable (_ ∨ _))

/-- The order of two vertices does not matter. -/
theorem Apart.symm (h : Apart a b) : Apart b a := by
  unfold Apart at h ⊢
  rwa [abs_sub_comm b.1, abs_sub_comm b.2]

/-- The last vertex of a ring and the first one are consecutive. -/
theorem CyclicallyApart.open (h : CyclicallyApart ring) : Open ring := by
  intro first hfirst last hlast
  have hne : ring ≠ [] := by
    rintro rfl
    cases hfirst
  have hpos := List.length_pos_iff.mpr hne
  refine (h (last, first) (Geometry.mem_edges_iff.mpr ⟨ring.length - 1, by omega, Prod.ext ?_ ?_⟩)).symm
  · rw [Option.mem_def, List.getLast?_eq_some_getLast hne] at hlast
    rw [← Option.some.inj hlast, List.getLast_eq_getElem, List.get_eq_getElem]
  · rw [Option.mem_def, List.head?_eq_some_head hne] at hfirst
    have hmod : (ring.length - 1 + 1) % ring.length = 0 := by
      rw [Nat.sub_add_cancel hpos, Nat.mod_self]
    simp only [hmod, ← Option.some.inj hfirst, List.get_eq_getElem, List.head_eq_getElem]

/-- Another first vertex, or the other direction, leaves consecutive vertices consecutive. -/
theorem CyclicallyApart.presentation (h : CyclicallyApart ring) (n : ℕ) :
    CyclicallyApart (ring.rotate n) ∧ CyclicallyApart ring.reverse := by
  constructor
  · intro e he
    rw [Geometry.edges_rotate, List.mem_rotate] at he
    exact h e he
  · intro e he
    obtain ⟨e', he', rfl⟩ := List.mem_map.mp ((Geometry.edges_reverse_perm ring).mem_iff.mp he)
    exact (h e' he').symm

/-- Every presentation of a ring contains the same points: the ring or the ring turned around, from any
vertex on, as an open list of vertices or with its first vertex appended. -/
theorem point_in_polygon_presentation (lat lon : ℚ) (ring : List (ℚ × ℚ)) (hapart : CyclicallyApart ring)
    (n : ℕ) : ∀ presentation ∈ [ring.rotate n, ring.reverse.rotate n],
      point_in_polygon (.finite lat) (.finite lon) (presentation.map vertex) =
          point_in_polygon (.finite lat) (.finite lon) (ring.map vertex) ∧
        ∀ first ∈ presentation.head?,
          point_in_polygon (.finite lat) (.finite lon) ((presentation ++ [first]).map vertex) =
            point_in_polygon (.finite lat) (.finite lon) (ring.map vertex) := by
  intro presentation hpresentation
  have hring : point_in_polygon (.finite lat) (.finite lon) (ring.map vertex) = true ↔
      Contains (1 / 10^12) (lat, lon) ring := point_in_polygon_open hapart.open
  -- The vertices stay apart and the ring contains the same points.
  obtain ⟨hopen, hcontains⟩ : Open presentation ∧
      (Contains (1 / 10^12) (lat, lon) presentation ↔ Contains (1 / 10^12) (lat, lon) ring) := by
    rcases List.mem_pair.mp hpresentation with rfl | rfl
    · exact ⟨(hapart.presentation n).1.open, Geometry.contains_rotate_iff n⟩
    · exact ⟨((hapart.presentation n).2.presentation n).1.open,
        (Geometry.contains_rotate_iff n).trans Geometry.contains_reverse_iff⟩
  refine ⟨Bool.eq_iff_iff.mpr ?_, fun first hfirst => Bool.eq_iff_iff.mpr ?_⟩
  · rw [point_in_polygon_open hopen, hcontains, hring]
  · rw [point_in_polygon_closed hfirst, hcontains, hring]

/-- A square from its second corner, turned around and closed, with a point in it and one beside it. -/
theorem point_in_polygon_presentation_square :
    let square : List (ℚ × ℚ) := [(0, 0), (0, 10), (10, 10), (10, 0)]
    (∀ presentation ∈ [square.rotate 1, square.reverse.rotate 1],
      point_in_polygon (.finite 5) (.finite 5) (presentation.map vertex) =
          point_in_polygon (.finite 5) (.finite 5) (square.map vertex) ∧
        ∀ first ∈ presentation.head?,
          point_in_polygon (.finite 5) (.finite 5) ((presentation ++ [first]).map vertex) =
            point_in_polygon (.finite 5) (.finite 5) (square.map vertex)) ∧
      point_in_polygon (.finite 5) (.finite 5) (square.map vertex) = true :=
  ⟨point_in_polygon_presentation 5 5 _ (by unfold CyclicallyApart; decide +kernel) 1, by decide +kernel⟩

/-- On a strictly convex polygon of either direction: a point that passes the half-plane tests of all
edges is inside, and a point that is inside and on no edge passes them strictly. -/
theorem point_in_polygon_convex {clockwise : Bool} {ring : List (ℚ × ℚ)}
    (hconvex : StrictlyConvex clockwise ring) (hopen : Open ring) (harea : 1 / 10^12 < |areaTwice ring|)
    (lat lon : ℚ) :
    ((∀ e ∈ edges ring, 0 ≤ side clockwise (lat, lon) e) →
      point_in_polygon (.finite lat) (.finite lon) (ring.map vertex) = true) ∧
    (point_in_polygon (.finite lat) (.finite lon) (ring.map vertex) = true →
      (∀ e ∈ edges ring,
        point_on_segment (.finite lat) (.finite lon) (vertex e.1) (vertex e.2) = false) →
      ∀ e ∈ edges ring, 0 < side clockwise (lat, lon) e) := by
  rw [point_in_polygon_open hopen]
  refine ⟨hconvex.contains_of_side (by norm_num) harea, fun hin hoff => ?_⟩
  refine hconvex.side_of_contains (by norm_num) hin fun e he hon => ?_
  exact Bool.false_ne_true ((hoff e he).symm.trans (point_on_segment_vertex.mpr hon))

/-- A clockwise triangle, with a point in it and one beside it. -/
theorem point_in_polygon_convex_triangle :
    let triangle : List (ℚ × ℚ) := [(0, 0), (4, 0), (0, 4)]
    (((∀ e ∈ edges triangle, 0 ≤ side true (1, 1) e) →
      point_in_polygon (.finite 1) (.finite 1) (triangle.map vertex) = true) ∧
    (point_in_polygon (.finite 1) (.finite 1) (triangle.map vertex) = true →
      (∀ e ∈ edges triangle,
        point_on_segment (.finite 1) (.finite 1) (vertex e.1) (vertex e.2) = false) →
      ∀ e ∈ edges triangle, 0 < side true (1, 1) e)) ∧
      (∀ e ∈ edges triangle, 0 ≤ side true (1, 1) e) ∧ ¬∀ e ∈ edges triangle, 0 ≤ side true (3, 3) e :=
  ⟨point_in_polygon_convex ⟨by decide, by decide, by decide +kernel⟩
    (by unfold Open; decide +kernel) (by decide +kernel) 1 1, by decide +kernel, by decide +kernel⟩

end SignalRoute.geo
