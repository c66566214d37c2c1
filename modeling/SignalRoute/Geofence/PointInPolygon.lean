import SignalRoute.Numeric.Double
import Mathlib.Data.List.GetD
import Mathlib.Tactic.Linarith

/-!
# Point in polygon

`src/geofence/point_in_polygon.cpp`: the winding number of a polygon around a point, where a point
on the boundary counts as inside. A vertex is a pair of a latitude and a longitude.
-/

namespace SignalRoute.geo

open Numeric (Double)

/-- `kEpsilon`. -/
def kEpsilon : Double := .finite (1 / 10^12)

/-- `same_point`. -/
def same_point (a b : Double × Double) : Bool :=
  (a.1 - b.1).abs ≤ kEpsilon && (a.2 - b.2).abs ≤ kEpsilon

/-- `cross_product`. -/
def cross_product (lat lon : Double) (a b : Double × Double) : Double :=
  (b.2 - a.2) * (lat - a.1) - (lon - a.2) * (b.1 - a.1)

/-- `point_on_segment`. -/
def point_on_segment (lat lon : Double) (a b : Double × Double) : Bool :=
  if kEpsilon < (cross_product lat lon a b).abs then false
  else
    let min_lat := a.1.min b.1 - kEpsilon
    let max_lat := a.1.max b.1 + kEpsilon
    let min_lon := a.2.min b.2 - kEpsilon
    let max_lon := a.2.max b.2 + kEpsilon
    min_lat ≤ lat && lat ≤ max_lat && min_lon ≤ lon && lon ≤ max_lon

/-- The sides of the polygon on the first `n` vertices, in order. -/
def sides (vertices : List (Double × Double)) (n : ℕ) :
    List ((Double × Double) × (Double × Double)) :=
  (List.range n).map fun i => (vertices.getD i (0, 0), vertices.getD ((i + 1) % n) (0, 0))

/-- `signed_area_twice`. -/
def signed_area_twice (vertices : List (Double × Double)) (n : ℕ) : Double :=
  (sides vertices n).foldl (fun area side =>
    area + (side.1.2 * side.2.1 - side.2.2 * side.1.1)) 0

/-- The winding number that a side adds to `winding`; nothing where the point is on the side. -/
def wind (lat lon : Double) (winding : ℤ) (side : (Double × Double) × (Double × Double)) :
    Option ℤ :=
  let (a, b) := side
  if point_on_segment lat lon a b then none
  else if a.1 ≤ lat then
    if lat < b.1 then
      if 0 < cross_product lat lon a b then some (winding + 1) else some winding
    else some winding
  else if b.1 ≤ lat then
    if cross_product lat lon a b < 0 then some (winding - 1) else some winding
  else some winding

/-- `point_in_polygon`. -/
def point_in_polygon (lat lon : Double) (vertices : List (Double × Double)) : Bool :=
  if vertices.length < 3 then false
  else
    let n :=
      if same_point (vertices.headD (0, 0)) (vertices.getLastD (0, 0)) then vertices.length - 1
      else vertices.length
    if n < 3 then false
    else if (signed_area_twice vertices n).abs ≤ kEpsilon then false
    else
      match (sides vertices n).foldlM (wind lat lon) 0 with
      | none => true
      | some winding => winding ≠ 0

/-- A vertex with finite coordinates, each at most as large as a bound. -/
def Within (north east : ℚ) (v : Double × Double) : Prop :=
  ∃ y x : ℚ, v = (.finite y, .finite x) ∧ y ≤ north ∧ x ≤ east

section Beyond

variable {north east lat lon : ℚ} {a b : Double × Double}

/-- A point that is further north or east than a side, by more than `kEpsilon`, is not on it. -/
theorem point_on_segment_of_beyond (h : north + 1 / 10^12 < lat ∨ east + 1 / 10^12 < lon)
    (ha : Within north east a) (hb : Within north east b) :
    point_on_segment (.finite lat) (.finite lon) a b = false := by
  obtain ⟨y, x, rfl, hy, hx⟩ := ha
  obtain ⟨y', x', rfl, hy', hx'⟩ := hb
  unfold point_on_segment kEpsilon
  split
  · rfl
  · simp only [Double.finite_max, Double.finite_add, Double.finite_le_finite, Bool.and_eq_false_iff,
      decide_eq_false_iff_not, not_le]
    rcases h with h | h
    · have := max_le hy hy'
      exact .inl (.inl (.inr (by linarith)))
    · have := max_le hx hx'
      exact .inr (by linarith)

/-- Such a point is not wound around by the side. -/
theorem wind_of_beyond (h : north + 1 / 10^12 < lat ∨ east + 1 / 10^12 < lon)
    (ha : Within north east a) (hb : Within north east b) (winding : ℤ) :
    wind (.finite lat) (.finite lon) winding (a, b) = some winding := by
  have hsegment := point_on_segment_of_beyond h ha hb
  obtain ⟨y, x, rfl, hy, hx⟩ := ha
  obtain ⟨y', x', rfl, hy', hx'⟩ := hb
  unfold wind cross_product
  dsimp only
  rw [hsegment, if_neg Bool.false_ne_true]
  simp only [Double.zero_eq, Double.finite_sub, Double.finite_mul, Double.finite_lt_finite,
    Double.finite_le_finite]
  rcases h with h | h
  · -- North of both ends the side does not pass the point's latitude.
    rw [if_pos (by linarith), if_neg (by linarith)]
  · -- East of both ends the side passes it on the left.
    have hup : y ≤ lat → lat < y' → ¬ 0 < (x' - x) * (lat - y) - (lon - x) * (y' - y) := by
      intro h1 h2
      nlinarith
    have hdown : lat < y → y' ≤ lat → ¬ (x' - x) * (lat - y) - (lon - x) * (y' - y) < 0 := by
      intro h1 h2
      nlinarith
    split
    · split
      · rw [if_neg (hup ‹_› ‹_›)]
      · rfl
    · split
      · rw [if_neg (hdown (not_le.mp ‹_›) ‹_›)]
      · rfl

/-- A point that is further north or east than all vertices, by more than `kEpsilon`, is not inside the
polygon. -/
theorem point_in_polygon_of_beyond {vertices : List (Double × Double)}
    (hvertices : ∀ v ∈ vertices, Within north east v)
    (h : north + 1 / 10^12 < lat ∨ east + 1 / 10^12 < lon) :
    point_in_polygon (.finite lat) (.finite lon) vertices = false := by
  -- A side joins two vertices, the last one and the first among them.
  have hsides : ∀ n, 0 < n → n ≤ vertices.length → ∀ side ∈ sides vertices n,
      Within north east side.1 ∧ Within north east side.2 := by
    intro n hn hlen side hside
    obtain ⟨i, hi, rfl⟩ := List.mem_map.mp hside
    rw [List.mem_range] at hi
    have hmod := Nat.mod_lt (i + 1) hn
    rw [List.getD_eq_getElem _ _ (by omega), List.getD_eq_getElem _ _ (by omega)]
    exact ⟨hvertices _ (List.getElem_mem _), hvertices _ (List.getElem_mem _)⟩
  -- No side changes the winding number, so it stays zero.
  have hwind : ∀ l : List ((Double × Double) × (Double × Double)),
      (∀ side ∈ l, Within north east side.1 ∧ Within north east side.2) →
        l.foldlM (wind (.finite lat) (.finite lon)) 0 = some 0 := by
    intro l hl
    induction l with
    | nil => rfl
    | cons side l ih =>
      obtain ⟨ha, hb⟩ := hl side List.mem_cons_self
      rw [List.foldlM_cons, wind_of_beyond h ha hb]
      exact ih fun side hside => hl side (List.mem_cons_of_mem _ hside)
  unfold point_in_polygon
  split
  · rfl
  dsimp only
  generalize hn : (if same_point _ _ = true then vertices.length - 1 else vertices.length) = n
  have hlen : n ≤ vertices.length := by
    rw [← hn]
    split <;> omega
  -- Too few vertices, and a polygon without an area, are never inside.
  split
  · rfl
  · split
    · rfl
    · rw [hwind _ (hsides n (by omega) hlen)]
      rfl

/-- A point inside the polygon is no further north or east than its vertices, up to `kEpsilon`. -/
theorem le_of_point_in_polygon {vertices : List (Double × Double)}
    (hvertices : ∀ v ∈ vertices, Within north east v)
    (hin : point_in_polygon (.finite lat) (.finite lon) vertices = true) :
    lat ≤ north + 1 / 10^12 ∧ lon ≤ east + 1 / 10^12 := by
  by_contra hno
  rw [not_and_or, not_le, not_le] at hno
  rw [point_in_polygon_of_beyond hvertices hno] at hin
  cases hin

end Beyond

/-- A point in the middle of a square is inside, one beside it is not, and a corner is inside. -/
example :
    let square : List (Double × Double) := [(0, 0), (0, .finite 10), (.finite 10, .finite 10),
      (.finite 10, 0)]
    point_in_polygon (.finite 5) (.finite 5) square = true ∧
      point_in_polygon (.finite 20) (.finite 20) square = false ∧
      point_in_polygon 0 (.finite 10) square = true := by
  decide +kernel

end SignalRoute.geo
