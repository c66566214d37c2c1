import SignalRoute.Geometry.Rings
import Mathlib.Data.Finset.Max
import Mathlib.Algebra.Order.BigOperators.Group.List

/-!
# Convex polygons

A ring is strictly convex if every vertex is on the inner side of every edge that it is not an end
of. Three vertices in a row then span a cone that the polygon lies in (`cone`), which is what keeps a
point on the inner side of all edges between the ends of an edge whose line it is on
(`onEdge_of_side`), and below the highest vertex (`exists_higher`).
-/

namespace Geometry

variable {K : Type*} [CommRing K] {p : K × K} {ring : List (K × K)}

/-- How far a point is on the inner side of an edge, on a ring of the given direction. -/
def side (clockwise : Bool) (p : K × K) (e : (K × K) × (K × K)) : K :=
  if clockwise then cross p e.2 e.1 else cross p e.1 e.2

/-- The inner sides of the edges of a ring that is turned around. -/
theorem forall_side_reverse_iff {P : K → Prop} :
    (∀ e ∈ edges ring.reverse, P (side false p e)) ↔ ∀ e ∈ edges ring, P (side true p e) := by
  constructor
  · intro h e he
    exact h e.swap ((edges_reverse_perm ring).mem_iff.mpr (List.mem_map_of_mem he))
  · intro h e he
    obtain ⟨e', he', rfl⟩ := List.mem_map.mp ((edges_reverse_perm ring).mem_iff.mp he)
    exact h e' he'

/-- A point in the cone of two edges that meet in `v`: twice the area of their triangle times what the
point is off `v` is a combination of the two edges. -/
theorem cone (p u v w : K × K) :
    cross w u v * (p.1 - v.1) = cross p v w * (u.1 - v.1) + cross p u v * (w.1 - v.1) ∧
      cross w u v * (p.2 - v.2) = cross p v w * (u.2 - v.2) + cross p u v * (w.2 - v.2) := by
  unfold cross
  constructor <;> ring

variable [LinearOrder K]

/-- A strictly convex polygon: its vertices are at least three and all different, and each is on the
inner side of the edges that it is not an end of. -/
structure StrictlyConvex (clockwise : Bool) (ring : List (K × K)) : Prop where
  nodup : ring.Nodup
  three_le : 3 ≤ ring.length
  inner : ∀ e ∈ edges ring, ∀ v ∈ ring, v ≠ e.1 → v ≠ e.2 → 0 < side clockwise v e

/-- A clockwise polygon that is turned around. -/
theorem StrictlyConvex.reverse (h : StrictlyConvex true ring) : StrictlyConvex false ring.reverse where
  nodup := List.nodup_reverse.mpr h.nodup
  three_le := by
    rw [List.length_reverse]
    exact h.three_le
  inner e he v hv hfst hsnd := by
    obtain ⟨e', he', rfl⟩ := List.mem_map.mp ((edges_reverse_perm ring).mem_iff.mp he)
    exact h.inner e' he' v (List.mem_reverse.mp hv) hsnd hfst

/-- Three vertices in a row turn to the left. -/
theorem StrictlyConvex.cross_pos (h : StrictlyConvex false ring) {u v w : K × K}
    (huv : (u, v) ∈ edges ring) (hvw : (v, w) ∈ edges ring) : 0 < cross w u v := by
  obtain ⟨-, hwu, hwv⟩ := ne_of_consecutive h.nodup h.three_le huv hvw
  exact h.inner (u, v) huv w (mem_of_mem_edges hvw).2 hwu hwv

variable [IsStrictOrderedRing K] {ε : K}

/-- A coordinate that is not beyond either end. -/
theorem between_of_cone {d d' s s' x y z : K} (hd : 0 < d) (hd' : 0 < d') (hs : 0 ≤ s) (hs' : 0 ≤ s')
    (hz : d * (x - z) = s * (y - z)) (hy : d' * (x - y) = s' * (z - y)) :
    min y z ≤ x ∧ x ≤ max y z := by
  rcases le_total y z with h | h
  · have hxz : d * (x - z) ≤ 0 := hz ▸ mul_nonpos_of_nonneg_of_nonpos hs (sub_nonpos.mpr h)
    have hxy : 0 ≤ d' * (x - y) := hy ▸ mul_nonneg hs' (sub_nonneg.mpr h)
    rw [min_eq_left h, max_eq_right h]
    exact ⟨sub_nonneg.mp (nonneg_of_mul_nonneg_right hxy hd'),
      sub_nonpos.mp (nonpos_of_mul_nonpos_right hxz hd)⟩
  · have hxz : 0 ≤ d * (x - z) := hz ▸ mul_nonneg hs (sub_nonneg.mpr h)
    have hxy : d' * (x - y) ≤ 0 := hy ▸ mul_nonpos_of_nonneg_of_nonpos hs' (sub_nonpos.mpr h)
    rw [min_eq_right h, max_eq_left h]
    exact ⟨sub_nonneg.mp (nonneg_of_mul_nonneg_right hxz hd),
      sub_nonpos.mp (nonpos_of_mul_nonpos_right hxy hd')⟩

section Counterclockwise

variable (h : StrictlyConvex false ring)

include h

/-- Among the points on the inner side of all edges, those on the line of an edge are on the edge. -/
theorem onEdge_of_side (hside : ∀ e ∈ edges ring, 0 ≤ cross p e.1 e.2) (hε : 0 ≤ ε)
    {e : (K × K) × (K × K)} (he : e ∈ edges ring) (hline : cross p e.1 e.2 = 0) : OnEdge ε p e.1 e.2 := by
  obtain ⟨u, v⟩ := e
  dsimp only at hline ⊢
  obtain ⟨⟨w, hvw⟩, -⟩ := exists_edges_of_mem (mem_of_mem_edges he).2
  obtain ⟨-, ⟨t, htu⟩⟩ := exists_edges_of_mem (mem_of_mem_edges he).1
  have hnext := h.cross_pos he hvw
  have hprev := h.cross_pos htu he
  obtain ⟨hheight, habscissa⟩ := cone p u v w
  obtain ⟨hheight', habscissa'⟩ := cone p t u v
  rw [hline, zero_mul, add_zero] at hheight habscissa
  rw [hline, zero_mul, zero_add] at hheight' habscissa'
  have h1 := between_of_cone hnext hprev (hside _ hvw) (hside _ htu) hheight hheight'
  have h2 := between_of_cone hnext hprev (hside _ hvw) (hside _ htu) habscissa habscissa'
  refine ⟨by rwa [hline, abs_zero], ⟨?_, ?_⟩, ?_, ?_⟩
  · exact (sub_le_self _ hε).trans h1.1
  · exact h1.2.trans (le_add_of_nonneg_right hε)
  · exact (sub_le_self _ hε).trans h2.1
  · exact h2.2.trans (le_add_of_nonneg_right hε)

/-- Some vertex is higher than a point strictly inside. -/
theorem exists_higher (hside : ∀ e ∈ edges ring, 0 < cross p e.1 e.2) : ∃ v ∈ ring, p.1 < v.1 := by
  have hpos : ring.toFinset.Nonempty := by
    rw [List.toFinset_nonempty_iff]
    exact List.ne_nil_of_length_pos (by have := h.three_le; omega)
  obtain ⟨v, hv, hmax⟩ := ring.toFinset.exists_max_image Prod.fst hpos
  simp only [List.mem_toFinset] at hv hmax
  refine ⟨v, hv, ?_⟩
  obtain ⟨⟨w, hvw⟩, ⟨u, huv⟩⟩ := exists_edges_of_mem hv
  have harea := h.cross_pos huv hvw
  have hu := hmax u (mem_of_mem_edges huv).1
  have hw := hmax w (mem_of_mem_edges hvw).2
  -- The cone of the highest vertex opens downwards.
  by_contra hno
  have hcone := (cone p u v w).1
  have hleft : 0 ≤ cross w u v * (p.1 - v.1) := mul_nonneg harea.le (sub_nonneg.mpr (not_lt.mp hno))
  have hu0 : cross p v w * (u.1 - v.1) ≤ 0 :=
    mul_nonpos_of_nonneg_of_nonpos (hside _ hvw).le (sub_nonpos.mpr hu)
  have hw0 : cross p u v * (w.1 - v.1) ≤ 0 :=
    mul_nonpos_of_nonneg_of_nonpos (hside _ huv).le (sub_nonpos.mpr hw)
  have hueq : u.1 - v.1 = 0 :=
    (mul_eq_zero.mp (by linarith : cross p v w * (u.1 - v.1) = 0)).resolve_left (hside _ hvw).ne'
  have hweq : w.1 - v.1 = 0 :=
    (mul_eq_zero.mp (by linarith : cross p u v * (w.1 - v.1) = 0)).resolve_left (hside _ huv).ne'
  have hflat : cross w u v = (v.2 - u.2) * ((w.1 - v.1) - (u.1 - v.1)) + (w.2 - u.2) * (u.1 - v.1) := by
    unfold cross
    ring
  rw [hflat, hueq, hweq, sub_zero, mul_zero, mul_zero, add_zero] at harea
  exact harea.ne' rfl

/-- Some vertex is no higher than a point strictly inside. -/
theorem exists_not_higher (hside : ∀ e ∈ edges ring, 0 < cross p e.1 e.2) : ∃ v ∈ ring, ¬p.1 < v.1 := by
  have hpos : ring.toFinset.Nonempty := by
    rw [List.toFinset_nonempty_iff]
    exact List.ne_nil_of_length_pos (by have := h.three_le; omega)
  obtain ⟨v, hv, hmin⟩ := ring.toFinset.exists_min_image Prod.fst hpos
  simp only [List.mem_toFinset] at hv hmin
  refine ⟨v, hv, ?_⟩
  obtain ⟨⟨w, hvw⟩, ⟨u, huv⟩⟩ := exists_edges_of_mem hv
  have hu := hmin u (mem_of_mem_edges huv).1
  have hw := hmin w (mem_of_mem_edges hvw).2
  have hcone := (cone p u v w).1
  have hnonneg : 0 ≤ cross w u v * (p.1 - v.1) := by
    rw [hcone]
    exact add_nonneg (mul_nonneg (hside _ hvw).le (sub_nonneg.mpr hu))
      (mul_nonneg (hside _ huv).le (sub_nonneg.mpr hw))
  exact not_lt.mpr
    (sub_nonneg.mp (nonneg_of_mul_nonneg_right hnonneg (h.cross_pos huv hvw)))

/-- The ring winds around the points strictly inside. -/
theorem winding_pos (hside : ∀ e ∈ edges ring, 0 < cross p e.1 e.2) : 0 < winding p ring := by
  obtain ⟨v, hv, hlow⟩ := exists_not_higher h hside
  obtain ⟨w, hw, hhigh⟩ := exists_higher h hside
  -- An edge goes up past the point, and no edge counts downwards.
  obtain ⟨e, he, hfst, hsnd⟩ := exists_edge_of_not_all (P := fun v => p.1 < v.1) hv hw hlow hhigh
  have hone : crossing p e.1 e.2 = 1 := by
    unfold crossing
    rw [if_pos (not_lt.mp hfst), if_pos ⟨hsnd, hside e he⟩]
  have hnonneg : ∀ c ∈ (edges ring).map (fun e => crossing p e.1 e.2), 0 ≤ c := by
    intro c hc
    obtain ⟨e', he', rfl⟩ := List.mem_map.mp hc
    unfold crossing
    have hside' := hside e' he'
    split
    · split <;> omega
    · rw [if_neg fun hdown => lt_asymm hdown.2 hside']
  have hle := List.single_le_sum hnonneg _ (List.mem_map_of_mem he)
  unfold winding
  omega

/-- The points that the ring winds around are on the inner side of all edges. -/
theorem side_nonneg_of_winding (hwinding : winding p ring ≠ 0) {e : (K × K) × (K × K)}
    (he : e ∈ edges ring) : 0 ≤ cross p e.1 e.2 := by
  by_contra hout
  refine hwinding (winding_eq_zero_of_separated (α := -(e.2.1 - e.1.1)) (β := e.2.2 - e.1.2) ?_)
  -- The line of the edge separates the point from all vertices.
  intro v hv
  have hvertex : 0 ≤ cross v e.1 e.2 := by
    by_cases hfst : v = e.1
    · subst hfst
      unfold cross
      exact (by ring : (e.2.2 - e.1.2) * (e.1.1 - e.1.1) - (e.1.2 - e.1.2) * (e.2.1 - e.1.1) = 0).ge
    · by_cases hsnd : v = e.2
      · subst hsnd
        unfold cross
        exact (by ring : (e.2.2 - e.1.2) * (e.2.1 - e.1.1) - (e.2.2 - e.1.2) * (e.2.1 - e.1.1) = 0).ge
      · exact (h.inner e he v hv hfst hsnd).le
  have hoff : -(e.2.1 - e.1.1) * (v.2 - p.2) + (e.2.2 - e.1.2) * (v.1 - p.1) =
      cross v e.1 e.2 - cross p e.1 e.2 := by
    unfold cross
    ring
  rw [hoff]
  linarith

end Counterclockwise

/-- A convex ring contains the points on the inner side of all its edges. -/
theorem StrictlyConvex.contains_of_side {clockwise : Bool} (h : StrictlyConvex clockwise ring)
    (hε : 0 ≤ ε) (harea : ε < |areaTwice ring|) (hside : ∀ e ∈ edges ring, 0 ≤ side clockwise p e) :
    Contains ε p ring := by
  have hleft : ∀ {ring : List (K × K)}, StrictlyConvex false ring → ε < |areaTwice ring| →
      (∀ e ∈ edges ring, 0 ≤ side false p e) → Contains ε p ring := by
    intro ring h harea hside
    refine ⟨h.three_le, harea, ?_⟩
    by_cases hline : ∃ e ∈ edges ring, cross p e.1 e.2 = 0
    · obtain ⟨e, he, hzero⟩ := hline
      exact .inl ⟨e, he, onEdge_of_side h hside hε he hzero⟩
    · have hstrict : ∀ e ∈ edges ring, 0 < cross p e.1 e.2 := fun e he =>
        lt_of_le_of_ne (hside e he) fun hzero => hline ⟨e, he, hzero.symm⟩
      exact .inr (winding_pos h hstrict).ne'
  cases clockwise with
  | false => exact hleft h harea hside
  | true =>
    rw [← contains_reverse_iff]
    exact hleft h.reverse (by rwa [areaTwice_reverse, abs_neg])
      ((forall_side_reverse_iff (P := fun s => 0 ≤ s)).mpr hside)

/-- What a convex ring contains off its boundary is strictly on the inner side of all edges. -/
theorem StrictlyConvex.side_of_contains {clockwise : Bool} (h : StrictlyConvex clockwise ring)
    (hε : 0 ≤ ε) (hin : Contains ε p ring) (hoff : ∀ e ∈ edges ring, ¬OnEdge ε p e.1 e.2) :
    ∀ e ∈ edges ring, 0 < side clockwise p e := by
  have hleft : ∀ {ring : List (K × K)}, StrictlyConvex false ring → winding p ring ≠ 0 →
      (¬∃ e ∈ edges ring, OnEdge ε p e.1 e.2) → ∀ e ∈ edges ring, 0 < side false p e := by
    intro ring h hwinding hoff e he
    have hside := fun e he => side_nonneg_of_winding h hwinding (e := e) he
    refine lt_of_le_of_ne (hside e he) fun hzero => hoff ⟨e, he, ?_⟩
    exact onEdge_of_side h hside hε he hzero.symm
  have hboundary : ¬∃ e ∈ edges ring, OnEdge ε p e.1 e.2 := fun ⟨e, he, hon⟩ => hoff e he hon
  have hwinding := hin.2.2.resolve_left hboundary
  cases clockwise with
  | false => exact hleft h hwinding hboundary
  | true =>
    refine (forall_side_reverse_iff (P := fun s => 0 < s)).mp (hleft h.reverse ?_ ?_)
    · rwa [winding_reverse, neg_ne_zero]
    · rwa [exists_onEdge_reverse_iff]

end Geometry
