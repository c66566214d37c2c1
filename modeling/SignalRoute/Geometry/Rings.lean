import Mathlib.Algebra.BigOperators.Group.List.Basic
import Mathlib.Algebra.Order.Field.Basic
import Mathlib.Algebra.Order.Ring.Abs
import Mathlib.Data.List.Rotate
import Mathlib.Data.List.Zip
import Mathlib.Tactic.Linarith
import Mathlib.Tactic.Ring

/-!
# Closed polygons in the plane

A ring is the list of the vertices of a closed polygon; its edges go from each vertex to the next
one, and from the last to the first. A point is a pair of its height and its abscissa. The winding
number counts the edges that cross the ray from the point to the right, upwards ones as `1` and
downwards ones as `-1`, where an edge has its lower end and not its upper one.

Area, winding number and boundary are about the edges in any order, so they do not depend on the
vertex that a ring starts with (`contains_rotate_iff`), and turning a ring around changes signs only
(`contains_reverse_iff`). The winding number is zero around a point that a line separates from all
vertices (`winding_eq_zero_of_separated`): in a half-plane that the point is not in, what an edge
counts is a difference between its ends. A convex ring therefore contains the points on the inner
side of all its edges, and winds around no others (`StrictlyConvex.contains_of_side`,
`StrictlyConvex.side_of_contains`).
-/

namespace Geometry

section Edges

variable {α : Type*}

/-- The edges of a closed ring. -/
def edges (ring : List α) : List (α × α) := ring.zip (ring.rotate 1)

/-- The edges of a ring that starts with another vertex. -/
theorem edges_rotate (ring : List α) (n : ℕ) : edges (ring.rotate n) = (edges ring).rotate n := by
  unfold edges
  rw [List.rotate_rotate, add_comm n 1, ← List.rotate_rotate]
  exact (List.zipWith_rotate_distrib Prod.mk _ _ n (List.length_rotate _ _).symm).symm

/-- The edges of a ring that is turned around. -/
theorem edges_reverse_perm (ring : List α) :
    (edges ring.reverse).Perm ((edges ring).map Prod.swap) := by
  have hlen : (ring.rotate 1).length = ring.length := List.length_rotate _ _
  -- Turned around, the ring ends where it began, which is one vertex further.
  have hback : ((ring.rotate 1).reverse).rotate 1 = ring.reverse := by
    rw [List.reverse_rotate, List.rotate_rotate]
    rcases Nat.lt_or_ge 1 ring.length with h | h
    · rw [Nat.mod_eq_of_lt h, Nat.sub_add_cancel h.le, ← List.length_reverse, List.rotate_length]
    · match ring, h with
      | [], _ => rfl
      | [_], _ => simp
  have hedges : edges (ring.rotate 1).reverse = ((ring.rotate 1).zip ring).reverse := by
    unfold edges
    rw [hback]
    exact (List.reverse_zipWith hlen).symm
  have hturned : (edges ring.reverse).Perm (edges (ring.rotate 1).reverse) := by
    have hrotate : edges ring.reverse = (edges (ring.rotate 1).reverse).rotate 1 := by
      rw [← edges_rotate, hback]
    rw [hrotate]
    exact List.rotate_perm _ _
  refine hturned.trans ?_
  rw [hedges]
  unfold edges
  rw [List.zip_swap]
  exact List.reverse_perm _

/-- An edge joins a vertex and the next one. -/
theorem mem_edges_iff {ring : List α} {e : α × α} :
    e ∈ edges ring ↔ ∃ (i : ℕ) (hi : i < ring.length),
      e = (ring.get ⟨i, hi⟩, ring.get ⟨(i + 1) % ring.length, Nat.mod_lt _ (by omega)⟩) := by
  unfold edges
  rw [List.mem_iff_getElem]
  simp only [List.length_zip, List.length_rotate, min_self, List.getElem_zip, List.getElem_rotate,
    List.get_eq_getElem]
  constructor
  · rintro ⟨i, hi, rfl⟩
    exact ⟨i, hi, rfl⟩
  · rintro ⟨i, hi, rfl⟩
    exact ⟨i, hi, rfl⟩

/-- Both ends of an edge are vertices. -/
theorem mem_of_mem_edges {ring : List α} {e : α × α} (he : e ∈ edges ring) :
    e.1 ∈ ring ∧ e.2 ∈ ring := by
  obtain ⟨i, hi, rfl⟩ := mem_edges_iff.mp he
  exact ⟨List.get_mem _ _, List.get_mem _ _⟩

/-- Each vertex has an edge that leaves it and one that arrives. -/
theorem exists_edges_of_mem {ring : List α} {v : α} (hv : v ∈ ring) :
    (∃ w, (v, w) ∈ edges ring) ∧ ∃ u, (u, v) ∈ edges ring := by
  obtain ⟨⟨i, hi⟩, rfl⟩ := List.mem_iff_get.mp hv
  refine ⟨⟨_, mem_edges_iff.mpr ⟨i, hi, rfl⟩⟩, ?_⟩
  have hprev : (i + ring.length - 1) % ring.length < ring.length := Nat.mod_lt _ (by omega)
  refine ⟨_, mem_edges_iff.mpr ⟨_, hprev, Prod.ext rfl ?_⟩⟩
  have hnext : ((i + ring.length - 1) % ring.length + 1) % ring.length = i := by
    rw [Nat.mod_add_mod, show i + ring.length - 1 + 1 = i + ring.length by omega, Nat.add_mod_right,
      Nat.mod_eq_of_lt hi]
  simp only [hnext]

/-- Three vertices in a row are different where all are, unless the ring is shorter. -/
theorem ne_of_consecutive {ring : List α} (hnodup : ring.Nodup) (hlen : 3 ≤ ring.length) {u v w : α}
    (huv : (u, v) ∈ edges ring) (hvw : (v, w) ∈ edges ring) : u ≠ v ∧ w ≠ u ∧ w ≠ v := by
  obtain ⟨i, hi, huv⟩ := mem_edges_iff.mp huv
  obtain ⟨j, hj, hvw⟩ := mem_edges_iff.mp hvw
  obtain ⟨rfl, rfl⟩ := Prod.ext_iff.mp huv
  obtain ⟨hv, rfl⟩ := Prod.ext_iff.mp hvw
  have hij : (i + 1) % ring.length = j := congrArg Fin.val (List.nodup_iff_injective_get.mp hnodup hv)
  have hne : ∀ {k l : Fin ring.length}, k.val ≠ l.val → ring.get k ≠ ring.get l := fun hkl heq =>
    hkl (congrArg Fin.val (List.nodup_iff_injective_get.mp hnodup heq))
  -- The three positions are `i`, `i + 1` and `i + 2` in a circle of at least three.
  have hcases : ((i + 1) % ring.length = i + 1 ∧ i + 1 < ring.length) ∨
      ((i + 1) % ring.length = 0 ∧ i + 1 = ring.length) := by
    rcases Nat.lt_or_ge (i + 1) ring.length with h | h
    · exact .inl ⟨Nat.mod_eq_of_lt h, h⟩
    · have heq : i + 1 = ring.length := by omega
      exact .inr ⟨by rw [heq, Nat.mod_self], heq⟩
  have hnext : ((j + 1) % ring.length = j + 1 ∧ j + 1 < ring.length) ∨
      ((j + 1) % ring.length = 0 ∧ j + 1 = ring.length) := by
    rcases Nat.lt_or_ge (j + 1) ring.length with h | h
    · exact .inl ⟨Nat.mod_eq_of_lt h, h⟩
    · have heq : j + 1 = ring.length := by omega
      exact .inr ⟨by rw [heq, Nat.mod_self], heq⟩
  exact ⟨hne (by dsimp only; omega), hne (by dsimp only; omega), hne (by dsimp only; omega)⟩

/-- Differences along the edges of a ring cancel. -/
theorem sum_edges_sub (f : α → ℤ) (ring : List α) :
    ((edges ring).map fun e => f e.2 - f e.1).sum = 0 := by
  have hzip : ∀ l l' : List α, l.length = l'.length →
      ((l.zip l').map fun e => f e.2 - f e.1).sum = (l'.map f).sum - (l.map f).sum := by
    intro l
    induction l with
    | nil =>
      intro l' h
      rw [List.length_nil, eq_comm, List.length_eq_zero_iff] at h
      subst h
      rfl
    | cons a l ih =>
      rintro (_ | ⟨b, l'⟩) h
      · cases h
      · rw [List.zip_cons_cons, List.map_cons, List.sum_cons, ih l' (Nat.succ.inj h), List.map_cons,
          List.map_cons, List.sum_cons, List.sum_cons]
        ring
  unfold edges
  rw [hzip _ _ (List.length_rotate _ _).symm, ((List.rotate_perm ring 1).map f).sum_eq, sub_self]

/-- Where a property holds of one vertex and not of another, some edge enters it. -/
theorem exists_edge_of_not_all {ring : List α} {P : α → Prop} {v w : α} (hv : v ∈ ring) (hw : w ∈ ring)
    (hvP : ¬P v) (hwP : P w) : ∃ e ∈ edges ring, ¬P e.1 ∧ P e.2 := by
  by_contra hno
  obtain ⟨⟨i, hi⟩, rfl⟩ := List.mem_iff_get.mp hv
  obtain ⟨⟨j, hj⟩, rfl⟩ := List.mem_iff_get.mp hw
  -- From the first vertex on, the property never comes to hold.
  have hnever : ∀ k, ¬P (ring.get ⟨(i + k) % ring.length, Nat.mod_lt _ (by omega)⟩) := by
    intro k
    induction k with
    | zero => simpa only [add_zero, Nat.mod_eq_of_lt hi] using hvP
    | succ k ih =>
      intro hP
      refine hno ⟨_, mem_edges_iff.mpr ⟨(i + k) % ring.length, Nat.mod_lt _ (by omega), rfl⟩, ih, ?_⟩
      simpa only [Nat.mod_add_mod, ← add_assoc] using hP
  refine hnever (ring.length - i + j) ?_
  have hback : (i + (ring.length - i + j)) % ring.length = j := by
    rw [show i + (ring.length - i + j) = j + ring.length by omega, Nat.add_mod_right,
      Nat.mod_eq_of_lt hj]
  simpa only [hback] using hwP

end Edges

section Plane

variable {K : Type*} [CommRing K]

/-- Twice the signed area of the triangle of `p`, `a` and `b`: positive where `p` is on the left of the
line from `a` to `b`. -/
def cross (p a b : K × K) : K := (b.2 - a.2) * (p.1 - a.1) - (p.2 - a.2) * (b.1 - a.1)

/-- The line the other way. -/
theorem cross_swap (p a b : K × K) : cross p b a = -cross p a b := by
  unfold cross
  ring

/-- Twice the signed area of a ring. -/
def areaTwice (ring : List (K × K)) : K :=
  ((edges ring).map fun e => e.1.2 * e.2.1 - e.2.2 * e.1.1).sum

/-- The area of a ring that is turned around. -/
theorem areaTwice_reverse (ring : List (K × K)) : areaTwice ring.reverse = -areaTwice ring := by
  unfold areaTwice
  rw [((edges_reverse_perm ring).map _).sum_eq, List.sum_neg, List.map_map, List.map_map]
  refine congrArg List.sum (List.map_congr_left fun e _ => ?_)
  simp only [Function.comp_apply, Prod.fst_swap, Prod.snd_swap]
  ring

variable [LinearOrder K] {p a b : K × K} {ε : K} {ring : List (K × K)}

/-- The point is on the edge, up to the tolerance. -/
def OnEdge (ε : K) (p a b : K × K) : Prop :=
  |cross p a b| ≤ ε ∧ (min a.1 b.1 - ε ≤ p.1 ∧ p.1 ≤ max a.1 b.1 + ε) ∧
    min a.2 b.2 - ε ≤ p.2 ∧ p.2 ≤ max a.2 b.2 + ε

instance (ε : K) (p a b : K × K) : Decidable (OnEdge ε p a b) :=
  inferInstanceAs (Decidable (_ ∧ _ ∧ _))

/-- The edge the other way. -/
theorem onEdge_swap : OnEdge ε p b a ↔ OnEdge ε p a b := by
  unfold OnEdge
  rw [cross_swap, abs_neg, min_comm, max_comm, min_comm b.2, max_comm b.2]

/-- What an edge adds to the winding number. -/
def crossing (p a b : K × K) : ℤ :=
  if a.1 ≤ p.1 then if p.1 < b.1 ∧ 0 < cross p a b then 1 else 0
  else if b.1 ≤ p.1 ∧ cross p a b < 0 then -1 else 0

/-- The winding number. -/
def winding (p : K × K) (ring : List (K × K)) : ℤ :=
  ((edges ring).map fun e => crossing p e.1 e.2).sum

/-- The point is on the boundary of the ring, up to the tolerance, or inside; a ring without an area
contains nothing. -/
def Contains (ε : K) (p : K × K) (ring : List (K × K)) : Prop :=
  3 ≤ ring.length ∧ ε < |areaTwice ring| ∧
    ((∃ e ∈ edges ring, OnEdge ε p e.1 e.2) ∨ winding p ring ≠ 0)

/-- The vertex that a ring starts with does not matter. -/
theorem contains_rotate_iff (n : ℕ) : Contains ε p (ring.rotate n) ↔ Contains ε p ring := by
  have hperm : (edges (ring.rotate n)).Perm (edges ring) := by
    rw [edges_rotate]
    exact List.rotate_perm _ _
  have hedge : (∃ e ∈ edges (ring.rotate n), OnEdge ε p e.1 e.2) ↔
      ∃ e ∈ edges ring, OnEdge ε p e.1 e.2 :=
    exists_congr fun e => and_congr_left fun _ => hperm.mem_iff
  unfold Contains areaTwice winding
  rw [List.length_rotate, (hperm.map _).sum_eq, (hperm.map _).sum_eq, hedge]

/-- The boundary of a ring that is turned around. -/
theorem exists_onEdge_reverse_iff :
    (∃ e ∈ edges ring.reverse, OnEdge ε p e.1 e.2) ↔ ∃ e ∈ edges ring, OnEdge ε p e.1 e.2 := by
  constructor
  · rintro ⟨e, he, hon⟩
    obtain ⟨e', he', rfl⟩ := List.mem_map.mp ((edges_reverse_perm ring).mem_iff.mp he)
    exact ⟨e', he', onEdge_swap.mp hon⟩
  · rintro ⟨e, he, hon⟩
    exact ⟨e.swap, (edges_reverse_perm ring).mem_iff.mpr (List.mem_map_of_mem he), onEdge_swap.mpr hon⟩

variable [IsStrictOrderedRing K]

/-- The edge the other way takes it off again. -/
theorem crossing_swap (p a b : K × K) : crossing p b a = -crossing p a b := by
  have hswap := cross_swap p a b
  unfold crossing
  by_cases ha : a.1 ≤ p.1 <;> by_cases hb : b.1 ≤ p.1
  · simp [ha, hb, not_lt.mpr ha, not_lt.mpr hb]
  · rw [if_neg hb, if_pos ha]
    simp only [ha, not_le.mp hb, true_and, hswap, neg_lt_zero]
    split <;> rfl
  · rw [if_pos hb, if_neg ha]
    simp only [hb, not_le.mp ha, true_and, hswap, neg_pos]
    split <;> rfl
  · simp [ha, hb]

/-- The winding number of a ring that is turned around. -/
theorem winding_reverse (p : K × K) (ring : List (K × K)) :
    winding p ring.reverse = -winding p ring := by
  unfold winding
  rw [((edges_reverse_perm ring).map _).sum_eq, List.sum_neg, List.map_map, List.map_map]
  exact congrArg List.sum (List.map_congr_left fun e _ => crossing_swap p e.1 e.2)

/-- The direction of a ring does not matter. -/
theorem contains_reverse_iff : Contains ε p ring.reverse ↔ Contains ε p ring := by
  unfold Contains
  rw [List.length_reverse, areaTwice_reverse, abs_neg, exists_onEdge_reverse_iff, winding_reverse,
    neg_ne_zero]

section HalfPlane

variable {α β : K}

/-- In a half-plane that the point is not in, an edge crosses the ray to the right whenever its ends
are on different sides of it, or never. -/
theorem crossing_of_half_plane (ha : 0 < α * (a.2 - p.2) + β * (a.1 - p.1))
    (hb : 0 < α * (b.2 - p.2) + β * (b.1 - p.1)) :
    crossing p a b =
      if 0 < α then (if p.1 < b.1 then 1 else 0) - (if p.1 < a.1 then 1 else 0) else 0 := by
  -- An edge that goes up meets the half-plane to the right of the point exactly if `0 < α`.
  have hup : ∀ {a b : K × K}, 0 < α * (a.2 - p.2) + β * (a.1 - p.1) →
      0 < α * (b.2 - p.2) + β * (b.1 - p.1) → a.1 ≤ p.1 → p.1 < b.1 → (0 < cross p a b ↔ 0 < α) := by
    intro a b ha hb hlo hhi
    have hmix : (b.1 - p.1) * (α * (a.2 - p.2) + β * (a.1 - p.1)) +
        (p.1 - a.1) * (α * (b.2 - p.2) + β * (b.1 - p.1)) = α * cross p a b := by
      unfold cross
      ring
    have hpos : 0 < α * cross p a b := by
      rw [← hmix]
      exact add_pos_of_pos_of_nonneg (mul_pos (sub_pos.mpr hhi) ha)
        (mul_nonneg (sub_nonneg.mpr hlo) hb.le)
    exact ⟨fun h => pos_of_mul_pos_left hpos h.le, fun h => pos_of_mul_pos_right hpos h.le⟩
  rcases le_or_gt a.1 p.1 with hlo | hlo <;> rcases le_or_gt b.1 p.1 with hhi | hhi
  · unfold crossing
    simp [hlo, not_lt.mpr hlo, not_lt.mpr hhi]
  · unfold crossing
    simp only [hlo, hhi, if_true, true_and, not_lt.mpr hlo, if_false, sub_zero, hup ha hb hlo hhi]
  · rw [← neg_neg (crossing p a b), ← crossing_swap]
    unfold crossing
    simp only [hlo, hhi, if_true, true_and, not_lt.mpr hhi, if_false, hup hb ha hhi hlo]
    split <;> rfl
  · unfold crossing
    simp [hlo, hhi, not_le.mpr hlo, not_le.mpr hhi]

/-- A ring does not wind around a point that a line separates from all vertices. -/
theorem winding_eq_zero_of_separated (h : ∀ v ∈ ring, 0 < α * (v.2 - p.2) + β * (v.1 - p.1)) :
    winding p ring = 0 := by
  have hedge : ∀ e ∈ edges ring, crossing p e.1 e.2 =
      (if 0 < α ∧ p.1 < e.2.1 then 1 else 0) - (if 0 < α ∧ p.1 < e.1.1 then 1 else 0) := by
    intro e he
    obtain ⟨hfst, hsnd⟩ := mem_of_mem_edges he
    rw [crossing_of_half_plane (h _ hfst) (h _ hsnd)]
    by_cases hα : 0 < α <;> simp [hα]
  unfold winding
  rw [List.map_congr_left hedge]
  exact sum_edges_sub (fun v => if 0 < α ∧ p.1 < v.1 then 1 else 0) ring

end HalfPlane

end Plane

/-- Between the levels of its ends, an edge has a point on each level. -/
theorem exists_onEdge_level {K : Type*} [Field K] [LinearOrder K] [IsStrictOrderedRing K]
    {a b : K × K} {ε y : K} (hε : 0 ≤ ε) (ha : a.1 < y) (hb : y < b.1) :
    ∃ x, (min a.2 b.2 ≤ x ∧ x ≤ max a.2 b.2) ∧ OnEdge ε (y, x) a b := by
  let t := (y - a.1) / (b.1 - a.1)
  have ht : t * (b.1 - a.1) = y - a.1 := div_mul_cancel₀ _ (by linarith)
  have ht0 : 0 ≤ t := div_nonneg (by linarith) (by linarith)
  have ht1 : t ≤ 1 := div_le_one_of_le₀ (by linarith) (by linarith)
  let x := a.2 + t * (b.2 - a.2)
  have hx : min a.2 b.2 ≤ x ∧ x ≤ max a.2 b.2 := by
    rcases le_total a.2 b.2 with hle | hle
    · rw [min_eq_left hle, max_eq_right hle]
      constructor <;> simp only [x] <;> nlinarith
    · rw [min_eq_right hle, max_eq_left hle]
      constructor <;> simp only [x] <;> nlinarith
  have hline : cross (y, x) a b = 0 := by
    unfold cross
    simp only [x, add_sub_cancel_left, ← ht]
    ring
  have hy : min a.1 b.1 ≤ y ∧ y ≤ max a.1 b.1 :=
    ⟨(min_le_left _ _).trans ha.le, hb.le.trans (le_max_right _ _)⟩
  refine ⟨x, hx, ?_, ⟨?_, ?_⟩, ?_, ?_⟩
  · rw [hline, abs_zero]
    exact hε
  · exact (sub_le_self _ hε).trans hy.1
  · exact hy.2.trans (le_add_of_nonneg_right hε)
  · exact (sub_le_self _ hε).trans hx.1
  · exact hx.2.trans (le_add_of_nonneg_right hε)

end Geometry
