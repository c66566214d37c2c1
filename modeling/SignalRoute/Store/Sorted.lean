import Mathlib.Data.List.Basic
import Mathlib.Data.List.Perm.Basic
import Mathlib.Order.Defs.Unbundled

/-!
# Sorted lists and their first elements

Lists that are in one strict order. Such a list is determined by its elements (`eq_of_sorted`). An element
that is not among the first few comes after each of them (`full_of_notMem_take`); and two lists have the same
first elements exactly if what only one of them has comes after enough that both have (`take_eq_take_iff`).
-/

namespace Store

variable {α : Type} {r : α → α → Prop} [IsStrictOrder α r] {l l' : List α}

/-- A sorted list has no element twice. -/
theorem nodup_of_sorted (h : l.Pairwise r) : l.Nodup := by
  refine h.imp ?_
  rintro a b hab rfl
  exact irrefl_of r a hab

/-- Sorted lists with the same elements are the same. -/
theorem eq_of_sorted (h : l.Pairwise r) (h' : l'.Pairwise r) (hmem : ∀ a, a ∈ l ↔ a ∈ l') : l = l' := by
  have hperm := (List.perm_ext_iff_of_nodup (nodup_of_sorted h) (nodup_of_sorted h')).mpr hmem
  exact List.Perm.eq_of_pairwise (fun a b _ _ hab hba => absurd hba (asymm_of r hab)) h h' hperm

omit [IsStrictOrder α r] in
/-- What is left out of the first elements of a sorted list comes after each of them. -/
theorem full_of_notMem_take (h : l.Pairwise r) {n : ℕ} {a : α} (ha : a ∈ l) (hn : a ∉ l.take n) :
    (l.take n).length = n ∧ ∀ b ∈ l.take n, r b a := by
  rw [← List.take_append_drop n l, List.mem_append, or_iff_right hn] at ha
  have hdrop := List.length_pos_of_mem ha
  rw [List.length_drop] at hdrop
  refine ⟨?_, fun b hb => ?_⟩
  · rw [List.length_take]
    omega
  · rw [← List.take_append_drop n l, List.pairwise_append] at h
    exact h.2.2 b hb a ha

/-- No element comes before the first of a sorted list. -/
theorem not_before_head {a b : α} (h : (a :: l).Pairwise r) (hb : b ∈ a :: l) : ¬r b a := by
  intro hba
  rcases List.mem_cons.mp hb with rfl | hb
  · exact irrefl_of r b hba
  · exact asymm_of r hba ((List.pairwise_cons.mp h).1 b hb)

/-- What comes before the first of a sorted list is not in it. -/
theorem notMem_of_before {a b : α} (h : (b :: l).Pairwise r) (hab : r a b) : a ∉ b :: l :=
  fun hmem => not_before_head h hmem hab

variable [DecidableEq α] [DecidableRel r]

/-- How many elements of both lists come before an element. -/
def countBefore (r : α → α → Prop) [DecidableRel r] (l l' : List α) (a : α) : ℕ :=
  l.countP fun b => b ∈ l' ∧ r b a

omit [IsStrictOrder α r] in
/-- Where no element of both lists comes before an element. -/
theorem countBefore_eq_zero {a : α} (h : ∀ b ∈ l, b ∈ l' → ¬r b a) : countBefore r l l' a = 0 := by
  rw [countBefore, List.countP_eq_zero]
  intro b hb hbefore
  obtain ⟨hb', hba⟩ := of_decide_eq_true hbefore
  exact h b hb hb' hba

/-- Two lists with the same first element: it comes before each other element of them. -/
theorem countBefore_cons {a x : α} (h : (a :: l).Pairwise r) (hx : r a x) :
    countBefore r (a :: l) (a :: l') x = countBefore r l l' x + 1 := by
  unfold countBefore
  rw [List.countP_cons_of_pos (by simpa using hx)]
  congr 1
  refine List.countP_congr fun b hb => ?_
  have hne : b ≠ a := fun heq => irrefl_of r a (heq ▸ (List.pairwise_cons.mp h).1 b hb)
  simp [hne]

/-- Two lists with the same first element: what only one of them has is what only one of the rests has, and
one more comes before it. -/
theorem forall_countBefore_cons_iff {a : α} (h : (a :: l).Pairwise r) (h' : (a :: l').Pairwise r) (n : ℕ) :
    (∀ x, ¬(x ∈ a :: l ↔ x ∈ a :: l') → n + 1 ≤ countBefore r (a :: l) (a :: l') x) ↔
      ∀ x, ¬(x ∈ l ↔ x ∈ l') → n ≤ countBefore r l l' x := by
  have hfirst := (List.pairwise_cons.mp h).1
  have hfirst' := (List.pairwise_cons.mp h').1
  have hother : ∀ x, ¬(x ∈ l ↔ x ∈ l') → r a x := by
    intro x hx
    by_cases hl : x ∈ l
    · exact hfirst x hl
    · exact hfirst' x (by tauto)
  refine forall_congr' fun x => ?_
  by_cases hxa : x = a
  · have hnot : a ∉ l := fun hmem => irrefl_of r a (hfirst a hmem)
    have hnot' : a ∉ l' := fun hmem => irrefl_of r a (hfirst' a hmem)
    simp [hxa, hnot, hnot']
  · rw [List.mem_cons, List.mem_cons, or_iff_right hxa, or_iff_right hxa]
    refine forall_congr' fun hx => ?_
    rw [countBefore_cons h (hother x hx), Nat.succ_le_succ_iff]

/-- Two sorted lists have the same first elements exactly if each element that only one of them has comes
after as many that both have. -/
theorem take_eq_take_iff (h : l.Pairwise r) (h' : l'.Pairwise r)
    (htotal : ∀ a ∈ l, ∀ b ∈ l', r a b ∨ a = b ∨ r b a) (n : ℕ) :
    l.take n = l'.take n ↔ ∀ a, ¬(a ∈ l ↔ a ∈ l') → n ≤ countBefore r l l' a := by
  induction l generalizing l' n with
  | nil =>
    cases l' with
    | nil => simp
    | cons b l' =>
      cases n with
      | zero => simp
      | succ n =>
        refine iff_of_false (by simp) fun hall => ?_
        have := hall b (by simp)
        simp [countBefore] at this
  | cons a l ih =>
    cases n with
    | zero => simp
    | succ n =>
      cases l' with
      | nil =>
        refine iff_of_false (by simp) fun hall => ?_
        have := hall a (by simp)
        simp [countBefore] at this
      | cons b l' =>
        rcases htotal a List.mem_cons_self b List.mem_cons_self with hab | rfl | hba
        · -- The second list starts after `a`, so it does not have it, and nothing comes before `a`.
          refine iff_of_false (fun heq => ?_) fun hall => ?_
          · obtain rfl : a = b := List.head_eq_of_cons_eq heq
            exact irrefl_of r a hab
          · have hnot := notMem_of_before h' hab
            have := hall a fun hiff => hnot (hiff.mp List.mem_cons_self)
            rw [countBefore_eq_zero fun x hx _ => not_before_head h hx] at this
            omega
        · have hrest := ih (List.pairwise_cons.mp h).2 (List.pairwise_cons.mp h').2
            (fun x hx y hy => htotal x (List.mem_cons_of_mem _ hx) y (List.mem_cons_of_mem _ hy)) n
          rw [forall_countBefore_cons_iff h h', ← hrest, List.take_succ_cons, List.take_succ_cons, List.cons.injEq,
            and_iff_right rfl]
        · -- Nor does the first list have the `b` that it starts after.
          refine iff_of_false (fun heq => ?_) fun hall => ?_
          · obtain rfl : a = b := List.head_eq_of_cons_eq heq
            exact irrefl_of r a hba
          · have hnot := notMem_of_before h hba
            have := hall b fun hiff => hnot (hiff.mpr List.mem_cons_self)
            rw [countBefore_eq_zero fun x _ hx => not_before_head h' hx] at this
            omega

end Store
