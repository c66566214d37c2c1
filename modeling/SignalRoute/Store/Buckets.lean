import Mathlib.Data.Finset.Card
import Mathlib.Data.List.Chain
import Mathlib.Order.Basic

/-!
# Sampling by buckets

A list is sampled by keeping the first element of each bucket, where a function `f` says which bucket
an element is in (`firsts`). A scan that keeps an element whenever its bucket is another than the one
before (`starts`) does this in one pass over a list on which `f` is monotone (`starts_eq_firsts`).

Sampling and cutting a list do not commute, nor do two samplings by different buckets agree.
`starts_take_eq_iff` says when sampling the first elements by the one function gives the first of the
sampling of the whole list by the other, and `starts_eq_take_iff` says it where the list is not cut
before.
-/

namespace Store

variable {α β : Type}

section Scan

variable [DecidableEq β] (f : α → β)

/-- The elements whose bucket has not been seen. -/
def firsts (seen : List β) : List α → List α
  | [] => []
  | a :: l => if f a ∈ seen then firsts seen l else a :: firsts (f a :: seen) l

/-- The elements whose bucket is not that of the element before; `last` is the bucket before the list. -/
def starts (last : Option β) : List α → List α
  | [] => []
  | a :: l => if last = some (f a) then starts last l else a :: starts (some (f a)) l

/-- The bucket after a list. -/
def lastBucket (last : Option β) (l : List α) : Option β := l.foldl (fun _ a => some (f a)) last

variable {f} {last : Option β} {a : α} {l : List α}

theorem starts_cons_same (h : last = some (f a)) : starts f last (a :: l) = starts f last l := if_pos h

theorem starts_cons_other (h : last ≠ some (f a)) :
    starts f last (a :: l) = a :: starts f (some (f a)) l := if_neg h

/-- What a scan keeps is in the list, in its order. -/
theorem starts_sublist : (starts f last l).Sublist l := by
  induction l generalizing last with
  | nil => exact List.Sublist.refl _
  | cons a l ih =>
    unfold starts
    split
    · exact ih.cons a
    · exact ih.cons_cons a

/-- What a scan keeps is in the list. -/
theorem starts_subset : starts f last l ⊆ l := starts_sublist.subset

/-- A scan keeps nothing where no bucket starts. -/
theorem starts_eq_nil_iff : starts f last l = [] ↔ ∀ a ∈ l, last = some (f a) := by
  induction l generalizing last with
  | nil => simp [starts]
  | cons a l ih =>
    by_cases h : last = some (f a)
    · rw [starts_cons_same h, ih, List.forall_mem_cons, and_iff_right h]
    · rw [starts_cons_other h]
      exact iff_of_false (List.cons_ne_nil _ _) fun hall => h (hall a List.mem_cons_self)

/-- The number of buckets that have not been seen. -/
theorem length_firsts {seen : List β} :
    (firsts f seen l).length = ((l.map f).toFinset \ seen.toFinset).card := by
  induction l generalizing seen with
  | nil => simp [firsts]
  | cons a l ih =>
    rw [List.map_cons, List.toFinset_cons]
    unfold firsts
    split
    · rw [ih, Finset.insert_sdiff_of_mem _ (List.mem_toFinset.mpr ‹_›)]
    · rw [List.length_cons, ih, List.toFinset_cons, Finset.sdiff_insert,
        Finset.insert_sdiff_of_notMem _ (mt List.mem_toFinset.mp ‹_›),
        ← Finset.card_erase_add_one (Finset.mem_insert_self _ _), Finset.erase_insert_eq_erase]

omit [DecidableEq β] in
/-- The bucket after a list is that of its last element. -/
theorem lastBucket_none : lastBucket f none l = l.getLast?.map f := by
  induction l using List.reverseRecOn with
  | nil => rfl
  | append_singleton l a ih =>
    unfold lastBucket
    rw [List.foldl_append, List.getLast?_concat]
    rfl

end Scan

section Sorted

variable [LinearOrder β] {f : α → β} {l : List α} {last : Option β}

/-- On a list on which the buckets do not decrease, a scan keeps the first element of each bucket. -/
theorem starts_eq_firsts (seen : List β) (hl : l.Pairwise fun a b => f a ≤ f b)
    (hbefore : ∀ b ∈ seen, ∀ a ∈ l, b ≤ f a) (hlast : ∀ b, last = some b → b ∈ seen ∧ ∀ c ∈ seen, c ≤ b)
    (hnone : last = none → seen = []) : starts f last l = firsts f seen l := by
  induction l generalizing last seen with
  | nil => rfl
  | cons a l ih =>
    obtain ⟨ha, hl⟩ := List.pairwise_cons.mp hl
    unfold firsts
    by_cases h : last = some (f a)
    · rw [starts_cons_same h, if_pos (hlast _ h).1]
      exact ih _ hl (fun b hb c hc => hbefore b hb c (List.mem_cons_of_mem _ hc)) hlast hnone
    · have hnew : f a ∉ seen := by
        intro hmem
        cases last with
        | none =>
          rw [hnone rfl] at hmem
          cases hmem
        | some b =>
          obtain ⟨hb, hmax⟩ := hlast b rfl
          exact h (congrArg some (le_antisymm (hbefore b hb a List.mem_cons_self) (hmax _ hmem)))
      rw [starts_cons_other h, if_neg hnew]
      refine congrArg _ (ih _ hl ?_ ?_ fun hcontra => by cases hcontra)
      · rintro b hb c hc
        rcases List.mem_cons.mp hb with rfl | hb
        · exact ha c hc
        · exact hbefore b hb c (List.mem_cons_of_mem _ hc)
      · rintro b hb
        cases hb
        refine ⟨List.mem_cons_self, fun c hc => ?_⟩
        rcases List.mem_cons.mp hc with rfl | hc
        · exact le_refl _
        · exact hbefore c hc a List.mem_cons_self

/-- There, it keeps as many elements as there are buckets. -/
theorem length_starts (hl : l.Pairwise fun a b => f a ≤ f b) :
    (starts f none l).length = (l.map f).toFinset.card := by
  rw [starts_eq_firsts [] hl (fun b hb => by cases hb) (fun b hb => by cases hb) fun _ => rfl,
    length_firsts, List.toFinset_nil, Finset.sdiff_empty]

end Sorted

section Alike

variable (f g : α → β)

/-- Neighbours are in one bucket of `f` where they are in one bucket of `g`, as are the first element
and what comes before the list. -/
def Alike (last last' : Option β) : List α → Prop
  | [] => True
  | a :: l => (last = some (f a) ↔ last' = some (g a)) ∧ Alike (some (f a)) (some (g a)) l

variable {f g} {last last' : Option β} {a : α} {l : List α}

theorem alike_cons_same (h : last = some (f a)) (h' : last' = some (g a)) :
    Alike f g last last' (a :: l) ↔ Alike f g (some (f a)) (some (g a)) l :=
  and_iff_right (iff_of_true h h')

theorem alike_cons_other (h : last ≠ some (f a)) (h' : last' ≠ some (g a)) :
    Alike f g last last' (a :: l) ↔ Alike f g (some (f a)) (some (g a)) l :=
  and_iff_right (iff_of_false h h')

theorem alike_some_iff :
    Alike f g (some (f a)) (some (g a)) l ↔ (a :: l).IsChain fun a b => f a = f b ↔ g a = g b := by
  induction l generalizing a with
  | nil => simp [Alike]
  | cons b l ih => rw [Alike, ih, List.isChain_cons_cons, Option.some_inj, Option.some_inj]

/-- A list without anything before it. -/
theorem alike_none_iff :
    Alike f g none none l ↔ l.IsChain fun a b => f a = f b ↔ g a = g b := by
  cases l with
  | nil => simp [Alike]
  | cons a l =>
    rw [Alike, alike_some_iff]
    exact and_iff_right (iff_of_false (by simp) (by simp))

end Alike

section Cuts

variable [DecidableEq β] {f g : α → β} {last last' : Option β} {l : List α}

/-- Two samplings of one list by buckets that are alike agree. -/
theorem Alike.starts_eq (h : Alike f g last last' l) : starts f last l = starts g last' l := by
  induction l generalizing last last' with
  | nil => rfl
  | cons a l ih =>
    obtain ⟨ha, hl⟩ := h
    by_cases hsame : last = some (f a)
    · rw [starts_cons_same hsame, starts_cons_same (ha.mp hsame), hsame, ha.mp hsame]
      exact ih hl
    · rw [starts_cons_other hsame, starts_cons_other (mt ha.mpr hsame)]
      exact congrArg _ (ih hl)

/-- Sampling the first `j` elements by `f` gives the first `k` of the sampling of the whole list by `g`
if the first `j` have like buckets, and in `g` either `k` of these start there or none starts later. -/
theorem starts_take_eq_iff (hl : l.Nodup) {j k : ℕ} (hjk : j ≤ k) :
    starts f last (l.take j) = (starts g last' l).take k ↔ Alike f g last last' (l.take j) ∧
      ((starts g last' (l.take j)).length = k ∨
        starts g (lastBucket g last' (l.take j)) (l.drop j) = []) := by
  induction l generalizing j k last last' with
  | nil => simp [starts, Alike]
  | cons a l ih =>
    obtain ⟨ha, hl⟩ := List.nodup_cons.mp hl
    cases j with
    | zero =>
      simp only [List.take_zero, List.drop_zero, starts, Alike, true_and, List.length_nil, lastBucket,
        List.foldl_nil]
      rw [eq_comm, List.take_eq_nil_iff, eq_comm]
    | succ j =>
      obtain ⟨k, rfl⟩ : ∃ k', k = k' + 1 := ⟨k - 1, by omega⟩
      have hjk : j ≤ k := by omega
      have hf : a ∉ starts f last (l.take j) := fun h => ha (List.mem_of_mem_take (starts_subset h))
      have hg : a ∉ (starts g last' l).take (k + 1) := fun h => ha (starts_subset (List.mem_of_mem_take h))
      rw [List.take_succ_cons, List.drop_succ_cons]
      have hbucket : lastBucket g last' (a :: l.take j) = lastBucket g (some (g a)) (l.take j) := rfl
      rw [hbucket]
      by_cases hsame : last = some (f a) <;> by_cases hsame' : last' = some (g a)
      · -- Neither sampling keeps the element.
        rw [alike_cons_same hsame hsame', starts_cons_same hsame, starts_cons_same hsame',
          starts_cons_same hsame', hsame, hsame', ih hl (hjk.trans (Nat.le_succ k))]
      · rw [starts_cons_same hsame, starts_cons_other hsame', List.take_succ_cons]
        refine iff_of_false (fun h => hf (h ▸ List.mem_cons_self)) fun h => hsame' (h.1.1.mp hsame)
      · rw [starts_cons_other hsame, starts_cons_same hsame']
        refine iff_of_false (fun h => hg (h ▸ List.mem_cons_self)) fun h => hsame (h.1.1.mpr hsame')
      · rw [alike_cons_other hsame hsame', starts_cons_other hsame, starts_cons_other hsame',
          starts_cons_other hsame', List.take_succ_cons, List.cons_inj_right, ih hl hjk, List.length_cons,
          Nat.succ_inj]

/-- A scan over two lists, one after the other. -/
theorem starts_append (l' : List α) :
    starts f last (l ++ l') = starts f last l ++ starts f (lastBucket f last l) l' := by
  induction l generalizing last with
  | nil => rfl
  | cons a l ih =>
    rw [List.cons_append]
    by_cases h : last = some (f a)
    · rw [starts_cons_same h, starts_cons_same h, ih, h]
      rfl
    · rw [starts_cons_other h, starts_cons_other h, ih, List.cons_append]
      rfl

/-- Two lists without a bucket in common are sampled one after the other. -/
theorem starts_append_of_ne {l' : List α} (h : ∀ a ∈ l, ∀ b ∈ l', f a ≠ f b) :
    starts f none (l ++ l') = starts f none l ++ starts f none l' := by
  rw [starts_append, lastBucket_none]
  cases l' with
  | nil => rfl
  | cons b l' =>
    have hother : l.getLast?.map f ≠ some (f b) := by
      intro heq
      obtain ⟨a, ha, hab⟩ := Option.map_eq_some_iff.mp heq
      exact h a (List.mem_of_getLast? ha) b List.mem_cons_self hab
    rw [starts_cons_other hother, starts_cons_other (by simp)]

/-- Sampling a list by `f` gives the first `k` of its sampling by `g` if the list starts with a part
with like buckets, at most `k` in number, and ends there or, at `k`, goes on in the last bucket of
`f`. -/
theorem starts_eq_take_iff (hl : l.Nodup) {k : ℕ} :
    starts f last l = (starts g last' l).take k ↔ ∃ front back, l = front ++ back ∧
      Alike f g last last' front ∧
      ((starts g last' front).length ≤ k ∧ back = [] ∨
        (starts g last' front).length = k ∧ starts f (lastBucket f last front) back = []) := by
  constructor
  · intro h
    induction l generalizing k last last' with
    | nil => exact ⟨[], [], rfl, trivial, .inl ⟨Nat.zero_le k, rfl⟩⟩
    | cons a l ih =>
      obtain ⟨ha, hl⟩ := List.nodup_cons.mp hl
      cases k with
      | zero => exact ⟨[], a :: l, rfl, trivial, .inr ⟨rfl, h⟩⟩
      | succ k =>
        by_cases hsame : last = some (f a) <;> by_cases hsame' : last' = some (g a)
        · rw [starts_cons_same hsame, starts_cons_same hsame', hsame, hsame'] at h
          obtain ⟨front, back, rfl, halike, hend⟩ := ih hl h
          refine ⟨a :: front, back, rfl, (alike_cons_same hsame hsame').mpr halike, ?_⟩
          rw [starts_cons_same hsame', hsame']
          exact hend
        · -- Only the sampling by `g` keeps the element.
          rw [starts_cons_same hsame, starts_cons_other hsame', List.take_succ_cons] at h
          exact absurd (starts_subset (h ▸ List.mem_cons_self)) ha
        · rw [starts_cons_other hsame, starts_cons_same hsame'] at h
          exact absurd (starts_subset (List.mem_of_mem_take (h ▸ List.mem_cons_self))) ha
        · rw [starts_cons_other hsame, starts_cons_other hsame', List.take_succ_cons] at h
          obtain ⟨front, back, rfl, halike, hend⟩ := ih hl (List.cons.inj h).2
          refine ⟨a :: front, back, rfl, (alike_cons_other hsame hsame').mpr halike, ?_⟩
          rw [starts_cons_other hsame', List.length_cons, Nat.succ_le_succ_iff, Nat.succ_inj]
          exact hend
  · rintro ⟨front, back, rfl, halike, ⟨hle, rfl⟩ | ⟨hk, hback⟩⟩
    · rw [List.append_nil, halike.starts_eq, List.take_of_length_le hle]
    · rw [starts_append, starts_append, hback, List.append_nil, halike.starts_eq, ← hk, List.take_left]

end Cuts

end Store
