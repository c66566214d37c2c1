import Mathlib.Data.List.Induction

/-!
# Reading a log with a high-water mark

A reader goes through a log in order. It settles an entry, and then commits the position after it,
or it leaves the entry and goes on; the entries themselves and what it takes to settle one do not
matter. The committed position is one past the last entry that is settled (`mark`), so it also
covers every entry before that one.

`Orderly` says that nothing is settled once something is left. It is what it takes for the committed
position to cover settled entries only (`orderly_iff`). `Follows` connects a program's own offsets
and its own record of what is done to the fates of the entries; `Follows.leave` and `Follows.settle`
are its steps, and `Follows.covered_iff` carries the result over.
-/

namespace CommitLog

/-- What a reader does with an entry. -/
inductive Fate where
  | left
  | settled
  deriving DecidableEq

/-- The committed position: one past the last entry that is settled. -/
def mark (fates : List Fate) : ℕ := (fates.reverse.dropWhile (· = .left)).length

/-- Nothing is settled once an entry is left. -/
def Orderly (fates : List Fate) : Prop := fates.Pairwise fun a b => a = .left → b = .left

/-- The empty log has nothing to commit. -/
@[simp] theorem mark_nil : mark [] = 0 := rfl

/-- An entry that is left moves no mark. -/
@[simp] theorem mark_left (fates : List Fate) : mark (fates ++ [.left]) = mark fates := by
  simp [mark]

/-- An entry that is settled moves the mark past it. -/
@[simp] theorem mark_settled (fates : List Fate) :
    mark (fates ++ [.settled]) = fates.length + 1 := by
  simp [mark]

/-- The mark is never past the entries that have been read. -/
theorem mark_le_length (fates : List Fate) : mark fates ≤ fates.length := by
  have hle := (List.dropWhile_sublist (· = Fate.left) (l := fates.reverse)).length_le
  rwa [List.length_reverse] at hle

/-- The fates of the entries after one more. -/
theorem getElem?_concat (fates : List Fate) (fate : Fate) (i : ℕ) :
    (fates ++ [fate])[i]? = if i = fates.length then some fate else fates[i]? := by
  rcases Nat.lt_trichotomy i fates.length with hlt | heq | hgt
  · rw [List.getElem?_append_left hlt, if_neg (by omega)]
  · rw [heq, List.getElem?_concat_length, if_pos rfl]
  · have hlength : (fates ++ [fate]).length ≤ i := by
      rw [List.length_append, List.length_singleton]
      omega
    rw [List.getElem?_eq_none hlength, if_neg (by omega), List.getElem?_eq_none (by omega)]

/-- One more entry that is left breaks no order. -/
@[simp] theorem orderly_left (fates : List Fate) : Orderly (fates ++ [.left]) ↔ Orderly fates := by
  unfold Orderly
  rw [List.pairwise_append]
  refine and_iff_left ⟨List.pairwise_singleton _ _, fun _ _ b hb _ => ?_⟩
  exact List.mem_singleton.mp hb

/-- One more entry that is settled is in order if none is left before it. -/
theorem orderly_settled (fates : List Fate) :
    Orderly (fates ++ [.settled]) ↔ Orderly fates ∧ Fate.left ∉ fates := by
  unfold Orderly
  rw [List.pairwise_append]
  constructor
  · rintro ⟨horderly, -, hlast⟩
    refine ⟨horderly, fun hleft => ?_⟩
    cases hlast .left hleft .settled (List.mem_singleton.mpr rfl) rfl
  · rintro ⟨horderly, hnone⟩
    refine ⟨horderly, List.pairwise_singleton _ _, fun a ha b _ hleft => ?_⟩
    rw [hleft] at ha
    exact absurd ha hnone

/-- What holds of every entry and the log before it holds of the entries up to the last one, and of the
last one. -/
theorem forall_entry_concat {α : Type*} (holds : List α → α → Prop) (log : List α) (entry : α) :
    (∀ n e, (log ++ [entry])[n]? = some e → holds ((log ++ [entry]).take n) e) ↔
      (∀ n e, log[n]? = some e → holds (log.take n) e) ∧ holds log entry := by
  have hlast : (log ++ [entry]).take log.length = log := List.take_left
  constructor
  · intro hall
    refine ⟨fun n e hn => ?_, ?_⟩
    · have hlt : n < log.length := (List.getElem?_eq_some_iff.mp hn).1
      have hprev := hall n e (by rw [List.getElem?_append_left hlt]; exact hn)
      rwa [List.take_append_of_le_length (Nat.le_of_lt hlt)] at hprev
    · have hentry := hall log.length entry List.getElem?_concat_length
      rwa [hlast] at hentry
  · rintro ⟨hprev, hentry⟩ n e hn
    -- Before the last entry the prefixes are the same, and after it there is none.
    rcases Nat.lt_trichotomy n log.length with hlt | rfl | hgt
    · rw [List.getElem?_append_left hlt] at hn
      rw [List.take_append_of_le_length (Nat.le_of_lt hlt)]
      exact hprev n e hn
    · rw [List.getElem?_concat_length] at hn
      rw [hlast, ← Option.some.inj hn]
      exact hentry
    · have hlength : (log ++ [entry]).length ≤ n := by
        rw [List.length_append, List.length_singleton]
        omega
      rw [List.getElem?_eq_none hlength] at hn
      cases hn

/-- The entries below the mark are all settled exactly when nothing is settled once an entry is
left. -/
theorem orderly_iff (fates : List Fate) :
    Orderly fates ↔ ∀ i < mark fates, fates[i]? = some .settled := by
  induction fates using List.reverseRecOn with
  | nil => simp [Orderly]
  | append_singleton fates fate ih =>
    -- A left entry moves no mark; a settled one moves it past all before it.
    cases fate with
    | left =>
      have hle := mark_le_length fates
      rw [orderly_left, mark_left, ih]
      refine forall_congr' fun i => forall_congr' fun hi => ?_
      rw [getElem?_concat, if_neg (by omega)]
    | settled =>
      rw [orderly_settled, mark_settled, ih]
      constructor
      · rintro ⟨-, hnone⟩ i hi
        rw [getElem?_concat]
        by_cases heq : i = fates.length
        · rw [if_pos heq]
        · have hlt : i < fates.length := by omega
          rw [if_neg heq, List.getElem?_eq_getElem hlt]
          cases hfate : fates[i] with
          | settled => rfl
          | left => exact absurd (hfate ▸ List.getElem_mem hlt) hnone
      · intro hall
        have hsettled : ∀ i < fates.length, fates[i]? = some .settled := by
          intro i hi
          have hfate := hall i (by omega)
          rwa [getElem?_concat, if_neg (by omega)] at hfate
        have hle := mark_le_length fates
        refine ⟨fun i hi => hsettled i (by omega), fun hleft => ?_⟩
        obtain ⟨i, hi, hfate⟩ := List.mem_iff_getElem.mp hleft
        have hsettled := hsettled i hi
        rw [List.getElem?_eq_getElem hi, hfate] at hsettled
        cases hsettled

/-- The offsets of a program and its record of what is done follow the fates of the entries it has
read. What is required of an entry to be settled is that it is done, if it matters at all. -/
structure Follows (matters : ℕ → Prop) (fates : List Fate) (next committed : ℕ) (done : List ℕ) :
    Prop where
  next_eq : next = fates.length
  committed_eq : committed = mark fates
  done_iff : ∀ i, matters i → (i ∈ done ↔ fates[i]? = some .settled)
  matters_of_left : ∀ i, fates[i]? = some .left → matters i

section Follows

variable {matters : ℕ → Prop} {fates : List Fate} {next committed : ℕ} {done : List ℕ}

/-- At the start nothing has been read. -/
theorem Follows.start : Follows matters [] 0 0 [] where
  next_eq := rfl
  committed_eq := rfl
  done_iff i _ := by simp
  matters_of_left i h := by simp at h

/-- What is committed is done, where it matters, exactly when nothing is settled once an entry is
left. -/
theorem Follows.covered_iff (h : Follows matters fates next committed done) :
    (∀ i < committed, matters i → i ∈ done) ↔ Orderly fates := by
  rw [orderly_iff, h.committed_eq]
  refine forall_congr' fun i => forall_congr' fun hi => ?_
  -- Below the mark every entry has a fate, and a left one matters and is not done.
  constructor
  · intro hdone
    have hlt : i < fates.length := Nat.lt_of_lt_of_le hi (mark_le_length fates)
    cases hfate : fates[i] with
    | settled => rw [List.getElem?_eq_getElem hlt, hfate]
    | left =>
      have hleft : fates[i]? = some .left := by rw [List.getElem?_eq_getElem hlt, hfate]
      have hmatters := h.matters_of_left i hleft
      exact (h.done_iff i hmatters).mp (hdone hmatters)
  · intro hsettled hmatters
    exact (h.done_iff i hmatters).mpr hsettled

/-- The next entry is left: only entries that matter are. -/
theorem Follows.leave (h : Follows matters fates next committed done) (hmatters : matters next) :
    Follows matters (fates ++ [.left]) (next + 1) committed done where
  next_eq := by rw [List.length_append, List.length_singleton, h.next_eq]
  committed_eq := by rw [mark_left, h.committed_eq]
  done_iff i hi := by
    rw [h.done_iff i hi, getElem?_concat]
    by_cases heq : i = fates.length
    · rw [if_pos heq, heq, List.getElem?_eq_none (Nat.le_refl _)]
      exact iff_of_false nofun nofun
    · rw [if_neg heq]
  matters_of_left i hleft := by
    rw [getElem?_concat] at hleft
    by_cases heq : i = fates.length
    · rwa [heq, ← h.next_eq]
    · rw [if_neg heq] at hleft
      exact h.matters_of_left i hleft

/-- The next entry is settled: it is done if it matters, and the position after it is committed. -/
theorem Follows.settle (h : Follows matters fates next committed done) {done' : List ℕ}
    (hdone : ∀ i, matters i → (i ∈ done' ↔ i ∈ done ∨ i = next)) :
    Follows matters (fates ++ [.settled]) (next + 1) (max committed (next + 1)) done' where
  next_eq := by rw [List.length_append, List.length_singleton, h.next_eq]
  committed_eq := by
    have hle := mark_le_length fates
    rw [mark_settled, h.committed_eq, h.next_eq]
    omega
  done_iff i hi := by
    rw [hdone i hi, h.done_iff i hi, h.next_eq, getElem?_concat]
    by_cases heq : i = fates.length
    · rw [if_pos heq]
      exact iff_of_true (.inr heq) rfl
    · rw [if_neg heq]
      exact or_iff_left heq
  matters_of_left i hleft := by
    rw [getElem?_concat] at hleft
    by_cases heq : i = fates.length
    · rw [if_pos heq] at hleft
      cases hleft
    · rw [if_neg heq] at hleft
      exact h.matters_of_left i hleft

end Follows

end CommitLog
