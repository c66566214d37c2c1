import Mathlib.Data.Set.Insert
import Mathlib.Order.Defs.LinearOrder
import Mathlib.Logic.Function.Basic

/-!
# Latest-value registers

A register per key that keeps the event of highest rank. `Holds val m S` says that the map `m` is
what the set `S` of events leaves in the registers. Taking in one more event keeps it, whether the
event is newer than all others of its key (`Holds.insert_newer`) or not (`Holds.insert_older`), and
where key and rank determine the event, `S` determines `m` (`Holds.ext`). So the registers depend on
the set of events only, in whatever order and however often they arrive.
-/

namespace Store

variable {E K V R : Type} [LinearOrder R] (key : E → K) (rank : E → R) (val : E → V)

/-- `e` is an event of `S` with key `k` and the highest rank. -/
structure Latest (S : Set E) (k : K) (e : E) : Prop where
  mem : e ∈ S
  key_eq : key e = k
  le : ∀ e' ∈ S, key e' = k → rank e' ≤ rank e

/-- The map `m` holds for every key the value of the latest event of `S`, and nothing for a key
without events. -/
structure Holds (m : K → Option V) (S : Set E) : Prop where
  latest : ∀ k v, m k = some v → ∃ e, Latest key rank S k e ∧ val e = v
  absent : ∀ k, m k = none → ∀ e ∈ S, key e ≠ k

variable {key rank val} {m m' : K → Option V} {S : Set E}

/-- Where key and rank determine an event of `S`, the latest event of a key is unique. -/
theorem Latest.unique {k : K} {e e' : E}
    (hdet : ∀ a ∈ S, ∀ b ∈ S, key a = key b → rank a = rank b → a = b)
    (h : Latest key rank S k e) (h' : Latest key rank S k e') : e = e' := by
  refine hdet e h.mem e' h'.mem (h.key_eq.trans h'.key_eq.symm) ?_
  exact le_antisymm (h'.le e h.mem h.key_eq) (h.le e' h'.mem h'.key_eq)

/-- Empty registers hold the empty set of events. -/
theorem Holds.empty : Holds key rank val (fun _ => none) (∅ : Set E) where
  latest _ _ h := by cases h
  absent _ _ _ he := absurd he (Set.notMem_empty _)

/-- A value is that of an event with the key. -/
theorem Holds.exists_of_eq_some (h : Holds key rank val m S) {k : K} {v : V} (hv : m k = some v) :
    ∃ e ∈ S, key e = k ∧ val e = v := by
  obtain ⟨e, he, rfl⟩ := h.latest k v hv
  exact ⟨e, he.mem, he.key_eq, rfl⟩

/-- A key with an event has a value. -/
theorem Holds.exists_of_mem (h : Holds key rank val m S) {e : E} (he : e ∈ S) :
    ∃ e', Latest key rank S (key e) e' ∧ m (key e) = some (val e') := by
  cases hm : m (key e) with
  | none => exact absurd rfl (h.absent _ hm e he)
  | some v =>
    obtain ⟨e', he', rfl⟩ := h.latest _ _ hm
    exact ⟨e', he', rfl⟩

/-- Taking in an event newer than all others of its key writes its register. -/
theorem Holds.insert_newer [DecidableEq K] (h : Holds key rank val m S) (e : E)
    (hnew : ∀ e' ∈ S, key e' = key e → rank e' < rank e) :
    Holds key rank val (Function.update m (key e) (some (val e))) (insert e S) where
  latest k v hk := by
    by_cases hke : k = key e
    · subst hke
      rw [Function.update_self] at hk
      refine ⟨e, ⟨Set.mem_insert _ _, rfl, ?_⟩, Option.some.inj hk⟩
      rintro e' (rfl | he') hk'
      · exact le_refl _
      · exact (hnew e' he' hk').le
    · rw [Function.update_of_ne hke] at hk
      obtain ⟨a, ha, hv⟩ := h.latest k v hk
      refine ⟨a, ⟨Set.mem_insert_of_mem _ ha.mem, ha.key_eq, ?_⟩, hv⟩
      rintro e' (rfl | he') hk'
      · exact absurd hk'.symm hke
      · exact ha.le e' he' hk'
  absent k hk := by
    by_cases hke : k = key e
    · subst hke
      rw [Function.update_self] at hk
      cases hk
    · rw [Function.update_of_ne hke] at hk
      rintro e' (rfl | he')
      · exact fun hk' => hke hk'.symm
      · exact h.absent k hk e' he'

/-- Taking in an event that is not newer than some other of its key changes nothing. -/
theorem Holds.insert_older (h : Holds key rank val m S) (e : E)
    (hold : ∃ e' ∈ S, key e' = key e ∧ rank e ≤ rank e') :
    Holds key rank val m (insert e S) where
  latest k v hk := by
    obtain ⟨a, ha, hv⟩ := h.latest k v hk
    refine ⟨a, ⟨Set.mem_insert_of_mem _ ha.mem, ha.key_eq, ?_⟩, hv⟩
    rintro e' (rfl | he') hk'
    · obtain ⟨b, hb, hbk, hle⟩ := hold
      exact hle.trans (ha.le b hb (hbk.trans hk'))
    · exact ha.le e' he' hk'
  absent k hk := by
    rintro e' (rfl | he')
    · obtain ⟨b, hb, hbk, -⟩ := hold
      exact fun hk' => h.absent k hk b hb (hbk.trans hk')
    · exact h.absent k hk e' he'

/-- Where key and rank determine an event, the set of events determines the registers. -/
theorem Holds.ext (hdet : ∀ a ∈ S, ∀ b ∈ S, key a = key b → rank a = rank b → a = b)
    (h : Holds key rank val m S) (h' : Holds key rank val m' S) : m = m' := by
  funext k
  cases hm : m k with
  | none =>
    cases hm' : m' k with
    | none => rfl
    | some v =>
      obtain ⟨e, he, -⟩ := h'.latest k v hm'
      exact absurd he.key_eq (h.absent k hm e he.mem)
  | some v =>
    obtain ⟨e, he, rfl⟩ := h.latest k v hm
    obtain ⟨e', he', hm'⟩ := h'.exists_of_mem he.mem
    rw [he.key_eq] at he' hm'
    rw [hm', Latest.unique hdet he he']

end Store
