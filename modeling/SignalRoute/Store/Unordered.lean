import Mathlib.Algebra.Ring.Int.Defs
import Mathlib.Data.List.AList
import Mathlib.Data.Finset.Sort
import Mathlib.Data.String.Basic

/-!
# Unordered containers

`std::unordered_map` is Mathlib's `AList`, and `std::unordered_set` a `Finset`. The order in which
either is traversed is not specified; it is a parameter (`HashOrder`) that may put the elements in
any order.
-/

namespace Store

/-- `std::unordered_map`. -/
abbrev UnorderedMap (K V : Type) : Type := AList fun _ : K => V

/-- Insertions leave a key alone that is not among theirs. -/
theorem lookup_foldl_insert_of_notMem {K V : Type} [DecidableEq K] {k : K} {entries : List (K × V)}
    (h : k ∉ entries.map Prod.fst) (m : UnorderedMap K V) :
    (entries.foldl (fun m e => m.insert e.1 e.2) m).lookup k = m.lookup k := by
  induction entries generalizing m with
  | nil => rfl
  | cons e entries ih =>
    rw [List.map_cons, List.mem_cons, not_or] at h
    rw [List.foldl_cons, ih h.2, AList.lookup_insert_ne h.1]

/-- Insertions with different keys set each of them. -/
theorem lookup_foldl_insert {K V : Type} [DecidableEq K] {e : K × V} {entries : List (K × V)}
    (hnodup : (entries.map Prod.fst).Nodup) (he : e ∈ entries) (m : UnorderedMap K V) :
    (entries.foldl (fun m e => m.insert e.1 e.2) m).lookup e.1 = some e.2 := by
  induction entries generalizing m with
  | nil => cases he
  | cons first entries ih =>
    rw [List.map_cons, List.nodup_cons] at hnodup
    rw [List.foldl_cons]
    obtain rfl | he := List.mem_cons.mp he
    · rw [lookup_foldl_insert_of_notMem hnodup.1, AList.lookup_insert]
    · exact ih hnodup.2 he _

/-- The sum of the values of a map. -/
def total {K : Type} (m : UnorderedMap K ℤ) : ℤ := (m.entries.map fun e => e.snd).sum

/-- An insertion replaces the value of the key in the sum. -/
theorem total_insert {K : Type} [DecidableEq K] (m : UnorderedMap K ℤ) (k : K) (v : ℤ) :
    total (m.insert k v) = total m - (m.lookup k).getD 0 + v := by
  have herase : ∀ l : List (Sigma fun _ : K => ℤ), ((l.kerase k).map fun e => e.snd).sum =
      (l.map fun e => e.snd).sum - (l.dlookup k).getD 0 := by
    intro l
    induction l with
    | nil => rfl
    | cons e l ih =>
      obtain ⟨k', v'⟩ := e
      by_cases hk : k = k'
      · subst hk
        have hself : List.kerase k ((⟨k, v'⟩ : Sigma fun _ : K => ℤ) :: l) = l :=
          List.kerase_cons_eq rfl
        rw [hself, List.dlookup_cons_eq, List.map_cons, List.sum_cons, Option.getD_some]
        dsimp only
        omega
      · have hother : List.kerase k ((⟨k', v'⟩ : Sigma fun _ : K => ℤ) :: l) =
            ⟨k', v'⟩ :: l.kerase k := List.kerase_cons_ne hk
        rw [hother, List.dlookup_cons_ne _ _ hk, List.map_cons, List.map_cons,
          List.sum_cons, List.sum_cons, ih]
        omega
  unfold total
  rw [AList.entries_insert, List.map_cons, List.sum_cons, herase]
  exact Int.add_comm _ _

/-- How many values of a map satisfy `p`. -/
def count {K V : Type} (p : V → Bool) (m : UnorderedMap K V) : ℕ := m.entries.countP fun e => p e.snd

/-- The first value of a list counts or not. -/
theorem countP_cons_snd {K V : Type} (p : V → Bool) (k : K) (v : V) (l : List (Sigma fun _ : K => V)) :
    (((⟨k, v⟩ : Sigma fun _ : K => V) :: l).countP fun e => p e.snd) =
      (l.countP fun e => p e.snd) + (p v).toNat := by
  rw [List.countP_cons]
  cases p v <;> rfl

/-- Without a key its value no longer counts. -/
theorem count_erase {K V : Type} [DecidableEq K] (p : V → Bool) (m : UnorderedMap K V) (k : K) :
    count p (m.erase k) + (m.lookup k).elim 0 (fun v => (p v).toNat) = count p m := by
  have herase : ∀ l : List (Sigma fun _ : K => V), ((l.kerase k).countP fun e => p e.snd) +
      (l.dlookup k).elim 0 (fun v => (p v).toNat) = l.countP fun e => p e.snd := by
    intro l
    induction l with
    | nil => rfl
    | cons e l ih =>
      obtain ⟨k', v'⟩ := e
      by_cases hk : k = k'
      · subst hk
        have hself : List.kerase k ((⟨k, v'⟩ : Sigma fun _ : K => V) :: l) = l :=
          List.kerase_cons_eq rfl
        rw [hself, List.dlookup_cons_eq, countP_cons_snd]
        rfl
      · have hother : List.kerase k ((⟨k', v'⟩ : Sigma fun _ : K => V) :: l) =
            ⟨k', v'⟩ :: l.kerase k := List.kerase_cons_ne hk
        rw [hother, List.dlookup_cons_ne _ _ hk, countP_cons_snd, countP_cons_snd, ← ih]
        exact Nat.add_right_comm _ _ _
  exact herase m.entries

/-- An insertion replaces the value of the key in the count. -/
theorem count_insert {K V : Type} [DecidableEq K] (p : V → Bool) (m : UnorderedMap K V) (k : K) (v : V) :
    count p (m.insert k v) + (m.lookup k).elim 0 (fun v => (p v).toNat) = count p m + (p v).toNat := by
  rw [← count_erase p m k]
  unfold count
  rw [AList.entries_insert, countP_cons_snd]
  exact Nat.add_right_comm _ _ _

/-- The order of traversal that a hash table happens to have. -/
structure HashOrder where
  arrange : ∀ {α : Type}, List α → List α
  perm : ∀ {α : Type} (l : List α), (arrange l).Perm l

namespace HashOrder

/-- The order of insertion, as one possible order of traversal. -/
def insertion : HashOrder := ⟨fun l => l, fun l => List.Perm.refl l⟩

variable (order : HashOrder)

/-- A traversal has the elements of the container. -/
@[simp] theorem mem_arrange {α : Type} {l : List α} {a : α} : a ∈ order.arrange l ↔ a ∈ l :=
  (order.perm l).mem_iff

/-- A traversal of a set of strings. -/
def elements (s : Finset String) : List String := order.arrange (s.sort (· ≤ ·))

@[simp] theorem mem_elements {s : Finset String} {a : String} : a ∈ order.elements s ↔ a ∈ s := by
  simp [elements]

/-- A traversal of a set loses nothing but the set's order. -/
@[simp] theorem toFinset_elements (s : Finset String) : (order.elements s).toFinset = s := by
  ext a
  rw [List.mem_toFinset, mem_elements]

/-- A traversal of a set meets each element once. -/
theorem nodup_elements (s : Finset String) : (order.elements s).Nodup :=
  (order.perm _).nodup_iff.mpr (Finset.sort_nodup _ _)

/-- A traversal of a map's values. -/
def values {K V : Type} (m : UnorderedMap K V) : List V :=
  (order.arrange m.entries).map fun e => e.snd

/-- A traversal of a map meets the values that are stored. -/
theorem mem_values {K V : Type} [DecidableEq K] {m : UnorderedMap K V} {v : V} :
    v ∈ order.values m ↔ ∃ k, m.lookup k = some v := by
  unfold values
  rw [List.mem_map]
  constructor
  · rintro ⟨e, he, rfl⟩
    exact ⟨e.fst, AList.mem_lookup_iff.mpr (order.mem_arrange.mp he)⟩
  · rintro ⟨k, hk⟩
    exact ⟨⟨k, v⟩, order.mem_arrange.mpr (AList.mem_lookup_iff.mp hk), rfl⟩

/-- A part of the value that determines the key is met once. -/
theorem nodup_map_values {K V P : Type} [DecidableEq K] {m : UnorderedMap K V} (part : V → P)
    (key : P → K) (hkey : ∀ k v, m.lookup k = some v → key (part v) = k) :
    ((order.values m).map part).Nodup := by
  unfold values
  rw [List.map_map]
  refine ((order.perm _).map _).nodup_iff.mpr (List.Nodup.of_map key ?_)
  rw [List.map_map, List.map_congr_left (g := Sigma.fst)]
  · exact m.nodupKeys
  · intro e he
    exact hkey _ _ (AList.mem_lookup_iff.mpr he)

end HashOrder

end Store
