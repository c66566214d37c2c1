import SignalRoute.Clients.Postgres
import SignalRoute.Store.Unordered

/-!
# The fence registry

`src/geofence/fence_registry.cpp`: the active fences by id, and an inverted index from cells to the
ids of the fences that cover them. The index is rebuilt on every load, so a lookup finds exactly the
loaded fences that cover the cell (`Loaded.mem_get_candidates`).
-/

namespace SignalRoute

open Store (UnorderedMap HashOrder)

/-- `FenceRegistry`. -/
structure FenceRegistry where
  fences : UnorderedMap String GeofenceRule := ∅
  cell_to_fences : UnorderedMap ℤ (List String) := ∅

namespace FenceRegistry

/-- `cell_to_fences_[cell].push_back(fence_id)`. -/
def push (index : UnorderedMap ℤ (List String)) (cell : ℤ) (fence_id : String) :
    UnorderedMap ℤ (List String) :=
  index.insert cell ((index.lookup cell).getD [] ++ [fence_id])

/-- `rebuild_index`, where the tables are traversed in the given order. -/
def rebuild_index (order : HashOrder) (registry : FenceRegistry) : FenceRegistry :=
  { registry with
    cell_to_fences := (order.arrange registry.fences.entries).foldl (fun index entry =>
      (order.arrange (entry.snd.h3_cells.sort (· ≤ ·))).foldl
        (fun index cell => push index cell entry.fst) index) ∅ }

/-- `load`, which is also `reload`. -/
def load (order : HashOrder) (pg : PostgresClient) : FenceRegistry :=
  rebuild_index order
    { fences := pg.load_active_fences.foldl (fun fences rule => fences.insert rule.fence_id rule) ∅ }

/-- `get_candidates`. -/
def get_candidates (registry : FenceRegistry) (h3_cell : ℤ) : List GeofenceRule :=
  ((registry.cell_to_fences.lookup h3_cell).getD []).filterMap registry.fences.lookup

/-- `get_fence`. -/
def get_fence (registry : FenceRegistry) (fence_id : String) : Option GeofenceRule :=
  registry.fences.lookup fence_id

/-- What every load establishes: a fence is stored under its id and is active, and the index lists the
ids of the fences that cover a cell. -/
structure Loaded (registry : FenceRegistry) : Prop where
  fence_id_eq : ∀ id fence, registry.fences.lookup id = some fence → fence.fence_id = id
  active : ∀ id fence, registry.fences.lookup id = some fence → fence.active = true
  mem_index : ∀ cell id, id ∈ (registry.cell_to_fences.lookup cell).getD [] ↔
    ∃ fence, registry.fences.lookup id = some fence ∧ cell ∈ fence.h3_cells

/-- The empty registry. -/
theorem loaded_empty : ({} : FenceRegistry).Loaded where
  fence_id_eq _ _ h := by cases h
  active _ _ h := by cases h
  mem_index cell id := by simp

/-- What is pushed under a cell is listed there, and nothing else changes. -/
theorem mem_push (index : UnorderedMap ℤ (List String)) (c cell : ℤ) (id fence_id : String) :
    id ∈ ((push index c fence_id).lookup cell).getD [] ↔
      (cell = c ∧ fence_id = id) ∨ id ∈ (index.lookup cell).getD [] := by
  unfold push
  by_cases hc : cell = c
  · subst hc
    simp [or_comm, eq_comm]
  · simp [hc]

/-- What is pushed for the cells of one fence. -/
theorem mem_push_cells (cells : List ℤ) (index : UnorderedMap ℤ (List String)) (cell : ℤ)
    (id fence_id : String) :
    id ∈ ((cells.foldl (fun index cell => push index cell fence_id) index).lookup cell).getD [] ↔
      (cell ∈ cells ∧ fence_id = id) ∨ id ∈ (index.lookup cell).getD [] := by
  induction cells generalizing index with
  | nil => simp
  | cons c cells ih =>
    rw [List.foldl_cons, ih, mem_push, List.mem_cons]
    tauto

/-- What is pushed for a list of fences, where `cells` lists the cells of a fence. -/
theorem mem_push_fences (cells : GeofenceRule → List ℤ) (entries : List (Σ _ : String, GeofenceRule))
    (index : UnorderedMap ℤ (List String)) (cell : ℤ) (id : String) :
    id ∈ ((entries.foldl (fun index entry =>
        (cells entry.snd).foldl (fun index cell => push index cell entry.fst) index) index).lookup
          cell).getD [] ↔
      (∃ entry ∈ entries, entry.fst = id ∧ cell ∈ cells entry.snd) ∨
        id ∈ (index.lookup cell).getD [] := by
  induction entries generalizing index with
  | nil => simp
  | cons entry entries ih =>
    rw [List.foldl_cons, ih, mem_push_cells]
    simp only [List.mem_cons, exists_eq_or_imp]
    grind

/-- The fences of a load are rules of the list, under their ids. -/
theorem lookup_insert_rules (rules : List GeofenceRule) (fences : UnorderedMap String GeofenceRule)
    {id : String} {fence : GeofenceRule}
    (h : (rules.foldl (fun fences rule => fences.insert rule.fence_id rule) fences).lookup id =
      some fence) :
    (fence ∈ rules ∧ fence.fence_id = id) ∨ fences.lookup id = some fence := by
  induction rules generalizing fences with
  | nil => exact .inr h
  | cons rule rules ih =>
    rcases ih _ h with ⟨hmem, hid⟩ | hl
    · exact .inl ⟨List.mem_cons_of_mem _ hmem, hid⟩
    · by_cases hid : id = rule.fence_id
      · subst hid
        rw [AList.lookup_insert] at hl
        cases hl
        exact .inl ⟨List.mem_cons_self, rfl⟩
      · rw [AList.lookup_insert_ne hid] at hl
        exact .inr hl

/-- A load, whatever was loaded before. -/
theorem loaded_load (order : HashOrder) (pg : PostgresClient) : (load order pg).Loaded where
  fence_id_eq id fence h := by
    rcases lookup_insert_rules _ _ h with ⟨-, hid⟩ | hl
    · exact hid
    · cases hl
  active id fence h := by
    rcases lookup_insert_rules _ _ h with ⟨hmem, -⟩ | hl
    · exact (List.mem_filter.mp hmem).2
    · cases hl
  mem_index cell id := by
    unfold load rebuild_index
    rw [mem_push_fences fun fence => order.arrange (fence.h3_cells.sort (· ≤ ·))]
    simp only [HashOrder.mem_arrange, Finset.mem_sort, AList.lookup_empty, Option.getD_none, List.not_mem_nil,
      or_false]
    constructor
    · rintro ⟨⟨key, fence⟩, hmem, rfl, hcell⟩
      exact ⟨fence, AList.mem_lookup_iff.mpr hmem, hcell⟩
    · rintro ⟨fence, hl, hcell⟩
      exact ⟨⟨id, fence⟩, AList.mem_lookup_iff.mp hl, rfl, hcell⟩

/-- The candidates of a cell are the loaded fences that cover it. -/
theorem Loaded.mem_get_candidates {registry : FenceRegistry} (h : registry.Loaded) {cell : ℤ}
    {fence : GeofenceRule} :
    fence ∈ registry.get_candidates cell ↔
      registry.fences.lookup fence.fence_id = some fence ∧ cell ∈ fence.h3_cells := by
  unfold get_candidates
  rw [List.mem_filterMap]
  constructor
  · rintro ⟨id, hid, hl⟩
    obtain ⟨fence', hl', hcell⟩ := (h.mem_index cell id).mp hid
    rw [hl] at hl'
    cases hl'
    rw [h.fence_id_eq id fence hl]
    exact ⟨hl, hcell⟩
  · rintro ⟨hl, hcell⟩
    exact ⟨_, (h.mem_index cell _).mpr ⟨fence, hl, hcell⟩, hl⟩

end FenceRegistry

end SignalRoute
