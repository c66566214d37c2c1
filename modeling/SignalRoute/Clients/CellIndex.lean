import SignalRoute.Clients.Redis

/-!
# The cell index over a run (in-memory build)

The states and the cell sets of one `RedisClient`, whose clients write device states and sweep the
index in any order (`IndexRun`). Both calls keep the index dual to the states: a write moves its
device from one set to the other (`Indexed.update_device_state_cas`), and a sweep finds nothing to
remove (`Indexed.members_remove_stale`). So every reachable index says where each stored device is
(`index_represents`).
-/

namespace SignalRoute

open Store (HashOrder)

namespace RedisClient

/-- A turn of the loop in `remove_stale_cell_members`, with what has been removed and touched so
far: the members without a state go, and a set that becomes empty goes away. -/
def sweep_cell (swept : (ℕ × ℕ) × RedisClient) (cell_id : ℤ) : (ℕ × ℕ) × RedisClient :=
  let ((removed, touched), redis) := swept
  match redis.cell_devices.lookup cell_id with
  | none => swept
  | some devices =>
    let kept := devices.filter fun d => (redis.device_states.lookup d).isSome
    let removed_from_cell := devices.card - kept.card
    let counts :=
      if removed_from_cell > 0 then (removed + removed_from_cell, touched + 1) else (removed, touched)
    (counts, { redis with
      cell_devices :=
        if kept = ∅ then redis.cell_devices.erase cell_id
        else redis.cell_devices.insert cell_id kept })

/-- `remove_stale_cell_members`. -/
def remove_stale_cell_members (redis : RedisClient) (order : HashOrder) : (ℕ × ℕ) × RedisClient :=
  (order.arrange redis.cell_devices.keys).foldl sweep_cell ((0, 0), redis)

section Sweep

variable (swept : (ℕ × ℕ) × RedisClient) (cell_id : ℤ)

/-- A sweep of a cell leaves the states alone. -/
@[simp] theorem device_states_sweep_cell :
    (sweep_cell swept cell_id).2.device_states = swept.2.device_states := by
  unfold sweep_cell
  dsimp only
  split <;> rfl

/-- The set of the cell loses the members without a state, and no other set changes. -/
theorem members_sweep_cell (c : ℤ) :
    (sweep_cell swept cell_id).2.members c =
      if c = cell_id then
        (swept.2.members c).filter fun d => (swept.2.device_states.lookup d).isSome
      else swept.2.members c := by
  obtain ⟨counts, redis⟩ := swept
  unfold sweep_cell members
  dsimp only
  -- The set of the cell is filtered, and goes if nothing is left; the others are not touched.
  by_cases hc : c = cell_id
  · subst hc
    rw [if_pos rfl]
    cases hl : redis.cell_devices.lookup c with
    | none => simp [hl]
    | some devices =>
      dsimp only
      split
      · rename_i hempty
        rw [AList.lookup_erase, Option.getD_some, hempty]
        rfl
      · rw [AList.lookup_insert]
        rfl
  · rw [if_neg hc]
    cases redis.cell_devices.lookup cell_id with
    | none => rfl
    | some devices =>
      dsimp only
      split
      · rw [AList.lookup_erase_ne hc]
      · rw [AList.lookup_insert_ne hc]

/-- A sweep of a cell leaves no set empty that was not, and the cell's own set not at all. -/
theorem lookup_sweep_cell_eq_empty {c : ℤ}
    (h : (sweep_cell swept cell_id).2.cell_devices.lookup c = some ∅) :
    c ≠ cell_id ∧ swept.2.cell_devices.lookup c = some ∅ := by
  obtain ⟨counts, redis⟩ := swept
  unfold sweep_cell at h
  dsimp only at h ⊢
  by_cases hc : c = cell_id
  · exfalso
    subst hc
    cases hl : redis.cell_devices.lookup c with
    | none =>
      rw [hl] at h
      dsimp only at h
      rw [hl] at h
      cases h
    | some devices =>
      rw [hl] at h
      dsimp only at h
      split at h
      · rw [AList.lookup_erase] at h
        cases h
      · rename_i hkept
        rw [AList.lookup_insert] at h
        exact hkept (Option.some.inj h)
  · refine ⟨hc, ?_⟩
    split at h
    · exact h
    · dsimp only at h
      split at h
      · rwa [AList.lookup_erase_ne hc] at h
      · rwa [AList.lookup_insert_ne hc] at h

/-- What the loop over the cells keeps of the states, of the sets that it has not come to, and of those
that it has. -/
theorem foldl_sweep_cell (cells : List ℤ) (swept : (ℕ × ℕ) × RedisClient) :
    (cells.foldl sweep_cell swept).2.device_states = swept.2.device_states ∧
      (∀ c, (cells.foldl sweep_cell swept).2.cell_devices.lookup c = some ∅ →
        c ∉ cells ∧ swept.2.cell_devices.lookup c = some ∅) ∧
      ∀ c, (cells.foldl sweep_cell swept).2.members c =
        if c ∈ cells then (swept.2.members c).filter fun d => (swept.2.device_states.lookup d).isSome
        else swept.2.members c := by
  induction cells generalizing swept with
  | nil => exact ⟨rfl, fun c h => ⟨List.not_mem_nil, h⟩, fun c => (if_neg List.not_mem_nil).symm⟩
  | cons cell cells ih =>
    obtain ⟨hstates, hempty, hmembers⟩ := ih (sweep_cell swept cell)
    rw [device_states_sweep_cell] at hstates
    refine ⟨hstates, fun c h => ?_, fun c => ?_⟩
    · obtain ⟨hcells, hlookup⟩ := hempty c h
      obtain ⟨hcell, hlookup⟩ := lookup_sweep_cell_eq_empty swept cell hlookup
      exact ⟨List.not_mem_cons_of_ne_of_not_mem hcell hcells, hlookup⟩
    rw [List.foldl_cons, hmembers, device_states_sweep_cell, members_sweep_cell]
    by_cases hc : c = cell
    · -- Filtering twice is filtering once.
      subst hc
      rw [if_pos rfl, if_pos List.mem_cons_self, Finset.filter_filter]
      simp only [and_self, ite_self]
    · rw [if_neg hc]
      simp only [List.mem_cons, hc, false_or]

end Sweep

variable {redis : RedisClient}

/-- In a true index there is nothing to remove. -/
theorem Indexed.members_remove_stale (h : redis.Indexed) (order : HashOrder) (c : ℤ) :
    (redis.remove_stale_cell_members order).2.members c = redis.members c := by
  obtain ⟨-, -, hmembers⟩ := foldl_sweep_cell (order.arrange redis.cell_devices.keys) ((0, 0), redis)
  unfold remove_stale_cell_members
  rw [hmembers]
  split
  · refine Finset.filter_true_of_mem fun d hd => ?_
    obtain ⟨st, hst, -⟩ := (h.mem_iff c d).mp hd
    rw [hst]
    rfl
  · rfl

/-- A sweep keeps the index true to the states. -/
theorem Indexed.remove_stale_cell_members (h : redis.Indexed) (order : HashOrder) :
    (redis.remove_stale_cell_members order).2.Indexed := by
  obtain ⟨hstates, hempty, -⟩ := foldl_sweep_cell (order.arrange redis.cell_devices.keys) ((0, 0), redis)
  have hlookup : (redis.remove_stale_cell_members order).2.device_states = redis.device_states := hstates
  refine ⟨?_, ?_, fun c hc => h.no_empty c (hempty c hc).2⟩
  · rw [hlookup]
    exact h.device_id_eq
  · intro c d
    rw [h.members_remove_stale, hlookup]
    exact h.mem_iff c d

/-- A device in the index is in one set. -/
theorem Indexed.existsUnique_cell (h : redis.Indexed) {d : String} {st : DeviceState}
    (hst : redis.get_device_state d = some st) : ∃! c, d ∈ redis.members c := by
  refine ⟨st.h3_cell, (h.mem_iff _ d).mpr ⟨st, hst, rfl⟩, fun c hc => ?_⟩
  obtain ⟨st', hst', rfl⟩ := (h.mem_iff c d).mp hc
  rw [Option.some.inj (hst'.symm.trans hst)]

/-- Any list of cells with the cell of a device has the device once. -/
theorem Indexed.count_get_devices_in_cells (h : redis.Indexed) {d : String} {st : DeviceState}
    (hst : redis.get_device_state d = some st) (order : HashOrder) {cells : List ℤ}
    (hcell : st.h3_cell ∈ cells) : (redis.get_devices_in_cells order cells).count d = 1 := by
  refine List.count_eq_one_of_mem (order.nodup_elements _) ?_
  rw [mem_get_devices_in_cells]
  exact ⟨st.h3_cell, hcell, (h.mem_iff _ d).mpr ⟨st, hst, rfl⟩⟩

end RedisClient

/-- The stores that the clients can reach from an empty one, each with the writes that it has
accepted. -/
inductive IndexRun : List (String × ℕ) → RedisClient → Prop
  | start : IndexRun [] {}
  | update_device_state_cas {accepted : List (String × ℕ)} {redis : RedisClient} (device_id : String)
      (state : DeviceState) : IndexRun accepted redis →
      IndexRun
        (if (redis.update_device_state_cas device_id state).1 then accepted ++ [(device_id, state.seq)]
          else accepted)
        (redis.update_device_state_cas device_id state).2
  | remove_stale_cell_members {accepted : List (String × ℕ)} {redis : RedisClient} (order : HashOrder) :
      IndexRun accepted redis → IndexRun accepted (redis.remove_stale_cell_members order).2

namespace IndexRun

variable {accepted : List (String × ℕ)} {redis : RedisClient}

/-- Every reachable index is true to the states. -/
theorem indexed (h : IndexRun accepted redis) : redis.Indexed := by
  induction h with
  | start => exact RedisClient.Indexed.empty
  | update_device_state_cas device_id state _ ih => exact ih.update_device_state_cas device_id state
  | remove_stale_cell_members order _ ih => exact ih.remove_stale_cell_members order

/-- What has been accepted of a device is not newer than its state. -/
theorem le_stored (h : IndexRun accepted redis) {d : String} {s : ℕ} (hmem : (d, s) ∈ accepted) :
    ∃ st, redis.get_device_state d = some st ∧ s ≤ st.seq := by
  induction h with
  | start => cases hmem
  | @update_device_state_cas accepted redis device_id state _ ih =>
    -- A rejected write accepts nothing.
    cases hacc : (redis.update_device_state_cas device_id state).1 with
    | false =>
      rw [hacc, if_neg Bool.false_ne_true] at hmem
      rw [redis.update_device_state_cas_rejected hacc]
      exact ih hmem
    | true =>
      rw [hacc, if_pos rfl, List.mem_append, List.mem_singleton] at hmem
      unfold RedisClient.get_device_state
      rw [redis.lookup_update_device_state_cas hacc]
      by_cases hd : d = device_id
      · rw [if_pos hd]
        refine ⟨_, rfl, ?_⟩
        -- What was accepted before is at most the stored number, which is smaller than the new one.
        rcases hmem with hold | hnew
        · obtain ⟨st, hst, hle⟩ := ih hold
          rw [hd] at hst
          have hlt : st.seq < state.seq := (redis.update_device_state_cas_fst _ _).mp hacc st hst
          exact hle.trans hlt.le
        · rw [(Prod.mk.inj hnew).2]
      · rw [if_neg hd]
        exact ih (hmem.resolve_right fun hnew => hd (Prod.mk.inj hnew).1)
  | remove_stale_cell_members order hrun ih =>
    -- A sweep leaves the states as they are.
    obtain ⟨st, hst, hle⟩ := ih hmem
    obtain ⟨hstates, -⟩ := RedisClient.foldl_sweep_cell (order.arrange _) ((0, 0), _)
    refine ⟨st, ?_, hle⟩
    unfold RedisClient.get_device_state at hst ⊢
    rw [← hst]
    exact congrArg (AList.lookup d) hstates

/-- The accepted sequence numbers of a device increase. -/
theorem increasing (h : IndexRun accepted redis) :
    accepted.Pairwise fun a b => a.1 = b.1 → a.2 < b.2 := by
  induction h with
  | start => exact List.Pairwise.nil
  | @update_device_state_cas accepted redis device_id state hrun ih =>
    split
    · rename_i hacc
      refine List.pairwise_append.mpr ⟨ih, List.pairwise_singleton _ _, fun a ha b hb heq => ?_⟩
      cases List.mem_singleton.mp hb
      obtain ⟨st, hst, hle⟩ := hrun.le_stored ha
      rw [heq] at hst
      have hlt : st.seq < state.seq := (redis.update_device_state_cas_fst _ _).mp hacc st hst
      exact hle.trans_lt hlt
    · exact ih
  | remove_stale_cell_members order _ ih => exact ih

end IndexRun

/-- In every reachable store, a device is a member of a cell exactly when its state is in that cell.
So each stored device is in one set and is found once in every list of cells that has its own, and
no set is empty. The accepted sequence numbers of a device increase along the run. -/
theorem index_represents {accepted : List (String × ℕ)} {redis : RedisClient} (h : IndexRun accepted redis) :
    (∀ c d, d ∈ redis.members c ↔ ∃ st, redis.get_device_state d = some st ∧ st.h3_cell = c) ∧
      (∀ d st, redis.get_device_state d = some st → (∃! c, d ∈ redis.members c) ∧
        ∀ order cells, st.h3_cell ∈ cells → (redis.get_devices_in_cells order cells).count d = 1) ∧
      redis.NoEmptyCell ∧
      accepted.Pairwise fun a b => a.1 = b.1 → a.2 < b.2 := by
  refine ⟨h.indexed.mem_iff, fun d st hst => ⟨h.indexed.existsUnique_cell hst, ?_⟩, h.indexed.no_empty,
    h.increasing⟩
  exact fun order cells hcell => h.indexed.count_get_devices_in_cells hst order hcell

/-- A device has been in two cells, and the index has been swept. -/
def moved_and_swept : RedisClient :=
  let redis := (({} : RedisClient).update_device_state_cas "d" { device_id := "d", seq := 1, h3_cell := 5 }).2
  let redis := (redis.update_device_state_cas "d" { device_id := "d", seq := 2, h3_cell := 7 }).2
  (redis.remove_stale_cell_members .insertion).2

/-- It is found in the second cell. -/
theorem index_represents_moved :
    (∀ c d, d ∈ moved_and_swept.members c ↔
        ∃ st, moved_and_swept.get_device_state d = some st ∧ st.h3_cell = c) ∧
      (∀ d st, moved_and_swept.get_device_state d = some st → (∃! c, d ∈ moved_and_swept.members c) ∧
        ∀ order cells, st.h3_cell ∈ cells →
          (moved_and_swept.get_devices_in_cells order cells).count d = 1) ∧
      moved_and_swept.NoEmptyCell ∧
      ([("d", 1), ("d", 2)] : List (String × ℕ)).Pairwise fun a b => a.1 = b.1 → a.2 < b.2 :=
  index_represents (.remove_stale_cell_members .insertion
    (.update_device_state_cas "d" { device_id := "d", seq := 2, h3_cell := 7 }
      (.update_device_state_cas "d" { device_id := "d", seq := 1, h3_cell := 5 } .start)))

end SignalRoute
