import SignalRoute.Composition
import SignalRoute.Geofence.Evaluator

/-!
# The cell prefilter

Location events of one device go through the state writer and the composition root to the evaluator,
which tests the fences of the new and the old cell only (`Pipeline.evaluate`). A reference evaluator
tests every fence on every accepted event (`Pipeline.evaluate_all`). Where each fence is indexed
under the cells of all points inside it, the two insert the same records for every fence, except
when an event takes the device out of cell zero: the old cell of the request then reads as the
sentinel for no previous cell, and a fence of cell zero that the device was inside is not tested
(`LosesExit`, `same_records_iff`). Cell zero exists at resolution zero only, at the south pole.

The simulation relation `Pipeline.Sim` says that the two runs agree on every fence, and that the
device is stored in a cell of every fence that it is inside.
-/

namespace SignalRoute

open Store (UnorderedMap HashOrder)
open Numeric (Double Format)

namespace Evaluator

/-- What a table of candidates has after a list of fences: fences of the list, under their ids, and
what it had before. -/
theorem lookup_insert_active (fences : List GeofenceRule)
    (table : UnorderedMap String GeofenceRule) {id : String} {fence : GeofenceRule}
    (h : (fences.foldl insert_active table).lookup id = some fence) :
    (fence ∈ fences ∧ fence.fence_id = id) ∨ table.lookup id = some fence := by
  induction fences generalizing table with
  | nil => exact .inr h
  | cons f fences ih =>
    rcases ih _ h with ⟨hmem, hid⟩ | hl
    · exact .inl ⟨List.mem_cons_of_mem _ hmem, hid⟩
    · unfold insert_active at hl
      split at hl
      · by_cases hid : id = f.fence_id
        · subst hid
          rw [AList.lookup_insert] at hl
          cases hl
          exact .inl ⟨List.mem_cons_self, rfl⟩
        · rw [AList.lookup_insert_ne hid] at hl
          exact .inr hl
      · exact .inr hl

/-- A table of candidates keeps every id that it had. -/
theorem isSome_lookup_insert_active (fences : List GeofenceRule)
    (table : UnorderedMap String GeofenceRule) {id : String}
    (h : (table.lookup id).isSome ∨ ∃ fence ∈ fences, fence.active = true ∧ fence.fence_id = id) :
    ((fences.foldl insert_active table).lookup id).isSome := by
  induction fences generalizing table with
  | nil => simpa using h
  | cons f fences ih =>
    refine ih _ ?_
    -- The id is that of the fence now inserted, or it is in the table or still to come.
    by_cases hid : f.active = true ∧ f.fence_id = id
    · obtain ⟨hactive, rfl⟩ := hid
      exact .inl (by simp [insert_active, hactive])
    · rcases h with h | ⟨fence, hmem, hactive, hfence⟩
      · left
        unfold insert_active
        split
        · by_cases hf : id = f.fence_id
          · rw [hf, AList.lookup_insert]
            rfl
          · rwa [AList.lookup_insert_ne hf]
        · exact h
      · rcases List.mem_cons.mp hmem with rfl | hmem
        · exact absurd ⟨hactive, hfence⟩ hid
        · exact .inr ⟨fence, hmem, hactive, hfence⟩

variable {registry : FenceRegistry} {old_h3 new_h3 : ℤ}

/-- A fence of the new cell, or of an old cell that counts. -/
def Considered (old_h3 new_h3 : ℤ) (fence : GeofenceRule) : Prop :=
  new_h3 ∈ fence.h3_cells ∨ (old_h3 ≠ 0 ∧ old_h3 ≠ new_h3 ∧ old_h3 ∈ fence.h3_cells)

/-- Every candidate is a loaded fence, under its id, of a cell that counts. -/
theorem lookup_candidates (hr : registry.Loaded) {id : String} {fence : GeofenceRule}
    (h : (candidates registry old_h3 new_h3).lookup id = some fence) :
    fence.fence_id = id ∧ registry.fences.lookup fence.fence_id = some fence ∧
      Considered old_h3 new_h3 fence := by
  -- The candidates of the new cell come first, and those of the old one are inserted over them.
  have hnew : ((registry.get_candidates new_h3).foldl insert_active ∅).lookup id = some fence →
      fence.fence_id = id ∧ registry.fences.lookup fence.fence_id = some fence ∧
        Considered old_h3 new_h3 fence := by
    intro h
    rcases lookup_insert_active _ _ h with ⟨hmem, hid⟩ | hl
    · obtain ⟨hl, hcell⟩ := hr.mem_get_candidates.mp hmem
      exact ⟨hid, hl, .inl hcell⟩
    · cases hl
  unfold candidates at h
  dsimp only at h
  split at h
  · rename_i hold
    rcases lookup_insert_active _ _ h with ⟨hmem, hid⟩ | hl
    · obtain ⟨hl, hcell⟩ := hr.mem_get_candidates.mp hmem
      exact ⟨hid, hl, .inr ⟨hold.1, hold.2, hcell⟩⟩
    · exact hnew hl
  · exact hnew h

/-- No two candidates have the same id. -/
theorem nodup_candidates (hr : registry.Loaded) (order : HashOrder) :
    ((order.values (candidates registry old_h3 new_h3)).map GeofenceRule.fence_id).Nodup :=
  order.nodup_map_values _ id fun _ _ h => (lookup_candidates hr h).1

/-- The candidates are the loaded fences of the cells that count. -/
theorem mem_candidates (hr : registry.Loaded) (order : HashOrder) {fence : GeofenceRule} :
    fence ∈ order.values (candidates registry old_h3 new_h3) ↔
      registry.fences.lookup fence.fence_id = some fence ∧ Considered old_h3 new_h3 fence := by
  constructor
  · intro hmem
    obtain ⟨id, hl⟩ := order.mem_values.mp hmem
    exact (lookup_candidates hr hl).2
  rintro ⟨hl, hcell⟩
  have hactive := hr.active _ _ hl
  have hsome : ((candidates registry old_h3 new_h3).lookup fence.fence_id).isSome := by
    unfold candidates
    dsimp only
    -- A fence of either cell has an entry under its id, which can only be the fence itself.
    rcases hcell with hnew | ⟨h0, hne, hold⟩
    · have hfirst : (((registry.get_candidates new_h3).foldl insert_active ∅).lookup
          fence.fence_id).isSome :=
        isSome_lookup_insert_active _ _
          (.inr ⟨fence, hr.mem_get_candidates.mpr ⟨hl, hnew⟩, hactive, rfl⟩)
      split
      · exact isSome_lookup_insert_active _ _ (.inl hfirst)
      · exact hfirst
    · rw [if_pos ⟨h0, hne⟩]
      exact isSome_lookup_insert_active _ _
        (.inr ⟨fence, hr.mem_get_candidates.mpr ⟨hl, hold⟩, hactive, rfl⟩)
  obtain ⟨fence', hfence'⟩ := Option.isSome_iff_exists.mp hsome
  obtain ⟨hid, hl', -⟩ := lookup_candidates hr hfence'
  rw [hid, hl] at hl'
  cases hl'
  exact order.mem_values.mpr ⟨_, hfence'⟩

end Evaluator

section Tests

variable {event_topic device_id : String} {lat lon : Double} {timestamp_ms : ℤ}
  {store store' : GeofenceStore} {fence : GeofenceRule}

/-- The fence has been tested: where it was crossed, it has the new state and one more record. -/
structure Tested (device_id : String) (lat lon : Double) (timestamp_ms : ℤ)
    (store store' : GeofenceStore) (fence : GeofenceRule) : Prop where
  state_eq : store'.state device_id fence.fence_id =
    match Evaluator.crossing (geo.point_in_polygon lat lon fence.polygon_vertices)
        (store.state device_id fence.fence_id) with
    | none => store.state device_id fence.fence_id
    | some event => stateAfter (some event)
  records_eq : recordsOf device_id fence.fence_id store'.events =
    recordsOf device_id fence.fence_id store.events ++
      match Evaluator.crossing (geo.point_in_polygon lat lon fence.polygon_vertices)
          (store.state device_id fence.fence_id) with
      | none => []
      | some event => [Evaluator.make_event_record device_id fence event lat lon timestamp_ms]

/-- The fence is as it was. -/
structure Untouched (device_id fence_id : String) (store store' : GeofenceStore) : Prop where
  state_eq : store'.state device_id fence_id = store.state device_id fence_id
  records_eq : recordsOf device_id fence_id store'.events = recordsOf device_id fence_id store.events

/-- A fence that is not crossed is as good as tested. -/
theorem Untouched.tested (h : Untouched device_id fence.fence_id store store')
    (hcross : Evaluator.crossing (geo.point_in_polygon lat lon fence.polygon_vertices)
      (store.state device_id fence.fence_id) = none) :
    Tested device_id lat lon timestamp_ms store store' fence :=
  ⟨by rw [hcross]; exact h.state_eq, by rw [hcross, List.append_nil]; exact h.records_eq⟩

/-- What follows a test of one fence leaves alone. -/
theorem Tested.untouched {store'' : GeofenceStore}
    (h : Tested device_id lat lon timestamp_ms store store' fence)
    (h' : Untouched device_id fence.fence_id store' store'') :
    Tested device_id lat lon timestamp_ms store store'' fence :=
  ⟨h'.state_eq.trans h.state_eq, h'.records_eq.trans h.records_eq⟩

/-- A fence that was left alone before it is tested. -/
theorem Untouched.then_tested {store'' : GeofenceStore}
    (h : Untouched device_id fence.fence_id store store')
    (h' : Tested device_id lat lon timestamp_ms store' store'' fence) :
    Tested device_id lat lon timestamp_ms store store'' fence := by
  obtain ⟨hs, hr⟩ := h'
  rw [h.state_eq] at hs hr
  rw [h.records_eq] at hr
  exact ⟨hs, hr⟩

/-- A test tests its fence. -/
theorem tested_test (store : GeofenceStore) (fence : GeofenceRule) :
    Tested device_id lat lon timestamp_ms store
      (store.test event_topic device_id lat lon timestamp_ms fence) fence := by
  unfold GeofenceStore.test
  cases hcross : Evaluator.crossing (geo.point_in_polygon lat lon fence.polygon_vertices)
      (store.state device_id fence.fence_id) with
  | none => exact Untouched.tested ⟨rfl, rfl⟩ hcross
  | some event =>
    refine ⟨?_, ?_⟩
    · rw [hcross]
      have hstate := GeofenceStore.state_transition event_topic store (stateAfter (some event))
        timestamp_ms (Evaluator.make_event_record device_id fence event lat lon timestamp_ms)
        fence.fence_id
      rw [if_pos (by rfl)] at hstate
      exact hstate
    · rw [hcross, GeofenceStore.events_transition]
      exact recordsOf_append_self rfl rfl

/-- A test leaves the other fences alone. -/
theorem untouched_test (store : GeofenceStore) (fence : GeofenceRule) {f : String}
    (hf : f ≠ fence.fence_id) :
    Untouched device_id f store (store.test event_topic device_id lat lon timestamp_ms fence) := by
  unfold GeofenceStore.test
  cases Evaluator.crossing (geo.point_in_polygon lat lon fence.polygon_vertices)
      (store.state device_id fence.fence_id) with
  | none => exact ⟨rfl, rfl⟩
  | some event =>
    refine ⟨?_, ?_⟩
    · have hstate := GeofenceStore.state_transition event_topic store (stateAfter (some event))
        timestamp_ms (Evaluator.make_event_record device_id fence event lat lon timestamp_ms) f
      rw [if_neg (by exact hf)] at hstate
      exact hstate
    · rw [GeofenceStore.events_transition, recordsOf_append_of_ne fun h => hf h.2.symm]

/-- Tests of a list of fences with different ids: these are tested, and the others left alone. -/
theorem foldl_test (event_topic device_id : String) (lat lon : Double) (timestamp_ms : ℤ)
    (fences : List GeofenceRule)
    (hnodup : (fences.map GeofenceRule.fence_id).Nodup) (store : GeofenceStore) :
    (∀ fence ∈ fences, Tested device_id lat lon timestamp_ms store
        (fences.foldl (GeofenceStore.test event_topic device_id lat lon timestamp_ms) store) fence) ∧
      ∀ f ∉ fences.map GeofenceRule.fence_id, Untouched device_id f store
        (fences.foldl (GeofenceStore.test event_topic device_id lat lon timestamp_ms) store) := by
  induction fences generalizing store with
  | nil => exact ⟨by simp, fun _ _ => ⟨rfl, rfl⟩⟩
  | cons first rest ih =>
    rw [List.map_cons, List.nodup_cons] at hnodup
    obtain ⟨htested, huntouched⟩ :=
      ih hnodup.2 (store.test event_topic device_id lat lon timestamp_ms first)
    rw [List.foldl_cons]
    refine ⟨fun fence hmem => ?_, fun f hf => ?_⟩
    · -- The first fence keeps its outcome, and the others see the state from before.
      rcases List.mem_cons.mp hmem with rfl | hmem
      · exact (tested_test store fence).untouched (huntouched _ hnodup.1)
      · have hne : fence.fence_id ≠ first.fence_id := fun heq =>
          hnodup.1 (heq ▸ List.mem_map_of_mem hmem)
        exact (untouched_test store first hne).then_tested (htested fence hmem)
    · rw [List.map_cons, List.mem_cons, not_or] at hf
      have hfirst : Untouched device_id f store
          (store.test event_topic device_id lat lon timestamp_ms first) :=
        untouched_test store first hf.1
      have hrest := huntouched f hf.2
      exact ⟨hrest.state_eq.trans hfirst.state_eq, hrest.records_eq.trans hfirst.records_eq⟩

end Tests

/-- The pipeline of one device: the resolution, the loaded fences, and the topic. Every fence is
indexed under the cell of every point that is inside it, and the device has an id, as every decoded
event does. -/
structure Pipeline where
  h3 : H3Index
  registry : FenceRegistry
  event_topic : String
  device_id : String
  orders : ℕ → HashOrder
  loaded : registry.Loaded
  event_topic_ne : event_topic ≠ ""
  device_id_ne : device_id ≠ ""
  covers : ∀ fence, registry.fences.lookup fence.fence_id = some fence → ∀ lat lon cell,
    h3.lat_lng_to_cell lat lon = .ok cell →
      geo.point_in_polygon lat lon fence.polygon_vertices = true → cell ∈ fence.h3_cells

/-- A location event of the device as it arrives: with the system clock, and the order in which the
evaluator's table happens to be traversed. -/
structure Arrival (device_id : String) where
  event : LocationEvent
  now_ms : ℤ
  order : HashOrder
  device_id_eq : event.device_id = device_id

/-- The processor's device states and the engine's stores. -/
structure PipelineWorld where
  redis : RedisClient := {}
  store : GeofenceStore := {}

namespace Pipeline

variable (p : Pipeline)

/-- The subscription of `GeofenceEventHandlers`: the evaluator. -/
def evaluate (order : HashOrder) (request : events.GeofenceEvaluationRequested) :
    GeofenceProgram Unit :=
  Evaluator.evaluate p.registry order p.event_topic request.device_id request.old_h3_cell
    request.new_h3_cell request.lat request.lon request.timestamp_ms

/-- The reference: every fence is tested. -/
def evaluate_all (order : HashOrder) (request : events.GeofenceEvaluationRequested) :
    GeofenceProgram Unit :=
  Interaction.Prog.forEach (order.values p.registry.fences) (Evaluator.evaluate_fence p.event_topic
    request.device_id request.lat request.lon request.timestamp_ms)

/-- One event goes through the pipeline: an accepted write publishes `StateWriteSucceeded`, the
composition root turns it into an evaluation request, and the evaluator handles that. -/
def handle (evaluator : HashOrder → events.GeofenceEvaluationRequested → GeofenceProgram Unit)
    (w : PipelineWorld) (arrival : Arrival p.device_id) : PipelineWorld :=
  match StateWriter.write_with_result p.h3 arrival.event arrival.now_ms w.redis with
  | (.error _, redis) => { w with redis }
  | (.ok outcome, redis) =>
    if outcome.accepted then
      let request := geofence_evaluation_requested (state_write_succeeded arrival.event outcome)
      { redis, store := w.store.after p.orders (evaluator arrival.order request) }
    else { w with redis }

/-- The events of a run, from empty stores. -/
def run (evaluator : HashOrder → events.GeofenceEvaluationRequested → GeofenceProgram Unit)
    (arrivals : List (Arrival p.device_id)) : PipelineWorld :=
  arrivals.foldl (p.handle evaluator) {}

/-- Two runs have inserted the same records for every fence. -/
def SameRecords (w w' : PipelineWorld) : Prop :=
  ∀ fence, p.registry.fences.lookup fence.fence_id = some fence →
    recordsOf p.device_id fence.fence_id w.store.events =
      recordsOf p.device_id fence.fence_id w'.store.events

/-- An accepted event takes the device out of cell zero, and out of the cells of a fence that it is
stored inside. -/
def LosesExit (w : PipelineWorld) (arrival : Arrival p.device_id) : Prop :=
  ∃ current cell fence, w.redis.get_device_state p.device_id = some current ∧
    current.seq < arrival.event.seq ∧ current.h3_cell = 0 ∧
    p.h3.lat_lng_to_cell arrival.event.lat arrival.event.lon = .ok cell ∧
    p.registry.fences.lookup fence.fence_id = some fence ∧ cell ∉ fence.h3_cells ∧
    w.store.state p.device_id fence.fence_id ≠ .OUTSIDE

/-- An event that the store accepts, and its cell. -/
structure Accepts (redis : RedisClient) (arrival : Arrival p.device_id) (cell : ℤ) : Prop where
  cell_eq : p.h3.lat_lng_to_cell arrival.event.lat arrival.event.lon = .ok cell
  newer : ∀ current, redis.get_device_state p.device_id = some current →
    current.seq < arrival.event.seq

/-- The cell that the device is stored in; zero before its first event. -/
def previous_cell (redis : RedisClient) : ℤ :=
  ((redis.get_device_state p.device_id).map DeviceState.h3_cell).getD 0

/-- The time that an accepted event is stored with. -/
def event_time (arrival : Arrival p.device_id) : ℤ :=
  (StateWriter.state_of arrival.event 0 arrival.now_ms).updated_at

/-- An event changes nothing, or it is accepted: the device moves to the cell of the event, and the
evaluator gets the old and the new cell. -/
theorem handle_cases (redis : RedisClient) (arrival : Arrival p.device_id) :
    (∀ evaluator store, p.handle evaluator ⟨redis, store⟩ arrival = ⟨redis, store⟩) ∧
        (∀ cell, ¬ p.Accepts redis arrival cell) ∨
      ∃ cell redis', p.Accepts redis arrival cell ∧
        (redis'.get_device_state p.device_id).map DeviceState.h3_cell = some cell ∧
        ∀ evaluator store, p.handle evaluator ⟨redis, store⟩ arrival = ⟨redis', store.after p.orders
          (evaluator arrival.order ⟨p.device_id, p.previous_cell redis, cell, arrival.event.lat,
            arrival.event.lon, p.event_time arrival⟩)⟩ := by
  unfold handle
  -- Coordinates off the globe throw in the resolution, and a write that is not newer is rejected.
  cases hv : valid_lat_lon arrival.event.lat arrival.event.lon with
  | false =>
    refine .inl ⟨fun evaluator store => ?_, fun cell hacc => ?_⟩
    · dsimp only
      rw [StateWriter.write_with_result_invalid hv]
    · have hcell := hacc.cell_eq
      rw [p.h3.lat_lng_to_cell_of_invalid hv] at hcell
      cases hcell
  | true =>
    obtain ⟨cell, hcell, hwrite⟩ := StateWriter.write_with_result_valid p.h3
      arrival.event arrival.now_ms redis hv
    rw [arrival.device_id_eq] at hwrite
    dsimp only at hwrite ⊢
    rw [hwrite]
    cases hcas : (redis.update_device_state_cas p.device_id
        (StateWriter.state_of arrival.event cell arrival.now_ms)).1 with
    | false =>
      refine .inl ⟨fun evaluator store => ?_, fun cell' hacc => ?_⟩
      · rw [redis.update_device_state_cas_rejected hcas]
        rfl
      · have htrue := (redis.update_device_state_cas_fst p.device_id
          (StateWriter.state_of arrival.event cell arrival.now_ms)).mpr hacc.newer
        rw [hcas] at htrue
        cases htrue
    | true =>
      refine .inr ⟨cell, (redis.update_device_state_cas p.device_id
        (StateWriter.state_of arrival.event cell arrival.now_ms)).2, ⟨hcell, ?_⟩, ?_,
        fun evaluator store => ?_⟩
      · exact (redis.update_device_state_cas_fst p.device_id
          (StateWriter.state_of arrival.event cell arrival.now_ms)).mp hcas
      · unfold RedisClient.get_device_state
        rw [redis.lookup_update_device_state_cas hcas, if_pos rfl]
        rfl
      · dsimp only
        rw [if_pos rfl]
        -- The evaluator gets the id of the stored state, which is the device's.
        have hd : (StateWriter.state_of arrival.event cell arrival.now_ms).device_id = p.device_id :=
          arrival.device_id_eq
        unfold geofence_evaluation_requested state_write_succeeded
        dsimp only
        rw [hd]
        rfl

section Evaluation

variable {p} {store : GeofenceStore} {order : HashOrder} {old_h3 new_h3 timestamp_ms : ℤ}
  {lat lon : Double} {fence : GeofenceRule}

/-- The reference tests every fence. -/
theorem tested_evaluate_all (hl : p.registry.fences.lookup fence.fence_id = some fence) :
    Tested p.device_id lat lon timestamp_ms store (store.after p.orders
      (p.evaluate_all order ⟨p.device_id, old_h3, new_h3, lat, lon, timestamp_ms⟩)) fence := by
  unfold evaluate_all
  rw [after_evaluate_fences p.event_topic_ne]
  refine (foldl_test _ _ _ _ _ _ ?_ store).1 fence (order.mem_values.mpr ⟨_, hl⟩)
  exact order.nodup_map_values _ id p.loaded.fence_id_eq

/-- The evaluator tests the fences of the cells that count, and leaves the others alone. -/
theorem evaluate_spec (hl : p.registry.fences.lookup fence.fence_id = some fence) :
    let store' := store.after p.orders
      (p.evaluate order ⟨p.device_id, old_h3, new_h3, lat, lon, timestamp_ms⟩)
    (Evaluator.Considered old_h3 new_h3 fence →
        Tested p.device_id lat lon timestamp_ms store store' fence) ∧
      (¬ Evaluator.Considered old_h3 new_h3 fence →
        Untouched p.device_id fence.fence_id store store') := by
  unfold evaluate
  dsimp only
  rw [after_evaluate p.event_topic_ne p.device_id_ne]
  obtain ⟨htested, huntouched⟩ := foldl_test p.event_topic p.device_id lat lon timestamp_ms
    (order.values (Evaluator.candidates p.registry old_h3 new_h3))
    (Evaluator.nodup_candidates p.loaded order) store
  refine ⟨fun hc => htested fence ((Evaluator.mem_candidates p.loaded order).mpr ⟨hl, hc⟩),
    fun hc => huntouched _ fun hmem => hc ?_⟩
  obtain ⟨fence', hmem', hid⟩ := List.mem_map.mp hmem
  obtain ⟨hl', hc'⟩ := (Evaluator.mem_candidates p.loaded order).mp hmem'
  rw [hid, hl] at hl'
  cases hl'
  exact hc'

end Evaluation

/-- The simulation: the run with the prefilter and the reference run agree on the device and on every
fence, and the device is stored in a cell of each fence that it is inside. -/
structure Sim (w w' : PipelineWorld) : Prop where
  redis_eq : w.redis = w'.redis
  state_eq : ∀ fence, p.registry.fences.lookup fence.fence_id = some fence →
    w.store.state p.device_id fence.fence_id = w'.store.state p.device_id fence.fence_id
  records_eq : p.SameRecords w w'
  located : ∀ fence, p.registry.fences.lookup fence.fence_id = some fence →
    w.store.state p.device_id fence.fence_id ≠ .OUTSIDE →
      ∃ current, w.redis.get_device_state p.device_id = some current ∧
        current.h3_cell ∈ fence.h3_cells

variable {p}

/-- A fence that is not considered is not crossed, unless its exit is lost. -/
theorem Sim.not_crossed {w w' : PipelineWorld} (h : p.Sim w w') {arrival : Arrival p.device_id}
    {cell : ℤ} (hacc : p.Accepts w.redis arrival cell) (hkeeps : ¬ p.LosesExit w arrival)
    {fence : GeofenceRule} (hl : p.registry.fences.lookup fence.fence_id = some fence)
    (hc : ¬ Evaluator.Considered (p.previous_cell w.redis) cell fence) :
    Evaluator.crossing
      (geo.point_in_polygon arrival.event.lat arrival.event.lon fence.polygon_vertices)
      (w.store.state p.device_id fence.fence_id) = none := by
  obtain ⟨hnew, hold⟩ := not_or.mp hc
  -- The cell of a fence that the device is inside of is looked at, unless it is zero.
  have houtside : w.store.state p.device_id fence.fence_id = .OUTSIDE := by
    by_contra hinside
    obtain ⟨current, hcurrent, hmem⟩ := h.located fence hl hinside
    have hprevious : p.previous_cell w.redis = current.h3_cell := by
      unfold previous_cell
      rw [hcurrent]
      rfl
    rw [hprevious] at hold
    have hzero : current.h3_cell = 0 := by
      by_contra hne
      exact hold ⟨hne, fun heq => hnew (heq ▸ hmem), hmem⟩
    exact hkeeps ⟨current, cell, fence, hcurrent, hacc.newer current hcurrent, hzero, hacc.cell_eq,
      hl, hnew, hinside⟩
  rw [houtside]
  cases hin : geo.point_in_polygon arrival.event.lat arrival.event.lon fence.polygon_vertices with
  | false => rfl
  | true => exact absurd (p.covers fence hl _ _ _ hacc.cell_eq hin) hnew

/-- An event that loses no exit keeps the simulation. -/
theorem Sim.handle {w w' : PipelineWorld} (h : p.Sim w w') {arrival : Arrival p.device_id}
    (hkeeps : ¬ p.LosesExit w arrival) :
    p.Sim (p.handle p.evaluate w arrival) (p.handle p.evaluate_all w' arrival) := by
  obtain ⟨redis, store⟩ := w
  obtain ⟨redis', store'⟩ := w'
  obtain rfl : redis = redis' := h.redis_eq
  rcases p.handle_cases redis arrival with ⟨hsame, -⟩ | ⟨cell, redis', hacc, hcell, hhandle⟩
  · rw [hsame, hsame]
    exact h
  rw [hhandle, hhandle]
  -- A fence that is left alone is as if it had been tested, since it is not crossed.
  have htested : ∀ fence, p.registry.fences.lookup fence.fence_id = some fence →
      Tested p.device_id arrival.event.lat arrival.event.lon (p.event_time arrival) store
        (store.after p.orders (p.evaluate arrival.order ⟨p.device_id, p.previous_cell redis, cell,
          arrival.event.lat, arrival.event.lon, p.event_time arrival⟩)) fence := by
    intro fence hl
    by_cases hc : Evaluator.Considered (p.previous_cell redis) cell fence
    · exact (evaluate_spec hl).1 hc
    · exact ((evaluate_spec hl).2 hc).tested (h.not_crossed hacc hkeeps hl hc)
  refine ⟨rfl, fun fence hl => ?_, fun fence hl => ?_, fun fence hl hinside => ?_⟩
  · have hstate := h.state_eq fence hl
    dsimp only at hstate ⊢
    rw [(htested fence hl).state_eq, (tested_evaluate_all hl).state_eq, hstate]
  · have hstate := h.state_eq fence hl
    have hrecords := h.records_eq fence hl
    dsimp only at hstate hrecords ⊢
    rw [(htested fence hl).records_eq, (tested_evaluate_all hl).records_eq, hstate, hrecords]
  · obtain ⟨current, hcurrent, rfl⟩ := Option.map_eq_some_iff.mp hcell
    refine ⟨current, hcurrent, p.covers fence hl _ _ _ hacc.cell_eq ?_⟩
    -- A device that is not in the polygon was left outside by the test.
    by_contra hout
    refine hinside ?_
    dsimp only
    rw [(htested fence hl).state_eq, eq_false_of_ne_true hout]
    cases store.state p.device_id fence.fence_id <;> rfl

/-- An event that loses an exit leaves a record out. -/
theorem Sim.not_sameRecords {w w' : PipelineWorld} (h : p.Sim w w') {arrival : Arrival p.device_id}
    (hloses : p.LosesExit w arrival) :
    ¬ p.SameRecords (p.handle p.evaluate w arrival) (p.handle p.evaluate_all w' arrival) := by
  obtain ⟨redis, store⟩ := w
  obtain ⟨redis', store'⟩ := w'
  obtain rfl : redis = redis' := h.redis_eq
  obtain ⟨current, cell, fence, hcurrent, hlt, hzero, hcell, hl, hnew, hinside⟩ := hloses
  have hnewer : p.Accepts redis arrival cell := by
    refine ⟨hcell, fun current' hcurrent' => ?_⟩
    dsimp only at hcurrent
    rw [hcurrent] at hcurrent'
    cases hcurrent'
    exact hlt
  rcases p.handle_cases redis arrival with ⟨-, hno⟩ | ⟨cell', redis', hacc, -, hhandle⟩
  · exact absurd hnewer (hno cell)
  obtain rfl : cell = cell' := Except.ok.inj (hcell.symm.trans hacc.cell_eq)
  rw [hhandle, hhandle]
  intro hsame
  -- A zero cell does not count as an old one, so the fence is left alone.
  have hprevious : p.previous_cell redis = 0 := by
    unfold previous_cell
    dsimp only at hcurrent
    rw [hcurrent, ← hzero]
    rfl
  have huntouched : Untouched p.device_id fence.fence_id store (store.after p.orders
      (p.evaluate arrival.order ⟨p.device_id, p.previous_cell redis, cell, arrival.event.lat,
        arrival.event.lon, p.event_time arrival⟩)) := (evaluate_spec hl).2
    (not_or.mpr ⟨hnew, fun hold => hold.1 hprevious⟩)
  have hout : geo.point_in_polygon arrival.event.lat arrival.event.lon fence.polygon_vertices =
      false := by
    by_contra hin
    exact hnew (p.covers fence hl _ _ _ hcell (eq_true_of_ne_false hin))
  have htested : Tested p.device_id arrival.event.lat arrival.event.lon (p.event_time arrival) store'
      (store'.after p.orders (p.evaluate_all arrival.order ⟨p.device_id, p.previous_cell redis, cell,
        arrival.event.lat, arrival.event.lon, p.event_time arrival⟩)) fence := tested_evaluate_all hl
  have hrecords := hsame fence hl
  have hbefore := h.records_eq fence hl
  have hstate := h.state_eq fence hl
  dsimp only at hrecords hbefore hstate hinside
  rw [huntouched.records_eq, htested.records_eq, hbefore, hout, ← hstate] at hrecords
  -- The reference inserts an `EXIT`.
  revert hrecords hinside
  cases store.state p.device_id fence.fence_id <;> simp [Evaluator.crossing]

/-- A run in which no event loses an exit is simulated by the reference run. -/
theorem sim_run {arrivals : List (Arrival p.device_id)}
    (hkeeps : ∀ l arrival, l ++ [arrival] <+: arrivals →
      ¬ p.LosesExit (p.run p.evaluate l) arrival) :
    p.Sim (p.run p.evaluate arrivals) (p.run p.evaluate_all arrivals) := by
  induction arrivals using List.reverseRecOn with
  | nil => exact ⟨rfl, fun _ _ => rfl, fun _ _ => rfl, fun _ _ hinside => absurd rfl hinside⟩
  | append_singleton l arrival ih =>
    -- The run before the last event meets the condition as well.
    have hsim := ih fun l' arrival' hl' => hkeeps l' arrival' (hl'.trans (List.prefix_append l _))
    unfold run
    rw [List.foldl_append, List.foldl_append]
    exact hsim.handle (hkeeps l arrival List.prefix_rfl)

variable (p)

/-- The prefilter changes no records, at any point of a run, exactly when no event of the run loses
an exit. -/
theorem same_records_iff (arrivals : List (Arrival p.device_id)) :
    (∀ l, l <+: arrivals → p.SameRecords (p.run p.evaluate l) (p.run p.evaluate_all l)) ↔
      ∀ l arrival, l ++ [arrival] <+: arrivals → ¬ p.LosesExit (p.run p.evaluate l) arrival := by
  constructor
  · intro hsame
    -- Up to the first event that loses an exit the simulation holds, and there the records differ.
    induction arrivals using List.reverseRecOn with
    | nil => exact fun l arrival hl => absurd (List.prefix_nil.mp hl) (by simp)
    | append_singleton arrivals last ih =>
      have hkeeps := ih fun l hl => hsame l (hl.trans (List.prefix_append arrivals _))
      intro l arrival hl hloses
      rcases List.prefix_concat_iff.mp hl with heq | hl
      · obtain ⟨rfl, harrival⟩ := List.append_inj' heq rfl
        cases harrival
        have hlast := hsame _ (List.prefix_refl _)
        unfold run at hlast
        rw [List.foldl_append, List.foldl_append] at hlast
        exact (sim_run hkeeps).not_sameRecords hloses hlast
      · exact hkeeps l arrival hl hloses
  · intro hkeeps l hl
    exact (sim_run fun l' arrival hl' => hkeeps l' arrival (hl'.trans hl)).records_eq

/-- A fence in the corner of the globe whose cell is zero. -/
def cornerFence : GeofenceRule where
  fence_id := "f"
  polygon_vertices := [(.finite (-90), .finite (-180)), (.finite (-90), .finite (-179 - 1 / 2)),
    (.finite (-89 - 1 / 2), .finite (-179 - 1 / 2)), (.finite (-89 - 1 / 2), .finite (-180))]
  h3_cells := {0}

/-- At resolution zero, the points inside the fence are in cell zero. -/
theorem cornerFence_covers {lat lon : Double} {cell : ℤ}
    (hcell : H3Index.coarsest.lat_lng_to_cell lat lon = .ok cell)
    (hin : geo.point_in_polygon lat lon cornerFence.polygon_vertices = true) : cell = 0 := by
  obtain ⟨hv, rfl⟩ := (H3Index.lat_lng_to_cell_ok_iff _).mp hcell
  obtain ⟨a, b, rfl, rfl, ha, -, hb, -⟩ := (valid_lat_lon_iff lat lon).mp hv
  have hwithin : ∀ v ∈ cornerFence.polygon_vertices,
      geo.Within (-89 - 1 / 2) (-179 - 1 / 2) v := by
    intro v hmem
    simp only [cornerFence, List.mem_cons, List.not_mem_nil, or_false] at hmem
    rcases hmem with rfl | rfl | rfl | rfl <;>
      exact ⟨_, _, rfl, by norm_num, by norm_num⟩
  have hcorner : a ≤ -89 - 1 / 2 + 1 / 10^12 ∧ b ≤ -179 - 1 / 2 + 1 / 10^12 :=
    geo.le_of_point_in_polygon hwithin hin
  -- Three quarters of a degree are still in the first row and in the first column.
  have hfirst : ∀ x : ℚ, 0 ≤ x → x ≤ 3 / 4 → ⌊Format.double.nearest (Format.double.nearest x *
      H3Index.coarsest.scale)⌋ = 0 := by
    intro x h0 h1
    obtain ⟨hlo, hhi⟩ := H3Index.coarsest.nearest_scale_mono h0 h1
    rw [show Format.double.nearest (Format.double.nearest (3 / 4) * H3Index.coarsest.scale) = 3 / 4 by
      decide +kernel] at hhi
    rw [Int.floor_eq_iff]
    constructor <;> push_cast <;> linarith
  have hrow : H3Index.coarsest.lat_idx a = 0 := hfirst (a + 90) (by linarith) (by linarith)
  have hcol : H3Index.coarsest.lon_idx b = 0 := hfirst (b + 180) (by linarith) (by linarith)
  rw [Double.toRat_finite, Double.toRat_finite, hrow, hcol]
  rfl

/-- The pipeline with this fence, at resolution zero. -/
def corner : Pipeline where
  h3 := .coarsest
  registry := FenceRegistry.load .insertion { active_fences := [cornerFence] }
  event_topic := "tm.geofence.events"
  device_id := "d"
  orders _ := .insertion
  loaded := FenceRegistry.loaded_load _ _
  event_topic_ne := by decide
  device_id_ne := by decide
  covers fence hl lat lon cell hcell hin := by
    obtain ⟨hmem, -⟩ := (FenceRegistry.lookup_insert_rules _ _ hl).resolve_right (by simp)
    obtain rfl : fence = cornerFence := by simpa using (List.mem_filter.mp hmem).1
    rw [cornerFence_covers hcell hin]
    exact Finset.mem_singleton_self 0

/-- An event inside the fence of the corner. -/
def corner_arrival : Arrival "d" where
  event := { device_id := "d", lat := .finite (-89 - 3 / 4), lon := .finite (-179 - 3 / 4), seq := 1,
             server_recv_ms := 1 }
  now_ms := 0
  order := .insertion
  device_id_eq := rfl

/-- The device enters the fence of the corner, and leaves its cell. -/
def corner_arrivals : List (Arrival "d") :=
  [corner_arrival, ⟨{ device_id := "d", seq := 2, server_recv_ms := 2 }, 0, .insertion, rfl⟩]

/-- The device has left the fence, but only the reference has a record of it. -/
theorem corner_loses_exit :
    ¬ ∀ l, l <+: corner_arrivals →
      corner.SameRecords (corner.run corner.evaluate l) (corner.run corner.evaluate_all l) := by
  intro h
  have hlen := congrArg List.length (h corner_arrivals List.prefix_rfl cornerFence (by decide +kernel))
  revert hlen
  decide +kernel

end Pipeline

end SignalRoute
