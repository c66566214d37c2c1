import SignalRoute.Geofence.Evaluator
import SignalRoute.Geofence.Visits

/-!
# The geofence event protocol

The engine at work on one device: evaluations, dwell scans and fence reloads in any order, each as
one atomic step of a `GeofenceWorld`. The audit records of every fence are a run of visits, the
stored fence state is the one that the last record leads to, and every `DWELL` is justified: it
follows an `ENTER`, its duration is the time since that `ENTER`, and it is no shorter than the
threshold (`geofence_event_protocol`).

The invariant is `Tracked`: the automaton of visits, run on the records of a fence, is in the stored
state, and the entry time of a fence that the device is inside is that of the last record. Both
components change a fence in one way, by setting a state and inserting the record that leads to it,
so one lemma (`Tracked.transition`) serves the three kinds of event. The dwell checker relies on
more than it checks: the states that it listed first are still there when it comes to them, because
each belongs to another fence.
-/

namespace SignalRoute

open Store (HashOrder)
open Numeric (Double)
open Interaction (Prog)
open Interaction.Prog (always_bind always_foldEach)

/-- The registry and the stores. -/
structure GeofenceWorld where
  registry : FenceRegistry := {}
  store : GeofenceStore := {}

/-- What does not change: the configuration, a topic that can be produced to, the device, and the order
in which the table of fence states happens to be traversed at each listing. -/
structure GeofenceEngine where
  config : GeofenceConfig
  event_topic : String
  device_id : String
  orders : ℕ → HashOrder
  event_topic_ne : event_topic ≠ ""

/-- The steps of the engine. -/
inductive GeofenceAction where
  | evaluate (order : HashOrder) (old_h3 new_h3 : ℤ) (lat lon : Double) (timestamp_ms : ℤ)
  | check_once (now_ms : ℤ)
  | reload (order : HashOrder) (fences : List GeofenceRule)

namespace GeofenceEngine

variable (engine : GeofenceEngine)

/-- One step of the engine. -/
def step (w : GeofenceWorld) : GeofenceAction → GeofenceWorld
  | .evaluate order old_h3 new_h3 lat lon timestamp_ms =>
    let program := Evaluator.evaluate w.registry order engine.event_topic engine.device_id old_h3
      new_h3 lat lon timestamp_ms
    { w with store := w.store.after engine.orders program }
  | .check_once now_ms =>
    let program := DwellChecker.check_once w.registry engine.config engine.event_topic now_ms
    { w with store := w.store.after engine.orders program }
  | .reload order fences =>
    { registry := FenceRegistry.load order (w.store.pg.set_active_fences fences)
      store := { w.store with pg := w.store.pg.set_active_fences fences } }

/-- The steps of a run, from an engine without fences and empty stores. -/
def run (actions : List GeofenceAction) : GeofenceWorld := actions.foldl engine.step {}

end GeofenceEngine

/-- A `DWELL` record is right to follow the records before it, at a dwell scan at `now_ms`: the last of
its fence is an `ENTER`, and where the seconds since then fit an `int`, they are its duration and
reach the threshold. -/
def DwellJustified (registry : FenceRegistry) (config : GeofenceConfig) (now_ms : ℤ)
    (before : List GeofenceEventRecord) (record : GeofenceEventRecord) : Prop :=
  ∃ fence enter, registry.get_fence record.fence_id = some fence ∧
    (recordsOf record.device_id record.fence_id before).getLast? = some enter ∧
    enter.event_type = .ENTER ∧ record.event_ts_ms = now_ms ∧
    ∀ seconds, seconds = (now_ms - enter.event_ts_ms).tdiv 1000 →
      -2^31 ≤ seconds → seconds < 2^31 →
        record.inside_duration_s = seconds ∧
          DwellChecker.threshold_s config fence ≤ record.inside_duration_s

/-- A list has grown by elements that each satisfy `Q` after those before it. -/
def Grown {α : Type} (Q : List α → α → Prop) (old new : List α) : Prop :=
  ∃ added, new = old ++ added ∧ ∀ before a after, added = before ++ a :: after → Q (old ++ before) a

namespace Grown

variable {α : Type} {Q : List α → α → Prop} {old new : List α}

/-- Nothing was added. -/
theorem refl : Grown Q old old := ⟨[], by simp, by simp⟩

/-- One more element. -/
theorem snoc (h : Grown Q old new) {a : α} (ha : Q new a) : Grown Q old (new ++ [a]) := by
  obtain ⟨added, rfl, hadded⟩ := h
  refine ⟨added ++ [a], by simp, fun before b after hsplit => ?_⟩
  rcases List.eq_nil_or_concat after with rfl | ⟨after, c, rfl⟩
  · obtain ⟨rfl, hb⟩ := List.append_inj' hsplit rfl
    cases hb
    exact ha
  · have hsplit' : added ++ [a] = (before ++ b :: after) ++ [c] := by simpa using hsplit
    obtain ⟨hadded', -⟩ := List.append_inj' hsplit' rfl
    exact hadded before b after hadded'

/-- A weaker condition on the elements. -/
theorem imp {Q' : List α → α → Prop} (h : Grown Q old new) (hQ : ∀ l a, Q l a → Q' l a) :
    Grown Q' old new := by
  obtain ⟨added, hadd, hadded⟩ := h
  exact ⟨added, hadd, fun before a after hs => hQ _ _ (hadded before a after hs)⟩

end Grown

/-- The invariant: only this device has fence states, under its keys, and each is what the records of
its fence lead to. -/
structure Tracked (device_id : String) (store : GeofenceStore) : Prop where
  key_eq : ∀ key record, store.redis.fence_states.lookup key = some record →
    record.device_id = device_id ∧ key = fence_key device_id record.fence_id
  track_eq : ∀ fence_id, track (typesOf device_id fence_id store.events) =
    some (store.state device_id fence_id)
  entered_at : ∀ fence_id record,
    store.redis.get_fence_state_record device_id fence_id = some record → record.state = .INSIDE →
      ∃ enter, (recordsOf device_id fence_id store.events).getLast? = some enter ∧
        enter.event_type = .ENTER ∧ enter.event_ts_ms = record.entered_at_ms

section Steps

variable {orders : ℕ → HashOrder} {event_topic device_id : String} {store : GeofenceStore}

/-- A transition along the automaton keeps the invariant. -/
theorem Tracked.transition (h : Tracked device_id store) (event_topic : String) (s : FenceState)
    {timestamp_ms : ℤ} (record : GeofenceEventRecord) (hd : record.device_id = device_id)
    (hnext : (store.state device_id record.fence_id).next record.event_type = some s)
    (hts : record.event_ts_ms = timestamp_ms) :
    Tracked device_id (store.transition event_topic s timestamp_ms record) := by
  subst hd
  -- The key of each state, the automaton, and the time of entry.
  refine ⟨fun key stored hl => ?_, fun f => ?_, fun f stored hl hs => ?_⟩
  · change (store.redis.set_fence_state _ _ s timestamp_ms).fence_states.lookup key = some stored
      at hl
    rw [RedisClient.lookup_set_fence_state] at hl
    split at hl
    · cases hl
      exact ⟨rfl, ‹_›⟩
    · exact h.key_eq key stored hl
  · rw [GeofenceStore.state_transition, GeofenceStore.events_transition]
    have htrack := h.track_eq f
    -- The record is the next step of the automaton for its own fence.
    unfold typesOf at htrack ⊢
    by_cases hf : f = record.fence_id
    · subst hf
      rw [recordsOf_append_self rfl rfl, List.map_append, List.map_singleton,
        track_append_singleton, htrack, if_pos rfl, Option.bind_some, hnext]
    · rw [recordsOf_append_of_ne (fun hr => hf hr.2.symm), if_neg hf]
      exact htrack
  · change RedisClient.get_fence_state_record (store.redis.set_fence_state _ _ _ _) _ f = _ at hl
    rw [RedisClient.get_fence_state_record_set] at hl
    rw [GeofenceStore.events_transition]
    by_cases hf : f = record.fence_id
    · subst hf
      rw [if_pos rfl] at hl
      cases hl
      dsimp only at hs
      subst hs
      refine ⟨record, by rw [recordsOf_append_self rfl rfl, List.getLast?_concat], ?_, hts⟩
      -- Only an `ENTER` leads to `INSIDE`.
      revert hnext
      cases store.state record.device_id record.fence_id <;> cases record.event_type <;>
        simp [FenceState.next]
    · rw [if_neg hf] at hl
      rw [recordsOf_append_of_ne (fun hr => hf hr.2.symm)]
      exact h.entered_at f stored hl hs

/-- A test keeps the invariant and inserts no `DWELL`. -/
theorem Tracked.test (h : Tracked device_id store) (event_topic : String) (lat lon : Double) (timestamp_ms : ℤ)
    (fence : GeofenceRule) :
    Tracked device_id (store.test event_topic device_id lat lon timestamp_ms fence) ∧
      ∀ events, Grown (fun _ record => record.event_type ≠ .DWELL) events store.events →
        Grown (fun _ record => record.event_type ≠ .DWELL) events
          (store.test event_topic device_id lat lon timestamp_ms fence).events := by
  unfold GeofenceStore.test
  cases hcross : Evaluator.crossing (geo.point_in_polygon lat lon fence.polygon_vertices)
      (store.state device_id fence.fence_id) with
  | none => exact ⟨h, fun _ => id⟩
  | some event =>
    exact ⟨h.transition event_topic _ _ rfl (Evaluator.next_of_crossing hcross) rfl,
      fun _ hgrown => hgrown.snoc (Evaluator.crossing_ne_dwell hcross)⟩

/-- An evaluation keeps the invariant and inserts no `DWELL`. -/
theorem Tracked.evaluate (h : Tracked device_id store) (orders : ℕ → HashOrder) (ht : event_topic ≠ "")
    (registry : FenceRegistry) (order : HashOrder) (old_h3 new_h3 : ℤ) (lat lon : Double)
    (timestamp_ms : ℤ) :
    let store' := store.after orders (Evaluator.evaluate registry order event_topic device_id old_h3
      new_h3 lat lon timestamp_ms)
    Tracked device_id store' ∧
      Grown (fun _ record => record.event_type ≠ .DWELL) store.events store'.events := by
  by_cases hd : device_id = ""
  · unfold Evaluator.evaluate
    rw [if_pos hd]
    exact ⟨h, .refl⟩
  · -- An evaluation is a fold of tests over the candidates.
    rw [after_evaluate ht hd]
    refine List.foldlRecOn (motive := fun store' => Tracked device_id store' ∧
      Grown (fun _ record => record.event_type ≠ .DWELL) store.events store'.events) _ _ ⟨h, .refl⟩
      fun store' hs fence _ => ?_
    obtain ⟨htracked, hgrown⟩ := hs.1.test event_topic lat lon timestamp_ms fence
    exact ⟨htracked, hgrown _ hs.2⟩

/-- The listed states are those that are stored, each for its own fence. -/
theorem Tracked.listed (h : Tracked device_id store) (order : HashOrder) :
    (∀ record ∈ store.redis.list_fence_states order .INSIDE, record.device_id = device_id ∧
        record.state = .INSIDE ∧
        store.redis.get_fence_state_record device_id record.fence_id = some record) ∧
      ((store.redis.list_fence_states order .INSIDE).map FenceStateRecord.fence_id).Nodup := by
  constructor
  · intro record hrecord
    obtain ⟨hvalue, hstate⟩ := List.mem_filter.mp hrecord
    obtain ⟨key, hl⟩ := order.mem_values.mp hvalue
    obtain ⟨hd, rfl⟩ := h.key_eq _ _ hl
    exact ⟨hd, by simpa using hstate, hl⟩
  · -- Each state is stored under the key of its fence, and keys are unique.
    refine List.Nodup.sublist (List.Sublist.map _ List.filter_sublist) ?_
    exact order.nodup_map_values _ (fence_key device_id) fun key record hl =>
      (h.key_eq key record hl).2.symm

variable {registry : FenceRegistry} {config : GeofenceConfig} {now_ms : ℤ}

/-- A listed state that is due is that of a loaded fence, and it has been inside for the threshold. -/
theorem DwellChecker.of_due (hr : registry.Loaded) {state : FenceStateRecord} {fence : GeofenceRule}
    (h : DwellChecker.due registry config now_ms state = some fence) :
    registry.get_fence state.fence_id = some fence ∧ fence.fence_id = state.fence_id ∧
      DwellChecker.threshold_s config fence * 1000 ≤ now_ms - state.entered_at_ms := by
  unfold DwellChecker.due at h
  split at h
  · cases h
  · rename_i fence' hfence
    split_ifs at h with hskip hearly
    cases h
    exact ⟨hfence, hr.fence_id_eq _ _ hfence, not_lt.mp hearly⟩

/-- What one listed state that is still stored does to the stores: nothing, or a transition with a
justified `DWELL` record. The other fences keep their states. -/
theorem always_check_state (h : Tracked device_id store) (ht : event_topic ≠ "")
    (hr : registry.Loaded) (transitioned : ℤ) {state : FenceStateRecord}
    (hd : state.device_id = device_id) (hinside : state.state = .INSIDE)
    (hstored : store.redis.get_fence_state_record device_id state.fence_id = some state) :
    (DwellChecker.check_state registry config event_topic now_ms transitioned state).Always
      (GeofenceStore.handler orders) (fun _ => True)
      (fun _ store' => Tracked device_id store' ∧
        (store'.events = store.events ∨ ∃ record, store'.events = store.events ++ [record] ∧
          DwellJustified registry config now_ms store.events record) ∧
        ∀ f ≠ state.fence_id, store'.redis.get_fence_state_record device_id f =
          store.redis.get_fence_state_record device_id f)
      (fun _ _ => False) store := by
  unfold DwellChecker.check_state
  cases hdue : DwellChecker.due registry config now_ms state with
  | none => exact ⟨h, .inl rfl, fun _ _ => rfl⟩
  | some fence =>
    obtain ⟨hfence, hid, hlong⟩ := DwellChecker.of_due hr hdue
    obtain ⟨enter, hlast, htype, hts⟩ := h.entered_at _ _ hstored hinside
    -- From `INSIDE` the automaton goes on to `DWELL`.
    have hnext : (store.state device_id state.fence_id).next .DWELL = some .DWELL := by
      unfold GeofenceStore.state RedisClient.get_fence_state
      rw [hstored, Option.map_some, Option.getD_some, hinside]
      rfl
    simp only [Prog.bind_eq, always_bind, Prog.always_perform, always_publish_event ht,
      Prog.pure_eq, Prog.always_pure]
    subst hd
    have htracked := h.transition event_topic .DWELL
      (DwellChecker.make_dwell_record state fence now_ms) rfl
      (by rw [← hnext, ← hid]; rfl) rfl
    unfold GeofenceStore.transition at htracked
    rw [show (DwellChecker.make_dwell_record state fence now_ms).fence_id = state.fence_id from hid]
      at htracked
    refine ⟨trivial, trivial, trivial, htracked, .inr ⟨_, rfl, ?_⟩, fun f hf => ?_⟩
    · refine ⟨fence, enter, by rw [← hfence, ← hid]; rfl, ?_, htype, rfl, ?_⟩
      · rw [← hlast, ← hid]
        rfl
      · rintro seconds rfl hlow hhigh
        -- The dwell time is cast to `int`, which changes nothing below the bound.
        have hduration : castInt ((now_ms - state.entered_at_ms).tdiv 1000) =
            (now_ms - enter.event_ts_ms).tdiv 1000 := by
          rw [← hts]
          exact castInt_eq hlow hhigh
        refine ⟨hduration, ?_⟩
        change _ ≤ castInt ((now_ms - state.entered_at_ms).tdiv 1000)
        rw [hduration, hts]
        exact Int.le_tdiv_of_mul_le (by omega) hlong
    · change RedisClient.get_fence_state_record (store.redis.set_fence_state _ _ _ _) _ _ = _
      rw [RedisClient.get_fence_state_record_set, if_neg hf]

/-- A dwell scan keeps the invariant and inserts justified `DWELL` records. -/
theorem always_check_once (orders : ℕ → HashOrder) (config : GeofenceConfig) (now_ms : ℤ)
    (h : Tracked device_id store) (ht : event_topic ≠ "")
    (hr : registry.Loaded) :
    (DwellChecker.check_once registry config event_topic now_ms).Always
      (GeofenceStore.handler orders) (fun _ => True)
      (fun _ store' => Tracked device_id store' ∧
        Grown (DwellJustified registry config now_ms) store.events store'.events)
      (fun _ _ => False) store := by
  unfold DwellChecker.check_once
  rw [Prog.bind_eq, always_bind, Prog.always_perform]
  refine ⟨trivial, ?_⟩
  -- The states that are still to come are still stored as they were listed.
  let I := fun (rest : List FenceStateRecord) (_ : ℤ) (store' : GeofenceStore) =>
    (Tracked device_id store' ∧
        Grown (DwellJustified registry config now_ms) store.events store'.events) ∧
      (∀ record ∈ rest, record.device_id = device_id ∧ record.state = .INSIDE ∧
        store'.redis.get_fence_state_record device_id record.fence_id = some record) ∧
      (rest.map FenceStateRecord.fence_id).Nodup
  refine (always_foldEach I _ (fun state rest transitioned store' hs => ?_) _ _ _ ?_).imp
    (fun _ => id) (fun _ _ hs => hs.1) fun _ _ => id
  · obtain ⟨⟨htracked, hgrown⟩, hlisted, hnodup⟩ := hs
    obtain ⟨hd, hinside, hstored⟩ := hlisted state List.mem_cons_self
    rw [List.map_cons, List.nodup_cons] at hnodup
    refine (always_check_state htracked ht hr transitioned hd hinside hstored).imp (fun _ => id)
      (fun _ store'' hs'' => ?_) fun _ _ => id
    obtain ⟨htracked', hevents, hothers⟩ := hs''
    refine ⟨⟨htracked', ?_⟩, fun record hrecord => ?_, hnodup.2⟩
    · rcases hevents with heq | ⟨record, heq, hjustified⟩
      · rw [heq]
        exact hgrown
      · rw [heq]
        exact hgrown.snoc hjustified
    · obtain ⟨hd', hinside', hstored'⟩ := hlisted record (List.mem_cons_of_mem _ hrecord)
      refine ⟨hd', hinside', ?_⟩
      rw [hothers record.fence_id fun heq => hnodup.1 (heq ▸ List.mem_map_of_mem hrecord)]
      exact hstored'
  · obtain ⟨hlisted, hnodup⟩ := h.listed (orders store.listings)
    exact ⟨⟨⟨h.key_eq, h.track_eq, h.entered_at⟩, .refl⟩, hlisted, hnodup⟩

end Steps

namespace GeofenceEngine

variable (engine : GeofenceEngine)

/-- What a step may append to the records: only a dwell scan appends a `DWELL`, and a justified one. -/
def Appends (w : GeofenceWorld) (action : GeofenceAction) (before : List GeofenceEventRecord)
    (record : GeofenceEventRecord) : Prop :=
  record.event_type = .DWELL → ∃ now_ms, action = .check_once now_ms ∧
    DwellJustified w.registry engine.config now_ms before record

/-- One step keeps the invariant, and appends what it may. -/
theorem step_spec {w : GeofenceWorld} (hr : w.registry.Loaded)
    (h : Tracked engine.device_id w.store) (action : GeofenceAction) :
    (engine.step w action).registry.Loaded ∧
      Tracked engine.device_id (engine.step w action).store ∧
      Grown (engine.Appends w action) w.store.events (engine.step w action).store.events := by
  cases action with
  | evaluate order old_h3 new_h3 lat lon timestamp_ms =>
    obtain ⟨htracked, hgrown⟩ := h.evaluate engine.orders engine.event_topic_ne w.registry
      order old_h3 new_h3 lat lon timestamp_ms
    exact ⟨hr, htracked, hgrown.imp fun _ _ hne hdwell => absurd hdwell hne⟩
  | check_once now_ms =>
    obtain ⟨htracked, hgrown⟩ := Prog.Always.final ((always_check_once engine.orders engine.config
      now_ms h engine.event_topic_ne hr).imp (fun _ => id)
      (fun _ _ => id) fun _ _ => False.elim)
    exact ⟨hr, htracked, hgrown.imp fun _ _ hjustified _ => ⟨now_ms, rfl, hjustified⟩⟩
  | reload order fences =>
    exact ⟨FenceRegistry.loaded_load order _, ⟨h.key_eq, h.track_eq, h.entered_at⟩, .refl⟩

/-- Every run keeps the invariant. -/
theorem run_spec (actions : List GeofenceAction) :
    (engine.run actions).registry.Loaded ∧ Tracked engine.device_id (engine.run actions).store := by
  induction actions using List.reverseRecOn with
  | nil =>
    refine ⟨FenceRegistry.loaded_empty, fun _ _ hl => ?_, fun _ => rfl, fun _ _ hl => ?_⟩
    · cases hl
    · cases hl
  | append_singleton actions action ih =>
    unfold run
    rw [List.foldl_append]
    obtain ⟨hr, h, -⟩ := engine.step_spec ih.1 ih.2 action
    exact ⟨hr, h⟩

/-- The geofence event protocol: after every run, the records of every fence are a run of visits up to
some point, the stored state is the one that the last record leads to, and every step appends to the
records what it may. -/
theorem geofence_event_protocol (actions : List GeofenceAction) :
    let w := engine.run actions
    (∀ fence_id, VisitPrefix (typesOf engine.device_id fence_id w.store.events) ∧
      w.store.state engine.device_id fence_id =
        stateAfter (typesOf engine.device_id fence_id w.store.events).getLast?) ∧
      ∀ action, Grown (engine.Appends w action) w.store.events
        (engine.step w action).store.events := by
  obtain ⟨hr, h⟩ := engine.run_spec actions
  refine ⟨fun fence_id => ?_, fun action => (engine.step_spec hr h action).2.2⟩
  have htrack := h.track_eq fence_id
  exact ⟨visitPrefix_iff.mpr ⟨_, htrack⟩, eq_stateAfter_of_track htrack⟩

end GeofenceEngine

end SignalRoute
