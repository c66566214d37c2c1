import SignalRoute.Clients.Redis
import SignalRoute.Clients.Kafka
import SignalRoute.Geofence.PointInPolygon
import SignalRoute.Geofence.Registry
import SignalRoute.Geofence.Visits
import SignalRoute.Interaction.Prog
import SignalRoute.Numeric.Text

/-!
# The evaluator and the dwell checker

`src/geofence/evaluator.cpp` and `dwell_checker.cpp` as programs over the calls that they make to
the stores: fence states in Redis, audit records in PostgreSQL, messages in Kafka. Each call is one
atomic step of a `GeofenceStore`; whether a whole function is one step, or two threads take turns
between the calls, is up to the results about them.

The hash tables are traversed in an arbitrary order: the evaluator's table of candidates in the
order that is an argument, the table of fence states in one that may be another at each listing.
-/

namespace SignalRoute

open Store (UnorderedMap HashOrder)
open Numeric (Double)
open Interaction (Prog Handler)
open Interaction.Prog (perform ofExcept forEach foldEach)

/-- The calls of the evaluator and the dwell checker. -/
inductive FenceCall : Type → Type where
  | list_fence_states (state : FenceState) : FenceCall (List FenceStateRecord)
  | get_fence_state (device_id fence_id : String) : FenceCall (Option FenceState)
  | set_fence_state (device_id fence_id : String) (state : FenceState) (timestamp_ms : ℤ) :
    FenceCall Unit
  | insert_geofence_event (event : GeofenceEventRecord) : FenceCall (Except Exception Unit)
  | produce (topic key payload : String) : FenceCall (Except Exception Unit)

/-- The stores behind the calls, and the number of listings so far. -/
structure GeofenceStore where
  redis : RedisClient := {}
  pg : PostgresClient := {}
  produced : List ProducedMessage := []
  listings : ℕ := 0

/-- The stores perform a call. -/
def GeofenceStore.perform (orders : ℕ → HashOrder) {β : Type} :
    FenceCall β → GeofenceStore → β × GeofenceStore
  | .list_fence_states state, store =>
    (store.redis.list_fence_states (orders store.listings) state,
      { store with listings := store.listings + 1 })
  | .get_fence_state device_id fence_id, store =>
    (store.redis.get_fence_state device_id fence_id, store)
  | .set_fence_state device_id fence_id state timestamp_ms, store =>
    ((), { store with redis := store.redis.set_fence_state device_id fence_id state timestamp_ms })
  | .insert_geofence_event event, store =>
    (.ok (), { store with pg := store.pg.insert_geofence_event event })
  | .produce topic key payload, store =>
    let (result, produced) := SignalRoute.produce topic key payload store.produced
    (result, { store with produced })

/-- The stores as the handler of the calls. -/
def GeofenceStore.handler (orders : ℕ → HashOrder) : Handler FenceCall GeofenceStore :=
  ⟨GeofenceStore.perform orders⟩

/-- The exceptions of the audit table and of the producer, by tick. -/
structure GeofenceFaults where
  insert_error : ℕ → Option Exception := fun _ => none
  produce_error : ℕ → Option Exception := fun _ => none

/-- Stores whose insertions and productions may fail; each of these calls advances the tick. -/
structure FaultyStore where
  tick : ℕ := 0
  store : GeofenceStore := {}

/-- The stores perform a call, or it fails. -/
def FaultyStore.perform (faults : GeofenceFaults) (orders : ℕ → HashOrder) {β : Type} :
    FenceCall β → FaultyStore → β × FaultyStore
  | .insert_geofence_event event, s =>
    match faults.insert_error s.tick with
    | some e => (.error e, { s with tick := s.tick + 1 })
    | none =>
      let (result, store) := s.store.perform orders (.insert_geofence_event event)
      (result, { tick := s.tick + 1, store })
  | .produce topic key payload, s =>
    match faults.produce_error s.tick with
    | some e => (.error e, { s with tick := s.tick + 1 })
    | none =>
      let (result, store) := s.store.perform orders (.produce topic key payload)
      (result, { tick := s.tick + 1, store })
  | c, s =>
    let (answer, store) := s.store.perform orders c
    (answer, { s with store })

/-- The faulty stores as the handler of the calls. -/
def FaultyStore.handler (faults : GeofenceFaults) (orders : ℕ → HashOrder) :
    Handler FenceCall FaultyStore :=
  ⟨FaultyStore.perform faults orders⟩

/-- A program of the geofence engine. -/
abbrev GeofenceProgram (α : Type) : Type 1 := Prog FenceCall Exception α

/-- `geofence_event_type_to_string`. -/
def geofence_event_type_to_string : GeofenceEventType → String
  | .ENTER => "ENTER"
  | .EXIT => "EXIT"
  | .DWELL => "DWELL"

/-- `encode_geofence_event_payload` (CSV build). -/
def encode_geofence_event_payload (event : GeofenceEventRecord) : String :=
  let detail :=
    if event.event_type = .DWELL then toString event.inside_duration_s
    else Numeric.ostreamDouble event.lat ++ "," ++ Numeric.ostreamDouble event.lon
  event.device_id ++ "," ++ event.fence_id ++ "," ++
    geofence_event_type_to_string event.event_type ++ "," ++ toString event.event_ts_ms ++ "," ++
    detail

/-- Both components insert a new record and then produce it, under its device as the key. -/
def publish_event (event_topic : String) (record : GeofenceEventRecord) : GeofenceProgram Unit := do
  let result ← perform (.insert_geofence_event record)
  ofExcept result
  let result ← perform (.produce event_topic record.device_id (encode_geofence_event_payload record))
  ofExcept result

namespace Evaluator

/-- `make_event_record`. -/
def make_event_record (device_id : String) (fence : GeofenceRule) (event_type : GeofenceEventType)
    (lat lon : Double) (timestamp_ms : ℤ) : GeofenceEventRecord where
  device_id := device_id
  fence_id := fence.fence_id
  fence_name := fence.name
  event_type := event_type
  lat := lat
  lon := lon
  event_ts_ms := timestamp_ms

/-- `if (fence && fence->active) candidates[fence->fence_id] = fence`. -/
def insert_active (candidates : UnorderedMap String GeofenceRule) (fence : GeofenceRule) :
    UnorderedMap String GeofenceRule :=
  if fence.active then candidates.insert fence.fence_id fence else candidates

/-- The table of candidates: the active fences of the new cell, and of the old one where it is
another cell and not zero. -/
def candidates (registry : FenceRegistry) (old_h3 new_h3 : ℤ) : UnorderedMap String GeofenceRule :=
  let candidates := (registry.get_candidates new_h3).foldl insert_active ∅
  if old_h3 ≠ 0 ∧ old_h3 ≠ new_h3 then
    (registry.get_candidates old_h3).foldl insert_active candidates
  else candidates

/-- What `evaluate` does for one candidate. -/
def evaluate_fence (event_topic device_id : String) (lat lon : Double) (timestamp_ms : ℤ)
    (fence : GeofenceRule) : GeofenceProgram Unit := do
  let inside := geo.point_in_polygon lat lon fence.polygon_vertices
  let stored ← perform (.get_fence_state device_id fence.fence_id)
  let previous := stored.getD .OUTSIDE
  if inside ∧ previous = .OUTSIDE then
    perform (.set_fence_state device_id fence.fence_id .INSIDE timestamp_ms)
    publish_event event_topic (make_event_record device_id fence .ENTER lat lon timestamp_ms)
  else if ¬ inside ∧ (previous = .INSIDE ∨ previous = .DWELL) then
    perform (.set_fence_state device_id fence.fence_id .OUTSIDE timestamp_ms)
    publish_event event_topic (make_event_record device_id fence .EXIT lat lon timestamp_ms)

/-- The event of a candidate: a device that is inside and was not enters, and one that was inside
and is not exits. -/
def crossing (inside : Bool) (previous : FenceState) : Option GeofenceEventType :=
  match inside, previous with
  | true, .OUTSIDE => some .ENTER
  | false, .INSIDE => some .EXIT
  | false, .DWELL => some .EXIT
  | _, _ => none

/-- A crossing goes along the automaton of visits. -/
theorem next_of_crossing {inside : Bool} {previous : FenceState} {event : GeofenceEventType}
    (h : crossing inside previous = some event) :
    previous.next event = some (stateAfter (some event)) := by
  cases inside <;> cases previous <;> cases h <;> rfl

/-- A crossing is no `DWELL`. -/
theorem crossing_ne_dwell {inside : Bool} {previous : FenceState} {event : GeofenceEventType}
    (h : crossing inside previous = some event) : event ≠ .DWELL := by
  cases inside <;> cases previous <;> cases h <;> decide

/-- A candidate that is crossed gets the state that the event leads to, and a record of the event. -/
theorem evaluate_fence_eq (event_topic device_id : String) (lat lon : Double) (timestamp_ms : ℤ)
    (fence : GeofenceRule) :
    evaluate_fence event_topic device_id lat lon timestamp_ms fence =
      (perform (.get_fence_state device_id fence.fence_id)).bind fun stored =>
        match crossing (geo.point_in_polygon lat lon fence.polygon_vertices)
            (stored.getD .OUTSIDE) with
        | none => .pure ()
        | some event =>
          (perform (.set_fence_state device_id fence.fence_id (stateAfter (some event))
              timestamp_ms)).bind fun _ =>
            publish_event event_topic
              (make_event_record device_id fence event lat lon timestamp_ms) := by
  unfold evaluate_fence
  rw [Prog.bind_eq]
  congr 1
  funext stored
  cases geo.point_in_polygon lat lon fence.polygon_vertices <;>
    cases stored.getD .OUTSIDE <;> rfl

/-- `evaluate`. -/
def evaluate (registry : FenceRegistry) (order : HashOrder) (event_topic device_id : String)
    (old_h3 new_h3 : ℤ) (lat lon : Double) (timestamp_ms : ℤ) : GeofenceProgram Unit :=
  if device_id = "" then .pure ()
  else forEach (order.values (candidates registry old_h3 new_h3))
    (evaluate_fence event_topic device_id lat lon timestamp_ms)

end Evaluator

namespace DwellChecker

/-- `make_dwell_record`. -/
def make_dwell_record (state : FenceStateRecord) (fence : GeofenceRule) (now_ms : ℤ) :
    GeofenceEventRecord where
  device_id := state.device_id
  fence_id := fence.fence_id
  fence_name := fence.name
  event_type := .DWELL
  event_ts_ms := now_ms
  inside_duration_s := castInt ((now_ms - state.entered_at_ms).tdiv 1000)

/-- The dwell threshold of a fence: its own where that is positive, and else the configured one. -/
def threshold_s (config : GeofenceConfig) (fence : GeofenceRule) : ℤ :=
  if fence.dwell_threshold_s > 0 then fence.dwell_threshold_s else config.dwell_threshold_s

/-- The fence of a listed state, where the state is due to become `DWELL`. -/
def due (registry : FenceRegistry) (config : GeofenceConfig) (now_ms : ℤ)
    (state : FenceStateRecord) : Option GeofenceRule :=
  match registry.get_fence state.fence_id with
  | none => none
  | some fence =>
    if fence.active = false ∨ state.entered_at_ms ≤ 0 then none
    else if now_ms - state.entered_at_ms < threshold_s config fence * 1000 then none
    else some fence

/-- What `check_once` does for one listed state, with the number of transitions so far. -/
def check_state (registry : FenceRegistry) (config : GeofenceConfig) (event_topic : String)
    (now_ms : ℤ) (transitioned : ℤ) (state : FenceStateRecord) : GeofenceProgram ℤ :=
  match due registry config now_ms state with
  | none => .pure transitioned
  | some fence => do
    perform (.set_fence_state state.device_id state.fence_id .DWELL now_ms)
    publish_event event_topic (make_dwell_record state fence now_ms)
    return transitioned + 1

/-- `check_once`. -/
def check_once (registry : FenceRegistry) (config : GeofenceConfig) (event_topic : String)
    (now_ms : ℤ) : GeofenceProgram ℤ := do
  let inside_states ← perform (.list_fence_states .INSIDE)
  foldEach inside_states 0 (check_state registry config event_topic now_ms)

end DwellChecker

namespace GeofenceStore

/-- The stored state of a fence; an absent one is `OUTSIDE`. -/
def state (store : GeofenceStore) (device_id fence_id : String) : FenceState :=
  (store.redis.get_fence_state device_id fence_id).getD .OUTSIDE

/-- The audit records. -/
def events (store : GeofenceStore) : List GeofenceEventRecord := store.pg.geofence_events

/-- The stores after a program. -/
def after {α : Type} (orders : ℕ → HashOrder) (p : GeofenceProgram α) (store : GeofenceStore) :
    GeofenceStore :=
  (p.exec (handler orders) store).final

/-- The stores after a transition: the fence state is set, the record of it is inserted, and its
message is produced. -/
def transition (event_topic : String) (state : FenceState) (timestamp_ms : ℤ)
    (record : GeofenceEventRecord) (store : GeofenceStore) : GeofenceStore :=
  { store with
    redis := store.redis.set_fence_state record.device_id record.fence_id state timestamp_ms
    pg := store.pg.insert_geofence_event record
    produced := store.produced ++
      [⟨event_topic, record.device_id, encode_geofence_event_payload record⟩] }

/-- The stores after one candidate: a transition where it is crossed. -/
def test (event_topic device_id : String) (lat lon : Double) (timestamp_ms : ℤ)
    (store : GeofenceStore) (fence : GeofenceRule) : GeofenceStore :=
  match Evaluator.crossing (geo.point_in_polygon lat lon fence.polygon_vertices)
      (store.state device_id fence.fence_id) with
  | none => store
  | some event => store.transition event_topic (stateAfter (some event)) timestamp_ms
      (Evaluator.make_event_record device_id fence event lat lon timestamp_ms)

variable {orders : ℕ → HashOrder} {event_topic : String} {store : GeofenceStore}

/-- The stored states of the device after a transition of one of its fences. -/
theorem state_transition (event_topic : String) (store : GeofenceStore) (s : FenceState)
    (timestamp_ms : ℤ) (record : GeofenceEventRecord) (f : String) :
    (store.transition event_topic s timestamp_ms record).state record.device_id f =
      if f = record.fence_id then s else store.state record.device_id f := by
  unfold state transition RedisClient.get_fence_state
  dsimp only
  rw [RedisClient.get_fence_state_record_set]
  split <;> rfl

/-- A transition inserts its record. -/
@[simp] theorem events_transition (s : FenceState) (timestamp_ms : ℤ)
    (record : GeofenceEventRecord) :
    (store.transition event_topic s timestamp_ms record).events = store.events ++ [record] := rfl

end GeofenceStore

section Specifications

open Interaction.Prog (always_bind always_forEach)

variable {orders : ℕ → HashOrder} {event_topic : String} {store : GeofenceStore}

/-- Publishing a record inserts it and produces one message. -/
theorem always_publish_event {I : GeofenceStore → Prop} {P : Unit → GeofenceStore → Prop}
    {E : Exception → GeofenceStore → Prop} (ht : event_topic ≠ "") (record : GeofenceEventRecord) :
    (publish_event event_topic record).Always (GeofenceStore.handler orders) I P E store ↔
      let inserted := { store with pg := store.pg.insert_geofence_event record }
      let done := { inserted with
        produced := store.produced ++
          [⟨event_topic, record.device_id, encode_geofence_event_payload record⟩] }
      I inserted ∧ I done ∧ P () done := by
  have hproduce : produce event_topic record.device_id (encode_geofence_event_payload record)
      store.produced = (.ok (), store.produced ++
        [⟨event_topic, record.device_id, encode_geofence_event_payload record⟩]) := if_neg ht
  unfold publish_event
  simp only [Prog.bind_eq, always_bind, Prog.always_perform, Prog.always_ofExcept,
    GeofenceStore.handler, GeofenceStore.perform, hproduce]

/-- A candidate is tested. -/
theorem always_evaluate_fence (ht : event_topic ≠ "") (device_id : String) (lat lon : Double)
    (timestamp_ms : ℤ) (fence : GeofenceRule) :
    (Evaluator.evaluate_fence event_topic device_id lat lon timestamp_ms fence).Always
      (GeofenceStore.handler orders) (fun _ => True)
      (fun _ store' => store' = store.test event_topic device_id lat lon timestamp_ms fence)
      (fun _ _ => False) store := by
  rw [Evaluator.evaluate_fence_eq, always_bind, Prog.always_perform]
  refine ⟨trivial, ?_⟩
  unfold GeofenceStore.test
  change Prog.Always _ _ _ _
    (match Evaluator.crossing _ (store.state device_id fence.fence_id) with
      | none => _
      | some event => _) store
  cases Evaluator.crossing (geo.point_in_polygon lat lon fence.polygon_vertices)
      (store.state device_id fence.fence_id) with
  | none => exact rfl
  | some event =>
    rw [always_bind, Prog.always_perform, always_publish_event ht]
    exact ⟨trivial, trivial, trivial, rfl⟩

/-- A list of candidates is tested in order. -/
theorem always_evaluate_fences (ht : event_topic ≠ "") (device_id : String) (lat lon : Double)
    (timestamp_ms : ℤ) (fences : List GeofenceRule) :
    (forEach fences (Evaluator.evaluate_fence event_topic device_id lat lon timestamp_ms)).Always
      (GeofenceStore.handler orders) (fun _ => True)
      (fun _ store' => store' =
        fences.foldl (GeofenceStore.test event_topic device_id lat lon timestamp_ms) store)
      (fun _ _ => False) store := by
  refine always_forEach (fun rest store' =>
    rest.foldl (GeofenceStore.test event_topic device_id lat lon timestamp_ms) store' =
      fences.foldl (GeofenceStore.test event_topic device_id lat lon timestamp_ms) store)
    _ (fun fence rest store' hs => ?_) _ _ rfl
  refine (always_evaluate_fence ht device_id lat lon timestamp_ms fence).imp (fun _ => id)
    (fun _ store'' hs'' => ?_) fun _ _ => id
  subst hs''
  exact hs

/-- The stores after the test of a list of candidates. -/
theorem after_evaluate_fences (ht : event_topic ≠ "") (device_id : String) (lat lon : Double)
    (timestamp_ms : ℤ) (fences : List GeofenceRule) :
    store.after orders
        (forEach fences (Evaluator.evaluate_fence event_topic device_id lat lon timestamp_ms)) =
      fences.foldl (GeofenceStore.test event_topic device_id lat lon timestamp_ms) store :=
  Prog.Always.final ((always_evaluate_fences ht device_id lat lon timestamp_ms fences).imp
    (fun _ => id) (fun _ _ => id) fun _ _ => False.elim)

/-- The stores after an evaluation. -/
theorem after_evaluate (ht : event_topic ≠ "") {device_id : String} (hd : device_id ≠ "")
    (registry : FenceRegistry) (order : HashOrder) (old_h3 new_h3 : ℤ) (lat lon : Double)
    (timestamp_ms : ℤ) :
    store.after orders (Evaluator.evaluate registry order event_topic device_id old_h3 new_h3 lat
        lon timestamp_ms) =
      (order.values (Evaluator.candidates registry old_h3 new_h3)).foldl
        (GeofenceStore.test event_topic device_id lat lon timestamp_ms) store := by
  unfold Evaluator.evaluate
  rw [if_neg hd]
  exact after_evaluate_fences ht device_id lat lon timestamp_ms _

end Specifications

end SignalRoute
