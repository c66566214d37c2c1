import SignalRoute.Interaction.Prog
import SignalRoute.Clients.Postgres
import SignalRoute.Clients.Kafka
import SignalRoute.Processor.Dedup
import SignalRoute.Processor.Codec
import SignalRoute.Composition

/-!
# The processing loop

`src/processor/processing_loop.cpp` with the history writer and the event handlers that it drives,
as a program over atomic actions on a `World`: everything that the loop and its collaborators own.
What the world does not determine is an `Environment`: the messages that the broker has when it is
polled, the clocks, the stop flag, and whether an insertion into the database fails. Each is a
function of a tick that every reading advances, so an environment fixes one run, and a statement
about all environments is about all runs.

In direct mode the loop calls the state writer and the history writer itself. In event-bus mode it
publishes `LocationAccepted`, and the subscriptions of the composition root and of the event
handlers do the same through the bus; handlers run in the publisher's thread, so publishing is a
call of the handlers in the order of their subscription. The subscribers that only count metrics are
left out, and so are the events that have no other subscriber. What the geofence engine does with an
evaluation request is a function on a state `G` of its own.

`World.accepted` and `World.commits` are history variables: the events that the compare-and-set has
taken, each with the offset of its message, and the offsets that have been committed, in order. No
function reads them.
-/

namespace SignalRoute

open Interaction

/-- What a run of the processor meets, by tick. -/
structure Environment where
  /-- The messages of the ingest topic. -/
  topic : List BrokerMessage
  /-- How many of them the broker has. -/
  visible : ℕ → ℕ
  should_stop : ℕ → Bool
  /-- The steady clock, in nanoseconds. -/
  steady_ns : ℕ → ℤ
  /-- The system clock, in milliseconds. -/
  system_ms : ℕ → ℤ
  /-- The `what()` of a failed insertion of trip points. -/
  insert_error : ℕ → Option String

/-- An environment in which a topic is all there from the start, the process is not asked to stop, and
nothing fails. -/
def Environment.attentive (topic : List BrokerMessage) : Environment where
  topic := topic
  visible _ := topic.length
  should_stop _ := false
  steady_ns _ := 0
  system_ms _ := 0
  insert_error _ := none

/-- What the processing loop and its collaborators own. -/
structure World (G : Type) where
  tick : ℕ := 0
  consumer : KafkaConsumer := {}
  redis : RedisClient := {}
  pg : PostgresClient := {}
  produced : List ProducedMessage := []
  dedup : DedupWindow
  history_buffer : List LocationEvent := []
  last_flush : ℤ := 0
  geofence : G
  accepted : List (ℕ × LocationEvent) := []
  commits : List ℕ := []

/-- The world before a run: nothing is stored, buffered or committed. -/
def World.fresh {G : Type} (max_entries : ℕ) (ttl_seconds : ℤ) (geofence : G) : World G :=
  { dedup := { max_entries, ttl_seconds }, geofence }

/-- The loop's configuration, and the event bus it was given: what the geofence engine does with an
evaluation request, or `none` in direct mode. -/
structure Processor (G : Type) where
  h3 : H3Index
  config : ProcessorConfig
  event_bus : Option (events.GeofenceEvaluationRequested → G → G)

/-- Code of the processor. -/
abbrev Action (G : Type) : Type → Type 1 := Prog (Atomic (World G)) Exception

variable {G : Type} (env : Environment) (p : Processor G)

/-- The message that goes to the dead-letter topic for an event. -/
def dlq_message (event : LocationEvent) : ProducedMessage :=
  ⟨"tm.location.dlq", event.device_id, serialize_dlq_payload event⟩

namespace World

/-- The world after a reading. -/
def advance (w : World G) : World G := { w with tick := w.tick + 1 }

/-- `consumer_.poll`. -/
def poll (w : World G) : Option KafkaMessage × World G :=
  let (msg, consumer) := w.consumer.poll "tm.location.events" (env.topic.take (env.visible w.tick))
  (msg, { w with consumer, tick := w.tick + 1 })

/-- `consumer_.commit`. -/
def commit (msg : KafkaMessage) (w : World G) : World G :=
  { w with consumer := w.consumer.commit msg, commits := w.commits ++ [msg.offset] }

/-- `dedup_.is_duplicate`. -/
def is_duplicate (event : LocationEvent) (w : World G) : Bool × World G :=
  let (duplicate, dedup) := w.dedup.is_duplicate event.device_id event.seq
    (env.steady_ns w.tick) (env.steady_ns (w.tick + 1))
  (duplicate, { w with dedup, tick := w.tick + 2 })

/-- `dedup_.mark_seen`. -/
def mark_seen (event : LocationEvent) (w : World G) : World G :=
  { w with
    dedup := w.dedup.mark_seen event.device_id event.seq
      (env.steady_ns w.tick) (env.steady_ns (w.tick + 1))
    tick := w.tick + 2 }

/-- `state_writer_.write_with_result`: an accepted event is noted with the offset of the message
polled last. -/
def write_with_result (event : LocationEvent) (w : World G) :
    Except Exception StateWriteOutcome × World G :=
  let (outcome, redis) := StateWriter.write_with_result p.h3 event (env.system_ms w.tick) w.redis
  let accepted :=
    match outcome with
    | .ok { accepted := true, .. } => (w.consumer.next_offset - 1, event) :: w.accepted
    | _ => w.accepted
  (outcome, { w with redis, accepted, tick := w.tick + 1 })

/-- Push an event to the history writer's buffer. -/
def push_history (event : LocationEvent) (w : World G) : World G :=
  { w with history_buffer := w.history_buffer ++ [event] }

/-- Swap the history writer's buffer with an empty one. -/
def take_history (w : World G) : List LocationEvent × World G :=
  (w.history_buffer, { w with history_buffer := [] })

/-- Whether the history writer's buffer has reached the batch size. -/
def history_full (w : World G) : Bool :=
  castInt w.history_buffer.length ≥ p.config.history_batch_size

/-- `dlq_.produce` of one event. -/
def produce_dlq (event : LocationEvent) (w : World G) : Except Exception Unit × World G :=
  let message := dlq_message event
  let (result, produced) := produce message.topic message.key message.payload w.produced
  (result, { w with produced })

/-- Note the time of a flush. -/
def stamp_flush (now_ns : ℤ) (w : World G) : World G := { w with last_flush := now_ns }

/-- Hand an evaluation request to the geofence engine. -/
def evaluate (geofence : events.GeofenceEvaluationRequested → G → G)
    (request : events.GeofenceEvaluationRequested) (w : World G) : World G :=
  { w with geofence := geofence request w.geofence }

/-- `pg_.batch_insert_trip_points`. -/
def batch_insert_trip_points (batch : List LocationEvent) (w : World G) :
    Except Exception Unit × World G :=
  match env.insert_error w.tick with
  | some what => (.error (.std what), { w with tick := w.tick + 1 })
  | none => (.ok (), { w with pg := w.pg.batch_insert_trip_points batch, tick := w.tick + 1 })

end World

open Prog (atomically modify read ofExcept forEach whileM)

/-- A reading of something that the environment determines. -/
def reading {β : Type} (f : ℕ → β) : Action G β :=
  atomically fun w => (f w.tick, w.advance)

/-- Read the steady clock and note it as the time of the last flush. -/
def note_flush : Action G Unit := do
  let now ← reading env.steady_ns
  modify (World.stamp_flush now)

namespace HistoryWriter

/-- `buffer`. -/
def buffer (event : LocationEvent) : Action G Unit := modify (World.push_history event)

/-- `should_flush`. -/
def should_flush : Action G Bool := read (World.history_full p)

/-- The body of the `try` in `flush`. -/
def insert_batch (batch : List LocationEvent) : Action G Unit := do
  let result ← atomically (World.batch_insert_trip_points env batch)
  ofExcept result

/-- Its handler: the events of a failed batch go to the dead-letter topic. -/
def send_to_dlq (batch : List LocationEvent) : Exception → Action G Unit
  | .std _ => forEach batch fun event => do
    let result ← atomically (World.produce_dlq event)
    ofExcept result
  | .other => .throw .other

/-- `flush`. -/
def flush : Action G Unit := do
  let batch ← atomically World.take_history
  if batch = [] then
    return
  (insert_batch env batch).tryCatch (send_to_dlq batch)

end HistoryWriter

/-- The call of the state writer; its exception is thrown. -/
def write_with_result (event : LocationEvent) : Action G StateWriteOutcome := do
  let outcome ← atomically (World.write_with_result env p event)
  ofExcept outcome

/-- The subscribers of `StateWriteRequested`, where `evaluate` is the subscriber of
`GeofenceEvaluationRequested`. -/
def state_write_requested_with (evaluate : events.GeofenceEvaluationRequested → Action G Unit)
    (event : LocationEvent) : Action G Unit := do
  let outcome ← write_with_result env p event
  if outcome.accepted then
    evaluate (geofence_evaluation_requested (state_write_succeeded event outcome))

/-- The subscribers of `StateWriteRequested`. -/
def state_write_requested (geofence : events.GeofenceEvaluationRequested → G → G)
    (event : LocationEvent) : Action G Unit :=
  state_write_requested_with env p (fun request => modify (World.evaluate geofence request)) event

/-- The subscribers of `TripHistoryWriteRequested`. -/
def trip_history_write_requested (event : LocationEvent) : Action G Unit := do
  HistoryWriter.buffer event
  if ← HistoryWriter.should_flush p then
    HistoryWriter.flush env

/-- The subscribers of `LocationAccepted`, where `evaluate` is the subscriber of
`GeofenceEvaluationRequested`. -/
def location_accepted_with (evaluate : events.GeofenceEvaluationRequested → Action G Unit)
    (event : LocationEvent) : Action G Unit := do
  state_write_requested_with env p evaluate event
  trip_history_write_requested env p event

/-- The subscribers of `LocationAccepted`. -/
def location_accepted (geofence : events.GeofenceEvaluationRequested → G → G)
    (event : LocationEvent) : Action G Unit :=
  location_accepted_with env p (fun request => modify (World.evaluate geofence request)) event

/-- What the loop does with an accepted event in direct mode, up to the commit. -/
def write_directly (event : LocationEvent) : Action G Unit := do
  let outcome ← write_with_result env p event
  if outcome.accepted then
    HistoryWriter.buffer event
    if ← HistoryWriter.should_flush p then
      HistoryWriter.flush env
      note_flush env

/-- `duration_cast<milliseconds>`. -/
def elapsed_ms (from_ns to_ns : ℤ) : ℤ := (to_ns - from_ns).tdiv 1000000

namespace ProcessingLoop

/-- A turn without a message: flush when the interval has passed. -/
def idle : Action G Unit := do
  let now ← reading env.steady_ns
  let due ← read fun w => decide (w.history_buffer.length > 0 ∧
    elapsed_ms w.last_flush now ≥ p.config.history_flush_interval_ms)
  if due then
    HistoryWriter.flush env
    note_flush env

/-- An event that is not a duplicate and that the sequence guard lets through. -/
def accept (event : LocationEvent) : Action G Unit :=
  match p.event_bus with
  | some geofence => location_accepted env p geofence event
  | none => write_directly env p event

/-- A turn with a decoded event, up to the commit, where `accept` is what happens to an event that is
not a duplicate and that the sequence guard lets through. -/
def process_with (accept : LocationEvent → Action G Unit) (event : LocationEvent) :
    Action G Unit := do
  if ← atomically (World.is_duplicate env event) then
    return
  modify (World.mark_seen env event)
  if ← read fun w => SequenceGuard.should_accept w.redis event.device_id event.seq then
    accept event

/-- A turn with a decoded event, up to the commit. -/
def process (event : LocationEvent) : Action G Unit := process_with env (accept env p) event

/-- The body of the loop, where `process` is what happens to a decoded event. A payload that does not
decode is committed at once; every other path commits when it ends. -/
def turn_with (process : LocationEvent → Action G Unit) : Action G Unit := do
  match ← atomically (World.poll env) with
  | none => idle env p
  | some msg =>
    match decode_location_payload msg.payload with
    | .error _ => pure ()
    | .ok event => process event
    modify (World.commit msg)

/-- The body of the loop. -/
def turn : Action G Unit := turn_with env p (process env p)

/-- The condition of the loop. -/
def condition : Action G Bool := do
  let stop ← reading env.should_stop
  return !stop

/-- `run` with a body of the loop, for at most `n` turns: whether the stop flag ended the loop, after a
last flush. -/
def run_with (turn : Action G Unit) (n : ℕ) : Action G Bool := do
  note_flush env
  let stopped ← whileM (condition env) turn n
  if stopped then
    HistoryWriter.flush env
  return stopped

/-- `run`, for at most `n` turns. -/
def run (n : ℕ) : Action G Bool := run_with env (turn env p) n

end ProcessingLoop

section Specifications

open Prog (always_bind always_tryCatch always_forEach)

variable {env p} {w w' : World G} {event : LocationEvent}

/-- A reading only advances the tick. -/
@[simp] theorem always_reading {β : Type} {I : World G → Prop} {P : β → World G → Prop}
    {E : Exception → World G → Prop} (f : ℕ → β) (w : World G) :
    (reading f).Always .atomic I P E w ↔ I w.advance ∧ P (f w.tick) w.advance := Iff.rfl

/-- The loop's condition is a reading of the stop flag. -/
@[simp] theorem always_condition {I : World G → Prop} {P : Bool → World G → Prop}
    {E : Exception → World G → Prop} (w : World G) :
    (ProcessingLoop.condition env).Always .atomic I P E w ↔
      I w.advance ∧ P (!env.should_stop w.tick) w.advance := Iff.rfl

/-- Noting a flush is a reading and a stamp. -/
@[simp] theorem always_note_flush {I : World G → Prop} {P : Unit → World G → Prop}
    {E : Exception → World G → Prop} (w : World G) :
    (note_flush env).Always .atomic I P E w ↔
      I w.advance ∧ I (w.advance.stamp_flush (env.steady_ns w.tick)) ∧
        P () (w.advance.stamp_flush (env.steady_ns w.tick)) := Iff.rfl

namespace World

/-- The part of the world that history writing and evaluation leave alone. -/
structure Frame (w w' : World G) : Prop where
  redis : w'.redis = w.redis
  dedup : w'.dedup = w.dedup
  consumer : w'.consumer = w.consumer
  accepted : w'.accepted = w.accepted
  commits : w'.commits = w.commits

@[refl] theorem Frame.refl (w : World G) : w.Frame w := ⟨rfl, rfl, rfl, rfl, rfl⟩

theorem Frame.trans {w'' : World G} (h : w.Frame w') (h' : w'.Frame w'') : w.Frame w'' :=
  ⟨h'.redis.trans h.redis, h'.dedup.trans h.dedup, h'.consumer.trans h.consumer,
    h'.accepted.trans h.accepted, h'.commits.trans h.commits⟩

theorem frame_batch_insert (batch : List LocationEvent) :
    w.Frame (w.batch_insert_trip_points env batch).2 := by
  unfold batch_insert_trip_points
  split <;> exact ⟨rfl, rfl, rfl, rfl, rfl⟩

/-- The dead-letter topic has a name, so producing to it does not throw. -/
theorem produce_dlq_eq : w.produce_dlq event =
    (.ok (), { w with produced := w.produced ++ [dlq_message event] }) := rfl

/-- Asking the window takes no pair in. -/
theorem seen_is_duplicate (event : LocationEvent) (w : World G) :
    (w.is_duplicate env event).2.dedup.seen ⊆ w.dedup.seen :=
  DedupWindow.seen_is_duplicate event.device_id event.seq (env.steady_ns w.tick)
    (env.steady_ns (w.tick + 1))

/-- Marking an event takes its pair in. -/
theorem seen_mark_seen (event : LocationEvent) (w : World G) :
    (w.mark_seen env event).dedup.seen ⊆ insert (event.device_id, event.seq) w.dedup.seen :=
  DedupWindow.seen_mark_seen event.device_id event.seq (env.steady_ns w.tick)
    (env.steady_ns (w.tick + 1))

/-- So does marking an event that was asked about. -/
theorem seen_mark_asked (event : LocationEvent) (w : World G) :
    ((w.is_duplicate env event).2.mark_seen env event).dedup.seen ⊆
      insert (event.device_id, event.seq) w.dedup.seen :=
  (seen_mark_seen event _).trans (Set.insert_subset_insert (seen_is_duplicate event w))

end World

/-- A state write of an event with valid coordinates is one compare-and-set, and notes the event when
it is accepted. -/
theorem World.write_with_result_valid (env : Environment) (p : Processor G) (w : World G)
    (hv : valid_lat_lon event.lat event.lon = true) :
    ∃ cell, p.h3.lat_lng_to_cell event.lat event.lon = .ok cell ∧
      w.write_with_result env p event =
        let state := StateWriter.state_of event cell (env.system_ms w.tick)
        let cas := w.redis.update_device_state_cas event.device_id state
        let previous := (w.redis.get_device_state event.device_id).map DeviceState.h3_cell
        (.ok ⟨cas.1, state, previous.getD 0⟩, { w with
          redis := cas.2
          accepted := if cas.1 then (w.consumer.next_offset - 1, event) :: w.accepted
            else w.accepted
          tick := w.tick + 1 }) := by
  obtain ⟨cell, hcell, hw⟩ := StateWriter.write_with_result_valid p.h3 event
    (env.system_ms w.tick) w.redis hv
  refine ⟨cell, hcell, ?_⟩
  unfold World.write_with_result
  rw [hw]
  dsimp only
  cases (w.redis.update_device_state_cas event.device_id
    (StateWriter.state_of event cell (env.system_ms w.tick))).1 <;> rfl

/-- A state write of an event with invalid coordinates throws. -/
theorem World.write_with_result_invalid (hv : valid_lat_lon event.lat event.lon = false) :
    w.write_with_result env p event =
      (.error (.std "coordinate out of range"), { w with tick := w.tick + 1 }) := by
  unfold World.write_with_result
  rw [StateWriter.write_with_result_invalid hv]

/-- An exception of the database is standard. -/
theorem insert_batch_error {batch : List LocationEvent} {e : Exception}
    (h : (w.batch_insert_trip_points env batch).1 = .error e) : ∃ what, e = .std what := by
  unfold World.batch_insert_trip_points at h
  split at h
  · exact ⟨_, (Except.error.inj h).symm⟩
  · cases h

/-- A flush throws nothing and touches nothing but the history. -/
theorem flush_frame : (HistoryWriter.flush env).Always .atomic w.Frame (fun _ => w.Frame)
    (fun _ _ => False) w := by
  unfold HistoryWriter.flush
  have htake : w.Frame w.take_history.2 := ⟨rfl, rfl, rfl, rfl, rfl⟩
  rw [Prog.bind_eq, always_bind, Prog.always_atomically]
  refine ⟨htake, ?_⟩
  split
  · exact htake
  have hins : w.Frame (w.take_history.2.batch_insert_trip_points env w.take_history.1).2 :=
    htake.trans (World.frame_batch_insert _)
  unfold HistoryWriter.insert_batch
  rw [always_tryCatch, Prog.bind_eq, always_bind, Prog.always_atomically, Prog.always_ofExcept]
  refine ⟨hins, ?_⟩
  split
  · exact hins
  rename_i e he
  obtain ⟨what, rfl⟩ := insert_batch_error he
  refine always_forEach (fun _ => w.Frame) _ (fun event _ t ht => ?_) _ _ hins
  rw [Prog.bind_eq, always_bind, Prog.always_atomically, World.produce_dlq_eq, Prog.always_ofExcept]
  have hprod : w.Frame { t with produced := t.produced ++ [dlq_message event] } :=
    ht.trans ⟨rfl, rfl, rfl, rfl, rfl⟩
  exact ⟨hprod, hprod⟩

/-- Noting a flush touches neither stores nor window. -/
theorem note_flush_frame : (note_flush env).Always .atomic w.Frame (fun _ => w.Frame)
    (fun _ _ => False) w := by
  have hstamp : w.Frame (w.advance.stamp_flush (env.steady_ns w.tick)) := ⟨rfl, rfl, rfl, rfl, rfl⟩
  rw [always_note_flush]
  exact ⟨⟨rfl, rfl, rfl, rfl, rfl⟩, hstamp, hstamp⟩

/-- Buffering an event, and whatever flush it causes, touches neither stores nor window. -/
theorem buffer_frame {full : Action G Unit}
    (hfull : ∀ t, w.Frame t → full.Always .atomic w.Frame (fun _ => w.Frame) (fun _ _ => False) t) :
    Prog.Always .atomic w.Frame (fun _ => w.Frame) (fun _ _ => False) (do
      HistoryWriter.buffer event
      if ← HistoryWriter.should_flush p then full) w := by
  have hpush : w.Frame (w.push_history event) := ⟨rfl, rfl, rfl, rfl, rfl⟩
  unfold HistoryWriter.buffer HistoryWriter.should_flush
  simp only [Prog.bind_eq, always_bind, Prog.always_modify, Prog.always_read]
  refine ⟨hpush, hpush, ?_⟩
  cases (w.push_history event).history_full p with
  | true => exact hfull _ hpush
  | false => exact hpush

/-- A flush from a world in the frame stays in the frame. -/
theorem flush_frame_of (h : w.Frame w') :
    (HistoryWriter.flush env).Always .atomic w.Frame (fun _ => w.Frame) (fun _ _ => False) w' :=
  flush_frame.imp (fun _ => h.trans) (fun _ _ => h.trans) fun _ _ => id

/-- The history subscription touches neither stores nor window. -/
theorem trip_history_frame :
    (trip_history_write_requested env p event).Always .atomic w.Frame (fun _ => w.Frame)
      (fun _ _ => False) w := by
  unfold trip_history_write_requested
  exact buffer_frame fun _ => flush_frame_of

/-- Of what an accepted event does with valid coordinates, the stores and the window see only the
state write, in either mode. -/
theorem accept_frame (hv : valid_lat_lon event.lat event.lon = true) :
    (ProcessingLoop.accept env p event).Always .atomic
      (fun t => (w.write_with_result env p event).2.Frame t)
      (fun _ t => (w.write_with_result env p event).2.Frame t) (fun _ _ => False) w := by
  obtain ⟨cell, -, hw⟩ := World.write_with_result_valid env p w hv
  have hout : ∃ outcome, (w.write_with_result env p event).1 = .ok outcome := by
    rw [hw]
    exact ⟨_, rfl⟩
  obtain ⟨outcome, hout⟩ := hout
  generalize hw₁ : (w.write_with_result env p event).2 = w₁
  unfold ProcessingLoop.accept
  split
  · rename_i geofence _
    have htrip : ∀ t, w₁.Frame t → (trip_history_write_requested env p event).Always .atomic
        w₁.Frame (fun _ => w₁.Frame) (fun _ _ => False) t := fun t ht =>
      trip_history_frame.imp (fun _ => ht.trans) (fun _ _ => ht.trans) fun _ _ => id
    unfold location_accepted location_accepted_with state_write_requested_with write_with_result
    simp only [Prog.bind_eq, always_bind, Prog.always_atomically, Prog.always_ofExcept, hout, hw₁]
    refine ⟨World.Frame.refl _, ?_⟩
    split
    · have heval : w₁.Frame (w₁.evaluate geofence
          (geofence_evaluation_requested (state_write_succeeded event outcome))) :=
        ⟨rfl, rfl, rfl, rfl, rfl⟩
      rw [Prog.always_modify]
      exact ⟨heval, htrip _ heval⟩
    · rw [Prog.pure_eq, Prog.always_pure]
      exact htrip _ (World.Frame.refl _)
  · unfold write_directly write_with_result
    simp only [Prog.bind_eq, always_bind, Prog.always_atomically, Prog.always_ofExcept, hout, hw₁]
    refine ⟨World.Frame.refl _, ?_⟩
    split
    · refine buffer_frame fun t ht => ?_
      rw [always_bind]
      exact (flush_frame_of ht).imp (fun _ => id) (fun _ t' ht' => note_flush_frame.imp
        (fun _ => ht'.trans) (fun _ _ => ht'.trans) fun _ _ => id) fun _ _ => id
    · exact World.Frame.refl _

/-- With invalid coordinates it throws, after reading the clock and nothing else. -/
theorem accept_invalid (hv : valid_lat_lon event.lat event.lon = false) :
    (ProcessingLoop.accept env p event).Always .atomic (fun _ => True) (fun _ _ => False)
      (fun _ _ => True) w := by
  unfold ProcessingLoop.accept
  split
  · unfold location_accepted location_accepted_with state_write_requested_with write_with_result
    simp only [Prog.bind_eq, always_bind, Prog.always_atomically, Prog.always_ofExcept,
      World.write_with_result_invalid hv, and_self]
  · unfold write_directly write_with_result
    simp only [Prog.bind_eq, always_bind, Prog.always_atomically, Prog.always_ofExcept,
      World.write_with_result_invalid hv, and_self]

/-- A turn without a message touches neither stores nor window. -/
theorem idle_frame : (ProcessingLoop.idle env p).Always .atomic w.Frame (fun _ => w.Frame)
    (fun _ _ => False) w := by
  have hadvance : w.Frame w.advance := ⟨rfl, rfl, rfl, rfl, rfl⟩
  unfold ProcessingLoop.idle
  simp only [Prog.bind_eq, always_bind, always_reading, Prog.always_read]
  refine ⟨hadvance, hadvance, ?_⟩
  split
  · rw [always_bind]
    exact (flush_frame_of hadvance).imp (fun _ => id) (fun _ t ht => note_flush_frame.imp
      (fun _ => ht.trans) (fun _ _ => ht.trans) fun _ _ => id) fun _ _ => id
  · exact hadvance

/-- A flush of an empty buffer does nothing. -/
theorem flush_nil (h : w.history_buffer = []) :
    (HistoryWriter.flush env).Always .atomic (· = w) (fun _ => (· = w)) (fun _ _ => False) w := by
  have htake : w.take_history = ([], w) := by
    unfold World.take_history
    rw [h]
    congr 1
    rw [← h]
  unfold HistoryWriter.flush
  rw [Prog.bind_eq, always_bind, Prog.always_atomically, htake, if_pos rfl]
  exact ⟨rfl, rfl⟩

end Specifications

end SignalRoute
