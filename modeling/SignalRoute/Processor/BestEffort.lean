import SignalRoute.Processor.Turns
import SignalRoute.Geofence.Evaluator

/-!
# A failing geofence evaluation

In event-bus mode, the evaluation of an accepted event is a subscriber at the end of three nested
publications. `EventBus::publish` calls its subscribers one after the other and catches nothing, so
an exception of the evaluator skips the subscribers that are left at each level (the history writer
is one of them), and the commit, and leaves `run` (`failing_evaluation_ends_run`).

Here the evaluation is any function that may fail; `FaultyStore.evaluate` is the evaluator itself,
over stores whose insertions and productions fail.
-/

namespace SignalRoute

open Interaction
open Interaction.Prog (atomically ofExcept whileM always_bind exec_bind)
open Store (HashOrder)

/-- The subscriber of `GeofenceEvaluationRequested`: the evaluator over the stores, with their faults. -/
def FaultyStore.evaluate (faults : GeofenceFaults) (orders : ℕ → HashOrder) (registry : FenceRegistry)
    (order : HashOrder) (event_topic : String) (request : events.GeofenceEvaluationRequested)
    (s : FaultyStore) : Except Exception Unit × FaultyStore :=
  let run := (Evaluator.evaluate registry order event_topic request.device_id request.old_h3_cell
    request.new_h3_cell request.lat request.lon request.timestamp_ms).exec (handler faults orders) s
  (run.result, run.final)

variable {G : Type}

/-- Hand an evaluation request to a geofence engine that may throw. -/
def World.try_evaluate (evaluate : events.GeofenceEvaluationRequested → G → Except Exception Unit × G)
    (request : events.GeofenceEvaluationRequested) (w : World G) : Except Exception Unit × World G :=
  let (result, geofence) := evaluate request w.geofence
  (result, { w with geofence })

/-- The subscriber of `GeofenceEvaluationRequested`; its exception is thrown. -/
def geofence_evaluation (evaluate : events.GeofenceEvaluationRequested → G → Except Exception Unit × G)
    (request : events.GeofenceEvaluationRequested) : Action G Unit := do
  let result ← atomically (World.try_evaluate evaluate request)
  ofExcept result

variable (env : Environment) (p : Processor G)
  (evaluate : events.GeofenceEvaluationRequested → G → Except Exception Unit × G)

/-- The body of the loop in event-bus mode, with this subscriber. -/
def bus_turn : Action G Unit :=
  ProcessingLoop.turn_with env p
    (ProcessingLoop.process_with env (location_accepted_with env p (geofence_evaluation evaluate)))

/-- `run` in event-bus mode, with this subscriber. -/
def bus_run (n : ℕ) : Action G Bool := ProcessingLoop.run_with env (bus_turn env p evaluate) n

/-- The world after a message has been polled, and its event has passed the dedup window. -/
def World.admitted (event : LocationEvent) (w : World G) : World G :=
  ((w.poll env).2.is_duplicate env event).2.mark_seen env event

/-- A turn from this world polls a message whose event is accepted, with this outcome of the state
write. -/
structure Accepts (w : World G) (msg : KafkaMessage) (event : LocationEvent)
    (outcome : StateWriteOutcome) : Prop where
  polled : (w.poll env).1 = some msg
  decoded : decode_location_payload msg.payload = .ok event
  first : ((w.poll env).2.is_duplicate env event).1 = false
  newer : SequenceGuard.should_accept w.redis event.device_id event.seq = true
  written : ((w.admitted env event).write_with_result env p event).1 = .ok outcome
  accepted : outcome.accepted = true

variable {env p evaluate} {w₀ w : World G}

/-- The event is neither buffered nor written to the history, and nothing is committed. -/
structure Unstored (w t : World G) : Prop where
  history_buffer : t.history_buffer = w.history_buffer
  pg : t.pg = w.pg
  produced : t.produced = w.produced
  committed_offset : t.consumer.committed_offset = w.consumer.committed_offset

/-- Polling a message commits nothing. -/
theorem poll_committed_offset :
    (w.poll env).2.consumer.committed_offset = w.consumer.committed_offset := by
  unfold World.poll
  rcases w.consumer.poll_cases "tm.location.events" (env.topic.take (env.visible w.tick)) with
    ⟨hpoll, -⟩ | ⟨_, _, -, -, -, hpoll⟩
  · rw [hpoll]
  · rw [hpoll]

/-- A turn whose evaluation throws ends with that exception, and leaves the history and the committed
offset as they were. -/
theorem bus_turn_throws {msg : KafkaMessage} {event : LocationEvent} {outcome : StateWriteOutcome}
    (haccepts : Accepts env p w msg event outcome) {e : Exception}
    (hthrows : (evaluate (geofence_evaluation_requested (state_write_succeeded event outcome))
      w.geofence).1 = .error e) :
    (bus_turn env p evaluate).Always .atomic (fun _ => True) (fun _ _ => False)
      (fun e' t => e' = e ∧ Unstored w t) w := by
  obtain ⟨hpolled, hdecoded, hfirst, hnewer, hwritten, haccepted⟩ := haccepts
  generalize hrequest :
    geofence_evaluation_requested (state_write_succeeded event outcome) = request at hthrows
  unfold bus_turn ProcessingLoop.turn_with
  rw [Prog.bind_eq, always_bind, Prog.always_atomically, hpolled]
  refine ⟨trivial, ?_⟩
  dsimp only
  rw [hdecoded]
  dsimp only
  unfold ProcessingLoop.process_with
  rw [Prog.bind_eq, always_bind, Prog.bind_eq, always_bind, Prog.always_atomically, hfirst,
    if_neg Bool.false_ne_true, Prog.bind_eq, always_bind, Prog.always_modify]
  refine ⟨trivial, trivial, ?_⟩
  -- The message is polled, decoded and marked; the guard lets the event through.
  have hguard : SequenceGuard.should_accept (w.admitted env event).redis event.device_id event.seq =
      true := hnewer
  change Prog.Always _ _ _ _ _ (w.admitted env event)
  rw [Prog.bind_eq, always_bind, Prog.always_read, if_pos hguard]
  refine ⟨trivial, ?_⟩
  unfold location_accepted_with state_write_requested_with write_with_result
  rw [Prog.bind_eq, always_bind, Prog.bind_eq, always_bind, Prog.bind_eq, always_bind,
    Prog.always_atomically, hwritten, Prog.always_ofExcept]
  refine ⟨trivial, ?_⟩
  dsimp only
  rw [if_pos haccepted, hrequest]
  -- The state is written, and the evaluation comes before the history.
  unfold geofence_evaluation
  rw [Prog.bind_eq, always_bind, Prog.always_atomically, Prog.always_ofExcept]
  refine ⟨trivial, ?_⟩
  have htry : (((w.admitted env event).write_with_result env p event).2.try_evaluate evaluate
      request).1 = .error e := hthrows
  rw [htry]
  exact ⟨rfl, rfl, rfl, rfl, poll_committed_offset⟩

/-- A failing geofence evaluation ends the run. In every run in event-bus mode, whatever the
evaluation does: if it throws for an accepted event, its exception leaves `run`, the event is not
written to the history or buffered for it, and its offset is not committed. -/
theorem failing_evaluation_ends_run
    (evaluate : events.GeofenceEvaluationRequested → G → Except Exception Unit × G) {k n : ℕ}
    (hheads : Heads env (bus_turn env p evaluate) (w₀.started env) k w) (hk : k < n)
    (hgo : env.should_stop w.tick = false) {msg : KafkaMessage} {event : LocationEvent}
    {outcome : StateWriteOutcome} (haccepts : Accepts env p w.advance msg event outcome)
    {e : Exception}
    (hthrows : (evaluate (geofence_evaluation_requested (state_write_succeeded event outcome))
      w.geofence).1 = .error e) :
    ((bus_run env p evaluate n).exec .atomic w₀).result = .error e ∧
      Unstored w ((bus_run env p evaluate n).exec .atomic w₀).final := by
  obtain ⟨-, hok, herror⟩ := (Prog.always_iff_exec _ _).mp
    (bus_turn_throws (w := w.advance) haccepts hthrows)
  have hresult : ((bus_turn env p evaluate).exec .atomic w.advance).result = .error e := by
    cases hr : ((bus_turn env p evaluate).exec .atomic w.advance).result with
    | ok _ => exact (hok _ hr).elim
    | error e' => rw [(herror e' hr).1]
  obtain ⟨hrun, hfinal⟩ := exec_run_throws hheads hk hgo hresult
  unfold bus_run
  rw [hrun, hfinal]
  obtain ⟨-, hbuffer, hpg, hproduced, hcommitted⟩ := herror e hresult
  exact ⟨rfl, hbuffer, hpg, hproduced, hcommitted⟩

/-- A fence around a position in cell zero. -/
def polar_fence : GeofenceRule where
  fence_id := "f"
  polygon_vertices := [(.finite (-90), .finite (-180)), (.finite (-90), .finite (-179)),
    (.finite (-89), .finite (-179)), (.finite (-89), .finite (-180))]
  h3_cells := {0}

/-- The evaluator with this fence, and a producer that fails when the event of the entry is produced. -/
def polar_evaluate :
    events.GeofenceEvaluationRequested → FaultyStore → Except Exception Unit × FaultyStore :=
  FaultyStore.evaluate
    { produce_error := fun tick => if tick = 1 then some (.std "Kafka produce failed") else none }
    (fun _ => .insertion) (FenceRegistry.load .insertion { active_fences := [polar_fence] })
    .insertion "tm.geofence.events"

/-- One event inside the fence. -/
def polar_event : LocationEvent where
  device_id := "d"
  lat := .finite (-179 / 2)
  lon := .finite (-359 / 2)
  timestamp_ms := 1
  server_recv_ms := 1
  seq := 1

/-- Its message is all there is. -/
def polar_environment : Environment :=
  .attentive [{ key := "d", payload := "d,1,1,1,-89.5,-179.5" }]

/-- A processor at resolution zero. -/
def polar_processor : Processor FaultyStore := ⟨.coarsest, {}, none⟩

/-- The run on the message. -/
def polar_run : Run (World FaultyStore) Exception Bool :=
  (bus_run polar_environment polar_processor polar_evaluate 1).exec .atomic (World.fresh 10 10 {})

/-- The world at the start of its only turn, once the stop flag has been read. -/
def polar_start : World FaultyStore :=
  ((World.fresh 10 10 {}).started polar_environment).advance

/-- The turn accepts the event of the message. -/
theorem polar_accepts :
    Accepts polar_environment polar_processor polar_start
      { topic := "tm.location.events", offset := 0, key := "d", payload := "d,1,1,1,-89.5,-179.5" }
      polar_event ⟨true, StateWriter.state_of polar_event 0 0, 0⟩ where
  polled := by decide +kernel
  decoded := by decide +kernel
  first := by decide +kernel
  newer := by decide +kernel
  written := by decide +kernel
  accepted := rfl

/-- The run ends with the exception of the evaluation. -/
theorem failing_evaluation_ends_run_polar :
    polar_run.result = .error (.std "Kafka produce failed") ∧
      Unstored ((World.fresh 10 10 {}).started polar_environment) polar_run.final :=
  failing_evaluation_ends_run polar_evaluate .start Nat.zero_lt_one rfl polar_accepts
    (by decide +kernel)

/-- The event of the message is accepted, but the run throws: the event is not buffered, and its offset
is not committed. -/
theorem polar_run_harmed :
    polar_run.final.accepted = [(0, polar_event)] ∧
      polar_run.result = .error (.std "Kafka produce failed") ∧
      polar_run.final.history_buffer = [] ∧ polar_run.final.pg.trip_points = [] ∧
      polar_run.final.produced = [] ∧ polar_run.final.consumer.committed_offset = 0 := by
  refine ⟨?_, ?_, ?_, ?_, ?_, ?_⟩ <;> decide +kernel

end SignalRoute
