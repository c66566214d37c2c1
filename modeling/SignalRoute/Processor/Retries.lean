import SignalRoute.Processor.BestEffort
import SignalRoute.Processor.Accounting

/-!
# Redelivery after a failure

A turn can end with an exception at three places: in the state write, before or after its
compare-and-set takes effect; in the geofence evaluation; and in a flush, when a dead letter cannot
be produced. The event has been marked as seen by then, the state write comes before the buffering,
and a flush has emptied the buffer, and nothing is undone. So when the message is delivered again,
the window or the sequence guard discards it, although the event is in no history (`retryable_iff`).
It is not discarded only where the window keeps nothing and the state write failed before its
effect.
-/

namespace SignalRoute

open Interaction
open Interaction.Prog (atomically ofExcept forEach always_bind always_tryCatch always_forEach)

/-- What fails, by tick: a state write before or after its compare-and-set, and the production of a
dead letter, which also depends on how many messages have been produced. -/
structure ProcessorFaults where
  write_error : ℕ → Option Exception := fun _ => none
  written_error : ℕ → Option Exception := fun _ => none
  produce_error : ℕ → ℕ → Option Exception := fun _ _ => none

variable {G : Type} (env : Environment) (p : Processor G) (faults : ProcessorFaults)

namespace World

/-- `state_writer_.write_with_result`, over a store that may fail. -/
def try_write_with_result (event : LocationEvent) (w : World G) :
    Except Exception StateWriteOutcome × World G :=
  match faults.write_error w.tick with
  | some e => (.error e, w.advance)
  | none =>
    let (outcome, w') := w.write_with_result env p event
    match faults.written_error w.tick with
    | some e => (.error e, w')
    | none => (outcome, w')

/-- `dlq_.produce` of one event, over a broker that may fail. -/
def try_produce_dlq (event : LocationEvent) (w : World G) : Except Exception Unit × World G :=
  match faults.produce_error w.tick w.produced.length with
  | some e => (.error e, w)
  | none => w.produce_dlq event

end World

/-- The handler in `flush`, over a broker that may fail. -/
def try_send_to_dlq (batch : List LocationEvent) : Exception → Action G Unit
  | .std _ => forEach batch fun event => do
    let result ← atomically (World.try_produce_dlq faults event)
    ofExcept result
  | .other => .throw .other

/-- `HistoryWriter::flush`, over a broker that may fail. -/
def try_flush : Action G Unit := do
  let batch ← atomically World.take_history
  if batch = [] then
    return
  (HistoryWriter.insert_batch env batch).tryCatch (try_send_to_dlq faults batch)

/-- What an event bus was given, or `none` in direct mode: the geofence engine, which may throw. -/
abbrev EventBusEngine (G : Type) : Type :=
  Option (events.GeofenceEvaluationRequested → G → Except Exception Unit × G)

variable (engine : EventBusEngine G)

/-- The call of the state writer, over a store that may fail. -/
def try_write_with_result (event : LocationEvent) : Action G StateWriteOutcome := do
  let outcome ← atomically (World.try_write_with_result env p faults event)
  ofExcept outcome

/-- The subscribers of `LocationAccepted`, where each of their steps may fail. -/
def try_location_accepted
    (evaluate : events.GeofenceEvaluationRequested → G → Except Exception Unit × G)
    (event : LocationEvent) : Action G Unit := do
  let outcome ← try_write_with_result env p faults event
  if outcome.accepted then
    geofence_evaluation evaluate (geofence_evaluation_requested (state_write_succeeded event outcome))
  HistoryWriter.buffer event
  if ← HistoryWriter.should_flush p then
    try_flush env faults

/-- What the loop does with an accepted event in direct mode, where each of its steps may fail. -/
def try_write_directly (event : LocationEvent) : Action G Unit := do
  let outcome ← try_write_with_result env p faults event
  if outcome.accepted then
    HistoryWriter.buffer event
    if ← HistoryWriter.should_flush p then
      try_flush env faults
      note_flush env

/-- An event that is not a duplicate and that the sequence guard lets through. -/
def try_accept (event : LocationEvent) : Action G Unit :=
  match engine with
  | some evaluate => try_location_accepted env p faults evaluate event
  | none => try_write_directly env p faults event

/-- The body of the loop, where each of the steps of an accepted event may fail. -/
def try_turn : Action G Unit :=
  ProcessingLoop.turn_with env p (ProcessingLoop.process_with env (try_accept env p faults engine))

/-- Where nothing fails, this is the body of the loop in direct mode. -/
theorem try_turn_direct (hdirect : p.event_bus = none) :
    try_turn env p {} none = ProcessingLoop.turn env p := by
  have haccept : try_accept env p {} none = ProcessingLoop.accept env p := by
    funext event
    unfold ProcessingLoop.accept
    rw [hdirect]
    rfl
  unfold try_turn
  rw [haccept]
  rfl

/-- And this is the body of the loop in event-bus mode. -/
theorem try_turn_bus (evaluate : events.GeofenceEvaluationRequested → G → Except Exception Unit × G) :
    try_turn env p {} (some evaluate) = bus_turn env p evaluate := by
  have haccept : try_accept env p {} (some evaluate) =
      location_accepted_with env p (geofence_evaluation evaluate) := by
    funext event
    change try_location_accepted env p {} evaluate event = _
    unfold try_location_accepted location_accepted_with state_write_requested_with
    simp only [Prog.bind_eq, Prog.bind_assoc]
    refine congrArg (Prog.bind (write_with_result env p event)) (funext fun outcome => ?_)
    cases outcome.accepted <;> rfl
  unfold try_turn
  rw [haccept]
  rfl

/-- A dead letter names the device and the sequence number of its event. -/
theorem key_of_dlq_message_eq {event event' : LocationEvent} (h : dlq_message event = dlq_message event') :
    event.device_id = event'.device_id ∧ event.seq = event'.seq := by
  have hdevice : event.device_id = event'.device_id := congrArg ProducedMessage.key h
  refine ⟨hdevice, ?_⟩
  have hpayload : serialize_dlq_payload event = serialize_dlq_payload event' :=
    congrArg ProducedMessage.payload h
  have hdigits : ∀ n : ℕ, ',' ∉ (toString n).toList := fun n hn =>
    absurd (Numeric.isDigit_of_mem_toString hn) (by decide)
  unfold serialize_dlq_payload at hpayload
  rw [hdevice] at hpayload
  simp only [String.append_assoc, String.append_right_inj] at hpayload
  have hl := congrArg String.toList hpayload
  simp only [String.toList_append] at hl
  change _ ++ ',' :: _ = _ ++ ',' :: _ at hl
  have hseq := (Numeric.mark_append_injective (hdigits _) (hdigits _) hl).1
  exact Numeric.toString_injective (String.toList_inj.mp hseq)

open PostgresClient (trip_point_key)

namespace History

/-- The devices and sequence numbers of the events that a history holds. -/
def recorded (h : History) : Set (String × ℕ) := {key | ∃ event, h.Holds event ∧ trip_point_key event = key}

/-- A longer buffer records no less. -/
theorem recorded_buffer {pg : PostgresClient} {dead_letters : List ProducedMessage}
    {buffer buffer' : List LocationEvent} (hsub : buffer ⊆ buffer') :
    (History.mk pg dead_letters buffer).recorded ⊆ (History.mk pg dead_letters buffer').recorded := by
  rintro key ⟨event, hbuffered | hstored, rfl⟩
  · exact ⟨event, .inl (hsub hbuffered), rfl⟩
  · exact ⟨event, .inr hstored, rfl⟩

/-- An event that is buffered is recorded. -/
theorem recorded_push (h : History) (event : LocationEvent) :
    (h.push event).recorded ⊆ insert (trip_point_key event) h.recorded := by
  rintro key ⟨event', hbuffered | hstored, rfl⟩
  · rcases List.mem_append.mp hbuffered with hold | hnew
    · exact .inr ⟨event', .inl hold, rfl⟩
    · rw [List.mem_singleton.mp hnew]
      exact .inl rfl
  · exact .inr ⟨event', .inr hstored, rfl⟩

/-- A flush that inserts the buffer records nothing new. -/
theorem recorded_inserted (h : History) :
    (History.mk (h.pg.batch_insert_trip_points h.buffer) h.dead_letters []).recorded ⊆ h.recorded := by
  rintro key ⟨event, hbuffered | hstored | hdead, rfl⟩
  · cases hbuffered
  · rcases PostgresClient.mem_or_mem_of_mem_batch_insert hstored with hold | hnew
    · exact ⟨event, .inr (.inl hold), rfl⟩
    · exact ⟨event, .inl hnew, rfl⟩
  · exact ⟨event, .inr (.inr hdead), rfl⟩

/-- Neither does one that sends some of it to the dead-letter topic. -/
theorem recorded_sent (pg : PostgresClient) (dead_letters : List ProducedMessage)
    (sent : List LocationEvent) :
    (History.mk pg (dead_letters ++ sent.map dlq_message) []).recorded ⊆
      (History.mk pg dead_letters sent).recorded := by
  rintro key ⟨event, hbuffered | hstored | hdead, rfl⟩
  · cases hbuffered
  · exact ⟨event, .inr (.inl hstored), rfl⟩
  · rcases List.mem_append.mp hdead with hold | hnew
    · exact ⟨event, .inr (.inr hold), rfl⟩
    · obtain ⟨event', hsent, hmessage⟩ := List.mem_map.mp hnew
      obtain ⟨hdevice, hseq⟩ := key_of_dlq_message_eq hmessage
      exact ⟨event', .inl hsent, by rw [trip_point_key, trip_point_key, hdevice, hseq]⟩

/-- No flush records anything new. -/
theorem Flushes.recorded {env : Environment} {h h' : History} (hflush : h.Flushes env h') :
    h'.recorded ⊆ h.recorded := by
  cases hflush with
  | kept => exact subset_rfl
  | inserted => exact h.recorded_inserted
  | failed _ _ => exact recorded_sent h.pg h.dead_letters h.buffer

end History

section Specifications

variable {env p faults engine} {w : World G} {event : LocationEvent}

variable (env faults) in
/-- A flush records nothing new. One that fails loses the end of the buffer. -/
theorem try_flush_spec (w : World G) :
    (try_flush env faults).Always .atomic (fun _ => True)
      (fun _ t => w.Frame t ∧ t.history.recorded ⊆ w.history.recorded)
      (fun _ t => w.Frame t ∧ ∃ sent lost, w.history_buffer = sent ++ lost ∧ lost ≠ [] ∧
        t.history.recorded ⊆ (History.mk w.pg w.produced sent).recorded) w := by
  unfold try_flush
  rw [Prog.bind_eq, always_bind, Prog.always_atomically]
  refine ⟨trivial, ?_⟩
  have htake : w.Frame w.take_history.2 := ⟨rfl, rfl, rfl, rfl, rfl⟩
  change Prog.Always _ _ _ _ (if w.history_buffer = [] then _ else _) w.take_history.2
  -- The buffer is taken first, as in the flush that does not fail.
  by_cases hempty : w.history_buffer = []
  · rw [if_pos hempty]
    exact ⟨htake, History.recorded_buffer (List.nil_subset _)⟩
  rw [if_neg hempty]
  unfold HistoryWriter.insert_batch
  rw [always_tryCatch, Prog.bind_eq, always_bind, Prog.always_atomically, Prog.always_ofExcept]
  refine ⟨trivial, ?_⟩
  have htick : w.take_history.2.tick = w.tick := rfl
  unfold World.batch_insert_trip_points
  rw [htick]
  cases env.insert_error w.tick with
  | none => exact ⟨⟨rfl, rfl, rfl, rfl, rfl⟩, w.history.recorded_inserted⟩
  | some what =>
    -- What has been sent is a beginning of the buffer, and the rest is still to be sent.
    refine always_forEach (fun rest t => w.Frame t ∧ t.pg = w.pg ∧ t.history_buffer = [] ∧
      ∃ sent, w.history_buffer = sent ++ rest ∧
        t.produced = w.produced ++ sent.map dlq_message) _ (fun event rest t ht => ?_) _ _ ?_ |>.imp
      (fun _ => id) ?_ fun _ _ => id
    · obtain ⟨hframe, hpg, hbuffer, sent, hsplit, hproduced⟩ := ht
      rw [Prog.bind_eq, always_bind, Prog.always_atomically, Prog.always_ofExcept]
      refine ⟨trivial, ?_⟩
      unfold World.try_produce_dlq
      -- The first event that is not produced stops the loop, and it and the rest are lost.
      cases faults.produce_error t.tick t.produced.length with
      | some e =>
        refine ⟨hframe, sent, event :: rest, hsplit, List.cons_ne_nil _ _, ?_⟩
        unfold World.history
        dsimp only
        rw [hpg, hbuffer, hproduced]
        exact History.recorded_sent _ _ _
      | none =>
        refine ⟨hframe.trans ⟨rfl, rfl, rfl, rfl, rfl⟩, hpg, hbuffer, sent ++ [event], ?_, ?_⟩
        · rw [hsplit, List.append_assoc, List.singleton_append]
        · dsimp only
          rw [World.produce_dlq_eq, hproduced, List.map_append, List.append_assoc]
          rfl
    · exact ⟨⟨rfl, rfl, rfl, rfl, rfl⟩, rfl, rfl, [], rfl, (List.append_nil _).symm⟩
    · rintro _ t ⟨hframe, hpg, hbuffer, sent, hsplit, hproduced⟩
      refine ⟨hframe, ?_⟩
      rw [List.append_nil] at hsplit
      unfold World.history
      rw [hpg, hbuffer, hproduced, hsplit]
      exact History.recorded_sent _ _ _

/-- Buffering an event, and a flush of the buffer: the event is recorded in the end, or something
throws and it is not. -/
theorem buffer_spec {full : Action G Unit}
    (hfull : ∀ t : World G, full.Always .atomic (fun _ => True)
      (fun _ t' => t.Frame t' ∧ t'.history.recorded ⊆ t.history.recorded)
      (fun _ t' => t.Frame t' ∧ ∃ sent lost, t.history_buffer = sent ++ lost ∧ lost ≠ [] ∧
        t'.history.recorded ⊆ (History.mk t.pg t.produced sent).recorded) t) :
    Prog.Always .atomic (fun _ => True)
      (fun _ t => w.Frame t ∧ t.history.recorded ⊆ insert (trip_point_key event) w.history.recorded)
      (fun _ t => w.Frame t ∧ t.history.recorded ⊆ w.history.recorded) (do
        HistoryWriter.buffer event
        if ← HistoryWriter.should_flush p then full) w := by
  unfold HistoryWriter.buffer HistoryWriter.should_flush
  simp only [Prog.bind_eq, always_bind, Prog.always_modify, Prog.always_read]
  refine ⟨trivial, trivial, ?_⟩
  have hpush : w.Frame (w.push_history event) := ⟨rfl, rfl, rfl, rfl, rfl⟩
  -- A buffer that is not full keeps the event; a full one is flushed.
  cases (w.push_history event).history_full p with
  | false => exact ⟨hpush, w.history.recorded_push event⟩
  | true =>
    refine (hfull _).imp (fun _ => id) ?_ ?_
    · rintro _ t ⟨hframe, hrecorded⟩
      exact ⟨hpush.trans hframe, hrecorded.trans (w.history.recorded_push event)⟩
    · rintro _ t ⟨hframe, sent, lost, hsplit, hlost, hrecorded⟩
      -- The event is the last one of the buffer, so it is lost.
      obtain ⟨lost', last, rfl⟩ := List.eq_nil_or_concat lost |>.resolve_left hlost
      have hbuffer : w.history_buffer ++ [event] = sent ++ lost' ++ [last] := by
        rw [List.concat_eq_append] at hsplit
        rw [List.append_assoc]
        exact hsplit
      have hsent : sent ⊆ w.history_buffer := by
        rw [(List.append_inj' hbuffer rfl).1]
        exact List.subset_append_left _ _
      exact ⟨hpush.trans hframe, hrecorded.trans (History.recorded_buffer hsent)⟩

/-- A flush that is noted is as one that is not. -/
theorem try_flush_noted_spec (w : World G) :
    ((try_flush env faults).bind fun _ => note_flush env).Always .atomic (fun _ => True)
      (fun _ t => w.Frame t ∧ t.history.recorded ⊆ w.history.recorded)
      (fun _ t => w.Frame t ∧ ∃ sent lost, w.history_buffer = sent ++ lost ∧ lost ≠ [] ∧
        t.history.recorded ⊆ (History.mk w.pg w.produced sent).recorded) w := by
  rw [always_bind]
  refine (try_flush_spec env faults w).imp (fun _ => id) (fun _ t ht => ?_) fun _ _ => id
  rw [always_note_flush]
  exact ⟨trivial, trivial, ht.1.trans ⟨rfl, rfl, rfl, rfl, rfl⟩, ht.2⟩

/-- An evaluation touches neither stores nor window nor history, whether it throws or not. -/
theorem geofence_evaluation_frame
    {evaluate : events.GeofenceEvaluationRequested → G → Except Exception Unit × G}
    {request : events.GeofenceEvaluationRequested} (w : World G) :
    (geofence_evaluation evaluate request).Always .atomic (fun _ => True)
      (fun _ t => w.Frame t ∧ t.history = w.history) (fun _ t => w.Frame t ∧ t.history = w.history) w := by
  have hframe : w.Frame (w.try_evaluate evaluate request).2 := ⟨rfl, rfl, rfl, rfl, rfl⟩
  unfold geofence_evaluation
  rw [Prog.bind_eq, always_bind, Prog.always_atomically, Prog.always_ofExcept]
  refine ⟨trivial, ?_⟩
  cases (w.try_evaluate evaluate request).1 with
  | ok _ => exact ⟨hframe, rfl⟩
  | error e => exact ⟨hframe, rfl⟩

/-- The state write fails before its compare-and-set takes effect. -/
def World.FailsToWrite (faults : ProcessorFaults) (event : LocationEvent) (w : World G) : Prop :=
  valid_lat_lon event.lat event.lon = false ∨ faults.write_error w.tick ≠ none

/-- The state of an event is written. -/
def Wrote (event : LocationEvent) (redis redis' : RedisClient) : Prop :=
  ∃ state, state.seq = event.seq ∧ redis' = (redis.update_device_state_cas event.device_id state).2

/-- What the state write of an event leaves, whether it throws or not. -/
structure StateWrite (faults : ProcessorFaults) (event : LocationEvent) (w t : World G) : Prop where
  dedup : t.dedup = w.dedup
  history : t.history = w.history
  redis : w.FailsToWrite faults event ∧ t.redis = w.redis ∨
    ¬w.FailsToWrite faults event ∧ Wrote event w.redis t.redis

/-- A state write of an event that the sequence guard lets through throws, or it is accepted. -/
theorem try_write_spec (hnewer : SequenceGuard.should_accept w.redis event.device_id event.seq = true) :
    (try_write_with_result env p faults event).Always .atomic (fun _ => True)
      (fun outcome t => outcome.accepted = true ∧ StateWrite faults event w t ∧
        ¬w.FailsToWrite faults event)
      (fun _ t => StateWrite faults event w t) w := by
  unfold try_write_with_result World.try_write_with_result
  rw [Prog.bind_eq, always_bind, Prog.always_atomically, Prog.always_ofExcept]
  refine ⟨trivial, ?_⟩
  -- An exception before the compare-and-set, or after it, or none.
  cases hfault : faults.write_error w.tick with
  | some e =>
    have hfails : w.FailsToWrite faults event := .inr (by rw [hfault]; exact Option.some_ne_none e)
    exact ⟨rfl, rfl, .inl ⟨hfails, rfl⟩⟩
  | none =>
    cases hv : valid_lat_lon event.lat event.lon with
    | false =>
      have hfailed : StateWrite faults event w { w with tick := w.tick + 1 } :=
        ⟨rfl, rfl, .inl ⟨.inl hv, rfl⟩⟩
      dsimp only
      rw [World.write_with_result_invalid hv]
      cases faults.written_error w.tick with
      | none => exact hfailed
      | some e => exact hfailed
    | true =>
      have hwrites : ¬w.FailsToWrite faults event := by
        rintro (hinvalid | hfault')
        · rw [hv] at hinvalid
          cases hinvalid
        · exact hfault' hfault
      obtain ⟨cell, -, hw⟩ := World.write_with_result_valid env p w hv
      dsimp only at hw ⊢
      rw [cas_of_should_accept (StateWriter.state_of event cell (env.system_ms w.tick)) hnewer,
        if_pos rfl] at hw
      rw [hw]
      have hwrote : Wrote event w.redis (w.redis.update_device_state_cas event.device_id
          (StateWriter.state_of event cell (env.system_ms w.tick))).2 := ⟨_, rfl, rfl⟩
      -- The store has the state by now, whether the cells are then written or not.
      cases faults.written_error w.tick with
      | none => exact ⟨rfl, ⟨rfl, rfl, .inr ⟨hwrites, hwrote⟩⟩, hwrites⟩
      | some e => exact ⟨rfl, rfl, .inr ⟨hwrites, hwrote⟩⟩

/-- What an accepted event leaves where something throws: the event is not recorded, and its state is
written unless the state write failed. -/
structure Fails (faults : ProcessorFaults) (event : LocationEvent) (w t : World G) : Prop where
  dedup : t.dedup = w.dedup
  recorded : t.history.recorded ⊆ w.history.recorded
  redis : w.FailsToWrite faults event ∧ t.redis = w.redis ∨
    ¬w.FailsToWrite faults event ∧ Wrote event w.redis t.redis

/-- What an accepted event leaves where nothing throws. -/
structure Succeeds (event : LocationEvent) (w t : World G) : Prop where
  dedup : t.dedup = w.dedup
  recorded : t.history.recorded ⊆ insert (trip_point_key event) w.history.recorded
  redis : Wrote event w.redis t.redis

/-- An accepted event, in either mode: it is written and recorded, or something throws. -/
theorem try_accept_spec (hnewer : SequenceGuard.should_accept w.redis event.device_id event.seq = true) :
    (try_accept env p faults engine event).Always .atomic (fun _ => True)
      (fun _ t => Succeeds event w t) (fun _ t => Fails faults event w t) w := by
  have hfails : ∀ t, StateWrite faults event w t → Fails faults event w t := fun t ht =>
    ⟨ht.dedup, ht.history ▸ subset_rfl, ht.redis⟩
  -- After the write, the event is buffered in a world that differs from the written one in the geofence.
  have hbuffered : ∀ {full : Action G Unit} {t u : World G}, StateWrite faults event w t →
      ¬w.FailsToWrite faults event → t.Frame u → u.history = t.history →
      Prog.Always .atomic (fun _ => True)
        (fun _ t => u.Frame t ∧ t.history.recorded ⊆ insert (trip_point_key event) u.history.recorded)
        (fun _ t => u.Frame t ∧ t.history.recorded ⊆ u.history.recorded) full u →
      full.Always .atomic (fun _ => True) (fun _ t => Succeeds event w t)
        (fun _ t => Fails faults event w t) u := by
    intro full t u ht hwrites hframe hhistory hfull
    have hwrote : Wrote event w.redis t.redis := (ht.redis.resolve_left fun h => hwrites h.1).2
    rw [hhistory, ht.history] at hfull
    refine hfull.imp (fun _ => id) ?_ ?_
    · rintro _ v ⟨hv, hrecorded⟩
      exact ⟨hv.dedup.trans (hframe.dedup.trans ht.dedup), hrecorded,
        by rw [hv.redis, hframe.redis]; exact hwrote⟩
    · rintro _ v ⟨hv, hrecorded⟩
      exact ⟨hv.dedup.trans (hframe.dedup.trans ht.dedup), hrecorded,
        .inr ⟨hwrites, by rw [hv.redis, hframe.redis]; exact hwrote⟩⟩
  -- In event-bus mode the evaluation may throw between the write and the buffering.
  cases engine with
  | some evaluate =>
    change (try_location_accepted env p faults evaluate event).Always _ _ _ _ w
    unfold try_location_accepted
    rw [Prog.bind_eq, always_bind]
    refine (try_write_spec hnewer).imp (fun _ => id) ?_ fun _ t ht => hfails t ht
    rintro outcome t ⟨haccepted, ht, hwrites⟩
    rw [if_pos haccepted, Prog.bind_eq, always_bind]
    refine (geofence_evaluation_frame t).imp (fun _ => id) ?_ ?_
    · rintro _ u ⟨hframe, hhistory⟩
      exact hbuffered ht hwrites hframe hhistory (buffer_spec fun t => try_flush_spec env faults t)
    · rintro _ u ⟨hframe, hhistory⟩
      exact hfails u ⟨hframe.dedup.trans ht.dedup, hhistory.trans ht.history, hframe.redis ▸ ht.redis⟩
  | none =>
    change (try_write_directly env p faults event).Always _ _ _ _ w
    unfold try_write_directly
    rw [Prog.bind_eq, always_bind]
    refine (try_write_spec hnewer).imp (fun _ => id) ?_ fun _ t ht => hfails t ht
    rintro outcome t ⟨haccepted, ht, hwrites⟩
    rw [if_pos haccepted]
    refine hbuffered ht hwrites (World.Frame.refl t) rfl ?_
    exact buffer_spec fun t => try_flush_noted_spec t

/-- Nothing is recorded that the sequence guard would still let through. -/
def World.Past (w : World G) : Prop :=
  ∀ key ∈ w.history.recorded, SequenceGuard.should_accept w.redis key.1 key.2 = false

/-- A written event is not let through again, and neither is what was not let through before. -/
theorem Wrote.should_accept {redis redis' : RedisClient} (h : Wrote event redis redis')
    (hnewer : SequenceGuard.should_accept redis event.device_id event.seq = true) {d : String} {s : ℕ}
    (hpast : (d, s) = trip_point_key event ∨ SequenceGuard.should_accept redis d s = false) :
    SequenceGuard.should_accept redis' d s = false := by
  obtain ⟨state, hseq, rfl⟩ := h
  rw [← hseq] at hnewer
  rw [should_accept_cas hnewer]
  -- For the device of the event the guard now asks for more than the event's number.
  by_cases hd : d = event.device_id
  · subst hd
    rw [if_pos rfl, hseq]
    refine decide_eq_false fun hlt => ?_
    rcases hpast with heq | hold
    · exact absurd hlt (by rw [(Prod.mk.inj heq).2]; exact lt_irrefl _)
    · rw [← hseq] at hlt
      exact absurd (lt_of_should_accept hnewer hold) (not_lt.mpr hlt.le)
  · rw [if_neg hd]
    rcases hpast with heq | hold
    · exact absurd (Prod.mk.inj heq).1 hd
    · exact hold

/-- The invariant after an event that succeeds. -/
theorem Succeeds.past {t : World G} (h : Succeeds event w t) (hw : w.Past)
    (hnewer : SequenceGuard.should_accept w.redis event.device_id event.seq = true) : t.Past := by
  rintro ⟨d, s⟩ hkey
  rcases h.recorded hkey with heq | hold
  · exact h.redis.should_accept hnewer (.inl heq)
  · exact h.redis.should_accept hnewer (.inr (hw (d, s) hold))

/-- And after one that fails. -/
theorem Fails.past {t : World G} (h : Fails faults event w t) (hw : w.Past)
    (hnewer : SequenceGuard.should_accept w.redis event.device_id event.seq = true) : t.Past := by
  rintro ⟨d, s⟩ hkey
  have hold := hw (d, s) (h.recorded hkey)
  rcases h.redis with ⟨-, hredis⟩ | ⟨-, hwrote⟩
  · rwa [hredis]
  · exact hwrote.should_accept hnewer (.inr hold)

/-- A turn that throws does so at an accepted event, which fails. -/
def FailedTurn (env : Environment) (faults : ProcessorFaults) (w t : World G) : Prop :=
  ∃ msg event, (w.poll env).1 = some msg ∧ decode_location_payload msg.payload = .ok event ∧
    w.outcome env msg = .accepted event ∧ Fails faults event (w.admitted env event) t

/-- A message that is admitted changes neither stores nor history. -/
theorem admitted_stores {msg : KafkaMessage} (hpolled : (w.poll env).1 = some msg)
    (event : LocationEvent) : (w.admitted env event).redis = w.redis ∧
      (w.admitted env event).history = w.history := by
  have hpoll := (World.poll_some hpolled).2
  unfold World.admitted
  rw [hpoll]
  exact ⟨rfl, rfl⟩

variable (env p faults engine) in
/-- A turn keeps the invariant, whether it throws or not. -/
theorem try_turn_spec (hw : w.Past) :
    (try_turn env p faults engine).Always .atomic (fun _ => True) (fun _ t => t.Past)
      (fun _ t => t.Past ∧ FailedTurn env faults w t) w := by
  have hsame : ∀ t : World G, t.redis = w.redis → t.history = w.history → t.Past := by
    intro t hredis hhistory key hkey
    rw [hhistory] at hkey
    rw [hredis]
    exact hw key hkey
  refine always_turn_with (fun hpolled => ?_) (fun msg hpolled _ => ?_) (fun msg event hpolled _ => ?_)
    (fun msg event hpolled _ => ?_) fun msg event hpolled hdecode houtcome => ?_
  · rw [World.poll_none hpolled]
    refine (idle_frame.and idle_flushes).imp (fun _ _ => trivial) ?_ fun _ _ h => h.1.elim
    rintro _ t ⟨hframe, hflushes⟩ key hkey
    have hold := hw key (hflushes.recorded hkey)
    rwa [hframe.redis]
  · rw [(World.poll_some hpolled).2]
    exact hsame _ rfl rfl
  · rw [(World.poll_some hpolled).2]
    exact hsame _ rfl rfl
  · obtain ⟨hredis, hhistory⟩ := admitted_stores hpolled event
    exact hsame _ hredis hhistory
  · obtain ⟨hredis, hhistory⟩ := admitted_stores hpolled event
    have hnewer := (World.of_accepted houtcome).2
    rw [← hredis] at hnewer
    have hpast : (w.admitted env event).Past := hsame _ hredis hhistory
    refine (try_accept_spec hnewer).imp (fun _ => id) ?_ ?_
    · exact fun _ t ht => ht.past hpast hnewer
    · exact fun _ t ht => ⟨ht.past hpast hnewer, msg, event, hpolled, hdecode, houtcome, ht⟩

end Specifications

/-- The worlds that a loop can be in between its turns, from fresh stores on. It is run again where it
threw; time passes, and the broker may deliver any messages again. -/
inductive Reached (env : Environment) (p : Processor G) (faults : ProcessorFaults)
    (engine : EventBusEngine G) : World G → Prop
  | start (max_entries : ℕ) (ttl_seconds : ℤ) (geofence : G) :
      Reached env p faults engine (World.fresh max_entries ttl_seconds geofence)
  | turn {w : World G} : Reached env p faults engine w →
      Reached env p faults engine ((try_turn env p faults engine).exec .atomic w).final
  | flush {w : World G} : Reached env p faults engine w →
      Reached env p faults engine ((try_flush env faults).exec .atomic w).final
  | elapse {w : World G} (tick : ℕ) (last_flush : ℤ) (consumer : KafkaConsumer) :
      Reached env p faults engine w →
      Reached env p faults engine { w with tick, last_flush, consumer }

/-- The message of a payload is delivered again, to a loop with the window and the store that a turn
left. The steady clock does not go back. -/
structure Redelivered (t : World G) (payload : String) (env' : Environment) (t' : World G)
    (msg' : KafkaMessage) : Prop where
  dedup : t'.dedup = t.dedup
  redis : t'.redis = t.redis
  polled : (t'.poll env').1 = some msg'
  payload : msg'.payload = payload
  later : ∀ entry ∈ t.dedup.lru_list, entry.seen_at ≤ env'.steady_ns (t'.tick + 1)

/-- When it is delivered again, the event of a payload is discarded as a duplicate or as stale only
if it has been written and is recorded. -/
def Retryable (t : World G) (payload : String) (event : LocationEvent) : Prop :=
  ∀ env' t' msg', Redelivered t payload env' t' msg' →
    t'.outcome env' msg' = .duplicate event ∨ t'.outcome env' msg' = .stale event →
    SequenceGuard.should_accept t.redis event.device_id event.seq = false ∧
      trip_point_key event ∈ t.history.recorded

section Retries

variable {env p faults engine} {w : World G} {event : LocationEvent}

/-- In every reachable world, nothing is recorded that the sequence guard would still let through. -/
theorem Reached.past (h : Reached env p faults engine w) : w.Past := by
  induction h with
  | start max_entries ttl_seconds geofence =>
    -- Nothing is recorded at the start.
    rintro key ⟨event, hholds | hholds | hholds, rfl⟩ <;> cases hholds
  | @turn w _ ih =>
    obtain ⟨-, hok, herror⟩ := (Prog.always_iff_exec _ _).mp
      (try_turn_spec env p faults engine ih)
    cases hr : ((try_turn env p faults engine).exec .atomic w).result with
    | ok _ => exact hok _ hr
    | error e => exact (herror e hr).1
  | @flush w _ ih =>
    obtain ⟨-, hok, herror⟩ := (Prog.always_iff_exec _ _).mp (try_flush_spec env faults w)
    cases hr : ((try_flush env faults).exec .atomic w).result with
    | ok _ =>
      obtain ⟨hframe, hrecorded⟩ := hok _ hr
      intro key hkey
      have hold := ih key (hrecorded hkey)
      rwa [hframe.redis]
    | error e =>
      -- A flush that fails loses events, and what is not recorded needs no guard.
      obtain ⟨hframe, sent, lost, hsplit, -, hrecorded⟩ := herror e hr
      intro key hkey
      have hsub : sent ⊆ w.history_buffer := by
        rw [hsplit]
        exact List.subset_append_left _ _
      have hold := ih key (History.recorded_buffer hsub (hrecorded hkey))
      rwa [hframe.redis]
  | elapse _ _ _ _ ih => exact ih

/-- What happens to a message that is delivered again. -/
theorem Redelivered.outcome {t t' : World G} {payload : String} {env' : Environment} {msg' : KafkaMessage}
    (h : Redelivered t payload env' t' msg') (hdecoded : decode_location_payload payload = .ok event) :
    t'.outcome env' msg' =
      if (t.dedup.is_duplicate event.device_id event.seq (env'.steady_ns (t'.tick + 1))
        (env'.steady_ns (t'.tick + 1 + 1))).1 then .duplicate event
      else if SequenceGuard.should_accept t.redis event.device_id event.seq then .accepted event
      else .stale event := by
  unfold World.outcome
  rw [h.payload, hdecoded]
  dsimp only
  rw [(World.poll_some h.polled).2]
  unfold World.is_duplicate
  dsimp only
  rw [h.dedup, h.redis]

/-- Whatever a turn has left, its message can be delivered again at any time after the last use of the
window. -/
theorem exists_redelivered (t : World G) (payload : String) {now_ns : ℤ}
    (hlater : ∀ entry ∈ t.dedup.lru_list, entry.seen_at ≤ now_ns) :
    ∃ env' t' msg', Redelivered t payload env' t' msg' ∧ env'.steady_ns (t'.tick + 1) = now_ns := by
  let env' := { Environment.attentive [⟨"", payload, 0⟩] with steady_ns := fun _ => now_ns }
  exact ⟨env', { t with consumer := {} }, ⟨"tm.location.events", 0, 0, "", payload, 0⟩,
    ⟨rfl, rfl, rfl, rfl, hlater⟩, rfl⟩

/-- The time of the last use of a window. -/
theorem exists_last_use (l : List Entry) :
    ∃ now_ns : ℤ, (∀ entry ∈ l, entry.seen_at ≤ now_ns) ∧
      (l ≠ [] → ∃ last ∈ l, last.seen_at = now_ns) := by
  induction l with
  | nil => exact ⟨0, by simp, by simp⟩
  | cons entry l ih =>
    obtain ⟨now_ns, hle, hlast⟩ := ih
    by_cases hnew : now_ns ≤ entry.seen_at
    · refine ⟨entry.seen_at, ?_, fun _ => ⟨entry, List.mem_cons_self, rfl⟩⟩
      exact List.forall_mem_cons.mpr ⟨le_rfl, fun e he => (hle e he).trans hnew⟩
    · by_cases hnil : l = []
      · subst hnil
        exact ⟨entry.seen_at, by simp, fun _ => ⟨entry, List.mem_cons_self, rfl⟩⟩
      · obtain ⟨last, hmem, heq⟩ := hlast hnil
        refine ⟨now_ns, List.forall_mem_cons.mpr ⟨(not_le.mp hnew).le, hle⟩, fun _ => ?_⟩
        exact ⟨last, List.mem_cons_of_mem _ hmem, heq⟩

/-- A failed turn is not retried, unless the window keeps nothing and the state write failed before its
effect: for every reachable world, in either mode, and every message whose turn throws. -/
theorem retryable_iff (env : Environment) (p : Processor G) (faults : ProcessorFaults)
    (engine : EventBusEngine G) (w : World G) (hreached : Reached env p faults engine w)
    {msg : KafkaMessage} (hpolled : (w.poll env).1 = some msg)
    (hdecoded : decode_location_payload msg.payload = .ok event) {e : Exception}
    (hthrows : ((try_turn env p faults engine).exec .atomic w).result = .error e) :
    Retryable ((try_turn env p faults engine).exec .atomic w).final msg.payload event ↔
      w.dedup.KeepsNothing ∧ (w.admitted env event).FailsToWrite faults event := by
  generalize hrun : (try_turn env p faults engine).exec .atomic w = run at hthrows
  obtain ⟨-, -, herror⟩ := (Prog.always_iff_exec _ _).mp
    (try_turn_spec env p faults engine hreached.past)
  rw [hrun] at herror
  obtain ⟨-, msg', event', hpolled', hdecoded', houtcome, hfails⟩ := herror e hthrows
  obtain rfl : msg = msg' := Option.some.inj (hpolled.symm.trans hpolled')
  obtain rfl : event = event' := Except.ok.inj (hdecoded.symm.trans hdecoded')
  obtain ⟨hnew, hnewer⟩ := World.of_accepted houtcome
  obtain ⟨hredis, hhistory⟩ := admitted_stores hpolled event
  -- The event is in no history, because the sequence guard let it through.
  have hunrecorded : trip_point_key event ∉ run.final.history.recorded := by
    intro hkey
    have hold := hreached.past _ (hhistory ▸ hfails.recorded hkey)
    rw [trip_point_key, hnewer] at hold
    cases hold
  -- It is the newest entry of the window, if the window has room.
  have hdedup : (w.poll env).2.dedup = w.dedup := by rw [(World.poll_some hpolled).2]
  have hwindow : run.final.dedup = (w.admitted env event).dedup := hfails.dedup
  unfold World.admitted World.is_duplicate World.mark_seen at hwindow
  unfold World.is_duplicate at hnew
  dsimp only at hwindow hnew
  rw [hdedup] at hwindow hnew
  have hlimits : w.dedup.SameLimits run.final.dedup := by
    rw [hwindow]
    exact (w.dedup.sameLimits_is_duplicate _ _ _ _).trans (DedupWindow.sameLimits_mark_seen _ _ _ _)
  obtain ⟨rest, hlist⟩ := DedupWindow.mark_seen_of_new (env.steady_ns ((w.poll env).2.tick + 2))
    (env.steady_ns ((w.poll env).2.tick + 2 + 1)) hnew
  rw [← hwindow] at hlist
  constructor
  · intro hretryable
    obtain ⟨now_ns, hlater, hlast⟩ := exists_last_use run.final.dedup.lru_list
    obtain ⟨env', t', msg', hredelivered, hnow⟩ := exists_redelivered run.final msg.payload hlater
    -- It is not discarded, since it is not recorded.
    have hkept : ¬(t'.outcome env' msg' = .duplicate event ∨ t'.outcome env' msg' = .stale event) :=
      fun hdiscarded => hunrecorded (hretryable env' t' msg' hredelivered hdiscarded).2
    rw [hredelivered.outcome hdecoded, hnow] at hkept
    refine ⟨?_, ?_⟩
    · -- A window that keeps the event takes it for a duplicate, at the time of its last use.
      by_contra hkeeps
      obtain ⟨hroom, httl⟩ := not_or.mp hkeeps
      obtain ⟨room, hroom⟩ := Nat.exists_eq_succ_of_ne_zero hroom
      rw [hroom, List.take_succ_cons] at hlist
      have hdup := DedupWindow.is_duplicate_of_head hlist (hlast (by rw [hlist]; exact List.cons_ne_nil _ _))
        (by rw [hlimits.ttl_seconds]; exact not_lt.mp httl) (env'.steady_ns (t'.tick + 1 + 1))
      rw [if_pos hdup] at hkept
      exact hkept (.inl rfl)
    · -- Where the state was written, the sequence guard stops the event.
      by_contra hwrites
      have hwrote := (hfails.redis.resolve_left fun h => hwrites h.1).2
      rw [hwrote.should_accept (by rw [hredis]; exact hnewer) (.inl rfl), if_neg Bool.false_ne_true] at hkept
      split at hkept
      · exact hkept (.inl rfl)
      · exact hkept (.inr rfl)
  · rintro ⟨hkeeps, hfailed⟩ env' t' msg' hredelivered hdiscarded
    -- Neither the window nor the store knows of the event, so it is accepted again.
    have hfresh : (run.final.dedup.is_duplicate event.device_id event.seq (env'.steady_ns (t'.tick + 1))
        (env'.steady_ns (t'.tick + 1 + 1))).1 = false := by
      rcases hkeeps with hroom | httl
      · rw [hroom, List.take_zero] at hlist
        exact DedupWindow.is_duplicate_of_empty hlist _ _ _ _
      · rw [← hlimits.ttl_seconds] at httl
        exact DedupWindow.is_duplicate_of_expired httl hredelivered.later _ _ _
    have hsame : run.final.redis = w.redis := by
      rcases hfails.redis with ⟨-, hsame⟩ | ⟨hwrites, -⟩
      · exact hsame.trans hredis
      · exact absurd hfailed hwrites
    rw [hredelivered.outcome hdecoded, hfresh, hsame, hnewer, if_neg Bool.false_ne_true, if_pos rfl]
      at hdiscarded
    rcases hdiscarded with h | h <;> cases h

/-- A message that is off the globe, in direct mode, for a window without room: it is let through
again, and throws again. -/
theorem retryable_iff_without_room :
    let env := Environment.attentive [⟨"d", "d,1,1,1,91,0", 0⟩]
    let run := (try_turn env late_processor {} none).exec .atomic (World.fresh 0 10 ())
    Retryable run.final "d,1,1,1,91,0"
      { device_id := "d", seq := 1, timestamp_ms := 1, server_recv_ms := 1, lat := .finite 91 } :=
  (retryable_iff (.attentive [⟨"d", "d,1,1,1,91,0", 0⟩]) late_processor {} none (World.fresh 0 10 ())
    (.start 0 10 ())
    (show (World.poll _ _).1 = some ⟨"tm.location.events", 0, 0, "d", "d,1,1,1,91,0", 0⟩ by decide +kernel)
    (by decide +kernel) (e := .std "coordinate out of range") (by decide +kernel)).mpr
    ⟨.inl rfl, .inl (by decide +kernel)⟩

/-- An event whose geofence evaluation throws is a duplicate when it is delivered again, and its record
is missing. -/
theorem failed_evaluation_not_retried : ¬ ∀ {G : Type} (env : Environment) (p : Processor G)
    (faults : ProcessorFaults) (engine : EventBusEngine G) (w : World G),
    Reached env p faults engine w → ∀ (msg : KafkaMessage) (event : LocationEvent),
    (w.poll env).1 = some msg → decode_location_payload msg.payload = .ok event → ∀ e,
    ((try_turn env p faults engine).exec .atomic w).result = .error e →
    Retryable ((try_turn env p faults engine).exec .atomic w).final msg.payload event := by
  intro hall
  have hdecoded : decode_location_payload "d,1,1,1,-89.5,-179.5" = .ok polar_event := by decide +kernel
  have hretryable := hall polar_environment polar_processor {} (some polar_evaluate)
    (World.fresh 10 10 {}) (.start 10 10 _)
    { topic := "tm.location.events", offset := 0, key := "d", payload := "d,1,1,1,-89.5,-179.5" }
    polar_event (by decide +kernel) hdecoded (.std "Kafka produce failed") (by decide +kernel)
  generalize hrun : (try_turn polar_environment polar_processor {} (some polar_evaluate)).exec .atomic
    (World.fresh 10 10 {}) = run at hretryable
  -- The window has the event, and nothing else has.
  have hwindow : run.final.dedup.lru_list = [⟨"d", 1, 0⟩] ∧ run.final.dedup.ttl_seconds = 10 := by
    rw [← hrun]
    decide +kernel
  have hempty : run.final.history_buffer = [] ∧ run.final.pg.trip_points = [] ∧
      run.final.produced = [] := by
    rw [← hrun]
    decide +kernel
  obtain ⟨hlist, httl⟩ := hwindow
  have hlater : ∀ e ∈ run.final.dedup.lru_list, e.seen_at ≤ 0 := by simp [hlist]
  obtain ⟨env', t', msg', hredelivered, hnow⟩ := exists_redelivered run.final "d,1,1,1,-89.5,-179.5"
    hlater
  have hdup := DedupWindow.is_duplicate_of_head hlist ⟨_, by rw [hlist]; exact List.mem_cons_self, rfl⟩
    (by rw [httl]; decide) (env'.steady_ns (t'.tick + 1 + 1))
  have houtcome : t'.outcome env' msg' = .duplicate polar_event := by
    rw [hredelivered.outcome hdecoded, hnow]
    exact if_pos hdup
  obtain ⟨-, event, hholds, -⟩ := hretryable env' t' msg' hredelivered (.inl houtcome)
  rcases hholds with hbuffered | hstored | hdead
  · simp [World.history, hempty.1] at hbuffered
  · simp [World.history, hempty.2.1] at hstored
  · simp [World.history, hempty.2.2] at hdead

end Retries

end SignalRoute
