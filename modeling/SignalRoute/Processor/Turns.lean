import SignalRoute.Processor.Loop

/-!
# What a turn of the loop does

A run is a sequence of turns (`Heads`), and each turn deals with at most one message. What happens
to the message is decided by the world that the turn starts from (`World.outcome`): it is malformed,
a duplicate, stale, or accepted. `always_turn` says what the turn does in each case, in either mode,
and that only the state write of an accepted event can throw.

Of the history, only its three parts matter: the trip points, the dead letters and the buffer
(`History`). A turn may flush the buffer (`History.Flushes`), at times that depend on the mode and
the clock. A stale event is none of this: its turn only commits, however late it is
(`stale_event_discarded`).
-/

namespace SignalRoute

open Interaction
open Interaction.Prog (atomically ofExcept whileM always_bind always_tryCatch always_forEach exec_bind)

variable {G : Type} (env : Environment) (p : Processor G)

/-- The world when the loop begins. -/
def World.started (w : World G) : World G := w.advance.stamp_flush (env.steady_ns w.tick)

/-- The worlds at the head of the loop after `k` turns that have returned. -/
inductive Heads (turn : Action G Unit) (w₀ : World G) : ℕ → World G → Prop
  | start : Heads turn w₀ 0 w₀
  | turn {k : ℕ} {w : World G} : Heads turn w₀ k w → env.should_stop w.tick = false →
      (turn.exec .atomic w.advance).result = .ok () →
      Heads turn w₀ (k + 1) (turn.exec .atomic w.advance).final

/-- Where the events of the trip history are: written, sent to the dead-letter topic, or in memory. -/
structure History where
  pg : PostgresClient
  dead_letters : List ProducedMessage
  buffer : List LocationEvent

/-- The history of a world. -/
def World.history (w : World G) : History := ⟨w.pg, w.produced, w.history_buffer⟩

namespace History

/-- One more event in the buffer. -/
def push (event : LocationEvent) (h : History) : History := { h with buffer := h.buffer ++ [event] }

/-- The history stays as it is, or the buffer is flushed: all of it is inserted or, if the insertion
fails, all of it is sent to the dead-letter topic. -/
inductive Flushes (h : History) : History → Prop
  | kept : Flushes h h
  | inserted : Flushes h ⟨h.pg.batch_insert_trip_points h.buffer, h.dead_letters, []⟩
  | failed (tick : ℕ) : env.insert_error tick ≠ none →
      Flushes h ⟨h.pg, h.dead_letters ++ h.buffer.map dlq_message, []⟩

/-- The history after a flush, by the error of the insertion. -/
def flushed (h : History) : Option String → History
  | none => ⟨h.pg.batch_insert_trip_points h.buffer, h.dead_letters, []⟩
  | some _ => ⟨h.pg, h.dead_letters ++ h.buffer.map dlq_message, []⟩

end History

/-- What happens to a message. -/
inductive MessageOutcome where
  | malformed
  | duplicate (event : LocationEvent)
  | stale (event : LocationEvent)
  | accepted (event : LocationEvent)
  deriving DecidableEq

/-- What happens to a message that is polled from this world. -/
def World.outcome (w : World G) (msg : KafkaMessage) : MessageOutcome :=
  match decode_location_payload msg.payload with
  | .error _ => .malformed
  | .ok event =>
    if ((w.poll env).2.is_duplicate env event).1 then .duplicate event
    else if SequenceGuard.should_accept w.redis event.device_id event.seq then .accepted event
    else .stale event

/-- The system clock, as the state write of a turn from this world reads it: after the readings of the
poll and of the dedup window. -/
def World.write_ms (w : World G) : ℤ := env.system_ms (w.tick + 5)

/-- What stays as it is when an event is not accepted. -/
structure Discards (w t : World G) : Prop where
  redis : t.redis = w.redis
  accepted : t.accepted = w.accepted
  history : t.history = w.history

/-- What an accepted event does: its state is written, and it is pushed to the buffer. -/
structure Writes (event : LocationEvent) (w t : World G) : Prop where
  redis : ∃ cell, p.h3.lat_lng_to_cell event.lat event.lon = .ok cell ∧
    t.redis = (w.redis.update_device_state_cas event.device_id
      (StateWriter.state_of event cell (w.write_ms env))).2
  accepted : t.accepted = (w.consumer.next_offset, event) :: w.accepted
  history : (w.history.push event).Flushes env t.history

/-- What the outcome of a message does to the stores and the window. -/
def MessageOutcome.Effect (w t : World G) : MessageOutcome → Prop
  | .malformed => Discards w t ∧ t.dedup.seen ⊆ w.dedup.seen
  | .duplicate _ => Discards w t ∧ t.dedup.seen ⊆ w.dedup.seen
  | .stale event => Discards w t ∧ t.dedup.seen ⊆ insert (event.device_id, event.seq) w.dedup.seen
  | .accepted event =>
    Writes env p event w t ∧ t.dedup.seen ⊆ insert (event.device_id, event.seq) w.dedup.seen

/-- A turn polls a message and commits it once. -/
structure Consumes (w : World G) (msg : KafkaMessage) (t : World G) : Prop where
  next_offset : t.consumer.next_offset = w.consumer.next_offset + 1
  committed_offset : t.consumer.committed_offset =
    max w.consumer.committed_offset (w.consumer.next_offset + 1)
  commits : t.commits = w.commits ++ [w.consumer.next_offset]

/-- What a turn does. -/
def Turns (w t : World G) : Prop :=
  match (w.poll env).1 with
  | none => w.Frame t ∧ w.history.Flushes env t.history
  | some msg => Consumes w msg t ∧ (w.outcome env msg).Effect env p w t

variable {env p} {turn : Action G Unit} {w₀ w : World G} {event : LocationEvent}

/-- The loop takes a turn while it is not stopped. -/
theorem exec_loop_succ (turn : Action G Unit) (n : ℕ) (hgo : env.should_stop w.tick = false) :
    let loop := fun n => whileM (ProcessingLoop.condition env) turn n
    ((loop (n + 1)).exec .atomic w).result =
        ((turn.bind fun _ => loop n).exec .atomic w.advance).result ∧
      ((loop (n + 1)).exec .atomic w).final =
        ((turn.bind fun _ => loop n).exec .atomic w.advance).final := by
  intro loop
  have hcondition : (ProcessingLoop.condition env).exec .atomic w = ⟨[w.advance], .ok true, w.advance⟩ := by
    change (⟨[w.advance], .ok (!env.should_stop w.tick), w.advance⟩ : Run _ _ _) = _
    rw [hgo]
    rfl
  change ((Prog.bind (ProcessingLoop.condition env) _).exec .atomic w).result = _ ∧
    ((Prog.bind (ProcessingLoop.condition env) _).exec .atomic w).final = _
  rw [exec_bind, hcondition]
  exact ⟨rfl, rfl⟩

/-- After turns that have returned, the loop goes on as it would from there. -/
theorem exec_loop_heads {k : ℕ} (hheads : Heads env turn w₀ k w) (n : ℕ) :
    let loop := fun n => whileM (ProcessingLoop.condition env) turn n
    ((loop (n + k)).exec .atomic w₀).result = ((loop n).exec .atomic w).result ∧
      ((loop (n + k)).exec .atomic w₀).final = ((loop n).exec .atomic w).final := by
  intro loop
  induction hheads generalizing n with
  | start => exact ⟨rfl, rfl⟩
  | @turn k w _ hgo hok ih =>
    obtain ⟨hresult, hfinal⟩ := ih (n + 1)
    obtain ⟨hresult', hfinal'⟩ := exec_loop_succ turn n hgo
    rw [exec_bind, hok] at hresult' hfinal'
    rw [Nat.add_right_comm] at hresult hfinal
    exact ⟨hresult.trans hresult', hfinal.trans hfinal'⟩

/-- A turn that throws ends the loop. -/
theorem exec_loop_throws {n : ℕ} {e : Exception} (hgo : env.should_stop w.tick = false)
    (hthrows : (turn.exec .atomic w.advance).result = .error e) :
    let loop := fun n => whileM (ProcessingLoop.condition env) turn n
    ((loop (n + 1)).exec .atomic w).result = .error e ∧
      ((loop (n + 1)).exec .atomic w).final = (turn.exec .atomic w.advance).final := by
  intro loop
  obtain ⟨hresult, hfinal⟩ := exec_loop_succ turn n hgo
  rw [exec_bind, hthrows] at hresult hfinal
  exact ⟨hresult, hfinal⟩

/-- A run ends with the exception of the first turn that throws. -/
theorem exec_run_throws {k n : ℕ} {e : Exception} (hheads : Heads env turn (w₀.started env) k w)
    (hk : k < n) (hgo : env.should_stop w.tick = false)
    (hthrows : (turn.exec .atomic w.advance).result = .error e) :
    ((ProcessingLoop.run_with env turn n).exec .atomic w₀).result = .error e ∧
      ((ProcessingLoop.run_with env turn n).exec .atomic w₀).final =
        (turn.exec .atomic w.advance).final := by
  have hn : n = n - k - 1 + 1 + k := by omega
  obtain ⟨hresult, hfinal⟩ := exec_loop_heads hheads (n - k - 1 + 1)
  obtain ⟨hresult', hfinal'⟩ := exec_loop_throws (n := n - k - 1) hgo hthrows
  rw [← hn] at hresult hfinal
  have hflush : (note_flush env).exec .atomic w₀ =
      ⟨[w₀.advance, w₀.started env], .ok (), w₀.started env⟩ := rfl
  unfold ProcessingLoop.run_with
  rw [Prog.bind_eq, exec_bind, hflush]
  dsimp only
  rw [Prog.bind_eq, exec_bind, hresult, hresult']
  exact ⟨rfl, hfinal.trans hfinal'⟩

/-- The turns after the first one. -/
theorem Heads.after_first {k : ℕ} (hgo : env.should_stop w₀.tick = false)
    (hok : (turn.exec .atomic w₀.advance).result = .ok ())
    (h : Heads env turn (turn.exec .atomic w₀.advance).final k w) : Heads env turn w₀ (k + 1) w := by
  induction h with
  | start => exact .turn .start hgo hok
  | turn _ hgo' hok' ih => exact .turn ih hgo' hok'

/-- A loop that returns does so after some turns, when it is stopped. -/
theorem exec_loop_returns {n : ℕ}
    (hreturns : ((whileM (ProcessingLoop.condition env) turn n).exec .atomic w).result = .ok true) :
    ∃ k v, Heads env turn w k v ∧ env.should_stop v.tick = true ∧
      ((whileM (ProcessingLoop.condition env) turn n).exec .atomic w).final = v.advance := by
  induction n generalizing w with
  | zero => cases hreturns
  | succ n ih =>
    -- The loop ends at a turn where the signal is there when the condition is read.
    cases hstop : env.should_stop w.tick with
    | true =>
      have hcondition : (ProcessingLoop.condition env).exec .atomic w =
          ⟨[w.advance], .ok false, w.advance⟩ := by
        change (⟨[w.advance], .ok (!env.should_stop w.tick), w.advance⟩ : Run _ _ _) = _
        rw [hstop]
        rfl
      refine ⟨0, w, .start, hstop, ?_⟩
      rw [whileM, exec_bind, hcondition]
      rfl
    | false =>
      -- A turn is made, and the rest of the loop runs from where it ends.
      obtain ⟨hresult, hfinal⟩ := exec_loop_succ turn n hstop
      rw [hresult] at hreturns
      rw [exec_bind] at hreturns hfinal
      cases hturn : (turn.exec .atomic w.advance).result with
      | error e =>
        rw [hturn] at hreturns
        cases hreturns
      | ok _ =>
        rw [hturn] at hreturns hfinal
        obtain ⟨k, v, hheads, hlast_stop, hlast⟩ := ih hreturns
        exact ⟨k + 1, v, hheads.after_first hstop hturn, hlast_stop, hfinal.trans hlast⟩

/-- A run that returns does so after some turns, with a last flush. -/
theorem exec_run_returns {n : ℕ}
    (hreturns : ((ProcessingLoop.run_with env turn n).exec .atomic w₀).result = .ok true) :
    ∃ k w, Heads env turn (w₀.started env) k w ∧ env.should_stop w.tick = true ∧
      ((ProcessingLoop.run_with env turn n).exec .atomic w₀).final =
        ((HistoryWriter.flush env).exec .atomic w.advance).final := by
  have hflush : (note_flush env).exec .atomic w₀ =
      ⟨[w₀.advance, w₀.started env], .ok (), w₀.started env⟩ := rfl
  unfold ProcessingLoop.run_with at hreturns ⊢
  rw [Prog.bind_eq, exec_bind, hflush] at hreturns ⊢
  dsimp only at hreturns ⊢
  rw [Prog.bind_eq, exec_bind] at hreturns ⊢
  cases hloop : ((whileM (ProcessingLoop.condition env) turn n).exec .atomic
      (w₀.started env)).result with
  | error e =>
    rw [hloop] at hreturns
    cases hreturns
  | ok stopped =>
    rw [hloop] at hreturns
    dsimp only at hreturns ⊢
    cases stopped with
    | false =>
      -- Out of turns is not returning.
      rw [if_neg Bool.false_ne_true] at hreturns
      cases hreturns
    | true =>
      obtain ⟨k, w, hheads, hstop, hlast⟩ := exec_loop_returns hloop
      refine ⟨k, w, hheads, hstop, ?_⟩
      rw [if_pos rfl, Prog.bind_eq, exec_bind, hlast]
      cases ((HistoryWriter.flush env).exec .atomic w.advance).result <;> rfl

/-- What a flush does to the history. -/
theorem flush_history (w : World G) :
    (HistoryWriter.flush env).Always .atomic (fun _ => True)
      (fun _ t => t.history = w.history.flushed (env.insert_error w.tick)) (fun _ _ => False) w := by
  unfold HistoryWriter.flush
  rw [Prog.bind_eq, always_bind, Prog.always_atomically]
  refine ⟨trivial, ?_⟩
  change Prog.Always _ _ _ _ (if w.history_buffer = [] then _ else _) w.take_history.2
  by_cases hempty : w.history_buffer = []
  · -- An empty buffer is not inserted, and a failure to insert nothing leaves nothing.
    rw [if_pos hempty]
    change w.take_history.2.history = w.history.flushed (env.insert_error w.tick)
    unfold World.history World.take_history History.flushed
    rw [hempty]
    cases env.insert_error w.tick with
    | none => rfl
    | some what => exact congrArg (History.mk w.pg · []) (List.append_nil _).symm
  rw [if_neg hempty]
  unfold HistoryWriter.insert_batch
  rw [always_tryCatch, Prog.bind_eq, always_bind, Prog.always_atomically, Prog.always_ofExcept]
  refine ⟨trivial, ?_⟩
  have htick : w.take_history.2.tick = w.tick := rfl
  unfold World.batch_insert_trip_points
  rw [htick]
  cases env.insert_error w.tick with
  | none => rfl
  | some what =>
    -- The dead letters that are still to be produced are those of the events that are left.
    refine always_forEach (fun rest t => t.pg = w.pg ∧ t.history_buffer = [] ∧
      t.produced ++ rest.map dlq_message = w.produced ++ w.history_buffer.map dlq_message) _
      (fun event rest t ht => ?_) _ _ ⟨rfl, rfl, rfl⟩ |>.imp (fun _ => id) ?_ fun _ _ => id
    · obtain ⟨hpg, hbuffer, hproduced⟩ := ht
      rw [Prog.bind_eq, always_bind, Prog.always_atomically, World.produce_dlq_eq,
        Prog.always_ofExcept]
      refine ⟨trivial, hpg, hbuffer, ?_⟩
      rw [← hproduced, List.map_cons, List.append_assoc, List.singleton_append]
    · rintro _ t ⟨hpg, hbuffer, hproduced⟩
      rw [List.map_nil, List.append_nil] at hproduced
      unfold World.history
      rw [hpg, hbuffer, hproduced]
      rfl

/-- A flush leaves the buffer empty. -/
theorem flush_flushes (w : World G) :
    (HistoryWriter.flush env).Always .atomic (fun _ => True)
      (fun _ t => w.history.Flushes env t.history ∧ t.history_buffer = []) (fun _ _ => False) w := by
  refine (flush_history w).imp (fun _ => id) (fun _ t ht => ?_) fun _ _ => id
  have hbuffer : t.history.buffer = (w.history.flushed (env.insert_error w.tick)).buffer :=
    congrArg History.buffer ht
  rw [ht]
  cases herror : env.insert_error w.tick with
  | none =>
    rw [herror] at hbuffer
    exact ⟨.inserted, hbuffer⟩
  | some what =>
    rw [herror] at hbuffer
    exact ⟨.failed w.tick (herror ▸ Option.some_ne_none what), hbuffer⟩

/-- Noting the time of a flush leaves the history alone. -/
theorem note_flush_history : (note_flush env).Always .atomic (fun _ => True)
    (fun _ t => t.history = w.history) (fun _ _ => False) w := by
  rw [always_note_flush]
  exact ⟨trivial, trivial, rfl⟩

/-- Buffering an event pushes it, and may flush the buffer. -/
theorem buffer_flushes {full : Action G Unit}
    (hfull : ∀ t, full.Always .atomic (fun _ => True)
      (fun _ t' => t.history.Flushes env t'.history) (fun _ _ => False) t) :
    Prog.Always .atomic (fun _ => True) (fun _ t => (w.history.push event).Flushes env t.history)
      (fun _ _ => False) (do
        HistoryWriter.buffer event
        if ← HistoryWriter.should_flush p then full) w := by
  unfold HistoryWriter.buffer HistoryWriter.should_flush
  simp only [Prog.bind_eq, always_bind, Prog.always_modify, Prog.always_read]
  refine ⟨trivial, trivial, ?_⟩
  cases (w.push_history event).history_full p with
  | true => exact hfull (w.push_history event)
  | false => exact .kept

/-- A flush that is noted. -/
theorem flush_noted_flushes : ((HistoryWriter.flush env).bind fun _ => note_flush env).Always .atomic
    (fun _ => True) (fun _ t => w.history.Flushes env t.history) (fun _ _ => False) w := by
  rw [always_bind]
  refine (flush_flushes w).imp (fun _ => id) (fun _ t ht => ?_) fun _ _ => id
  refine note_flush_history.imp (fun _ => id) (fun _ t' ht' => ?_) fun _ _ => id
  rw [ht']
  exact ht.1

/-- A turn without a message may flush the buffer. -/
theorem idle_flushes : (ProcessingLoop.idle env p).Always .atomic (fun _ => True)
    (fun _ t => w.history.Flushes env t.history) (fun _ _ => False) w := by
  unfold ProcessingLoop.idle
  simp only [Prog.bind_eq, always_bind, always_reading, Prog.always_read]
  refine ⟨trivial, trivial, ?_⟩
  split
  · exact flush_noted_flushes (w := w.advance)
  · exact .kept

/-- The compare-and-set takes what the sequence guard lets through. -/
theorem cas_of_should_accept {redis : RedisClient} {d : String} (st : DeviceState)
    (hnewer : SequenceGuard.should_accept redis d st.seq = true) :
    (redis.update_device_state_cas d st).1 = true := by
  refine (redis.update_device_state_cas_fst d st).mpr fun current hcurrent => ?_
  unfold SequenceGuard.should_accept RedisClient.get_device_state at hnewer
  rw [hcurrent] at hnewer
  exact of_decide_eq_true hnewer

/-- In either mode, an event with valid coordinates that the sequence guard lets through is written and
pushed to the buffer. -/
theorem always_accept (hv : valid_lat_lon event.lat event.lon = true)
    (hnewer : SequenceGuard.should_accept w.redis event.device_id event.seq = true) :
    (ProcessingLoop.accept env p event).Always .atomic (fun _ => True)
      (fun _ t => (w.write_with_result env p event).2.Frame t ∧
        (w.history.push event).Flushes env t.history) (fun _ _ => False) w := by
  -- The frame is known; what is left to see is what becomes of the buffer.
  suffices hflushes : (ProcessingLoop.accept env p event).Always .atomic (fun _ => True)
      (fun _ t => (w.history.push event).Flushes env t.history) (fun _ _ => False) w from
    ((accept_frame hv).and hflushes).imp (fun _ _ => trivial) (fun _ _ => id) fun _ _ h => h.1
  obtain ⟨cell, -, hw⟩ := World.write_with_result_valid env p w hv
  dsimp only at hw
  rw [cas_of_should_accept (StateWriter.state_of event cell (env.system_ms w.tick)) hnewer,
    if_pos rfl] at hw
  generalize hw₁ : (w.write_with_result env p event).2 = w₁
  have hhistory : w₁.history = w.history := by
    rw [← hw₁, hw]
    rfl
  have hwritten : (w.write_with_result env p event).1 = .ok _ := congrArg Prod.fst hw
  rw [← hhistory]
  unfold ProcessingLoop.accept
  -- In event-bus mode the geofences are evaluated between the write and the buffering.
  split
  · rename_i geofence _
    unfold location_accepted location_accepted_with state_write_requested_with write_with_result
    simp only [Prog.bind_eq, always_bind, Prog.always_atomically, Prog.always_ofExcept, hwritten, hw₁]
    refine ⟨trivial, ?_⟩
    rw [if_pos trivial, Prog.always_modify]
    refine ⟨trivial, ?_⟩
    unfold trip_history_write_requested
    exact buffer_flushes (w := w₁.evaluate geofence _) fun t =>
      (flush_flushes t).imp (fun _ => id) (fun _ _ => And.left) fun _ _ => id
  · unfold write_directly write_with_result
    simp only [Prog.bind_eq, always_bind, Prog.always_atomically, Prog.always_ofExcept, hwritten, hw₁]
    refine ⟨trivial, ?_⟩
    rw [if_pos trivial]
    exact buffer_flushes fun t => flush_noted_flushes

/-- A poll finds nothing and only reads, or it gets the message at the next offset. -/
theorem World.poll_cases (env : Environment) (w : World G) :
    w.poll env = (none, w.advance) ∨ ∃ message msg, env.topic[w.consumer.next_offset]? = some message ∧
      msg.payload = message.payload ∧ msg.offset = w.consumer.next_offset ∧
      w.poll env = (some msg, { w with
        consumer := { w.consumer with next_offset := w.consumer.next_offset + 1 }
        tick := w.tick + 1 }) := by
  unfold World.poll
  rcases w.consumer.poll_cases "tm.location.events" (env.topic.take (env.visible w.tick)) with
    ⟨hpoll, -⟩ | ⟨message, msg, hmessage, hpayload, hoffset, hpoll⟩
  · rw [hpoll]
    exact .inl rfl
  · rw [hpoll]
    refine .inr ⟨message, msg, ?_, hpayload, hoffset, rfl⟩
    rw [List.getElem?_take] at hmessage
    split at hmessage
    · exact hmessage
    · cases hmessage

/-- A poll that gets nothing only reads. -/
theorem World.poll_none (hpolled : (w.poll env).1 = none) : w.poll env = (none, w.advance) := by
  rcases w.poll_cases env with hpoll | ⟨_, _, -, -, -, hpoll⟩
  · exact hpoll
  · rw [hpoll] at hpolled
    cases hpolled

/-- A poll that gets a message moves on to the next offset, and does nothing else. -/
theorem World.poll_some {msg : KafkaMessage} (hpolled : (w.poll env).1 = some msg) :
    msg.offset = w.consumer.next_offset ∧
      (w.poll env).2 = { w with
        consumer := { w.consumer with next_offset := w.consumer.next_offset + 1 }
        tick := w.tick + 1 } := by
  rcases w.poll_cases env with hpoll | ⟨message, msg', -, -, hoffset, hpoll⟩
  · rw [hpoll] at hpolled
    cases hpolled
  · rw [hpoll] at hpolled
    cases hpolled
    exact ⟨hoffset, by rw [hpoll]⟩

/-- What a poll that gets a message leaves as it is. -/
theorem World.poll_discards {msg : KafkaMessage} (hpolled : (w.poll env).1 = some msg) :
    Discards w (w.poll env).2 ∧ (w.poll env).2.dedup = w.dedup ∧ (w.poll env).2.commits = w.commits := by
  rw [(World.poll_some hpolled).2]
  exact ⟨⟨rfl, rfl, rfl⟩, rfl, rfl⟩

/-- The commit of the message changes neither stores nor window. -/
theorem MessageOutcome.Effect.commit {outcome : MessageOutcome} {t : World G}
    (h : outcome.Effect env p w t) (msg : KafkaMessage) :
    outcome.Effect env p w (t.commit msg) := by
  cases outcome with
  | malformed => exact ⟨⟨h.1.redis, h.1.accepted, h.1.history⟩, h.2⟩
  | duplicate event => exact ⟨⟨h.1.redis, h.1.accepted, h.1.history⟩, h.2⟩
  | stale event => exact ⟨⟨h.1.redis, h.1.accepted, h.1.history⟩, h.2⟩
  | accepted event => exact ⟨⟨h.1.redis, h.1.accepted, h.1.history⟩, h.2⟩

/-- The window does not hold an accepted event, and the sequence guard lets it through. -/
theorem World.of_accepted {msg : KafkaMessage} (h : w.outcome env msg = .accepted event) :
    ((w.poll env).2.is_duplicate env event).1 = false ∧
      SequenceGuard.should_accept w.redis event.device_id event.seq = true := by
  unfold World.outcome at h
  cases hdecode : decode_location_payload msg.payload with
  | error e =>
    rw [hdecode] at h
    cases h
  | ok event' =>
    rw [hdecode] at h
    dsimp only at h
    split at h
    · cases h
    · rename_i hseen
      split at h
      · cases h
        exact ⟨Bool.eq_false_iff.mpr hseen, ‹_›⟩
      · cases h

/-- The rule for a turn, by what happens to the message that is polled: what is left to show is what
the idle turn does, and what `accept` does to an event that the window does not hold and that the
sequence guard lets through. -/
theorem always_turn_with {accept : LocationEvent → Action G Unit} {P : World G → Prop}
    {E : Exception → World G → Prop}
    (hidle : (w.poll env).1 = none → (ProcessingLoop.idle env p).Always .atomic (fun _ => True)
      (fun _ => P) E (w.poll env).2)
    (hmalformed : ∀ msg, (w.poll env).1 = some msg → w.outcome env msg = .malformed →
      P ((w.poll env).2.commit msg))
    (hduplicate : ∀ msg event, (w.poll env).1 = some msg → w.outcome env msg = .duplicate event →
      P (((w.poll env).2.is_duplicate env event).2.commit msg))
    (hstale : ∀ msg event, (w.poll env).1 = some msg → w.outcome env msg = .stale event →
      P ((((w.poll env).2.is_duplicate env event).2.mark_seen env event).commit msg))
    (haccepted : ∀ msg event, (w.poll env).1 = some msg →
      decode_location_payload msg.payload = .ok event → w.outcome env msg = .accepted event →
      (accept event).Always .atomic (fun _ => True) (fun _ t => P (t.commit msg)) E
        (((w.poll env).2.is_duplicate env event).2.mark_seen env event)) :
    (ProcessingLoop.turn_with env p (ProcessingLoop.process_with env accept)).Always .atomic
      (fun _ => True) (fun _ => P) E w := by
  unfold ProcessingLoop.turn_with
  rw [Prog.bind_eq, always_bind, Prog.always_atomically]
  refine ⟨trivial, ?_⟩
  cases hpolled : (w.poll env).1 with
  | none => exact hidle hpolled
  | some msg =>
    dsimp only
    cases hdecode : decode_location_payload msg.payload with
    | error e =>
      have houtcome : w.outcome env msg = .malformed := by
        unfold World.outcome
        rw [hdecode]
      exact ⟨trivial, hmalformed msg hpolled houtcome⟩
    | ok event =>
      -- The outcome asks the window and the guard in the order of the code.
      have houtcome : w.outcome env msg =
          if ((w.poll env).2.is_duplicate env event).1 then .duplicate event
          else if SequenceGuard.should_accept w.redis event.device_id event.seq then .accepted event
          else .stale event := by
        unfold World.outcome
        rw [hdecode]
      have hredis : (((w.poll env).2.is_duplicate env event).2.mark_seen env event).redis = w.redis :=
        (World.poll_discards hpolled).1.redis
      dsimp only
      unfold ProcessingLoop.process_with
      rw [Prog.bind_eq, always_bind, Prog.bind_eq, always_bind, Prog.always_atomically]
      refine ⟨trivial, ?_⟩
      -- What the window holds is committed without a mark.
      cases hseen : ((w.poll env).2.is_duplicate env event).1 with
      | true =>
        rw [hseen, if_pos rfl] at houtcome
        rw [if_pos rfl]
        exact ⟨trivial, hduplicate msg event hpolled houtcome⟩
      | false =>
        rw [hseen, if_neg Bool.false_ne_true] at houtcome
        rw [if_neg Bool.false_ne_true, Prog.bind_eq, always_bind, Prog.always_modify, Prog.bind_eq,
          always_bind, Prog.always_read, hredis]
        refine ⟨trivial, trivial, ?_⟩
        -- The event is marked before the guard is asked, so a stale one stays marked.
        cases hnewer : SequenceGuard.should_accept w.redis event.device_id event.seq with
        | false =>
          rw [hnewer, if_neg Bool.false_ne_true] at houtcome
          rw [if_neg Bool.false_ne_true]
          exact ⟨trivial, hstale msg event hpolled houtcome⟩
        | true =>
          rw [hnewer, if_pos rfl] at houtcome
          rw [if_pos rfl]
          exact (haccepted msg event hpolled hdecode houtcome).imp (fun _ => id)
            (fun _ _ ht => ⟨trivial, ht⟩) fun _ _ => id

/-- What follows an outcome is the commit of the message. -/
theorem Consumes.of_commit {msg : KafkaMessage} (hpolled : (w.poll env).1 = some msg) {t : World G}
    (hconsumer : t.consumer = (w.poll env).2.consumer) (hcommits : t.commits = w.commits) :
    Consumes w msg (t.commit msg) := by
  obtain ⟨hoffset, hpoll⟩ := World.poll_some hpolled
  rw [hpoll] at hconsumer
  unfold World.commit KafkaConsumer.commit
  refine ⟨?_, ?_, ?_⟩
  · dsimp only
    rw [hconsumer]
  · dsimp only
    rw [hconsumer, hoffset]
  · dsimp only
    rw [hcommits, hoffset]

/-- A turn with a message has the effect of its outcome, and then commits it. -/
theorem Turns.of_message {msg : KafkaMessage} (hpolled : (w.poll env).1 = some msg) {t : World G}
    (hconsumer : t.consumer = (w.poll env).2.consumer) (hcommits : t.commits = w.commits)
    (heffect : (w.outcome env msg).Effect env p w t) : Turns env p w (t.commit msg) := by
  unfold Turns
  rw [hpolled]
  exact ⟨.of_commit hpolled hconsumer hcommits, heffect.commit msg⟩

/-- What a turn does with an accepted event, in the world where it has been marked: it throws only
if the coordinates are not valid. -/
theorem always_turn_accepted {msg : KafkaMessage} (hpolled : (w.poll env).1 = some msg)
    (houtcome : w.outcome env msg = .accepted event) :
    (ProcessingLoop.accept env p event).Always .atomic (fun _ => True)
      (fun _ t => Turns env p w (t.commit msg)) (fun _ _ => valid_lat_lon event.lat event.lon = false)
      (((w.poll env).2.is_duplicate env event).2.mark_seen env event) := by
  have hseen : (((w.poll env).2.is_duplicate env event).2.mark_seen env event).dedup.seen ⊆
      insert (event.device_id, event.seq) (w.poll env).2.dedup.seen :=
    World.seen_mark_asked event (w.poll env).2
  have hnewer := (World.of_accepted houtcome).2
  have hpoll := (World.poll_some hpolled).2
  rw [(World.poll_discards hpolled).2.1] at hseen
  generalize hw₂ : ((w.poll env).2.is_duplicate env event).2.mark_seen env event = w₂ at hseen ⊢
  have hkept : Discards w w₂ ∧ w₂.consumer = (w.poll env).2.consumer ∧ w₂.commits = w.commits ∧
      w₂.tick = w.tick + 5 := by
    rw [← hw₂, hpoll]
    exact ⟨⟨rfl, rfl, rfl⟩, rfl, rfl, rfl⟩
  obtain ⟨hdiscards, hconsumer, hcommits, htick⟩ := hkept
  cases hv : valid_lat_lon event.lat event.lon with
  | false => exact (accept_invalid hv).imp (fun _ => id) (fun _ _ h => h.elim) fun _ _ _ => rfl
  | true =>
    -- The guard let the event through, so the compare-and-set takes it.
    rw [← hdiscards.redis] at hnewer
    obtain ⟨cell, hcell, hw⟩ := World.write_with_result_valid env p w₂ hv
    dsimp only at hw
    rw [cas_of_should_accept (StateWriter.state_of event cell (env.system_ms w₂.tick)) hnewer,
      if_pos rfl] at hw
    refine (always_accept hv hnewer).imp (fun _ => id) ?_ fun _ _ => False.elim
    rintro _ t ⟨hframe, hflushes⟩
    rw [hw] at hframe
    refine .of_message hpolled (hframe.consumer.trans hconsumer) (hframe.commits.trans hcommits) ?_
    rw [houtcome]
    refine ⟨⟨⟨cell, hcell, ?_⟩, ?_, ?_⟩, ?_⟩
    · rw [hframe.redis, hdiscards.redis, htick]
      rfl
    · rw [hframe.accepted, hdiscards.accepted, hconsumer, hpoll]
      rfl
    · rwa [hdiscards.history] at hflushes
    · rw [hframe.dedup]
      exact hseen

/-- What a turn does, in either mode. It throws only at an event that the sequence guard lets
through and whose coordinates are not valid. -/
theorem always_turn (env : Environment) (p : Processor G) (w : World G) :
    (ProcessingLoop.turn env p).Always .atomic (fun _ => True) (fun _ t => Turns env p w t)
      (fun _ _ => ∃ msg event, (w.poll env).1 = some msg ∧ w.outcome env msg = .accepted event ∧
        valid_lat_lon event.lat event.lon = false) w := by
  refine always_turn_with (fun hpolled => ?_) (fun msg hpolled houtcome => ?_)
    (fun msg event hpolled houtcome => ?_) (fun msg event hpolled houtcome => ?_)
    fun msg event hpolled hdecode houtcome => ?_
  · rw [World.poll_none hpolled]
    -- The idle turn may flush, and that is all.
    have hadvance : w.Frame w.advance := ⟨rfl, rfl, rfl, rfl, rfl⟩
    refine (idle_frame.and idle_flushes).imp (fun _ _ => trivial) ?_ fun _ _ h => h.1.elim
    rintro _ t ⟨hframe, hflushes⟩
    unfold Turns
    rw [hpolled]
    exact ⟨hadvance.trans hframe, hflushes⟩
  · obtain ⟨hdiscards, hdedup, hcommits⟩ := World.poll_discards hpolled
    refine .of_message hpolled rfl hcommits ?_
    rw [houtcome]
    exact ⟨hdiscards, hdedup ▸ subset_rfl⟩
  · obtain ⟨hdiscards, hdedup, hcommits⟩ := World.poll_discards hpolled
    refine .of_message hpolled rfl hcommits ?_
    rw [houtcome]
    exact ⟨⟨hdiscards.redis, hdiscards.accepted, hdiscards.history⟩,
      hdedup ▸ World.seen_is_duplicate event (w.poll env).2⟩
  · obtain ⟨hdiscards, hdedup, hcommits⟩ := World.poll_discards hpolled
    refine .of_message hpolled rfl hcommits ?_
    rw [houtcome]
    exact ⟨⟨hdiscards.redis, hdiscards.accepted, hdiscards.history⟩,
      hdedup ▸ World.seen_mark_asked event (w.poll env).2⟩
  · exact (always_turn_accepted hpolled houtcome).imp (fun _ => id) (fun _ _ => id)
      fun _ _ hv => ⟨msg, event, hpolled, houtcome, hv⟩

/-- An event is somewhere in the history. -/
def History.Holds (h : History) (event : LocationEvent) : Prop :=
  event ∈ h.buffer ∨ event ∈ h.pg.trip_points ∨ dlq_message event ∈ h.dead_letters

/-- In every run from fresh stores, an event that the sequence guard rejects and that is not older than
the tolerance is handed to the history, and the device states stay as they are. -/
def LateEventsKept (tolerance_s : ℤ) : Prop :=
  ∀ {G : Type} (env : Environment) (p : Processor G) (max_entries : ℕ) (ttl_seconds : ℤ) (geofence : G)
    (k : ℕ) (w : World G) (msg : KafkaMessage) (event : LocationEvent),
    Heads env (ProcessingLoop.turn env p)
      ((World.fresh max_entries ttl_seconds geofence).started env) k w →
    (w.advance.poll env).1 = some msg → w.advance.outcome env msg = .stale event →
    env.system_ms w.tick - tolerance_s * 1000 < event.timestamp_ms →
    let run := (ProcessingLoop.turn env p).exec .atomic w.advance
    run.result = .ok () ∧ run.final.redis = w.redis ∧ run.final.history.Holds event

/-- Wherever the loop is, an event that the window does not hold and that the sequence guard rejects
is discarded, whatever its event time: the turn returns and commits the message, and the device
states and the history stay as they are. -/
theorem stale_event_discarded (env : Environment) (p : Processor G) (w : World G) (msg : KafkaMessage)
    (event : LocationEvent) (hpolled : (w.poll env).1 = some msg)
    (hstale : w.outcome env msg = .stale event) :
    let run := (ProcessingLoop.turn env p).exec .atomic w
    run.result = .ok () ∧ Consumes w msg run.final ∧ Discards w run.final := by
  intro run
  obtain ⟨-, hok, herror⟩ := (Prog.always_iff_exec _ _).mp (always_turn env p w)
  have hresult : run.result = .ok () := by
    -- Throwing is for accepted events, and this one is stale.
    cases hr : run.result with
    | ok _ => rfl
    | error e =>
      obtain ⟨msg', event', hpolled', haccepted, -⟩ := herror e hr
      rw [hpolled] at hpolled'
      cases hpolled'
      rw [hstale] at haccepted
      cases haccepted
  have hturns := hok () hresult
  unfold Turns at hturns
  rw [hpolled] at hturns
  dsimp only at hturns
  rw [hstale] at hturns
  exact ⟨hresult, hturns.1, hturns.2.1⟩

/-- Two events of a device out of order: the second one is late. -/
def late_environment : Environment :=
  .attentive [⟨"d", "d,5,2000,2000,0,0", 0⟩, ⟨"d", "d,4,1000,1000,0,0", 0⟩]

/-- Direct mode with the default configuration. -/
def late_processor : Processor Unit := ⟨H3Index.default, {}, none⟩

/-- The world after the turn on the first event. -/
def late_head : World Unit :=
  ((ProcessingLoop.turn late_environment late_processor).exec .atomic
    ((World.fresh 10 10 ()).started late_environment).advance).final

/-- The late event. -/
def late_event : LocationEvent where
  device_id := "d"
  timestamp_ms := 1000
  server_recv_ms := 1000
  seq := 4

/-- The turn on the late event discards it. -/
theorem stale_event_discarded_late :
    let run := (ProcessingLoop.turn late_environment late_processor).exec .atomic late_head.advance
    run.result = .ok () ∧
      Consumes late_head.advance
        ⟨"tm.location.events", 0, 1, "d", "d,4,1000,1000,0,0", 0⟩ run.final ∧
      Discards late_head.advance run.final :=
  stale_event_discarded late_environment late_processor late_head.advance _ late_event
    (by decide +kernel) (by decide +kernel)

/-- The late event is a second old at most, but it ends in no history. -/
theorem late_event_not_kept : ¬ LateEventsKept 60 := by
  intro hkept
  have hheads : Heads late_environment (ProcessingLoop.turn late_environment late_processor)
      ((World.fresh 10 10 ()).started late_environment) 1 late_head :=
    .turn .start (by decide +kernel) (by decide +kernel)
  obtain ⟨-, -, hholds⟩ := hkept late_environment late_processor 10 10 () 1 late_head
    ⟨"tm.location.events", 0, 1, "d", "d,4,1000,1000,0,0", 0⟩ late_event hheads (by decide +kernel)
    (by decide +kernel) (by decide +kernel)
  unfold History.Holds at hholds
  revert hholds
  decide +kernel

end SignalRoute
