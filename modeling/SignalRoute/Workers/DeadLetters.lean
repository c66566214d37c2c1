import SignalRoute.Processor.Turns
import SignalRoute.Workers.DlqReplay
import SignalRoute.Gateway.RoundTrip

/-!
# From the history writer to the replay worker

A flush that fails to insert its batch sends each event to the topic `tm.location.dlq`, whatever
`kafka.dlq_topic` says, and a worker that consumes that topic stores what it decodes. The text
carries the identity, the times and six digits of the position, so a replay stores what the
insertion would have stored exactly if the event has nothing else (`replays_as_inserted_iff`).
-/

namespace SignalRoute

open Interaction
open Interaction.Prog (perform always_bind)
open Numeric (SixDigit)

/-- The dead letter of an event, as the broker has it. -/
def dead_letter (event : LocationEvent) : BrokerMessage := ⟨event.device_id, serialize_dlq_payload event, 0⟩

/-- An event is buffered, the flush fails to insert it, and a worker that consumes the topic replays
one of the messages of that flush, the dead letter of the event. -/
structure Replayed (G : Type) (dlq_topic : String) (event : LocationEvent) where
  env : Environment
  w : World G
  buffered : event ∈ w.history_buffer
  insert_error : env.insert_error w.tick ≠ none
  replay_env : ReplayEnvironment
  dlq_topic_eq : replay_env.dlq_topic = dlq_topic
  /-- What is sent to the topic after the flush. -/
  later : List BrokerMessage
  topic_eq : replay_env.topic =
    messages_of dlq_topic ((HistoryWriter.flush env).exec .atomic w).final.produced ++ later
  policy : DLQReplayPolicy
  /-- The worker, before it polls the message. -/
  r : ReplayWorld
  after_earlier : (messages_of dlq_topic w.produced).length ≤ r.consumer.next_offset
  before_later : r.consumer.next_offset <
    (messages_of dlq_topic ((HistoryWriter.flush env).exec .atomic w).final.produced).length
  polled : replay_env.topic[r.consumer.next_offset]? = some (dead_letter event)
  attempts : WriteAttempts
  go : Bool
  result_eq : ((DLQReplayWorker.turn policy).exec (ReplayWorld.handler replay_env) r).result =
    .ok (.written attempts, go)
  replayed : attempts.replayed = true

/-- Wherever the event is replayed, the trip history is what the insertion of the event would have
made it. -/
def LocationEvent.ReplaysAsInserted (G : Type) (dlq_topic : String) (event : LocationEvent) : Prop :=
  ∀ R : Replayed G dlq_topic event,
    ((DLQReplayWorker.turn R.policy).exec (ReplayWorld.handler R.replay_env) R.r).final.pg =
      R.r.pg.batch_insert_trip_points [event]

/-- The event has nothing that its dead letter does not carry. -/
structure LocationEvent.Carried (event : LocationEvent) : Prop where
  lat : SixDigit event.lat.toRat
  lon : SixDigit event.lon.toRat
  altitude_m : event.altitude_m = 0
  accuracy_m : event.accuracy_m = 0
  speed_ms : event.speed_ms = 0
  heading_deg : event.heading_deg = 0
  metadata : event.metadata = []

namespace ReplayWorld

variable {env : ReplayEnvironment} {w : ReplayWorld}

/-- The attempts to write an event store it once if one of them goes through, and nothing otherwise. -/
theorem write_attempts_pg (policy : DLQReplayPolicy) (event : LocationEvent) (n : ℕ) (backoff_ms : ℤ)
    (attempts : WriteAttempts) (hattempts : attempts.replayed = false) (t : ReplayWorld) :
    (DLQReplayWorker.write_attempts policy event n backoff_ms attempts).Always (handler env)
      (fun _ => True)
      (fun attempts' t' => t'.pg =
        if attempts'.replayed then t.pg.batch_insert_trip_points [event] else t.pg)
      (fun _ _ => False) t := by
  have hrun : ∀ t, (handler env).run (.write_trip_point event) t = t.write_trip_point env event :=
    fun _ => rfl
  induction n generalizing backoff_ms attempts t with
  | zero =>
    change t.pg = _
    rw [hattempts]
    rfl
  | succ n ih =>
    unfold DLQReplayWorker.write_attempts
    rw [Prog.bind_eq, always_bind, Prog.always_perform, hrun]
    refine ⟨trivial, ?_⟩
    unfold write_trip_point
    cases env.write_error t.tick with
    | none => exact (if_pos rfl).symm
    | some e =>
      -- A failed attempt leaves the history as it is, for those that are left.
      dsimp only
      by_cases hn : n = 0
      · rw [if_pos hn]
        change t.pg = _
        rw [hattempts]
        rfl
      · rw [if_neg hn]
        have hlater : ∀ backoff_ms (t' : ReplayWorld), t'.pg = t.pg → _ := fun backoff_ms t' hpg =>
          hpg ▸ ih backoff_ms
            { replayed := attempts.replayed
              retried := attempts.retried + 1
              last_error := some (DLQReplayWorker.error_text e) }
            hattempts t'
        split
        · rw [Prog.bind_eq, always_bind, Prog.always_perform]
          exact ⟨trivial, hlater _ _ rfl⟩
        · exact hlater _ _ rfl

/-- A turn that replays a message stores what the message decodes to. -/
theorem turn_replays (env : ReplayEnvironment) (w : ReplayWorld) (policy : DLQReplayPolicy) :
    (DLQReplayWorker.turn policy).Always (handler env) (fun _ => True)
      (fun outcome t => ∀ attempts go, outcome = (.written attempts, go) → attempts.replayed = true →
        ∃ message decoded, env.topic[w.consumer.next_offset]? = some message ∧
          decode_location_payload message.payload = .ok decoded ∧
          t.pg = w.pg.batch_insert_trip_points [decoded])
      (fun _ _ => False) w := by
  have hrun : (handler env).run .poll w = w.poll env := rfl
  unfold DLQReplayWorker.turn
  rw [Prog.bind_eq, always_bind, Prog.always_perform, hrun]
  refine ⟨trivial, ?_⟩
  unfold poll
  rcases w.consumer.poll_cases env.dlq_topic (env.topic.take (env.visible w.tick)) with
    ⟨hpoll, -⟩ | ⟨message, msg, hmessage, hpayload, -, hpoll⟩
  · -- Without a message nothing is replayed.
    rw [hpoll]
    rintro attempts go ⟨⟩
  · have htopic : env.topic[w.consumer.next_offset]? = some message := by
      rw [List.getElem?_take] at hmessage
      split at hmessage
      · exact hmessage
      · cases hmessage
    rw [hpoll]
    dsimp only
    cases hdecode : decode_location_payload msg.payload with
    | error e =>
      dsimp only
      rw [Prog.bind_eq, always_bind, Prog.always_perform]
      refine ⟨trivial, ?_⟩
      rintro attempts go ⟨⟩
    | ok decoded =>
      dsimp only
      rw [Prog.bind_eq, always_bind]
      refine (write_attempts_pg policy decoded _ _ { replayed := false } rfl _).imp (fun _ => id) ?_
        fun _ _ => id
      intro attempts' t hpg
      have hstored : attempts'.replayed = true → ∃ message decoded,
          env.topic[w.consumer.next_offset]? = some message ∧
            decode_location_payload message.payload = .ok decoded ∧
            t.pg = w.pg.batch_insert_trip_points [decoded] := by
        intro hreplayed
        rw [hreplayed, if_pos rfl] at hpg
        exact ⟨message, decoded, htopic, by rw [← hpayload, hdecode], hpg⟩
      -- The commit, or the deferral, leaves the history alone.
      split
      · rintro attempts go ⟨⟩
        exact hstored
      · rw [Prog.bind_eq, always_bind, Prog.always_perform]
        refine ⟨trivial, ?_⟩
        rintro attempts go ⟨⟩
        exact hstored

/-- Where the database takes every write, the first message is replayed at once. -/
theorem turn_replays_first {message : BrokerMessage} {decoded : LocationEvent}
    (hdecode : decode_location_payload message.payload = .ok decoded) :
    ((DLQReplayWorker.turn {}).exec
      (handler { topic := [message], visible := fun _ => 1, write_error := fun _ => none }) {}).result =
      .ok (.written { replayed := true }, true) := by
  obtain ⟨msg, hpolled, hpayload⟩ : ∃ msg,
      ((perform .poll : ReplayProgram _).exec
        (handler { topic := [message], visible := fun _ => 1, write_error := fun _ => none }) {}).result =
          .ok (some msg) ∧ msg.payload = message.payload := ⟨_, rfl, rfl⟩
  unfold DLQReplayWorker.turn
  rw [Prog.bind_eq, Prog.exec_bind, hpolled]
  dsimp only
  rw [hpayload, hdecode]
  rfl

end ReplayWorld

variable {G : Type} {dlq_topic : String} {event : LocationEvent}

/-- What a failed flush sends to a topic. -/
theorem messages_of_flush (env : Environment) (w : World G) (dlq_topic : String)
    (herror : env.insert_error w.tick ≠ none) :
    messages_of dlq_topic ((HistoryWriter.flush env).exec .atomic w).final.produced =
      messages_of dlq_topic w.produced ++
        if dlq_topic = "tm.location.dlq" then w.history_buffer.map dead_letter else [] := by
  -- A flush that fails produces the buffer in order.
  have hflush : ((HistoryWriter.flush env).exec .atomic w).final.history =
      w.history.flushed (env.insert_error w.tick) :=
    ((flush_history w).imp (fun _ => id) (fun _ _ => id) fun _ _ => False.elim).final
  have hproduced : ((HistoryWriter.flush env).exec .atomic w).final.produced =
      w.produced ++ w.history_buffer.map dlq_message := by
    have hdead := congrArg History.dead_letters hflush
    obtain ⟨what, hwhat⟩ := Option.ne_none_iff_exists'.mp herror
    rw [hwhat] at hdead
    exact hdead
  rw [hproduced, messages_of_append]
  congr 1
  unfold messages_of
  rw [List.filter_map, List.map_map]
  -- Every dead letter goes to the one topic that the history writer names.
  by_cases htopic : dlq_topic = "tm.location.dlq"
  · have hall : w.history_buffer.filter ((fun message => decide (message.topic = dlq_topic)) ∘ dlq_message) =
        w.history_buffer := List.filter_eq_self.mpr fun event _ => decide_eq_true htopic.symm
    rw [if_pos htopic, hall]
    rfl
  · have hnone : w.history_buffer.filter ((fun message => decide (message.topic = dlq_topic)) ∘ dlq_message) =
        [] := List.filter_eq_nil_iff.mpr fun event _ h => htopic (of_decide_eq_true h).symm
    rw [if_neg htopic, hnone]
    rfl

/-- Only from the topic that the history writer knows can a dead letter of a flush be replayed. -/
theorem Replayed.topic (R : Replayed G dlq_topic event) : dlq_topic = "tm.location.dlq" := by
  by_contra htopic
  have hlt := R.before_later
  rw [messages_of_flush R.env R.w dlq_topic R.insert_error, if_neg htopic, List.append_nil] at hlt
  exact absurd R.after_earlier (not_le.mpr hlt)

/-- A replay stores what the dead letter decodes to. -/
theorem Replayed.stores (R : Replayed G dlq_topic event) :
    ∃ decoded, decode_location_payload (encode_location_payload event) = .ok decoded ∧
      ((DLQReplayWorker.turn R.policy).exec (ReplayWorld.handler R.replay_env) R.r).final.pg =
        R.r.pg.batch_insert_trip_points [decoded] := by
  obtain ⟨-, hok, -⟩ := (Prog.always_iff_exec _ _).mp (ReplayWorld.turn_replays R.replay_env R.r R.policy)
  obtain ⟨message, decoded, hmessage, hdecode, hpg⟩ := hok _ R.result_eq _ _ rfl R.replayed
  rw [R.polled] at hmessage
  cases hmessage
  exact ⟨decoded, hdecode, hpg⟩

/-- The replay of an event by a worker that finds nothing else to do. -/
def Replayed.only (geofence : G) {decoded : LocationEvent}
    (hdecode : decode_location_payload (encode_location_payload event) = .ok decoded) :
    Replayed G "tm.location.dlq" event where
  env := { Environment.attentive [] with insert_error := fun _ => some "connection lost" }
  w := { World.fresh 1 1 geofence with history_buffer := [event] }
  buffered := List.mem_singleton.mpr rfl
  insert_error := Option.some_ne_none _
  replay_env :=
    { topic := [dead_letter event]
      visible := fun _ => 1
      write_error := fun _ => none }
  dlq_topic_eq := rfl
  later := []
  topic_eq := by
    rw [messages_of_flush _ _ _ (Option.some_ne_none _)]
    rfl
  policy := {}
  r := {}
  after_earlier := Nat.zero_le _
  before_later := by
    rw [messages_of_flush _ _ _ (Option.some_ne_none _)]
    exact Nat.zero_lt_one
  polled := rfl
  attempts := { replayed := true }
  go := true
  result_eq := ReplayWorld.turn_replays_first hdecode
  replayed := rfl

/-- The event is replayed as it would have been inserted exactly if the worker consumes another
topic, so that nothing is replayed, or its dead letter does not decode, so that nothing is either,
or it has nothing that its dead letter does not carry. -/
theorem replays_as_inserted_iff (config : GatewayConfig) (now_ms : ℤ) (geofence : G) (dlq_topic : String)
    (event : LocationEvent) (hok : validate config now_ms event = .ok ()) (hrange : event.InRange) :
    event.ReplaysAsInserted G dlq_topic ↔
      dlq_topic ≠ "tm.location.dlq" ∨ event.Unreadable ∨ event.Carried := by
  by_cases htopic : dlq_topic = "tm.location.dlq"
  swap
  · exact iff_of_true (fun R => absurd R.topic htopic) (.inl htopic)
  rw [or_iff_right (not_not_intro htopic)]
  have hvalid := validate_eq_ok_iff.mp hok
  obtain ⟨x, hx, -⟩ := hvalid.lat
  obtain ⟨y, hy, -⟩ := hvalid.lon
  have hlat := told_coordinate_iff hx
  have hlon := told_coordinate_iff hy
  rcases decode_encode_cases hvalid hrange with ⟨hunreadable, hdecode⟩ | ⟨hreadable, hdecode⟩
  · -- Its dead letter is committed as malformed, so it is never replayed.
    refine iff_of_true (fun R => ?_) (.inl hunreadable)
    obtain ⟨decoded, hdecoded, -⟩ := R.stores
    rw [hdecode] at hdecoded
    cases hdecoded
  rw [or_iff_right hreadable]
  subst htopic
  constructor
  · intro hreplays
    obtain ⟨decoded, hdecoded, hpg⟩ := (Replayed.only geofence hdecode).stores
    rw [hdecode] at hdecoded
    cases hdecoded
    -- One point is stored, and it is both the decoded event and the event.
    have hpoints := congrArg PostgresClient.trip_points (hpg.symm.trans (hreplays _))
    have hevent := List.singleton_inj.mp hpoints
    have hfield {β : Type} (field : LocationEvent → β) := (congrArg field hevent).symm
    exact
      { lat := hlat.mp (hfield LocationEvent.lat).symm
        lon := hlon.mp (hfield LocationEvent.lon).symm
        altitude_m := hfield LocationEvent.altitude_m
        accuracy_m := hfield LocationEvent.accuracy_m
        speed_ms := hfield LocationEvent.speed_ms
        heading_deg := hfield LocationEvent.heading_deg
        metadata := hfield LocationEvent.metadata }
  · intro hcarried R
    obtain ⟨decoded, hdecoded, hpg⟩ := R.stores
    rw [hdecode] at hdecoded
    cases hdecoded
    -- All that the dead letter leaves out has its default.
    have hevent : event = { event with
        altitude_m := 0
        accuracy_m := 0
        speed_ms := 0
        heading_deg := 0
        metadata := [] } := by
      obtain ⟨-, -, haltitude, haccuracy, hspeed, hheading, hmetadata⟩ := hcarried
      cases event
      exact LocationEvent.mk.injEq .. ▸
        ⟨rfl, rfl, rfl, haltitude, haccuracy, hspeed, hheading, rfl, rfl, rfl, hmetadata⟩
    have htold : event.told = event := by
      unfold LocationEvent.told
      rw [hlat.mpr hcarried.lat, hlon.mpr hcarried.lon, ← hevent]
    rw [hpg, htold]

/-- An event at 12 metres of altitude. -/
def raised_event : LocationEvent where
  device_id := "d"
  altitude_m := .finite 12
  timestamp_ms := 1000
  server_recv_ms := 1000
  seq := 1

/-- The validator accepts it. -/
theorem replays_as_inserted_iff_raised : raised_event.ReplaysAsInserted Unit "tm.location.dlq" ↔
    "tm.location.dlq" ≠ "tm.location.dlq" ∨ raised_event.Unreadable ∨ raised_event.Carried :=
  replays_as_inserted_iff {} 1000 () "tm.location.dlq" raised_event (by decide +kernel)
    ⟨by decide, by decide, by decide⟩

/-- It is replayed at altitude zero. -/
theorem raised_event_loses_altitude : ¬ ∀ (config : GatewayConfig) (now_ms : ℤ) (dlq_topic : String)
    (event : LocationEvent), validate config now_ms event = .ok () → event.InRange →
      event.ReplaysAsInserted Unit dlq_topic := by
  intro hall
  have hdecode : decode_location_payload (encode_location_payload raised_event) =
      .ok { raised_event with altitude_m := 0 } := by
    decide +kernel
  have hreplays := hall {} 1000 "tm.location.dlq" raised_event (by decide +kernel)
    ⟨by decide, by decide, by decide⟩
  obtain ⟨decoded, hdecoded, hpg⟩ := (Replayed.only () hdecode).stores
  rw [hdecode] at hdecoded
  cases hdecoded
  have hpoints := congrArg PostgresClient.trip_points (hpg.symm.trans (hreplays _))
  have haltitude := congrArg LocationEvent.altitude_m (List.singleton_inj.mp hpoints)
  revert haltitude
  decide +kernel

end SignalRoute
