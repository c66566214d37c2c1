import SignalRoute.Processor.Turns
import Mathlib.Data.Set.Card

/-!
# The books of a run

What a run makes of the messages that it polls. The sequence guard lets an event through exactly
when its sequence number is greater than the one stored at the start and than every earlier one of
its device (`Accounts.guard_iff`), so the accepted events are the strict running maxima (`Record`),
whatever the dedup window forgets and whenever batches are flushed. Each message is committed once,
and the history is split into batches that have been inserted, batches that have failed and been
sent to the dead-letter topic, and the buffer (`History.Splits`).

The invariant of the turns is `Accounts`, and `exact_accounting` is what it comes to when a run from
empty stores returns.
-/

namespace SignalRoute

open Interaction

/-- The event at an offset, where the message there decodes. -/
def event_at (topic : List BrokerMessage) (offset : ℕ) : Option LocationEvent :=
  topic[offset]?.bind fun message => (decode_location_payload message.payload).toOption

/-- The event at the offset has a greater sequence number than every earlier one of its device. -/
structure Record (topic : List BrokerMessage) (offset : ℕ) (event : LocationEvent) : Prop where
  decoded : event_at topic offset = some event
  newer : ∀ i < offset, ∀ e, event_at topic i = some e → e.device_id = event.device_id →
    e.seq < event.seq

section Guard

variable {redis : RedisClient} {d : String} {s s' : ℕ}

/-- The guard lets through what is newer than something it lets through. -/
theorem should_accept_mono (h : SequenceGuard.should_accept redis d s = true) (hle : s ≤ s') :
    SequenceGuard.should_accept redis d s' = true := by
  unfold SequenceGuard.should_accept at h ⊢
  cases hst : redis.get_device_state d with
  | none => rfl
  | some st =>
    rw [hst] at h
    exact decide_eq_true (Nat.lt_of_lt_of_le (of_decide_eq_true h) hle)

/-- What the guard lets through is newer than what it does not. -/
theorem lt_of_should_accept (h : SequenceGuard.should_accept redis d s = true)
    (h' : SequenceGuard.should_accept redis d s' = false) : s' < s := by
  by_contra hle
  rw [should_accept_mono h (not_lt.mp hle)] at h'
  cases h'

/-- After an accepted write, the guard asks of the device for more than what was written. -/
theorem should_accept_cas {st : DeviceState}
    (hnewer : SequenceGuard.should_accept redis d st.seq = true) (d' : String) (s : ℕ) :
    SequenceGuard.should_accept (redis.update_device_state_cas d st).2 d' s =
      if d' = d then decide (st.seq < s) else SequenceGuard.should_accept redis d' s := by
  have hlookup := redis.lookup_update_device_state_cas (cas_of_should_accept st hnewer) d'
  unfold SequenceGuard.should_accept RedisClient.get_device_state
  rw [hlookup]
  by_cases hd : d' = d
  · rw [if_pos hd, if_pos hd]
  · rw [if_neg hd, if_neg hd]

end Guard

namespace History

variable (env : Environment)

/-- Some events, in order, are split into batches and the buffer. A batch has been inserted, or its
insertion has failed, and it has been sent to the dead-letter topic. -/
def Splits (initial : History) (events : List LocationEvent) (h : History) : Prop :=
  ∃ batches : List (Bool × List LocationEvent),
    events = batches.flatMap Prod.snd ++ h.buffer ∧
    h.pg = initial.pg.batch_insert_trip_points
      ((batches.filter fun batch => batch.1).flatMap Prod.snd) ∧
    h.dead_letters = initial.dead_letters ++
      ((batches.filter fun batch => !batch.1).flatMap Prod.snd).map dlq_message ∧
    ∀ batch ∈ batches, batch.1 = false → ∃ tick, env.insert_error tick ≠ none

variable {env} {initial h h' : History} {events : List LocationEvent}

/-- At the start there is nothing to split. -/
theorem Splits.start (hbuffer : initial.buffer = []) : initial.Splits env [] initial :=
  ⟨[], hbuffer.symm, rfl, (List.append_nil _).symm, fun _ h => absurd h List.not_mem_nil⟩

/-- One more event goes to the buffer. -/
theorem Splits.push (hsplits : initial.Splits env events h) (event : LocationEvent) :
    initial.Splits env (events ++ [event]) (h.push event) := by
  obtain ⟨batches, hevents, hpg, hdead, hfails⟩ := hsplits
  refine ⟨batches, ?_, hpg, hdead, hfails⟩
  rw [hevents, List.append_assoc]
  rfl

/-- A flush makes a batch of the buffer. -/
theorem Splits.flush (hsplits : initial.Splits env events h) (hflushes : h.Flushes env h') :
    initial.Splits env events h' := by
  obtain ⟨batches, hevents, hpg, hdead, hfails⟩ := hsplits
  cases hflushes with
  | kept => exact ⟨batches, hevents, hpg, hdead, hfails⟩
  | inserted =>
    refine ⟨batches ++ [(true, h.buffer)], ?_, ?_, ?_, fun batch hbatch hfalse => ?_⟩
    · simp [hevents]
    · simp [hpg, PostgresClient.batch_insert_trip_points, List.foldl_append]
    · simp [hdead]
    · rcases List.mem_append.mp hbatch with hmem | hmem
      · exact hfails batch hmem hfalse
      · cases List.mem_singleton.mp hmem
        cases hfalse
  | failed tick herror =>
    refine ⟨batches ++ [(false, h.buffer)], ?_, ?_, ?_, fun batch hbatch hfalse => ?_⟩
    · simp [hevents]
    · simp [hpg]
    · simp [hdead]
    · rcases List.mem_append.mp hbatch with hmem | hmem
      · exact hfails batch hmem hfalse
      · exact ⟨tick, herror⟩

/-- Every event is inserted, sent to the dead-letter topic, or in the buffer, each once. -/
theorem Splits.perm (hsplits : initial.Splits env events h) : ∃ inserted dead,
    h.pg = initial.pg.batch_insert_trip_points inserted ∧
      h.dead_letters = initial.dead_letters ++ dead.map dlq_message ∧
      events.Perm (inserted ++ dead ++ h.buffer) := by
  obtain ⟨batches, hevents, hpg, hdead, -⟩ := hsplits
  refine ⟨_, _, hpg, hdead, ?_⟩
  rw [hevents, ← List.flatMap_append]
  refine List.Perm.append_right _ (List.Perm.flatMap_right _ ?_)
  exact (List.filter_append_perm _ batches).symm

end History

variable {G : Type} {env : Environment} {p : Processor G} {start w t : World G} {event : LocationEvent}

/-- The books of a run that has started from `start`, after the messages below the next offset. -/
structure Accounts (env : Environment) (start w : World G) : Prop where
  committed : w.consumer.committed_offset = w.consumer.next_offset
  commits : w.commits = List.range w.consumer.next_offset
  guard_iff : ∀ d s, SequenceGuard.should_accept w.redis d s = true ↔
    SequenceGuard.should_accept start.redis d s = true ∧
      ∀ i < w.consumer.next_offset, ∀ e, event_at env.topic i = some e → e.device_id = d → e.seq < s
  seen : ∀ d s, (d, s) ∈ w.dedup.seen → ∃ i < w.consumer.next_offset, ∃ e,
    event_at env.topic i = some e ∧ e.device_id = d ∧ e.seq = s
  accepted_iff : ∀ i e, (i, e) ∈ w.accepted ↔ i < w.consumer.next_offset ∧ Record env.topic i e ∧
    SequenceGuard.should_accept start.redis e.device_id e.seq = true
  sorted : w.accepted.Pairwise fun a b => b.1 < a.1
  history : start.history.Splits env (w.accepted.reverse.map Prod.snd) w.history

/-- A process that has just been started over the stores: nothing is polled, remembered or buffered. -/
structure World.Opened (w : World G) : Prop where
  consumer : w.consumer = {}
  dedup : w.dedup.lru_list = []
  history_buffer : w.history_buffer = []
  accepted : w.accepted = []
  commits : w.commits = []

/-- The books are empty when a run starts. -/
theorem World.Opened.accounts (hopened : start.Opened) : Accounts env start start where
  committed := by rw [hopened.consumer]
  commits := by rw [hopened.commits, hopened.consumer]; rfl
  guard_iff d s := by
    rw [hopened.consumer]
    exact (and_iff_left fun i hi => absurd hi (Nat.not_lt_zero i)).symm
  seen d s hseen := by
    obtain ⟨entry, hentry, -⟩ := hseen
    rw [hopened.dedup] at hentry
    cases hentry
  accepted_iff i e := by
    rw [hopened.accepted, hopened.consumer]
    exact iff_of_false List.not_mem_nil fun h => absurd h.1 (Nat.not_lt_zero i)
  sorted := by
    rw [hopened.accepted]
    exact List.Pairwise.nil
  history := by
    rw [hopened.accepted]
    exact .start hopened.history_buffer

/-- Only the stores, the window, the consumer and the history are in the books. -/
theorem Accounts.of_frame (h : Accounts env start w) (hframe : w.Frame t)
    (hflushes : w.history.Flushes env t.history) : Accounts env start t where
  committed := by rw [hframe.consumer, h.committed]
  commits := by rw [hframe.commits, hframe.consumer, h.commits]
  guard_iff := by rw [hframe.redis, hframe.consumer]; exact h.guard_iff
  seen := by rw [hframe.dedup, hframe.consumer]; exact h.seen
  accepted_iff := by rw [hframe.accepted, hframe.consumer]; exact h.accepted_iff
  sorted := by rw [hframe.accepted]; exact h.sorted
  history := by rw [hframe.accepted]; exact h.history.flush hflushes

/-- The event of the message that is polled. -/
theorem event_at_of_poll {msg : KafkaMessage} (hpolled : (w.poll env).1 = some msg) :
    event_at env.topic w.consumer.next_offset = (decode_location_payload msg.payload).toOption := by
  rcases w.poll_cases env with hpoll | ⟨message, msg', hmessage, hpayload, -, hpoll⟩
  · rw [hpoll] at hpolled
    cases hpolled
  · rw [hpoll] at hpolled
    cases hpolled
    unfold event_at
    rw [hmessage, hpayload]
    rfl

/-- A message is malformed exactly when there is no event. -/
theorem outcome_malformed_iff {msg : KafkaMessage} (hpolled : (w.poll env).1 = some msg) :
    w.outcome env msg = .malformed ↔ event_at env.topic w.consumer.next_offset = none := by
  rw [event_at_of_poll hpolled]
  unfold World.outcome
  cases decode_location_payload msg.payload with
  | error e => exact iff_of_true rfl rfl
  | ok event =>
    refine iff_of_false ?_ nofun
    dsimp only
    split
    · exact nofun
    · split <;> exact nofun

/-- A stale event is that of the message. -/
theorem decode_of_outcome_stale {msg : KafkaMessage} (hstale : w.outcome env msg = .stale event) :
    decode_location_payload msg.payload = .ok event := by
  unfold World.outcome at hstale
  cases hdecode : decode_location_payload msg.payload with
  | error e =>
    rw [hdecode] at hstale
    cases hstale
  | ok event' =>
    rw [hdecode] at hstale
    dsimp only at hstale
    split at hstale
    · cases hstale
    · split at hstale
      · cases hstale
      · rw [MessageOutcome.stale.inj hstale]

/-- An event is accepted exactly when it is a record and newer than what was stored at the start. -/
theorem Accounts.outcome_accepted_iff (h : Accounts env start w) {msg : KafkaMessage}
    (hpolled : (w.poll env).1 = some msg) (event : LocationEvent) :
    w.outcome env msg = .accepted event ↔ Record env.topic w.consumer.next_offset event ∧
      SequenceGuard.should_accept start.redis event.device_id event.seq = true := by
  have hevent := event_at_of_poll hpolled
  unfold World.outcome
  cases hdecode : decode_location_payload msg.payload with
  | error e =>
    rw [hdecode] at hevent
    -- A malformed payload has no event, so it is no record.
    refine iff_of_false nofun fun hrecord => ?_
    rw [hrecord.1.decoded] at hevent
    cases hevent
  | ok event' =>
    rw [hdecode] at hevent
    dsimp only
    have hrecord_iff : ∀ e, Record env.topic w.consumer.next_offset e ↔ event' = e ∧
        ∀ i < w.consumer.next_offset, ∀ e', event_at env.topic i = some e' →
          e'.device_id = e.device_id → e'.seq < e.seq := by
      intro e
      constructor
      · intro hrecord
        rw [hrecord.decoded] at hevent
        exact ⟨(Option.some.inj hevent).symm, hrecord.newer⟩
      · rintro ⟨rfl, hnewer⟩
        exact ⟨hevent, hnewer⟩
    rw [hrecord_iff]
    cases hduplicate : ((w.poll env).2.is_duplicate env event').1 with
    | true =>
      rw [if_pos rfl]
      refine iff_of_false nofun ?_
      rintro ⟨⟨rfl, hnewer⟩, -⟩
      -- The window remembers an earlier event of the same key, so this one is no record.
      have hseen : (event'.device_id, event'.seq) ∈ w.dedup.seen :=
        DedupWindow.mem_seen_of_is_duplicate hduplicate
      obtain ⟨i, hi, e, he, hd, hs⟩ := h.seen _ _ hseen
      exact absurd (hnewer i hi e he hd) (by omega)
    | false =>
      rw [if_neg Bool.false_ne_true]
      -- The guard compares with the newest event so far, which a record is newer than.
      cases hguard : SequenceGuard.should_accept w.redis event'.device_id event'.seq with
      | true =>
        obtain ⟨hstart, hnewer⟩ := (h.guard_iff _ _).mp hguard
        rw [if_pos rfl]
        constructor
        · intro heq
          cases heq
          exact ⟨⟨rfl, hnewer⟩, hstart⟩
        · rintro ⟨⟨rfl, -⟩, -⟩
          rfl
      | false =>
        rw [if_neg Bool.false_ne_true]
        refine iff_of_false nofun ?_
        rintro ⟨⟨rfl, hnewer⟩, hstart⟩
        rw [(h.guard_iff _ _).mpr ⟨hstart, hnewer⟩] at hguard
        cases hguard

/-- The events below the next offset after one more message. -/
theorem forall_lt_succ_iff {topic : List BrokerMessage} {n : ℕ} (holds : LocationEvent → Prop) :
    (∀ i < n + 1, ∀ e, event_at topic i = some e → holds e) ↔
      (∀ i < n, ∀ e, event_at topic i = some e → holds e) ∧
        ∀ e, event_at topic n = some e → holds e := by
  constructor
  · exact fun hall => ⟨fun i hi => hall i (Nat.lt_succ_of_lt hi), hall n (Nat.lt_succ_self n)⟩
  · rintro ⟨hbefore, hlast⟩ i hi
    rcases Nat.lt_succ_iff_lt_or_eq.mp hi with hi | rfl
    · exact hbefore i hi
    · exact hlast

/-- A message whose event is not accepted. -/
theorem Accounts.discard (h : Accounts env start w) {msg : KafkaMessage} (hconsumes : Consumes w msg t)
    (hdiscards : Discards w t)
    (hseen : t.dedup.seen ⊆ w.dedup.seen ∨ ∃ e, event_at env.topic w.consumer.next_offset = some e ∧
      t.dedup.seen ⊆ insert (e.device_id, e.seq) w.dedup.seen)
    (hnot : ∀ e, event_at env.topic w.consumer.next_offset = some e →
      SequenceGuard.should_accept w.redis e.device_id e.seq = false) :
    Accounts env start t where
  committed := by
    rw [hconsumes.committed_offset, hconsumes.next_offset, h.committed]
    omega
  commits := by rw [hconsumes.commits, hconsumes.next_offset, h.commits, List.range_succ]
  guard_iff d s := by
    rw [hdiscards.redis, hconsumes.next_offset, forall_lt_succ_iff fun e => e.device_id = d → e.seq < s,
      ← and_assoc, ← h.guard_iff]
    -- The rejected event is not newer than what is stored, so it is no news to the guard.
    refine (and_iff_left_of_imp fun haccept e he hd => ?_).symm
    exact lt_of_should_accept haccept (hd ▸ hnot e he)
  seen d s hds := by
    rw [hconsumes.next_offset]
    have hold : (d, s) ∈ w.dedup.seen → ∃ i < w.consumer.next_offset + 1, ∃ e,
        event_at env.topic i = some e ∧ e.device_id = d ∧ e.seq = s := by
      intro hds
      obtain ⟨i, hi, hfound⟩ := h.seen d s hds
      exact ⟨i, Nat.lt_succ_of_lt hi, hfound⟩
    -- The window may have the event of the message, if it was marked before it was rejected.
    rcases hseen with hseen | ⟨e, he, hseen⟩
    · exact hold (hseen hds)
    · rcases hseen hds with heq | hds
      · obtain ⟨rfl, rfl⟩ := Prod.mk.inj heq
        exact ⟨_, Nat.lt_succ_self _, e, he, rfl, rfl⟩
      · exact hold hds
  accepted_iff i e := by
    rw [hdiscards.accepted, hconsumes.next_offset, h.accepted_iff, Nat.lt_succ_iff_lt_or_eq, or_and_right]
    refine (or_iff_left ?_).symm
    -- A record that the guard lets through would have been accepted.
    rintro ⟨rfl, hrecord, hstart⟩
    have hguard := (h.guard_iff _ _).mpr ⟨hstart, hrecord.newer⟩
    rw [hnot e hrecord.decoded] at hguard
    cases hguard
  sorted := by
    rw [hdiscards.accepted]
    exact h.sorted
  history := by
    rw [hdiscards.accepted, hdiscards.history]
    exact h.history

/-- A message whose event is accepted. -/
theorem Accounts.write (h : Accounts env start w) {msg : KafkaMessage} (hconsumes : Consumes w msg t)
    (hwrites : Writes env p event w t)
    (hseen : t.dedup.seen ⊆ insert (event.device_id, event.seq) w.dedup.seen)
    (hrecord : Record env.topic w.consumer.next_offset event)
    (hstart : SequenceGuard.should_accept start.redis event.device_id event.seq = true) :
    Accounts env start t where
  committed := by
    rw [hconsumes.committed_offset, hconsumes.next_offset, h.committed]
    omega
  commits := by rw [hconsumes.commits, hconsumes.next_offset, h.commits, List.range_succ]
  guard_iff d s := by
    obtain ⟨cell, -, hredis⟩ := hwrites.redis
    have hguard : SequenceGuard.should_accept w.redis event.device_id
        (StateWriter.state_of event cell (w.write_ms env)).seq = true :=
      (h.guard_iff _ _).mpr ⟨hstart, hrecord.newer⟩
    -- From now on the guard wants more than this event's number, for its device alone.
    rw [hredis, should_accept_cas hguard, hconsumes.next_offset,
      forall_lt_succ_iff fun e => e.device_id = d → e.seq < s, ← and_assoc, ← h.guard_iff]
    have hlast : (∀ e, event_at env.topic w.consumer.next_offset = some e → e.device_id = d →
        e.seq < s) ↔ (event.device_id = d → event.seq < s) := by
      rw [hrecord.decoded]
      exact ⟨fun hall => hall event rfl, fun hlt e he => Option.some.inj he ▸ hlt⟩
    rw [hlast]
    by_cases hd : d = event.device_id
    · subst hd
      rw [if_pos rfl, decide_eq_true_iff]
      constructor
      · intro hlt
        exact ⟨should_accept_mono hguard (Nat.le_of_lt hlt), fun _ => hlt⟩
      · exact fun hboth => hboth.2 rfl
    · rw [if_neg hd]
      exact (and_iff_left fun heq => absurd heq.symm hd).symm
  seen d s hds := by
    rw [hconsumes.next_offset]
    rcases hseen hds with heq | hds
    · obtain ⟨rfl, rfl⟩ := Prod.mk.inj heq
      exact ⟨_, Nat.lt_succ_self _, event, hrecord.decoded, rfl, rfl⟩
    · obtain ⟨i, hi, hfound⟩ := h.seen d s hds
      exact ⟨i, Nat.lt_succ_of_lt hi, hfound⟩
  accepted_iff i e := by
    rw [hwrites.accepted, hconsumes.next_offset, List.mem_cons, h.accepted_iff,
      Nat.lt_succ_iff_lt_or_eq, or_and_right, Or.comm]
    refine or_congr_right ?_
    constructor
    · intro heq
      -- The new entry is this turn's message, and there is one event at its offset.
      obtain ⟨rfl, rfl⟩ := Prod.mk.inj heq
      exact ⟨rfl, hrecord, hstart⟩
    · rintro ⟨rfl, hrecord', -⟩
      have heq := hrecord'.decoded.symm.trans hrecord.decoded
      rw [Option.some.inj heq]
  sorted := by
    rw [hwrites.accepted, List.pairwise_cons]
    refine ⟨fun x hx => ?_, h.sorted⟩
    exact ((h.accepted_iff x.1 x.2).mp hx).1
  history := by
    have hevents : t.accepted.reverse.map Prod.snd = w.accepted.reverse.map Prod.snd ++ [event] := by
      rw [hwrites.accepted, List.reverse_cons, List.map_append, List.map_singleton]
    rw [hevents]
    exact (h.history.push event).flush hwrites.history

/-- The guard rejects the event of a message that is not accepted, also when the window has taken it
for a duplicate. -/
theorem Accounts.rejects (h : Accounts env start w) {msg : KafkaMessage}
    (hpolled : (w.poll env).1 = some msg) (hnot : ∀ e, w.outcome env msg ≠ .accepted e)
    (e : LocationEvent) (he : event_at env.topic w.consumer.next_offset = some e) :
    SequenceGuard.should_accept w.redis e.device_id e.seq = false := by
  by_contra hguard
  obtain ⟨hstart, hnewer⟩ := (h.guard_iff _ _).mp (Bool.eq_true_of_not_eq_false hguard)
  exact hnot e ((h.outcome_accepted_iff hpolled e).mpr ⟨⟨he, hnewer⟩, hstart⟩)

/-- A turn keeps the books. -/
theorem Accounts.turns (h : Accounts env start w) (hturns : Turns env p w t) :
    Accounts env start t := by
  -- The cases are the outcomes of a turn; all but the last leave the store alone.
  unfold Turns at hturns
  cases hpolled : (w.poll env).1 with
  | none =>
    rw [hpolled] at hturns
    exact h.of_frame hturns.1 hturns.2
  | some msg =>
    rw [hpolled] at hturns
    obtain ⟨hconsumes, heffect⟩ := hturns
    cases houtcome : w.outcome env msg with
    | malformed =>
      rw [houtcome] at heffect
      exact h.discard hconsumes heffect.1 (.inl heffect.2)
        (h.rejects hpolled fun _ => houtcome.trans_ne nofun)
    | duplicate event =>
      rw [houtcome] at heffect
      exact h.discard hconsumes heffect.1 (.inl heffect.2)
        (h.rejects hpolled fun _ => houtcome.trans_ne nofun)
    | stale event =>
      have hevent : event_at env.topic w.consumer.next_offset = some event := by
        rw [event_at_of_poll hpolled, decode_of_outcome_stale houtcome]
        rfl
      rw [houtcome] at heffect
      exact h.discard hconsumes heffect.1 (.inr ⟨event, hevent, heffect.2⟩)
        (h.rejects hpolled fun _ => houtcome.trans_ne nofun)
    | accepted event =>
      obtain ⟨hrecord, hstart⟩ := (h.outcome_accepted_iff hpolled event).mp houtcome
      rw [houtcome] at heffect
      exact h.write hconsumes heffect.1 heffect.2 hrecord hstart

/-- A turn of the loop that returns does what a turn does. -/
theorem turns_of_ok (hok : ((ProcessingLoop.turn env p).exec .atomic w).result = .ok ()) :
    Turns env p w ((ProcessingLoop.turn env p).exec .atomic w).final :=
  ((Prog.always_iff_exec _ _).mp (always_turn env p w)).2.1 () hok

/-- A reading is not in the books. -/
theorem Accounts.advance (h : Accounts env start w) : Accounts env start w.advance :=
  h.of_frame ⟨rfl, rfl, rfl, rfl, rfl⟩ .kept

/-- The books are right at every head of the loop. -/
theorem World.Opened.accounts_heads {w₀ : World G} {k : ℕ} (hopened : w₀.Opened)
    (hheads : Heads env (ProcessingLoop.turn env p) (w₀.started env) k w) : Accounts env w₀ w := by
  induction hheads with
  | start => exact hopened.accounts.of_frame ⟨rfl, rfl, rfl, rfl, rfl⟩ .kept
  | turn _ _ hok ih => exact ih.advance.turns (turns_of_ok hok)

/-- Fresh stores are opened. -/
theorem World.fresh_opened (max_entries : ℕ) (ttl_seconds : ℤ) (geofence : G) :
    (World.fresh max_entries ttl_seconds geofence).Opened := ⟨rfl, rfl, rfl, rfl, rfl⟩

section Falls

variable {w₀ w' : World G} {k k' i : ℕ} {o o' : MessageOutcome}

/-- In the run from `w₀`, the message at the offset is polled in a turn that gives it this outcome. -/
def Falls (env : Environment) (p : Processor G) (w₀ : World G) (i : ℕ) (o : MessageOutcome) : Prop :=
  ∃ k w msg, Heads env (ProcessingLoop.turn env p) w₀ k w ∧ (w.advance.poll env).1 = some msg ∧
    env.should_stop w.tick = false ∧ w.consumer.next_offset = i ∧ w.advance.outcome env msg = o

/-- The number of turns determines the head. -/
theorem Heads.unique {turn : Action G Unit} (h : Heads env turn w₀ k w) (h' : Heads env turn w₀ k w') :
    w = w' := by
  induction h generalizing w' with
  | start => cases h'; rfl
  | turn _ _ _ ih =>
    cases h' with
    | turn h' _ _ => rw [ih h']

/-- A turn moves on by one message if it polls one. -/
theorem Turns.next_offset (h : Turns env p w t) : t.consumer.next_offset =
    w.consumer.next_offset + if (w.poll env).1.isSome then 1 else 0 := by
  unfold Turns at h
  cases hpolled : (w.poll env).1 with
  | none =>
    rw [hpolled] at h
    exact congrArg KafkaConsumer.next_offset h.1.consumer
  | some msg =>
    rw [hpolled] at h
    exact h.1.next_offset

/-- After a turn that polls a message, the loop is past it. -/
theorem Heads.past {msg : KafkaMessage} (h : Heads env (ProcessingLoop.turn env p) w₀ k w)
    (h' : Heads env (ProcessingLoop.turn env p) w₀ k' w') (hlt : k < k')
    (hpolled : (w.advance.poll env).1 = some msg) :
    w.consumer.next_offset < w'.consumer.next_offset := by
  induction h' with
  | start => exact absurd hlt (Nat.not_lt_zero k)
  | @turn k' v hv _ hok ih =>
    have hnext : _ = v.consumer.next_offset + _ := (turns_of_ok hok).next_offset
    rcases Nat.lt_succ_iff_lt_or_eq.mp hlt with hlt | rfl
    · have hbefore := ih hlt
      omega
    · rw [h.unique hv] at hpolled ⊢
      rw [hpolled] at hnext
      rw [hnext]
      exact Nat.lt_succ_self _

/-- A message is polled in one turn, so it has one outcome. -/
theorem Falls.unique (h : Falls env p w₀ i o) (h' : Falls env p w₀ i o') : o = o' := by
  obtain ⟨k, w, msg, hheads, hpolled, -, hi, ho⟩ := h
  obtain ⟨k', w', msg', hheads', hpolled', -, hi', ho'⟩ := h'
  have hk : k = k' := by
    rcases Nat.lt_trichotomy k k' with hlt | heq | hlt
    · have := hheads.past hheads' hlt hpolled
      omega
    · exact heq
    · have := hheads'.past hheads hlt hpolled'
      omega
  subst hk
  cases hheads.unique hheads'
  rw [hpolled] at hpolled'
  cases hpolled'
  rw [← ho, ho']

/-- The messages behind the loop have been polled. -/
theorem Heads.polled (h : Heads env (ProcessingLoop.turn env p) w₀ k w)
    (hbefore : w₀.consumer.next_offset ≤ i) (hi : i < w.consumer.next_offset) :
    ∃ k v msg, Heads env (ProcessingLoop.turn env p) w₀ k v ∧ (v.advance.poll env).1 = some msg ∧
      env.should_stop v.tick = false ∧ v.consumer.next_offset = i := by
  induction h with
  | start => omega
  | @turn k v hv hgo hok ih =>
    have hnext : _ = v.consumer.next_offset + _ := (turns_of_ok hok).next_offset
    rw [hnext] at hi
    rcases Nat.lt_or_ge i v.consumer.next_offset with hlt | hge
    · exact ih hlt
    cases hpolled : (v.advance.poll env).1 with
    | none =>
      rw [hpolled] at hi
      exact absurd hi (Nat.not_lt.mpr hge)
    | some msg =>
      rw [hpolled] at hi
      exact ⟨k, v, msg, hv, hpolled, hgo, Nat.le_antisymm hge (Nat.le_of_lt_succ hi)⟩

/-- The turns among the first `k` that poll a message. -/
def finding_turns (env : Environment) (p : Processor G) (w₀ : World G) (k : ℕ) : Set ℕ :=
  {j | j < k ∧ ∃ v, Heads env (ProcessingLoop.turn env p) w₀ j v ∧ (v.advance.poll env).1.isSome = true}

/-- As many messages are behind the loop as turns have found one. -/
theorem Heads.next_offset_eq (h : Heads env (ProcessingLoop.turn env p) w₀ k w) :
    w.consumer.next_offset = w₀.consumer.next_offset + (finding_turns env p w₀ k).ncard := by
  induction h with
  | start =>
    have hnone : finding_turns env p w₀ 0 = ∅ := Set.eq_empty_of_forall_notMem fun j hj => Nat.not_lt_zero j hj.1
    rw [hnone, Set.ncard_empty, Nat.add_zero]
  | @turn k v hv _ hok ih =>
    have hnext : _ = v.consumer.next_offset + _ := (turns_of_ok hok).next_offset
    have hfinite : (finding_turns env p w₀ k).Finite := (Set.finite_lt_nat k).subset fun _ hj => hj.1
    -- The turn that is made here is found among them if it polls a message.
    have hlast : ∀ j, j ∈ finding_turns env p w₀ (k + 1) ↔
        j ∈ finding_turns env p w₀ k ∨ j = k ∧ (v.advance.poll env).1.isSome = true := by
      intro j
      constructor
      · rintro ⟨hlt, v', hv', hsome⟩
        rcases Nat.lt_succ_iff_lt_or_eq.mp hlt with hlt | rfl
        · exact .inl ⟨hlt, v', hv', hsome⟩
        · exact .inr ⟨rfl, hv.unique hv' ▸ hsome⟩
      · rintro (⟨hlt, hfinds⟩ | ⟨rfl, hsome⟩)
        · exact ⟨Nat.lt_succ_of_lt hlt, hfinds⟩
        · exact ⟨Nat.lt_succ_self j, v, hv, hsome⟩
    rw [hnext, ih, Nat.add_assoc]
    congr 1
    cases hsome : (v.advance.poll env).1.isSome with
    | false =>
      have hsame : finding_turns env p w₀ (k + 1) = finding_turns env p w₀ k := Set.ext fun j => by simp [hlast, hsome]
      rw [hsame]
      rfl
    | true =>
      have hinsert : finding_turns env p w₀ (k + 1) = insert k (finding_turns env p w₀ k) :=
        Set.ext fun j => by simp [hlast, hsome, or_comm]
      rw [hinsert, Set.ncard_insert_of_notMem (fun hmem => Nat.lt_irrefl k hmem.1) hfinite]
      rfl

end Falls

/-- Accepted events are distinct trip points. -/
theorem Accounts.nodup_keys (h : Accounts env start w) :
    ((w.accepted.reverse.map Prod.snd).map PostgresClient.trip_point_key).Nodup := by
  rw [List.map_map, List.map_reverse, List.nodup_reverse, List.Nodup, List.pairwise_map]
  refine h.sorted.imp_of_mem fun {a b} ha hb hlt heq => ?_
  obtain ⟨-, ⟨-, hnewer⟩, -⟩ := (h.accepted_iff a.1 a.2).mp ha
  obtain ⟨-, ⟨hdecoded, -⟩, -⟩ := (h.accepted_iff b.1 b.2).mp hb
  obtain ⟨hdevice, hseq⟩ := Prod.mk.inj heq
  have hseq_lt := hnewer b.1 hlt b.2 hdecoded hdevice.symm
  exact Nat.ne_of_gt hseq_lt hseq

/-- What the last flush of a run does. -/
theorem exec_flush (env : Environment) (w : World G) :
    let t := ((HistoryWriter.flush env).exec .atomic w).final
    w.Frame t ∧ w.history.Flushes env t.history ∧ t.history_buffer = [] := by
  intro t
  have hboth := (Prog.always_iff_exec (HistoryWriter.flush env) w).mp (flush_frame.and (flush_flushes w))
  obtain ⟨-, hok, herror⟩ := hboth
  cases hresult : ((HistoryWriter.flush env).exec .atomic w).result with
  | ok _ => exact hok () hresult
  | error e => exact (herror e hresult).1.elim

/-- The books of a run that returns. -/
theorem World.Opened.accounts_run {w₀ : World G} {n : ℕ} (hopened : w₀.Opened)
    (hreturns : ((ProcessingLoop.run env p n).exec .atomic w₀).result = .ok true) :
    ∃ k w, Heads env (ProcessingLoop.turn env p) (w₀.started env) k w ∧ env.should_stop w.tick = true ∧
      let final := ((ProcessingLoop.run env p n).exec .atomic w₀).final
      w.consumer.next_offset = final.consumer.next_offset ∧ Accounts env w₀ final ∧
        final.history_buffer = [] := by
  obtain ⟨k, w, hheads, hstop, hfinal⟩ := exec_run_returns hreturns
  obtain ⟨hframe, hflushes, hempty⟩ := exec_flush env w.advance
  refine ⟨k, w, hheads, hstop, ?_⟩
  unfold ProcessingLoop.run
  rw [hfinal]
  have haccounts : Accounts env w₀ w.advance := (hopened.accounts_heads hheads).advance
  exact ⟨(congrArg KafkaConsumer.next_offset hframe.consumer).symm, haccounts.of_frame hframe hflushes,
    hempty⟩

/-- The books of a run from `w₀` that has ended in `final`. -/
structure Balanced (env : Environment) (p : Processor G) (w₀ final : World G) : Prop where
  /-- The loop has made turns until the process was asked to stop, and as many messages are behind it as these
  have found. -/
  polled : ∃ k w, Heads env (ProcessingLoop.turn env p) (w₀.started env) k w ∧ env.should_stop w.tick = true ∧
    final.consumer.next_offset = (finding_turns env p (w₀.started env) k).ncard
  /-- Each polled message is committed once. -/
  commits : final.commits = List.range final.consumer.next_offset
  committed_offset : final.consumer.committed_offset = final.consumer.next_offset
  /-- Each has one outcome, and those that are malformed or accepted are determined by the topic. -/
  outcome : ∀ i < final.consumer.next_offset, ∃! o, Falls env p (w₀.started env) i o
  malformed : ∀ i < final.consumer.next_offset,
    Falls env p (w₀.started env) i .malformed ↔ event_at env.topic i = none
  accepted : ∀ i < final.consumer.next_offset, ∀ e,
    Falls env p (w₀.started env) i (.accepted e) ↔ Record env.topic i e
  /-- There is no buffer left, and the events of the accepted messages are the trip points and the dead
  letters, each once. -/
  history_buffer : final.history_buffer = []
  history : ∃ records : List (ℕ × LocationEvent), records.Pairwise (fun a b => a.1 < b.1) ∧
    (∀ i e, (i, e) ∈ records ↔ i < final.consumer.next_offset ∧ Record env.topic i e) ∧
    ∃ dead, final.produced = dead.map dlq_message ∧
      (final.pg.trip_points ++ dead).Perm (records.map Prod.snd)

/-- The books of a run from fresh stores that returns are balanced, in either mode. -/
theorem exact_accounting (env : Environment) (p : Processor G) (max_entries : ℕ) (ttl_seconds : ℤ)
    (geofence : G) (n : ℕ)
    (hreturns : ((ProcessingLoop.run env p n).exec .atomic
      (World.fresh max_entries ttl_seconds geofence)).result = .ok true) :
    Balanced env p (World.fresh max_entries ttl_seconds geofence)
      ((ProcessingLoop.run env p n).exec .atomic
        (World.fresh max_entries ttl_seconds geofence)).final := by
  have hopened := World.fresh_opened max_entries ttl_seconds geofence
  obtain ⟨k, w, hheads, hstop, hnext, haccounts, hempty⟩ := hopened.accounts_run hreturns
  -- From here on the end of the run is known by its books only.
  generalize ((ProcessingLoop.run env p n).exec .atomic
    (World.fresh max_entries ttl_seconds geofence)).final = final at hnext haccounts hempty
  -- The turn at which a message is polled decides its outcome.
  have hfalls : ∀ i < final.consumer.next_offset, ∃ (v : World G) (msg : KafkaMessage),
      (v.advance.poll env).1 = some msg ∧ v.consumer.next_offset = i ∧
        Accounts env (World.fresh max_entries ttl_seconds geofence) v.advance ∧
        ∀ o, Falls env p ((World.fresh max_entries ttl_seconds geofence).started env) i o ↔
          v.advance.outcome env msg = o := by
    intro i hi
    obtain ⟨k', v, msg, hv, hpolled, hgo, hoffset⟩ := hheads.polled (Nat.zero_le i) (hnext.symm ▸ hi)
    have hself : Falls env p _ i (v.advance.outcome env msg) := ⟨k', v, msg, hv, hpolled, hgo, hoffset, rfl⟩
    exact ⟨v, msg, hpolled, hoffset, (hopened.accounts_heads hv).advance, fun o =>
      ⟨hself.unique, fun ho => ho ▸ hself⟩⟩
  refine ⟨⟨k, w, hheads, hstop, ?_⟩, haccounts.commits, haccounts.committed, fun i hi => ?_, fun i hi => ?_,
    fun i hi e => ?_, hempty, final.accepted.reverse, ?_, ?_, ?_⟩
  · rw [← hnext, hheads.next_offset_eq]
    exact Nat.zero_add _
  · obtain ⟨v, msg, -, -, -, hiff⟩ := hfalls i hi
    exact ⟨_, (hiff _).mpr rfl, fun o ho => ((hiff o).mp ho).symm⟩
  · obtain ⟨v, msg, hpolled, rfl, -, hiff⟩ := hfalls i hi
    exact (hiff _).trans (outcome_malformed_iff hpolled)
  · obtain ⟨v, msg, hpolled, rfl, hbooks, hiff⟩ := hfalls i hi
    exact (hiff _).trans ((hbooks.outcome_accepted_iff hpolled e).trans (and_iff_left rfl))
  · exact List.pairwise_reverse.mpr haccounts.sorted
  · intro i e
    rw [List.mem_reverse, haccounts.accepted_iff, and_congr_right_iff]
    exact fun _ => and_iff_left rfl
  · obtain ⟨inserted, dead, hpg, hdead, hperm⟩ := haccounts.history.perm
    -- Nothing is buffered at the end, and no two accepted events have one key, so the store has
    -- each.
    have hbuffer : final.history.buffer = [] := hempty
    rw [hbuffer, List.append_nil] at hperm
    refine ⟨dead, hdead, ?_⟩
    have hnodup : ((inserted ++ dead).map PostgresClient.trip_point_key).Nodup :=
      (hperm.map _).nodup_iff.mp haccounts.nodup_keys
    rw [List.map_append] at hnodup
    have hstored : final.history.pg.trip_points = inserted := by
      rw [hpg]
      exact PostgresClient.batch_insert_of_fresh hnodup.of_append_left fun e _ => Finset.notMem_empty _
    change (final.history.pg.trip_points ++ dead).Perm _
    rw [hstored]
    exact hperm.symm

/-- A topic with a stale event and a malformed payload, where the first insertion fails and the process
is asked to stop later. -/
def accounting_environment : Environment :=
  { Environment.attentive [⟨"d", "d,5,2000,2000,0,0", 0⟩, ⟨"d", "d,4,1000,1000,0,0", 0⟩,
      ⟨"d", "d,6", 0⟩, ⟨"d", "d,7,3000,3000,0,0", 0⟩] with
    should_stop := fun tick => decide (60 ≤ tick)
    insert_error := fun tick => if tick < 20 then some "connection lost" else none }

/-- Direct mode with batches of one event. -/
def unbatched_processor : Processor Unit := ⟨H3Index.default, { history_batch_size := 1 }, none⟩

/-- The books of a run of four messages. -/
theorem exact_accounting_four :
    ((ProcessingLoop.run accounting_environment unbatched_processor 40).exec .atomic
      (World.fresh 10 10 ())).final.consumer.next_offset = 4 ∧
    Balanced accounting_environment unbatched_processor (World.fresh 10 10 ())
      ((ProcessingLoop.run accounting_environment unbatched_processor 40).exec .atomic
        (World.fresh 10 10 ())).final :=
  ⟨by decide +kernel, exact_accounting accounting_environment unbatched_processor 10 10 () 40 (by decide +kernel)⟩

end SignalRoute
