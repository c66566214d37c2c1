import SignalRoute.Interaction.Batches
import SignalRoute.Clients.Kafka
import SignalRoute.Clients.Postgres
import SignalRoute.Processor.Codec

/-!
# The dead-letter replay worker

`DLQReplayWorker::run_once` of `src/workers/dlq_replay_worker.cpp`: each message of the dead-letter
topic is decoded and written to the trip history, with several attempts. If all of them fail, the
message is deferred: the call ends without a commit.

The consumer has moved past the message by then, so it is never polled again, and the next commit
covers it. A replay skips nothing (`World.Unskipped`) exactly when nothing is settled once a message
is deferred (`unskipped_iff_orderly`); whether a message is deferred depends on the database alone
(`replay_fates`).

What a call publishes on the event bus is left out: only metrics subscribe to it.
-/

namespace SignalRoute

open Interaction
open Interaction.Prog (perform always_bind)
open CommitLog (Fate Orderly Follows)

/-- The calls of the worker. -/
inductive ReplayCall : Type → Type where
  | poll : ReplayCall (Option KafkaMessage)
  | commit (msg : KafkaMessage) : ReplayCall Unit
  | write_trip_point (event : LocationEvent) : ReplayCall (Except Exception Unit)
  | sleep_for (ms : ℤ) : ReplayCall Unit

/-- A program of the worker. -/
abbrev ReplayProgram (α : Type) : Type 1 := Prog ReplayCall Exception α

/-- `DLQReplayResult`. -/
structure DLQReplayResult where
  replayed_messages : ℕ := 0
  failed_messages : ℕ := 0
  retried_messages : ℕ := 0
  deferred_messages : ℕ := 0
  last_error : String := ""
  deriving DecidableEq

/-- `DLQReplayPolicy`. -/
structure DLQReplayPolicy where
  max_write_attempts : ℤ := 3
  initial_backoff_ms : ℤ := 10
  max_backoff_ms : ℤ := 1000

/-- The attempts to write one event: whether one of them went through, how many were repeated, and the
last error. -/
structure WriteAttempts where
  replayed : Bool
  retried : ℕ := 0
  last_error : Option String := none

/-- What a turn of the worker comes to. -/
inductive ReplayOutcome where
  | nothing
  | invalid
  | written (attempts : WriteAttempts)

/-- The counters after a turn. -/
def DLQReplayResult.count (result : DLQReplayResult) : ReplayOutcome → DLQReplayResult
  | .nothing => result
  | .invalid => { result with failed_messages := result.failed_messages + 1 }
  | .written attempts =>
    let result := { result with
      retried_messages := result.retried_messages + attempts.retried
      last_error := attempts.last_error.getD result.last_error }
    if attempts.replayed then { result with replayed_messages := result.replayed_messages + 1 }
    else { result with deferred_messages := result.deferred_messages + 1 }

namespace DLQReplayWorker

/-- `bounded_attempts`. -/
def bounded_attempts (attempts : ℤ) : ℕ := (max 1 attempts).toNat

/-- `bounded_backoff_ms`. -/
def bounded_backoff_ms (backoff_ms : ℤ) : ℤ := max 0 backoff_ms

/-- The error text of a failed write. -/
def error_text : Exception → String
  | .std what => what
  | .other => "unknown DLQ replay write failure"

variable (policy : DLQReplayPolicy)

/-- The loop over the attempts that are left. -/
def write_attempts (event : LocationEvent) :
    ℕ → ℤ → WriteAttempts → ReplayProgram WriteAttempts
  | 0, _, attempts => .pure attempts
  | n + 1, backoff_ms, attempts => do
    match ← perform (.write_trip_point event) with
    | .ok () => return { attempts with replayed := true }
    | .error e =>
      let attempts := { attempts with last_error := some (error_text e) }
      if n = 0 then
        return attempts
      else
        let attempts := { attempts with retried := attempts.retried + 1 }
        if backoff_ms > 0 then
          perform (.sleep_for backoff_ms)
          write_attempts event n
            (if policy.max_backoff_ms ≤ 0 then backoff_ms
              else min (backoff_ms * 2) policy.max_backoff_ms) attempts
        else write_attempts event n backoff_ms attempts

/-- A turn of the worker, and whether the call goes on: a deferred message ends it. -/
def turn : ReplayProgram (ReplayOutcome × Bool) := do
  match ← perform .poll with
  | none => return (.nothing, false)
  | some msg =>
    match decode_location_payload msg.payload with
    | .error _ =>
      perform (.commit msg)
      return (.invalid, true)
    | .ok event =>
      let attempts ← write_attempts policy event (bounded_attempts policy.max_write_attempts)
        (bounded_backoff_ms policy.initial_backoff_ms) { replayed := false }
      if attempts.replayed = false then
        return (.written attempts, false)
      else
        perform (.commit msg)
        return (.written attempts, true)

/-- `run_once`. -/
def run_once (max_messages : ℤ) : ReplayProgram DLQReplayResult :=
  if max_messages ≤ 0 then return {}
  else (turn policy).untilStop DLQReplayResult.count {} max_messages.toNat

end DLQReplayWorker

/-- What happens to the messages of the dead-letter topic. -/
inductive ReplayEvent where
  | attempted (offset : ℕ) (ok : Bool)
  | committed (offset : ℕ)
  deriving DecidableEq

/-- Whether the last attempt to write a message went through, if there was one. -/
def last_attempt (log : List ReplayEvent) (offset : ℕ) : Option Bool :=
  log.foldl (fun last event =>
    match event with
    | .attempted o ok => if o = offset then some ok else last
    | .committed _ => last) none

/-- A message whose attempts have failed is attempted again before any later message is committed: when
a message is committed, the last attempt on no earlier one has failed. -/
def Retried (log : List ReplayEvent) : Prop :=
  ∀ n m, log[n]? = some (.committed m) → ∀ offset < m, last_attempt (log.take n) offset ≠ some false

section Log

variable {log : List ReplayEvent}

/-- One more attempt. -/
theorem last_attempt_attempted (o : ℕ) (ok : Bool) (offset : ℕ) :
    last_attempt (log ++ [.attempted o ok]) offset =
      if o = offset then some ok else last_attempt log offset := by
  unfold last_attempt
  rw [List.foldl_append]
  rfl

/-- A commit is no attempt. -/
theorem last_attempt_committed (m offset : ℕ) :
    last_attempt (log ++ [.committed m]) offset = last_attempt log offset := by
  unfold last_attempt
  rw [List.foldl_append]
  rfl

/-- The events before the last one. -/
theorem retried_concat (event : ReplayEvent) :
    Retried (log ++ [event]) ↔ Retried log ∧
      ∀ m, event = .committed m → ∀ offset < m, last_attempt log offset ≠ some false := by
  have hentry := CommitLog.forall_entry_concat (fun before e =>
    ∀ m, e = ReplayEvent.committed m → ∀ offset < m, last_attempt before offset ≠ some false)
    log event
  have hretried : ∀ log : List ReplayEvent, Retried log ↔ ∀ n e, log[n]? = some e →
      ∀ m, e = .committed m → ∀ offset < m, last_attempt (log.take n) offset ≠ some false := by
    intro log
    constructor
    · rintro hall n e hn m rfl
      exact hall n m hn
    · intro hall n m hn
      exact hall n _ hn m rfl
  rw [hretried, hretried]
  exact hentry

/-- Attempts retry what there is to retry. -/
theorem retried_attempts (o : ℕ) (answers : List Bool) :
    Retried (log ++ answers.map (.attempted o)) ↔ Retried log := by
  induction answers using List.reverseRecOn with
  | nil => rw [List.map_nil, List.append_nil]
  | append_singleton answers ok ih =>
    rw [List.map_append, ← List.append_assoc, List.map_singleton, retried_concat, ih]
    exact and_iff_left nofun

/-- The last attempt after some attempts on a message. -/
theorem last_attempt_attempts (o : ℕ) (answers : List Bool) (offset : ℕ) :
    last_attempt (log ++ answers.map (.attempted o)) offset =
      if o = offset then answers.getLast?.or (last_attempt log offset)
      else last_attempt log offset := by
  induction answers using List.reverseRecOn with
  | nil => simp
  | append_singleton answers ok ih =>
    rw [List.map_append, ← List.append_assoc, List.map_singleton, last_attempt_attempted, ih,
      List.getLast?_concat, Option.some_or]
    by_cases ho : o = offset
    · rw [if_pos ho, if_pos ho]
    · rw [if_neg ho, if_neg ho, if_neg ho]

end Log

/-- What a run of the worker meets, by tick: the dead-letter topic and how much of it is there, and the
exceptions of the writes. -/
structure ReplayEnvironment where
  dlq_topic : String := "tm.location.dlq"
  topic : List BrokerMessage
  visible : ℕ → ℕ
  write_error : ℕ → Option Exception

/-- The consumer and the trip history. The offsets of the messages that have been written, and the log
of what has happened to the messages, are history variables. -/
structure ReplayWorld where
  tick : ℕ := 0
  consumer : KafkaConsumer := {}
  pg : PostgresClient := {}
  written : List ℕ := []
  log : List ReplayEvent := []

namespace ReplayWorld

variable (env : ReplayEnvironment)

/-- `consumer_.poll`. -/
def poll (w : ReplayWorld) : Option KafkaMessage × ReplayWorld :=
  let (msg, consumer) := w.consumer.poll env.dlq_topic (env.topic.take (env.visible w.tick))
  (msg, { w with consumer, tick := w.tick + 1 })

/-- `consumer_.commit`. -/
def commit (msg : KafkaMessage) (w : ReplayWorld) : ReplayWorld :=
  { w with consumer := w.consumer.commit msg, log := w.log ++ [.committed msg.offset] }

/-- `write_trip_point`, of the message polled last. -/
def write_trip_point (event : LocationEvent) (w : ReplayWorld) :
    Except Exception Unit × ReplayWorld :=
  let offset := w.consumer.next_offset - 1
  match env.write_error w.tick with
  | some e => (.error e, { w with log := w.log ++ [.attempted offset false], tick := w.tick + 1 })
  | none => (.ok (), { w with
      pg := w.pg.batch_insert_trip_points [event]
      written := w.written ++ [offset]
      log := w.log ++ [.attempted offset true]
      tick := w.tick + 1 })

/-- The meaning of the calls. -/
def handler : Handler ReplayCall ReplayWorld :=
  ⟨fun c w =>
    match c with
    | .poll => w.poll env
    | .commit msg => ((), w.commit msg)
    | .write_trip_point event => w.write_trip_point env event
    | .sleep_for _ => ((), w)⟩

/-- A decodable message is at the offset. -/
def Decodable (offset : ℕ) : Prop :=
  ∃ message event, env.topic[offset]? = some message ∧
    decode_location_payload message.payload = .ok event

/-- Nothing is skipped: every decodable message below the committed offset has been written, and
none is committed while an earlier one waits for another attempt. -/
structure Unskipped (w : ReplayWorld) : Prop where
  written : ∀ offset < w.consumer.committed_offset, Decodable env offset → offset ∈ w.written
  retried : Retried w.log

/-- The fate of the message that a turn gets, if it gets one: it is settled if it does not decode or if
one of the attempts to write it goes through. -/
def replay_fates (policy : DLQReplayPolicy) (w : ReplayWorld) : List Fate :=
  match (w.poll env).1 with
  | none => []
  | some msg =>
    match decode_location_payload msg.payload with
    | .error _ => [.settled]
    | .ok _ =>
      if (List.range (DLQReplayWorker.bounded_attempts policy.max_write_attempts)).any fun i =>
          (env.write_error (w.tick + 1 + i)).isNone then [.settled]
      else [.left]

/-- The offsets, the written messages and the log follow the fates of the messages. -/
structure Tracks (before : List Fate) (w : ReplayWorld) : Prop where
  follows : Follows (Decodable env) before w.consumer.next_offset w.consumer.committed_offset w.written
  failed_iff : ∀ offset, last_attempt w.log offset = some false ↔ before[offset]? = some .left
  retried_iff : Retried w.log ↔ Orderly before

variable {env} {before : List Fate} {w : ReplayWorld}

/-- At the start nothing has happened. -/
theorem Tracks.start : Tracks env [] {} where
  follows := .start
  failed_iff offset := iff_of_false nofun (by simp)
  retried_iff := iff_of_true (fun n m h => by simp at h) List.Pairwise.nil

/-- A state that tracks orderly fates has skipped nothing, and the other way round. -/
theorem Tracks.unskipped_iff (h : Tracks env before w) : Unskipped env w ↔ Orderly before := by
  constructor
  · intro hunskipped
    exact h.follows.covered_iff.mp hunskipped.written
  · intro horderly
    exact ⟨h.follows.covered_iff.mpr horderly, h.retried_iff.mpr horderly⟩

/-- The state after the message at the next offset has been polled and attempted with these answers. -/
structure Attempting (w : ReplayWorld) (answers : List Bool) (t : ReplayWorld) : Prop where
  consumer : t.consumer = { w.consumer with next_offset := w.consumer.next_offset + 1 }
  written : t.written =
    if answers.getLast? = some true then w.written ++ [w.consumer.next_offset] else w.written
  log : t.log = w.log ++ answers.map (.attempted w.consumer.next_offset)

/-- While a message is attempted, nothing is skipped that was not before. -/
theorem Attempting.unskipped {t : ReplayWorld} {answers : List Bool} (h : Attempting w answers t)
    (hw : Unskipped env w) : Unskipped env t where
  written offset hlt hdecodable := by
    rw [h.consumer] at hlt
    have hbefore := hw.written offset hlt hdecodable
    rw [h.written]
    split
    · exact List.mem_append_left _ hbefore
    · exact hbefore
  retried := by
    rw [h.log]
    exact (retried_attempts _ _).mpr hw.retried

/-- One more attempt fails if an exception is due, and goes through otherwise. -/
theorem Attempting.write {t : ReplayWorld} {answers : List Bool} (h : Attempting w answers t)
    (hanswers : answers.getLast? ≠ some true) (event : LocationEvent) :
    (t.write_trip_point env event).2.tick = t.tick + 1 ∧
      Attempting w (answers ++ [(env.write_error t.tick).isNone]) (t.write_trip_point env event).2 ∧
      ((t.write_trip_point env event).1 = .ok () ∧ env.write_error t.tick = none ∨
        ∃ e, (t.write_trip_point env event).1 = .error e ∧ env.write_error t.tick = some e) := by
  have hoffset : t.consumer.next_offset - 1 = w.consumer.next_offset := by
    rw [h.consumer]
    rfl
  have hwritten : t.written = w.written := by
    rw [h.written, if_neg hanswers]
  have hlog : ∀ ok, t.log ++ [.attempted w.consumer.next_offset ok] =
      w.log ++ (answers ++ [ok]).map (.attempted w.consumer.next_offset) := by
    intro ok
    rw [h.log, List.map_append, List.append_assoc, List.map_singleton]
  unfold write_trip_point
  rw [hoffset]
  -- Written once at most, as no attempt is made after one that goes through.
  cases env.write_error t.tick with
  | some e =>
    refine ⟨rfl, ⟨h.consumer, ?_, hlog false⟩, .inr ⟨e, rfl, rfl⟩⟩
    rw [Option.isNone_some, List.getLast?_concat, if_neg nofun]
    exact hwritten
  | none =>
    refine ⟨rfl, ⟨h.consumer, ?_, hlog true⟩, .inl ⟨rfl, rfl⟩⟩
    rw [Option.isNone_none, List.getLast?_concat, if_pos rfl, hwritten]

/-- The attempts to write a message: one of them goes through unless an exception is due for each. -/
theorem always_write_attempts (policy : DLQReplayPolicy) (event : LocationEvent) (n : ℕ)
    (backoff_ms : ℤ) (attempts : WriteAttempts) (hattempts : attempts.replayed = false)
    {t : ReplayWorld} {answers : List Bool} (ht : Attempting w answers t)
    (hanswers : answers.getLast? ≠ some true) :
    (DLQReplayWorker.write_attempts policy event (n + 1) backoff_ms attempts).Always (handler env)
      (fun t' => ∃ answers', Attempting w answers' t')
      (fun attempts' t' => ∃ answers', Attempting w answers' t' ∧
        answers'.getLast? = some attempts'.replayed ∧
        attempts'.replayed = (List.range (n + 1)).any fun i => (env.write_error (t.tick + i)).isNone)
      (fun _ _ => False) t := by
  have hrun : ∀ t, (handler env).run (.write_trip_point event) t = t.write_trip_point env event :=
    fun _ => rfl
  -- On the attempts that are left; the last one fails without a pause after it.
  induction n generalizing backoff_ms attempts t answers with
  | zero =>
    obtain ⟨-, hnext, hwrite⟩ := ht.write hanswers event
    have hany : (List.range (0 + 1)).any (fun i => (env.write_error (t.tick + i)).isNone) =
        (env.write_error t.tick).isNone := by
      simp
    unfold DLQReplayWorker.write_attempts
    rw [Prog.bind_eq, always_bind, Prog.always_perform, hrun, hany]
    refine ⟨⟨_, hnext⟩, ?_⟩
    rcases hwrite with ⟨hok, hnone⟩ | ⟨e, herror, hsome⟩
    · rw [hnone] at hnext ⊢
      rw [hok]
      exact ⟨_, hnext, List.getLast?_concat, rfl⟩
    · rw [hsome] at hnext ⊢
      rw [herror]
      -- The loop ends with the last failure, and the message is deferred.
      dsimp only
      rw [if_pos rfl]
      refine ⟨_, hnext, ?_, hattempts⟩
      rw [List.getLast?_concat, hattempts]
      rfl
  | succ n ih =>
    obtain ⟨htick, hnext, hwrite⟩ := ht.write hanswers event
    have hany : (List.range (n + 1 + 1)).any (fun i => (env.write_error (t.tick + i)).isNone) =
        ((env.write_error t.tick).isNone || (List.range (n + 1)).any fun i =>
          (env.write_error (t.tick + 1 + i)).isNone) := by
      rw [List.range_succ_eq_map, List.any_cons, List.any_map]
      congr 2
      funext i
      rw [Function.comp_apply, Nat.succ_eq_add_one, Nat.add_assoc, Nat.add_comm 1 i]
    unfold DLQReplayWorker.write_attempts
    rw [Prog.bind_eq, always_bind, Prog.always_perform, hrun, hany]
    refine ⟨⟨_, hnext⟩, ?_⟩
    rcases hwrite with ⟨hok, hnone⟩ | ⟨e, herror, hsome⟩
    · rw [hnone] at hnext ⊢
      rw [hok]
      exact ⟨_, hnext, List.getLast?_concat, rfl⟩
    · rw [hsome] at hnext ⊢
      rw [herror]
      dsimp only
      rw [if_neg (Nat.succ_ne_zero n), ← htick, Option.isNone_some, Bool.false_or]
      -- The failure is the last answer, so the rest of the attempts start from there.
      have hfailed : (answers ++ [(some e).isNone]).getLast? ≠ some true := by
        rw [List.getLast?_concat]
        exact nofun
      have hlater : ∀ backoff_ms, _ := fun backoff_ms =>
        ih backoff_ms
          { replayed := attempts.replayed
            retried := attempts.retried + 1
            last_error := some (DLQReplayWorker.error_text e) }
          hattempts hnext hfailed
      -- The pause changes nothing, whether there is one or not.
      split
      · rw [Prog.bind_eq, always_bind, Prog.always_perform]
        exact ⟨⟨_, hnext⟩, hlater _⟩
      · exact hlater _

/-- A message that is deferred. -/
theorem Tracks.defer (h : Tracks env before w) (hdecodable : Decodable env w.consumer.next_offset)
    {t : ReplayWorld} {answers : List Bool} (ht : Attempting w answers t)
    (hanswers : answers.getLast? = some false) : Tracks env (before ++ [.left]) t where
  follows := by
    rw [ht.consumer, ht.written, hanswers, if_neg nofun]
    exact h.follows.leave hdecodable
  failed_iff offset := by
    rw [ht.log, last_attempt_attempts, hanswers, Option.some_or, CommitLog.getElem?_concat,
      ← h.follows.next_eq]
    -- The offset is that of this message, or the fates and attempts before it decide.
    by_cases ho : offset = w.consumer.next_offset
    · rw [if_pos ho.symm, if_pos ho]
      exact iff_of_true rfl rfl
    · rw [if_neg (Ne.symm ho), if_neg ho]
      exact h.failed_iff offset
  retried_iff := by
    rw [ht.log, retried_attempts, h.retried_iff, CommitLog.orderly_left]

/-- A message that is committed: one of the attempts has gone through, or it does not decode. -/
theorem Tracks.settle (h : Tracks env before w) {t : ReplayWorld} {answers : List Bool}
    (ht : Attempting w answers t) (hanswers : answers.getLast? ≠ some false)
    (hwritten : Decodable env w.consumer.next_offset → answers.getLast? = some true)
    (msg : KafkaMessage) (hoffset : msg.offset = w.consumer.next_offset) :
    Tracks env (before ++ [.settled]) (t.commit msg) where
  follows := by
    unfold commit KafkaConsumer.commit
    dsimp only
    rw [ht.consumer, ht.written, hoffset]
    refine h.follows.settle fun offset hdecodable => ?_
    -- This message is written if it had to be, and the others are as they were.
    by_cases ho : offset = w.consumer.next_offset
    · rw [ho] at hdecodable ⊢
      rw [if_pos (hwritten hdecodable), List.mem_append, List.mem_singleton]
    · rw [or_iff_left ho]
      split
      · rw [List.mem_append, List.mem_singleton, or_iff_left ho]
      · exact Iff.rfl
  failed_iff offset := by
    unfold commit
    dsimp only
    rw [last_attempt_committed, ht.log, last_attempt_attempts, CommitLog.getElem?_concat,
      ← h.follows.next_eq]
    by_cases ho : offset = w.consumer.next_offset
    · rw [if_pos ho.symm, if_pos ho, ho]
      refine iff_of_false ?_ nofun
      cases hlast : answers.getLast? with
      | some ok =>
        rw [hlast] at hanswers
        exact hanswers
      | none =>
        rw [Option.none_or, h.failed_iff, h.follows.next_eq, List.getElem?_eq_none (Nat.le_refl _)]
        exact nofun
    · rw [if_neg (Ne.symm ho), if_neg ho]
      exact h.failed_iff offset
  retried_iff := by
    unfold commit
    dsimp only
    rw [ht.log, retried_concat, retried_attempts, h.retried_iff, CommitLog.orderly_settled]
    refine and_congr_right fun _ => ?_
    -- Of the messages before this one, the deferred ones are those whose last attempt failed.
    have hearlier : ∀ offset < w.consumer.next_offset,
        last_attempt (w.log ++ answers.map (.attempted w.consumer.next_offset)) offset = some false ↔
          before[offset]? = some .left := by
      intro offset hlt
      rw [last_attempt_attempts, if_neg (by omega), h.failed_iff]
    constructor
    · intro hnone hleft
      obtain ⟨offset, hfate⟩ := List.mem_iff_getElem?.mp hleft
      have hlt : offset < w.consumer.next_offset := by
        rw [h.follows.next_eq]
        exact (List.getElem?_eq_some_iff.mp hfate).1
      exact hnone msg.offset rfl offset (by omega) ((hearlier offset hlt).mpr hfate)
    · intro hnone m hm offset hlt hfailed
      cases hm
      have hfate := (hearlier offset (by omega)).mp hfailed
      exact hnone (List.mem_iff_getElem?.mpr ⟨offset, hfate⟩)

/-- A turn keeps the offsets, the written messages and the log in step with the fates. -/
theorem keeps_turn (policy : DLQReplayPolicy) :
    Keeps (handler env) (Tracks env) (Unskipped env) (DLQReplayWorker.turn policy)
      (replay_fates env policy) := by
  intro before w hw
  have hstart : ∀ fates, Orderly (before ++ fates) → Unskipped env w := fun fates horderly =>
    hw.unskipped_iff.mpr (orderly_of_append horderly)
  have hrun : (handler env).run .poll w = w.poll env := rfl
  unfold DLQReplayWorker.turn replay_fates
  rw [Prog.bind_eq, always_bind, Prog.always_perform, hrun]
  rcases w.consumer.poll_cases env.dlq_topic (env.topic.take (env.visible w.tick)) with
    ⟨hpoll, -⟩ | ⟨message, msg, hmessage, hpayload, hoffset, hpoll⟩
  · -- Nothing is polled, and the tick has no part in the invariant.
    have hpolled : w.poll env = (none, { w with tick := w.tick + 1 }) := by
      unfold poll
      rw [hpoll]
    rw [hpolled]
    dsimp only
    rw [List.append_nil]
    have hwaiting : Tracks env before { w with tick := w.tick + 1 } :=
      ⟨hw.follows, hw.failed_iff, hw.retried_iff⟩
    exact ⟨hwaiting.unskipped_iff.mpr, hwaiting⟩
  · have hpolled : w.poll env = (some msg, { w with
        consumer := { w.consumer with next_offset := w.consumer.next_offset + 1 }
        tick := w.tick + 1 }) := by
      unfold poll
      rw [hpoll]
    -- What is visible is a prefix of the topic.
    have htopic : env.topic[w.consumer.next_offset]? = some message := by
      rw [List.getElem?_take] at hmessage
      split at hmessage
      · exact hmessage
      · cases hmessage
    rw [hpolled]
    dsimp only
    generalize hw₁ : ({ w with
      consumer := { w.consumer with next_offset := w.consumer.next_offset + 1 }
      tick := w.tick + 1 } : ReplayWorld) = w₁
    have htick : w₁.tick = w.tick + 1 := by rw [← hw₁]
    have hattempting : Attempting w [] w₁ := by
      rw [← hw₁]
      exact ⟨rfl, rfl, (List.append_nil _).symm⟩
    refine ⟨fun horderly => hattempting.unskipped (hstart _ horderly), ?_⟩
    cases hdecode : decode_location_payload msg.payload with
    | error e =>
      dsimp only
      -- A payload that does not decode is committed without an attempt.
      have hunneeded : ¬ Decodable env w.consumer.next_offset := by
        rintro ⟨message', event, hmessage', hevent⟩
        rw [htopic] at hmessage'
        cases hmessage'
        rw [hpayload, hevent] at hdecode
        cases hdecode
      have hsettled : Tracks env (before ++ [.settled]) (w₁.commit msg) :=
        hw.settle hattempting nofun (absurd · hunneeded) msg hoffset
      rw [Prog.bind_eq, always_bind, Prog.always_perform]
      exact ⟨hsettled.unskipped_iff.mpr, hsettled⟩
    | ok event =>
      dsimp only
      have hdecodable : Decodable env w.consumer.next_offset :=
        ⟨message, event, htopic, by rw [← hpayload, hdecode]⟩
      -- There is always a first attempt, whatever the policy says.
      obtain ⟨n, hn⟩ : ∃ n, DLQReplayWorker.bounded_attempts policy.max_write_attempts = n + 1 := by
        refine ⟨DLQReplayWorker.bounded_attempts policy.max_write_attempts - 1, ?_⟩
        unfold DLQReplayWorker.bounded_attempts
        omega
      rw [hn, ← htick, Prog.bind_eq, always_bind]
      refine (always_write_attempts policy event n _ { replayed := false } rfl hattempting
        nofun).imp ?_ ?_ nofun
      · rintro t ⟨answers, ht⟩ horderly
        exact ht.unskipped (hstart _ horderly)
      · rintro attempts t ⟨answers, ht, hlast, hany⟩
        rw [← hany]
        cases hreplayed : attempts.replayed with
        | false =>
          rw [if_pos rfl, if_neg Bool.noConfusion]
          rw [hreplayed] at hlast
          exact hw.defer hdecodable ht hlast
        | true =>
          rw [hreplayed] at hlast
          have hsettled : Tracks env (before ++ [.settled]) (t.commit msg) := by
            refine hw.settle ht ?_ (fun _ => hlast) msg hoffset
            rw [hlast]
            exact nofun
          rw [if_neg (Ne.symm Bool.false_ne_true), if_pos rfl, Prog.bind_eq, always_bind,
            Prog.always_perform]
          exact ⟨hsettled.unskipped_iff.mpr, hsettled⟩

/-- In every run of `run_once` calls, no message is skipped at any time exactly when nothing is settled
once a message is deferred. -/
theorem unskipped_iff_orderly (env : ReplayEnvironment) (policy : DLQReplayPolicy)
    (calls : List ℤ) :
    (∀ w ∈ visits (handler env) (DLQReplayWorker.run_once policy) calls {}, Unskipped env w) ↔
      Orderly (run_fates (handler env) (DLQReplayWorker.run_once policy)
        (fun max_messages => if max_messages ≤ 0 then fun _ => [] else
          batch_fates (handler env) (DLQReplayWorker.turn policy) (replay_fates env policy)
            max_messages.toNat) calls {}) := by
  have hcovered : ∀ before w, Tracks env before w → (Unskipped env w ↔ Orderly before) :=
    fun _ _ => Tracks.unskipped_iff
  refine covered_iff_orderly hcovered (fun max_messages => ?_) calls [] {} Tracks.start
  unfold DLQReplayWorker.run_once
  by_cases hskip : max_messages ≤ 0
  · rw [if_pos hskip, if_pos hskip]
    intro before w hw
    rw [List.append_nil]
    exact hw
  · rw [if_neg hskip, if_neg hskip]
    exact (keeps_turn policy).untilStop _ _ _

/-- Two messages, where the database fails for the attempts on the first. -/
def failing_first : ReplayEnvironment where
  topic := [⟨"d", "d,1,1,1,1,1", 0⟩, ⟨"d", "d,2,1,1,1,1", 0⟩]
  visible _ := 2
  write_error tick := if tick ≤ 3 then some (.std "connection lost") else none

/-- The second call, which writes the second message and commits it. -/
def failing_first_run : Run ReplayWorld Exception DLQReplayResult :=
  (DLQReplayWorker.run_once {} 1).exec (handler failing_first)
    ((DLQReplayWorker.run_once {} 1).exec (handler failing_first) {}).final

/-- The first message is attempted three times and deferred; the second one is committed, and so the
first one is committed too, without having been written. -/
theorem failing_first_skipped :
    ¬ ∀ w ∈ visits (handler failing_first) (DLQReplayWorker.run_once {}) [1, 1] {},
      Unskipped failing_first w := by
  intro hunskipped
  have hfinal : failing_first_run.final ∈
      visits (handler failing_first) (DLQReplayWorker.run_once {}) [1, 1] {} :=
    List.mem_append_right _ (List.mem_append_right _ (List.mem_singleton.mpr rfl))
  have hcommitted : 0 < failing_first_run.final.consumer.committed_offset := by
    decide +kernel
  have hdecodable : Decodable failing_first 0 :=
    ⟨_, { device_id := "d", seq := 1, timestamp_ms := 1, server_recv_ms := 1, lat := .finite 1
          lon := .finite 1 }, rfl, by decide +kernel⟩
  have hwritten : 0 ∉ failing_first_run.final.written := by
    decide +kernel
  exact hwritten ((hunskipped _ hfinal).written 0 hcommitted hdecodable)

end ReplayWorld

end SignalRoute
