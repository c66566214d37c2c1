import SignalRoute.Processor.Loop
import SignalRoute.Store.CommitLog

/-!
# What the history writer conserves

`HistoryWriter` of `src/processor/history_writer.cpp` on its own, where the insertion of a batch and
each production of a dead-letter message may fail with any exception. It is the history writer of
the processing loop, whose producer does not fail (`hoist_flush`).

A flush takes the batch out of the buffer before anything is written, so what it does not write is
gone. It writes the whole batch, or the events up to the first one whose production fails, or
nothing if the insertion fails with an exception that is not standard; `undelivered` is the rest
(`always_flush`). Every buffered event is therefore inserted, produced or still in the buffer
exactly as long as no flush loses any (`conserved_iff_lossless`).
-/

namespace SignalRoute

open Interaction
open Interaction.Prog (perform ofExcept forEach always_bind always_tryCatch)

/-- The calls of the history writer. -/
inductive HistoryCall : Type → Type where
  | push (event : LocationEvent) : HistoryCall Unit
  | take : HistoryCall (List LocationEvent)
  | insert (batch : List LocationEvent) : HistoryCall (Except Exception Unit)
  | produce (event : LocationEvent) : HistoryCall (Except Exception Unit)

/-- A program of the history writer. -/
abbrev HistoryProgram (α : Type) : Type 1 := Prog HistoryCall Exception α

namespace HistoryProgram

/-- `buffer`. -/
def buffer (event : LocationEvent) : HistoryProgram Unit := perform (.push event)

/-- The body of the `try` in `flush`. -/
def insert_batch (batch : List LocationEvent) : HistoryProgram Unit := do
  let result ← perform (.insert batch)
  ofExcept result

/-- Its handler: the events of a failed batch go to the dead-letter topic. -/
def send_to_dlq (batch : List LocationEvent) : Exception → HistoryProgram Unit
  | .std _ => forEach batch fun event => do
    let result ← perform (.produce event)
    ofExcept result
  | .other => .throw .other

/-- `flush`. -/
def flush : HistoryProgram Unit := do
  let batch ← perform .take
  if batch = [] then
    return
  (insert_batch batch).tryCatch (send_to_dlq batch)

end HistoryProgram

/-- The calls as actions on what the processing loop owns. -/
def HistoryCall.action {G : Type} (env : Environment) :
    ∀ {β : Type}, HistoryCall β → Atomic (World G) β
  | _, .push event => fun w => ((), w.push_history event)
  | _, .take => World.take_history
  | _, .insert batch => World.batch_insert_trip_points env batch
  | _, .produce event => World.produce_dlq event

/-- The loop's history writer buffers as this one does. -/
theorem hoist_buffer {G : Type} (env : Environment) (event : LocationEvent) :
    (HistoryProgram.buffer event).hoist (HistoryCall.action (G := G) env) =
      HistoryWriter.buffer event := rfl

/-- The loop's history writer flushes as this one does. -/
theorem hoist_flush {G : Type} (env : Environment) :
    HistoryProgram.flush.hoist (HistoryCall.action (G := G) env) = HistoryWriter.flush env := by
  have hproduce : ∀ event, (perform (HistoryCall.produce event) >>= ofExcept :
      HistoryProgram Unit).hoist (HistoryCall.action (G := G) env) =
        (Prog.atomically (World.produce_dlq event) >>= ofExcept : Action G Unit) := by
    intro event
    rw [Prog.bind_eq, Prog.hoist_bind]
    simp only [Prog.hoist_ofExcept]
    rfl
  have hsend : ∀ batch e, (HistoryProgram.send_to_dlq batch e).hoist
      (HistoryCall.action (G := G) env) = HistoryWriter.send_to_dlq batch e := by
    intro batch e
    cases e with
    | std what =>
      unfold HistoryProgram.send_to_dlq HistoryWriter.send_to_dlq
      rw [Prog.hoist_forEach]
      simp only [hproduce]
    | other => rfl
  have hinsert : ∀ batch, (HistoryProgram.insert_batch batch).hoist
      (HistoryCall.action (G := G) env) = HistoryWriter.insert_batch env batch := by
    intro batch
    unfold HistoryProgram.insert_batch HistoryWriter.insert_batch
    rw [Prog.bind_eq, Prog.hoist_bind]
    simp only [Prog.hoist_ofExcept]
    rfl
  unfold HistoryProgram.flush HistoryWriter.flush
  rw [Prog.bind_eq, Prog.hoist_bind, Prog.bind_eq]
  congr 1
  funext batch
  split
  · rfl
  · rw [Prog.hoist_tryCatch, hinsert]
    simp only [hsend]

/-- What a run of the history writer meets, by tick: the exceptions of the database and of the
producer. -/
structure HistoryEnvironment where
  insert_error : ℕ → Option Exception
  produce_error : ℕ → Option Exception

/-- The history writer with the stores it writes to. The events that have been buffered, those of
the batches that have been inserted, and those that have been produced to the dead-letter topic are
history variables. -/
structure HistoryWorld where
  tick : ℕ := 0
  buffer : List LocationEvent := []
  pg : PostgresClient := {}
  dead_letters : List ProducedMessage := []
  buffered : List LocationEvent := []
  inserted : List LocationEvent := []
  produced : List LocationEvent := []

namespace HistoryWorld

variable (env : HistoryEnvironment)

/-- `buffer_.push_back`. -/
def push (event : LocationEvent) (w : HistoryWorld) : HistoryWorld :=
  { w with buffer := w.buffer ++ [event], buffered := w.buffered ++ [event] }

/-- `pg_.batch_insert_trip_points`: all of the batch or nothing. -/
def insert (batch : List LocationEvent) (w : HistoryWorld) : Except Exception Unit × HistoryWorld :=
  match env.insert_error w.tick with
  | some e => (.error e, { w with tick := w.tick + 1 })
  | none => (.ok (), { w with
      pg := w.pg.batch_insert_trip_points batch
      inserted := w.inserted ++ batch
      tick := w.tick + 1 })

/-- `dlq_.produce`. -/
def produce (event : LocationEvent) (w : HistoryWorld) : Except Exception Unit × HistoryWorld :=
  match env.produce_error w.tick with
  | some e => (.error e, { w with tick := w.tick + 1 })
  | none =>
    let message := dlq_message event
    let (result, dead_letters) :=
      SignalRoute.produce message.topic message.key message.payload w.dead_letters
    (result, { w with dead_letters, produced := w.produced ++ [event], tick := w.tick + 1 })

/-- The meaning of the calls. -/
def handler : Handler HistoryCall HistoryWorld :=
  ⟨fun c w =>
    match c with
    | .push event => ((), w.push event)
    | .take => (w.buffer, { w with buffer := [] })
    | .insert batch => w.insert env batch
    | .produce event => w.produce env event⟩

/-- Nothing that has been buffered is lost, and nothing is doubled. -/
def Conserved (w : HistoryWorld) : Prop :=
  w.buffered.Perm (w.inserted ++ w.produced ++ w.buffer)

instance (w : HistoryWorld) : Decidable (Conserved w) :=
  inferInstanceAs (Decidable (w.buffered.Perm (w.inserted ++ w.produced ++ w.buffer)))

/-- The stores hold what the history variables say: the trip points are those of the inserted events,
and the dead letters are the messages of the produced ones. -/
structure Recorded (w : HistoryWorld) : Prop where
  pg : w.pg = ({} : PostgresClient).batch_insert_trip_points w.inserted
  dead_letters : w.dead_letters = w.produced.map dlq_message

/-- The events of a batch from the first one on whose production fails, when the producer is at
tick `n`. -/
def undelivered : ℕ → List LocationEvent → List LocationEvent
  | _, [] => []
  | n, event :: rest =>
    if (env.produce_error n).isSome then event :: rest else undelivered (n + 1) rest

/-- What a flush loses. -/
def lost_by_flush (w : HistoryWorld) : List LocationEvent :=
  match env.insert_error w.tick with
  | none => []
  | some .other => w.buffer
  | some (.std _) => undelivered env (w.tick + 1) w.buffer

/-- A flush loses events: there are any, and the insertion fails, with an exception that the writer
does not catch or with a failure to produce one of the events after it. -/
def Lossy (w : HistoryWorld) : Prop :=
  w.buffer ≠ [] ∧ ∃ e, env.insert_error w.tick = some e ∧
    (e = .other ∨ ∃ i < w.buffer.length, env.produce_error (w.tick + 1 + i) ≠ none)

end HistoryWorld

/-- The operations of the history writer that its callers use. -/
inductive HistoryOperation where
  | buffer (event : LocationEvent)
  | flush

/-- The program of an operation. -/
def HistoryOperation.program : HistoryOperation → HistoryProgram Unit
  | .buffer event => HistoryProgram.buffer event
  | .flush => HistoryProgram.flush

namespace HistoryWorld

variable (env : HistoryEnvironment)

/-- The writer after an operation, whether it returns or throws. -/
def step (w : HistoryWorld) (operation : HistoryOperation) : HistoryWorld :=
  (operation.program.exec (handler env) w).final

/-- The writer after some operations. -/
def after (operations : List HistoryOperation) : HistoryWorld := operations.foldl (step env) {}

/-- No flush of a run loses events. -/
def Lossless (operations : List HistoryOperation) : Prop :=
  ∀ n, operations[n]? = some .flush → ¬ Lossy env (after env (operations.take n))

variable {env} {w : HistoryWorld}

/-- Everything is delivered unless a production fails. -/
theorem undelivered_eq_nil_iff (n : ℕ) (batch : List LocationEvent) :
    undelivered env n batch = [] ↔ ∀ i < batch.length, env.produce_error (n + i) = none := by
  induction batch generalizing n with
  | nil => exact iff_of_true rfl fun i hi => absurd hi (Nat.not_lt_zero i)
  | cons event rest ih =>
    have hsplit : (∀ i < (event :: rest).length, env.produce_error (n + i) = none) ↔
        env.produce_error n = none ∧ ∀ i < rest.length, env.produce_error (n + 1 + i) = none := by
      rw [List.length_cons, Nat.forall_lt_succ_left']
      simp only [Nat.add_zero, Nat.add_assoc, Nat.add_comm 1]
    unfold undelivered
    rw [hsplit]
    cases env.produce_error n with
    | none =>
      rw [Option.isSome_none, if_neg Bool.false_ne_true, ih]
      exact (and_iff_right rfl).symm
    | some e =>
      rw [Option.isSome_some, if_pos rfl]
      exact iff_of_false (List.cons_ne_nil _ _) nofun

/-- A flush loses something exactly when it is lossy. -/
theorem lost_by_flush_eq_nil_iff : lost_by_flush env w = [] ↔ ¬ Lossy env w := by
  unfold lost_by_flush Lossy
  cases env.insert_error w.tick with
  | none => simp
  | some e =>
    cases e with
    | other => simp
    | std what =>
      rw [undelivered_eq_nil_iff]
      constructor
      · rintro hall ⟨-, e, he, rfl | ⟨i, hi, hfails⟩⟩
        · cases he
        · exact hfails (hall i hi)
      · intro hnone i hi
        by_contra hfails
        have hne : w.buffer ≠ [] := by
          intro hnil
          rw [hnil] at hi
          exact absurd hi (Nat.not_lt_zero i)
        exact hnone ⟨hne, _, rfl, .inr ⟨i, hi, hfails⟩⟩

/-- A batch has been produced up to the first event whose production fails, and nothing else has
happened. -/
structure Delivers (env : HistoryEnvironment) (w : HistoryWorld) (batch : List LocationEvent)
    (t : HistoryWorld) : Prop where
  recorded : Recorded t
  buffer : t.buffer = w.buffer
  buffered : t.buffered = w.buffered
  inserted : t.inserted = w.inserted
  produced : ∃ delivered, t.produced = w.produced ++ delivered ∧
    delivered ++ undelivered env w.tick batch = batch

/-- Sending a batch to the dead-letter topic, whether it returns or throws. -/
theorem always_send_to_dlq (what : String) (batch : List LocationEvent) (hw : Recorded w) :
    (HistoryProgram.send_to_dlq batch (.std what)).Always (handler env) (fun _ => True)
      (fun _ => Delivers env w batch) (fun _ => Delivers env w batch) w := by
  have hrun : ∀ event (t : HistoryWorld),
      (handler env).run (.produce event) t = t.produce env event := fun _ _ => rfl
  -- The loop over the batch stops at the first exception of the producer.
  unfold HistoryProgram.send_to_dlq
  induction batch generalizing w with
  | nil => exact ⟨hw, rfl, rfl, rfl, [], (List.append_nil _).symm, rfl⟩
  | cons event rest ih =>
    rw [forEach, always_bind, Prog.bind_eq, always_bind, Prog.always_perform, hrun]
    refine ⟨trivial, ?_⟩
    cases herror : env.produce_error w.tick with
    | some e =>
      -- Neither this event nor any after it is produced.
      have hproduce : w.produce env event = (.error e, { w with tick := w.tick + 1 }) := by
        unfold produce
        rw [herror]
      have hundelivered : undelivered env w.tick (event :: rest) = event :: rest := by
        rw [undelivered, herror, Option.isSome_some, if_pos rfl]
      rw [hproduce]
      exact ⟨⟨hw.pg, hw.dead_letters⟩, rfl, rfl, rfl, [], (List.append_nil _).symm, hundelivered⟩
    | none =>
      -- The event is in the topic, and the rest of the batch goes on one tick later.
      have hproduce : w.produce env event = (.ok (), { w with
          dead_letters := w.dead_letters ++ [dlq_message event]
          produced := w.produced ++ [event]
          tick := w.tick + 1 }) := by
        unfold produce
        rw [herror]
        rfl
      have hundelivered : undelivered env w.tick (event :: rest) =
          undelivered env (w.tick + 1) rest := by
        rw [undelivered, herror, Option.isSome_none, if_neg Bool.false_ne_true]
      have hproduced : Recorded { w with
          dead_letters := w.dead_letters ++ [dlq_message event]
          produced := w.produced ++ [event]
          tick := w.tick + 1 } := by
        refine ⟨hw.pg, ?_⟩
        dsimp only
        rw [hw.dead_letters, List.map_append, List.map_singleton]
      have hcons : ∀ t, Delivers env { w with
          dead_letters := w.dead_letters ++ [dlq_message event]
          produced := w.produced ++ [event]
          tick := w.tick + 1 } rest t → Delivers env w (event :: rest) t := by
        rintro t ⟨hrecorded, hbuffer, hbuffered, hinserted, delivered, hmore, hsplit⟩
        refine ⟨hrecorded, hbuffer, hbuffered, hinserted, event :: delivered, ?_, ?_⟩
        · rw [hmore, List.append_assoc, List.singleton_append]
        · rw [hundelivered, List.cons_append, hsplit]
      rw [hproduce]
      exact (ih hproduced).imp (fun _ => id) (fun _ => hcons) fun _ => hcons

/-- A flush, whether it returns or throws: the buffer is empty, and of its events those are neither
inserted nor produced that the flush loses. -/
theorem always_flush (hw : Recorded w) :
    let flushes := fun t : HistoryWorld => Recorded t ∧ t.buffer = [] ∧ t.buffered = w.buffered ∧
      ∃ inserted delivered, t.inserted = w.inserted ++ inserted ∧
        t.produced = w.produced ++ delivered ∧
        inserted ++ delivered ++ lost_by_flush env w = w.buffer
    HistoryProgram.flush.Always (handler env) (fun _ => True) (fun _ => flushes)
      (fun _ => flushes) w := by
  intro flushes
  have htake : (handler env).run .take w = (w.buffer, { w with buffer := [] }) := rfl
  have hinsert : ∀ batch (t : HistoryWorld),
      (handler env).run (.insert batch) t = t.insert env batch := fun _ _ => rfl
  unfold HistoryProgram.flush
  rw [Prog.bind_eq, always_bind, Prog.always_perform, htake]
  refine ⟨trivial, ?_⟩
  -- The buffer is swapped out first, so it is empty however the flush ends.
  by_cases hempty : w.buffer = []
  · have hnone : lost_by_flush env w = [] := lost_by_flush_eq_nil_iff.mpr fun h => h.1 hempty
    rw [if_pos hempty]
    refine ⟨⟨hw.pg, hw.dead_letters⟩, rfl, rfl, [], [], ?_, ?_, ?_⟩
    · exact (List.append_nil _).symm
    · exact (List.append_nil _).symm
    · rw [hnone, hempty]
      rfl
  rw [if_neg hempty]
  unfold HistoryProgram.insert_batch
  rw [always_tryCatch, Prog.bind_eq, always_bind, Prog.always_perform, hinsert]
  refine ⟨trivial, ?_⟩
  cases herror : env.insert_error w.tick with
  | none =>
    -- The whole batch is inserted, and nothing goes to the topic.
    have hinserted : ({ w with buffer := [] } : HistoryWorld).insert env w.buffer = (.ok (), { w with
        buffer := []
        pg := w.pg.batch_insert_trip_points w.buffer
        inserted := w.inserted ++ w.buffer
        tick := w.tick + 1 }) := by
      unfold insert
      dsimp only
      rw [herror]
    have hlost : lost_by_flush env w = [] := by
      unfold lost_by_flush
      rw [herror]
    rw [hinserted]
    refine ⟨⟨?_, hw.dead_letters⟩, rfl, rfl, w.buffer, [], rfl, (List.append_nil _).symm, ?_⟩
    · dsimp only
      rw [hw.pg]
      unfold PostgresClient.batch_insert_trip_points
      rw [List.foldl_append]
    · rw [hlost, List.append_nil, List.append_nil]
  | some e =>
    have hfailed : ({ w with buffer := [] } : HistoryWorld).insert env w.buffer =
        (.error e, { w with buffer := [], tick := w.tick + 1 }) := by
      unfold insert
      dsimp only
      rw [herror]
    rw [hfailed]
    cases e with
    | other =>
      -- An exception that is not standard passes by the handler, and the batch is gone.
      have hlost : lost_by_flush env w = w.buffer := by
        unfold lost_by_flush
        rw [herror]
      refine ⟨⟨hw.pg, hw.dead_letters⟩, rfl, rfl, [], [], ?_, ?_, hlost⟩
      · exact (List.append_nil _).symm
      · exact (List.append_nil _).symm
    | std what =>
      -- A standard exception sends the batch to the topic, up to where the producer fails.
      have hlost : lost_by_flush env w = undelivered env (w.tick + 1) w.buffer := by
        unfold lost_by_flush
        rw [herror]
      have hflushes : ∀ t, Delivers env { w with buffer := [], tick := w.tick + 1 } w.buffer t →
          flushes t := by
        rintro t ⟨hrecorded, hbuffer, hbuffered, hinserted, delivered, hproduced, hsplit⟩
        refine ⟨hrecorded, hbuffer, hbuffered, [], delivered, ?_, hproduced, ?_⟩
        · rw [hinserted, List.append_nil]
        · rw [hlost, List.nil_append, hsplit]
      have hstart : Recorded { w with buffer := [], tick := w.tick + 1 } :=
        ⟨hw.pg, hw.dead_letters⟩
      exact (always_send_to_dlq what w.buffer hstart).imp (fun _ => id) (fun _ => hflushes)
        fun _ => hflushes

/-- An operation records what it does, and adds to the events that are lost those that it loses. -/
theorem accounted_step (env : HistoryEnvironment) (operation : HistoryOperation) (hw : Recorded w)
    {lost : List LocationEvent}
    (hlost : w.buffered.Perm (w.inserted ++ w.produced ++ w.buffer ++ lost)) :
    let t := w.step env operation
    Recorded t ∧ ∃ more, t.buffered.Perm (t.inserted ++ t.produced ++ t.buffer ++ (lost ++ more)) ∧
      (more = [] ↔ (operation = .flush → ¬ Lossy env w)) := by
  intro t
  -- Both operations are counted event by event.
  cases operation with
  | buffer event =>
    have ht : t = w.push event := rfl
    rw [ht]
    refine ⟨⟨hw.pg, hw.dead_letters⟩, [], ?_, iff_of_true rfl nofun⟩
    unfold push
    rw [List.perm_iff_count] at hlost ⊢
    intro e
    have hcount := hlost e
    simp only [List.count_append, List.append_nil] at hcount ⊢
    omega
  | flush =>
    have ht : t = (HistoryProgram.flush.exec (handler env) w).final := rfl
    obtain ⟨hrecorded, hbuffer, hbuffered, inserted, delivered, hinserted, hproduced, hsplit⟩ :=
      (always_flush hw).final
    rw [← ht] at hrecorded hbuffer hbuffered hinserted hproduced
    refine ⟨hrecorded, lost_by_flush env w, ?_, ?_⟩
    · rw [hbuffer, hbuffered, hinserted, hproduced, List.append_nil]
      rw [← hsplit] at hlost
      rw [List.perm_iff_count] at hlost ⊢
      intro e
      have hcount := hlost e
      simp only [List.count_append] at hcount ⊢
      omega
    · rw [lost_by_flush_eq_nil_iff]
      exact ⟨fun h _ => h, fun h => h rfl⟩

/-- After every run, the buffered events are accounted for but for some lost ones, and there are none
of those exactly when no flush has lost any. -/
theorem accounted (env : HistoryEnvironment) (operations : List HistoryOperation) :
    Recorded (after env operations) ∧ ∃ lost,
      (after env operations).buffered.Perm ((after env operations).inserted ++
        (after env operations).produced ++ (after env operations).buffer ++ lost) ∧
      (lost = [] ↔ Lossless env operations) := by
  -- The induction is on the last operation, the one that `accounted_step` is about.
  induction operations using List.reverseRecOn with
  | nil =>
    refine ⟨⟨rfl, rfl⟩, [], List.Perm.refl _, iff_of_true rfl fun n hn => ?_⟩
    cases hn
  | append_singleton operations operation ih =>
    obtain ⟨hrecorded, lost, hlost, hlossless⟩ := ih
    have hafter : after env (operations ++ [operation]) =
        (after env operations).step env operation := by
      unfold after
      rw [List.foldl_append]
      rfl
    -- A longer run is lossless if the shorter one is and the last flush loses nothing.
    have hconcat : Lossless env (operations ++ [operation]) ↔
        Lossless env operations ∧ (operation = .flush → ¬ Lossy env (after env operations)) := by
      have hentry := CommitLog.forall_entry_concat (fun before operation =>
        operation = .flush → ¬ Lossy env (after env before)) operations operation
      have hforall : ∀ operations : List HistoryOperation, Lossless env operations ↔
          ∀ n operation, operations[n]? = some operation → operation = .flush →
            ¬ Lossy env (after env (operations.take n)) := by
        intro operations
        constructor
        · rintro hall n _ hn rfl
          exact hall n hn
        · intro hall n hn
          exact hall n _ hn rfl
      rw [hforall, hforall]
      exact hentry
    obtain ⟨hrecorded', more, hmore, hiff⟩ := accounted_step env operation hrecorded hlost
    rw [hafter, hconcat, ← hlossless, ← hiff]
    refine ⟨hrecorded', lost ++ more, hmore, List.append_eq_nil_iff⟩

/-- For every sequence of operations and every pattern of failures: after each operation every event is
inserted, produced or still in the buffer, each once, exactly when no flush loses events. -/
theorem conserved_iff_lossless (env : HistoryEnvironment) (operations : List HistoryOperation) :
    (∀ n, Conserved (after env (operations.take n))) ↔ Lossless env operations := by
  have hconserved : ∀ operations : List HistoryOperation,
      Conserved (after env operations) ↔ Lossless env operations := by
    intro operations
    obtain ⟨-, lost, hlost, hlossless⟩ := accounted env operations
    rw [← hlossless]
    unfold Conserved
    constructor
    · intro hperm
      have hlength := hperm.length_eq
      rw [hlost.length_eq, List.length_append] at hlength
      exact List.eq_nil_of_length_eq_zero (by omega)
    · rintro rfl
      rwa [List.append_nil] at hlost
  constructor
  · intro hall
    have hwhole := hall operations.length
    rw [List.take_length] at hwhole
    exact (hconserved operations).mp hwhole
  · intro hlossless n
    refine (hconserved _).mpr fun m hm => ?_
    rw [List.getElem?_take] at hm
    split at hm
    · rename_i hlt
      rw [List.take_take, min_eq_left (Nat.le_of_lt hlt)]
      exact hlossless m hm
    · cases hm

/-- A failing database and a producer that fails at the second event. -/
def failing_producer : HistoryEnvironment where
  insert_error _ := some (.std "connection lost")
  produce_error tick := if tick = 2 then some (.std "Kafka produce failed") else none

/-- Of a batch of three events, only the first one is produced, and nothing is left in the buffer. -/
theorem failing_producer_not_conserved :
    ¬ ∀ n, Conserved (after failing_producer ([.buffer { device_id := "a", seq := 1 },
      .buffer { device_id := "b", seq := 1 }, .buffer { device_id := "c", seq := 1 },
      .flush].take n)) := by
  intro hall
  exact absurd (hall 4) (by decide +kernel)

end HistoryWorld

end SignalRoute
