import SignalRoute.Interaction.Pool
import SignalRoute.Processor.Accounting

/-!
# Concurrent state writers

`write_with_result` asks the store for the previous state and then makes its compare-and-set, and
each is a critical section of its own. Writers that share a store are a pool of such pairs of calls.
Between the two calls of a writer, another can have its event of the same device accepted; the first
is then accepted with the cell of a state that is no longer the previous one
(`overtaken_writer_breaks_chain`), and the geofence evaluation of its event misses the fences of the
cell that the device really left.

Where no event is accepted while a later one of its device waits for its compare-and-set (`Alone`),
the accepted outcomes of each device form a chain: the previous cell of each is the cell of the one
before (`previous_cells_chain`).
-/

namespace SignalRoute

open Interaction
open Interaction.Prog (perform ofExcept)

/-- The calls of the store that a state writer makes. -/
inductive DeviceStateCall : Type → Type where
  | get_device_state (device_id : String) : DeviceStateCall (Option DeviceState)
  | update_device_state_cas (device_id : String) (state : DeviceState) : DeviceStateCall Bool

/-- What a call does to the store. -/
def DeviceStateCall.run {β : Type} : DeviceStateCall β → RedisClient → β × RedisClient
  | .get_device_state device_id, redis => (redis.get_device_state device_id, redis)
  | .update_device_state_cas device_id state, redis => redis.update_device_state_cas device_id state

/-- The store as the handler of the calls. -/
def DeviceStateCall.handler : Handler DeviceStateCall RedisClient := ⟨DeviceStateCall.run⟩

/-- `write_with_result`, call by call, with the system clock at `now_ms`. -/
def StateWriter.write_program (h3 : H3Index) (event : LocationEvent) (now_ms : ℤ) :
    Prog DeviceStateCall Exception StateWriteOutcome := do
  let previous ← perform (.get_device_state event.device_id)
  let h3_cell ← ofExcept (h3.lat_lng_to_cell event.lat event.lon)
  let state := state_of event h3_cell now_ms
  let accepted ← perform (.update_device_state_cas event.device_id state)
  return ⟨accepted, state, (previous.map DeviceState.h3_cell).getD 0⟩

/-- What follows the question. -/
theorem StateWriter.write_program_eq (h3 : H3Index) (event : LocationEvent) (now_ms : ℤ) :
    write_program h3 event now_ms = .call (.get_device_state event.device_id) fun previous =>
      match h3.lat_lng_to_cell event.lat event.lon with
      | .error e => .throw e
      | .ok h3_cell =>
        .call (.update_device_state_cas event.device_id (state_of event h3_cell now_ms)) fun accepted =>
          .pure ⟨accepted, state_of event h3_cell now_ms, (previous.map DeviceState.h3_cell).getD 0⟩ := by
  refine congrArg (Prog.call (DeviceStateCall.get_device_state event.device_id))
    (funext fun previous => ?_)
  simp only [Prog.pure_bind, Prog.bind_eq]
  cases h3.lat_lng_to_cell event.lat event.lon <;> rfl

/-- Where no other call comes in between, it is the write of a single writer. -/
theorem StateWriter.exec_write_program (h3 : H3Index) (event : LocationEvent) (now_ms : ℤ)
    (redis : RedisClient) :
    let run := (write_program h3 event now_ms).exec DeviceStateCall.handler redis
    (run.result, run.final) = write_with_result h3 event now_ms redis := by
  unfold write_program write_with_result
  simp only [Prog.bind_eq]
  cases h3.lat_lng_to_cell event.lat event.lon <;> rfl

/-- Events to be written to one store, each by a writer of its own, with the time at which the writer
reads the system clock. -/
structure WriterGroup (ι : Type) where
  h3 : H3Index
  event : ι → LocationEvent
  now_ms : ι → ℤ

/-- A pool of writers over a store. -/
abbrev WriterPool (ι : Type) : Type 1 := Pool ι DeviceStateCall RedisClient Exception StateWriteOutcome

namespace WriterPool

variable {ι : Type} (group : WriterGroup ι)

/-- The pool in which every writer is at its start and the store is empty. -/
def start : WriterPool ι :=
  ⟨fun i => StateWriter.write_program group.h3 (group.event i) (group.now_ms i), {}⟩

/-- A writer has returned with an accepted outcome. -/
def Accepted (P : WriterPool ι) (i : ι) (outcome : StateWriteOutcome) : Prop :=
  P.threads i = .pure outcome ∧ outcome.accepted = true

/-- The next call is a compare-and-set. -/
def Compares : Prog DeviceStateCall Exception StateWriteOutcome → Prop
  | .call (.update_device_state_cas _ _) _ => True
  | _ => False

/-- A writer is about to make its compare-and-set. -/
def Comparing (P : WriterPool ι) (i : ι) : Prop := Compares (P.threads i)

/-- The next step of `i` has its event accepted only if no other writer is about to make the
compare-and-set of a later event of the device. -/
def Alone (P : WriterPool ι) (i : ι) : Prop :=
  P.Comparing i →
    SequenceGuard.should_accept P.state (group.event i).device_id (group.event i).seq = true →
    ∀ j, (group.event j).device_id = (group.event i).device_id →
      (group.event i).seq < (group.event j).seq → ¬P.Comparing j

/-- The accepted outcomes of each device, in the order of their sequence numbers, form a chain: the
previous cell of each is the cell of the one before it, and that of the first is 0. -/
structure Chained (accepted : ι → StateWriteOutcome → Prop) : Prop where
  link : ∀ i outcome j before, accepted i outcome → accepted j before →
    (group.event j).device_id = (group.event i).device_id → before.state.seq < outcome.state.seq →
    (∀ k other, accepted k other → (group.event k).device_id = (group.event i).device_id →
      other.state.seq < outcome.state.seq → other.state.seq ≤ before.state.seq) →
    outcome.previous_h3_cell = before.state.h3_cell
  first : ∀ i outcome, accepted i outcome →
    (∀ k other, accepted k other → (group.event k).device_id = (group.event i).device_id →
      ¬other.state.seq < outcome.state.seq) →
    outcome.previous_h3_cell = 0

/-- The cell of the state that the store has for a device, 0 where it has none. -/
def current_cell (redis : RedisClient) (device_id : String) : ℤ :=
  ((redis.get_device_state device_id).map DeviceState.h3_cell).getD 0

/-- Where the writer of an event can be, over a store: before its question, before its
compare-and-set, or at its end. Before a compare-and-set that the store would accept, it has the
cell that the store has. -/
inductive WriteStage (h3 : H3Index) (event : LocationEvent) (now_ms : ℤ) (redis : RedisClient) :
    Prog DeviceStateCall Exception StateWriteOutcome → Prop
  | reading : WriteStage h3 event now_ms redis (StateWriter.write_program h3 event now_ms)
  | comparing (h3_cell previous_h3_cell : ℤ) :
      (SequenceGuard.should_accept redis event.device_id event.seq = true →
        previous_h3_cell = current_cell redis event.device_id) →
      WriteStage h3 event now_ms redis (.call
        (.update_device_state_cas event.device_id (StateWriter.state_of event h3_cell now_ms))
        fun accepted => .pure ⟨accepted, StateWriter.state_of event h3_cell now_ms, previous_h3_cell⟩)
  | returned (accepted : Bool) (h3_cell previous_h3_cell : ℤ) : WriteStage h3 event now_ms redis
      (.pure ⟨accepted, StateWriter.state_of event h3_cell now_ms, previous_h3_cell⟩)
  | thrown (e : Exception) : WriteStage h3 event now_ms redis (.throw e)

/-- What the store has is what was accepted last, and the accepted outcomes form a chain. -/
structure Ordered (accepted : ι → StateWriteOutcome → Prop) (redis : RedisClient) : Prop where
  stored : ∀ device_id state, redis.get_device_state device_id = some state → ∃ j outcome,
    accepted j outcome ∧ (group.event j).device_id = device_id ∧ outcome.state.seq = state.seq ∧
      outcome.state.h3_cell = state.h3_cell
  newest : ∀ j outcome, accepted j outcome → ∃ state,
    redis.get_device_state (group.event j).device_id = some state ∧ outcome.state.seq ≤ state.seq
  distinct : ∀ j outcome k other, accepted j outcome → accepted k other →
    (group.event j).device_id = (group.event k).device_id → outcome.state.seq = other.state.seq →
    outcome = other
  chained : Chained group accepted

/-- A writer that waits for its compare-and-set is where it was over another store that accepts no
more and has the same cell. -/
theorem WriteStage.over {h3 : H3Index} {event : LocationEvent} {now_ms : ℤ} {redis redis' : RedisClient}
    {thread : Prog DeviceStateCall Exception StateWriteOutcome}
    (h : WriteStage h3 event now_ms redis thread)
    (hother : Compares thread →
      SequenceGuard.should_accept redis' event.device_id event.seq = true →
      SequenceGuard.should_accept redis event.device_id event.seq = true ∧
        current_cell redis' event.device_id = current_cell redis event.device_id) :
    WriteStage h3 event now_ms redis' thread := by
  cases h with
  | reading => exact .reading
  | comparing h3_cell previous_h3_cell hprevious =>
    refine .comparing h3_cell previous_h3_cell fun haccepts => ?_
    obtain ⟨hbefore, hcell⟩ := hother trivial haccepts
    exact (hprevious hbefore).trans hcell.symm
  | returned accepted h3_cell previous_h3_cell => exact .returned accepted h3_cell previous_h3_cell
  | thrown e => exact .thrown e

/-- The compare-and-set rejects what the sequence guard does not let through. -/
theorem cas_of_not_should_accept {redis : RedisClient} {d : String} (state : DeviceState)
    (hold : SequenceGuard.should_accept redis d state.seq = false) :
    (redis.update_device_state_cas d state).1 = false := by
  unfold SequenceGuard.should_accept at hold
  cases hcurrent : redis.get_device_state d with
  | none =>
    rw [hcurrent] at hold
    cases hold
  | some current =>
    rw [hcurrent] at hold
    refine Bool.eq_false_iff.mpr fun haccepted => ?_
    have hlt := (redis.update_device_state_cas_fst d state).mp haccepted current hcurrent
    exact of_decide_eq_false hold hlt

/-- The invariant of a pool. -/
structure Sound (P : WriterPool ι) : Prop where
  stage : ∀ i, WriteStage group.h3 (group.event i) (group.now_ms i) P.state (P.threads i)
  ordered : Ordered group P.Accepted P.state

variable {group}

/-- One more outcome is accepted, with the cell that the store had, and the store has its state. -/
theorem Ordered.accept {accepted : ι → StateWriteOutcome → Prop} {redis : RedisClient}
    (h : Ordered group accepted redis) {i : ι} {outcome : StateWriteOutcome}
    (hseq : outcome.state.seq = (group.event i).seq)
    (hnewer : SequenceGuard.should_accept redis (group.event i).device_id (group.event i).seq = true)
    (hprevious : outcome.previous_h3_cell = current_cell redis (group.event i).device_id) :
    Ordered group (fun j other => accepted j other ∨ j = i ∧ other = outcome)
      (redis.update_device_state_cas (group.event i).device_id outcome.state).2 := by
  rw [← hseq] at hnewer
  have hget := redis.lookup_update_device_state_cas (cas_of_should_accept outcome.state hnewer)
  -- What was accepted for the device is older than the event.
  have hlt : ∀ j other, accepted j other → (group.event j).device_id = (group.event i).device_id →
      other.state.seq < outcome.state.seq := by
    intro j other hj hdevice
    obtain ⟨state, hstate, hle⟩ := h.newest j other hj
    rw [hdevice] at hstate
    unfold SequenceGuard.should_accept at hnewer
    rw [hstate] at hnewer
    exact hle.trans_lt (of_decide_eq_true hnewer)
  -- What is stored, what is newest, the sequence numbers, and the two ends of the chain.
  refine ⟨fun d state hstate => ?_, ?_, ?_, ⟨?_, ?_⟩⟩
  · change _ = some state at hstate
    unfold RedisClient.get_device_state at hstate
    rw [hget] at hstate
    by_cases hd : d = (group.event i).device_id
    · rw [if_pos hd] at hstate
      cases hstate
      exact ⟨i, outcome, .inr ⟨rfl, rfl⟩, hd.symm, rfl, rfl⟩
    · rw [if_neg hd] at hstate
      obtain ⟨j, other, hj, hdevice, hother⟩ := h.stored d state hstate
      exact ⟨j, other, .inl hj, hdevice, hother⟩
  · intro j other hj
    unfold RedisClient.get_device_state
    rw [hget]
    by_cases hd : (group.event j).device_id = (group.event i).device_id
    · rw [if_pos hd]
      refine ⟨_, rfl, ?_⟩
      rcases hj with hj | ⟨rfl, rfl⟩
      · exact (hlt j other hj hd).le
      · exact le_rfl
    · rw [if_neg hd]
      rcases hj with hj | ⟨rfl, rfl⟩
      · exact h.newest j other hj
      · exact absurd rfl hd
  · -- Of the new outcome and an older one of the device, the numbers differ.
    rintro j o k other (hj | ⟨rfl, rfl⟩) (hk | ⟨rfl, rfl⟩) hdevice heq
    · exact h.distinct j o k other hj hk hdevice heq
    · exact absurd heq (hlt j o hj hdevice).ne
    · exact absurd heq.symm (hlt k other hk hdevice.symm).ne
    · rfl
  · rintro i' o j before (hi | ⟨rfl, rfl⟩) (hj | ⟨rfl, rfl⟩) hdevice hbefore hmax
    · -- Both are older, and so is all that may stand between them.
      exact h.chained.link i' o j before hi hj hdevice hbefore fun k other hk => hmax k other (.inl hk)
    · exact absurd hbefore (hlt i' o hi hdevice.symm).not_gt
    · -- The outcome before the new one is that of the stored state.
      obtain ⟨state, hstate, hle⟩ := h.newest j before hj
      rw [hdevice] at hstate
      obtain ⟨k, other, hk, hkdevice, hkseq, hkcell⟩ := h.stored _ state hstate
      have hle' := hmax k other (.inl hk) hkdevice (hlt k other hk hkdevice)
      have hsame : before = other :=
        h.distinct j before k other hj hk (hdevice.trans hkdevice.symm) (by omega)
      rw [hprevious, current_cell, hstate, hsame, hkcell]
      rfl
    · exact absurd hbefore (lt_irrefl _)
  · rintro i' o (hi | ⟨rfl, rfl⟩) hnone
    · exact h.chained.first i' o hi fun k other hk => hnone k other (.inl hk)
    · -- Nothing was accepted for the device, so nothing is stored for it.
      rw [hprevious, current_cell]
      cases hstate : redis.get_device_state (group.event i').device_id with
      | none => rfl
      | some state =>
        obtain ⟨k, other, hk, hkdevice, -⟩ := h.stored _ state hstate
        exact absurd (hlt k other hk hkdevice) (hnone k other (.inl hk) hkdevice)

/-- A writer with a call left has not ended. -/
theorem not_finished_of_call {P : WriterPool ι} {i : ι} {β : Type} {c : DeviceStateCall β}
    {k : β → Prog DeviceStateCall Exception StateWriteOutcome} (hcall : P.threads i = .call c k) :
    ¬P.Finished i := by
  rintro (⟨outcome, h⟩ | ⟨e, h⟩) <;> rw [hcall] at h <;> cases h

/-- At the start nothing is stored or accepted. -/
theorem sound_start (group : WriterGroup ι) : Sound group (start group) := by
  have hnone : ∀ i outcome, ¬Accepted (start group) i outcome := by
    rintro i outcome ⟨hthread, -⟩
    change StateWriter.write_program _ _ _ = _ at hthread
    rw [StateWriter.write_program_eq] at hthread
    cases hthread
  refine ⟨fun i => .reading, ⟨fun d state hstate => ?_, fun j o hj => ?_, fun j o _ _ hj => ?_,
    ⟨fun i o _ _ hi => ?_, fun i o hi => ?_⟩⟩⟩
  · cases hstate
  · exact absurd hj (hnone j o)
  · exact absurd hj (hnone j o)
  · exact absurd hi (hnone i o)
  · exact absurd hi (hnone i o)

variable [DecidableEq ι] {P : WriterPool ι}

/-- Which outcomes are accepted after a step of `i`. -/
theorem accepted_update {i : ι} {thread : Prog DeviceStateCall Exception StateWriteOutcome}
    {redis : RedisClient} (hrunning : ¬P.Finished i) (j : ι) (outcome : StateWriteOutcome) :
    Accepted ⟨Function.update P.threads i thread, redis⟩ j outcome ↔
      P.Accepted j outcome ∨ j = i ∧ thread = .pure outcome ∧ outcome.accepted = true := by
  unfold Accepted
  dsimp only
  by_cases hj : j = i
  · subst hj
    rw [Function.update_self]
    constructor
    · rintro ⟨hthread, haccepted⟩
      exact .inr ⟨rfl, hthread, haccepted⟩
    · rintro (⟨hthread, -⟩ | ⟨-, hthread⟩)
      · exact absurd (.inl ⟨outcome, hthread⟩) hrunning
      · exact hthread
  · rw [Function.update_of_ne hj]
    exact ⟨.inl, fun h => h.resolve_right fun h => hj h.1⟩

/-- A step of `i` that leaves the store alone and has nothing accepted. -/
theorem Sound.quiet (hP : Sound group P) {i : ι}
    {thread : Prog DeviceStateCall Exception StateWriteOutcome} (hrunning : ¬P.Finished i)
    (hstage : WriteStage group.h3 (group.event i) (group.now_ms i) P.state thread)
    (hquiet : ∀ outcome, thread = .pure outcome → outcome.accepted = false) :
    Sound group ⟨Function.update P.threads i thread, P.state⟩ := by
  have haccepted : Accepted ⟨Function.update P.threads i thread, P.state⟩ = P.Accepted := by
    funext j outcome
    refine propext ((accepted_update hrunning j outcome).trans ⟨fun h => ?_, .inl⟩)
    rcases h with h | ⟨-, hthread, haccepted⟩
    · exact h
    · rw [hquiet outcome hthread] at haccepted
      cases haccepted
  refine ⟨fun j => ?_, haccepted ▸ hP.ordered⟩
  by_cases hj : j = i
  · subst hj
    simpa using hstage
  · simpa [hj] using hP.stage j

/-- Every step of a writer that is alone keeps the invariant. -/
theorem Sound.step (hP : Sound group P) (i : ι) (halone : Alone group P i) :
    Sound group (P.step DeviceStateCall.handler i) := by
  have hstage := hP.stage i
  generalize hthread : P.threads i = thread at hstage
  cases hstage with
  | returned accepted h3_cell previous_h3_cell =>
    -- A writer that has ended does nothing more.
    rw [Pool.step_of_finished (.inl ⟨_, hthread⟩)]
    exact hP
  | thrown e =>
    rw [Pool.step_of_finished (.inr ⟨e, hthread⟩)]
    exact hP
  | reading =>
    -- The question: the writer goes on with the cell that the store has.
    rw [StateWriter.write_program_eq] at hthread
    have hrunning := not_finished_of_call hthread
    rw [Pool.step_of_call hthread]
    have hsame : DeviceStateCall.handler.run (.get_device_state (group.event i).device_id) P.state =
        (P.state.get_device_state (group.event i).device_id, P.state) := rfl
    rw [hsame]
    dsimp only
    cases group.h3.lat_lng_to_cell (group.event i).lat (group.event i).lon with
    | error e => exact hP.quiet hrunning (.thrown e) fun _ h => by cases h
    | ok h3_cell =>
      exact hP.quiet hrunning (.comparing h3_cell _ fun _ => rfl) fun _ h => by cases h
  | comparing h3_cell previous_h3_cell hprevious =>
    have hrunning := not_finished_of_call hthread
    -- The compare-and-set, which decides whether the event is accepted.
    rw [Pool.step_of_call hthread]
    have hrun : DeviceStateCall.handler.run (.update_device_state_cas (group.event i).device_id
        (StateWriter.state_of (group.event i) h3_cell (group.now_ms i))) P.state =
        P.state.update_device_state_cas (group.event i).device_id
          (StateWriter.state_of (group.event i) h3_cell (group.now_ms i)) := rfl
    rw [hrun]
    have hreturned : ∀ redis accepted, WriteStage group.h3 (group.event i) (group.now_ms i) redis (.pure
        ⟨accepted, StateWriter.state_of (group.event i) h3_cell (group.now_ms i), previous_h3_cell⟩) :=
      fun redis accepted => .returned accepted h3_cell previous_h3_cell
    have hcomparing : P.Comparing i := by
      unfold Comparing
      rw [hthread]
      trivial
    generalize hstate : StateWriter.state_of (group.event i) h3_cell (group.now_ms i) = state at *
    have hseq : state.seq = (group.event i).seq := by
      rw [← hstate]
      rfl
    cases hnewer : SequenceGuard.should_accept P.state (group.event i).device_id (group.event i).seq with
    | false =>
      -- The store has a later state by now, so the writer returns without a change.
      rw [← hseq] at hnewer
      have hrejected := cas_of_not_should_accept state hnewer
      rw [hrejected, P.state.update_device_state_cas_rejected hrejected]
      refine hP.quiet hrunning (hreturned _ false) fun outcome h => ?_
      cases h
      rfl
    | true =>
      have hcas : (P.state.update_device_state_cas (group.event i).device_id state).1 = true :=
        cas_of_should_accept state (by rwa [hseq])
      rw [hcas]
      refine ⟨fun j => ?_, ?_⟩
      · by_cases hj : j = i
        · subst hj
          simpa using hreturned _ true
        · -- Another writer of the device that waits will be rejected, because this one is alone.
          let redis := (P.state.update_device_state_cas (group.event i).device_id state).2
          have hother : WriteStage group.h3 (group.event j) (group.now_ms j) redis (P.threads j) :=
            (hP.stage j).over fun hwaits haccepts => ?_
          · simpa [hj] using hother
          rw [should_accept_cas (by rwa [hseq])] at haccepts
          by_cases hdevice : (group.event j).device_id = (group.event i).device_id
          · rw [if_pos hdevice, hseq] at haccepts
            exact absurd hwaits (halone hcomparing hnewer j hdevice (of_decide_eq_true haccepts))
          · rw [if_neg hdevice] at haccepts
            refine ⟨haccepts, ?_⟩
            unfold current_cell RedisClient.get_device_state
            rw [P.state.lookup_update_device_state_cas hcas, if_neg hdevice]
      · have hordered := hP.ordered.accept hseq hnewer (show StateWriteOutcome.previous_h3_cell
          ⟨true, state, previous_h3_cell⟩ = _ from hprevious hnewer)
        convert hordered using 1
        funext j outcome
        -- The accepted outcomes are those before and the one of this writer.
        refine propext ((accepted_update hrunning j outcome).trans (or_congr_right ?_))
        constructor
        · rintro ⟨rfl, hpure, -⟩
          exact ⟨rfl, (Prog.pure.inj hpure).symm⟩
        · rintro ⟨rfl, rfl⟩
          exact ⟨rfl, rfl, rfl⟩

/-- In every interleaving in which no event is accepted while a later one of its device waits for its
compare-and-set, the accepted outcomes of each device form a chain. -/
theorem previous_cells_chain (group : WriterGroup ι) (P : WriterPool ι)
    (h : Pool.Reaches DeviceStateCall.handler (Alone group) (start group) P) :
    Chained group P.Accepted :=
  (h.invariant (I := Sound group) (sound_start group) fun _ i hI hG => hI.step i hG).ordered.chained

/-- Two writers with events of one device at the equator, the first and the second. -/
def equator_writers : WriterGroup Bool where
  h3 := .default
  event late := { device_id := "d", lat := .finite 0, lon := .finite 0, seq := if late then 2 else 1 }
  now_ms _ := 0

/-- One writer after the other. -/
theorem previous_cells_chain_in_turn : Chained equator_writers
    (Accepted ((start equator_writers).run DeviceStateCall.handler [false, false, true, true])) := by
  refine previous_cells_chain equator_writers _ (Pool.reaches_run ⟨?_, ?_, ?_, ?_, trivial⟩)
  · exact fun h => h.elim
  · intro _ _ j _ hlater hcomparing
    cases j
    · exact absurd hlater (lt_irrefl _)
    · exact hcomparing.elim
  · exact fun h => h.elim
  · intro _ _ j _ hlater hcomparing
    cases j
    · exact hcomparing.elim
    · exact absurd hlater (lt_irrefl _)

/-- The second writer asks before the first is accepted, and is accepted after it. -/
def overtaken : WriterPool Bool :=
  (start equator_writers).run DeviceStateCall.handler [true, false, false, true]

/-- The outcome of a writer of an equator event, with this previous cell. -/
def equator_outcome (late : Bool) (previous_h3_cell : ℤ) : StateWriteOutcome :=
  ⟨true, StateWriter.state_of (equator_writers.event late) 2017617030034767868 0, previous_h3_cell⟩

/-- The second writer is told that the device was in no cell before. -/
theorem overtaken_writer_breaks_chain : ¬ ∀ (group : WriterGroup Bool) (P : WriterPool Bool),
    Pool.Reaches DeviceStateCall.handler (fun _ _ => True) (start group) P →
      Chained group (Accepted P) := by
  intro hall
  have hchained := hall equator_writers overtaken (Pool.reaches_run_true _)
  have houtcomes : ∀ late, (match overtaken.threads late with
      | .pure outcome => decide (outcome = equator_outcome late 0)
      | _ => false) = true := by decide +kernel
  have hreturned : ∀ late, Accepted overtaken late (equator_outcome late 0) := by
    intro late
    have hlate := houtcomes late
    split at hlate
    · rename_i outcome hthread
      exact ⟨hthread.trans (congrArg _ (of_decide_eq_true hlate)), rfl⟩
    · cases hlate
  have hlink := hchained.link true _ false _ (hreturned true) (hreturned false) rfl (by decide) ?_
  · revert hlink
    decide
  · rintro late other ⟨hthread, -⟩ _ hlt
    obtain rfl : equator_outcome late 0 = other := Prog.pure.inj ((hreturned late).1.symm.trans hthread)
    cases late
    · exact le_rfl
    · exact absurd hlt (lt_irrefl _)

end WriterPool

end SignalRoute
