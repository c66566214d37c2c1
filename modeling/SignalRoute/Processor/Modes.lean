import SignalRoute.Processor.Accounting

/-!
# The two modes of the loop

What the loop is for, without its window, buffer, flushes and bus: a `Ledger` of the device states
and the trip points takes one event after the other, and an event that the sequence guard lets
through is written to both. A run that returns, and whose insertions do not fail, is a run of the
ledger over the messages it has polled (`run_refines`), in direct mode and in event-bus mode. The
system clock enters the device states, so it is read as a function of the message.

Two runs over the same messages and with the same clock therefore end with the same stores, whatever
their modes, batch sizes and windows (`event_bus_refines_direct`).
-/

namespace SignalRoute

open Interaction

/-- The stores that the processing loop writes. -/
structure Ledger where
  redis : RedisClient
  pg : PostgresClient

namespace Ledger

variable (h3 : H3Index)

/-- An event at `now_ms`: it is stored if the sequence guard lets it through and it has a cell. -/
def write (now_ms : ℤ) (event : LocationEvent) (ledger : Ledger) : Ledger :=
  match h3.lat_lng_to_cell event.lat event.lon with
  | .error _ => ledger
  | .ok cell =>
    if SequenceGuard.should_accept ledger.redis event.device_id event.seq then
      { redis := (ledger.redis.update_device_state_cas event.device_id
          (StateWriter.state_of event cell now_ms)).2
        pg := ledger.pg.batch_insert_trip_points [event] }
    else ledger

/-- The first `n` messages of a topic, where the clock is at `now_ms i` for the message at offset `i`. -/
def consume (now_ms : ℕ → ℤ) (topic : List BrokerMessage) (ledger : Ledger) : ℕ → Ledger
  | 0 => ledger
  | n + 1 =>
    match event_at topic n with
    | none => ledger.consume now_ms topic n
    | some event => (ledger.consume now_ms topic n).write h3 (now_ms n) event

variable {h3} {now_ms : ℤ} {event : LocationEvent} {ledger : Ledger}

/-- What the guard rejects is not written. -/
theorem write_of_rejected
    (h : SequenceGuard.should_accept ledger.redis event.device_id event.seq = false) :
    ledger.write h3 now_ms event = ledger := by
  unfold write
  rw [h]
  cases h3.lat_lng_to_cell event.lat event.lon <;> rfl

/-- What the guard lets through is written. -/
theorem write_of_accepted {cell : ℤ} (hcell : h3.lat_lng_to_cell event.lat event.lon = .ok cell)
    (h : SequenceGuard.should_accept ledger.redis event.device_id event.seq = true) :
    ledger.write h3 now_ms event =
      ⟨(ledger.redis.update_device_state_cas event.device_id
        (StateWriter.state_of event cell now_ms)).2, ledger.pg.batch_insert_trip_points [event]⟩ := by
  unfold write
  rw [hcell, h]
  rfl

end Ledger

variable {G : Type} {env : Environment} {p : Processor G} {w₀ w t : World G} {now_ms : ℕ → ℤ}

/-- In the run from `w₀`, the clock is at `now_ms i` when the state of the event at offset `i` is
written. -/
def Clocked (env : Environment) (p : Processor G) (w₀ : World G) (now_ms : ℕ → ℤ) : Prop :=
  ∀ k w msg, Heads env (ProcessingLoop.turn env p) (w₀.started env) k w → env.should_stop w.tick = false →
    (w.advance.poll env).1 = some msg → w.advance.write_ms env = now_ms w.consumer.next_offset

/-- The ledger in which the buffer of a world has been written. -/
def World.ledger (w : World G) : Ledger := ⟨w.redis, w.pg.batch_insert_trip_points w.history_buffer⟩

/-- Where no insertion fails, a flush does not change what ends in the database. -/
theorem History.Flushes.inserted_eq {h h' : History} (hflushes : h.Flushes env h')
    (hnone : ∀ tick, env.insert_error tick = none) :
    h'.pg.batch_insert_trip_points h'.buffer = h.pg.batch_insert_trip_points h.buffer := by
  cases hflushes with
  | kept => rfl
  | inserted => rfl
  | failed tick herror => exact absurd (hnone tick) herror

/-- What a flush and a frame leave alone is the ledger. -/
theorem World.Frame.ledger (hframe : w.Frame t) (hflushes : w.history.Flushes env t.history)
    (hnone : ∀ tick, env.insert_error tick = none) : t.ledger = w.ledger := by
  unfold World.ledger
  rw [hframe.redis]
  exact congrArg _ (hflushes.inserted_eq hnone)

/-- A turn that polls a message writes its event to the ledger. -/
theorem Accounts.ledger_turn {start : World G} (h : Accounts env start w)
    (hnone : ∀ tick, env.insert_error tick = none) (hturns : Turns env p w t) {msg : KafkaMessage}
    (hpolled : (w.poll env).1 = some msg) :
    t.ledger = match event_at env.topic w.consumer.next_offset with
      | none => w.ledger
      | some event => w.ledger.write p.h3 (w.write_ms env) event := by
  unfold Turns at hturns
  rw [hpolled] at hturns
  obtain ⟨-, heffect⟩ := hturns
  -- An outcome other than accepted leaves the stores as they are, and the guard rejects the event.
  have hdiscarded : Discards w t → (∀ e, w.outcome env msg ≠ .accepted e) →
      t.ledger = match event_at env.topic w.consumer.next_offset with
        | none => w.ledger
        | some event => w.ledger.write p.h3 (w.write_ms env) event := by
    intro hdiscards hnot
    have hkept : t.ledger = w.ledger := by
      have hpg : t.history.pg.batch_insert_trip_points t.history.buffer = _ :=
        congrArg (fun h : History => h.pg.batch_insert_trip_points h.buffer) hdiscards.history
      unfold World.ledger
      rw [hdiscards.redis]
      exact congrArg _ hpg
    rw [hkept]
    cases hevent : event_at env.topic w.consumer.next_offset with
    | none => rfl
    | some event => exact (Ledger.write_of_rejected (h.rejects hpolled hnot event hevent)).symm
  cases houtcome : w.outcome env msg with
  | malformed =>
    rw [houtcome] at heffect
    exact hdiscarded heffect.1 fun _ => houtcome.trans_ne nofun
  | duplicate event =>
    rw [houtcome] at heffect
    exact hdiscarded heffect.1 fun _ => houtcome.trans_ne nofun
  | stale event =>
    rw [houtcome] at heffect
    exact hdiscarded heffect.1 fun _ => houtcome.trans_ne nofun
  | accepted event =>
    obtain ⟨hrecord, hstart⟩ := (h.outcome_accepted_iff hpolled event).mp houtcome
    have hguard : SequenceGuard.should_accept w.ledger.redis event.device_id event.seq = true :=
      (h.guard_iff _ _).mpr ⟨hstart, hrecord.newer⟩
    rw [houtcome] at heffect
    obtain ⟨cell, hcell, hredis⟩ := heffect.1.redis
    rw [hrecord.decoded]
    dsimp only
    rw [Ledger.write_of_accepted hcell hguard]
    -- The event joins the end of what will be in the history once the buffer is inserted.
    have hpg : t.history.pg.batch_insert_trip_points t.history.buffer =
        w.pg.batch_insert_trip_points (w.history_buffer ++ [event]) :=
      heffect.1.history.inserted_eq hnone
    unfold World.ledger
    rw [hredis]
    refine congrArg _ (hpg.trans ?_)
    unfold PostgresClient.batch_insert_trip_points
    rw [List.foldl_append]

/-- At every head of the loop, the ledger is what the messages so far have made of it. -/
theorem World.Opened.ledger_heads {k : ℕ} (hopened : w₀.Opened)
    (hnone : ∀ tick, env.insert_error tick = none) (hclocked : Clocked env p w₀ now_ms)
    (hheads : Heads env (ProcessingLoop.turn env p) (w₀.started env) k w) :
    w.ledger = w₀.ledger.consume p.h3 now_ms env.topic w.consumer.next_offset := by
  -- Each turn that polls a message consumes it in the ledger.
  induction hheads with
  | start =>
    have hoffset : (w₀.started env).consumer.next_offset = 0 :=
      congrArg KafkaConsumer.next_offset hopened.consumer
    rw [hoffset]
    rfl
  | @turn k w hheads hgo hok ih =>
    have hturns := turns_of_ok hok
    have hnext : _ = w.consumer.next_offset + _ := hturns.next_offset
    rw [hnext]
    cases hpolled : (w.advance.poll env).1 with
    | none =>
      unfold Turns at hturns
      rw [hpolled] at hturns
      exact (hturns.1.ledger hturns.2 hnone).trans ih
    | some msg =>
      have hbooks := (hopened.accounts_heads hheads).advance
      rw [hbooks.ledger_turn hnone hturns hpolled, hclocked k w msg hheads hgo hpolled]
      have ih : w.advance.ledger = _ := ih
      rw [ih]
      rfl

/-- A run that returns and whose insertions do not fail does what the ledger does, in either mode. -/
theorem run_refines {n : ℕ} (hopened : w₀.Opened) (hnone : ∀ tick, env.insert_error tick = none)
    (hclocked : Clocked env p w₀ now_ms)
    (hreturns : ((ProcessingLoop.run env p n).exec .atomic w₀).result = .ok true) :
    let final := ((ProcessingLoop.run env p n).exec .atomic w₀).final
    (⟨final.redis, final.pg⟩ : Ledger) =
        Ledger.consume p.h3 now_ms env.topic ⟨w₀.redis, w₀.pg⟩ final.consumer.next_offset ∧
      final.consumer.committed_offset = final.consumer.next_offset := by
  intro final
  obtain ⟨k, w, hheads, -, hfinal⟩ := exec_run_returns hreturns
  have hfinal : final = _ := hfinal
  obtain ⟨hframe, hflushes, hempty⟩ := exec_flush env w.advance
  rw [← hfinal] at hframe hflushes hempty
  have hw₀ : w₀.ledger = ⟨w₀.redis, w₀.pg⟩ := by
    unfold World.ledger
    rw [hopened.history_buffer]
    rfl
  -- The last flush leaves nothing buffered, so the ledger is what is stored.
  have hledger : final.ledger = ⟨final.redis, final.pg⟩ := by
    unfold World.ledger
    rw [hempty]
    rfl
  have hoffset : final.consumer.next_offset = w.consumer.next_offset :=
    congrArg KafkaConsumer.next_offset hframe.consumer
  have hw : w.ledger = _ := hopened.ledger_heads hnone hclocked hheads
  have haccounts : Accounts env w₀ final := (hopened.accounts_heads hheads).advance.of_frame hframe hflushes
  rw [← hledger, ← hw₀, hoffset, ← hw]
  exact ⟨hframe.ledger hflushes hnone, hoffset ▸ haccounts.committed⟩

/-- From the same stores, over the same messages and with the same clock, a run in event-bus mode
ends with the device states, the cell index, the trip points and the committed offset of a run in
direct mode. -/
theorem event_bus_refines_direct {G₁ G₂ : Type} (h3 : H3Index) (config₁ config₂ : ProcessorConfig)
    (geofence : events.GeofenceEvaluationRequested → G₂ → G₂) (env₁ env₂ : Environment)
    (w₁ : World G₁) (w₂ : World G₂) (now_ms : ℕ → ℤ) (n₁ n₂ : ℕ) :
    let direct : Processor G₁ := ⟨h3, config₁, none⟩
    let event_bus : Processor G₂ := ⟨h3, config₂, some geofence⟩
    let run₁ := (ProcessingLoop.run env₁ direct n₁).exec .atomic w₁
    let run₂ := (ProcessingLoop.run env₂ event_bus n₂).exec .atomic w₂
    w₁.Opened → w₂.Opened → w₂.redis = w₁.redis → w₂.pg = w₁.pg →
    env₂.topic = env₁.topic → Clocked env₁ direct w₁ now_ms → Clocked env₂ event_bus w₂ now_ms →
    (∀ tick, env₁.insert_error tick = none) → (∀ tick, env₂.insert_error tick = none) →
    run₁.result = .ok true → run₂.result = .ok true →
    run₂.final.consumer.next_offset = run₁.final.consumer.next_offset →
    run₂.final.redis = run₁.final.redis ∧ run₂.final.pg = run₁.final.pg ∧
      run₂.final.consumer.committed_offset = run₁.final.consumer.committed_offset := by
  intro direct event_bus run₁ run₂ hopened₁ hopened₂ hredis hpg htopic hclocked₁ hclocked₂ hnone₁ hnone₂
    hreturns₁ hreturns₂ hpolled
  obtain ⟨hledger₁, hcommitted₁⟩ := run_refines hopened₁ hnone₁ hclocked₁ hreturns₁
  obtain ⟨hledger₂, hcommitted₂⟩ := run_refines hopened₂ hnone₂ hclocked₂ hreturns₂
  have hledger : (⟨run₂.final.redis, run₂.final.pg⟩ : Ledger) = ⟨run₁.final.redis, run₁.final.pg⟩ := by
    calc (⟨run₂.final.redis, run₂.final.pg⟩ : Ledger)
      _ = Ledger.consume h3 now_ms env₂.topic ⟨w₂.redis, w₂.pg⟩ run₂.final.consumer.next_offset := hledger₂
      _ = Ledger.consume h3 now_ms env₁.topic ⟨w₁.redis, w₁.pg⟩ run₁.final.consumer.next_offset := by
        rw [htopic, hredis, hpg, hpolled]
      _ = ⟨run₁.final.redis, run₁.final.pg⟩ := hledger₁.symm
  obtain ⟨hredis', hpg'⟩ := Ledger.mk.inj hledger
  exact ⟨hredis', hpg', hcommitted₂.trans (hpolled.trans hcommitted₁.symm)⟩

/-- A topic of four messages, with a process that is asked to stop when they have been polled. -/
def shared_environment : Environment :=
  { Environment.attentive [⟨"d", "d,5,2000,2000,0,0", 0⟩, ⟨"d", "d,4,1000,1000,0,0", 0⟩,
      ⟨"d", "d,6", 0⟩, ⟨"d", "d,7,3000,0,0,0", 0⟩] with
    should_stop := fun tick => decide (60 ≤ tick) }

/-- The two modes on the four messages, with batches of two events in direct mode and of one in
event-bus mode. -/
theorem event_bus_refines_direct_four :
    let direct : Processor Unit := ⟨H3Index.default, { history_batch_size := 2 }, none⟩
    let event_bus : Processor Unit :=
      ⟨H3Index.default, { history_batch_size := 1 }, some fun _ geofence => geofence⟩
    let run₁ := (ProcessingLoop.run shared_environment direct 40).exec .atomic (World.fresh 10 10 ())
    let run₂ := (ProcessingLoop.run shared_environment event_bus 40).exec .atomic (World.fresh 10 10 ())
    run₂.final.redis = run₁.final.redis ∧ run₂.final.pg = run₁.final.pg ∧
      run₂.final.consumer.committed_offset = run₁.final.consumer.committed_offset :=
  event_bus_refines_direct H3Index.default _ _ (fun _ geofence => geofence) shared_environment
    shared_environment (World.fresh 10 10 ()) (World.fresh 10 10 ()) (fun _ => 0) 40 40
    (World.fresh_opened 10 10 ()) (World.fresh_opened 10 10 ()) rfl rfl rfl
    (fun _ _ _ _ _ _ => rfl) (fun _ _ _ _ _ _ => rfl) (fun _ => rfl) (fun _ => rfl)
    (by decide +kernel) (by decide +kernel) (by decide +kernel)

end SignalRoute
