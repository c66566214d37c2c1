import SignalRoute.Composition
import SignalRoute.Gateway.RoundTrip
import SignalRoute.Gateway.Service
import SignalRoute.Geofence.Evaluator
import SignalRoute.Query.Nearby

/-!
# How old a location event is

A time of receipt goes from the gateway through the topic, the state writer and the evaluator to the
nearby query, which subtracts it from its clock, and to the dwell checker, which does the same with
the time of entry. The gateway sets it only where the client has not, and nothing checks it.

A `TimedWorld` is all of these with one clock. Every stored time is the time of receipt of an event
that the gateway accepted (`Traced`), so what the queries and the scans compute depends on these
alone: `timely_run` says that the differences fit, and that a device goes out of sight in time, in
every run in which clients supply no time that is ahead of the gateway or far behind.
-/

namespace SignalRoute

open Interaction
open Numeric (Double)
open Store (HashOrder)

namespace GatewayService

open Prog

variable {env : GatewayEnvironment} {config : GatewayServiceConfig}

/-- An event with the time of receipt that it leaves the gateway with. -/
def received (env : GatewayEnvironment) (gateway : Gateway) (event : LocationEvent) : LocationEvent :=
  if event.server_recv_ms = 0 then { event with server_recv_ms := env.system_ms gateway.tick } else event

/-- Whether the gateway lets an event through that has a time of receipt. -/
def admits (env : GatewayEnvironment) (config : GatewayServiceConfig) (gateway : Gateway)
    (event : LocationEvent) : Prop :=
  gateway.running = true ∧
    validate config.toGatewayConfig (env.system_ms gateway.tick) event = .ok () ∧
    (gateway.rate_limiter.allow event.device_id (env.steady_ns (gateway.tick + 1))).1 = true

/-- The gateway has let the event through, and the topic has got it. -/
structure Accepted (env : GatewayEnvironment) (config : GatewayServiceConfig) (event : LocationEvent)
    (gateway : Gateway) (accepted : LocationEvent) (gateway' : Gateway) : Prop where
  received : accepted = received env gateway event
  valid : ∃ tick, gateway.tick ≤ tick ∧
    validate config.toGatewayConfig (env.system_ms tick) accepted = .ok ()
  admitted : event.server_recv_ms ≠ 0 → admits env config gateway event
  produced : gateway'.produced = gateway.produced ++
    [⟨config.ingest_topic, accepted.device_id, encode_location_payload accepted⟩]

/-- Stamping gives the time of receipt. -/
theorem always_received (event : LocationEvent) (gateway : Gateway) :
    (stamp env event).Always .atomic (fun _ => True)
      (fun stamped gateway' => stamped = received env gateway event ∧
        gateway.tick ≤ gateway'.tick ∧ gateway' = { gateway with tick := gateway'.tick } ∧
        (event.server_recv_ms ≠ 0 → stamped = event ∧ gateway' = gateway))
      (fun _ _ => False) gateway := by
  unfold stamp received
  split
  · rename_i hzero
    exact ⟨trivial, rfl, Nat.le_succ _, rfl, fun h => absurd hzero h⟩
  · exact ⟨rfl, le_rfl, rfl, fun _ => ⟨rfl, rfl⟩⟩

/-- An event with its time of receipt is accepted, or the topic stays as it is. -/
theorem always_ingest_one (event : LocationEvent) (gateway : Gateway) :
    (ingest_one env config event).Always .atomic (fun _ => True)
      (fun result gateway' =>
        match result with
        | .ok accepted => Accepted env config event gateway accepted gateway'
        | .error _ => gateway'.produced = gateway.produced)
      (fun _ gateway' => gateway'.produced = gateway.produced) gateway := by
  unfold ingest_one
  rw [bind_eq, always_bind, always_read]
  refine ⟨trivial, ?_⟩
  by_cases hrunning : gateway.running = true
  swap
  · rw [if_pos (by simpa using hrunning)]
    exact rfl
  rw [if_neg (by simpa using hrunning), bind_eq, always_bind]
  refine (always_received event gateway).imp (fun _ => id) ?_ fun _ _ => False.elim
  rintro stamped gateway' ⟨hstamped, htick, hsame, hgiven⟩
  have hproduced : gateway'.produced = gateway.produced := by rw [hsame]
  -- The validator reads the clock, and the limiter its own one.
  rw [bind_eq, always_bind, now_ms, always_atomically]
  refine ⟨trivial, ?_⟩
  dsimp only
  cases hvalid : validate config.toGatewayConfig (env.system_ms gateway'.tick) stamped with
  | error reason => exact ⟨trivial, hproduced⟩
  | ok =>
    dsimp only
    rw [bind_eq, always_bind, always_atomically]
    refine ⟨trivial, ?_⟩
    cases hallow : (Gateway.allow env stamped.device_id { gateway' with tick := gateway'.tick + 1 }).1 with
    | false => exact ⟨trivial, trivial, hproduced⟩
    | true =>
      rw [if_neg (by decide), bind_eq, always_bind, always_atomically]
      refine ⟨trivial, ?_⟩
      unfold Gateway.produce_location
      cases env.produce_error _ with
      | some what => exact hproduced
      | none =>
        unfold produce
        by_cases htopic : config.ingest_topic = ""
        · rw [if_pos htopic]
          exact hproduced
        · rw [if_neg htopic]
          refine ⟨trivial, hstamped, ⟨gateway'.tick, htick, hvalid⟩, fun hne => ?_, ?_⟩
          · obtain ⟨rfl, rfl⟩ := hgiven hne
            exact ⟨hrunning, hvalid, hallow⟩
          · show gateway'.produced ++ _ = _
            rw [hproduced]

end GatewayService

/-- The components that a time of receipt goes through, as they are configured. -/
structure TimedSystem where
  gateway : GatewayServiceConfig := {}
  geofence : GeofenceConfig := {}
  h3 : H3Index
  event_topic : String := "tm.geofence.events"
  /-- The order of each listing of the fence states. -/
  orders : ℕ → HashOrder := fun _ => .insertion

/-- A step of the components; time passes in `advance`, and during an ingest. -/
inductive TimedStep where
  | advance (elapsed_ms : ℕ)
  | ingest_one (env : GatewayEnvironment) (elapsed_ms : ℕ) (event : LocationEvent)
      (range : event.InRange)
  | deliver (offset : ℕ) (registry : FenceRegistry) (order : HashOrder)
  | check_once (registry : FenceRegistry)

/-- What the components share: the clock, the topic and the stores; and each accepted event, with the
gateway's clock when it was accepted. -/
structure TimedWorld where
  now_ms : ℤ
  gateway : Gateway
  store : GeofenceStore := {}
  accepted : List (LocationEvent × ℤ) := []

/-- The gateway's clock during an ingest: it reads `now_ms` first. -/
def GatewayEnvironment.at (env : GatewayEnvironment) (tick : ℕ) (now_ms : ℤ) (elapsed_ms : ℕ) :
    GatewayEnvironment :=
  { env with system_ms := fun t => if t = tick then now_ms else now_ms + elapsed_ms }

namespace TimedSystem

variable (system : TimedSystem)

/-- The gateway takes one event. -/
def ingest_one (env : GatewayEnvironment) (elapsed_ms : ℕ) (event : LocationEvent) (w : TimedWorld) :
    TimedWorld :=
  let run := (GatewayService.ingest_one (env.at w.gateway.tick w.now_ms elapsed_ms) system.gateway
    event).exec .atomic w.gateway
  { w with
    now_ms := w.now_ms + elapsed_ms
    gateway := run.final
    accepted :=
      match run.result with
      | .ok (.ok event) => w.accepted ++ [(event, w.now_ms + elapsed_ms)]
      | _ => w.accepted }

/-- The processor writes an event, and an accepted write is evaluated. -/
def write (event : LocationEvent) (registry : FenceRegistry) (order : HashOrder) (w : TimedWorld) :
    TimedWorld :=
  match StateWriter.write_with_result system.h3 event w.now_ms w.store.redis with
  | (.error _, redis) => { w with store := { w.store with redis } }
  | (.ok outcome, redis) =>
    let store := { w.store with redis }
    if outcome.accepted then
      let request := geofence_evaluation_requested (state_write_succeeded event outcome)
      { w with
        store := store.after system.orders (Evaluator.evaluate registry order system.event_topic
          request.device_id request.old_h3_cell request.new_h3_cell request.lat request.lon
          request.timestamp_ms) }
    else { w with store }

/-- The processor gets the message at an offset of the topic, for the first time or again. -/
def deliver (offset : ℕ) (registry : FenceRegistry) (order : HashOrder) (w : TimedWorld) :
    TimedWorld :=
  match w.gateway.produced[offset]? with
  | none => w
  | some message =>
    match decode_location_payload message.payload with
    | .error _ => w
    | .ok event => system.write event registry order w

/-- A scan of the dwell checker. -/
def check_once (registry : FenceRegistry) (w : TimedWorld) : TimedWorld :=
  { w with
    store := w.store.after system.orders
      (DwellChecker.check_once registry system.geofence system.event_topic w.now_ms) }

/-- The world after a step. -/
def step (w : TimedWorld) : TimedStep → TimedWorld
  | .advance elapsed_ms => { w with now_ms := w.now_ms + elapsed_ms }
  | .ingest_one env elapsed_ms event _ => system.ingest_one env elapsed_ms event w
  | .deliver offset registry order => system.deliver offset registry order w
  | .check_once registry => system.check_once registry w

/-- The world after some steps of a system that starts at `start_ms`. -/
def run (start_ms : ℤ) (steps : List TimedStep) : TimedWorld :=
  steps.foldl system.step { now_ms := start_ms, gateway := .start system.gateway }

/-- A query does not answer with a device that no event of the last `last_seen_s` seconds is from. -/
def DropsOut (w : TimedWorld) : Prop :=
  ∀ {D : Type} [LinearOrder D] (haversine : ℚ → ℚ → ℚ → ℚ → D) (metres : ℚ → D) (cfg : SpatialConfig)
    (order : HashOrder) (lat lon radius_m : Double) (limit last_seen_s : ℤ) (result : NearbyResult D)
    (device_id : String), 0 < last_seen_s →
    (∀ accepted ∈ w.accepted, accepted.1.device_id = device_id →
      accepted.2 + last_seen_s * 1000 < w.now_ms) →
    NearbyHandler.handle haversine metres system.h3 cfg order w.store.redis w.now_ms lat lon radius_m
      limit last_seen_s = .ok result →
    ∀ device ∈ result.devices, device.1.device_id ≠ device_id

/-- The ages of the stored states and of the visits fit their types, and a device whose events are
old drops out of the queries. -/
structure Timely (w : TimedWorld) : Prop where
  query_fits : ∀ device_id state, w.store.redis.get_device_state device_id = some state →
    -2^63 ≤ w.now_ms - state.updated_at ∧ w.now_ms - state.updated_at < 2^63
  dwell_fits : ∀ order, ∀ record ∈ w.store.redis.list_fence_states order .INSIDE,
    0 < record.entered_at_ms →
      (-2^63 ≤ w.now_ms - record.entered_at_ms ∧ w.now_ms - record.entered_at_ms < 2^63) ∧
        -2^31 ≤ (w.now_ms - record.entered_at_ms).tdiv 1000 ∧
        (w.now_ms - record.entered_at_ms).tdiv 1000 < 2^31
  not_after : ∀ device_id state, w.store.redis.get_device_state device_id = some state →
    ∃ accepted ∈ w.accepted, accepted.1.device_id = device_id ∧ accepted.1.seq = state.seq ∧
      state.updated_at = accepted.1.server_recv_ms ∧ state.updated_at ≤ accepted.2
  drops_out : system.DropsOut w

/-- A time of receipt that is not ahead of the gateway, and not too far behind the clock at the end. -/
structure InTime (recv_ms accepted_ms end_ms : ℤ) : Prop where
  ne_zero : recv_ms ≠ 0
  not_after : recv_ms ≤ accepted_ms
  query_fits : end_ms - recv_ms < 2^63
  dwell_fits : 0 < recv_ms → end_ms - recv_ms < 2^31 * 1000

/-- An ingest of an event that has no time of receipt, or that the gateway lets through, gives it one
that is in time. -/
def StepInTime (end_ms : ℤ) (w : TimedWorld) : TimedStep → Prop
  | .ingest_one env elapsed_ms event _ =>
    (event.server_recv_ms ≠ 0 → GatewayService.admits (env.at w.gateway.tick w.now_ms elapsed_ms)
      system.gateway w.gateway event) →
    InTime (if event.server_recv_ms = 0 then w.now_ms else event.server_recv_ms)
      (w.now_ms + elapsed_ms) end_ms
  | _ => True

/-- Every step is in time, in the world before it. -/
def StepsInTime (end_ms : ℤ) : TimedWorld → List TimedStep → Prop
  | _, [] => True
  | w, step :: steps => system.StepInTime end_ms w step ∧ StepsInTime end_ms (system.step w step) steps

/-- Every visit has been entered at one of the times. -/
def EnteredAt (times : Set ℤ) (redis : RedisClient) : Prop :=
  ∀ key record, redis.fence_states.lookup key = some record → record.state = .INSIDE →
    record.entered_at_ms ∈ times

/-- The times of receipt of the accepted events. -/
def times (w : TimedWorld) : Set ℤ :=
  {recv_ms | ∃ accepted ∈ w.accepted, recv_ms = accepted.1.server_recv_ms}

/-- The accepted events are in time, and every time in the topic and in the stores is one of theirs. -/
structure Traced (end_ms : ℤ) (w : TimedWorld) : Prop where
  clock : -2^63 ≤ w.now_ms
  range : ∀ accepted ∈ w.accepted, accepted.1.InRange
  valid : ∀ accepted ∈ w.accepted, ∃ now_ms,
    accepted.1.Valid system.gateway.toGatewayConfig now_ms
  in_time : ∀ accepted ∈ w.accepted, InTime accepted.1.server_recv_ms accepted.2 end_ms
  past : ∀ accepted ∈ w.accepted, accepted.2 ≤ w.now_ms
  produced : ∀ message ∈ w.gateway.produced, ∃ accepted ∈ w.accepted,
    message.payload = encode_location_payload accepted.1
  stored : ∀ device_id state, w.store.redis.get_device_state device_id = some state →
    state.device_id = device_id ∧ ∃ accepted ∈ w.accepted, accepted.1.device_id = device_id ∧
      accepted.1.seq = state.seq ∧ state.updated_at = accepted.1.server_recv_ms
  entered : EnteredAt (times w) w.store.redis

section FenceStates

variable {times : Set ℤ} {redis : RedisClient} {store : GeofenceStore} {orders : ℕ → HashOrder}

/-- Setting a fence state keeps the times of entry, if an entry is at one of them. -/
theorem EnteredAt.set_fence_state (h : EnteredAt times redis) (device_id fence_id : String)
    {state : FenceState} {timestamp_ms : ℤ} (htime : state = .INSIDE → timestamp_ms ∈ times) :
    EnteredAt times (redis.set_fence_state device_id fence_id state timestamp_ms) := by
  intro key record hl hinside
  rw [RedisClient.lookup_set_fence_state] at hl
  split at hl
  · cases hl
    cases hinside
    exact htime rfl
  · exact h key record hl hinside

/-- Publishing a record keeps the times of entry. -/
theorem EnteredAt.always_publish_event (h : EnteredAt times store.redis) (event_topic : String)
    (record : GeofenceEventRecord) :
    (publish_event event_topic record).Always (GeofenceStore.handler orders) (fun _ => True)
      (fun _ store' => EnteredAt times store'.redis) (fun _ store' => EnteredAt times store'.redis)
      store := by
  unfold publish_event
  rw [Prog.bind_eq, Prog.always_bind, Prog.always_perform]
  refine ⟨trivial, ?_⟩
  rw [Prog.bind_eq, Prog.always_bind, Prog.always_ofExcept]
  dsimp only [GeofenceStore.handler, GeofenceStore.perform]
  rw [Prog.bind_eq, Prog.always_bind, Prog.always_perform]
  refine ⟨trivial, ?_⟩
  rw [Prog.always_ofExcept]
  split <;> exact h

/-- An evaluation at one of the times keeps the times of entry. -/
theorem EnteredAt.always_evaluate (h : EnteredAt times store.redis) {timestamp_ms : ℤ}
    (htime : timestamp_ms ∈ times) (registry : FenceRegistry) (order : HashOrder)
    (event_topic device_id : String) (old_h3 new_h3 : ℤ) (lat lon : Double) :
    (Evaluator.evaluate registry order event_topic device_id old_h3 new_h3 lat lon timestamp_ms).Always
      (GeofenceStore.handler orders) (fun _ => True)
      (fun _ store' => EnteredAt times store'.redis) (fun _ store' => EnteredAt times store'.redis)
      store := by
  unfold Evaluator.evaluate
  split
  · exact h
  refine Prog.always_forEach (fun _ (store' : GeofenceStore) => EnteredAt times store'.redis) _
    (fun fence _ store' h' => ?_) _ _ h
  rw [Evaluator.evaluate_fence_eq, Prog.always_bind, Prog.always_perform]
  refine ⟨trivial, ?_⟩
  split
  · exact h'
  · rw [Prog.always_bind, Prog.always_perform]
    exact ⟨trivial, (h'.set_fence_state _ _ fun _ => htime).always_publish_event _ _⟩

/-- A scan of the dwell checker keeps the times of entry. -/
theorem EnteredAt.always_check_once (h : EnteredAt times store.redis) (registry : FenceRegistry)
    (config : GeofenceConfig) (event_topic : String) (now_ms : ℤ) :
    (DwellChecker.check_once registry config event_topic now_ms).Always
      (GeofenceStore.handler orders) (fun _ => True)
      (fun _ store' => EnteredAt times store'.redis) (fun _ store' => EnteredAt times store'.redis)
      store := by
  unfold DwellChecker.check_once
  rw [Prog.bind_eq, Prog.always_bind, Prog.always_perform]
  refine ⟨trivial, ?_⟩
  refine Prog.always_foldEach (fun _ _ (store' : GeofenceStore) => EnteredAt times store'.redis) _
    (fun state _ _ store' h' => ?_) _ _ _ h
  unfold DwellChecker.check_state
  split
  · exact h'
  · rw [Prog.bind_eq, Prog.always_bind, Prog.always_perform]
    refine ⟨trivial, ?_⟩
    rw [Prog.bind_eq, Prog.always_bind]
    exact (h'.set_fence_state _ _ fun hstate => absurd hstate (by decide)).always_publish_event _ _

/-- The programs of the geofence engine leave the device states alone. -/
theorem device_states_after {α : Type} (p : GeofenceProgram α) (store : GeofenceStore) :
    (store.after orders p).redis.device_states = store.redis.device_states := by
  refine Prog.Always.final (Prog.always_of_forall_call (h := GeofenceStore.handler orders)
    (I := fun store' => store'.redis.device_states = store.redis.device_states) ?_ p store rfl)
  intro β call store' h
  cases call <;> exact h

end FenceStates

section Steps

variable {system} {end_ms : ℤ} {w : TimedWorld}

/-- Nothing is traced in a system that starts. -/
theorem Traced.start {start_ms : ℤ} (hclock : -2^63 ≤ start_ms) :
    system.Traced end_ms { now_ms := start_ms, gateway := .start system.gateway } where
  clock := hclock
  range _ h := absurd h List.not_mem_nil
  valid _ h := absurd h List.not_mem_nil
  in_time _ h := absurd h List.not_mem_nil
  past _ h := absurd h List.not_mem_nil
  produced _ h := absurd h List.not_mem_nil
  stored _ _ h := by cases h
  entered _ _ h := by cases h

/-- Time passes, and the gateway does what leaves the topic as it is. -/
theorem Traced.wait (h : system.Traced end_ms w) (elapsed_ms : ℕ) {gateway : Gateway}
    (hproduced : gateway.produced = w.gateway.produced) :
    system.Traced end_ms { w with now_ms := w.now_ms + elapsed_ms, gateway } where
  clock := by
    have := h.clock
    dsimp only
    omega
  range := h.range
  valid := h.valid
  in_time := h.in_time
  past accepted haccepted := by
    have := h.past accepted haccepted
    dsimp only
    omega
  produced message hmessage := h.produced message (hproduced ▸ hmessage)
  stored := h.stored
  entered := h.entered

/-- The gateway accepts an event. -/
theorem Traced.accept (h : system.Traced end_ms w) {event : LocationEvent} (hrange : event.InRange)
    {now_ms : ℤ} (hvalid : event.Valid system.gateway.toGatewayConfig now_ms)
    (htime : InTime event.server_recv_ms w.now_ms end_ms) {gateway : Gateway}
    {message : ProducedMessage} (hproduced : gateway.produced = w.gateway.produced ++ [message])
    (hpayload : message.payload = encode_location_payload event) :
    system.Traced end_ms { w with gateway, accepted := w.accepted ++ [(event, w.now_ms)] } := by
  have hold : w.accepted ⊆ w.accepted ++ [(event, w.now_ms)] := List.subset_append_left _ _
  have hnew : ∀ {P : LocationEvent × ℤ → Prop}, (∀ accepted ∈ w.accepted, P accepted) →
      P (event, w.now_ms) → ∀ accepted ∈ w.accepted ++ [(event, w.now_ms)], P accepted := by
    intro P hall hevent accepted haccepted
    rcases List.mem_append.mp haccepted with haccepted | haccepted
    · exact hall accepted haccepted
    · rwa [List.mem_singleton.mp haccepted]
  refine ⟨h.clock, hnew h.range hrange, hnew h.valid ⟨now_ms, hvalid⟩, hnew h.in_time htime,
    hnew h.past le_rfl, fun m hm => ?_, fun device_id state hstate => ?_, fun key record hl hinside => ?_⟩
  · dsimp only at hm
    rw [hproduced] at hm
    rcases List.mem_append.mp hm with hm | hm
    · obtain ⟨accepted, haccepted, heq⟩ := h.produced m hm
      exact ⟨accepted, hold haccepted, heq⟩
    · rw [List.mem_singleton.mp hm]
      exact ⟨_, List.mem_append_right _ List.mem_cons_self, hpayload⟩
  · obtain ⟨hid, accepted, haccepted, heq⟩ := h.stored device_id state hstate
    exact ⟨hid, accepted, hold haccepted, heq⟩
  · obtain ⟨accepted, haccepted, heq⟩ := h.entered key record hl hinside
    exact ⟨accepted, hold haccepted, heq⟩

/-- An ingest in time keeps the trace. -/
theorem Traced.ingest_one (h : system.Traced end_ms w) {env : GatewayEnvironment} {elapsed_ms : ℕ}
    {event : LocationEvent} {hrange : event.InRange} (hclock : w.now_ms + elapsed_ms < 2^63)
    (htime : system.StepInTime end_ms w (.ingest_one env elapsed_ms event hrange)) :
    system.Traced end_ms (system.ingest_one env elapsed_ms event w) := by
  unfold TimedSystem.ingest_one
  dsimp only
  generalize henv : env.at w.gateway.tick w.now_ms elapsed_ms = env'
  obtain ⟨-, hok, herror⟩ := (Prog.always_iff_exec _ _).mp
    (@GatewayService.always_ingest_one env' system.gateway event w.gateway)
  generalize (GatewayService.ingest_one env' system.gateway event).exec .atomic w.gateway = run
    at hok herror
  cases hresult : run.result with
  | error e => exact h.wait elapsed_ms (herror e hresult)
  | ok result =>
    have hspec := hok result hresult
    cases result with
    | error reason => exact h.wait elapsed_ms hspec
    | ok accepted =>
      obtain ⟨hreceived, ⟨tick, -, hvalid⟩, hadmitted, hproduced⟩ := hspec
      have hreads : env'.system_ms w.gateway.tick = w.now_ms := by
        rw [← henv]
        exact if_pos rfl
      have hin_time := htime (by rwa [henv])
      have hrecv : accepted.server_recv_ms =
          if event.server_recv_ms = 0 then w.now_ms else event.server_recv_ms := by
        rw [hreceived]
        unfold GatewayService.received
        split
        · exact hreads
        · rfl
      rw [← hrecv] at hin_time
      have hrange' : accepted.InRange := by
        rw [hreceived]
        unfold GatewayService.received
        split
        · refine ⟨hrange.seq, hrange.timestamp_ms, ?_⟩
          have := h.clock
          dsimp only
          rw [hreads]
          omega
        · exact hrange
      have hwait := @Traced.wait system end_ms w h elapsed_ms w.gateway rfl
      exact hwait.accept hrange' (validate_eq_ok_iff.mp hvalid) hin_time hproduced rfl

/-- The geofence engine runs a program that keeps the times of entry. -/
theorem Traced.after (h : system.Traced end_ms w) {α : Type} (p : GeofenceProgram α)
    (hentered : EnteredAt (times w) (w.store.after system.orders p).redis) :
    system.Traced end_ms { w with store := w.store.after system.orders p } := by
  refine { h with stored := fun device_id state hstate => ?_, entered := hentered }
  unfold RedisClient.get_device_state at hstate
  dsimp only at hstate
  rw [device_states_after] at hstate
  exact h.stored device_id state hstate

/-- A write of an event with the identity and the time of receipt of an accepted one keeps the trace. -/
theorem Traced.write (h : system.Traced end_ms w) {event : LocationEvent}
    (hevent : ∃ accepted ∈ w.accepted, accepted.1.device_id = event.device_id ∧
      accepted.1.seq = event.seq ∧ accepted.1.server_recv_ms = event.server_recv_ms)
    (registry : FenceRegistry) (order : HashOrder) :
    system.Traced end_ms (system.write event registry order w) := by
  obtain ⟨accepted, haccepted, hid, hseq, hrecv⟩ := hevent
  have hne : event.server_recv_ms ≠ 0 := hrecv ▸ (h.in_time accepted haccepted).ne_zero
  unfold TimedSystem.write StateWriter.write_with_result
  cases hcell : system.h3.lat_lng_to_cell event.lat event.lon with
  | error e => exact h
  | ok cell =>
    dsimp only
    cases hacc : (w.store.redis.update_device_state_cas event.device_id
        (StateWriter.state_of event cell w.now_ms)).1 with
    | false =>
      rw [if_neg (by decide), RedisClient.update_device_state_cas_rejected _ hacc]
      exact h
    | true =>
      rw [if_pos rfl]
      have hupdated : (StateWriter.state_of event cell w.now_ms).updated_at = accepted.1.server_recv_ms := by
        rw [hrecv]
        exact if_neg hne
      have hwritten : system.Traced end_ms { w with store := { w.store with
          redis := (w.store.redis.update_device_state_cas event.device_id
            (StateWriter.state_of event cell w.now_ms)).2 } } := by
        refine { h with stored := fun device_id state hstate => ?_, entered := ?_ }
        · unfold RedisClient.get_device_state at hstate
          dsimp only at hstate
          rw [RedisClient.lookup_update_device_state_cas _ hacc] at hstate
          split at hstate
          · rename_i hdevice
            cases hstate
            exact ⟨hdevice.symm, accepted, haccepted, hid.trans hdevice.symm, hseq, hupdated⟩
          · exact h.stored device_id state hstate
        · intro key record hl hinside
          dsimp only at hl
          rw [RedisClient.fence_states_update_device_state_cas] at hl
          exact h.entered key record hl hinside
      exact hwritten.after _ (Prog.Always.final (EnteredAt.always_evaluate hwritten.entered
        ⟨accepted, haccepted, hupdated⟩ _ _ _ _ _ _ _ _))

/-- A delivery keeps the trace. -/
theorem Traced.deliver (h : system.Traced end_ms w) (offset : ℕ) (registry : FenceRegistry)
    (order : HashOrder) : system.Traced end_ms (system.deliver offset registry order w) := by
  unfold TimedSystem.deliver
  cases hmessage : w.gateway.produced[offset]? with
  | none => exact h
  | some message =>
    obtain ⟨accepted, haccepted, hpayload⟩ := h.produced message (List.mem_of_getElem? hmessage)
    obtain ⟨now_ms, hvalid⟩ := h.valid accepted haccepted
    dsimp only
    rw [hpayload]
    -- A comma in the device id makes the payload unreadable: it does not shift the fields.
    rcases decode_encode_cases hvalid (h.range accepted haccepted) with
      ⟨-, hdecode⟩ | ⟨-, hdecode⟩
    · rw [hdecode]
      exact h
    · rw [hdecode]
      refine Traced.write h ?_ registry order
      exact ⟨accepted, haccepted, rfl, rfl, rfl⟩

/-- A scan keeps the trace. -/
theorem Traced.check_once (h : system.Traced end_ms w) (registry : FenceRegistry) :
    system.Traced end_ms (system.check_once registry w) :=
  h.after _ (Prog.Always.final (h.entered.always_check_once registry _ _ _))

/-- A step in time keeps the trace. -/
theorem Traced.step (h : system.Traced end_ms w) {step : TimedStep}
    (hclock : (system.step w step).now_ms < 2^63) (htime : system.StepInTime end_ms w step) :
    system.Traced end_ms (system.step w step) := by
  cases step with
  | advance elapsed_ms => exact h.wait elapsed_ms rfl
  | ingest_one env elapsed_ms event range => exact h.ingest_one hclock htime
  | deliver offset registry order => exact h.deliver offset registry order
  | check_once registry => exact h.check_once registry

/-- The clock does not go back. -/
theorem le_now_ms_step (w : TimedWorld) (step : TimedStep) : w.now_ms ≤ (system.step w step).now_ms := by
  cases step with
  | advance elapsed_ms =>
    unfold TimedSystem.step
    dsimp only
    omega
  | ingest_one env elapsed_ms event range =>
    unfold TimedSystem.step TimedSystem.ingest_one
    dsimp only
    omega
  | deliver offset registry order =>
    unfold TimedSystem.step TimedSystem.deliver TimedSystem.write
    dsimp only
    split
    · exact le_rfl
    split
    · exact le_rfl
    split
    · exact le_rfl
    split
    · exact le_rfl
    · exact le_rfl
  | check_once registry => exact le_rfl

/-- Nor does it go back over a run. -/
theorem le_now_ms_foldl (w : TimedWorld) (steps : List TimedStep) :
    w.now_ms ≤ (steps.foldl system.step w).now_ms := by
  induction steps generalizing w with
  | nil => exact le_rfl
  | cons step steps ih => exact (le_now_ms_step w step).trans (ih _)

/-- Steps in time keep the trace. -/
theorem Traced.foldl (h : system.Traced end_ms w) {steps : List TimedStep}
    (hclock : (steps.foldl system.step w).now_ms < 2^63)
    (htime : system.StepsInTime end_ms w steps) :
    system.Traced end_ms (steps.foldl system.step w) := by
  induction steps generalizing w with
  | nil => exact h
  | cons step steps ih =>
    have hstep := (le_now_ms_foldl (system.step w step) steps).trans_lt hclock
    exact ih (h.step hstep htime.1) hclock htime.2

/-- A traced world is timely. -/
theorem Traced.timely (h : system.Traced w.now_ms w) : system.Timely w := by
  have hpast : ∀ accepted ∈ w.accepted, accepted.1.server_recv_ms ≤ w.now_ms := fun accepted haccepted =>
    (h.in_time accepted haccepted).not_after.trans (h.past accepted haccepted)
  refine ⟨fun device_id state hstate => ?_, fun order record hrecord hpos => ?_,
    fun device_id state hstate => ?_, ?_⟩
  · obtain ⟨-, accepted, haccepted, -, -, hupdated⟩ := h.stored device_id state hstate
    have hle := hpast accepted haccepted
    have hfits := (h.in_time accepted haccepted).query_fits
    rw [hupdated]
    omega
  · unfold RedisClient.list_fence_states at hrecord
    rw [List.mem_filter, HashOrder.mem_values, decide_eq_true_eq] at hrecord
    obtain ⟨⟨key, hl⟩, hinside⟩ := hrecord
    obtain ⟨accepted, haccepted, hentered⟩ := h.entered key record hl hinside
    have hle := hpast accepted haccepted
    have hfits := (h.in_time accepted haccepted).dwell_fits (hentered ▸ hpos)
    rw [hentered, Int.tdiv_eq_ediv_of_nonneg (sub_nonneg.mpr hle)]
    omega
  · obtain ⟨-, accepted, haccepted, hid, hseq, hupdated⟩ := h.stored device_id state hstate
    exact ⟨accepted, haccepted, hid, hseq, hupdated,
      hupdated ▸ (h.in_time accepted haccepted).not_after⟩
  · intro D _ haversine metres cfg order lat lon radius_m limit last_seen_s result device_id hpos hold
      hresult device hdevice hid
    obtain ⟨⟨id, hstate⟩, hfresh⟩ := NearbyHandler.of_mem_devices haversine metres hresult hdevice
    obtain ⟨hstored, accepted, haccepted, haccepted_id, -, hupdated⟩ := h.stored id device.1 hstate
    -- The state comes from an event of the device, and that is too old.
    have hlate := hold accepted haccepted (haccepted_id.trans (hstored.symm.trans hid))
    have hle := (h.in_time accepted haccepted).not_after
    have hpast := hpast accepted haccepted
    have hfits := (h.in_time accepted haccepted).query_fits
    have := (NearbyHandler.fresh_iff_recent (by rw [hupdated]; omega) (by rw [hupdated]; omega)).mp hfresh hpos
    omega

end Steps

/-- In a run whose steps are in time, the ages of the stored states and of the visits fit their types,
and a device whose events are old drops out of the queries. -/
theorem timely_run (system : TimedSystem) (start_ms : ℤ) (steps : List TimedStep)
    (hstart : -2^63 ≤ start_ms) (hend : (system.run start_ms steps).now_ms < 2^63)
    (htime : system.StepsInTime (system.run start_ms steps).now_ms
      { now_ms := start_ms, gateway := .start system.gateway } steps) :
    system.Timely (system.run start_ms steps) :=
  ((Traced.start hstart).foldl hend htime).timely

/-- The components as `config.h` has them for the default. -/
def of_default_config : TimedSystem := { h3 := .default }

/-- An environment without faults. -/
def quiet_gateway : GatewayEnvironment := ⟨fun _ => 0, fun _ => 0, fun _ => 0, fun _ => none⟩

/-- An event of device `d`, with a time of receipt that the client supplies. -/
def received_at (server_recv_ms : ℤ) : LocationEvent where
  device_id := "d"
  timestamp_ms := 1700000000000
  server_recv_ms := server_recv_ms
  seq := 1

/-- The event comes at 1700000000000 ms, is delivered, and a minute later there is a scan. -/
def world_after (server_recv_ms : ℤ) (range : (received_at server_recv_ms).InRange) : TimedWorld :=
  of_default_config.run 1700000000000
    [.ingest_one quiet_gateway 5 (received_at server_recv_ms) range, .deliver 0 {} .insertion,
      .advance 60000, .check_once {}]

/-- A time of receipt that is a second old is in time. -/
theorem timely_run_second_old : of_default_config.Timely
    (world_after 1699999999000 ⟨by decide, by decide, by decide⟩) := by
  have hnow : (world_after 1699999999000 ⟨by decide, by decide, by decide⟩).now_ms = 1700000060005 := by
    decide +kernel
  refine timely_run of_default_config 1700000000000 _ (by decide) ?_ ?_
  · exact hnow.trans_lt (by decide)
  · refine ⟨fun _ => ?_, trivial, trivial, trivial, trivial⟩
    change InTime _ _ (world_after _ _).now_ms
    rw [hnow]
    exact ⟨by decide, by decide, by decide, fun _ => by decide⟩

/-- The earliest time of receipt makes the nearby query overflow, and one that is ahead of the clock is
stored as it is. -/
theorem extreme_times_not_timely :
    ¬of_default_config.Timely (world_after (-2^63) ⟨by decide, by decide, by decide⟩) ∧
      ¬of_default_config.Timely (world_after (2^62) ⟨by decide, by decide, by decide⟩) := by
  refine ⟨fun h => ?_, fun h => ?_⟩
  · have hnow : (world_after (-2^63) ⟨by decide, by decide, by decide⟩).now_ms = 1700000060005 := by
      decide +kernel
    have hstored : ((world_after (-2^63) ⟨by decide, by decide, by decide⟩).store.redis.get_device_state
        "d").map DeviceState.updated_at = some (-2^63) := by decide +kernel
    obtain ⟨state, hstate, hupdated⟩ := Option.map_eq_some_iff.mp hstored
    have hfits := h.query_fits "d" state hstate
    rw [hnow, hupdated] at hfits
    omega
  · have haccepted : (world_after (2^62) ⟨by decide, by decide, by decide⟩).accepted.map Prod.snd =
        [1700000000005] := by decide +kernel
    have hstored : ((world_after (2^62) ⟨by decide, by decide, by decide⟩).store.redis.get_device_state
        "d").map DeviceState.updated_at = some (2^62) := by decide +kernel
    obtain ⟨state, hstate, hupdated⟩ := Option.map_eq_some_iff.mp hstored
    obtain ⟨accepted, hmem, -, -, -, hle⟩ := h.not_after "d" state hstate
    have htime := List.mem_map_of_mem (f := Prod.snd) hmem
    rw [haccepted, List.mem_singleton] at htime
    rw [hupdated, htime] at hle
    omega

end TimedSystem

end SignalRoute
