import SignalRoute.Interaction.Prog
import SignalRoute.Clients.Kafka
import SignalRoute.Processor.Codec
import SignalRoute.Gateway.Validator
import SignalRoute.Gateway.RateLimiter

/-!
# The gateway service

`src/gateway/gateway_service.cpp` and `admission_control.cpp`, as programs over atomic actions on a
`Gateway`: everything that a started service owns, with the event bus that it was given. What it
does not determine is a `GatewayEnvironment`: the clocks, the leases that concurrent requests hold,
and whether the producer throws, each a function of a tick that every reading advances.

The bus has the subscriptions of `src/common/composition/metrics_event_handlers.cpp`, made once, so
publishing an event counts it; the subscriptions to other events are left out. `Gateway.published`
has the events in order.
-/

namespace SignalRoute

open Interaction
open Store (UnorderedMap)

/-- The other fields of `GatewayConfig` that the service reads, and the topic it publishes to. -/
structure GatewayServiceConfig extends GatewayConfig where
  max_batch_events : ℤ := 1000
  rate_limit_rps_per_device : ℤ := 100
  queue_full_timeout_ms : ℤ := 500
  auth_required : Bool := false
  api_key : String := ""
  max_in_flight_requests : ℤ := 0
  ingest_topic : String := "tm.location.events"

namespace events

/-- The events of `gateway_events.h`. -/
inductive Gateway where
  | IngestBatchReceived (device_id : String) (events : List LocationEvent) (received_at_ms : ℤ)
  | IngestBatchRejected (device_id reason : String) (rejected_count : ℤ)
  | IngestEventPublished (event : LocationEvent) (topic : String)
  | GatewayBackpressureApplied (reason : String) (duration_ms : ℤ)

end events

/-- The counters of `Metrics` that the gateway's events drive; a labelled one is a counter for each
value of its label. -/
structure Metrics where
  ingest_received_total : ℤ := 0
  ingest_rejected_total : UnorderedMap String ℤ := ∅
  ingest_queued_total : ℤ := 0

namespace Metrics

/-- `inc_ingest_received`. -/
def inc_ingest_received (count : ℤ) (metrics : Metrics) : Metrics :=
  { metrics with ingest_received_total := metrics.ingest_received_total + count }

/-- `inc_ingest_rejected`. -/
def inc_ingest_rejected (reason : String) (count : ℤ) (metrics : Metrics) : Metrics :=
  { metrics with
    ingest_rejected_total := metrics.ingest_rejected_total.insert reason
      ((metrics.ingest_rejected_total.lookup reason).getD 0 + count) }

/-- `inc_ingest_queued`. -/
def inc_ingest_queued (metrics : Metrics) : Metrics :=
  { metrics with ingest_queued_total := metrics.ingest_queued_total + 1 }

/-- The handlers that `MetricsEventHandlers::wire` subscribes to the gateway's events. -/
def handle : events.Gateway → Metrics → Metrics
  | .IngestBatchReceived _ events _ => inc_ingest_received events.length
  | .IngestBatchRejected _ reason rejected_count => inc_ingest_rejected reason rejected_count
  | .IngestEventPublished _ _ => inc_ingest_queued
  | .GatewayBackpressureApplied _ _ => id

end Metrics

/-- What a run of the gateway meets, by tick. -/
structure GatewayEnvironment where
  /-- The system clock, in milliseconds. -/
  system_ms : ℕ → ℤ
  /-- The steady clock, in nanoseconds. -/
  steady_ns : ℕ → ℤ
  /-- How many leases concurrent requests hold. -/
  other_leases : ℕ → ℤ
  /-- The `what()` of a `produce` that throws. -/
  produce_error : ℕ → Option String

/-- What a started gateway owns. -/
structure Gateway where
  tick : ℕ := 0
  running : Bool := true
  rate_limiter : RateLimiter
  /-- The leases of its own request, out of those that `in_flight_` counts. -/
  in_flight : ℤ := 0
  produced : List ProducedMessage := []
  published : List events.Gateway := []
  metrics : Metrics := {}

/-- The state after `start`. -/
def Gateway.start (config : GatewayServiceConfig) : Gateway :=
  { rate_limiter := ⟨config.rate_limit_rps_per_device, ∅⟩ }

/-- Code of the gateway. -/
abbrev GatewayAction : Type → Type 1 := Prog (Atomic Gateway) Exception

/-- `IngestResult`. -/
structure IngestResult where
  accepted : ℤ := 0
  rejected : ℤ := 0
  errors : List String := []

/-- `IngestResponse`. -/
structure IngestResponse where
  accepted : Bool := false
  accepted_count : ℤ := 0
  rejected_count : ℤ := 0
  accepted_events : List LocationEvent := []
  errors : List String := []

/-- `IngestOneRequest`. -/
structure IngestOneRequest where
  event : LocationEvent
  api_key : String := ""

/-- `IngestBatchRequest`. -/
structure IngestBatchRequest where
  events : List LocationEvent
  api_key : String := ""

namespace Gateway

variable (env : GatewayEnvironment) (config : GatewayServiceConfig)

/-- `event_bus_->publish`. -/
def publish (event : events.Gateway) (gateway : Gateway) : Gateway :=
  { gateway with
    published := gateway.published ++ [event]
    metrics := Metrics.handle event gateway.metrics }

/-- `rate_limiter_->allow`. -/
def allow (device_id : String) (gateway : Gateway) : Bool × Gateway :=
  let (allowed, rate_limiter) := gateway.rate_limiter.allow device_id (env.steady_ns gateway.tick)
  (allowed, { gateway with rate_limiter, tick := gateway.tick + 1 })

/-- `producer_->produce` to the ingest topic. -/
def produce_location (event : LocationEvent) (gateway : Gateway) : Except Exception Unit × Gateway :=
  match env.produce_error gateway.tick with
  | some what => (.error (.std what), { gateway with tick := gateway.tick + 1 })
  | none =>
    let (result, produced) :=
      produce config.ingest_topic event.device_id (encode_location_payload event) gateway.produced
    (result, { gateway with produced, tick := gateway.tick + 1 })

/-- Whether `try_acquire` finds a lease. -/
def may_acquire (gateway : Gateway) : Bool :=
  config.max_in_flight_requests ≤ 0 ||
    gateway.in_flight + env.other_leases gateway.tick < config.max_in_flight_requests

/-- `try_acquire`: an active lease where the requests are limited, and an inactive one elsewhere. -/
def try_acquire (gateway : Gateway) : Except String Bool × Gateway :=
  if gateway.may_acquire env config then
    if config.max_in_flight_requests ≤ 0 then (.ok false, { gateway with tick := gateway.tick + 1 })
    else (.ok true, { gateway with in_flight := gateway.in_flight + 1, tick := gateway.tick + 1 })
  else (.error "gateway backpressure", { gateway with tick := gateway.tick + 1 })

/-- The destructor of a lease. -/
def release (active : Bool) (gateway : Gateway) : Gateway :=
  if active then { gateway with in_flight := gateway.in_flight - 1 } else gateway

end Gateway

namespace GatewayService

open Prog (atomically modify read ofExcept foldEach)

variable (env : GatewayEnvironment) (config : GatewayServiceConfig)

/-- `authorize`. -/
def authorize (api_key : String) : Except String Unit :=
  if !config.auth_required then .ok ()
  else if config.api_key ≠ "" ∧ api_key = config.api_key then .ok ()
  else .error "unauthorized"

/-- `now_ms`, and the reading of the system clock in `validate`. -/
def now_ms : GatewayAction ℤ :=
  atomically fun gateway => (env.system_ms gateway.tick, { gateway with tick := gateway.tick + 1 })

/-- `event_bus_->publish`. -/
def publish (event : events.Gateway) : GatewayAction Unit := modify (Gateway.publish event)

/-- An event without a time of receipt gets one. -/
def stamp (event : LocationEvent) : GatewayAction LocationEvent := do
  if event.server_recv_ms = 0 then
    let now ← now_ms env
    return { event with server_recv_ms := now }
  else
    return event

/-- `ingest_one`. -/
def ingest_one (event : LocationEvent) : GatewayAction (Except String LocationEvent) := do
  let running ← read Gateway.running
  if !running then
    return .error "gateway service is not running"
  else
    let event ← stamp env event
    let now ← now_ms env
    match validate config.toGatewayConfig now event with
    | .error reason =>
      publish (.IngestBatchRejected event.device_id reason 1)
      return .error reason
    | .ok () =>
      let allowed ← atomically (Gateway.allow env event.device_id)
      if !allowed then
        publish (.GatewayBackpressureApplied "rate limited" 0)
        publish (.IngestBatchRejected event.device_id "rate limited" 1)
        return .error "rate limited"
      else
        let result ← atomically (Gateway.produce_location env config event)
        ofExcept result
        publish (.IngestEventPublished event config.ingest_topic)
        return .ok event

/-- Whether a batch is over the limit, by its size as an `int`. -/
@[irreducible]
def over_limit (batch : List LocationEvent) : Bool := castInt batch.length > config.max_batch_events

/-- `Validator::validate_batch`. -/
def validate_batch (batch : List LocationEvent) : GatewayAction (List (Except String Unit)) :=
  if over_limit config batch then
    return batch.map fun _ => .error "batch too large"
  else
    foldEach batch [] fun results event => do
      let now ← now_ms env
      return results ++ [validate config.toGatewayConfig now event]

/-- Whether a batch is refused as a whole: every event of it is, with this text. -/
def batch_level_reject (results : List (Except String Unit)) : Bool :=
  !results.isEmpty && results.all fun
    | .error reason => reason = "batch too large"
    | .ok () => false

/-- Count one more event, in an `int`. -/
def IngestResult.add (result : IngestResult) : Except String LocationEvent → IngestResult
  | .ok _ => { result with accepted := castInt (result.accepted + 1) }
  | .error reason =>
    { result with rejected := castInt (result.rejected + 1), errors := result.errors ++ [reason] }

/-- The device that a batch is reported under. -/
def batch_device (batch : List LocationEvent) : String :=
  match batch with
  | [] => ""
  | event :: _ => event.device_id

/-- The branch of `ingest_batch` for a batch that is refused as a whole. -/
def reject_batch (batch : List LocationEvent) : GatewayAction IngestResult := do
  let rejected := castInt batch.length
  publish (.IngestBatchRejected (batch_device batch) "batch too large" rejected)
  return { rejected, errors := batch.map fun _ => "batch too large" }

/-- The loop of `ingest_batch` over the events. -/
def ingest_each (batch : List LocationEvent) : GatewayAction IngestResult :=
  foldEach batch {} fun result event => do
    let one ← ingest_one env config event
    return IngestResult.add result one

/-- `ingest_batch`. -/
def ingest_batch (batch : List LocationEvent) : GatewayAction IngestResult := do
  let now ← now_ms env
  publish (.IngestBatchReceived (batch_device batch) batch now)
  let results ← validate_batch env config batch
  if batch_level_reject results then
    reject_batch batch
  else
    ingest_each env config batch

/-- `reject_transport_request`. -/
def reject_transport_request (reason : String) (rejected_count : ℤ) (device_id : String)
    (backpressure : Bool) : GatewayAction IngestResponse := do
  if backpressure then
    publish (.GatewayBackpressureApplied reason config.queue_full_timeout_ms)
    publish (.IngestBatchRejected device_id reason rejected_count)
    return { rejected_count, errors := [reason] }
  else
    publish (.IngestBatchRejected device_id reason rejected_count)
    return { rejected_count, errors := [reason] }

/-- The frame of a request: it is authorized, it takes a lease, and the lease ends with it, also where
an exception leaves. -/
def with_lease (api_key : String) (rejected_count : ℤ) (device_id : String)
    (body : GatewayAction IngestResponse) : GatewayAction IngestResponse :=
  match authorize config api_key with
  | .error reason => reject_transport_request config reason rejected_count device_id false
  | .ok () => do
    let lease ← atomically (Gateway.try_acquire env config)
    match lease with
    | .error reason => reject_transport_request config reason rejected_count device_id true
    | .ok active =>
      let response ← body.tryCatch fun e => do
        modify (Gateway.release active)
        .throw e
      modify (Gateway.release active)
      return response

/-- `handle_ingest_one`. -/
def handle_ingest_one (request : IngestOneRequest) : GatewayAction IngestResponse :=
  with_lease env config request.api_key 1 request.event.device_id do
    let result ← ingest_one env config request.event
    match result with
    | .ok event => return { accepted := true, accepted_count := 1, accepted_events := [event] }
    | .error reason => return { rejected_count := 1, errors := [reason] }

/-- `handle_ingest_batch`. -/
def handle_ingest_batch (request : IngestBatchRequest) : GatewayAction IngestResponse :=
  let rejected_count := if request.events = [] then 1 else castInt request.events.length
  with_lease env config request.api_key rejected_count (batch_device request.events) do
    let result ← ingest_batch env config request.events
    return {
      accepted := result.rejected = 0
      accepted_count := result.accepted
      rejected_count := result.rejected
      errors := result.errors }

end GatewayService

end SignalRoute
