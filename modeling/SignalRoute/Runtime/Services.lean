import SignalRoute.Interaction.Outcome
import SignalRoute.Events.Ownership
import SignalRoute.Config.Validate
import SignalRoute.Admin.Probes

/-!
# Services that start and stop

`start` and `stop` of the services in `src/gateway`, `src/processor`, `src/query`, `src/geofence` and
`src/matching`, and of the two socket servers in `src/runtime`. A start makes the members of the service anew,
one after the other, and runs only at its end; what a failed start has made stays until the next one.

What can throw are the clients, the buffer of the history writer, the load of the fences, the cell index, the
strategy by its name, the sockets, and the flush with which the processor stops. An `Environment` says for one
call what each of them throws, if it does.

A start settles by what it tries alone: it comes to the first exception, with the service as idle as before and
no entry on the bus, or it runs (`settles_start`).
-/

namespace SignalRoute.Runtime

open Interaction (Prog Atomic Part firstError)

/-- The services of the runtime. -/
inductive Service where
  | gateway
  | processor
  | query
  | geofence
  | matching
  deriving DecidableEq

/-- What a start or a stop does that may throw. -/
inductive Step where
  | validation
  | kafka_consumer (service : Service)
  | kafka_producer (service : Service)
  | redis (service : Service)
  | postgres (service : Service)
  | h3 (service : Service)
  | history_writer
  | load_fences
  | strategy
  | admin_socket
  | metrics_exporter
  | flush
  deriving DecidableEq

/-- An exception, and what threw it. -/
structure Failure where
  step : Step
  exception : Exception
  deriving DecidableEq

/-- What each step throws in a call, if it does. -/
abbrev Environment : Type := Step → Option Exception

/-- A step that throws what the environment says. -/
def Environment.attempt (env : Environment) (step : Step) : Except Failure Unit :=
  match env step with
  | none => .ok ()
  | some e => .error ⟨step, e⟩

/-- The constructor of `H3Index`. -/
def attempt_h3 (service : Service) (resolution : ℤ) : Except Failure Unit :=
  if resolution < 0 ∨ 15 < resolution then
    .error ⟨.h3 service, .std ("H3 resolution must be 0-15, got: " ++ toString resolution)⟩
  else .ok ()

/-- The types of the events that the handlers of the runtime subscribe to. -/
inductive EventType where
  | IngestBatchReceived
  | IngestBatchRejected
  | IngestEventPublished
  | LocationAccepted
  | LocationDuplicateRejected
  | LocationStaleRejected
  | StateWriteRequested
  | StateWriteSucceeded
  | StateWriteRejected
  | TripHistoryWriteRequested
  | GeofenceEvaluationRequested
  | GeofenceEntered
  | GeofenceExited
  | GeofenceDwellDetected
  | MatchRequestReceived
  | MatchCompleted
  | MatchFailed
  | MatchExpired
  deriving DecidableEq

/-- The classes whose objects subscribe. -/
inductive Subscriber where
  | CompositionRoot
  | ProcessorEventHandlers
  | MetricsEventHandlers
  | GeofenceEventHandlers
  deriving DecidableEq

/-- What an object of the class subscribes to when it is wired. -/
def Subscriber.types : Subscriber → List EventType
  | .CompositionRoot => [.LocationAccepted, .StateWriteSucceeded]
  | .ProcessorEventHandlers => [.StateWriteRequested, .TripHistoryWriteRequested]
  | .MetricsEventHandlers =>
    [.IngestBatchReceived, .IngestBatchRejected, .IngestEventPublished, .LocationAccepted,
      .LocationDuplicateRejected, .LocationStaleRejected, .StateWriteRejected, .GeofenceEntered, .GeofenceExited,
      .GeofenceDwellDetected, .MatchRequestReceived, .MatchCompleted, .MatchFailed, .MatchExpired]
  | .GeofenceEventHandlers => [.GeofenceEvaluationRequested]

/-- The bus of the runtime. -/
abbrev Bus : Type := EventBus EventType Subscriber

/-- The `subscriptions_` of a handler object. One that does not exist has none. -/
abbrev Subscriptions : Type := List (Token EventType)

/-- A service that has the bus at hand. -/
structure OnBus (S : Type) where
  service : S
  bus : Bus

/-- The members of a service that say whether it runs. -/
structure Lifecycle where
  running : Bool := false
  lifecycle_state : ServiceLifecycleState := .Stopped

/-- A stop that does nothing where nothing runs. -/
def Lifecycle.stop (service : Lifecycle) : Lifecycle :=
  if !service.running then service else { running := false, lifecycle_state := .Stopped }

theorem Lifecycle.running_stop (service : Lifecycle) : service.stop.running = false := by
  unfold stop
  cases h : service.running with
  | false => exact h
  | true => rfl

/-- `GatewayService`. -/
structure GatewayService extends Lifecycle

/-- `QueryService`. -/
structure QueryService extends Lifecycle

/-- `MatchingService`. -/
structure MatchingService extends Lifecycle

/-- `ProcessorService`. The thread of its loop can be joined while `worker` holds. -/
structure ProcessorService extends Lifecycle where
  should_stop : Bool := false
  worker : Bool := false
  history_writer : Bool := false
  composition_root : Subscriptions := []
  processor_handlers : Subscriptions := []
  metrics_handlers : Subscriptions := []

/-- `GeofenceEngine`. -/
structure GeofenceEngine extends Lifecycle where
  handlers : Subscriptions := []

/-- A matching service that has the `StrategyRegistry` of the process at hand, by the names in it. -/
structure OnRegistry where
  service : MatchingService
  strategies : List String

section Programs

variable (config : Config) (env : Environment)

/-- `GatewayService::start_with_bus`. -/
def GatewayService.start_with_bus : Prog (Atomic GatewayService) Failure Unit := do
  let running ← Prog.read fun service : GatewayService => service.running
  Prog.when (!running) do
    Prog.modify fun service => { service with lifecycle_state := .Starting }
    Prog.ofExcept (env.attempt (.kafka_producer .gateway))
    Prog.modify fun service => { service with running := true, lifecycle_state := .Ready }

/-- `GatewayService::stop`. What `KafkaProducer::flush` does not deliver is not reported. -/
def GatewayService.stop (service : GatewayService) : GatewayService := ⟨service.toLifecycle.stop⟩

/-- `QueryService::start`. -/
def QueryService.start : Prog (Atomic QueryService) Failure Unit := do
  let running ← Prog.read fun service : QueryService => service.running
  Prog.when (!running) do
    Prog.modify fun service => { service with lifecycle_state := .Starting }
    Prog.ofExcept (env.attempt (.redis .query))
    Prog.ofExcept (env.attempt (.postgres .query))
    Prog.ofExcept (attempt_h3 .query config.spatial.h3_resolution)
    Prog.modify fun service => { service with running := true, lifecycle_state := .Ready }

/-- `QueryService::stop`. -/
def QueryService.stop (service : QueryService) : QueryService := ⟨service.toLifecycle.stop⟩

/-- `StrategyRegistry::create`: the factories in the registry make a strategy. -/
def create_strategy (name : String) (strategies : List String) : Except Failure Unit :=
  if name ∈ strategies then .ok () else .error ⟨.strategy, .std ("Unknown matching strategy: " ++ name)⟩

/-- `register_builtin_strategies`. -/
def register_builtin_strategies (strategies : List String) : List String :=
  (strategies.insert "default").insert "nearest"

/-- `MatchingService::start_with_bus`. -/
def MatchingService.start_with_bus : Prog (Atomic OnRegistry) Failure Unit := do
  let running ← Prog.read fun w : OnRegistry => w.service.running
  Prog.when (!running) do
    Prog.modify fun w => { w with service := { w.service with lifecycle_state := .Starting } }
    Prog.modify fun w => { w with strategies := register_builtin_strategies w.strategies }
    let strategies ← Prog.read fun w : OnRegistry => w.strategies
    Prog.ofExcept (create_strategy config.matching.strategy_name strategies)
    Prog.ofExcept (env.attempt (.redis .matching))
    Prog.ofExcept (attempt_h3 .matching config.spatial.h3_resolution)
    Prog.ofExcept (env.attempt (.kafka_producer .matching))
    Prog.ofExcept (env.attempt (.kafka_consumer .matching))
    Prog.modify fun w => { w with service := { w.service with running := true, lifecycle_state := .Ready } }

/-- `MatchingService::stop`, which does not ask whether the service runs. -/
def MatchingService.stop (service : MatchingService) : MatchingService :=
  { service with running := false, lifecycle_state := .Stopped }

/-- `GeofenceEngine::start_with_bus`. -/
def GeofenceEngine.start_with_bus : Prog (Atomic (OnBus GeofenceEngine)) Failure Unit := do
  let running ← Prog.read fun w : OnBus GeofenceEngine => w.service.running
  Prog.when (!running) do
    Prog.modify fun w => { w with service := { w.service with lifecycle_state := .Starting } }
    Prog.ofExcept (env.attempt (.redis .geofence))
    Prog.ofExcept (env.attempt (.postgres .geofence))
    Prog.ofExcept (env.attempt (.kafka_producer .geofence))
    Prog.ofExcept (env.attempt .load_fences)
    -- The handlers of an earlier start are destroyed.
    Prog.modify fun w =>
      { service := { w.service with handlers := [] }, bus := EventBus.clear w.service.handlers w.bus }
    Prog.modify fun w =>
      let (tokens, bus) := EventBus.wire .GeofenceEventHandlers Subscriber.GeofenceEventHandlers.types w.bus
      { service := { w.service with handlers := w.service.handlers ++ tokens }, bus := bus }
    Prog.modify fun w => { w with service := { w.service with running := true, lifecycle_state := .Ready } }

/-- `GeofenceEngine::stop`. -/
def GeofenceEngine.stop (w : OnBus GeofenceEngine) : OnBus GeofenceEngine :=
  if !w.service.running then w
  else
    { service := { w.service with handlers := [], running := false, lifecycle_state := .Stopped }
      bus := EventBus.clear w.service.handlers w.bus }

/-- `ProcessorService::start_with_bus`. -/
def ProcessorService.start_with_bus : Prog (Atomic (OnBus ProcessorService)) Failure Unit := do
  let running ← Prog.read fun w : OnBus ProcessorService => w.service.running
  Prog.when (!running) do
    Prog.modify fun w => { w with service := { w.service with lifecycle_state := .Starting, should_stop := false } }
    Prog.ofExcept (env.attempt (.kafka_consumer .processor))
    Prog.ofExcept (env.attempt (.kafka_producer .processor))
    Prog.ofExcept (env.attempt (.redis .processor))
    Prog.ofExcept (env.attempt (.postgres .processor))
    Prog.ofExcept (attempt_h3 .processor config.spatial.h3_resolution)
    Prog.ofExcept (env.attempt .history_writer)
    Prog.modify fun w => { w with service := { w.service with history_writer := true } }
    -- The handlers of an earlier start are destroyed.
    Prog.modify fun w =>
      { service := { w.service with composition_root := [] }, bus := EventBus.clear w.service.composition_root w.bus }
    Prog.modify fun w =>
      { service := { w.service with processor_handlers := [] }
        bus := EventBus.clear w.service.processor_handlers w.bus }
    Prog.modify fun w =>
      { service := { w.service with metrics_handlers := [] }, bus := EventBus.clear w.service.metrics_handlers w.bus }
    Prog.modify fun w =>
      let (tokens, bus) := EventBus.wire .CompositionRoot Subscriber.CompositionRoot.types w.bus
      { service := { w.service with composition_root := w.service.composition_root ++ tokens }, bus := bus }
    Prog.modify fun w =>
      let (tokens, bus) := EventBus.wire .ProcessorEventHandlers Subscriber.ProcessorEventHandlers.types w.bus
      { service := { w.service with processor_handlers := w.service.processor_handlers ++ tokens }, bus := bus }
    Prog.modify fun w =>
      let (tokens, bus) := EventBus.wire .MetricsEventHandlers Subscriber.MetricsEventHandlers.types w.bus
      { service := { w.service with metrics_handlers := w.service.metrics_handlers ++ tokens }, bus := bus }
    Prog.modify fun w =>
      { w with service := { w.service with running := true, lifecycle_state := .Ready, worker := true } }

/-- `ProcessorService::stop`. -/
def ProcessorService.stop : Prog (Atomic (OnBus ProcessorService)) Failure Unit := do
  let running ← Prog.read fun w : OnBus ProcessorService => w.service.running
  Prog.when running do
    Prog.modify fun w =>
      { w with service := { w.service with lifecycle_state := .Draining, should_stop := true, worker := false } }
    let history_writer ← Prog.read fun w : OnBus ProcessorService => w.service.history_writer
    Prog.when history_writer (Prog.ofExcept (env.attempt .flush))
    Prog.modify fun w =>
      { service := { w.service with processor_handlers := [] }
        bus := EventBus.clear w.service.processor_handlers w.bus }
    Prog.modify fun w =>
      { service := { w.service with metrics_handlers := [] }, bus := EventBus.clear w.service.metrics_handlers w.bus }
    Prog.modify fun w =>
      { service := { w.service with composition_root := [] }, bus := EventBus.clear w.service.composition_root w.bus }
    Prog.modify fun w => { w with service := { w.service with running := false, lifecycle_state := .Stopped } }

end Programs

section Sockets

/-- `AdminSocketServer` and `MetricsExporter`. The descriptor is open just while the server runs. -/
structure SocketServer extends Lifecycle

/-- The exceptions of a step. -/
def at_step (step : Step) (r : Except Exception Unit) : Except Failure Unit := r.mapError (⟨step, ·⟩)

/-- What `AdminSocketServer::start` checks of its endpoint. -/
def admin_socket_checks (config : Config) : Except Exception Unit :=
  if config.observability.admin_request_timeout_ms ≤ 0 then
    .error (.std "admin socket read_timeout_ms must be positive")
  else if config.observability.admin_max_request_bytes = 0 then
    .error (.std "admin socket max_request_bytes must be positive")
  else .ok ()

/-- What `MetricsExporter::start` checks of its endpoint. -/
def metrics_exporter_checks (config : Config) : Except Exception Unit :=
  if config.observability.metrics_path.toList.head? ≠ some '/' then
    .error (.std ("metrics exporter path must start with \x27/\x27: " ++ config.observability.metrics_path))
  else if config.observability.admin_request_timeout_ms ≤ 0 then
    .error (.std "metrics exporter read_timeout_ms must be positive")
  else if config.observability.admin_max_request_bytes = 0 then
    .error (.std "metrics exporter max_request_bytes must be positive")
  else .ok ()

namespace SocketServer

variable (step : Step) (checks : Except Exception Unit) (env : Environment) (server : SocketServer)

/-- `start`, with the server as it leaves it where it throws, too. -/
def start : Except Failure Unit × SocketServer :=
  if server.running then (.ok (), server)
  else
    match checks with
    | .error e => (.error ⟨step, e⟩, server)
    | .ok () =>
      match env.attempt step with
      | .error e => (.error e, { server with lifecycle_state := .Failed })
      | .ok () => (.ok (), { server with running := true, lifecycle_state := .Ready })

/-- `stop`. -/
def stop : SocketServer := ⟨server.toLifecycle.stop⟩

/-- What a start tries. -/
def attempts : List (Except Failure Unit) := [at_step step checks, env.attempt step]

variable {server}

/-- A start of a server that does not run. -/
theorem start_of_idle (h : server.running = false) :
    (server.start step checks env).1 = firstError (attempts step checks env) ∧
      ((server.start step checks env).1 = .ok () → (server.start step checks env).2.running = true) := by
  unfold start
  rw [h, if_neg Bool.false_ne_true]
  cases checks with
  | error e => exact ⟨rfl, nofun⟩
  | ok a =>
    dsimp only
    unfold attempts
    cases env.attempt step with
    | error e => exact ⟨rfl, nofun⟩
    | ok a => exact ⟨rfl, fun _ => rfl⟩

/-- A server that exists is stopped. -/
theorem running_map_stop {server : Option SocketServer} {enabled up : Bool}
    (h : server.map (fun server => server.running) = if enabled then some up else none) :
    (server.map stop).map (fun server => server.running) = if enabled then some false else none := by
  cases server with
  | none =>
    cases enabled with
    | false => rfl
    | true => exact absurd h nofun
  | some server =>
    cases enabled with
    | false => exact absurd h nofun
    | true => exact congrArg some server.toLifecycle.running_stop

end SocketServer

end Sockets

section Starts

variable {config : Config} {env : Environment}

/-- The cell index takes every resolution that is valid. -/
theorem attempt_h3_of_valid (h : config.validate = .ok ()) (service : Service) :
    attempt_h3 service config.spatial.h3_resolution = .ok () := by
  obtain ⟨⟨hlow, hhigh⟩, -⟩ := config.spatial.validate_ok_iff.mp (Config.validate_sections h).1
  exact if_neg (not_or.mpr ⟨not_lt.mpr hlow, not_lt.mpr hhigh⟩)

/-- The sockets take every endpoint that is valid. -/
theorem socket_checks_of_valid (h : config.validate = .ok ()) :
    admin_socket_checks config = .ok () ∧ metrics_exporter_checks config = .ok () := by
  have hsection := (Config.validate_sections h).2
  unfold Config.ObservabilitySection.validate Config.require_path Config.require_positive at hsection
  simp only [Config.seq_ok_iff, Config.require_ok_iff, not_le] at hsection
  obtain ⟨-, -, ⟨-, hpath⟩, -, -, -, htimeout, hbytes, -⟩ := hsection
  have htimeout := htimeout.not_ge
  have hbytes := hbytes.ne'
  constructor
  · exact (if_neg htimeout).trans (if_neg hbytes)
  · exact (if_neg (not_not.mpr hpath)).trans ((if_neg htimeout).trans (if_neg hbytes))

/-- What a start of the gateway tries. -/
def GatewayService.attempts (env : Environment) : List (Except Failure Unit) := [env.attempt (.kafka_producer .gateway)]

theorem GatewayService.settles_start {service : GatewayService} (h : service.running = false) :
    (GatewayService.start_with_bus env).Settles service (firstError (GatewayService.attempts env))
      (fun service => service.running = true) fun service => service.running = false := by
  unfold GatewayService.start_with_bus
  refine Prog.settles_read_bind ?_
  rw [h]
  refine Prog.settles_modify_bind (Prog.settles_ofExcept_bind h fun _ => ?_)
  exact Prog.settles_modify rfl

/-- What a start of the query service tries. -/
def QueryService.attempts (config : Config) (env : Environment) : List (Except Failure Unit) :=
  [env.attempt (.redis .query), env.attempt (.postgres .query), attempt_h3 .query config.spatial.h3_resolution]

theorem QueryService.settles_start {service : QueryService} (h : service.running = false) :
    (QueryService.start config env).Settles service (firstError (QueryService.attempts config env))
      (fun service => service.running = true) fun service => service.running = false := by
  unfold QueryService.start
  refine Prog.settles_read_bind ?_
  rw [h]
  refine Prog.settles_modify_bind (Prog.settles_ofExcept_bind h fun _ => ?_)
  refine Prog.settles_ofExcept_bind h fun _ => ?_
  refine Prog.settles_ofExcept_bind h fun _ => ?_
  exact Prog.settles_modify rfl

/-- What the runtime ever registers. -/
def builtin_strategies : List String := register_builtin_strategies []

/-- What a start of the matching service tries. -/
def MatchingService.attempts (config : Config) (env : Environment) : List (Except Failure Unit) :=
  [create_strategy config.matching.strategy_name builtin_strategies, env.attempt (.redis .matching),
    attempt_h3 .matching config.spatial.h3_resolution, env.attempt (.kafka_producer .matching),
    env.attempt (.kafka_consumer .matching)]

/-- Whatever of them is in the registry, it has all of them then. -/
theorem mem_register_builtin_strategies {strategies : List String} (h : strategies ⊆ builtin_strategies)
    (name : String) : name ∈ register_builtin_strategies strategies ↔ name ∈ builtin_strategies := by
  have hmem : ∀ names : List String,
      name ∈ register_builtin_strategies names ↔ name = "nearest" ∨ name = "default" ∨ name ∈ names := by
    intro names
    unfold register_builtin_strategies
    rw [List.mem_insert_iff, List.mem_insert_iff]
  constructor
  · intro hname
    obtain hname | hname | hname := (hmem strategies).mp hname
    · exact (hmem []).mpr (.inl hname)
    · exact (hmem []).mpr (.inr (.inl hname))
    · exact h hname
  · intro hname
    obtain hname | hname | hname := (hmem []).mp hname
    · exact (hmem strategies).mpr (.inl hname)
    · exact (hmem strategies).mpr (.inr (.inl hname))
    · exact absurd hname List.not_mem_nil

theorem MatchingService.settles_start {w : OnRegistry} (h : w.service.running = false)
    (hstrategies : w.strategies ⊆ builtin_strategies) :
    (MatchingService.start_with_bus config env).Settles w (firstError (MatchingService.attempts config env))
      (fun w => w.service.running = true ∧ w.strategies ⊆ builtin_strategies)
      fun w => w.service.running = false ∧ w.strategies ⊆ builtin_strategies := by
  have hmem := mem_register_builtin_strategies hstrategies
  have hsubset : register_builtin_strategies w.strategies ⊆ builtin_strategies := fun name hname =>
    (hmem name).mp hname
  have hcreate : create_strategy config.matching.strategy_name (register_builtin_strategies w.strategies) =
      create_strategy config.matching.strategy_name builtin_strategies := if_congr (hmem _) rfl rfl
  unfold MatchingService.start_with_bus
  refine Prog.settles_read_bind ?_
  rw [h]
  refine Prog.settles_modify_bind (Prog.settles_modify_bind (Prog.settles_read_bind ?_))
  unfold MatchingService.attempts
  rw [← hcreate]
  refine Prog.settles_ofExcept_bind ⟨h, hsubset⟩ fun _ => ?_
  refine Prog.settles_ofExcept_bind ⟨h, hsubset⟩ fun _ => ?_
  refine Prog.settles_ofExcept_bind ⟨h, hsubset⟩ fun _ => ?_
  refine Prog.settles_ofExcept_bind ⟨h, hsubset⟩ fun _ => ?_
  refine Prog.settles_ofExcept_bind ⟨h, hsubset⟩ fun _ => ?_
  exact Prog.settles_modify ⟨rfl, hsubset⟩

/-- A service runs and has subscribed to its types, or it does not and has no subscription. -/
structure Wired (running : Bool) (tokens : Multiset (Token EventType)) (types : Multiset EventType) (up : Bool) :
    Prop where
  running_eq : running = up
  types_eq : tokens.map Prod.fst = if up then types else 0

namespace GeofenceEngine

/-- Its active subscriptions. -/
def tokens (service : GeofenceEngine) : Multiset (Token EventType) := service.handlers

/-- The types that it subscribes to. -/
def types : Multiset EventType := Subscriber.GeofenceEventHandlers.types

/-- It runs, or it does not. -/
def Is (service : GeofenceEngine) (up : Bool) : Prop := Wired service.running service.tokens types up

/-- What a start tries. -/
def attempts (env : Environment) : List (Except Failure Unit) :=
  [env.attempt (.redis .geofence), env.attempt (.postgres .geofence), env.attempt (.kafka_producer .geofence),
    env.attempt .load_fences]

variable {w : OnBus GeofenceEngine} {rest : Multiset (Token EventType)}

theorem settles_start (h : w.service.Is false) (howned : EventBus.Owned w.bus (w.service.tokens + rest)) :
    (start_with_bus env).Settles w (firstError (attempts env))
      (fun w => w.service.Is true ∧ EventBus.Owned w.bus (w.service.tokens + rest))
      fun w => w.service.Is false ∧ EventBus.Owned w.bus (w.service.tokens + rest) := by
  have hrunning : w.service.running = false := h.running_eq
  have hwire := howned.clear.wire Subscriber.GeofenceEventHandlers Subscriber.GeofenceEventHandlers.types
  unfold start_with_bus
  refine Prog.settles_read_bind ?_
  rw [hrunning]
  refine Prog.settles_modify_bind (Prog.settles_ofExcept_bind ⟨h, howned⟩ fun _ => ?_)
  refine Prog.settles_ofExcept_bind ⟨h, howned⟩ fun _ => ?_
  refine Prog.settles_ofExcept_bind ⟨h, howned⟩ fun _ => ?_
  refine Prog.settles_ofExcept_bind ⟨h, howned⟩ fun _ => ?_
  refine Prog.settles_modify_bind (Prog.settles_modify_bind (Prog.settles_modify ?_))
  exact ⟨⟨rfl, congrArg _ hwire.2⟩, hwire.1⟩

theorem owned_stop {up : Bool} (h : w.service.Is up) (howned : EventBus.Owned w.bus (w.service.tokens + rest)) :
    (stop w).service.Is false ∧ EventBus.Owned (stop w).bus ((stop w).service.tokens + rest) := by
  have hrunning : w.service.running = up := h.running_eq
  unfold stop
  rw [hrunning]
  cases up with
  | false => exact ⟨h, howned⟩
  | true => exact ⟨⟨rfl, rfl⟩, (zero_add rest).symm ▸ howned.clear⟩

end GeofenceEngine

namespace ProcessorService

/-- Its active subscriptions. -/
def tokens (service : ProcessorService) : Multiset (Token EventType) :=
  service.composition_root + (service.processor_handlers + service.metrics_handlers : Multiset (Token EventType))

/-- The types that it subscribes to. -/
def types : Multiset EventType :=
  Subscriber.CompositionRoot.types +
    (Subscriber.ProcessorEventHandlers.types + Subscriber.MetricsEventHandlers.types : Multiset EventType)

/-- It runs, or it does not. -/
def Is (service : ProcessorService) (up : Bool) : Prop := Wired service.running service.tokens types up

/-- What a start tries. -/
def attempts (config : Config) (env : Environment) : List (Except Failure Unit) :=
  [env.attempt (.kafka_consumer .processor), env.attempt (.kafka_producer .processor),
    env.attempt (.redis .processor), env.attempt (.postgres .processor),
    attempt_h3 .processor config.spatial.h3_resolution, env.attempt .history_writer]

variable {w : OnBus ProcessorService} {rest : Multiset (Token EventType)}

theorem settles_start (h : w.service.Is false) (howned : EventBus.Owned w.bus (w.service.tokens + rest)) :
    (start_with_bus config env).Settles w (firstError (attempts config env))
      (fun w => w.service.Is true ∧ EventBus.Owned w.bus (w.service.tokens + rest))
      fun w => w.service.Is false ∧ EventBus.Owned w.bus (w.service.tokens + rest) := by
  have hrunning : w.service.running = false := h.running_eq
  have hcleared : EventBus.Owned (EventBus.clear w.service.metrics_handlers
      (EventBus.clear w.service.processor_handlers (EventBus.clear w.service.composition_root w.bus))) rest := by
    unfold tokens at howned
    rw [add_assoc, add_assoc] at howned
    exact howned.clear.clear.clear
  obtain ⟨hroot, hroot_types⟩ := hcleared.wire Subscriber.CompositionRoot Subscriber.CompositionRoot.types
  obtain ⟨hhandlers, hhandlers_types⟩ :=
    hroot.wire Subscriber.ProcessorEventHandlers Subscriber.ProcessorEventHandlers.types
  obtain ⟨hmetrics, hmetrics_types⟩ :=
    hhandlers.wire Subscriber.MetricsEventHandlers Subscriber.MetricsEventHandlers.types
  unfold start_with_bus
  refine Prog.settles_read_bind ?_
  rw [hrunning]
  refine Prog.settles_modify_bind (Prog.settles_ofExcept_bind ⟨h, howned⟩ fun _ => ?_)
  refine Prog.settles_ofExcept_bind ⟨h, howned⟩ fun _ => ?_
  refine Prog.settles_ofExcept_bind ⟨h, howned⟩ fun _ => ?_
  refine Prog.settles_ofExcept_bind ⟨h, howned⟩ fun _ => ?_
  refine Prog.settles_ofExcept_bind ⟨h, howned⟩ fun _ => ?_
  refine Prog.settles_ofExcept_bind ⟨h, howned⟩ fun _ => ?_
  refine Prog.settles_modify_bind (Prog.settles_modify_bind (Prog.settles_modify_bind (Prog.settles_modify_bind ?_)))
  refine Prog.settles_modify_bind (Prog.settles_modify_bind (Prog.settles_modify_bind (Prog.settles_modify ?_)))
  refine ⟨⟨rfl, ?_⟩, ?_⟩
  · unfold tokens
    rw [Multiset.map_add, Multiset.map_add]
    exact congrArg₂ _ (congrArg _ hroot_types)
      (congrArg₂ _ (congrArg _ hhandlers_types) (congrArg _ hmetrics_types))
  · have hcomm : ∀ root handlers metrics : Multiset (Token EventType),
        root + (handlers + metrics) + rest = metrics + (handlers + (root + rest)) := fun _ _ _ => by ac_rfl
    exact (congrArg (EventBus.Owned _) (hcomm _ _ _)).mpr hmetrics

/-- A stop where the flush succeeds. -/
theorem settles_stop {up : Bool} (hflush : env .flush = none) (h : w.service.Is up)
    (howned : EventBus.Owned w.bus (w.service.tokens + rest)) :
    (stop env).Settles w (.ok ())
      (fun w => w.service.Is false ∧ EventBus.Owned w.bus (w.service.tokens + rest)) fun _ => False := by
  have hrunning : w.service.running = up := h.running_eq
  have hattempt : env.attempt .flush = .ok () := by
    unfold Environment.attempt
    rw [hflush]
  have hcleared : EventBus.Owned (EventBus.clear w.service.composition_root
      (EventBus.clear w.service.metrics_handlers (EventBus.clear w.service.processor_handlers w.bus))) rest := by
    have hcomm : w.service.tokens + rest =
        ↑w.service.processor_handlers + (↑w.service.metrics_handlers + (↑w.service.composition_root + rest)) := by
      unfold tokens
      ac_rfl
    rw [hcomm] at howned
    exact howned.clear.clear.clear
  unfold stop
  refine Prog.settles_read_bind ?_
  rw [hrunning]
  cases up with
  | false => exact Prog.settles_pure ⟨h, howned⟩
  | true =>
    refine Prog.settles_modify_bind (Prog.settles_read_bind ?_)
    have hwritten : ∀ b, Prog.when b (Prog.ofExcept (env.attempt .flush)) =
        (Prog.pure () : Prog (Atomic (OnBus ProcessorService)) Failure Unit) := by
      intro b
      rw [hattempt]
      exact ite_self _
    rw [hwritten]
    refine Prog.settles_modify_bind (Prog.settles_modify_bind (Prog.settles_modify_bind (Prog.settles_modify ?_)))
    exact ⟨⟨rfl, rfl⟩, (zero_add rest).symm ▸ hcleared⟩

end ProcessorService

end Starts

end SignalRoute.Runtime
