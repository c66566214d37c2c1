import SignalRoute.Runtime.Application

/-!
# Starts and stops

The runtime application over any calls of `start` and `stop`, where each start may fail at any step.

Seen from outside the application is a `Node`: down, or up with a configuration. Each call does to the application
what it does to the node (`Represents.call`). So the services of the configuration run and no others, only their
handlers are on the bus, and a failed start leaves nothing behind that a later one could tell.
-/

namespace SignalRoute.Runtime

open Interaction (Prog firstError)

namespace RuntimeApplication

/-- The services that run. -/
def services (app : RuntimeApplication) : RuntimeRoleSelection where
  gateway := app.gateway.running
  processor := app.processor.running
  query := app.query.running
  geofence := app.geofence.running
  matching := app.matching.running

/-- What is subscribed to while these services run. -/
def subscribed (roles : RuntimeRoleSelection) : Multiset EventType :=
  (if roles.processor then ProcessorService.types else 0) + if roles.geofence then GeofenceEngine.types else 0

section Up

variable {config : Config} {roles : RuntimeRoleSelection} {up : Running} {app : RuntimeApplication}

theorem Up.services (h : Up config roles up app) : app.services = up.toRuntimeRoleSelection := by
  unfold RuntimeApplication.services
  rw [h.gateway, h.processor.running_eq, h.query, h.geofence.running_eq, h.matching]

theorem Up.subscriber_count (h : Up config roles up app) (type : EventType) :
    app.event_bus.subscriber_count type = (subscribed up.toRuntimeRoleSelection).count type := by
  rw [h.owned.subscriber_count, Multiset.map_add, h.processor.types_eq, h.geofence.types_eq]
  rfl

end Up

end RuntimeApplication

/-- A call, and what its steps throw. -/
inductive Call where
  | start (config : Config) (env : Environment)
  | stop (reason : String) (env : Environment)

namespace Call

/-- What its steps throw. -/
def env : Call → Environment
  | .start _ env => env
  | .stop _ env => env

end Call

/-- A node that is down, or up with a configuration. -/
abbrev Node : Type := Option Config

namespace Node

/-- The services that it is up with. -/
def services : Node → RuntimeRoleSelection
  | none => {}
  | some config => select_runtime_roles config

/-- What a call does to a node. -/
def call (node : Node) : Call → Except Failure Unit × Node
  | .start config env =>
    match node with
    | some running => (.ok (), some running)
    | none =>
      match firstError (RuntimeApplication.startup config env) with
      | .ok () => (.ok (), some config)
      | .error failure => (.error (RuntimeApplication.startup_failure failure), none)
  | .stop _ _ => (.ok (), none)

section Start

variable {config : Config} {env : Environment}

theorem call_start_ok (h : firstError (RuntimeApplication.startup config env) = .ok ()) :
    call none (.start config env) = (.ok (), some config) := by
  simp only [call, h]

theorem call_start_error {failure : Failure}
    (h : firstError (RuntimeApplication.startup config env) = .error failure) :
    call none (.start config env) = (.error (RuntimeApplication.startup_failure failure), none) := by
  simp only [call, h]

end Start

/-- What calls leave of a node that is down. -/
def after (history : List Call) : Node := history.foldl (fun node call => (node.call call).2) none

end Node

namespace RuntimeApplication

/-- What a call does. -/
def call (app : RuntimeApplication) : Call → Except Failure Unit × RuntimeApplication
  | .start config env => (start config env).ends .atomic app
  | .stop reason env => (stop env reason).ends .atomic app

/-- What calls leave of a new application. -/
def after (history : List Call) : RuntimeApplication := history.foldl (fun app call => (app.call call).2) {}

/-- The application is what it should be for the node. -/
def Represents : Node → RuntimeApplication → Prop
  | none, app => app.running = false ∧ ∃ config roles, Up config roles {} app
  | some config, app => app.running = true ∧ Up config (select_runtime_roles config) (selected config) app

variable {node : Node} {app : RuntimeApplication}

/-- What runs are the services of the node. -/
theorem Represents.up (h : Represents node app) : ∃ config roles up, Up config roles up app ∧ Within up roles ∧
    (app.running = false → up = {}) ∧ up.toRuntimeRoleSelection = node.services := by
  cases node with
  | none =>
    obtain ⟨-, config, roles, h⟩ := h
    exact ⟨config, roles, {}, h, within_none, fun _ => rfl, rfl⟩
  | some config =>
    obtain ⟨hrunning, h⟩ := h
    refine ⟨config, _, _, h, within_all true true, fun hstopped => ?_, rfl⟩
    exact absurd hrunning (hstopped ▸ Bool.false_ne_true)

/-- A new application is down. -/
theorem represents_none : Represents none {} := by
  have hdown : Up {} {} {} {} :=
    { config_eq := rfl
      roles_eq := rfl
      gateway := rfl
      processor := ⟨rfl, rfl⟩
      query := rfl
      geofence := ⟨rfl, rfl⟩
      matching := rfl
      admin_socket := rfl
      metrics_exporter := rfl
      owned := EventBus.Owned.empty
      strategies := List.nil_subset _ }
  exact ⟨rfl, {}, {}, hdown⟩

theorem start_of_running (hrunning : app.running = true) (config : Config) (env : Environment) :
    app.call (.start config env) = (.ok (), app) := by
  obtain ⟨hresult, hreturned, -⟩ := settles_start_of_running config env hrunning
  exact Prod.ext hresult (hreturned () rfl)

/-- A call does to the application what it does to the node. -/
theorem Represents.call (h : Represents node app) (c : Call) (hflush : c.env .flush = none) :
    (app.call c).1 = (node.call c).1 ∧ Represents (node.call c).2 (app.call c).2 := by
  cases c with
  | start config env =>
    have hflush : env .flush = none := hflush
    cases node with
    | none =>
      obtain ⟨hrunning, config', roles, h⟩ := h
      obtain ⟨hresult, hreturned, hthrown⟩ := settles_start config hflush hrunning h
      cases hstart : firstError (startup config env) with
      | ok a =>
        rw [hstart] at hresult hreturned
        rw [Node.call_start_ok hstart]
        exact ⟨hresult, hreturned a rfl⟩
      | error failure =>
        rw [hstart] at hresult hthrown
        rw [Node.call_start_error hstart]
        obtain ⟨hstopped, h⟩ := hthrown _ rfl
        exact ⟨hresult, hstopped, _, _, h⟩
    | some config' =>
      rw [start_of_running h.1]
      exact ⟨rfl, h⟩
  | stop reason env =>
    obtain ⟨config, roles, up, h, hwithin, hidle, -⟩ := h.up
    obtain ⟨hresult, hreturned, -⟩ := settles_stop hflush reason hwithin hidle h
    obtain ⟨hstopped, h⟩ := hreturned () rfl
    exact ⟨hresult, hstopped, _, _, h⟩

/-- A valid configuration comes up where nothing throws. -/
theorem Represents.start_of_quiet (h : Represents none app) (config : Config) (env : Environment)
    (hvalid : config.validate = .ok ()) (hquiet : ∀ step, env step = none)
    (hstrategy : config.matching.strategy_name ∈ builtin_strategies) :
    (app.call (.start config env)).1 = .ok () ∧ Represents (some config) (app.call (.start config env)).2 := by
  have hcall := h.call (.start config env) (hquiet .flush)
  rw [Node.call_start_ok (startup_of_quiet hvalid hquiet hstrategy)] at hcall
  exact hcall

/-- Any calls do. -/
theorem Represents.calls (h : Represents node app) (history : List Call)
    (hflush : ∀ c ∈ history, c.env .flush = none) :
    Represents (history.foldl (fun node call => (node.call call).2) node)
      (history.foldl (fun app call => (app.call call).2) app) := by
  induction history generalizing node app with
  | nil => exact h
  | cons c history ih =>
    obtain ⟨hc, hflush⟩ := List.forall_mem_cons.mp hflush
    exact ih (h.call c hc).2 hflush

theorem Represents.running (h : Represents node app) : app.running = node.isSome := by
  cases node with
  | none => exact h.1
  | some config => exact h.1

theorem Represents.services (h : Represents node app) : app.services = node.services := by
  obtain ⟨config, roles, up, h, -, -, hup⟩ := h.up
  exact h.services.trans hup

theorem Represents.subscriber_count (h : Represents node app) (type : EventType) :
    app.event_bus.subscriber_count type = (subscribed node.services).count type := by
  obtain ⟨config, roles, up, h, -, -, hup⟩ := h.up
  rw [← hup]
  exact h.subscriber_count type

/-- After any calls in which the last flush of the processor does not throw: the services that a running
application's configuration selects run and no others, none run in one that does not run, and its bus is empty.
A start then does just what it does to a new application, or nothing where the application runs. -/
theorem start_stop_all_or_nothing (history : List Call) (hflush : ∀ c ∈ history, c.env .flush = none)
    (config : Config) (env : Environment) (henv : env .flush = none) :
    let app := after history
    let again := app.call (.start config env)
    let fresh := call {} (.start config env)
    (app.running = true → app.services = select_runtime_roles app.config) ∧
      (app.running = false → app.services = {} ∧ ∀ type, app.event_bus.subscriber_count type = 0) ∧
      (app.running = false → again.1 = fresh.1 ∧ (again.1 = .ok () → again.2.config = config) ∧
        again.2.running = fresh.2.running ∧ again.2.services = fresh.2.services ∧
        ∀ type, again.2.event_bus.subscriber_count type = fresh.2.event_bus.subscriber_count type) ∧
      (app.running = true → again = (.ok (), app)) := by
  intro app again fresh
  have happ : Represents (Node.after history) app := represents_none.calls history hflush
  obtain ⟨hresult, hfresh⟩ := represents_none.call (.start config env) henv
  cases hnode : Node.after history with
  | none =>
    rw [hnode] at happ
    have hstopped : app.running = false := happ.running
    obtain ⟨hagain_result, hagain⟩ := happ.call (.start config env) henv
    have hconfig : again.1 = .ok () → again.2.config = config := by
      obtain ⟨-, config', roles, hup⟩ := happ
      obtain ⟨hsettled, hreturned, -⟩ := settles_start config henv hstopped hup
      exact fun hok => (hreturned () (hsettled.symm.trans hok)).2.config_eq
    refine ⟨fun hrunning => ?_, fun _ => ⟨happ.services, fun type => ?_⟩,
      fun _ => ⟨?_, hconfig, ?_, ?_, fun type => ?_⟩, fun hrunning => ?_⟩
    · exact absurd hrunning (hstopped ▸ Bool.false_ne_true)
    · exact happ.subscriber_count type
    · exact hagain_result.trans hresult.symm
    · exact hagain.running.trans hfresh.running.symm
    · exact hagain.services.trans hfresh.services.symm
    · exact (hagain.subscriber_count type).trans (hfresh.subscriber_count type).symm
    · exact absurd hrunning (hstopped ▸ Bool.false_ne_true)
  | some running =>
    rw [hnode] at happ
    have hrunning : app.running = true := happ.running
    refine ⟨fun _ => ?_, fun hstopped => ?_, fun hstopped => ?_, fun _ => start_of_running hrunning config env⟩
    · rw [happ.2.config_eq]
      exact happ.services
    · exact absurd hrunning (hstopped ▸ Bool.false_ne_true)
    · exact absurd hrunning (hstopped ▸ Bool.false_ne_true)

theorem start_stop_all_or_nothing_restart :
    let config : Config := { postgis := { dsn := "postgres" } }
    let failing : Environment := fun step => if step = .load_fences then some (.std "unavailable") else none
    let quiet : Environment := fun _ => none
    let app := after [.start config failing, .start config quiet, .stop "" quiet]
    let again := app.call (.start config failing)
    let fresh := call {} (.start config failing)
    (app.running = true → app.services = select_runtime_roles app.config) ∧
      (app.running = false → app.services = {} ∧ ∀ type, app.event_bus.subscriber_count type = 0) ∧
      (app.running = false → again.1 = fresh.1 ∧ (again.1 = .ok () → again.2.config = config) ∧
        again.2.running = fresh.2.running ∧ again.2.services = fresh.2.services ∧
        ∀ type, again.2.event_bus.subscriber_count type = fresh.2.event_bus.subscriber_count type) ∧
      (app.running = true → again = (.ok (), app)) := by
  intro config failing quiet
  have hflush : ∀ c ∈ [Call.start config failing, .start config quiet, .stop "" quiet], c.env .flush = none := by
    simp [Call.env, failing, quiet]
  exact start_stop_all_or_nothing _ hflush config failing rfl

/-- A start of an application that runs returns, and the services of its configuration do not run. -/
theorem start_while_running :
    let config (role : String) : Config := { server := { role := role }, postgis := { dsn := "postgres" } }
    let quiet : Environment := fun _ => none
    let again := (after [.start (config "gateway") quiet]).call (.start (config "query") quiet)
    let fresh := call {} (.start (config "query") quiet)
    (config "gateway").validate = .ok () ∧ (config "query").validate = .ok () ∧ again.1 = .ok () ∧
      fresh.1 = .ok () ∧ again.2.services = { gateway := true } ∧ fresh.2.services = { query := true } := by
  intro config quiet again fresh
  have hgateway : (config "gateway").validate = .ok () := Config.validate_default (by decide) "postgres"
  have hquery : (config "query").validate = .ok () := Config.validate_default (by decide) "postgres"
  obtain ⟨-, happ⟩ := represents_none.start_of_quiet _ quiet hgateway (fun _ => rfl) (by decide)
  obtain ⟨hfresh_result, hfresh⟩ :=
    represents_none.start_of_quiet _ quiet hquery (fun _ => rfl) (by decide)
  have hagain := start_of_running happ.running (config "query") quiet
  refine ⟨hgateway, hquery, congrArg Prod.fst hagain, hfresh_result, ?_, hfresh.services⟩
  exact (congrArg (fun result => result.2.services) hagain).trans happ.services

end RuntimeApplication

end SignalRoute.Runtime
