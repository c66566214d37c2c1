import SignalRoute.Runtime.Services

/-!
# The runtime application

`RuntimeApplication` in `src/runtime`: it starts the services that the role of a configuration selects, and its
two sockets, in a fixed order. A start that fails anywhere stops all that the role selects, whether it has been
started or not, and throws.

`Up` says which services and sockets run, and that the handlers on the bus are theirs. Each stage of a start or
a stop takes the application from one such state to the next (`Moves`), so a start ends with all that is selected
up or with nothing (`settles_start`), whatever earlier starts have left in the services.
-/

namespace SignalRoute.Runtime

open Interaction (Prog Atomic Part firstError handled)

/-- `RuntimeRoleSelection`. -/
structure RuntimeRoleSelection where
  gateway : Bool := false
  processor : Bool := false
  query : Bool := false
  geofence : Bool := false
  matching : Bool := false
  deriving DecidableEq

/-- `select_runtime_roles`. -/
def select_runtime_roles (config : Config) : RuntimeRoleSelection :=
  let role := config.server.role
  { gateway := role = "standalone" || role = "gateway"
    processor := role = "standalone" || role = "processor"
    query := role = "standalone" || role = "query"
    geofence := (role = "standalone" || role = "geofence") && config.geofence.eval_enabled
    matching := role = "standalone" || role = "matcher" }

/-- `RuntimeApplication`, with the names in the `StrategyRegistry` of its process. -/
structure RuntimeApplication where
  running : Bool := false
  startup_failed : Bool := false
  last_start_error : String := ""
  last_stop_reason : String := "not_started"
  config : Config := {}
  roles : RuntimeRoleSelection := {}
  event_bus : Bus := {}
  admin_socket : Option SocketServer := none
  metrics_exporter : Option SocketServer := none
  gateway : GatewayService := {}
  processor : ProcessorService := {}
  query : QueryService := {}
  geofence : GeofenceEngine := {}
  matching : MatchingService := {}
  strategies : List String := []

namespace RuntimeApplication

section Parts

/-- The gateway of the application. -/
def gateway_part : Part RuntimeApplication GatewayService where
  get app := app.gateway
  put app gateway := { app with gateway := gateway }
  get_put _ _ := rfl
  put_put _ _ _ := rfl
  put_get _ := rfl

/-- The query service of the application. -/
def query_part : Part RuntimeApplication QueryService where
  get app := app.query
  put app query := { app with query := query }
  get_put _ _ := rfl
  put_put _ _ _ := rfl
  put_get _ := rfl

/-- The matching service of the application, and the registry. -/
def matching_part : Part RuntimeApplication OnRegistry where
  get app := ⟨app.matching, app.strategies⟩
  put app w := { app with matching := w.service, strategies := w.strategies }
  get_put _ _ := rfl
  put_put _ _ _ := rfl
  put_get _ := rfl

/-- The geofence engine of the application, and the bus. -/
def geofence_part : Part RuntimeApplication (OnBus GeofenceEngine) where
  get app := ⟨app.geofence, app.event_bus⟩
  put app w := { app with geofence := w.service, event_bus := w.bus }
  get_put _ _ := rfl
  put_put _ _ _ := rfl
  put_get _ := rfl

/-- The processor of the application, and the bus. -/
def processor_part : Part RuntimeApplication (OnBus ProcessorService) where
  get app := ⟨app.processor, app.event_bus⟩
  put app w := { app with processor := w.service, event_bus := w.bus }
  get_put _ _ := rfl
  put_put _ _ _ := rfl
  put_get _ := rfl

/-- The socket of the operators. -/
def admin_socket_part : Part RuntimeApplication (Option SocketServer) where
  get app := app.admin_socket
  put app server := { app with admin_socket := server }
  get_put _ _ := rfl
  put_put _ _ _ := rfl
  put_get _ := rfl

/-- The socket of the metrics. -/
def metrics_exporter_part : Part RuntimeApplication (Option SocketServer) where
  get app := app.metrics_exporter
  put app server := { app with metrics_exporter := server }
  get_put _ _ := rfl
  put_put _ _ _ := rfl
  put_get _ := rfl

end Parts

section Programs

variable (config : Config) (env : Environment)

/-- `configure_admin_socket`. -/
def configure_admin_socket (app : RuntimeApplication) : RuntimeApplication :=
  { app with admin_socket := if !app.config.observability.admin_socket_enabled then none else some {} }

/-- `configure_metrics_exporter`. -/
def configure_metrics_exporter (app : RuntimeApplication) : RuntimeApplication :=
  { app with metrics_exporter := if !app.config.observability.metrics_exporter_enabled then none else some {} }

/-- The start of a socket that is configured. -/
def start_socket (part : Part RuntimeApplication (Option SocketServer)) (step : Step)
    (checks : Config → Except Exception Unit) : Prog (Atomic RuntimeApplication) Failure Unit := do
  let started ← Prog.atomically fun app : RuntimeApplication =>
    match part.get app with
    | none => (.ok (), app)
    | some server =>
      let (r, server) := server.start step (checks app.config) env
      (r, part.put app (some server))
  Prog.ofExcept started

/-- `start_admin_socket`. -/
def start_admin_socket : Prog (Atomic RuntimeApplication) Failure Unit :=
  start_socket env admin_socket_part .admin_socket admin_socket_checks

/-- `start_metrics_exporter`. -/
def start_metrics_exporter : Prog (Atomic RuntimeApplication) Failure Unit :=
  start_socket env metrics_exporter_part .metrics_exporter metrics_exporter_checks

/-- `stop_started_services`. -/
def stop_started_services : Prog (Atomic RuntimeApplication) Failure Unit := do
  Prog.modify fun app : RuntimeApplication =>
    { app with metrics_exporter := app.metrics_exporter.map SocketServer.stop }
  Prog.modify fun app => { app with admin_socket := app.admin_socket.map SocketServer.stop }
  let roles ← Prog.read fun app : RuntimeApplication => app.roles
  Prog.when roles.gateway (Prog.modify fun app => { app with gateway := app.gateway.stop })
  Prog.when roles.matching (Prog.modify fun app => { app with matching := app.matching.stop })
  Prog.when roles.geofence (Prog.modify fun app => geofence_part.put app (GeofenceEngine.stop (geofence_part.get app)))
  Prog.when roles.query (Prog.modify fun app => { app with query := app.query.stop })
  Prog.when roles.processor ((ProcessorService.stop env).zoom processor_part)

/-- What `start` does for the roles that it has selected. -/
def start_selected (roles : RuntimeRoleSelection) : Prog (Atomic RuntimeApplication) Failure Unit := do
  Prog.when roles.processor ((ProcessorService.start_with_bus config env).zoom processor_part)
  Prog.when roles.query ((QueryService.start config env).zoom query_part)
  Prog.when roles.geofence ((GeofenceEngine.start_with_bus env).zoom geofence_part)
  Prog.when roles.matching ((MatchingService.start_with_bus config env).zoom matching_part)
  Prog.when roles.gateway ((GatewayService.start_with_bus env).zoom gateway_part)
  start_admin_socket env
  start_metrics_exporter env

/-- What `start` tries. -/
def start_services : Prog (Atomic RuntimeApplication) Failure Unit := do
  Prog.ofExcept (at_step .validation config.validate)
  Prog.modify fun app : RuntimeApplication => { app with roles := select_runtime_roles app.config }
  let roles ← Prog.read fun app : RuntimeApplication => app.roles
  start_selected config env roles
  Prog.modify fun app => { app with running := true }

/-- The text that `start` keeps of an exception. -/
def start_error : Exception → String
  | .std what => what
  | .other => "unknown runtime startup failure"

/-- What `start` throws when a step has thrown. -/
def startup_failure (failure : Failure) : Failure :=
  ⟨failure.step, .std ("Runtime startup failed: " ++ start_error failure.exception)⟩

/-- `start`. -/
def start : Prog (Atomic RuntimeApplication) Failure Unit := do
  let running ← Prog.read fun app : RuntimeApplication => app.running
  Prog.when (!running) do
    Prog.modify fun app => { app with config := config }
    Prog.modify configure_admin_socket
    Prog.modify configure_metrics_exporter
    Prog.modify fun app =>
      { app with startup_failed := false, last_start_error := "", last_stop_reason := "not_stopped", roles := {} }
    (start_services config env).tryCatch fun failure => do
      stop_started_services env
      Prog.modify fun app =>
        { app with
          startup_failed := true
          last_start_error := start_error failure.exception
          running := false
          roles := {} }
      Prog.throw (startup_failure failure)

/-- `stop`. -/
def stop (reason : String) : Prog (Atomic RuntimeApplication) Failure Unit := do
  Prog.modify fun app : RuntimeApplication =>
    { app with last_stop_reason := if reason = "" then "requested" else reason }
  let running ← Prog.read fun app : RuntimeApplication => app.running
  Prog.when running do
    stop_started_services env
    Prog.modify fun app => { app with running := false }

end Programs

/-- What of the application runs. -/
structure Running extends RuntimeRoleSelection where
  admin_socket : Bool := false
  metrics_exporter : Bool := false

/-- No service runs that is not selected. -/
structure Within (up : Running) (roles : RuntimeRoleSelection) : Prop where
  gateway : roles.gateway = false → up.gateway = false
  processor : roles.processor = false → up.processor = false
  query : roles.query = false → up.query = false
  geofence : roles.geofence = false → up.geofence = false
  matching : roles.matching = false → up.matching = false

theorem within_none {roles : RuntimeRoleSelection} : Within {} roles :=
  ⟨fun _ => rfl, fun _ => rfl, fun _ => rfl, fun _ => rfl, fun _ => rfl⟩

theorem within_all {roles : RuntimeRoleSelection} (admin_socket metrics_exporter : Bool) :
    Within ⟨roles, admin_socket, metrics_exporter⟩ roles := ⟨id, id, id, id, id⟩

section Stages

variable (config : Config) (roles : RuntimeRoleSelection)

/-- Just these services and sockets run, and the handlers on the bus are theirs. -/
structure Up (up : Running) (app : RuntimeApplication) : Prop where
  config_eq : app.config = config
  roles_eq : app.roles = roles
  gateway : app.gateway.running = up.gateway
  processor : app.processor.Is up.processor
  query : app.query.running = up.query
  geofence : app.geofence.Is up.geofence
  matching : app.matching.running = up.matching
  admin_socket : app.admin_socket.map (fun server => server.running) =
    if config.observability.admin_socket_enabled then some up.admin_socket else none
  metrics_exporter : app.metrics_exporter.map (fun server => server.running) =
    if config.observability.metrics_exporter_enabled then some up.metrics_exporter else none
  owned : EventBus.Owned app.event_bus (app.processor.tokens + app.geofence.tokens)
  strategies : app.strategies ⊆ builtin_strategies

/-- Some of the selected services run. -/
def Partly (app : RuntimeApplication) : Prop := ∃ up, Within up roles ∧ Up config roles up app

/-- A program that tries all this, and after which `up'` runs in the place of `up`. -/
def Moves (up : Running) (l : List (Except Failure Unit)) (up' : Running)
    (p : Prog (Atomic RuntimeApplication) Failure Unit) : Prop :=
  ∀ app, Up config roles up app → p.Settles app (firstError l) (Up config roles up') (Partly config roles)

variable {config roles} {env : Environment} {up up' : Running} {app : RuntimeApplication}
  {l l' : List (Except Failure Unit)} {p : Prog (Atomic RuntimeApplication) Failure Unit}
  {P : RuntimeApplication → Prop}

/-- One stage after the other. -/
theorem Moves.bind {k : Unit → Prog (Atomic RuntimeApplication) Failure Unit} (hp : Moves config roles up l up' p)
    (h : Up config roles up app)
    (hk : ∀ app, Up config roles up' app → (k ()).Settles app (firstError l') P (Partly config roles)) :
    (p.bind k).Settles app (firstError (l ++ l')) P (Partly config roles) := by
  rw [Interaction.firstError_append]
  exact (hp app h).bind fun _ app _ h => hk app h

/-- The start of a service that does not run, if it is selected. -/
theorem moves_start {τ : Type} {selected : Bool} {attempts : List (Except Failure Unit)}
    {part : Part RuntimeApplication τ} {q : Prog (Atomic τ) Failure Unit} {P E : RuntimeApplication → τ → Prop}
    (hwithin : Within up roles) (hkeep : selected = false → up' = up)
    (hq : ∀ app, Up config roles up app → q.Settles (part.get app) (firstError attempts) (P app) (E app))
    (hP : ∀ app w, Up config roles up app → selected = true → P app w → Up config roles up' (part.put app w))
    (hE : ∀ app w, Up config roles up app → E app w → Up config roles up (part.put app w)) :
    Moves config roles up (if selected then attempts else []) up' (Prog.when selected (q.zoom part)) := by
  intro app h
  refine Prog.Settles.when (fun hselected => ?_) fun hselected => ?_
  · rw [if_pos hselected]
    refine Prog.Settles.zoom part ((hq app h).imp ?_ ?_)
    · exact fun _ w _ hw => hP app w h hselected hw
    · exact fun _ w _ hw => ⟨up, hwithin, hE app w h hw⟩
  · rw [hselected, hkeep hselected]
    exact ⟨rfl, h⟩

theorem moves_start_processor (hwithin : Within up roles) (hup : up.processor = false) :
    Moves config roles up (if roles.processor then ProcessorService.attempts config env else [])
      { up with processor := roles.processor }
      (Prog.when roles.processor ((ProcessorService.start_with_bus config env).zoom processor_part)) := by
  refine moves_start hwithin (fun hrole => ?_)
    (fun app h => ProcessorService.settles_start (hup ▸ h.processor) h.owned) ?_ ?_
  · rw [hrole, ← hup]
  · exact fun _ _ h hrole ⟨hrun, howned⟩ => { h with processor := hrole ▸ hrun, owned := howned }
  · exact fun _ _ h ⟨hrun, howned⟩ => { h with processor := hup ▸ hrun, owned := howned }

theorem moves_start_query (hwithin : Within up roles) (hup : up.query = false) :
    Moves config roles up (if roles.query then QueryService.attempts config env else [])
      { up with query := roles.query }
      (Prog.when roles.query ((QueryService.start config env).zoom query_part)) := by
  refine moves_start hwithin (fun hrole => ?_)
    (fun app h => QueryService.settles_start (h.query.trans hup)) ?_ ?_
  · rw [hrole, ← hup]
  · exact fun _ _ h hrole hrun => { h with query := hrole ▸ hrun }
  · exact fun _ _ h hrun => { h with query := hup ▸ hrun }

theorem moves_start_geofence (hwithin : Within up roles) (hup : up.geofence = false) :
    Moves config roles up (if roles.geofence then GeofenceEngine.attempts env else [])
      { up with geofence := roles.geofence }
      (Prog.when roles.geofence ((GeofenceEngine.start_with_bus env).zoom geofence_part)) := by
  refine moves_start hwithin (fun hrole => ?_)
    (fun app h => GeofenceEngine.settles_start (hup ▸ h.geofence) (add_comm _ app.geofence.tokens ▸ h.owned)) ?_ ?_
  · rw [hrole, ← hup]
  · exact fun _ _ h hrole ⟨hrun, howned⟩ =>
      { h with geofence := hrole ▸ hrun, owned := add_comm _ (ProcessorService.tokens _) ▸ howned }
  · exact fun _ _ h ⟨hrun, howned⟩ =>
      { h with geofence := hup ▸ hrun, owned := add_comm _ (ProcessorService.tokens _) ▸ howned }

theorem moves_start_matching (hwithin : Within up roles) (hup : up.matching = false) :
    Moves config roles up (if roles.matching then MatchingService.attempts config env else [])
      { up with matching := roles.matching }
      (Prog.when roles.matching ((MatchingService.start_with_bus config env).zoom matching_part)) := by
  refine moves_start hwithin (fun hrole => ?_)
    (fun app h => MatchingService.settles_start (h.matching.trans hup) h.strategies) ?_ ?_
  · rw [hrole, ← hup]
  · exact fun _ _ h hrole ⟨hrun, hstrategies⟩ => { h with matching := hrole ▸ hrun, strategies := hstrategies }
  · exact fun _ _ h ⟨hrun, hstrategies⟩ => { h with matching := hup ▸ hrun, strategies := hstrategies }

theorem moves_start_gateway (hwithin : Within up roles) (hup : up.gateway = false) :
    Moves config roles up (if roles.gateway then GatewayService.attempts env else [])
      { up with gateway := roles.gateway }
      (Prog.when roles.gateway ((GatewayService.start_with_bus env).zoom gateway_part)) := by
  refine moves_start hwithin (fun hrole => ?_)
    (fun app h => GatewayService.settles_start (h.gateway.trans hup)) ?_ ?_
  · rw [hrole, ← hup]
  · exact fun _ _ h hrole hrun => { h with gateway := hrole ▸ hrun }
  · exact fun _ _ h hrun => { h with gateway := hup ▸ hrun }

/-- The start of a socket that does not run, if it is configured. -/
theorem moves_start_socket {part : Part RuntimeApplication (Option SocketServer)} {step : Step}
    {checks : Config → Except Exception Unit} {enabled : Bool} {up : Bool → Running}
    (hwithin : ∀ b, Within (up b) roles)
    (hget : ∀ b app, Up config roles (up b) app →
      (part.get app).map (fun server => server.running) = if enabled then some b else none)
    (hput : ∀ app server, Up config roles (up false) app → enabled = true →
      Up config roles (up server.running) (part.put app (some server)))
    (hkeep : ∀ app, enabled = false → Up config roles (up false) app → Up config roles (up true) app) :
    Moves config roles (up false) (if enabled then SocketServer.attempts step (checks config) env else []) (up true)
      (start_socket env part step checks) := by
  intro app h
  have hserver := hget false app h
  refine Prog.settles_atomically_bind ?_
  cases enabled with
  | false =>
    rw [if_neg Bool.false_ne_true, Option.map_eq_none_iff] at hserver
    rw [hserver]
    exact Prog.settles_pure (hkeep app rfl h)
  | true =>
    rw [if_pos rfl, Option.map_eq_some_iff] at hserver
    obtain ⟨server, hserver, hidle⟩ := hserver
    obtain ⟨hresult, hrun⟩ := SocketServer.start_of_idle step (checks config) env hidle
    rw [hserver, h.config_eq, if_pos rfl, ← hresult]
    refine Prog.settles_ofExcept (fun a hok => ?_) fun e _ => ?_
    · exact hrun hok ▸ hput app _ h rfl
    · exact ⟨_, hwithin _, hput app _ h rfl⟩

/-- The roles that a program reads. -/
theorem Up.settles_read_roles {k : RuntimeRoleSelection → Prog (Atomic RuntimeApplication) Failure Unit}
    {r : Except Failure Unit} {E : RuntimeApplication → Prop} (h : Up config roles up app)
    (hk : (k roles).Settles app r P E) : ((Prog.read fun app => app.roles).bind k).Settles app r P E := by
  rw [← h.roles_eq] at hk
  exact Prog.settles_read_bind hk

/-- A change that throws nothing. -/
theorem moves_modify (up' : Running) {f : RuntimeApplication → RuntimeApplication}
    (hf : ∀ app, Up config roles up app → Up config roles up' (f app)) :
    Moves config roles up [] up' (Prog.modify f) := fun app h => Prog.settles_modify (hf app h)

/-- A stage that may be left out. -/
theorem Moves.when {selected : Bool} (hp : Moves config roles up [] up' p) (hkeep : selected = false → up' = up) :
    Moves config roles up [] up' (Prog.when selected p) := by
  intro app h
  refine Prog.Settles.when (fun _ => hp app h) fun hselected => ?_
  rw [hkeep hselected]
  exact ⟨rfl, h⟩

/-- Whatever of the selected services runs, they are all stopped. -/
theorem moves_stop_started_services (hflush : env .flush = none) (hwithin : Within up roles) :
    Moves config roles up [] {} (stop_started_services env) := by
  intro app h
  unfold stop_started_services
  refine (moves_modify { up with metrics_exporter := false } fun app h => ?_).bind h fun app h => ?_
  · exact { h with metrics_exporter := SocketServer.running_map_stop h.metrics_exporter }
  refine (moves_modify { toRuntimeRoleSelection := up.toRuntimeRoleSelection } fun app h => ?_).bind h
    fun app h => h.settles_read_roles ?_
  · exact { h with admin_socket := SocketServer.running_map_stop h.admin_socket }
  refine ((moves_modify { up with gateway := false, admin_socket := false, metrics_exporter := false }
    fun app h => ?_).when fun hrole => ?_).bind h fun app h => ?_
  · exact { h with gateway := Lifecycle.running_stop _ }
  · rw [← hwithin.gateway hrole]
  refine ((moves_modify { processor := up.processor, query := up.query, geofence := up.geofence }
    fun app h => ?_).when fun hrole => ?_).bind h fun app h => ?_
  · exact { h with matching := rfl }
  · rw [← hwithin.matching hrole]
  refine ((moves_modify { processor := up.processor, query := up.query } fun app h => ?_).when
    fun hrole => ?_).bind h fun app h => ?_
  · obtain ⟨hrun, howned⟩ := GeofenceEngine.owned_stop (w := geofence_part.get app) h.geofence
      (add_comm _ app.geofence.tokens ▸ h.owned)
    exact { h with geofence := hrun, owned := add_comm _ (ProcessorService.tokens _) ▸ howned }
  · rw [← hwithin.geofence hrole]
  refine ((moves_modify { processor := up.processor } fun app h => ?_).when fun hrole => ?_).bind h fun app h => ?_
  · exact { h with query := Lifecycle.running_stop _ }
  · rw [← hwithin.query hrole]
  refine Prog.Settles.when (fun _ => ?_) fun hrole => ?_
  · refine Prog.Settles.zoom processor_part ((ProcessorService.settles_stop hflush h.processor h.owned).imp ?_ ?_)
    · exact fun _ w _ ⟨hrun, howned⟩ => { h with processor := hrun, owned := howned }
    · exact fun _ _ _ => False.elim
  · rw [hwithin.processor hrole] at h
    exact ⟨rfl, h⟩

end Stages

section Startup

variable (config : Config) (env : Environment) (roles : RuntimeRoleSelection)

/-- What a start tries for the roles, in its order. -/
def attempts : List (Except Failure Unit) :=
  List.flatten
    [if roles.processor then ProcessorService.attempts config env else [],
      if roles.query then QueryService.attempts config env else [],
      if roles.geofence then GeofenceEngine.attempts env else [],
      if roles.matching then MatchingService.attempts config env else [],
      if roles.gateway then GatewayService.attempts env else [],
      if config.observability.admin_socket_enabled then
        SocketServer.attempts .admin_socket (admin_socket_checks config) env
      else [],
      if config.observability.metrics_exporter_enabled then
        SocketServer.attempts .metrics_exporter (metrics_exporter_checks config) env
      else []]

/-- What a start tries. -/
def startup : List (Except Failure Unit) :=
  at_step .validation config.validate :: attempts config env (select_runtime_roles config)

/-- All that a configuration selects. -/
def selected : Running :=
  { toRuntimeRoleSelection := select_runtime_roles config, admin_socket := true, metrics_exporter := true }

variable {config env roles} {app : RuntimeApplication}

theorem moves_start_selected : Moves config roles {} (attempts config env roles)
    { toRuntimeRoleSelection := roles, admin_socket := true, metrics_exporter := true }
    (start_selected config env roles) := by
  intro app h
  have hprocessor : Within { processor := roles.processor } roles :=
    ⟨fun _ => rfl, id, fun _ => rfl, fun _ => rfl, fun _ => rfl⟩
  have hquery : Within { processor := roles.processor, query := roles.query } roles :=
    ⟨fun _ => rfl, id, id, fun _ => rfl, fun _ => rfl⟩
  have hgeofence : Within { roles with gateway := false, matching := false } roles :=
    ⟨fun _ => rfl, id, id, id, fun _ => rfl⟩
  have hmatching : Within { roles with gateway := false } roles := ⟨fun _ => rfl, id, id, id, id⟩
  unfold start_selected attempts
  simp only [List.flatten_cons, List.flatten_nil, List.append_nil]
  refine (moves_start_processor within_none rfl).bind h fun app h => ?_
  refine (moves_start_query hprocessor rfl).bind h fun app h => ?_
  refine (moves_start_geofence hquery rfl).bind h fun app h => ?_
  refine (moves_start_matching hgeofence rfl).bind h fun app h => ?_
  refine (moves_start_gateway hmatching rfl).bind h fun app h => ?_
  refine (moves_start_socket (fun b => within_all b false) ?_ ?_ ?_).bind h fun app h => ?_
  · exact fun _ _ h => h.admin_socket
  · exact fun _ _ h henabled => { h with admin_socket := (if_pos henabled).symm }
  · exact fun _ hdisabled h => { h with admin_socket := h.admin_socket.trans (by rw [hdisabled]; rfl) }
  refine moves_start_socket (fun b => within_all true b) ?_ ?_ ?_ app h
  · exact fun _ _ h => h.metrics_exporter
  · exact fun _ _ h henabled => { h with metrics_exporter := (if_pos henabled).symm }
  · exact fun _ hdisabled h => { h with metrics_exporter := h.metrics_exporter.trans (by rw [hdisabled]; rfl) }

/-- Everything that is selected comes up, or the first exception ends the start with some of it up. -/
theorem settles_start_services (h : Up config {} {} app) :
    (start_services config env).Settles app (firstError (startup config env))
      (fun app => app.running = true ∧ Up config (select_runtime_roles config) (selected config) app)
      fun app => ∃ roles, Partly config roles app := by
  have hroles : Up config (select_runtime_roles config) {} { app with roles := select_runtime_roles app.config } :=
    { h with roles_eq := congrArg select_runtime_roles h.config_eq }
  have hstart : ((start_selected config env (select_runtime_roles config)).bind fun _ =>
      Prog.modify fun app => { app with running := true }).Settles
      { app with roles := select_runtime_roles app.config } (firstError (attempts config env _ ++ []))
      (fun app => app.running = true ∧ Up config (select_runtime_roles config) (selected config) app)
      (Partly config (select_runtime_roles config)) :=
    moves_start_selected.bind hroles fun app h => Prog.settles_modify ⟨rfl, { h with }⟩
  rw [List.append_nil] at hstart
  unfold start_services
  refine Prog.settles_ofExcept_bind ⟨{}, {}, within_none, h⟩ fun _ => ?_
  refine Prog.settles_modify_bind (hroles.settles_read_roles ?_)
  exact hstart.imp (fun _ _ _ => id) fun _ _ _ hpartly => ⟨_, hpartly⟩

/-- A failed start has stopped all of it. -/
theorem settles_start (config : Config) {config' : Config} (hflush : env .flush = none)
    (hrunning : app.running = false) (h : Up config' roles {} app) :
    (start config env).Settles app
      (handled (firstError (startup config env)) fun failure => .error (startup_failure failure))
      (fun app => app.running = true ∧ Up config (select_runtime_roles config) (selected config) app)
      fun app => app.running = false ∧ Up config {} {} app := by
  have hconfigured : ∀ enabled, Option.map (fun server : SocketServer => server.running)
      (if !enabled then none else some {}) = if enabled then some false else none := by
    rintro ⟨⟩ <;> rfl
  unfold start
  refine Prog.settles_read_bind ?_
  rw [hrunning]
  refine Prog.settles_modify_bind (Prog.settles_modify_bind (Prog.settles_modify_bind (Prog.settles_modify_bind ?_)))
  refine Prog.Settles.tryCatch (settles_start_services ?_) ?_
  · exact { h with
      config_eq := rfl
      roles_eq := rfl
      admin_socket := hconfigured _
      metrics_exporter := hconfigured _ }
  · rintro failure app - ⟨roles, up, hwithin, h⟩
    refine (moves_stop_started_services hflush hwithin app h).bind_ok fun app h => Prog.settles_modify_bind ?_
    exact Prog.settles_throw ⟨rfl, { h with roles_eq := rfl }⟩

/-- A start of an application that runs does nothing. -/
theorem settles_start_of_running (config : Config) (env : Environment) (hrunning : app.running = true) :
    (start config env).Settles app (.ok ()) (fun app' => app' = app) fun _ => False := by
  unfold start
  refine Prog.settles_read_bind ?_
  rw [hrunning]
  exact Prog.settles_pure rfl

theorem settles_stop (hflush : env .flush = none) (reason : String) {up : Running} (hwithin : Within up roles)
    (hidle : app.running = false → up = {}) (h : Up config roles up app) :
    (stop env reason).Settles app (.ok ()) (fun app => app.running = false ∧ Up config roles {} app)
      fun _ => False := by
  have h : Up config roles up { app with last_stop_reason := if reason = "" then "requested" else reason } :=
    { h with }
  unfold stop
  refine Prog.settles_modify_bind (Prog.settles_read_bind (Prog.Settles.when (fun _ => ?_) fun hstopped => ?_))
  · refine (moves_stop_started_services hflush hwithin _ h).bind_ok fun app h => ?_
    exact Prog.settles_modify ⟨rfl, { h with }⟩
  · exact ⟨rfl, hstopped, hidle hstopped ▸ h⟩

/-- A valid configuration comes up where nothing throws, if it names a strategy that there is. -/
theorem startup_of_quiet (hvalid : config.validate = .ok ()) (hquiet : ∀ step, env step = none)
    (hstrategy : config.matching.strategy_name ∈ builtin_strategies) :
    firstError (startup config env) = .ok () := by
  have hattempt : ∀ step, env.attempt step = .ok () := by
    intro step
    unfold Environment.attempt
    rw [hquiet]
  have hcreate : create_strategy config.matching.strategy_name builtin_strategies = .ok () := if_pos hstrategy
  have hh3 := attempt_h3_of_valid hvalid
  obtain ⟨hadmin, hmetrics⟩ := socket_checks_of_valid hvalid
  have hselected : ∀ (b : Bool) (l : List (Except Failure Unit)), (∀ r ∈ l, r = .ok ()) →
      ∀ r ∈ if b then l else [], r = .ok () := by
    intro b l hl
    cases b with
    | false => exact nofun
    | true => exact hl
  unfold startup attempts
  simp only [Interaction.firstError_eq_ok_iff, List.forall_mem_cons, List.flatten_cons, List.flatten_nil,
    List.forall_mem_append]
  refine ⟨by rw [hvalid]; rfl, hselected _ _ ?_, hselected _ _ ?_, hselected _ _ ?_, hselected _ _ ?_,
    hselected _ _ ?_, hselected _ _ ?_, hselected _ _ ?_, nofun⟩
  · simp [ProcessorService.attempts, hattempt, hh3]
  · simp [QueryService.attempts, hattempt, hh3]
  · simp [GeofenceEngine.attempts, hattempt]
  · simp [MatchingService.attempts, hattempt, hh3, hcreate]
  · simp [GatewayService.attempts, hattempt]
  · simp [SocketServer.attempts, at_step, hattempt, hadmin, Except.mapError]
  · simp [SocketServer.attempts, at_step, hattempt, hmetrics, Except.mapError]

end Startup

end RuntimeApplication

end SignalRoute.Runtime
