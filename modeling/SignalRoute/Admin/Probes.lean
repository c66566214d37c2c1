import SignalRoute.Admin.HealthJson
import SignalRoute.Types

/-!
# Probes

`src/common/admin`: the life cycle of a service as it is reported, and the probes that `AdminService` is
given for services and dependencies, each with whether the node needs it.

Whether it does is a field of what the probe returns. A probe that throws returns nothing, and `evaluate`
takes its component for a required one. So an optional component makes the node unhealthy by throwing
(`optional_never_fails_iff`).
-/

namespace SignalRoute

/-- `ServiceLifecycleState`. -/
inductive ServiceLifecycleState where
  | Stopped
  | Starting
  | Ready
  | Draining
  | Failed
  deriving DecidableEq

/-- `lifecycle_state_to_string`. -/
def lifecycle_state_to_string : ServiceLifecycleState → String
  | .Stopped => "stopped"
  | .Starting => "starting"
  | .Ready => "ready"
  | .Draining => "draining"
  | .Failed => "failed"

/-- `ServiceHealthSnapshot`. -/
structure ServiceHealthSnapshot where
  state : ServiceLifecycleState := .Stopped
  live : Bool := false
  ready : Bool := false
  detail : String
  deriving DecidableEq

/-- `stopped_health`. -/
def stopped_health (detail : String) : ServiceHealthSnapshot := ⟨.Stopped, false, false, detail⟩

/-- What a probe does, as `evaluate` sees it. -/
def ProbeCall.of_outcome : Except Exception ComponentHealth → ProbeCall
  | .ok component => .returns component
  | .error (.std what) => .throws (some what)
  | .error .other => .throws none

/-- A call of a probe: its value, or the text of its exception. -/
def ProbeCall.call : ProbeCall → Except (Option String) ComponentHealth
  | .returns component => .ok component
  | .throws what => .error what

/-- The probe that `register_service_probe` and `register_dependency_probe` make, with their texts. The
function that they are given may be empty. -/
def boolean_probe (component_name : String) (probe : Option (Except Exception Bool)) (required : Bool)
    (healthy_detail unhealthy_detail : String) : Except Exception ComponentHealth := do
  let healthy ← probe.getD (.ok false)
  return {
    name := component_name
    healthy := healthy
    required := required
    detail := if healthy then healthy_detail else unhealthy_detail }

/-- The two probes that `register_lifecycle_probe` makes, with the flag of the snapshot that each one reads. -/
def lifecycle_probe (component_name : String) (probe : Option (Except Exception ServiceHealthSnapshot))
    (required : Bool) (flag : ServiceHealthSnapshot → Bool) : Except Exception ComponentHealth := do
  let snapshot ← probe.getD (.ok (stopped_health "lifecycle probe missing"))
  return {
    name := component_name
    healthy := flag snapshot
    required := required
    detail := lifecycle_state_to_string snapshot.state ++ ": " ++ snapshot.detail }

namespace AdminService

variable (admin : AdminService)

/-- `register_component`. -/
def register_component (name : String) (probe : Option ProbeCall) : AdminService :=
  { admin with components := admin.components ++ [⟨name, probe, probe⟩] }

/-- `register_service_probe`. -/
def register_service_probe (name : String) (probe : Option (Except Exception Bool)) (required : Bool) :
    AdminService :=
  admin.register_component name
    (some (.of_outcome (boolean_probe name probe required "service healthy" "service unhealthy")))

/-- `register_dependency_probe`. -/
def register_dependency_probe (name : String) (probe : Option (Except Exception Bool)) (required : Bool) :
    AdminService :=
  admin.register_component name
    (some (.of_outcome (boolean_probe name probe required "dependency reachable" "dependency unreachable")))

/-- `register_lifecycle_probe`. -/
def register_lifecycle_probe (name : String) (probe : Option (Except Exception ServiceHealthSnapshot))
    (required : Bool) : AdminService :=
  { admin with
    components := admin.components ++
      [⟨name, some (.of_outcome (lifecycle_probe name probe required ServiceHealthSnapshot.live)),
        some (.of_outcome (lifecycle_probe name probe required ServiceHealthSnapshot.ready))⟩] }

/-- One turn of the loop of `evaluate`. -/
def evaluate_registered (readiness : Bool) (response : HealthResponse) (registered : RegisteredComponent) :
    Except (Option String) HealthResponse :=
  match if readiness then registered.readiness_probe else registered.health_probe with
  | none => return response
  | some probe => do
    let component ← tryCatch
      (do
        let component ← probe.call
        return if component.name = "" then { component with name := registered.name } else component)
      fun what => return {
        name := registered.name
        healthy := false
        required := true
        detail := what.getD "unknown health probe failure" }
    return { response with
      healthy := if component.required && !component.healthy then false else response.healthy
      components := response.components ++ [component] }

/-- `evaluate` with its loop, where an exception that it did not catch would end it. -/
def evaluate_loop (uptime_s : ℤ) (readiness : Bool) : Except (Option String) HealthResponse :=
  admin.components.foldlM (evaluate_registered readiness)
    { healthy := true, role := admin.role, version := admin.version, uptime_s := uptime_s }

end AdminService

/-- A call that a registration makes of a service. -/
inductive Registration where
  | service (name : String) (probe : Option (Except Exception Bool)) (required : Bool := true)
  | dependency (name : String) (probe : Option (Except Exception Bool)) (required : Bool := true)
  | lifecycle (name : String) (probe : Option (Except Exception ServiceHealthSnapshot)) (required : Bool := true)

namespace Registration

/-- The call. -/
def apply (admin : AdminService) : Registration → AdminService
  | .service name probe required => admin.register_service_probe name probe required
  | .dependency name probe required => admin.register_dependency_probe name probe required
  | .lifecycle name probe required => admin.register_lifecycle_probe name probe required

/-- The name of the component. -/
def name : Registration → String
  | .service name _ _ | .dependency name _ _ | .lifecycle name _ _ => name

/-- Whether the component was registered as required. -/
def required : Registration → Bool
  | .service _ _ required | .dependency _ _ required | .lifecycle _ _ required => required

/-- Whether the component is healthy, or the exception of its probe. -/
def outcome (readiness : Bool) : Registration → Except Exception Bool
  | .service _ probe _ | .dependency _ probe _ => probe.getD (.ok false)
  | .lifecycle _ probe _ => (probe.getD (.ok (stopped_health "lifecycle probe missing"))).map
      fun snapshot => if readiness then snapshot.ready else snapshot.live

/-- The probe throws. -/
def Throws (readiness : Bool) (registration : Registration) : Prop :=
  ∃ e, registration.outcome readiness = .error e

/-- The probe throws, or says that the component is unhealthy. -/
def Fails (readiness : Bool) (registration : Registration) : Prop := registration.outcome readiness ≠ .ok true

end Registration

/-- The service after calls that register components. -/
def registered (role version : String) (calls : List Registration) : AdminService :=
  calls.foldl Registration.apply { role := role, version := version }

/-- A probe that returns and one that throws, as `evaluate` takes them. -/
theorem probed_of_outcome (name : String) (outcome : Except Exception ComponentHealth) :
    (∃ component, outcome = .ok component ∧
        probed name (.of_outcome outcome) = if component.name = "" then { component with name } else component) ∨
      ∃ e, outcome = .error e ∧ ∃ detail, probed name (.of_outcome outcome) = ⟨name, false, true, detail⟩ := by
  cases outcome with
  | ok component => exact .inl ⟨component, rfl, rfl⟩
  | error e => cases e <;> exact .inr ⟨_, rfl, _, rfl⟩

section Loop

/-- The response with more components. -/
def HealthResponse.join (response : HealthResponse) (components : List ComponentHealth) : HealthResponse :=
  { response with
    healthy := response.healthy && components.all fun component => !(component.required && !component.healthy)
    components := response.components ++ components }

theorem HealthResponse.join_nil (response : HealthResponse) : response.join [] = response := by
  simp [join]

theorem HealthResponse.join_singleton (response : HealthResponse) (component : ComponentHealth) :
    response.join [component] = { response with
      healthy := if component.required && !component.healthy then false else response.healthy
      components := response.components ++ [component] } := by
  unfold join
  rw [List.all_cons, List.all_nil, Bool.and_true]
  generalize (component.required && !component.healthy) = failing
  cases failing <;> cases response.healthy <;> rfl

theorem HealthResponse.join_append (response : HealthResponse) (l m : List ComponentHealth) :
    (response.join l).join m = response.join (l ++ m) := by
  simp [join, Bool.and_assoc]

variable (readiness : Bool)

/-- The component that a registered one gives, if it takes part. -/
def component_of (registered : RegisteredComponent) : Option ComponentHealth :=
  (if readiness then registered.readiness_probe else registered.health_probe).map (probed registered.name)

/-- One turn adds the component, and the exception of its probe goes no further. -/
theorem evaluate_registered_eq (response : HealthResponse) (registered : RegisteredComponent) :
    AdminService.evaluate_registered readiness response registered =
      .ok (response.join (component_of readiness registered).toList) := by
  unfold AdminService.evaluate_registered component_of
  generalize (if readiness then registered.readiness_probe else registered.health_probe) = probe
  cases probe with
  | none => exact congrArg Except.ok response.join_nil.symm
  | some probe =>
    have hcaught : (tryCatch
        (do
          let component ← probe.call
          return if component.name = "" then { component with name := registered.name } else component)
        fun what => return {
          name := registered.name
          healthy := false
          required := true
          detail := what.getD "unknown health probe failure" } : Except (Option String) ComponentHealth) =
        .ok (probed registered.name probe) := by
      cases probe <;> rfl
    dsimp only
    rw [hcaught]
    exact congrArg Except.ok (response.join_singleton _).symm

/-- The loop adds them all. -/
theorem foldlM_evaluate_registered (components : List RegisteredComponent) (response : HealthResponse) :
    components.foldlM (AdminService.evaluate_registered readiness) response =
      .ok (response.join (components.filterMap (component_of readiness))) := by
  induction components generalizing response with
  | nil => exact congrArg Except.ok response.join_nil.symm
  | cons registered components ih =>
    rw [List.foldlM_cons, evaluate_registered_eq]
    show components.foldlM (AdminService.evaluate_registered readiness) _ = _
    rw [ih, HealthResponse.join_append, List.filterMap_cons]
    cases component_of readiness registered <;> rfl

/-- `evaluate` returns: no exception leaves its loop. -/
theorem AdminService.evaluate_loop_eq (admin : AdminService) (uptime_s : ℤ) :
    admin.evaluate_loop uptime_s readiness = .ok (admin.evaluate uptime_s readiness) := by
  unfold evaluate_loop
  rw [foldlM_evaluate_registered]
  simp only [HealthResponse.join, Bool.true_and, List.nil_append]
  rfl

end Loop

section Registered

variable (readiness : Bool)

/-- What the service has of a call that registers a component. -/
def Registration.entry : Registration → RegisteredComponent
  | .service name probe required =>
    let call := ProbeCall.of_outcome (boolean_probe name probe required "service healthy" "service unhealthy")
    ⟨name, some call, some call⟩
  | .dependency name probe required =>
    let call :=
      ProbeCall.of_outcome (boolean_probe name probe required "dependency reachable" "dependency unreachable")
    ⟨name, some call, some call⟩
  | .lifecycle name probe required =>
    ⟨name, some (.of_outcome (lifecycle_probe name probe required ServiceHealthSnapshot.live)),
      some (.of_outcome (lifecycle_probe name probe required ServiceHealthSnapshot.ready))⟩

/-- The calls are kept in their order. -/
theorem registered_eq (role version : String) (calls : List Registration) :
    registered role version calls = { role, version, components := calls.map Registration.entry } := by
  have hfoldl : ∀ (admin : AdminService), calls.foldl Registration.apply admin =
      { admin with components := admin.components ++ calls.map Registration.entry } := by
    induction calls with
    | nil => simp
    | cons call calls ih =>
      intro admin
      rw [List.foldl_cons, ih, List.map_cons]
      cases call <;>
        simp [Registration.apply, Registration.entry, AdminService.register_service_probe,
          AdminService.register_dependency_probe, AdminService.register_lifecycle_probe,
          AdminService.register_component]
  exact hfoldl _

/-- What the probe of a service or a dependency returns, if its function does not throw. -/
theorem boolean_probe_eq (name : String) (probe : Option (Except Exception Bool)) (required : Bool)
    (healthy_detail unhealthy_detail : String) : ∃ detail,
    boolean_probe name probe required healthy_detail unhealthy_detail =
      (probe.getD (.ok false)).map fun healthy => ⟨name, healthy, required, detail⟩ := by
  unfold boolean_probe
  cases probe.getD (.ok false) with
  | error e => exact ⟨"", rfl⟩
  | ok healthy => exact ⟨_, rfl⟩

/-- What a probe of a life cycle returns, if its function does not throw. -/
theorem lifecycle_probe_eq (name : String) (probe : Option (Except Exception ServiceHealthSnapshot))
    (required : Bool) (flag : ServiceHealthSnapshot → Bool) : ∃ detail,
    lifecycle_probe name probe required flag =
      ((probe.getD (.ok (stopped_health "lifecycle probe missing"))).map flag).map fun healthy =>
        ⟨name, healthy, required, detail⟩ := by
  unfold lifecycle_probe
  cases probe.getD (.ok (stopped_health "lifecycle probe missing")) with
  | error e => exact ⟨"", rfl⟩
  | ok snapshot => exact ⟨_, rfl⟩

/-- The probe of a registration says what its function does. -/
theorem Registration.exists_probe (call : Registration) : ∃ detail,
    (if readiness then call.entry.readiness_probe else call.entry.health_probe) =
      some (.of_outcome ((call.outcome readiness).map fun healthy =>
        ⟨call.name, healthy, call.required, detail⟩)) := by
  cases call with
  | service name probe required =>
    obtain ⟨detail, hprobe⟩ := boolean_probe_eq name probe required "service healthy" "service unhealthy"
    exact ⟨detail, (ite_self _).trans (congrArg (some ∘ ProbeCall.of_outcome) hprobe)⟩
  | dependency name probe required =>
    obtain ⟨detail, hprobe⟩ :=
      boolean_probe_eq name probe required "dependency reachable" "dependency unreachable"
    exact ⟨detail, (ite_self _).trans (congrArg (some ∘ ProbeCall.of_outcome) hprobe)⟩
  | lifecycle name probe required =>
    cases readiness with
    | false =>
      obtain ⟨detail, hprobe⟩ := lifecycle_probe_eq name probe required ServiceHealthSnapshot.live
      exact ⟨detail, congrArg (some ∘ ProbeCall.of_outcome) hprobe⟩
    | true =>
      obtain ⟨detail, hprobe⟩ := lifecycle_probe_eq name probe required ServiceHealthSnapshot.ready
      exact ⟨detail, congrArg (some ∘ ProbeCall.of_outcome) hprobe⟩

/-- The component of a registration: its probe makes the node unhealthy by failing if the component is
required, and by throwing. -/
theorem Registration.component_spec (call : Registration) : ∃ component,
    component_of readiness call.entry = some component ∧ component.name = call.name ∧
      ((component.required && !component.healthy) = true ↔
        (call.required = true ∧ call.Fails readiness) ∨ call.Throws readiness) := by
  obtain ⟨detail, hprobe⟩ := call.exists_probe readiness
  have hname : call.entry.name = call.name := by cases call <;> rfl
  refine ⟨_, by rw [component_of, hprobe, Option.map_some, hname], ?_⟩
  unfold Fails Throws
  obtain ⟨component, heq, hprobed⟩ | ⟨e, heq, detail', hprobed⟩ :=
    probed_of_outcome call.name ((call.outcome readiness).map fun healthy =>
      ⟨call.name, healthy, call.required, detail⟩)
  · obtain ⟨healthy, houtcome, rfl⟩ : ∃ healthy, call.outcome readiness = .ok healthy ∧
        (⟨call.name, healthy, call.required, detail⟩ : ComponentHealth) = component := by
      cases h : call.outcome readiness with
      | error e =>
        rw [h] at heq
        cases heq
      | ok healthy =>
        rw [h] at heq
        exact ⟨healthy, rfl, Except.ok.inj heq⟩
    rw [hprobed, ite_self, houtcome]
    exact ⟨rfl, by cases healthy <;> simp⟩
  · obtain ⟨e', houtcome⟩ : ∃ e, call.outcome readiness = .error e := by
      cases h : call.outcome readiness with
      | error e => exact ⟨e, rfl⟩
      | ok healthy =>
        rw [h] at heq
        cases heq
    rw [hprobed, houtcome]
    exact ⟨rfl, iff_of_true rfl (.inr ⟨e', rfl⟩)⟩

/-- What `evaluate` reports for registrations: every component once, in the order of the calls, and the node
as unhealthy if a required component fails or any probe throws. -/
theorem evaluate_registered_spec (role version : String) (calls : List Registration) (uptime_s : ℤ) :
    let response := (registered role version calls).evaluate uptime_s readiness
    response.components.map ComponentHealth.name = calls.map Registration.name ∧
      (response.healthy = false ↔
        ∃ call ∈ calls, (call.required = true ∧ call.Fails readiness) ∨ call.Throws readiness) := by
  rw [registered_eq]
  show ((calls.map Registration.entry).filterMap (component_of readiness)).map ComponentHealth.name = _ ∧
    ((((calls.map Registration.entry).filterMap (component_of readiness)).all fun component =>
      !(component.required && !component.healthy)) = false ↔ _)
  induction calls with
  | nil => exact ⟨rfl, iff_of_false (by simp) (by simp)⟩
  | cons call calls ih =>
    obtain ⟨component, hcomponent, hname, hfails⟩ := call.component_spec readiness
    rw [List.map_cons, List.filterMap_cons_some hcomponent, List.map_cons, List.map_cons, List.all_cons, hname, ih.1,
      Bool.and_eq_false_iff, ih.2, Bool.not_eq_false', hfails]
    exact ⟨rfl, by simp only [List.exists_mem_cons_iff]⟩

/-- Only the required components make the node unhealthy: `evaluate` returns and lists each component once in
the order of the calls, and the node is unhealthy exactly if a required component fails. -/
def OptionalNeverFails (role version : String) (calls : List Registration) (uptime_s : ℤ) : Prop :=
  ∃ response, (registered role version calls).evaluate_loop uptime_s readiness = .ok response ∧
    response.components.map ComponentHealth.name = calls.map Registration.name ∧
    (response.healthy = false ↔ ∃ call ∈ calls, call.required = true ∧ call.Fails readiness)

/-- A probe that throws fails. -/
theorem Registration.Throws.fails {call : Registration} (h : call.Throws readiness) : call.Fails readiness := by
  obtain ⟨e, he⟩ := h
  rw [Fails, he]
  exact nofun

/-- Optional components never make the node unhealthy, exactly if none of their probes throws or a required
component fails as well. -/
theorem optional_never_fails_iff (role version : String) (calls : List Registration) (uptime_s : ℤ) :
    OptionalNeverFails readiness role version calls uptime_s ↔
      ((∃ call ∈ calls, call.required = false ∧ call.Throws readiness) →
        ∃ call ∈ calls, call.required = true ∧ call.Fails readiness) := by
  obtain ⟨hnames, hhealthy⟩ := evaluate_registered_spec readiness role version calls uptime_s
  unfold OptionalNeverFails
  rw [AdminService.evaluate_loop_eq]
  constructor
  · rintro ⟨response, heq, -, hiff⟩ ⟨call, hmem, -, hthrows⟩
    rw [← Except.ok.inj heq, hhealthy] at hiff
    exact hiff.mp ⟨call, hmem, .inr hthrows⟩
  · intro hcase
    refine ⟨_, rfl, hnames, hhealthy.trans ?_⟩
    constructor
    · rintro ⟨call, hmem, hfails | hthrows⟩
      · exact ⟨call, hmem, hfails⟩
      · cases hrequired : call.required with
        | true => exact ⟨call, hmem, hrequired, hthrows.fails⟩
        | false => exact hcase ⟨call, hmem, hrequired, hthrows⟩
    · rintro ⟨call, hmem, hfails⟩
      exact ⟨call, hmem, .inl hfails⟩

/-- An optional dependency whose probe throws. -/
def throwing_dependency : Registration := .dependency "redis" (some (.error (.std "connection reset"))) false

end Registered

/-- With no other component, the node is neither healthy nor ready, and the component is listed as required. -/
theorem throwing_dependency_fails :
    (∀ readiness, (registered "gateway" "0.1.0" [throwing_dependency]).evaluate 0 readiness =
      { healthy := false
        role := "gateway"
        version := "0.1.0"
        components := [⟨"redis", false, true, "connection reset"⟩] }) ∧
      ∀ readiness, ¬OptionalNeverFails readiness "gateway" "0.1.0" [throwing_dependency] 0 := by
  refine ⟨by decide, fun readiness => ?_⟩
  rintro ⟨response, heq, -, hiff⟩
  have hunhealthy : response.healthy = false := by
    rw [AdminService.evaluate_loop_eq] at heq
    rw [← Except.ok.inj heq]
    cases readiness <;> rfl
  obtain ⟨call, hmem, hrequired, -⟩ := hiff.mp hunhealthy
  rw [List.mem_singleton.mp hmem] at hrequired
  cases hrequired

end SignalRoute
