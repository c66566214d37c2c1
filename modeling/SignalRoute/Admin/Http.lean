import SignalRoute.Admin.HealthJson
import SignalRoute.Config.Spatial

/-!
# Admin requests over HTTP

`src/common/admin`: the endpoints for health, readiness and metrics, and `AdminHttpHandler`, which routes
a request to the first of them that has its path. Health and readiness have an alias besides their
configured path; `routes_from_config` chooses it by this path only.

So an alias can be the path that is configured for another endpoint, which then does not answer there
(`configured_paths_iff`). The characters of a `String` stand for its bytes.
-/

namespace SignalRoute

/-- `AdminEndpointRequest`. -/
structure AdminEndpointRequest where
  accept : String := "application/json"

/-- `AdminEndpointResponse`. -/
structure AdminEndpointResponse where
  status_code : ℤ := 200
  content_type : String := ""
  body : String := ""
  deriving DecidableEq

/-- `AdminEndpointHandler`, with what it asks at a moment: its service's probes, the time since its start, and
the text of the metrics. -/
structure AdminEndpointHandler where
  admin : AdminService
  uptime_s : ℤ := 0
  metrics_text : String := ""

namespace AdminEndpointHandler

/-- What an endpoint answers for a health response. -/
def respond (health : HealthResponse) : AdminEndpointResponse where
  status_code := if health.healthy then 200 else 503
  content_type := "application/json"
  body := String.ofList (serialize_health_json health)

/-- `handle_health`. -/
def handle_health (handler : AdminEndpointHandler) (_ : AdminEndpointRequest) : AdminEndpointResponse :=
  respond (handler.admin.evaluate handler.uptime_s false)

/-- `handle_readiness`. -/
def handle_readiness (handler : AdminEndpointHandler) (_ : AdminEndpointRequest) : AdminEndpointResponse :=
  respond (handler.admin.evaluate handler.uptime_s true)

/-- `handle_metrics`. -/
def handle_metrics (handler : AdminEndpointHandler) (_ : AdminEndpointRequest) : AdminEndpointResponse where
  content_type := "text/plain; version=0.0.4"
  body := handler.metrics_text

end AdminEndpointHandler

/-- `AdminHttpRequest`. -/
structure AdminHttpRequest where
  method : String := "GET"
  path : String := "/health"
  accept : String := "application/json"

/-- `AdminHttpRoutes`. -/
structure AdminHttpRoutes where
  health_path : String := "/health"
  health_alias_path : String := "/healthz"
  readiness_path : String := "/ready"
  readiness_alias_path : String := "/readyz"
  metrics_path : String := "/metrics"

/-- `AdminHttpResponse`. -/
structure AdminHttpResponse where
  status_code : ℤ := 200
  reason_phrase : String := ""
  content_type : String := ""
  body : String := ""
  headers : List (String × String) := []
  deriving DecidableEq

/-- `reason_phrase_for_status`. -/
def reason_phrase_for_status (status_code : ℤ) : String :=
  if status_code = 200 then "OK"
  else if status_code = 404 then "Not Found"
  else if status_code = 408 then "Request Timeout"
  else if status_code = 405 then "Method Not Allowed"
  else if status_code = 413 then "Payload Too Large"
  else if status_code = 503 then "Service Unavailable"
  else "Unknown"

/-- A response with `add_standard_headers`. -/
def standard_response (status_code : ℤ) (content_type body : String) : AdminHttpResponse where
  status_code := status_code
  reason_phrase := reason_phrase_for_status status_code
  content_type := content_type
  body := body
  headers := [("Content-Type", content_type), ("Content-Length", toString body.length),
    ("Cache-Control", "no-store")]

/-- `serialize_http_response`. -/
def serialize_http_response (response : AdminHttpResponse) : String :=
  "HTTP/1.1 " ++ toString response.status_code ++ " " ++ response.reason_phrase ++ "\r\n" ++
    String.join (response.headers.map fun header => header.1 ++ ": " ++ header.2 ++ "\r\n") ++
    "\r\n" ++ response.body

/-- `AdminHttpHandler`. -/
structure AdminHttpHandler where
  endpoint_handler : AdminEndpointHandler
  routes : AdminHttpRoutes

/-- `is_health_path`. -/
def is_health_path (path : String) (routes : AdminHttpRoutes) : Bool :=
  path = routes.health_path || path = routes.health_alias_path

/-- `is_readiness_path`. -/
def is_readiness_path (path : String) (routes : AdminHttpRoutes) : Bool :=
  path = routes.readiness_path || path = routes.readiness_alias_path

/-- `is_metrics_path`. -/
def is_metrics_path (path : String) (routes : AdminHttpRoutes) : Bool := path = routes.metrics_path

/-- `method_can_route`. -/
def method_can_route (method : String) : Bool := method = "GET" || method = "HEAD"

namespace AdminHttpHandler

/-- `endpoint_to_http`. -/
def endpoint_to_http (response : AdminEndpointResponse) (include_body : Bool) : AdminHttpResponse :=
  standard_response response.status_code response.content_type (if include_body then response.body else "")

/-- `not_found`. -/
def not_found (include_body : Bool) : AdminHttpResponse :=
  standard_response 404 "application/json" (if include_body then "\x7b\"error\":\"not found\"\x7d" else "")

/-- `method_not_allowed`. -/
def method_not_allowed (include_body : Bool) : AdminHttpResponse :=
  let out := standard_response 405 "application/json"
    (if include_body then "\x7b\"error\":\"method not allowed\"\x7d" else "")
  { out with headers := out.headers ++ [("Allow", "GET, HEAD")] }

/-- `handle`. -/
def handle (handler : AdminHttpHandler) (request : AdminHttpRequest) : AdminHttpResponse :=
  let include_body := request.method ≠ "HEAD"
  if !method_can_route request.method then method_not_allowed include_body
  else if is_health_path request.path handler.routes then
    endpoint_to_http (handler.endpoint_handler.handle_health ⟨request.accept⟩) include_body
  else if is_readiness_path request.path handler.routes then
    endpoint_to_http (handler.endpoint_handler.handle_readiness ⟨request.accept⟩) include_body
  else if is_metrics_path request.path handler.routes then
    endpoint_to_http (handler.endpoint_handler.handle_metrics ⟨request.accept⟩) include_body
  else not_found include_body

/-- The answer does not depend on what the client accepts. -/
theorem handle_accept (handler : AdminHttpHandler) {request request' : AdminHttpRequest}
    (hmethod : request.method = request'.method) (hpath : request.path = request'.path) :
    handler.handle request = handler.handle request' := by
  unfold handle
  rw [hmethod, hpath]
  rfl

end AdminHttpHandler

namespace Config

/-- `require_non_empty`. -/
def require_non_empty (value name : String) : Except Exception Unit :=
  require (value ≠ "") (name ++ " must not be empty")

/-- `require_port_or_zero`. -/
def require_port_or_zero (value : ℤ) (name : String) : Except Exception Unit :=
  require (¬(value < 0 ∨ 65535 < value)) (name ++ " must be between 0 and 65535")

/-- `require_path`. -/
def require_path (value name : String) : Except Exception Unit := do
  require_non_empty value name
  require (value.toList.head? = some '/') (name ++ " must start with /")

/-- `ObservabilityConfig`, the part of it that is checked. -/
structure ObservabilitySection where
  metrics_addr : String := "0.0.0.0"
  metrics_port : ℤ := 9100
  metrics_path : String := "/metrics"
  log_level : String := "info"
  admin_socket_addr : String := "127.0.0.1"
  admin_socket_port : ℤ := 9101
  admin_socket_backlog : ℤ := 16
  admin_request_timeout_ms : ℤ := 1000
  admin_max_request_bytes : ℤ := 8192
  health_path : String := "/health"
  readiness_path : String := "/ready"

namespace ObservabilitySection

/-- The part of `validate_config` that checks the section. -/
def validate (config : ObservabilitySection) : Except Exception Unit := do
  require_non_empty config.metrics_addr "observability.metrics_addr"
  require_port_or_zero config.metrics_port "observability.metrics_port"
  require_path config.metrics_path "observability.metrics_path"
  require_non_empty config.admin_socket_addr "observability.admin_socket_addr"
  require_port_or_zero config.admin_socket_port "observability.admin_socket_port"
  require_positive config.admin_socket_backlog "observability.admin_socket_backlog"
  require_positive config.admin_request_timeout_ms "observability.admin_request_timeout_ms"
  require_positive config.admin_max_request_bytes "observability.admin_max_request_bytes"
  require_path config.health_path "observability.health_path"
  require_path config.readiness_path "observability.readiness_path"
  require (config.log_level ∈ ["trace", "debug", "info", "warn", "error"])
    ("observability.log_level is not supported: " ++ config.log_level)

/-- The defaults pass their checks. -/
theorem validate_default : validate {} = .ok () := rfl

end ObservabilitySection

end Config

open Config (ObservabilitySection)

/-- `routes_from_config`. -/
def routes_from_config (config : ObservabilitySection) : AdminHttpRoutes where
  health_path := config.health_path
  health_alias_path := if config.health_path = "/health" then "/healthz" else "/health"
  readiness_path := config.readiness_path
  readiness_alias_path := if config.readiness_path = "/ready" then "/readyz" else "/ready"
  metrics_path := config.metrics_path

/-- A GET on each configured path is answered by the path's own endpoint, whatever the endpoints answer. -/
def ConfiguredPaths (config : ObservabilitySection) : Prop :=
  ∀ (endpoints : AdminEndpointHandler) (accept : String),
    let handler : AdminHttpHandler := ⟨endpoints, routes_from_config config⟩
    handler.handle ⟨"GET", config.health_path, accept⟩ =
        AdminHttpHandler.endpoint_to_http (endpoints.handle_health ⟨accept⟩) true ∧
      handler.handle ⟨"GET", config.readiness_path, accept⟩ =
        AdminHttpHandler.endpoint_to_http (endpoints.handle_readiness ⟨accept⟩) true ∧
      handler.handle ⟨"GET", config.metrics_path, accept⟩ =
        AdminHttpHandler.endpoint_to_http (endpoints.handle_metrics ⟨accept⟩) true

/-- No path is an alias of an endpoint that comes before. -/
structure Unshadowed (config : ObservabilitySection) : Prop where
  readiness_health : config.readiness_path ≠ "/health"
  metrics_health : config.metrics_path ≠ "/health"
  metrics_ready : config.metrics_path ≠ "/ready"
  healthz : config.health_path = "/health" →
    config.readiness_path ≠ "/healthz" ∧ config.metrics_path ≠ "/healthz"
  readyz : config.readiness_path = "/ready" → config.metrics_path ≠ "/readyz"

section Routing

variable {config : ObservabilitySection}

/-- A path other than the configured one is an endpoint's by the alias. -/
theorem alias_iff {path own first second : String} (h : own ≠ path) :
    path = (if own = first then second else first) ↔ path = first ∨ (own = first ∧ path = second) := by
  split
  · rename_i heq
    refine ⟨fun hp => .inr ⟨heq, hp⟩, ?_⟩
    rintro (hp | ⟨-, hp⟩)
    · exact absurd (heq.trans hp.symm) h
    · exact hp
  · rename_i hne
    exact ⟨.inl, fun hp => hp.elim id fun hp => absurd hp.1 hne⟩

theorem is_health_path_iff {path : String} (h : config.health_path ≠ path) :
    is_health_path path (routes_from_config config) = true ↔
      path = "/health" ∨ (config.health_path = "/health" ∧ path = "/healthz") := by
  unfold is_health_path routes_from_config
  rw [Bool.or_eq_true, decide_eq_true_eq, decide_eq_true_eq, or_iff_right (Ne.symm h), alias_iff h]

theorem is_readiness_path_iff {path : String} (h : config.readiness_path ≠ path) :
    is_readiness_path path (routes_from_config config) = true ↔
      path = "/ready" ∨ (config.readiness_path = "/ready" ∧ path = "/readyz") := by
  unfold is_readiness_path routes_from_config
  rw [Bool.or_eq_true, decide_eq_true_eq, decide_eq_true_eq, or_iff_right (Ne.symm h), alias_iff h]

/-- What a GET does. -/
theorem handle_get (handler : AdminHttpHandler) (path accept : String) :
    handler.handle ⟨"GET", path, accept⟩ =
      if is_health_path path handler.routes then
        AdminHttpHandler.endpoint_to_http (handler.endpoint_handler.handle_health ⟨accept⟩) true
      else if is_readiness_path path handler.routes then
        AdminHttpHandler.endpoint_to_http (handler.endpoint_handler.handle_readiness ⟨accept⟩) true
      else if is_metrics_path path handler.routes then
        AdminHttpHandler.endpoint_to_http (handler.endpoint_handler.handle_metrics ⟨accept⟩) true
      else AdminHttpHandler.not_found true := rfl

/-- A node that is healthy and not ready. -/
def draining_endpoints : AdminEndpointHandler where
  admin := { role := "gateway", components := [⟨"store", none, some (.throws none)⟩] }

/-- Its three endpoints have different answers. -/
theorem draining_endpoints_ne (accept : String) :
    let health := AdminHttpHandler.endpoint_to_http (draining_endpoints.handle_health ⟨accept⟩) true
    let readiness := AdminHttpHandler.endpoint_to_http (draining_endpoints.handle_readiness ⟨accept⟩) true
    let metrics := AdminHttpHandler.endpoint_to_http (draining_endpoints.handle_metrics ⟨accept⟩) true
    health ≠ readiness ∧ health ≠ metrics ∧ readiness ≠ metrics := by
  refine ⟨fun h => ?_, fun h => ?_, fun h => ?_⟩
  · exact absurd (congrArg AdminHttpResponse.status_code h) (show (200 : ℤ) ≠ 503 by decide)
  · exact absurd (congrArg AdminHttpResponse.content_type h)
      (show "application/json" ≠ "text/plain; version=0.0.4" by decide)
  · exact absurd (congrArg AdminHttpResponse.status_code h) (show (503 : ℤ) ≠ 200 by decide)

/-- Three different paths are answered by their own endpoints, exactly if none of them is the alias of an
endpoint that is asked before. -/
theorem configured_paths_iff (hready : config.health_path ≠ config.readiness_path)
    (hmetrics : config.health_path ≠ config.metrics_path)
    (hother : config.readiness_path ≠ config.metrics_path) :
    ConfiguredPaths config ↔ Unshadowed config := by
  have hhealth : is_health_path config.health_path (routes_from_config config) = true := by
    simp [is_health_path, routes_from_config]
  have hreadiness : is_readiness_path config.readiness_path (routes_from_config config) = true := by
    simp [is_readiness_path, routes_from_config]
  have hmetric : is_metrics_path config.metrics_path (routes_from_config config) = true :=
    decide_eq_true rfl
  constructor
  · intro h
    obtain ⟨-, hanswer, hanswer'⟩ := h draining_endpoints ""
    obtain ⟨hne, hne', hne''⟩ := draining_endpoints_ne ""
    rw [handle_get] at hanswer hanswer'
    have hready_own : ¬is_health_path config.readiness_path (routes_from_config config) = true := by
      intro hp
      rw [if_pos hp] at hanswer
      exact hne hanswer
    have hmetrics_own : ¬is_health_path config.metrics_path (routes_from_config config) = true := by
      intro hp
      rw [if_pos hp] at hanswer'
      exact hne' hanswer'
    have hmetrics_ready : ¬is_readiness_path config.metrics_path (routes_from_config config) = true := by
      intro hp
      rw [if_neg hmetrics_own, if_pos hp] at hanswer'
      exact hne'' hanswer'
    rw [is_health_path_iff hready, not_or] at hready_own
    rw [is_health_path_iff hmetrics, not_or] at hmetrics_own
    rw [is_readiness_path_iff hother, not_or] at hmetrics_ready
    exact ⟨hready_own.1, hmetrics_own.1, hmetrics_ready.1,
      fun hp => ⟨fun hz => hready_own.2 ⟨hp, hz⟩, fun hz => hmetrics_own.2 ⟨hp, hz⟩⟩,
      fun hp hz => hmetrics_ready.2 ⟨hp, hz⟩⟩
  · intro h endpoints accept handler
    have hready_own : ¬is_health_path config.readiness_path (routes_from_config config) = true := by
      rw [is_health_path_iff hready]
      exact fun hp => hp.elim h.readiness_health fun hp => (h.healthz hp.1).1 hp.2
    have hmetrics_own : ¬is_health_path config.metrics_path (routes_from_config config) = true := by
      rw [is_health_path_iff hmetrics]
      exact fun hp => hp.elim h.metrics_health fun hp => (h.healthz hp.1).2 hp.2
    have hmetrics_ready : ¬is_readiness_path config.metrics_path (routes_from_config config) = true := by
      rw [is_readiness_path_iff hother]
      exact fun hp => hp.elim h.metrics_ready fun hp => h.readyz hp.1 hp.2
    refine ⟨?_, ?_, ?_⟩
    · rw [handle_get, if_pos hhealth]
    · rw [handle_get, if_neg hready_own, if_pos hreadiness]
    · rw [handle_get, if_neg hmetrics_own, if_neg hmetrics_ready, if_pos hmetric]

/-- The default paths are answered by their own endpoints. -/
theorem configured_paths_default : ConfiguredPaths {} :=
  (configured_paths_iff (by decide) (by decide) (by decide)).mpr
    ⟨by decide, by decide, by decide, by decide, by decide⟩

/-- Liveness at a path of its own, and readiness at `/health`. -/
def health_readiness : ObservabilitySection where
  health_path := "/livez"
  readiness_path := "/health"

/-- The node that is not ready is reported as ready there. -/
theorem not_configured_paths : health_readiness.validate = .ok () ∧
    (health_readiness.health_path ≠ health_readiness.readiness_path ∧
      health_readiness.health_path ≠ health_readiness.metrics_path ∧
      health_readiness.readiness_path ≠ health_readiness.metrics_path) ∧
    (AdminHttpHandler.mk draining_endpoints (routes_from_config health_readiness)).handle
        ⟨"GET", health_readiness.readiness_path, ""⟩ =
      AdminHttpHandler.endpoint_to_http (draining_endpoints.handle_health ⟨""⟩) true ∧
    ¬ConfiguredPaths health_readiness := by
  have hanswer : (AdminHttpHandler.mk draining_endpoints (routes_from_config health_readiness)).handle
      ⟨"GET", health_readiness.readiness_path, ""⟩ =
      AdminHttpHandler.endpoint_to_http (draining_endpoints.handle_health ⟨""⟩) true := by
    rw [handle_get, if_pos (by decide)]
  refine ⟨rfl, by decide, hanswer, fun h => ?_⟩
  exact (draining_endpoints_ne "").1 (hanswer.symm.trans (h draining_endpoints "").2.1)

end Routing

end SignalRoute
