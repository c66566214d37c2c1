import SignalRoute.Admin.Socket
import SignalRoute.Metrics.Registry
import SignalRoute.Text.Header

/-!
# The metrics exporter

`src/runtime/metrics_exporter.cpp`: `handle_client` reads a request as the admin socket does, and answers a `GET` of
the configured path with the text of the registry.

However the kernel splits a request that is complete, the answer is the same (`handle_client_complete`), and what a
client finds after the header of it is the text that was sent (`body_serialized`).
-/

namespace SignalRoute

open Store (HashOrder)
open Text (find find_ne_none_of_start)

/-- `MetricsExporterEndpoint`, the part of it that answers requests. -/
structure MetricsExporterEndpoint where
  path : String := "/metrics"
  max_request_bytes : ℕ := 8192

namespace MetricsExporter

/-- `parse_http_request`. -/
def parse_http_request (raw : List Char) : AdminHttpRequest :=
  let request_line := first_line raw
  match find [' '] request_line with
  | none => { method := "GET", path := "/" }
  | some first_space =>
    let target := request_line.drop (first_space + 1)
    match find [' '] target with
    | none => { method := "GET", path := "/" }
    | some length =>
      { method := String.ofList (request_line.take first_space)
        path := if length = 0 then "/" else String.ofList (target.take length) }

/-- `text_response`. -/
def text_response (body : String) (include_body : Bool) : AdminHttpResponse :=
  let response := standard_response 200 "text/plain; version=0.0.4" (if include_body then body else "")
  { response with headers := response.headers ++ [("Connection", "close")] }

/-- `error_response`. -/
def error_response (status_code : ℤ) (body : String) (include_body : Bool) : AdminHttpResponse :=
  let response := standard_response status_code "application/json" (if include_body then body else "")
  { response with headers := response.headers ++ [("Connection", "close")] }

/-- What `handle_client` answers to what it has read. -/
def respond (endpoint : MetricsExporterEndpoint) (order : HashOrder) (registry : MetricsRegistry) (raw : List Char)
    (timed_out : Bool) : AdminHttpResponse :=
  let complete := decide (find blank_line raw ≠ none)
  let payload_too_large := !complete && decide (endpoint.max_request_bytes ≤ raw.length)
  let request := parse_http_request raw
  let include_body := decide (request.method ≠ "HEAD")
  if payload_too_large then
    error_response 413 "\x7b\"error\":\"metrics request too large\"\x7d" include_body
  else if !complete && timed_out then
    error_response 408 "\x7b\"error\":\"metrics request timeout\"\x7d" include_body
  else if request.method ≠ "GET" ∧ request.method ≠ "HEAD" then
    error_response 405 "\x7b\"error\":\"method not allowed\"\x7d" include_body
  else if request.path ≠ endpoint.path then
    error_response 404 "\x7b\"error\":\"metrics path not found\"\x7d" include_body
  else text_response (registry.export_text order) include_body

/-- `handle_client`: the bytes that it sends. -/
def handle_client (endpoint : MetricsExporterEndpoint) (order : HashOrder) (registry : MetricsRegistry)
    (client : AdminClient) : String :=
  let (raw, timed_out) := receive client endpoint.max_request_bytes 0 [] client.stream
  serialize_http_response (respond endpoint order registry raw timed_out)

section Requests

variable {raw : List Char}

/-- A method and a path, up to the blank after it. -/
theorem parse_http_request_line {method path : String} {version : List Char} (hmethod : ' ' ∉ method.toList)
    (hpath : ' ' ∉ path.toList) (hne : path ≠ "")
    (hline : first_line raw = method.toList ++ ' ' :: (path.toList ++ ' ' :: version)) :
    parse_http_request raw = { method, path } := by
  have hfind : ∀ {word : List Char} (rest : List Char), ' ' ∉ word →
      find [' '] (word ++ ' ' :: rest) = some word.length := by
    intro word rest hword
    have hstart : [' '] <+: ' ' :: rest := ⟨rest, rfl⟩
    rw [Text.find_skip hword, find, if_pos hstart, Option.map_some, Nat.zero_add]
  have htarget : (method.toList ++ ' ' :: (path.toList ++ ' ' :: version)).drop (method.toList.length + 1) =
      path.toList ++ ' ' :: version := by
    rw [List.drop_length_add_append, List.drop_succ_cons, List.drop_zero]
  have hlength : path.toList.length ≠ 0 := fun h =>
    hne (String.toList_inj.mp (List.eq_nil_of_length_eq_zero h))
  unfold parse_http_request
  rw [hline]
  dsimp only
  rw [hfind _ hmethod]
  dsimp only
  rw [htarget, hfind _ hpath]
  dsimp only
  rw [if_neg hlength, List.take_left', List.take_left', String.ofList_toList, String.ofList_toList]
  · rfl
  · rfl

/-- What is sent for a complete request depends on its first line only. -/
theorem respond_complete (endpoint : MetricsExporterEndpoint) (order : HashOrder) (registry : MetricsRegistry)
    (hraw : find blank_line raw ≠ none) (timed_out : Bool) {request : AdminHttpRequest}
    (hrequest : parse_http_request raw = request) (hmethod : request.method = "GET")
    (hpath : request.path = endpoint.path) :
    respond endpoint order registry raw timed_out = text_response (registry.export_text order) true := by
  unfold respond
  dsimp only
  rw [decide_eq_true hraw, hrequest, Bool.not_true, Bool.false_and, Bool.false_and, if_neg Bool.false_ne_true,
    if_neg Bool.false_ne_true, if_neg fun h => h.1 hmethod, if_neg (not_not_intro hpath), hmethod]
  rfl

/-- However the kernel splits a complete request for the path, it is answered with the text. -/
theorem handle_client_complete (endpoint : MetricsExporterEndpoint) (order : HashOrder) (registry : MetricsRegistry)
    {client : AdminClient} (hrecv : ∀ i, client.recv i ≠ none) {version : List Char}
    (hpath : ' ' ∉ endpoint.path.toList) (hne : endpoint.path ≠ "")
    (hblank : find blank_line (client.stream.take endpoint.max_request_bytes) ≠ none)
    (hline : first_line (client.stream.take endpoint.max_request_bytes) =
      "GET".toList ++ ' ' :: (endpoint.path.toList ++ ' ' :: version)) :
    handle_client endpoint order registry client =
      serialize_http_response (text_response (registry.export_text order) true) := by
  have hread := @received_eq client endpoint.max_request_bytes hrecv
  unfold handle_client
  generalize receive client endpoint.max_request_bytes 0 [] client.stream = received at hread ⊢
  obtain ⟨raw, timed_out⟩ := received
  dsimp only at hread ⊢
  have hcomplete : find blank_line raw ≠ none := by
    obtain rfl | ⟨hraw, -⟩ := hread
    · exact hblank
    · exact hraw
  have hfirst : first_line raw = first_line (client.stream.take endpoint.max_request_bytes) := by
    obtain rfl | ⟨hraw, hstart⟩ := hread
    · rfl
    · exact first_line_of_start hraw hstart
  have hrequest := parse_http_request_line (by decide) hpath hne (hfirst.trans hline)
  rw [respond_complete endpoint order registry hcomplete timed_out hrequest rfl rfl]

end Requests

section Responses

/-- The lines of the header of a response with a text. -/
def header_lines (text : String) : List (List Char) :=
  ["HTTP/1.1 200 OK".toList, "Content-Type: text/plain; version=0.0.4".toList,
    "Content-Length: ".toList ++ (toString text.length).toList, "Cache-Control: no-store".toList,
    "Connection: close".toList]

/-- The bytes of a response are its header, a blank line and the text. -/
theorem toList_serialized (text : String) :
    (serialize_http_response (text_response text true)).toList =
      (header_lines text).flatMap (· ++ ['\r', '\n']) ++ '\r' :: '\n' :: text.toList := by
  have hcode : (toString (200 : ℤ)).toList = "200".toList := rfl
  unfold serialize_http_response text_response standard_response header_lines
  simp only [String.toList_append, String.toList_join, List.map_append, List.map_cons, List.map_nil,
    List.flatMap_cons, List.flatMap_nil, List.flatMap_append, hcode]
  simp [reason_phrase_for_status]

/-- They start with the status. -/
theorem status_line_serialized (text : String) :
    "HTTP/1.1 200 OK\r\n".toList <+: (serialize_http_response (text_response text true)).toList := by
  have hline : "HTTP/1.1 200 OK\r\n".toList = "HTTP/1.1 200 OK".toList ++ ['\r', '\n'] := by simp
  rw [toList_serialized, header_lines, List.flatMap_cons, List.append_assoc, hline]
  exact List.prefix_append _ _

/-- No line of the header is blank. -/
theorem header_lines_ne (text : String) : ∀ line ∈ header_lines text, line ≠ [] ∧ '\r' ∉ line := by
  have hlength : '\r' ∉ (toString text.length).toList := fun h =>
    absurd (Numeric.isDigit_of_mem_toString h) (by decide)
  intro line hline
  simp only [header_lines, List.mem_cons, List.not_mem_nil, or_false] at hline
  obtain rfl | rfl | rfl | rfl | rfl := hline
  · simp
  · simp
  · exact ⟨by simp, fun h => (List.mem_append.mp h).elim (by simp) hlength⟩
  · simp
  · simp

/-- A client finds the text after the header. -/
theorem body_serialized (text : String) :
    Text.body (serialize_http_response (text_response text true)).toList = some text.toList := by
  rw [toList_serialized]
  exact Text.body_lines (header_lines_ne text) text.toList

end Responses

end MetricsExporter

end SignalRoute
