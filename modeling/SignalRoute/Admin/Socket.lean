import SignalRoute.Admin.Http
import SignalRoute.Logging.Logfmt
import SignalRoute.Text.Find

/-!
# Admin requests from a socket

`src/runtime/admin_socket_server.cpp`: `handle_client` reads a request until its blank line, until it has as
many bytes as a request may have, or until the client sends no more, and answers it through the request
loop.

The kernel decides how many bytes a call of `recv` gives, and so how far the read goes beyond the blank
line. What was read is the start of the stream that a request may fill, or a start of that with the blank
line in it (`received_eq`); the answer depends on that start only (`handle_client_spec`).
-/

namespace SignalRoute

open Text (find find_append drop_of_find find_ne_none_iff find_ne_none_of_start)

/-- `RuntimeApplication`, the part of it that answers admin requests. -/
structure AdminRuntime where
  admin_http_enabled : Bool := true
  admin_http : AdminHttpHandler

/-- `RuntimeApplication::handle_admin_http`. -/
def AdminRuntime.handle_admin_http (runtime : AdminRuntime) (request : AdminHttpRequest) : AdminHttpResponse :=
  if !runtime.admin_http_enabled then
    standard_response 404 "application/json" "\x7b\"error\":\"admin http disabled\"\x7d"
  else runtime.admin_http.handle request

/-- `AdminRequestLoop`. -/
structure AdminRequestLoop where
  running : Bool := true
  handled_requests : ℕ := 0
  runtime : AdminRuntime

/-- `AdminRequestLoop::handle`. -/
def AdminRequestLoop.handle (loop : AdminRequestLoop) (request : AdminHttpRequest) :
    AdminHttpResponse × AdminRequestLoop :=
  if !loop.running then
    (standard_response 503 "application/json" "\x7b\"error\":\"admin request loop stopped\"\x7d", loop)
  else
    (loop.runtime.handle_admin_http request, { loop with handled_requests := loop.handled_requests + 1 })

/-- The end of a line. -/
def crlf : List Char := ['\r', '\n']

/-- The blank line after the header, with the end of the line before. -/
def blank_line : List Char := ['\r', '\n', '\r', '\n']

/-- The first line of a text, or all of it. -/
def first_line (raw : List Char) : List Char := raw.take ((find crlf raw).getD raw.length)

/-- What the client accepts, by the header that says so. -/
def accept_of (raw : List Char) : String :=
  match find "Accept:".toList raw with
  | none => "application/json"
  | some pos => String.ofList (first_line ((raw.drop (pos + 7)).dropWhile fun c => c = ' '))

/-- `parse_http_request`. -/
def parse_http_request (raw : List Char) : AdminHttpRequest :=
  let request_line := first_line raw
  match find [' '] request_line with
  | none => { method := "GET", path := "/health" }
  | some first_space =>
    let target := request_line.drop (first_space + 1)
    match find [' '] target with
    | none => { method := "GET", path := "/health" }
    | some length =>
      { method := String.ofList (request_line.take first_space)
        path := if length = 0 then "/health" else String.ofList (target.take length)
        accept := accept_of raw }

/-- `admin_error_response`. -/
def admin_error_response (status_code : ℤ) (body : String) : AdminHttpResponse :=
  let response := standard_response status_code "application/json" body
  { response with headers := response.headers ++ [("Connection", "close")] }

/-- A client: the bytes that it sends, whether it then closes its side, what the calls of `recv` give, and how
many bytes of the response it takes. The `i`-th call gives at least one byte and at most `n` more if
`recv i` is `some n`, and times out if it is `none`. -/
structure AdminClient where
  stream : List Char
  eof : Bool
  recv : ℕ → Option ℕ
  accepts : ℕ

/-- The loop of `handle_client`: the bytes that were read, and whether a read timed out. -/
def receive (client : AdminClient) (max_request_bytes call : ℕ) (raw left : List Char) : List Char × Bool :=
  if find blank_line raw = none ∧ raw.length < max_request_bytes then
    match client.recv call with
    | none => (raw, true)
    | some n =>
      if left = [] then (raw, !client.eof)
      else receive client max_request_bytes (call + 1)
        (raw ++ left.take (min (min (max_request_bytes - raw.length) 1024) (n + 1)))
        (left.drop (min (min (max_request_bytes - raw.length) 1024) (n + 1)))
  else (raw, false)
termination_by left.length
decreasing_by
  rw [List.length_drop]
  have := List.length_pos_iff.mpr ‹left ≠ []›
  omega

/-- What a connection leads to: the response, the entry of the access log, and the loop afterwards. -/
structure HandledClient where
  response : AdminHttpResponse
  entry : AdminSocketAccessLogEntry
  loop : AdminRequestLoop

/-- `AdminSocketServer::handle_client`. -/
def handle_client (loop : AdminRequestLoop) (max_request_bytes : ℕ) (client : AdminClient) : HandledClient :=
  let (raw, timed_out) := receive client max_request_bytes 0 [] client.stream
  let complete := decide (find blank_line raw ≠ none)
  let payload_too_large := !complete && decide (max_request_bytes ≤ raw.length)
  let request := parse_http_request raw
  let (response, loop) :=
    if payload_too_large then
      (admin_error_response 413 "\x7b\"error\":\"admin request too large\"\x7d", loop)
    else if !complete && timed_out then
      (admin_error_response 408 "\x7b\"error\":\"admin request timeout\"\x7d", loop)
    else loop.handle request
  let serialized := serialize_http_response response
  { response := response
    entry := {
      method := request.method
      path := request.path
      status_code := response.status_code
      request_bytes := raw.length
      response_bytes := min serialized.length client.accepts
      timed_out := timed_out && !complete
      payload_too_large := payload_too_large }
    loop := loop }

section Receive

variable {client : AdminClient} {max_request_bytes : ℕ}

/-- What the loop reads is a start of the bytes that are there, as long as a request may be at most. It stops
before that only with the blank line, or when there is nothing more. -/
theorem receive_spec (hrecv : ∀ i, client.recv i ≠ none) (call : ℕ) (raw left : List Char)
    (hraw : raw.length ≤ max_request_bytes) :
    let received := receive client max_request_bytes call raw left
    received.1 <+: raw ++ left ∧ received.1.length ≤ max_request_bytes ∧
      (find blank_line received.1 ≠ none ∨ received.1.length = max_request_bytes ∨ received.1 = raw ++ left) ∧
      (received.2 = true → client.eof = false ∧ received.1 = raw ++ left ∧
        find blank_line received.1 = none ∧ received.1.length < max_request_bytes) := by
  fun_induction receive client max_request_bytes call raw left with
  | case1 call raw left hmore hnone => exact absurd hnone (hrecv call)
  | case2 call raw hmore n hn =>
    rw [List.append_nil]
    refine ⟨List.prefix_rfl, hraw, .inr (.inr rfl), fun h => ⟨?_, rfl, hmore⟩⟩
    exact Bool.not_eq_true' _ ▸ h
  | case3 call raw left hmore n hn hleft ih =>
    have hread : (raw ++ left.take (min (min (max_request_bytes - raw.length) 1024) (n + 1))).length ≤
        max_request_bytes := by
      rw [List.length_append, List.length_take]
      omega
    have hspec := ih hread
    rwa [List.append_assoc, List.take_append_drop] at hspec
  | case4 call raw left hstop =>
    refine ⟨List.prefix_append raw left, hraw, ?_, fun h => by cases h⟩
    by_cases hblank : find blank_line raw = none
    · exact .inr (.inl (Nat.le_antisymm hraw (not_lt.mp fun hlt => hstop ⟨hblank, hlt⟩)))
    · exact .inl hblank

/-- What was read is the start that a request may fill, or a start of it with the blank line. -/
theorem received_eq (hrecv : ∀ i, client.recv i ≠ none) :
    let raw := (receive client max_request_bytes 0 [] client.stream).1
    raw = client.stream.take max_request_bytes ∨
      (find blank_line raw ≠ none ∧ raw <+: client.stream.take max_request_bytes) := by
  obtain ⟨hstart, hlength, hend, -⟩ := receive_spec hrecv 0 [] client.stream (Nat.zero_le max_request_bytes)
  rw [List.nil_append] at hstart hend
  obtain hblank | hfull | hall := hend
  · exact .inr ⟨hblank, List.prefix_take_iff.mpr ⟨hstart, hlength⟩⟩
  · exact .inl ((List.prefix_iff_eq_take.mp hstart).trans (by rw [hfull]))
  · left
    rw [hall, List.take_of_length_le (hall ▸ hlength)]

/-- No read times out where the client closes its side, sends the blank line, or sends as much as a request
may have. -/
theorem received_in_time (hrecv : ∀ i, client.recv i ≠ none)
    (hends : client.eof = true ∨ find blank_line client.stream ≠ none ∨
      max_request_bytes ≤ client.stream.length) :
    (receive client max_request_bytes 0 [] client.stream).2 = false := by
  obtain ⟨-, -, -, htime⟩ := receive_spec hrecv 0 [] client.stream (Nat.zero_le max_request_bytes)
  refine Bool.eq_false_iff.mpr fun h => ?_
  obtain ⟨heof, hall, hblank, hshort⟩ := htime h
  rw [hall, List.nil_append] at hblank hshort
  obtain hends | hends | hends := hends
  · rw [heof] at hends
    cases hends
  · exact hends hblank
  · omega

end Receive

section Parse

variable {raw text : List Char}

/-- The blank line ends a line. -/
theorem find_crlf_of_blank_line (h : find blank_line raw ≠ none) : find crlf raw ≠ none :=
  find_ne_none_iff.mpr ((List.infix_append [] crlf crlf).trans (find_ne_none_iff.mp h))

/-- The first line of a text does not change when the text goes on after it. -/
theorem first_line_of_start (hblank : find blank_line raw ≠ none) (h : raw <+: text) :
    first_line raw = first_line text := by
  obtain ⟨i, hi⟩ := Option.ne_none_iff_exists'.mp (find_crlf_of_blank_line hblank)
  obtain ⟨more, rfl⟩ := h
  unfold first_line
  rw [hi, find_append hi, Option.getD_some, Option.getD_some, List.take_append_of_le_length (drop_of_find hi).1]

/-- The method and the path are those of the first line. -/
theorem parse_http_request_congr (h : first_line raw = first_line text) :
    (parse_http_request raw).method = (parse_http_request text).method ∧
      (parse_http_request raw).path = (parse_http_request text).path := by
  unfold parse_http_request
  rw [h]
  dsimp only
  cases find [' '] (first_line text) with
  | none => exact ⟨rfl, rfl⟩
  | some first_space =>
    dsimp only
    cases find [' '] ((first_line text).drop (first_space + 1)) with
    | none => exact ⟨rfl, rfl⟩
    | some length => exact ⟨rfl, rfl⟩

/-- The loop answers by the method and the path. -/
theorem AdminRequestLoop.handle_congr (loop : AdminRequestLoop) {request request' : AdminHttpRequest}
    (hmethod : request.method = request'.method) (hpath : request.path = request'.path) :
    loop.handle request = loop.handle request' := by
  unfold AdminRequestLoop.handle AdminRuntime.handle_admin_http
  rw [loop.runtime.admin_http.handle_accept hmethod hpath]

end Parse

section Answer

variable (loop : AdminRequestLoop) (max_request_bytes : ℕ)

/-- The answer to a stream, by the start of it that a request may fill. -/
def answer (stream : List Char) : AdminHttpResponse × AdminRequestLoop :=
  let first := stream.take max_request_bytes
  if find blank_line first = none ∧ max_request_bytes ≤ stream.length then
    (admin_error_response 413 "\x7b\"error\":\"admin request too large\"\x7d", loop)
  else loop.handle (parse_http_request first)

/-- What `handle_client` does is a function of this start. -/
theorem handle_client_spec {client : AdminClient} (hrecv : ∀ i, client.recv i ≠ none)
    (hends : client.eof = true ∨ find blank_line client.stream ≠ none ∨
      max_request_bytes ≤ client.stream.length) :
    let handled := handle_client loop max_request_bytes client
    let request := parse_http_request (client.stream.take max_request_bytes)
    (handled.response, handled.loop) = answer loop max_request_bytes client.stream ∧
      handled.entry.method = request.method ∧ handled.entry.path = request.path ∧
      handled.entry.timed_out = false ∧
      (find blank_line (receive client max_request_bytes 0 [] client.stream).1 ≠ none ↔
        find blank_line (client.stream.take max_request_bytes) ≠ none) ∧
      (handled.entry.payload_too_large = true ↔
        find blank_line (client.stream.take max_request_bytes) = none ∧
          max_request_bytes ≤ client.stream.length) := by
  have htime := received_in_time hrecv hends
  have hread := @received_eq client max_request_bytes hrecv
  unfold handle_client answer
  generalize receive client max_request_bytes 0 [] client.stream = received at htime hread ⊢
  obtain ⟨raw, timed_out⟩ := received
  obtain rfl : timed_out = false := htime
  dsimp only at hread ⊢
  have hcomplete : find blank_line raw ≠ none ↔ find blank_line (client.stream.take max_request_bytes) ≠ none := by
    obtain rfl | ⟨hblank, hstart⟩ := hread
    · exact Iff.rfl
    · exact iff_of_true hblank (find_ne_none_of_start hstart hblank)
  have hline : first_line raw = first_line (client.stream.take max_request_bytes) := by
    obtain rfl | ⟨hblank, hstart⟩ := hread
    · rfl
    · exact first_line_of_start hblank hstart
  obtain ⟨hmethod, hpath⟩ := parse_http_request_congr hline
  have hlarge : (!decide (find blank_line raw ≠ none) && decide (max_request_bytes ≤ raw.length)) =
      decide (find blank_line (client.stream.take max_request_bytes) = none ∧
        max_request_bytes ≤ client.stream.length) := by
    obtain rfl | ⟨hblank, -⟩ := hread
    · rw [Bool.decide_and, List.length_take]
      simp
    · rw [decide_eq_true hblank]
      exact (decide_eq_false fun h => hcomplete.mp hblank h.1).symm
  have hloop := loop.handle_congr hmethod hpath
  rw [hlarge, Bool.and_false, Bool.false_and, if_neg Bool.false_ne_true, hloop]
  refine ⟨?_, hmethod, hpath, rfl, hcomplete, decide_eq_true_iff⟩
  by_cases hfull : find blank_line (client.stream.take max_request_bytes) = none ∧
      max_request_bytes ≤ client.stream.length
  · rw [decide_eq_true hfull, if_pos rfl, if_pos hfull]
  · rw [decide_eq_false hfull, if_neg Bool.false_ne_true, if_neg hfull]

/-- However the kernel splits a stream, the client gets the same response and the loop is left the same, for
the same method and path. The request is complete if its blank line ends in the bytes that a request may
have, and too large if there are as many bytes without it. -/
theorem handle_client_segmentation {stream : List Char} {eof : Bool}
    (hends : eof = true ∨ find blank_line stream ≠ none ∨ max_request_bytes ≤ stream.length)
    {recv recv' : ℕ → Option ℕ} (hrecv : ∀ i, recv i ≠ none) (hrecv' : ∀ i, recv' i ≠ none)
    (accepts accepts' : ℕ) :
    let handled := handle_client loop max_request_bytes ⟨stream, eof, recv, accepts⟩
    let handled' := handle_client loop max_request_bytes ⟨stream, eof, recv', accepts'⟩
    let raw := (receive ⟨stream, eof, recv, accepts⟩ max_request_bytes 0 [] stream).1
    (handled.response = handled'.response ∧ handled.entry.method = handled'.entry.method ∧
      handled.entry.path = handled'.entry.path ∧ handled.loop = handled'.loop) ∧
    (find blank_line raw ≠ none ↔ find blank_line (stream.take max_request_bytes) ≠ none) ∧
    (handled.entry.payload_too_large = true ↔
      find blank_line (stream.take max_request_bytes) = none ∧ max_request_bytes ≤ stream.length) ∧
    handled.entry.timed_out = false := by
  obtain ⟨hanswer, hmethod, hpath, htime, hcomplete, hlarge⟩ :=
    @handle_client_spec loop max_request_bytes ⟨stream, eof, recv, accepts⟩ hrecv hends
  obtain ⟨hanswer', hmethod', hpath', -⟩ :=
    @handle_client_spec loop max_request_bytes ⟨stream, eof, recv', accepts'⟩ hrecv' hends
  obtain ⟨hresponse, hloop⟩ := Prod.mk.inj (hanswer.trans hanswer'.symm)
  exact ⟨⟨hresponse, hmethod.trans hmethod'.symm, hpath.trans hpath'.symm, hloop⟩, hcomplete, hlarge, htime⟩

/-- A request byte by byte, and as much at once as the loop asks for. -/
theorem handle_client_segmentation_bytes :
    let stream := "GET /ready HTTP/1.1\r\n\r\n".toList
    let loop : AdminRequestLoop := { runtime := { admin_http := ⟨draining_endpoints, {}⟩ } }
    (handle_client loop 64 ⟨stream, true, fun _ => some 0, 4096⟩).response =
      (handle_client loop 64 ⟨stream, true, fun _ => some 1023, 4096⟩).response :=
  (handle_client_segmentation _ _ (.inl rfl) (fun _ => Option.some_ne_none 0) (fun _ => Option.some_ne_none 1023)
    4096 4096).1.1

end Answer

end SignalRoute
