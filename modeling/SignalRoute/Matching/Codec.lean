import SignalRoute.Processor.Codec

/-!
# Match payloads (CSV build)

`src/common/proto/matching_payload_codec.cpp` without protobuf: a request is decoded from its
payload, and a result is encoded and decoded.
-/

namespace SignalRoute

open Numeric (stoi stoll stod)

namespace matching_payload

/-- `split_csv`, which keeps an empty field at the end. -/
def split_csv (payload : String) (delimiter : Char) : List String :=
  let fields := (getlines delimiter payload.toList).map String.ofList
  if payload.toList.getLast? = some delimiter then fields ++ [""] else fields

/-- `join_ids`. -/
def join_ids (ids : List String) : String := ";".intercalate ids

end matching_payload

/-- `match_status_to_string`. -/
def match_status_to_string : MatchStatus → String
  | .MATCHED => "MATCHED"
  | .EXPIRED => "EXPIRED"
  | .FAILED => "FAILED"

/-- The fields of a payload as a request: the body of the `try`, whose conversions throw. -/
def match_request_of_fields
    (request_id requester_id lat lon radius_m max_agents deadline_ms strategy : String) :
    Except Numeric.ConversionError MatchRequest := do
  let lat ← stod lat
  let lon ← stod lon
  let radius_m ← stod radius_m
  let max_agents ← stoi max_agents
  let deadline_ms ← stoll deadline_ms
  return { request_id, requester_id, lat, lon, radius_m, max_agents, deadline_ms, strategy }

/-- `decode_csv_match_request_payload`. -/
def decode_csv_match_request_payload (payload : String) : Except String MatchRequest :=
  match matching_payload.split_csv payload ',' with
  | [request_id, requester_id, lat, lon, radius_m, max_agents, deadline_ms, strategy] =>
    match match_request_of_fields request_id requester_id lat lon radius_m max_agents deadline_ms
      strategy with
    | .ok request =>
      if request.request_id = "" then .error "request_id is required" else .ok request
    | .error _ => .error "invalid match request payload"
  | _ => .error "invalid match request payload"

/-- `decode_match_request_payload`. -/
def decode_match_request_payload (payload : String) : Except String MatchRequest :=
  decode_csv_match_request_payload payload

/-- `encode_match_result_payload`; the requester and the strategy are for the other build. -/
def encode_match_result_payload (result : MatchResult) (_requester_id _strategy : String) : String :=
  result.request_id ++ "," ++ match_status_to_string result.status ++ "," ++
    toString result.latency_ms ++ "," ++ result.reason ++ "," ++
    matching_payload.join_ids result.assigned_agent_ids

/-- `match_status_from_string`. -/
def match_status_from_string (value : String) : MatchStatus :=
  if value = "MATCHED" then .MATCHED else if value = "EXPIRED" then .EXPIRED else .FAILED

/-- `decode_csv_match_result_payload`. -/
def decode_csv_match_result_payload (payload : String) : Except String MatchResult :=
  match matching_payload.split_csv payload ',' with
  | [request_id, status, latency_ms, reason, ids] =>
    match stoll latency_ms with
    | .ok latency_ms =>
      if request_id = "" then .error "request_id is required"
      else .ok {
        request_id
        status := match_status_from_string status
        latency_ms
        reason
        assigned_agent_ids := if ids = "" then [] else matching_payload.split_csv ids ';' }
    | .error _ => .error "invalid match result payload"
  | _ => .error "invalid match result payload"

/-- `decode_match_result_payload`. -/
def decode_match_result_payload (payload : String) : Except String MatchResult :=
  decode_csv_match_result_payload payload

/-- A request whose last field is empty has eight fields all the same. -/
example : (decode_match_request_payload "r,u,1.5,2,300,2,0,").map MatchRequest.max_agents = .ok 2 := by
  decide +kernel

end SignalRoute
