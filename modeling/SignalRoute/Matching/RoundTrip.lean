import SignalRoute.Matching.Codec
import SignalRoute.Matching.Service
import SignalRoute.Numeric.Decimal

/-!
# Match results from the service to the requester

What a requester decodes of a result that the service has encoded. A result has the id of its
request and names no agent with an empty id, whatever the strategy does (`Returned.names`). Its five
fields come back unless one of them has a comma in it, and the agents unless one of their ids has a
semicolon (`match_result_round_trips_iff`).
-/

namespace SignalRoute

open Interaction (Prog Handler)
open Interaction.Prog (perform ofExcept always_bind)
open Numeric (comma_notMem_int stoll_toString)

namespace matching_payload

/-- The fields of a payload that is not empty are its pieces. -/
theorem split_csv_eq {payload : String} (delimiter : Char) (hne : payload ≠ "") :
    split_csv payload delimiter = (payload.toList.splitOn delimiter).map String.ofList := by
  have hchars : payload.toList ≠ [] := by
    rwa [ne_eq, String.toList_eq_nil_iff]
  have hlast := getLast?_splitOn_iff delimiter hchars
  unfold split_csv getlines
  dsimp only
  by_cases hends : payload.toList.getLast? = some delimiter
  · -- The empty piece that `getline` leaves out is added again.
    obtain ⟨before, hpieces⟩ := List.getLast?_eq_some_iff.mp (hlast.mpr hends)
    rw [if_pos hends, if_pos (hlast.mpr hends), hpieces, List.dropLast_concat, List.map_append]
    rfl
  · rw [if_neg hends, if_neg (mt hlast.mp hends)]

/-- A field has no delimiter and is a part of the payload. -/
theorem field_of_mem_split_csv {payload f : String} {delimiter : Char} (h : f ∈ split_csv payload delimiter) :
    delimiter ∉ f.toList ∧ f.toList ⊆ payload.toList := by
  by_cases hne : payload = ""
  · subst hne
    cases h
  · rw [split_csv_eq delimiter hne] at h
    obtain ⟨piece, hpiece, rfl⟩ := List.mem_map.mp h
    rw [String.toList_ofList]
    exact piece_of_mem_splitOn hpiece

/-- Ids without a semicolon, none of which is empty, are split again. -/
theorem split_csv_join_ids {ids : List String} (hempty : ids ≠ []) (hnames : ∀ id ∈ ids, id ≠ "")
    (hids : ∀ id ∈ ids, ';' ∉ id.toList) :
    join_ids ids ≠ "" ∧ split_csv (join_ids ids) ';' = ids := by
  have htext : (join_ids ids).toList = [';'].intercalate (ids.map String.toList) := by
    unfold join_ids
    rw [String.toList_intercalate]
    rfl
  have hpieces : (join_ids ids).toList.splitOn ';' = ids.map String.toList := by
    rw [htext]
    refine List.splitOn_intercalate ';' ?_ (by simpa using hempty)
    simpa using hids
  have hne : join_ids ids ≠ "" := by
    intro heq
    rw [heq] at hpieces
    have hnil : [] ∈ ids.map String.toList := hpieces ▸ List.mem_singleton.mpr rfl
    obtain ⟨id, hid, hnil⟩ := List.mem_map.mp hnil
    exact hnames id hid (String.toList_eq_nil_iff.mp hnil)
  refine ⟨hne, ?_⟩
  rw [split_csv_eq ';' hne, hpieces, List.map_map]
  exact List.map_id'' (fun id => String.ofList_toList) ids

/-- The joined ids have the characters of the ids, and semicolons. -/
theorem mem_join_ids {ids : List String} {c : Char} (h : c ∈ (join_ids ids).toList) :
    c = ';' ∨ ∃ id ∈ ids, c ∈ id.toList := by
  unfold join_ids at h
  induction ids with
  | nil => cases h
  | cons id ids ih =>
    by_cases hempty : ids = []
    · rw [hempty, String.intercalate_singleton] at h
      exact .inr ⟨id, List.mem_cons_self, h⟩
    · rw [String.intercalate_cons_of_ne_nil hempty, String.toList_append, String.toList_append,
        List.mem_append, List.mem_append] at h
      rcases h with (hid | hsemicolon) | hlater
      · exact .inr ⟨id, List.mem_cons_self, hid⟩
      · exact .inl (List.mem_singleton.mp hsemicolon)
      · exact (ih hlater).imp_right fun ⟨id', hmem, hc⟩ => ⟨id', List.mem_cons_of_mem _ hmem, hc⟩

end matching_payload

/-- The status of a result is read back from its text. -/
theorem match_status_from_string_to_string (status : MatchStatus) :
    match_status_from_string (match_status_to_string status) = status := by
  cases status <;> rfl

/-- A result has the id of its request, and the agents that it names have ids. -/
structure MatchResult.Names (request_id : String) (result : MatchResult) : Prop where
  request_id : result.request_id = request_id
  assigned : ∀ id ∈ result.assigned_agent_ids, id ≠ ""

/-- A result that a request with an id can get, from a match or from the whole request, whatever the
strategy and the context do. -/
inductive MatchResult.Returned (result : MatchResult) : Prop
  | match_once {D σ : Type} (service : MatchingService D) (h : Handler (MatchCall D) σ)
      (request : MatchRequest) (candidates : List (MatchCandidate D)) (s : σ) :
      request.request_id ≠ "" →
      ((service.match_once request candidates).exec h s).result = .ok result → Returned result
  | handle_request {D σ : Type} (service : MatchingService D) (h : Handler (MatchCall D) σ)
      (request : MatchRequest) (s : σ) :
      request.request_id ≠ "" →
      ((service.handle_request request).exec h s).result = .ok result → Returned result

namespace MatchingService

variable {D σ : Type} {h : Handler (MatchCall D) σ}

/-- Nothing is said of a program's run. -/
theorem always_true {α : Type} (p : MatchProgram D α) (s : σ) :
    p.Always h (fun _ => True) (fun _ _ => True) (fun _ _ => True) s :=
  Prog.always_of_forall_call (fun _ _ _ => trivial) p s trivial

/-- A failed result names no agents. -/
theorem always_failed (p : MatchProgram D (List String)) (request : MatchRequest) (reason : String) (s : σ) :
    (p.bind fun _ => Prog.pure (failed_result request reason)).Always h (fun _ => True)
      (fun result _ => result.Names request.request_id) (fun _ _ => True) s := by
  rw [always_bind]
  exact (always_true p s).imp (fun _ => id) (fun _ _ _ => ⟨rfl, nofun⟩) fun _ _ => id

/-- What `match_once` makes of the outcome of the strategy names the agents that it has checked. -/
theorem always_settle_names (request : MatchRequest) (started_ms : ℤ)
    (outcome : Except Exception (List String)) (reserved : List String) (s : σ) :
    (settle (D := D) request started_ms outcome reserved).Always h (fun _ => True)
      (fun result _ => result.Names request.request_id) (fun _ _ => True) s := by
  unfold settle
  -- Each way to fail ends in `failed_result`, which names no agent.
  cases outcome with
  | error e =>
    cases e with
    | std what => exact always_failed _ request what s
    | other => exact always_failed _ request "matching strategy failed" s
  | ok ids =>
    dsimp only
    by_cases hempty : request.cut ids = []
    · rw [if_pos hempty]
      exact always_failed _ request "no agents matched" s
    · rw [if_neg hempty]
      by_cases howns : TrackingMatchContext.owns_all reserved (request.cut ids) = false
      · rw [if_pos howns]
        exact always_failed _ request "strategy returned unreserved agent" s
      · rw [if_neg howns, Prog.bind_eq, always_bind]
        refine (always_true _ s).imp (fun _ => id) (fun _ t _ => ⟨trivial, rfl, ?_⟩) fun _ _ => id
        -- `owns_all` has looked at every id.
        intro id hid
        have hall := List.all_eq_true.mp (eq_true_of_ne_false howns) id hid
        simp only [Bool.and_eq_true, decide_eq_true_eq] at hall
        exact hall.1

/-- The result of a match. -/
theorem always_match_once_names (service : MatchingService D) (request : MatchRequest)
    (candidates : List (MatchCandidate D)) (s : σ) :
    (service.match_once request candidates).Always h (fun _ => True)
      (fun result _ => result.Names request.request_id) (fun _ _ => True) s := by
  refine ⟨trivial, ?_⟩
  change Prog.Always _ _ _ _ (service.match_started request candidates _) _
  unfold match_started
  cases service.running with
  | false => exact ⟨rfl, nofun⟩
  | true =>
    cases service.strategy with
    | none => exact ⟨rfl, nofun⟩
    | some strategy =>
      dsimp only
      -- Then the empty id and the deadline, before the strategy runs.
      split
      · exact ⟨rfl, nofun⟩
      · split
        · exact ⟨rfl, nofun⟩
        · rw [Prog.bind_eq, always_bind]
          exact (always_true _ _).imp (fun _ => id)
            (fun _ t _ => always_settle_names request _ _ _ t) fun _ _ => id

/-- The result of a request. -/
theorem always_handle_request_names (service : MatchingService D) (request : MatchRequest) (s : σ) :
    (service.handle_request request).Always h (fun _ => True)
      (fun result _ => result.Names request.request_id) (fun _ _ => True) s := by
  refine ⟨trivial, ?_⟩
  change Prog.Always _ _ _ _ (service.request_started request _) _
  unfold request_started
  -- The three early returns, then the search, which may throw.
  split
  · exact ⟨rfl, nofun⟩
  · dsimp only
    split
    · exact ⟨rfl, nofun⟩
    · split
      · exact ⟨rfl, nofun⟩
      · rw [Prog.bind_eq, always_bind]
        refine (always_true _ _).imp (fun _ => id) (fun found t _ => ?_) fun _ _ => id
        rw [Prog.bind_eq, always_bind, Prog.always_ofExcept]
        cases found with
        | error e => exact trivial
        | ok candidates =>
          dsimp only
          rw [Prog.bind_eq, always_bind]
          refine (always_match_once_names service _ candidates t).imp (fun _ => id) ?_ fun _ _ => id
          exact fun result _ hnames => ⟨trivial, hnames.request_id, hnames.assigned⟩

end MatchingService

variable {result : MatchResult}

/-- Whatever the strategy does, the result has the id of its request, and the agents that it names have
ids. -/
theorem MatchResult.Returned.names (h : result.Returned) :
    result.request_id ≠ "" ∧ result.Names result.request_id := by
  have hown : ∀ request_id, request_id ≠ "" → result.Names request_id →
      result.request_id ≠ "" ∧ result.Names result.request_id := fun request_id hne hnames =>
    ⟨hnames.request_id ▸ hne, rfl, hnames.assigned⟩
  cases h with
  | match_once service h request candidates s hid hresult =>
    have halways := service.always_match_once_names (h := h) request candidates s
    exact hown _ hid (((Prog.always_iff_exec _ _).mp halways).2.1 result hresult)
  | handle_request service h request s hid hresult =>
    have halways := service.always_handle_request_names (h := h) request s
    exact hown _ hid (((Prog.always_iff_exec _ _).mp halways).2.1 result hresult)

/-- The result comes back. -/
def MatchResult.RoundTrips (result : MatchResult) (requester_id strategy : String) : Prop :=
  decode_match_result_payload (encode_match_result_payload result requester_id strategy) = .ok result

/-- No text of the result has a separator in it. -/
structure MatchResult.Separable (result : MatchResult) : Prop where
  request_id : ',' ∉ result.request_id.toList
  reason : ',' ∉ result.reason.toList
  assigned : ∀ id ∈ result.assigned_agent_ids, ',' ∉ id.toList ∧ ';' ∉ id.toList

/-- What comes back has no separators. -/
theorem MatchResult.RoundTrips.separable {requester_id strategy : String}
    (h : result.RoundTrips requester_id strategy) : result.Separable := by
  -- The decoder takes five fields, so each text of the result is a field of the line.
  unfold MatchResult.RoundTrips decode_match_result_payload decode_csv_match_result_payload at h
  split at h
  · rename_i request_id status latency_ms reason ids hfields
    have hfield : ∀ f ∈ [request_id, status, latency_ms, reason, ids], ',' ∉ f.toList :=
      fun f hf => (matching_payload.field_of_mem_split_csv (hfields ▸ hf)).1
    split at h
    · split at h
      · cases h
      · cases h
        refine ⟨hfield _ (by simp), hfield _ (by simp), fun id hid => ?_⟩
        dsimp only at hid
        split at hid
        · cases hid
        · obtain ⟨hsemicolon, hsubset⟩ := matching_payload.field_of_mem_split_csv hid
          exact ⟨fun hcomma => hfield ids (by simp) (hsubset hcomma), hsemicolon⟩
    · cases h
  · cases h

/-- The fields of an encoded result without commas. -/
theorem split_csv_encode_match_result (h : result.Separable) (requester_id strategy : String) :
    matching_payload.split_csv (encode_match_result_payload result requester_id strategy) ',' =
      [result.request_id, match_status_to_string result.status, toString result.latency_ms, result.reason,
        matching_payload.join_ids result.assigned_agent_ids] := by
  -- The line is the five texts with a comma before each but the first.
  have htext : (encode_match_result_payload result requester_id strategy).toList =
      result.request_id.toList ++ [(match_status_to_string result.status).toList,
        (toString result.latency_ms).toList, result.reason.toList,
        (matching_payload.join_ids result.assigned_agent_ids).toList].flatMap (',' :: ·) := by
    unfold encode_match_result_payload
    simp [String.toList_append]
  have hne : encode_match_result_payload result requester_id strategy ≠ "" := by
    intro heq
    rw [heq] at htext
    simp at htext
  have hstatus : ',' ∉ (match_status_to_string result.status).toList := by
    cases result.status <;> decide
  have hlatency := comma_notMem_int result.latency_ms
  have hids : ',' ∉ (matching_payload.join_ids result.assigned_agent_ids).toList := by
    intro hmem
    rcases matching_payload.mem_join_ids hmem with heq | ⟨id, hid, hcomma⟩
    · cases heq
    · exact (h.assigned id hid).1 hcomma
  have hsplit := splitOn_flatMap ',' result.request_id.toList _
    (List.forall_mem_cons.mpr ⟨hstatus, List.forall_mem_cons.mpr ⟨hlatency,
      List.forall_mem_cons.mpr ⟨h.reason, List.forall_mem_singleton.mpr hids⟩⟩⟩)
  rw [matching_payload.split_csv_eq ',' hne, htext, hsplit, List.splitOn_eq_singleton h.request_id]
  simp only [List.singleton_append, List.map_cons, List.map_nil, String.ofList_toList]

/-- What has no separators comes back. -/
theorem MatchResult.Returned.roundTrips (hreturned : result.Returned)
    (hlatency : -2^63 ≤ result.latency_ms ∧ result.latency_ms < 2^63) (h : result.Separable)
    (requester_id strategy : String) : result.RoundTrips requester_id strategy := by
  obtain ⟨hid, hnames⟩ := hreturned.names
  -- `join_ids` writes nothing for no ids, which the decoder reads back as none.
  have hassigned : (if matching_payload.join_ids result.assigned_agent_ids = "" then []
      else matching_payload.split_csv (matching_payload.join_ids result.assigned_agent_ids) ';') =
        result.assigned_agent_ids := by
    by_cases hempty : result.assigned_agent_ids = []
    · rw [hempty]
      rfl
    · obtain ⟨hne, hsplit⟩ := matching_payload.split_csv_join_ids hempty hnames.assigned
        fun id hid => (h.assigned id hid).2
      rw [if_neg hne, hsplit]
  unfold MatchResult.RoundTrips decode_match_result_payload decode_csv_match_result_payload
  rw [split_csv_encode_match_result h]
  dsimp only
  rw [stoll_toString hlatency]
  dsimp only
  rw [if_neg hid, match_status_from_string_to_string, hassigned]

/-- A result that a request with an id can get comes back exactly if it has no separators in it: no
comma in its id, its reason and the ids of the agents, and no semicolon in the latter. -/
theorem match_result_round_trips_iff (result : MatchResult) (hreturned : result.Returned)
    (hlatency : -2^63 ≤ result.latency_ms ∧ result.latency_ms < 2^63) (requester_id strategy : String) :
    result.RoundTrips requester_id strategy ↔ result.Separable :=
  ⟨MatchResult.RoundTrips.separable, fun h => hreturned.roundTrips hlatency h requester_id strategy⟩

/-- A strategy that reserves one agent and assigns it. -/
def assigning (agent_id : String) : MatchStrategy ℚ := fun _ _ => do
  let _ ← perform (.reserve agent_id)
  return [agent_id]

/-- The result of a match that assigns one agent. -/
def assigned_result (agent_id : String) : MatchResult where
  request_id := "r"
  status := .MATCHED
  assigned_agent_ids := [agent_id]

/-- A match of the request for one agent. -/
def assigning_result (agent_id : String) : Except Exception MatchResult :=
  (MatchingService.match_once { strategy := some (assigning agent_id) } { request_id := "r", max_agents := 1 }
    []).exec lenient () |>.result

/-- An agent without separators in its id. -/
theorem match_result_round_trips_iff_plain :
    (assigned_result "a").RoundTrips "u" "nearest" ↔ (assigned_result "a").Separable :=
  have hresult : assigning_result "a" = .ok (assigned_result "a") := by decide +kernel
  match_result_round_trips_iff (assigned_result "a")
    (.match_once _ lenient { request_id := "r", max_agents := 1 } [] () (by decide) hresult)
    (by decide) "u" "nearest"

/-- The agent `a;b` comes back as the agents `a` and `b`. -/
theorem split_agent_does_not_round_trip : ¬ ∀ result : MatchResult, result.Returned →
    -2^63 ≤ result.latency_ms ∧ result.latency_ms < 2^63 → ∀ requester_id strategy : String,
      result.RoundTrips requester_id strategy := by
  intro hall
  have hresult : assigning_result "a;b" = .ok (assigned_result "a;b") := by decide +kernel
  have hreturns := hall (assigned_result "a;b")
    (.match_once _ lenient { request_id := "r", max_agents := 1 } [] () (by decide) hresult)
    (by decide) "u" "nearest"
  revert hreturns
  unfold MatchResult.RoundTrips
  decide +kernel

end SignalRoute
