import SignalRoute.Matching.Context

/-!
# One match

`MatchingService::match_once` of `src/matching/matching_service.cpp`: the checks, the strategy under
the tracking context, and what is released and returned for its outcome. `Accounted` says that a
match neither leaks nor over-assigns: what is held afterwards is what is returned as assigned, and
nothing where the match fails.

`always_match_once` gives the result and what is held for every outcome of the strategy, whatever
the strategy calls and whatever the context answers. The number of ids is cut to `max_agents` after
a cast to `int`, so a list of `2^31` ids is not cut; `match_once_accounted_iff` says that nothing
else goes wrong.
-/

namespace SignalRoute

open Interaction (Prog Handler Run)
open Interaction.Prog (perform always_bind)

/-- What the matching service works with. The nearby handler and the reservations are there while it
is running. -/
structure MatchingService (D : Type) where
  running : Bool := true
  strategy : Option (MatchStrategy D)
  strategy_name : String := "default"
  request_ttl_ms : ℤ := 5000

/-- `failed_result`. -/
def failed_result (request : MatchRequest) (reason : String) : MatchResult where
  request_id := request.request_id
  status := .FAILED
  reason := reason

/-- The result for a request whose deadline has passed. -/
def expired_result (request : MatchRequest) : MatchResult where
  request_id := request.request_id
  status := .EXPIRED
  reason := "request deadline expired"

/-- `request.deadline_ms > 0 && now_ms >= request.deadline_ms`. -/
def MatchRequest.expired (request : MatchRequest) (now_ms : ℤ) : Bool :=
  request.deadline_ms > 0 && now_ms ≥ request.deadline_ms

/-- The ids that a strategy returns, cut to `max_agents`. -/
def MatchRequest.cut (request : MatchRequest) (ids : List String) : List String :=
  if request.max_agents > 0 ∧ castInt ids.length > request.max_agents then
    ids.take request.max_agents.toNat
  else ids

namespace MatchingService

variable {D : Type} (service : MatchingService D)

/-- What `match_once` does with the outcome of the strategy. -/
def settle (request : MatchRequest) (started_ms : ℤ) (outcome : Except Exception (List String))
    (reserved : List String) : MatchProgram D MatchResult :=
  match outcome with
  | .ok ids => do
    let assigned := request.cut ids
    if assigned = [] then
      let _ ← TrackingMatchContext.release_all reserved
      return failed_result request "no agents matched"
    else if TrackingMatchContext.owns_all reserved assigned = false then
      let _ ← TrackingMatchContext.release_all reserved
      return failed_result request "strategy returned unreserved agent"
    else
      let _ ← TrackingMatchContext.release_unassigned assigned reserved
      let now_ms ← perform .epoch_now_ms
      return {
        request_id := request.request_id
        status := .MATCHED
        assigned_agent_ids := assigned
        latency_ms := now_ms - started_ms }
  | .error (.std what) => do
    let _ ← TrackingMatchContext.release_all reserved
    return failed_result request what
  | .error .other => do
    let _ ← TrackingMatchContext.release_all reserved
    return failed_result request "matching strategy failed"

/-- What `match_once` does once it has read the clock. -/
def match_started (request : MatchRequest) (candidates : List (MatchCandidate D)) (started_ms : ℤ) :
    MatchProgram D MatchResult :=
  match service.running, service.strategy with
  | true, some strategy =>
    if request.request_id = "" then
      return failed_result request "request_id is required"
    else if request.expired started_ms = true then
      return expired_result request
    else do
      let (outcome, reserved) ←
        (strategy request candidates).translate TrackingMatchContext.call []
      settle request started_ms outcome reserved
  | _, _ => return failed_result request "matching service is not running"

/-- `match_once`. -/
def match_once (request : MatchRequest) (candidates : List (MatchCandidate D)) :
    MatchProgram D MatchResult := do
  let started_ms ← perform .epoch_now_ms
  service.match_started request candidates started_ms

/-- The strategy that a match runs, if it is started at `started_ms`. -/
def strategy_for (request : MatchRequest) (started_ms : ℤ) : Option (MatchStrategy D) :=
  if service.running ∧ request.request_id ≠ "" ∧ request.expired started_ms = false then
    service.strategy
  else none

variable {σ T : Type} (h : Handler (MatchCall D) σ) (stamp : σ → T)

/-- The run of a match from a state, with the log of its reservations. -/
def match_run (request : MatchRequest) (candidates : List (MatchCandidate D)) (s : σ) :
    Run (σ × List (ReservationEvent T)) Exception MatchResult :=
  (service.match_once request candidates).exec (h.logged (reservation_event stamp)) (s, [])

/-- The run of the strategy alone, on the context behind, where a match from the state runs it. -/
def strategy_run (request : MatchRequest) (candidates : List (MatchCandidate D)) (s : σ) :
    Option (Run (σ × List (ReservationEvent T)) Exception (List String)) :=
  let started := h.run .epoch_now_ms s
  (service.strategy_for request started.1).map fun strategy =>
    (strategy request candidates).exec (h.logged (reservation_event stamp)) (started.2, [])

end MatchingService

section Outcomes

variable {D σ T : Type} {h : Handler (MatchCall D) σ} {stamp : σ → T}

/-- The ids of a strategy are granted: some are left after the cut, and all of these are held. -/
def Granted (request : MatchRequest) (ids : List String) (log : List (ReservationEvent T)) : Prop :=
  request.cut ids ≠ [] ∧ HoldsAll log (request.cut ids)

/-- The result of a match and what is held after it, for an outcome of the strategy and what is held
then: the ids are assigned and still held if they are granted, and else nothing is. -/
def Settled (request : MatchRequest) (outcome : Except Exception (List String))
    (held : List (ReservationEvent T)) (result : MatchResult) (log : List (ReservationEvent T)) :
    Prop :=
  (∃ ids, outcome = .ok ids ∧ Granted request ids held ∧ result.status = .MATCHED ∧
      result.assigned_agent_ids = request.cut ids ∧
      ∀ id, held_since log id = if id ∈ request.cut ids then held_since held id else none) ∨
    (∀ ids, outcome = .ok ids → ¬ Granted request ids held) ∧ result.status = .FAILED ∧
      ∀ id, ¬ Held log id

/-- A failed match releases everything. -/
theorem always_fail {reserved : List String} {s : σ × List (ReservationEvent T)}
    (ht : Tracks reserved s.2) (request : MatchRequest) (reason : String)
    {outcome : Except Exception (List String)}
    (hout : ∀ ids, outcome = .ok ids → ¬ Granted request ids s.2) :
    ((TrackingMatchContext.release_all reserved).bind fun _ =>
        Prog.pure (failed_result request reason)).Always
      (h.logged (reservation_event stamp)) (fun _ => True)
      (fun result s' => Settled request outcome s.2 result s'.2) (fun _ _ => False) s := by
  rw [always_bind]
  refine (always_release_all ht).imp (fun _ => id) (fun _ s' hs' => ?_) fun _ _ => id
  exact .inr ⟨hout, rfl, hs'⟩

/-- What a match makes of the outcome of its strategy. -/
theorem always_settle {reserved : List String} {s : σ × List (ReservationEvent T)}
    (ht : Tracks reserved s.2) (request : MatchRequest) (started_ms : ℤ)
    (outcome : Except Exception (List String)) :
    (MatchingService.settle request started_ms outcome reserved).Always
      (h.logged (reservation_event stamp)) (fun _ => True)
      (fun result s' => Settled request outcome s.2 result s'.2) (fun _ _ => False) s := by
  unfold MatchingService.settle
  cases outcome with
  | error e =>
    have hout : ∀ ids, Except.error e = .ok ids → ¬ Granted request ids s.2 := nofun
    cases e with
    | std what => exact always_fail ht request what hout
    | other => exact always_fail ht request "matching strategy failed" hout
  | ok ids =>
    dsimp only
    -- The three ways out: no id left after the cut, an id that is not held, and `MATCHED`.
    by_cases hempty : request.cut ids = []
    · rw [if_pos hempty]
      refine always_fail ht request "no agents matched" fun ids' hids hgranted => ?_
      cases hids
      exact hgranted.1 hempty
    · rw [if_neg hempty]
      have howns := ht.owns_all_iff (request.cut ids)
      by_cases hall : HoldsAll s.2 (request.cut ids)
      · rw [if_neg (by rw [howns.mpr hall]; exact Bool.noConfusion)]
        simp only [Prog.bind_eq, always_bind, Prog.always_perform, Prog.pure_eq, Prog.always_pure]
        refine (always_release_unassigned _ ht).imp (fun _ => id) (fun _ s' hs' => ?_) fun _ _ => id
        -- Reading the clock is no event.
        refine ⟨trivial, .inl ⟨ids, rfl, ⟨hempty, hall⟩, rfl, rfl, fun id => ?_⟩⟩
        change held_since (s'.2 ++ []) id = _
        rw [List.append_nil]
        exact hs' id
      · rw [if_pos (eq_false_of_ne_true (mt howns.mp hall))]
        refine always_fail ht request "strategy returned unreserved agent" fun ids' hids hgranted => ?_
        cases hids
        exact hall hgranted.2

/-- A match that runs no strategy fails or is expired, and calls nothing more; a match that runs its
strategy settles the outcome. -/
theorem always_match_started (h : Handler (MatchCall D) σ) (stamp : σ → T)
    (service : MatchingService D) (request : MatchRequest) (candidates : List (MatchCandidate D))
    (started_ms : ℤ) (s : σ) :
    (service.match_started request candidates started_ms).Always
      (h.logged (reservation_event stamp)) (fun _ => True)
      (fun result s' =>
        match service.strategy_for request started_ms with
        | none => result.status ≠ .MATCHED ∧ s' = (s, [])
        | some strategy =>
          let run := (strategy request candidates).exec (h.logged (reservation_event stamp)) (s, [])
          Settled request run.result run.final.2 result s'.2)
      (fun _ _ => False) (s, []) := by
  unfold MatchingService.match_started MatchingService.strategy_for
  -- The early returns come before any call.
  cases hrunning : service.running with
  | false => exact ⟨nofun, rfl⟩
  | true =>
    cases hstrategy : service.strategy with
    | none => simp [failed_result]
    | some strategy =>
      by_cases hid : request.request_id = ""
      · simp [hid, failed_result]
      · by_cases hexpired : request.expired started_ms = true
        · simp [hid, hexpired, expired_result]
        · dsimp only
          rw [if_neg hid, if_neg hexpired, Prog.bind_eq, always_bind,
            if_pos ⟨rfl, hid, eq_false_of_ne_true hexpired⟩]
          -- Nothing is reserved and nothing is tracked when the strategy starts.
          have ht : Tracks [] ([] : List (ReservationEvent T)) := fun id => by
            simpa using not_held_nil
          refine (always_tracking (strategy request candidates) ht).imp (fun _ => id) ?_ fun _ _ => id
          rintro ⟨outcome, reserved⟩ s' ⟨rfl, rfl, ht'⟩
          exact always_settle ht' request started_ms _

/-- The same from the reading of the clock on. -/
theorem always_match_once (h : Handler (MatchCall D) σ) (stamp : σ → T)
    (service : MatchingService D) (request : MatchRequest)
    (candidates : List (MatchCandidate D)) (s : σ) :
    (service.match_once request candidates).Always (h.logged (reservation_event stamp))
      (fun _ => True)
      (fun result s' =>
        match service.strategy_run h stamp request candidates s with
        | none => result.status ≠ .MATCHED ∧ s' = ((h.run .epoch_now_ms s).2, [])
        | some run => Settled request run.result run.final.2 result s'.2)
      (fun _ _ => False) (s, []) := by
  refine ⟨trivial, ?_⟩
  have hmatch := always_match_started h stamp service request candidates
    (h.run .epoch_now_ms s).1 (h.run .epoch_now_ms s).2
  refine hmatch.imp (fun _ => id) (fun result s' hs' => ?_) fun _ _ => id
  unfold MatchingService.strategy_run
  dsimp only
  cases hfor : service.strategy_for request (h.run .epoch_now_ms s).1 with
  | none =>
    rw [hfor] at hs'
    exact hs'
  | some strategy =>
    rw [hfor] at hs'
    exact hs'

/-- A match neither leaks nor over-assigns: where it returns `MATCHED`, the agents that are held are
the assigned ones, of which there are some and at most `max_agents`; and else none is held. -/
def Accounted (request : MatchRequest) (result : MatchResult) (log : List (ReservationEvent T)) :
    Prop :=
  match result.status with
  | .MATCHED => (∀ id, Held log id ↔ id ∈ result.assigned_agent_ids) ∧
      result.assigned_agent_ids ≠ [] ∧
      (0 < request.max_agents → result.assigned_agent_ids.length ≤ request.max_agents)
  | _ => ∀ id, ¬ Held log id

/-- The ids are more than `max_agents`, and their number as an `int` is not. -/
def Oversized (request : MatchRequest) (ids : List String) : Prop :=
  0 < request.max_agents ∧ request.max_agents < ids.length ∧
    castInt ids.length ≤ request.max_agents

/-- Ids whose number is hidden by the cast are not cut. -/
theorem cut_of_oversized {request : MatchRequest} {ids : List String}
    (ho : Oversized request ids) : request.cut ids = ids := by
  obtain ⟨-, -, hcast⟩ := ho
  exact if_neg fun hcut => absurd hcut.2 (not_lt.mpr hcast)

/-- All other ids are cut to `max_agents`. -/
theorem length_cut_le_iff (request : MatchRequest) (ids : List String) :
    (0 < request.max_agents → ((request.cut ids).length : ℤ) ≤ request.max_agents) ↔
      ¬ Oversized request ids := by
  constructor
  · intro hle ho
    have hcut := hle ho.1
    rw [cut_of_oversized ho] at hcut
    have hlong := ho.2.1
    omega
  · intro ho hpos
    unfold MatchRequest.cut
    by_cases hcast : castInt ids.length > request.max_agents
    · rw [if_pos ⟨hpos, hcast⟩, List.length_take]
      omega
    · rw [if_neg fun hcut => hcast hcut.2]
      by_contra hlong
      exact ho ⟨hpos, not_le.mp hlong, not_lt.mp hcast⟩

/-- A match in which the strategy settles is accounted for, unless it is granted ids whose number is
hidden by the cast. -/
theorem Settled.accounted_iff {request : MatchRequest} {outcome : Except Exception (List String)}
    {held log : List (ReservationEvent T)} {result : MatchResult}
    (hs : Settled request outcome held result log) :
    Accounted request result log ↔
      ¬ ∃ ids, outcome = .ok ids ∧ Oversized request ids ∧ HoldsAll held ids := by
  unfold Accounted
  rcases hs with ⟨ids, rfl, ⟨hempty, hall⟩, hstatus, hassigned, hsince⟩ | ⟨hnone, hstatus, hreleased⟩
  · rw [hstatus, hassigned]
    -- After `MATCHED` exactly the assigned ids are held, as the others are released.
    have hheld : ∀ id, Held log id ↔ id ∈ request.cut ids := by
      intro id
      rw [held_iff, hsince id]
      by_cases hid : id ∈ request.cut ids
      · rw [if_pos hid]
        exact iff_of_true (held_iff.mp (hall id hid).2) hid
      · rw [if_neg hid]
        exact iff_of_false (fun ⟨_, h⟩ => nomatch h) hid
    have hlength := length_cut_le_iff request ids
    constructor
    · rintro ⟨-, -, hle⟩ ⟨ids', hids, ho, -⟩
      cases hids
      exact hlength.mp hle ho
    · intro hno
      refine ⟨hheld, hempty, hlength.mpr fun ho => hno ⟨ids, rfl, ho, ?_⟩⟩
      rw [cut_of_oversized ho] at hall
      exact hall
  · rw [hstatus]
    -- After `FAILED` nothing is held, and oversized ids that are all held would have been granted.
    refine iff_of_true hreleased ?_
    rintro ⟨ids, rfl, ho, hall⟩
    refine hnone ids rfl ?_
    unfold Granted
    rw [cut_of_oversized ho]
    refine ⟨?_, hall⟩
    rintro rfl
    have hpos := ho.1
    have hlong := ho.2.1
    rw [List.length_nil] at hlong
    omega

/-- What a match returns and what is held after it. -/
theorem match_run_spec (h : Handler (MatchCall D) σ) (stamp : σ → T) (service : MatchingService D)
    (request : MatchRequest) (candidates : List (MatchCandidate D)) (s : σ) :
    ∃ result, (service.match_run h stamp request candidates s).result = .ok result ∧
      match service.strategy_run h stamp request candidates s with
      | none => result.status ≠ .MATCHED ∧
          (service.match_run h stamp request candidates s).final = ((h.run .epoch_now_ms s).2, [])
      | some run => Settled request run.result run.final.2 result
          (service.match_run h stamp request candidates s).final.2 := by
  obtain ⟨-, hok, herror⟩ :=
    (Prog.always_iff_exec _ _).mp (always_match_once h stamp service request candidates s)
  change ∀ e, (service.match_run h stamp request candidates s).result = .error e → _ at herror
  cases hresult : (service.match_run h stamp request candidates s).result with
  | error e => exact (herror e hresult).elim
  | ok result => exact ⟨result, rfl, hok result hresult⟩

/-- A match returns, and what it returns is accounted for if and only if its strategy does not return
held ids whose number is hidden by the cast. -/
theorem match_once_accounted_iff (service : MatchingService D) (request : MatchRequest)
    (candidates : List (MatchCandidate D)) (h : Handler (MatchCall D) σ) (stamp : σ → T) (s : σ) :
    (∃ result, (service.match_run h stamp request candidates s).result = .ok result ∧
        Accounted request result (service.match_run h stamp request candidates s).final.2) ↔
      ¬ ∃ run ids, service.strategy_run h stamp request candidates s = some run ∧
        run.result = .ok ids ∧ Oversized request ids ∧ HoldsAll run.final.2 ids := by
  obtain ⟨result, hresult, hspec⟩ := match_run_spec h stamp service request candidates s
  rw [hresult]
  simp only [Except.ok.injEq, exists_eq_left']
  cases hrun : service.strategy_run h stamp request candidates s with
  | none =>
    rw [hrun] at hspec
    obtain ⟨hstatus, hfinal⟩ := hspec
    -- Nothing was called but the clock, so nothing is held.
    have hnone : ∀ id, ¬ Held (service.match_run h stamp request candidates s).final.2 id := by
      rw [hfinal]
      exact fun id => not_held_nil
    refine iff_of_true ?_ (by simp)
    unfold Accounted
    cases hcase : result.status with
    | MATCHED => exact absurd hcase hstatus
    | FAILED => exact hnone
    | EXPIRED => exact hnone
  | some run =>
    rw [hrun] at hspec
    rw [hspec.accounted_iff]
    simp only [Option.some.injEq, exists_and_left, exists_eq_left']

/-- A context that grants everything. -/
def lenient : Handler (MatchCall ℚ) Unit :=
  ⟨fun c s =>
    match c with
    | .epoch_now_ms => (0, s)
    | .reserve _ => (true, s)
    | .release _ => ((), s)
    | .nearby _ _ _ _ => (.ok [], s)
    | .time_remaining_ms => (1, s)
    | .request_id => ("r", s)⟩

/-- A strategy that reserves one agent and returns its id over and over. -/
def repeating (n : ℕ) : MatchStrategy ℚ := fun _ _ => do
  let _ ← perform (.reserve "a")
  return List.replicate n "a"

/-- For a list of `2^31` ids of one reserved agent, the match returns them all as assigned, although
the request is for one agent. -/
theorem repeating_not_accounted :
    let request : MatchRequest := { request_id := "r", max_agents := 1 }
    let run := MatchingService.match_run ⟨true, some (repeating (2^31)), "default", 5000⟩ lenient
      (fun _ => ()) request [] ()
    ¬ ∃ result, run.result = .ok result ∧ Accounted request result run.final.2 := by
  intro request run
  rintro ⟨result, hresult, hacc⟩
  let ids : List String := List.replicate (2^31) "a"
  have ho : Oversized request ids := by
    refine ⟨by decide, ?_, ?_⟩
    · rw [List.length_replicate]
      decide
    · rw [List.length_replicate]
      decide +kernel
  obtain ⟨result', hresult', hspec⟩ := match_run_spec lenient (fun _ => ())
    ⟨true, some (repeating (2^31)), "default", 5000⟩ request [] ()
  obtain rfl : result = result' := Except.ok.inj (hresult.symm.trans hresult')
  have hsettled : Settled request (.ok ids) [.reserved "a" ()] result run.final.2 := hspec
  refine hsettled.accounted_iff.mp hacc ⟨ids, rfl, ho, fun id hid => ?_⟩
  obtain rfl : id = "a" := List.eq_of_mem_replicate hid
  exact ⟨by decide, [], (), [], rfl, List.not_mem_nil⟩

end Outcomes

end SignalRoute
