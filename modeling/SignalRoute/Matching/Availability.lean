import SignalRoute.Config.Spatial
import SignalRoute.Matching.Redelivery

/-!
# Whether a match finds an agent that is free

The strategy is given the nearest devices, four for each agent that is asked for, and is told that
all of them are available. It tries to reserve one after the other, and the request is answered with
"no agents matched" if each of them is reserved when its turn comes (`always_assign_first`).

Whatever else reserves and releases agents meanwhile, `finds_free_iff` says when such an answer means
that no device of the nearest `nearby_max_results` was free: the cut of the list must not hide the
free ones.
-/

namespace SignalRoute

open Numeric (Double)
open Store (HashOrder)
open Interaction (Prog Handler Run)
open Interaction.Prog (perform always_bind)

namespace MatchEnvironment

variable {D : Type} {request_id : String} (env : MatchEnvironment D request_id)

/-- Whether an agent is reserved after a number of calls that change nothing. -/
def reserved_at (w : MatchWorld) (calls : ℕ) (agent_id : String) : Bool :=
  (env.turn^[calls] w).redis.is_agent_reserved agent_id (env.turn^[calls] w).monotonic_ms

/-- Each agent of a list is reserved at its turn, where the first one's turn comes after a number of
calls, and two calls are made for each. -/
def AllReserved (w : MatchWorld) (calls : ℕ) (ids : List String) : Prop :=
  ∀ (i : ℕ) id, ids[i]? = some id → env.reserved_at w (calls + 2 * i) id = true

variable {env} {w : MatchWorld}

/-- There is no agent that is free. -/
theorem AllReserved.nil (calls : ℕ) : env.AllReserved w calls [] := fun i id h => by
  rw [List.getElem?_nil] at h
  cases h

/-- The turn of the first agent, and then those of the others. -/
theorem allReserved_cons {calls : ℕ} {id : String} {ids : List String} :
    env.AllReserved w calls (id :: ids) ↔
      env.reserved_at w calls id = true ∧ env.AllReserved w (calls + 2) ids := by
  constructor
  · intro h
    refine ⟨h 0 id rfl, fun i other hother => ?_⟩
    rw [show calls + 2 + 2 * i = calls + 2 * (i + 1) by omega]
    exact h (i + 1) other hother
  · rintro ⟨hfirst, hrest⟩ i other hother
    cases i with
    | zero =>
      rw [List.getElem?_cons_zero, Option.some.injEq] at hother
      rwa [← hother]
    | succ i =>
      rw [show calls + 2 * (i + 1) = calls + 2 + 2 * i by omega]
      exact hrest i other hother

/-- The number of calls. -/
theorem calls_iterate (calls : ℕ) : (env.turn^[calls] w).calls = w.calls + calls := by
  induction calls with
  | zero => rfl
  | succ calls ih =>
    rw [Function.iterate_succ_apply']
    exact congrArg (· + 1) ih

end MatchEnvironment

section Assign

variable {D : Type} [LinearOrder D] {request : MatchRequest} {ttl_ms max_agents : ℤ}
  {env : MatchEnvironment D request.request_id} {w : MatchWorld}

omit [LinearOrder D] in
/-- What is assigned stays assigned. -/
theorem always_assign_ne_nil {σ : Type} {h : Handler (MatchCall D) σ}
    (candidates : List (MatchCandidate D)) {assigned : List String} (hne : assigned ≠ []) (s : σ) :
    (NearestStrategy.assign max_agents candidates assigned).Always h (fun _ => True)
      (fun ids _ => ids ≠ []) (fun _ _ => False) s := by
  induction candidates generalizing assigned s with
  | nil => exact hne
  | cons candidate rest ih =>
    unfold NearestStrategy.assign
    rw [Prog.bind_eq, always_bind, Prog.always_perform]
    refine ⟨trivial, ?_⟩
    split
    · exact hne
    · rw [Prog.bind_eq, always_bind, Prog.always_perform]
      refine ⟨trivial, ?_⟩
      dsimp only
      split
      · exact ih hne _
      · have hmore : assigned ++ [candidate.agent_id] ≠ [] := List.append_ne_nil_of_left_ne_nil hne _
        generalize castInt (assigned ++ [candidate.agent_id]).length = count
        split
        · exact hmore
        · exact ih hmore _

/-- The loop over the candidates assigns nobody exactly if each is reserved at its turn, unless the
deadline has passed. -/
theorem always_assign_first (hr : request.request_id ≠ "") (httl : 0 < ttl_ms)
    (candidates : List (MatchCandidate D)) (calls : ℕ) (log : List (ReservationEvent ℤ))
    (hids : ∀ id ∈ candidates.map MatchCandidate.agent_id, id ≠ "") :
    (NearestStrategy.assign max_agents candidates []).Always
      ((ServiceMatchContext.handler env request.deadline_ms ttl_ms).logged
        (reservation_event MatchWorld.monotonic_ms)) (fun _ => True)
      (fun ids s => request.expired s.1.epoch_ms = false →
        (ids = [] ↔ env.AllReserved w (calls + 1) (candidates.map MatchCandidate.agent_id)) ∧
        (ids = [] → s = (env.turn^[calls + 2 * candidates.length] w, log)))
      (fun _ _ => False) (env.turn^[calls] w, log) := by
  induction candidates generalizing calls with
  | nil => exact fun _ => ⟨iff_of_true rfl (.nil _), fun _ => rfl⟩
  | cons candidate rest ih =>
    have hid : candidate.agent_id ≠ "" := hids candidate.agent_id List.mem_cons_self
    have hturn : ∀ calls, env.turn (env.turn^[calls] w) = env.turn^[calls + 1] w := fun calls =>
      (Function.iterate_succ_apply' env.turn calls w).symm
    rw [List.map_cons, MatchEnvironment.allReserved_cons]
    -- Where the agent is free, it is assigned, and stays so.
    have hsome : env.reserved_at w (calls + 1) candidate.agent_id = false → ∀ ids : List String,
        ids ≠ [] → (ids = [] ↔ env.reserved_at w (calls + 1) candidate.agent_id = true ∧
          env.AllReserved w (calls + 1 + 2) (rest.map MatchCandidate.agent_id)) :=
      fun hfree ids hne => iff_of_false hne fun h => by
        rw [hfree] at h
        exact Bool.noConfusion h.1
    refine always_assign_cons hr httl hid _ (fun hlate hintime => ?_) (fun hreserved => ?_)
      (fun redis hreserved htry hfull _ => ?_) (fun redis hreserved htry hmore => ?_)
    · have hbefore := in_time_of_le MatchEnvironment.epoch_le_turn hintime
      rw [hlate] at hbefore
      cases hbefore
    · rw [hturn] at hreserved
      rw [hturn, hturn]
      refine (ih (calls + 2) fun id hmem => hids id (List.mem_cons_of_mem _ hmem)).imp
        (fun _ => id) (fun ids s hs hintime => ?_) fun _ _ => id
      obtain ⟨hall, hfinal⟩ := hs hintime
      rw [show calls + 2 + 1 = calls + 1 + 2 by omega] at hall
      refine ⟨hall.trans (and_iff_right hreserved).symm, fun hnone => ?_⟩
      rw [hfinal hnone, List.length_cons, show calls + 2 + 2 * rest.length =
        calls + 2 * (rest.length + 1) by omega]
    · rw [hturn] at hreserved
      exact ⟨hsome hreserved _ (List.cons_ne_nil _ _), fun h => absurd h (List.cons_ne_nil _ _)⟩
    · rw [hturn] at hreserved
      exact (always_assign_ne_nil rest (List.cons_ne_nil candidate.agent_id []) _).imp
        (fun _ => id) (fun ids s hne _ => ⟨hsome hreserved ids hne, fun h => absurd h hne⟩)
        fun _ _ => id

/-- The answer to a request that finds nobody. -/
def NoAgents (result : MatchResult) : Prop :=
  result.status = .FAILED ∧ result.reason = "no agents matched"

/-- There is nothing to cut. -/
theorem cut_nil : request.cut [] = [] := by
  unfold MatchRequest.cut
  split
  · exact List.take_nil
  · rfl

/-- The cut leaves some of the ids. -/
theorem cut_ne_nil {ids : List String} (hne : ids ≠ []) : request.cut ids ≠ [] := by
  unfold MatchRequest.cut
  generalize castInt ids.length = count
  split
  · rename_i hcut
    rw [ne_eq, List.take_eq_nil_iff, not_or]
    exact ⟨by omega, hne⟩
  · exact hne

omit [LinearOrder D] in
/-- A strategy that returns ids does not lead to that answer. -/
theorem always_settle_some {σ T : Type} {h : Handler (MatchCall D) σ} {stamp : σ → T}
    {reserved ids : List String} {s : σ × List (ReservationEvent T)} (ht : Tracks reserved s.2)
    (hne : ids ≠ []) (started_ms : ℤ) :
    (MatchingService.settle request started_ms (.ok ids) reserved).Always
      (h.logged (reservation_event stamp)) (fun _ => True) (fun result _ => ¬NoAgents result)
      (fun _ _ => False) s := by
  unfold MatchingService.settle
  dsimp only
  rw [if_neg (cut_ne_nil hne)]
  by_cases howns : TrackingMatchContext.owns_all reserved (request.cut ids) = false
  · rw [if_pos howns, Prog.bind_eq, always_bind]
    refine (always_release_all ht).imp (fun _ => id) (fun _ _ _ hanswer => ?_) fun _ _ => id
    have hreason : "strategy returned unreserved agent" = "no agents matched" := hanswer.2
    exact absurd hreason (by decide)
  · rw [if_neg howns, Prog.bind_eq, always_bind]
    exact (always_release_unassigned _ ht).imp (fun _ => id)
      (fun _ _ _ => ⟨trivial, fun h => MatchStatus.noConfusion h.1⟩) fun _ _ => id

variable (request) in
/-- The match of a request that is in time is answered so exactly if each agent on offer is reserved
at its turn. -/
theorem always_match_started_no_agents {service : MatchingService D}
    (hrunning : service.running = true) (hstrategy : service.strategy = some NearestStrategy.strategy)
    (hr : request.request_id ≠ "") (httl : 0 < ttl_ms) (hpos : 0 < request.max_agents)
    (candidates : List (MatchCandidate D)) (started_ms : ℤ) (calls : ℕ)
    (hstarted : started_ms ≤ (env.turn^[calls] w).epoch_ms) :
    (service.match_started request candidates started_ms).Always
      ((ServiceMatchContext.handler env request.deadline_ms ttl_ms).logged
        (reservation_event MatchWorld.monotonic_ms)) (fun _ => True)
      (fun result s => request.expired s.1.epoch_ms = false →
        (NoAgents result ↔ env.AllReserved w (calls + 1) (offered_ids candidates)) ∧
        (NoAgents result → s.1 = env.turn^[calls + 2 * (offered_ids candidates).length] w))
      (fun _ s => request.expired s.1.epoch_ms = true) (env.turn^[calls] w, []) := by
  have hassign := @always_assign_first D _ request ttl_ms request.max_agents env w hr httl
    (NearestStrategy.sorted candidates) calls [] fun id => ne_empty_of_mem_offered_ids
  refine always_match_nearest request hrunning hstrategy hr hpos candidates started_ms _ hstarted
    (fun s hlate => ⟨fun result hintime => ?_, fun _ => hlate⟩) hassign ?_
  · rw [hlate] at hintime
    cases hintime
  rintro ids reserved s hpost hbefore ht
  obtain ⟨hall, hstate⟩ := hpost hbefore
  by_cases hnone : ids = []
  · -- Nothing is reserved, and nothing is to be released.
    obtain rfl := hstate hnone
    have hreserved : reserved = [] := List.eq_nil_iff_forall_not_mem.mpr fun id hmem =>
      not_held_nil ((ht id).mp hmem)
    subst hnone hreserved
    unfold MatchingService.settle
    dsimp only
    rw [cut_nil, if_pos rfl]
    exact fun _ => ⟨iff_of_true ⟨rfl, rfl⟩ (hall.mp rfl), fun _ => by
      rw [offered_ids, List.length_map]⟩
  · exact (always_settle_some ht hnone started_ms).imp (fun _ => id)
      (fun result s hsome _ => ⟨iff_of_false hsome fun h => hnone (hall.mpr h),
        fun h => absurd h hsome⟩) fun _ _ => False.elim

end Assign

/-- A search that throws does so whatever its limit is. -/
theorem NearbyHandler.handle_error {D : Type} [LinearOrder D] {haversine : ℚ → ℚ → ℚ → ℚ → D}
    {metres : ℚ → D} {h3 : H3Index} {cfg : SpatialConfig} {order : HashOrder} {redis : RedisClient}
    {now_ms limit last_seen_s : ℤ} {lat lon radius_m : Double} {e : Exception} (other : ℤ)
    (h : handle haversine metres h3 cfg order redis now_ms lat lon radius_m limit last_seen_s =
      .error e) :
    handle haversine metres h3 cfg order redis now_ms lat lon radius_m other last_seen_s =
      .error e := by
  have hlimit : ∀ limit, ¬effective_limit cfg limit ≤ 0 := fun _ => not_le.mpr effective_limit_pos
  unfold handle at h ⊢
  split at h
  · cases h
  · rename_i hpass
    rw [if_neg hpass]
    dsimp only at h ⊢
    split at h
    · cases h
    · rename_i hradius
      rw [if_neg hradius, if_neg (hlimit other)]
      rw [if_neg (hlimit limit)] at h
      cases hcell : h3.lat_lng_to_cell lat lon with
      | error e' =>
        rw [hcell] at h
        cases h
        rfl
      | ok cell =>
        rw [hcell] at h
        cases hk : h3.radius_to_k (effective_radius cfg radius_m) with
        | error e' =>
          rw [hk] at h
          cases h
          rfl
        | ok k =>
          rw [hk] at h
          cases h

/-- The strategy goes through candidates. -/
theorem mem_of_mem_offered_ids {D : Type} [LinearOrder D] {candidates : List (MatchCandidate D)}
    {id : String} (h : id ∈ offered_ids candidates) :
    id ∈ candidates.map MatchCandidate.agent_id := by
  obtain ⟨candidate, hmem, rfl⟩ := List.mem_map.mp h
  unfold NearestStrategy.sorted at hmem
  rw [List.mem_mergeSort] at hmem
  exact List.mem_map_of_mem (List.mem_of_mem_filter hmem)

section Answers

variable {D : Type} [LinearOrder D] (service : MatchingService D) (request : MatchRequest)
  (env : MatchEnvironment D request.request_id) (w : MatchWorld)

/-- What the handler finds for the position and the radius of the request, up to a limit. -/
def searched (limit : ℤ) (w : MatchWorld) : Except Exception (NearbyResult D) :=
  NearbyHandler.handle env.haversine env.metres env.h3 env.config (env.orders w.calls) w.redis
    w.epoch_ms request.lat request.lon request.radius_m limit 0

/-- The devices that the handler finds, up to `nearby_max_results` of them. -/
def found_ids (w : MatchWorld) : List String :=
  match searched request env 0 w with
  | .ok nearby => nearby.devices.map fun device => device.1.device_id
  | .error _ => []

/-- The agents that the strategy goes through, in order: of the nearest four times `max_agents`
devices, those that have an id. -/
def tried_ids (w : MatchWorld) : List String :=
  match searched request env (castInt (request.max_agents * 4)) w with
  | .ok nearby => offered_ids (to_candidates nearby)
  | .error _ => []

/-- A request is answered with "no agents matched" only if each device that the handler finds has a
live reservation meanwhile. -/
def FindsFree : Prop :=
  ∀ result, (deliver service request env w).result = .ok result → NoAgents result →
    ∀ id ∈ found_ids request env (env.turn w), ∃ calls,
      w.calls + calls < (deliver service request env w).final.1.calls ∧
        env.reserved_at w calls id = true

/-- The numbers of type `int` on the way of a request fit: the number of candidates, and the radius
of the disk in rings and its size in cells. -/
def SearchFits : Prop :=
  request.max_agents * 4 ≤ 2^31 - 1 ∧
    (NearbyHandler.Admitted request.lat request.lon request.radius_m 0 → ∀ k,
      env.h3.radius_to_k (NearbyHandler.effective_radius env.config request.radius_m) = .ok k →
        k ≤ 2^31 - 1 ∧ 3 * k * (k + 1) + 1 ≤ 2^31 - 1)

/-- If a device that the handler finds is free all the time, some agent that the strategy goes through
is free when its turn comes. -/
def ReachesFree : Prop :=
  (∃ id ∈ found_ids request env (env.turn w), ∀ calls < 4 + 2 * (tried_ids request env (env.turn w)).length,
      env.reserved_at w calls id = false) →
    ∃ (i : ℕ) (id : String), (tried_ids request env (env.turn w))[i]? = some id ∧
      env.reserved_at w (4 + 2 * i) id = false

variable {service request env w}

/-- What is in time at the end was in time at the start. -/
theorem in_time_at_start (hintime : (service.filled request w.epoch_ms).expired
      (deliver service request env w).final.1.epoch_ms = false) :
    (service.filled request w.epoch_ms).expired w.epoch_ms = false := by
  refine eq_false_of_ne_true fun hlate => ?_
  have hend : (service.filled request w.epoch_ms).expired
      (deliver service request env w).final.1.epoch_ms = true :=
    (always_expired (service.handle_request request) (w, []) hlate).final
  rw [hend] at hintime
  cases hintime

/-- What a request that is in time is answered. -/
theorem deliver_spec (hrunning : service.running = true)
    (hstrategy : service.strategy = some NearestStrategy.strategy) (httl : 0 < service.request_ttl_ms)
    (hvalid : MatchingService.invalid request = false) (hpos : 0 < request.max_agents)
    (hintime : (service.filled request w.epoch_ms).expired
      (deliver service request env w).final.1.epoch_ms = false) :
    (∀ e, searched request env (castInt (request.max_agents * 4)) (env.turn w) = .error e →
      (deliver service request env w).result = .error e) ∧
    ∀ nearby, searched request env (castInt (request.max_agents * 4)) (env.turn w) = .ok nearby →
      ∃ result, (deliver service request env w).result = .ok result ∧
        (NoAgents result ↔ env.AllReserved w 4 (offered_ids (to_candidates nearby))) ∧
        (NoAgents result → (deliver service request env w).final.1.calls =
          w.calls + (4 + 2 * (offered_ids (to_candidates nearby)).length)) := by
  have hmax : (service.filled request w.epoch_ms).max_agents = request.max_agents :=
    if_neg (by omega)
  have hr : request.request_id ≠ "" := by
    intro hempty
    simp [MatchingService.invalid, hempty] at hvalid
  have hvalid' : MatchingService.invalid (service.filled request w.epoch_ms) = false := hvalid
  have hstarted := in_time_at_start hintime
  cases hsearched : searched request env (castInt (request.max_agents * 4)) (env.turn w) with
  | error e =>
    obtain ⟨hok, herror⟩ := deliver_of_always (P := fun _ _ => False) (E := fun e' _ => e' = e)
      (always_request_searched hrunning hstarted hvalid' (.error e) (hmax.symm ▸ hsearched)
        (fun e' he' => by cases he'; rfl) fun nearby h => by cases h)
    refine ⟨fun e' he' => ?_, fun nearby h => by cases h⟩
    cases he'
    cases hresult : (deliver service request env w).result with
    | ok result => exact (hok result hresult).elim
    | error e' => rw [herror e' hresult]
  | ok nearby =>
    have hmatch : (service.match_started (service.filled request w.epoch_ms) (to_candidates nearby)
          (env.turn^[2] w).epoch_ms).Always
        ((ServiceMatchContext.handler env (service.filled request w.epoch_ms).deadline_ms
          service.request_ttl_ms).logged (reservation_event MatchWorld.monotonic_ms)) (fun _ => True)
        (fun result s => (service.filled request w.epoch_ms).expired s.1.epoch_ms = false →
          (NoAgents result ↔ env.AllReserved w 4 (offered_ids (to_candidates nearby))) ∧
          (NoAgents result → s.1 =
            env.turn^[3 + 2 * (offered_ids (to_candidates nearby)).length] w))
        (fun _ s => (service.filled request w.epoch_ms).expired s.1.epoch_ms = true)
        (env.turn^[3] w, []) := by
      refine always_match_started_no_agents (service.filled request w.epoch_ms) hrunning hstrategy hr
        httl (filled_max_agents_pos service request w.epoch_ms) (to_candidates nearby) _ 3 ?_
      rw [Function.iterate_succ_apply']
      exact MatchEnvironment.epoch_le_turn
    obtain ⟨hok, herror⟩ := deliver_of_always
      (P := fun result s => (service.filled request w.epoch_ms).expired s.1.epoch_ms = false →
        (NoAgents result ↔ env.AllReserved w 4 (offered_ids (to_candidates nearby))) ∧
        (NoAgents result → s.1 =
          env.turn^[4 + 2 * (offered_ids (to_candidates nearby)).length] w))
      (always_request_searched hrunning hstarted hvalid' (.ok nearby) (hmax.symm ▸ hsearched)
        (fun e h => by cases h) fun nearby' hnearby' => by
          cases hnearby'
          refine hmatch.imp (fun _ => id) (fun result s hs latency_ms hlate => ?_) fun _ _ => id
          obtain ⟨hall, hfinal⟩ := hs (in_time_of_le MatchEnvironment.epoch_le_turn hlate)
          refine ⟨hall, fun hanswer => ?_⟩
          -- The latency is read in one more call.
          dsimp only
          rw [hfinal hanswer, ← Function.iterate_succ_apply' env.turn]
          congr 2
          omega)
    refine ⟨(fun e he => by cases he), fun nearby' hnearby' => ?_⟩
    cases hnearby'
    cases hresult : (deliver service request env w).result with
    | error e =>
      have hlate := herror e hresult
      rw [hlate] at hintime
      cases hintime
    | ok result =>
      obtain ⟨hall, hfinal⟩ := hok result hresult hintime
      refine ⟨result, rfl, hall, fun hanswer => ?_⟩
      rw [hfinal hanswer, MatchEnvironment.calls_iterate]

/-- Such an answer means that every device was reserved exactly if the strategy comes to one that is
free where there is one. -/
theorem findsFree_iff (hrunning : service.running = true)
    (hstrategy : service.strategy = some NearestStrategy.strategy) (httl : 0 < service.request_ttl_ms)
    (hvalid : MatchingService.invalid request = false) (hpos : 0 < request.max_agents)
    (hintime : (service.filled request w.epoch_ms).expired
      (deliver service request env w).final.1.epoch_ms = false) :
    FindsFree service request env w ↔ ReachesFree request env w := by
  obtain ⟨herror, hok⟩ := deliver_spec hrunning hstrategy httl hvalid hpos hintime
  have htried : ∀ r, searched request env (castInt (request.max_agents * 4)) (env.turn w) = r →
      tried_ids request env (env.turn w) = match r with
        | .ok nearby => offered_ids (to_candidates nearby)
        | .error _ => [] := by
    rintro r rfl
    rfl
  cases hsearched : searched request env (castInt (request.max_agents * 4)) (env.turn w) with
  | error e =>
    -- The search without the limit throws too, so nothing is found and there is no answer.
    have hfound : found_ids request env (env.turn w) = [] := by
      unfold found_ids
      rw [show searched request env 0 (env.turn w) = .error e from NearbyHandler.handle_error 0 hsearched]
    refine iff_of_true (fun result hresult => ?_) ?_
    · rw [herror e hsearched] at hresult
      cases hresult
    · rintro ⟨id, hid, -⟩
      rw [hfound] at hid
      exact absurd hid List.not_mem_nil
  | ok nearby =>
    obtain ⟨result, hresult, hall, hcalls⟩ := hok nearby hsearched
    unfold FindsFree ReachesFree
    rw [htried _ hsearched]
    dsimp only
    constructor
    · rintro hfinds ⟨id, hid, hfree⟩
      by_contra hnone
      push Not at hnone
      -- Then all that the strategy comes to are reserved, and the answer is wrong about this device.
      have hanswer : NoAgents result := hall.mpr fun i id hi => by
        rw [← Bool.not_eq_false]
        exact hnone i id hi
      obtain ⟨calls, hlt, hreserved⟩ := hfinds result hresult hanswer id hid
      rw [hcalls hanswer, Nat.add_lt_add_iff_left] at hlt
      rw [hfree calls hlt] at hreserved
      cases hreserved
    · intro hreaches result' hresult' hanswer id hid
      obtain rfl := Except.ok.inj (hresult.symm.trans hresult')
      by_contra hnever
      push Not at hnever
      rw [hcalls hanswer] at hnever
      obtain ⟨i, other, hi, hfree⟩ := hreaches ⟨id, hid, fun calls hlt =>
        eq_false_of_ne_true (hnever calls (Nat.add_lt_add_left hlt _))⟩
      rw [hall.mp hanswer i other hi] at hfree
      cases hfree

omit [LinearOrder D] in
/-- The numbers fit exactly if four times the number of agents does, and the disk of the radius does, where the
position is one that the handler takes. -/
theorem searchFits_iff (hvalid : MatchingService.invalid request = false) :
    SearchFits request env ↔ request.max_agents ≤ 536870911 ∧
      (valid_lat_lon request.lat request.lon = true →
        env.h3.DiskFits (NearbyHandler.effective_radius env.config request.radius_m)) := by
  have hradius : request.radius_m.isfinite = true ∧ .finite 0 < request.radius_m := by
    unfold MatchingService.invalid at hvalid
    simp only [Bool.or_eq_false_iff, Bool.not_eq_false', decide_eq_false_iff_not] at hvalid
    obtain ⟨⟨-, hfinite⟩, hpos⟩ := hvalid
    obtain ⟨q, hq⟩ := request.radius_m.isfinite_iff.mp hfinite
    rw [hq, Numeric.Double.finite_le_finite, not_le] at hpos
    exact ⟨hfinite, hq ▸ (Numeric.Double.finite_lt_finite _ _).mpr hpos⟩
  have heffective : ∃ r : ℚ, 0 < r ∧
      NearbyHandler.effective_radius env.config request.radius_m = .finite r :=
    NearbyHandler.min_max_radius_pos hradius.1 hradius.2
  obtain ⟨r, hr, heff⟩ := heffective
  have hnonneg : 0 ≤ ⌈env.h3.edges r⌉ := Int.ceil_nonneg (env.h3.edges_nonneg hr.le)
  unfold SearchFits NearbyHandler.Admitted
  rw [heff, env.h3.radius_to_k_finite hr.le]
  refine and_congr (by omega) ⟨fun h hposition => ?_, fun h hadmitted k hk => ?_⟩
  · have hfits := (h ⟨hposition, hradius.1, hradius.2, le_rfl⟩ _ rfl).2
    rw [NearbyHandler.disk_fits_iff hnonneg, Int.ceil_le] at hfits
    exact ⟨rfl, by exact_mod_cast hfits⟩
  · rw [Except.ok.injEq] at hk
    subst hk
    have hle : ⌈env.h3.edges r⌉ ≤ 26754 := by
      rw [Int.ceil_le]
      exact_mod_cast (h hadmitted.1).2
    exact ⟨by omega, (NearbyHandler.disk_fits_iff hnonneg).mpr hle⟩

/-- A valid request that is handled in time, whatever is stored and whatever else happens, is answered
with "no agents matched" only where each device that the handler finds is reserved, and without an
overflow, exactly if the strategy comes to an agent that is free where one of these devices is, and
the numbers are small enough. -/
theorem finds_free_iff (hrunning : service.running = true)
    (hstrategy : service.strategy = some NearestStrategy.strategy) (httl : 0 < service.request_ttl_ms)
    (hvalid : MatchingService.invalid request = false) (hpos : 0 < request.max_agents)
    (hintime : (service.filled request w.epoch_ms).expired
      (deliver service request env w).final.1.epoch_ms = false) :
    FindsFree service request env w ∧ SearchFits request env ↔
      ReachesFree request env w ∧ request.max_agents ≤ 536870911 ∧
        (valid_lat_lon request.lat request.lon = true →
          env.h3.DiskFits (NearbyHandler.effective_radius env.config request.radius_m)) :=
  and_congr (findsFree_iff hrunning hstrategy httl hvalid hpos hintime) (searchFits_iff hvalid)

end Answers

/-- Five agents at the point `(0, 0)`, of which another request holds the first four. -/
def five_agents : MatchWorld where
  redis := ["a", "b", "c", "d"].foldl (fun redis id => (redis.try_reserve_agent id "other" 60000 0).2)
    (["a", "b", "c", "d", "e"].foldl (fun redis id => (StateWriter.write H3Index.default
      { device_id := id, lat := .finite 0, lon := .finite 0, server_recv_ms := 1, seq := 1 } 0 redis).2)
      {})
  epoch_ms := 1000
  monotonic_ms := 0

/-- The environment of the request where nothing happens elsewhere. -/
def frozen : MatchEnvironment ℚ "r" := { stalling with elsewhere := fun _ => [] }

/-- No clock goes on there. -/
theorem deliver_frozen_epoch_ms (w : MatchWorld) :
    (deliver nearest_service stalled_request frozen w).final.1.epoch_ms = w.epoch_ms := by
  suffices hcall : ∀ {β : Type} (c : MatchCall ℚ β) (s : MatchWorld × List (ReservationEvent ℤ)),
      s.1.epoch_ms = w.epoch_ms → (((ServiceMatchContext.handler frozen
        (nearest_service.filled stalled_request w.epoch_ms).deadline_ms
        nearest_service.request_ttl_ms).logged (reservation_event MatchWorld.monotonic_ms)).run
          c s).2.1.epoch_ms = w.epoch_ms from
    (Prog.always_of_forall_call hcall (nearest_service.handle_request stalled_request) (w, [])
      rfl).final
  intro β c s hs
  rw [← hs]
  cases c <;> rfl

/-- The request is in time. -/
theorem five_agents_in_time : (nearest_service.filled stalled_request five_agents.epoch_ms).expired
    (deliver nearest_service stalled_request frozen five_agents).final.1.epoch_ms = false := by
  rw [deliver_frozen_epoch_ms]
  decide

/-- The agents as they are stored, each at distance zero. -/
def stored_agents : List (DeviceState × ℚ) :=
  ["a", "b", "c", "d", "e"].filterMap fun id =>
    (five_agents.redis.get_device_state id).map fun state => (state, 0)

/-- The handler finds the five agents. -/
theorem five_agents_found : NearbyHandler.found frozen.haversine frozen.metres frozen.h3 frozen.config
    (frozen.orders 1) five_agents.redis 1000 (.finite 0) (.finite 0) (.finite 1) 0 1 = stored_agents := by
  have hmembers : (H3Index.grid_disk (pack_cell frozen.h3.resolution
      (frozen.h3.lat_idx (Numeric.Double.finite 0).toRat)
      (frozen.h3.lon_idx (Numeric.Double.finite 0).toRat)) 1).foldl
        (fun unique cell => unique ∪ five_agents.redis.members cell) ∅ =
      ["a", "b", "c", "d", "e"].toFinset := by
    decide +kernel
  unfold NearbyHandler.found NearbyHandler.candidates RedisClient.get_devices_in_cells
  rw [hmembers, HashOrder.elements, (List.toFinset_sort _ (by decide)).mpr (by decide)]
  decide +kernel

/-- What the handler answers about the five agents. -/
theorem five_agents_searched (limit : ℤ) :
    ∃ nearby, searched stalled_request frozen limit (frozen.turn five_agents) = .ok nearby ∧
      (nearby.devices.map fun device => device.1.device_id) =
        ["a", "b", "c", "d", "e"].take (NearbyHandler.effective_limit frozen.config limit).toNat := by
  have hreq : NearbyHandler.Request frozen.h3 frozen.config (.finite 0) (.finite 0) (.finite 1) 0 1 :=
    { position := by decide +kernel
      radius_finite := rfl
      radius_pos := by decide +kernel
      last_seen := le_rfl
      rings := by decide +kernel
      disk_fits := by decide }
  obtain ⟨total, hrun⟩ := NearbyHandler.handle_eq frozen.haversine frozen.metres (frozen.orders 1)
    five_agents.redis 1000 limit hreq
  have hlength : stored_agents.length = 5 := by decide +kernel
  have hids : (stored_agents.map fun device => device.1.device_id) = ["a", "b", "c", "d", "e"] := by
    decide +kernel
  refine ⟨_, hrun, ?_⟩
  dsimp only
  rw [five_agents_found, NearbyHandler.sort, List.mergeSort_of_pairwise (by decide +kernel), hlength,
    castInt_eq (by decide) (by decide)]
  split
  · rw [List.map_take, hids]
  · rw [hids, List.take_of_length_le]
    show 5 ≤ (NearbyHandler.effective_limit frozen.config limit).toNat
    omega

/-- Four agents are reserved all the time, and the fifth one is free. -/
theorem five_agents_reserved (calls : ℕ) : (∀ id ∈ ["a", "b", "c", "d"],
    frozen.reserved_at five_agents calls id = true) ∧ frozen.reserved_at five_agents calls "e" = false := by
  have hsame : ∀ id, frozen.reserved_at five_agents calls id = frozen.reserved_at five_agents 0 id := by
    intro id
    induction calls with
    | zero => rfl
    | succ calls ih =>
      rw [← ih]
      unfold MatchEnvironment.reserved_at
      rw [Function.iterate_succ_apply']
      rfl
  simp only [hsame]
  decide +kernel

/-- The witness at the five agents. -/
theorem finds_free_iff_five :
    FindsFree nearest_service stalled_request frozen five_agents ∧ SearchFits stalled_request frozen ↔
      ReachesFree stalled_request frozen five_agents ∧ stalled_request.max_agents ≤ 536870911 ∧
        (valid_lat_lon stalled_request.lat stalled_request.lon = true →
          frozen.h3.DiskFits (NearbyHandler.effective_radius frozen.config stalled_request.radius_m)) :=
  finds_free_iff rfl rfl (by decide) (by decide +kernel) (by decide) five_agents_in_time

/-- A request for one agent that is in time does not come to the fifth agent, which is free; and one
for `2^29` agents asks for more candidates than fit. -/
theorem five_agents_not_found :
    (nearest_service.filled stalled_request five_agents.epoch_ms).expired
        (deliver nearest_service stalled_request frozen five_agents).final.1.epoch_ms = false ∧
      ¬FindsFree nearest_service stalled_request frozen five_agents ∧
      ¬SearchFits { stalled_request with max_agents := 2^29 } frozen := by
  refine ⟨five_agents_in_time, fun hfinds => ?_, fun hfits => absurd hfits.1 (by decide)⟩
  obtain ⟨nearby, hnearby, hids⟩ := five_agents_searched (castInt (stalled_request.max_agents * 4))
  obtain ⟨all, hall, hall_ids⟩ := five_agents_searched 0
  obtain ⟨-, hok⟩ := @deliver_spec ℚ _ nearest_service stalled_request frozen five_agents rfl rfl
    (by decide) (by decide +kernel) (by decide) five_agents_in_time
  obtain ⟨result, hresult, hanswer, -⟩ := hok nearby hnearby
  -- Those that the strategy comes to are the first four.
  have hfour : frozen.AllReserved five_agents 4 (offered_ids (to_candidates nearby)) := by
    intro i id hi
    refine (five_agents_reserved (4 + 2 * i)).1 id ?_
    have hmem := mem_of_mem_offered_ids (List.mem_of_getElem? hi)
    have hfirst : ["a", "b", "c", "d", "e"].take (NearbyHandler.effective_limit frozen.config
        (castInt (stalled_request.max_agents * 4))).toNat = ["a", "b", "c", "d"] := by
      decide +kernel
    rw [← hfirst, ← hids]
    rwa [to_candidates, List.map_map] at hmem
  have hfound : "e" ∈ found_ids stalled_request frozen (frozen.turn five_agents) := by
    unfold found_ids
    rw [hall]
    dsimp only
    rw [hall_ids]
    decide
  obtain ⟨calls, -, hreserved⟩ := hfinds result hresult (hanswer.mpr hfour) "e" hfound
  exact Bool.noConfusion (hreserved.symm.trans (five_agents_reserved calls).2)

end SignalRoute
