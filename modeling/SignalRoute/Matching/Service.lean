import SignalRoute.Matching.MatchOnce
import SignalRoute.Matching.Reservations
import SignalRoute.Query.Nearby

/-!
# The matching service over its stores

`MatchingService::handle_request`, the built-in strategy, and the context that the service gives to
a match: reservations in the store under the monotonic clock, a search by the nearby handler, and a
deadline under the system clock.

A `MatchWorld` is the store with the two clocks. After each call of a request the rest of the system
gets its turn (`Elsewhere`): the clocks advance, and other requests reserve and release. What
happens elsewhere, and when, is a parameter, so a statement about all of it is one about every
interleaving.
-/

namespace SignalRoute

open Store (HashOrder)
open Numeric (Double)
open Interaction (Prog Handler Run)
open Interaction.Prog (perform ofExcept always_bind)

/-- `to_candidates`. -/
def to_candidates {D : Type} (nearby : NearbyResult D) : List (MatchCandidate D) :=
  nearby.devices.map fun device =>
    { agent_id := device.1.device_id, lat := device.1.lat, lon := device.1.lon
      distance_m := device.2, available := true }

namespace NearestStrategy

variable {D : Type}

/-- The order of the candidates: by distance, and by agent id at equal distance. -/
def closer [LinearOrder D] (a b : MatchCandidate D) : Bool :=
  if a.distance_m ≠ b.distance_m then a.distance_m < b.distance_m else a.agent_id < b.agent_id

/-- The candidates that can be assigned, in order. -/
def sorted [LinearOrder D] (candidates : List (MatchCandidate D)) : List (MatchCandidate D) :=
  (candidates.filter fun candidate => candidate.available && candidate.agent_id ≠ "").mergeSort
    fun a b => !closer b a

/-- The loop over the sorted candidates: each is reserved, until there are enough or no time is left. -/
def assign (max_agents : ℤ) :
    List (MatchCandidate D) → List String → MatchProgram D (List String)
  | [], assigned => .pure assigned
  | candidate :: rest, assigned => do
    let remaining_ms ← perform .time_remaining_ms
    if remaining_ms = 0 then
      return assigned
    else
      let reserved ← perform (.reserve candidate.agent_id)
      if reserved = false then
        assign max_agents rest assigned
      else
        let assigned := assigned ++ [candidate.agent_id]
        if castInt assigned.length ≥ max_agents then
          return assigned
        else
          assign max_agents rest assigned

/-- `NearestStrategy::match`. -/
def strategy [LinearOrder D] : MatchStrategy D := fun request candidates =>
  if request.max_agents ≤ 0 then .pure []
  else assign request.max_agents (sorted candidates) []

end NearestStrategy

namespace MatchingService

variable {D : Type} (service : MatchingService D)

/-- A request with what `handle_request` fills in: the strategy, the deadline, and the number of
agents. -/
def filled (request : MatchRequest) (started_ms : ℤ) : MatchRequest :=
  { request with
    strategy := if request.strategy = "" then service.strategy_name else request.strategy
    deadline_ms :=
      if request.deadline_ms = 0 ∧ service.request_ttl_ms > 0 then
        started_ms + service.request_ttl_ms
      else request.deadline_ms
    max_agents := if request.max_agents ≤ 0 then 1 else request.max_agents }

/-- `request.request_id.empty() || !isfinite(...) || ...`. -/
def invalid (request : MatchRequest) : Bool :=
  request.request_id = "" || !request.lat.isfinite || !request.lon.isfinite ||
    !request.radius_m.isfinite || request.radius_m ≤ .finite 0

/-- What `handle_request` does once it has read the clock. The number of candidates that it asks for is a
product of `int`s, which wraps around. The search may throw, and nothing catches that. -/
def request_started (request : MatchRequest) (started_ms : ℤ) : MatchProgram D MatchResult :=
  if service.running = false then
    return failed_result request "matching service is not running"
  else
    let request := service.filled request started_ms
    if request.expired started_ms = true then
      return expired_result request
    else if invalid request = true then
      return failed_result request "invalid match request"
    else do
      let found ← perform
        (.nearby request.lat request.lon request.radius_m (castInt (request.max_agents * 4)))
      let candidates ← ofExcept found
      let result ← service.match_once request candidates
      let now_ms ← perform .epoch_now_ms
      return { result with latency_ms := now_ms - started_ms }

/-- `handle_request`. -/
def handle_request (request : MatchRequest) : MatchProgram D MatchResult := do
  let started_ms ← perform .epoch_now_ms
  service.request_started request started_ms

variable {σ T : Type} (h : Handler (MatchCall D) σ) (stamp : σ → T)

/-- The run of a request from a state, with the log of its reservations. -/
def handle_run (request : MatchRequest) (s : σ) :
    Run (σ × List (ReservationEvent T)) Exception MatchResult :=
  (service.handle_request request).exec (h.logged (reservation_event stamp)) (s, [])

/-- The run of the strategy for a request that has read the clock, where it gets that far. -/
def started_strategy_run (request : MatchRequest) (started_ms : ℤ) (s : σ) :
    Option (Run (σ × List (ReservationEvent T)) Exception (List String)) :=
  let request := service.filled request started_ms
  if service.running = false ∨ request.expired started_ms = true ∨ invalid request = true then none
  else
    let found := h.run
      (.nearby request.lat request.lon request.radius_m (castInt (request.max_agents * 4))) s
    match found.1 with
    | .ok candidates => service.strategy_run h stamp request candidates found.2
    | .error _ => none

/-- The run of the strategy for a request, where it gets that far. -/
def handle_strategy_run (request : MatchRequest) (s : σ) :
    Option (Run (σ × List (ReservationEvent T)) Exception (List String)) :=
  let started := h.run .epoch_now_ms s
  service.started_strategy_run h stamp request started.1 started.2

/-- A request that runs no strategy is not matched; one that runs its strategy settles the outcome, as
the request with what was filled in. -/
theorem always_request_started (request : MatchRequest) (started_ms : ℤ) (s : σ) :
    (service.request_started request started_ms).Always (h.logged (reservation_event stamp))
      (fun _ => True)
      (fun result s' =>
        match service.started_strategy_run h stamp request started_ms s with
        | none => result.status ≠ .MATCHED
        | some run => Settled (service.filled request started_ms) run.result run.final.2 result s'.2)
      (fun _ _ => service.started_strategy_run h stamp request started_ms s = none) (s, []) := by
  unfold request_started started_strategy_run
  dsimp only
  generalize service.filled request started_ms = filled
  -- The early returns run no strategy, and are none of them `MATCHED`.
  by_cases hrunning : service.running = false
  · rw [if_pos hrunning, if_pos (.inl hrunning)]
    exact nofun
  · by_cases hexpired : filled.expired started_ms = true
    · rw [if_neg hrunning, if_pos hexpired, if_pos (.inr (.inl hexpired))]
      exact nofun
    · by_cases hinvalid : invalid filled = true
      · rw [if_neg hrunning, if_neg hexpired, if_pos hinvalid, if_pos (.inr (.inr hinvalid))]
        exact nofun
      · rw [if_neg hrunning, if_neg hexpired, if_neg hinvalid,
          if_neg (not_or.mpr ⟨hrunning, not_or.mpr ⟨hexpired, hinvalid⟩⟩)]
        -- The search is no event.
        refine ⟨trivial, ?_⟩
        generalize hfound : h.run (.nearby filled.lat filled.lon filled.radius_m
          (castInt (filled.max_agents * 4))) s = found
        change Prog.Always _ _ _ _ (Prog.bind (ofExcept (h.run (.nearby filled.lat filled.lon
          filled.radius_m (castInt (filled.max_agents * 4))) s).1) _)
          ((h.run (.nearby filled.lat filled.lon filled.radius_m (castInt (filled.max_agents * 4))) s).2, [])
        rw [hfound]
        obtain ⟨candidates, s⟩ := found
        cases candidates with
        -- A search that throws is a request without a run of the strategy.
        | error e => exact rfl
        | ok candidates =>
          change Prog.Always _ _ _ _ (Prog.bind (service.match_once filled candidates) _) (s, [])
          rw [always_bind]
          refine (always_match_once h stamp service filled candidates s).imp (fun _ => id) ?_ nofun
          intro result s' hs'
          refine ⟨trivial, ?_⟩
          dsimp only [Prog.pure_eq]
          change match service.strategy_run h stamp filled candidates s with
            | none => result.status ≠ .MATCHED
            | some run => Settled filled run.result run.final.2
                { result with latency_ms := _ } (s'.2 ++ [])
          rw [List.append_nil]
          -- The latency is read once more at the end, which changes neither status nor ids.
          cases hrun : service.strategy_run h stamp filled candidates s with
          | none =>
            rw [hrun] at hs'
            exact hs'.1
          | some run =>
            rw [hrun] at hs'
            exact hs'

/-- What a request returns and what is held after it. -/
theorem handle_run_spec (request : MatchRequest) (s : σ) :
    match service.handle_strategy_run h stamp request s with
    | none => ∀ result, (service.handle_run h stamp request s).result = .ok result →
        result.status ≠ .MATCHED
    | some run => ∃ result, (service.handle_run h stamp request s).result = .ok result ∧
        Settled (service.filled request (h.run .epoch_now_ms s).1) run.result run.final.2 result
          (service.handle_run h stamp request s).final.2 := by
  have halways := service.always_request_started h stamp request (h.run .epoch_now_ms s).1
    (h.run .epoch_now_ms s).2
  obtain ⟨-, hok, herror⟩ := (Prog.always_iff_exec _ _).mp halways
  -- The run of the whole request is that of the rest, after the clock has been read.
  change ∀ a, (service.handle_run h stamp request s).result = .ok a → _ at hok
  change ∀ e, (service.handle_run h stamp request s).result = .error e → _ at herror
  unfold handle_strategy_run
  dsimp only
  cases hrun : service.started_strategy_run h stamp request (h.run .epoch_now_ms s).1
      (h.run .epoch_now_ms s).2 with
  | none =>
    rw [hrun] at hok
    exact hok
  | some run =>
    rw [hrun] at hok herror
    cases hresult : (service.handle_run h stamp request s).result with
    | error e => exact absurd (herror e hresult) nofun
    | ok result => exact ⟨result, rfl, hok result hresult⟩

end MatchingService

/-- The store, the system clock, the monotonic clock, and the number of calls so far. -/
structure MatchWorld where
  redis : RedisClient := {}
  epoch_ms : ℤ
  monotonic_ms : ℤ
  calls : ℕ := 0

/-- What may happen beside a request: the clocks advance, and other requests reserve and release. -/
inductive Elsewhere (request_id : String) where
  | advance (epoch_ms monotonic_ms : ℕ)
  | try_reserve_agent (agent_id other : String) (ttl_ms : ℤ) (other_ne : other ≠ request_id)
  | release_agent (agent_id other : String) (other_ne : other ≠ request_id)

/-- One thing happens. -/
def Elsewhere.act {request_id : String} (w : MatchWorld) : Elsewhere request_id → MatchWorld
  | .advance epoch_ms monotonic_ms =>
    { w with epoch_ms := w.epoch_ms + epoch_ms, monotonic_ms := w.monotonic_ms + monotonic_ms }
  | .try_reserve_agent agent_id other ttl_ms _ =>
    { w with redis := (w.redis.try_reserve_agent agent_id other ttl_ms w.monotonic_ms).2 }
  | .release_agent agent_id other _ => { w with redis := w.redis.release_agent agent_id other }

/-- What the service's context is built on, and what happens elsewhere after each call. -/
structure MatchEnvironment (D : Type) (request_id : String) where
  haversine : ℚ → ℚ → ℚ → ℚ → D
  metres : ℚ → D
  h3 : H3Index
  config : SpatialConfig := .default
  orders : ℕ → HashOrder
  elsewhere : ℕ → List (Elsewhere request_id)

/-- The rest of the system gets its turn. -/
def MatchEnvironment.turn {D : Type} {request_id : String} (env : MatchEnvironment D request_id)
    (w : MatchWorld) : MatchWorld :=
  { (env.elsewhere w.calls).foldl Elsewhere.act w with calls := w.calls + 1 }

namespace ServiceMatchContext

variable {D : Type} [LinearOrder D] {request_id : String} (env : MatchEnvironment D request_id)
  (deadline_ms ttl_ms : ℤ)

/-- `time_remaining_ms`. -/
def time_remaining_ms (now_ms : ℤ) : ℤ :=
  if deadline_ms ≤ 0 then 60000
  else if deadline_ms - now_ms > 0 then deadline_ms - now_ms else 0

/-- A call of the context of a request with this deadline, where reservations have this TTL. -/
def perform {β : Type} : MatchCall D β → MatchWorld → β × MatchWorld
  | .epoch_now_ms, w => (w.epoch_ms, w)
  | .reserve agent_id, w =>
    let (ok, redis) := ReservationManager.reserve ttl_ms w.redis agent_id request_id w.monotonic_ms
    (ok, { w with redis })
  | .release agent_id, w =>
    ((), { w with redis := ReservationManager.release w.redis agent_id request_id })
  | .nearby lat lon radius_m limit, w =>
    ((NearbyHandler.handle env.haversine env.metres env.h3 env.config (env.orders w.calls) w.redis
      w.epoch_ms lat lon radius_m limit 0).map to_candidates, w)
  | .time_remaining_ms, w => (time_remaining_ms deadline_ms w.epoch_ms, w)
  | .request_id, w => (request_id, w)

/-- The context as the handler of the calls; after each one the rest of the system gets its turn. -/
def handler : Handler (MatchCall D) MatchWorld :=
  ⟨fun c w => ((perform env deadline_ms ttl_ms c w).1,
    env.turn (perform env deadline_ms ttl_ms c w).2)⟩

end ServiceMatchContext

end SignalRoute
