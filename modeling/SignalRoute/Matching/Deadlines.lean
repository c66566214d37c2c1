import SignalRoute.Matching.Service

/-!
# Deadlines and leases of a match

What a `MATCHED` result should mean at the moment it is returned: the deadline has not passed, and
every assigned agent is still reserved for the request (`MatchSound`). The clocks run while the
strategy does, and other requests take over what has expired.

The code looks at the deadline before it runs the strategy and not after, and at its own list of
reservations, not at the leases. So `MatchSound` is a matter of the clocks alone:
`matched_sound_iff` says that it holds exactly when they leave enough time (`InTime`). The invariant
is `Backed`: an agent that is held since some time is stored for the request until the TTL after
that time, and what is stored for the request expires just then.
-/

namespace SignalRoute

open Interaction (Prog Handler Run)
open Interaction.Prog (perform always_bind)

/-- A run of a strategy over the service's context, with the times of its reservations. -/
abbrev StrategyRun : Type := Run (MatchWorld × List (ReservationEvent ℤ)) Exception (List String)

/-- What the result of a request should mean when it is returned, if the strategy was run. -/
structure MatchSound (request : MatchRequest) (outcome : Except Exception MatchResult)
    (strategy : Option StrategyRun) (returned : MatchWorld) : Prop where
  matched : ∀ result, outcome = .ok result → result.status = .MATCHED →
    request.expired returned.epoch_ms = false ∧
      ∀ agent_id ∈ result.assigned_agent_ids,
        returned.redis.get_agent_reservation_holder agent_id returned.monotonic_ms =
          some request.request_id
  expired : ∀ run, strategy = some run → request.expired run.final.1.epoch_ms = true →
    ∃ result, outcome = .ok result ∧ result.status = .EXPIRED ∧
      ∀ agent_id, returned.redis.get_agent_reservation_holder agent_id returned.monotonic_ms ≠
        some request.request_id

/-- The clocks leave a request enough time: the deadline is after the end of the strategy, and if
the strategy's ids are granted, it is after the return, as is the end of each lease, counted from
the last reservation of the agent. -/
def InTime (request : MatchRequest) (ttl_ms : ℤ) (strategy : Option StrategyRun)
    (returned : MatchWorld) : Prop :=
  ∀ run, strategy = some run → request.expired run.final.1.epoch_ms = false ∧
    ∀ ids, run.result = .ok ids → Granted request ids run.final.2 →
      request.expired returned.epoch_ms = false ∧
        ∀ agent_id ∈ request.cut ids, ∀ since_ms, held_since run.final.2 agent_id = some since_ms →
          returned.monotonic_ms < since_ms + ttl_ms

/-- The invariant between the log of a request and the store: an agent that is held since some time is
stored for the request until the TTL after it, and the request's own record of it expires then. -/
structure Backed (request_id : String) (ttl_ms : ℤ)
    (s : MatchWorld × List (ReservationEvent ℤ)) : Prop where
  stored : ∀ agent_id since_ms, held_since s.2 agent_id = some since_ms →
    s.1.monotonic_ms < since_ms + ttl_ms →
      s.1.redis.reservations.lookup agent_id = some ⟨request_id, since_ms + ttl_ms⟩
  expires_at_eq : ∀ agent_id since_ms expires_at_ms, held_since s.2 agent_id = some since_ms →
    s.1.redis.reservations.lookup agent_id = some ⟨request_id, expires_at_ms⟩ →
      expires_at_ms = since_ms + ttl_ms

section Invariant

variable {D : Type} {request_id : String} {deadline_ms ttl_ms : ℤ}
  {w : MatchWorld} {log : List (ReservationEvent ℤ)}

/-- Nothing is held at the start. -/
theorem Backed.start : Backed request_id ttl_ms (w, []) where
  stored _ _ h := by cases h
  expires_at_eq _ _ _ h := by cases h

/-- The request is the holder of an agent that is held until the lease ends. -/
theorem Backed.holder_iff (h : Backed request_id ttl_ms (w, log)) {agent_id : String} {since_ms : ℤ}
    (hheld : held_since log agent_id = some since_ms) :
    w.redis.get_agent_reservation_holder agent_id w.monotonic_ms = some request_id ↔
      w.monotonic_ms < since_ms + ttl_ms := by
  rw [RedisClient.get_agent_reservation_holder_eq_some]
  constructor
  · rintro ⟨expires_at_ms, hstored, hlive⟩
    have hexpires : expires_at_ms = since_ms + ttl_ms :=
      h.expires_at_eq agent_id since_ms expires_at_ms hheld hstored
    omega
  · intro hlive
    exact ⟨_, h.stored agent_id since_ms hheld hlive, hlive⟩

/-- A successful reservation by another request takes over no agent whose lease runs. -/
theorem Backed.other_reserves (h : Backed request_id ttl_ms (w, log)) {agent_id other : String}
    {other_ttl_ms : ℤ} (hother : other ≠ request_id) :
    Backed request_id ttl_ms ({ w with
      redis := (w.redis.try_reserve_agent agent_id other other_ttl_ms w.monotonic_ms).2 }, log) := by
  cases hok : (w.redis.try_reserve_agent agent_id other other_ttl_ms w.monotonic_ms).1 with
  | false =>
    rw [RedisClient.try_reserve_agent_rejected hok]
    exact ⟨h.stored, h.expires_at_eq⟩
  | true =>
    -- The script found the key free, so the agent's lease is over, if it had one.
    have hfree := (RedisClient.try_reserve_agent_fst.mp hok).2.2.2
    refine ⟨fun a since_ms hheld hlive => ?_, fun a since_ms expires_at_ms hheld hstored => ?_⟩
    · dsimp only at hlive ⊢
      have hne : a ≠ agent_id := by
        rintro rfl
        have hholder := (h.holder_iff hheld).mpr hlive
        rw [hfree] at hholder
        cases hholder
      rw [RedisClient.lookup_try_reserve_agent hok, if_neg hne]
      exact h.stored a since_ms hheld hlive
    · dsimp only at hstored
      rw [RedisClient.lookup_try_reserve_agent hok] at hstored
      by_cases ha : a = agent_id
      · -- What is stored there now is the other request's.
        rw [if_pos ha] at hstored
        cases hstored
        exact absurd rfl hother
      · rw [if_neg ha] at hstored
        exact h.expires_at_eq a since_ms expires_at_ms hheld hstored

/-- A release by another request does not touch the request's reservations. -/
theorem Backed.other_releases (h : Backed request_id ttl_ms (w, log)) {agent_id other : String}
    (hother : other ≠ request_id) :
    Backed request_id ttl_ms ({ w with redis := w.redis.release_agent agent_id other }, log) := by
  refine ⟨fun a since_ms hheld hlive => ?_, fun a since_ms expires_at_ms hheld hstored => ?_⟩
  · have hstored : w.redis.reservations.lookup a = _ := h.stored a since_ms hheld hlive
    dsimp only
    rw [RedisClient.lookup_release_agent]
    -- The script of the release keeps a key of another holder.
    by_cases ha : a = agent_id
    · rw [if_pos ha, hstored, Option.filter_some, if_pos (by simpa using hother.symm)]
    · rw [if_neg ha]
      exact hstored
  · dsimp only at hstored
    rw [RedisClient.lookup_release_agent] at hstored
    by_cases ha : a = agent_id
    · rw [if_pos ha, Option.filter_eq_some_iff] at hstored
      exact h.expires_at_eq a since_ms expires_at_ms hheld hstored.1
    · rw [if_neg ha] at hstored
      exact h.expires_at_eq a since_ms expires_at_ms hheld hstored

/-- What happens elsewhere keeps the invariant. -/
theorem Backed.act (h : Backed request_id ttl_ms (w, log)) (event : Elsewhere request_id) :
    Backed request_id ttl_ms (event.act w, log) := by
  cases event with
  | advance epoch_ms monotonic_ms =>
    refine ⟨fun a since_ms hheld hlive => h.stored a since_ms hheld ?_, h.expires_at_eq⟩
    have hearlier : w.monotonic_ms + monotonic_ms < since_ms + ttl_ms := hlive
    change w.monotonic_ms < since_ms + ttl_ms
    omega
  | try_reserve_agent agent_id other other_ttl_ms hother => exact h.other_reserves hother
  | release_agent agent_id other hother => exact h.other_releases hother

/-- The turn of the rest of the system keeps the invariant. -/
theorem Backed.turn (h : Backed request_id ttl_ms (w, log)) (env : MatchEnvironment D request_id) :
    Backed request_id ttl_ms (env.turn w, log) := by
  have hacts : Backed request_id ttl_ms ((env.elsewhere w.calls).foldl Elsewhere.act w, log) :=
    List.foldlRecOn (motive := fun w => Backed request_id ttl_ms (w, log)) _ _ h
      fun _ h event _ => h.act event
  exact ⟨hacts.stored, hacts.expires_at_eq⟩

/-- A successful reservation starts a lease. -/
theorem Backed.reserve (h : Backed request_id ttl_ms (w, log)) {agent_id : String}
    (hok : (w.redis.try_reserve_agent agent_id request_id ttl_ms w.monotonic_ms).1 = true) :
    Backed request_id ttl_ms ({ w with
        redis := (w.redis.try_reserve_agent agent_id request_id ttl_ms w.monotonic_ms).2 },
      log ++ [.reserved agent_id w.monotonic_ms]) := by
  refine ⟨fun a since_ms hheld hlive => ?_, fun a since_ms expires_at_ms hheld hstored => ?_⟩
  · dsimp only at hheld hlive ⊢
    rw [held_since_reserved] at hheld
    rw [RedisClient.lookup_try_reserve_agent hok]
    by_cases ha : a = agent_id
    · rw [if_pos ha.symm, Option.some.injEq] at hheld
      rw [if_pos ha, hheld]
    · rw [if_neg (Ne.symm ha)] at hheld
      rw [if_neg ha]
      exact h.stored a since_ms hheld hlive
  · dsimp only at hheld hstored
    rw [held_since_reserved] at hheld
    rw [RedisClient.lookup_try_reserve_agent hok] at hstored
    by_cases ha : a = agent_id
    · rw [if_pos ha.symm, Option.some.injEq] at hheld
      rw [if_pos ha] at hstored
      cases hstored
      rw [hheld]
    · rw [if_neg (Ne.symm ha)] at hheld
      rw [if_neg ha] at hstored
      exact h.expires_at_eq a since_ms expires_at_ms hheld hstored

/-- A release ends the request's claim on the agent. -/
theorem Backed.release (h : Backed request_id ttl_ms (w, log)) (agent_id : String) :
    Backed request_id ttl_ms ({ w with redis := w.redis.release_agent agent_id request_id },
      log ++ [.released agent_id]) := by
  have hother : ∀ a since_ms, held_since (log ++ [.released agent_id]) a = some since_ms →
      a ≠ agent_id ∧ held_since log a = some since_ms := by
    intro a since_ms hheld
    rw [held_since_released] at hheld
    by_cases ha : agent_id = a
    · rw [if_pos ha] at hheld
      cases hheld
    · rw [if_neg ha] at hheld
      exact ⟨Ne.symm ha, hheld⟩
  refine ⟨fun a since_ms hheld hlive => ?_, fun a since_ms expires_at_ms hheld hstored => ?_⟩
  · obtain ⟨ha, hbefore⟩ := hother a since_ms hheld
    dsimp only
    rw [RedisClient.lookup_release_agent, if_neg ha]
    exact h.stored a since_ms hbefore hlive
  · obtain ⟨ha, hbefore⟩ := hother a since_ms hheld
    dsimp only at hstored
    rw [RedisClient.lookup_release_agent, if_neg ha] at hstored
    exact h.expires_at_eq a since_ms expires_at_ms hbefore hstored

/-- Every call of the context keeps the invariant. -/
theorem Backed.call [LinearOrder D] (env : MatchEnvironment D request_id) {β : Type} (c : MatchCall D β)
    (s : MatchWorld × List (ReservationEvent ℤ)) (h : Backed request_id ttl_ms s) :
    Backed request_id ttl_ms
      (((ServiceMatchContext.handler env deadline_ms ttl_ms).logged
        (reservation_event MatchWorld.monotonic_ms)).run c s).2 := by
  obtain ⟨w, log⟩ := s
  refine Backed.turn ?_ env
  have hquiet : Backed request_id ttl_ms (w, log ++ []) := by
    rw [List.append_nil]
    exact h
  cases c with
  | reserve agent_id =>
    dsimp only [ServiceMatchContext.handler, ServiceMatchContext.perform, reservation_event]
    rw [ReservationManager.reserve_eq]
    cases hok : (w.redis.try_reserve_agent agent_id request_id ttl_ms w.monotonic_ms).1 with
    | true => exact h.reserve hok
    | false =>
      rw [RedisClient.try_reserve_agent_rejected hok]
      exact hquiet
  | release agent_id => exact h.release agent_id
  -- The other calls read, and touch no reservation.
  | _ => exact hquiet

/-- The invariant holds at the end of a program that starts with nothing held. -/
theorem Backed.exec [LinearOrder D] {α : Type} (env : MatchEnvironment D request_id)
    (p : MatchProgram D α) (w : MatchWorld) :
    Backed request_id ttl_ms
      (p.exec ((ServiceMatchContext.handler env deadline_ms ttl_ms).logged
        (reservation_event MatchWorld.monotonic_ms)) (w, [])).final :=
  (Prog.always_of_forall_call (fun c s hs => Backed.call env c s hs) p (w, []) .start).final

/-- Where the outcome of the strategy is settled and the leases back what is held, the result means
what it should exactly when the clocks leave the request enough time. -/
theorem sound_iff {request : MatchRequest} {outcome : Except Exception MatchResult}
    {strategy : Option StrategyRun} (hbacked : Backed request.request_id ttl_ms (w, log))
    (hnone : strategy = none → ∀ result, outcome = .ok result → result.status ≠ .MATCHED)
    (hsome : ∀ run, strategy = some run → ∃ result, outcome = .ok result ∧
      Settled request run.result run.final.2 result log) :
    MatchSound request outcome strategy w ↔ InTime request ttl_ms strategy w := by
  cases strategy with
  | none =>
    -- Without a run of the strategy there is no `MATCHED`, and nothing to be late for.
    refine iff_of_true ⟨fun result hresult hmatched => ?_, nofun⟩ nofun
    exact absurd hmatched (hnone rfl result hresult)
  | some run =>
    obtain ⟨result, rfl, hsettled⟩ := hsome run rfl
    constructor
    · intro hsound run' hrun
      cases hrun
      refine ⟨eq_false_of_ne_true fun hexpired => ?_, fun ids hids hgranted => ?_⟩
      · -- The code never answers `EXPIRED` once the strategy has run.
        obtain ⟨_, hresult, hstatus, -⟩ := hsound.expired run rfl hexpired
        cases hresult
        rcases hsettled with ⟨-, -, -, hmatched, -⟩ | ⟨-, hfailed, -⟩
        · rw [hmatched] at hstatus
          cases hstatus
        · rw [hfailed] at hstatus
          cases hstatus
      · rcases hsettled with ⟨ids', hids', -, hmatched, hassigned, hsince⟩ | ⟨hnone, -, -⟩
        · obtain rfl : ids = ids' := Except.ok.inj (hids.symm.trans hids')
          obtain ⟨htime, hholder⟩ := hsound.matched result rfl hmatched
          refine ⟨htime, fun agent_id hmem since_ms hheld => ?_⟩
          have hheld' : held_since log agent_id = some since_ms := by
            -- Settling the match leaves the leases of the assigned ids as they were.
            rw [hsince agent_id, if_pos hmem]
            exact hheld
          rw [hassigned] at hholder
          exact (hbacked.holder_iff hheld').mp (hholder agent_id hmem)
        · exact absurd hgranted (hnone ids hids)
    · intro htime
      obtain ⟨hlive, hgrants⟩ := htime run rfl
      refine ⟨fun result' hresult hmatched => ?_, fun run' hrun hexpired => ?_⟩
      · cases hresult
        -- The ids that are held after the match are held since the strategy reserved them.
        rcases hsettled with ⟨ids, hids, hgranted, -, hassigned, hsince⟩ | ⟨-, hfailed, -⟩
        · obtain ⟨hnow, hleases⟩ := hgrants ids hids hgranted
          refine ⟨hnow, fun agent_id hmem => ?_⟩
          rw [hassigned] at hmem
          obtain ⟨since_ms, hheld⟩ := held_iff.mp (hgranted.2 agent_id hmem).2
          have hheld' : held_since log agent_id = some since_ms := by
            rw [hsince agent_id, if_pos hmem]
            exact hheld
          exact (hbacked.holder_iff hheld').mpr (hleases agent_id hmem since_ms hheld)
        · rw [hfailed] at hmatched
          cases hmatched
      · cases hrun
        rw [hlive] at hexpired
        cases hexpired

end Invariant

/-- For every advance of the clocks and every interleaving with the reservations and releases of other
requests, the result of `match_once` and of `handle_request` means what it should exactly when the
clocks leave the request enough time. -/
theorem matched_sound_iff {D : Type} [LinearOrder D] (service : MatchingService D)
    (request : MatchRequest) (candidates : List (MatchCandidate D))
    (env : MatchEnvironment D request.request_id) (w : MatchWorld) :
    (let context := ServiceMatchContext.handler env request.deadline_ms service.request_ttl_ms
      let run := service.match_run context MatchWorld.monotonic_ms request candidates w
      let strategy := service.strategy_run context MatchWorld.monotonic_ms request candidates w
      MatchSound request run.result strategy run.final.1 ↔
        InTime request service.request_ttl_ms strategy run.final.1) ∧
    (let filled := service.filled request w.epoch_ms
      let context := ServiceMatchContext.handler env filled.deadline_ms service.request_ttl_ms
      let run := service.handle_run context MatchWorld.monotonic_ms request w
      let strategy := service.handle_strategy_run context MatchWorld.monotonic_ms request w
      MatchSound filled run.result strategy run.final.1 ↔
        InTime filled service.request_ttl_ms strategy run.final.1) := by
  constructor
  · intro context run strategy
    have hbacked : Backed request.request_id service.request_ttl_ms run.final :=
      Backed.exec env (service.match_once request candidates) w
    obtain ⟨result, hresult, hspec⟩ := match_run_spec context MatchWorld.monotonic_ms service request
      candidates w
    refine sound_iff hbacked (fun hnone result' hresult' => ?_) fun _ hsome => ?_
    · obtain rfl : result = result' := Except.ok.inj (hresult.symm.trans hresult')
      dsimp only [strategy] at hnone
      rw [hnone] at hspec
      exact hspec.1
    · dsimp only [strategy] at hsome
      rw [hsome] at hspec
      exact ⟨result, hresult, hspec⟩
  · intro filled context run strategy
    have hbacked : Backed filled.request_id service.request_ttl_ms run.final :=
      Backed.exec env (service.handle_request request) w
    have hspec := service.handle_run_spec context MatchWorld.monotonic_ms request w
    refine sound_iff hbacked (fun hnone => ?_) fun _ hsome => ?_
    · dsimp only [strategy] at hnone
      rw [hnone] at hspec
      exact hspec
    · dsimp only [strategy] at hsome
      rw [hsome] at hspec
      exact hspec

/-- A store with one agent, at the point `(0, 0)`. -/
def one_agent : MatchWorld where
  redis := (StateWriter.write H3Index.default
    { device_id := "a", lat := .finite 0, lon := .finite 0, server_recv_ms := 1, seq := 1 } 0 {}).2
  epoch_ms := 1000
  monotonic_ms := 0

/-- A request from that point, where distances are zero, and where both clocks go on by a minute after
the fifth call of the service, which is the reservation. -/
def stalling : MatchEnvironment ℚ "r" where
  haversine _ _ _ _ := 0
  metres r := r
  h3 := .default
  orders _ := .insertion
  elsewhere i := if i = 4 then [.advance 60000 60000] else []

/-- The service with the built-in strategy. -/
def nearest_service : MatchingService ℚ := { strategy := some NearestStrategy.strategy }

/-- The request. -/
def stalled_request : MatchRequest :=
  { request_id := "r", lat := .finite 0, lon := .finite 0, radius_m := .finite 1 }

/-- The context of the request. -/
def stalled_context : Handler (MatchCall ℚ) MatchWorld :=
  ServiceMatchContext.handler stalling
    (nearest_service.filled stalled_request one_agent.epoch_ms).deadline_ms
    nearest_service.request_ttl_ms

/-- The built-in strategy reserves the agent in time, the deadline passes, and the request is `MATCHED`
all the same. -/
theorem stalled_request_not_sound :
    let run := nearest_service.handle_run stalled_context MatchWorld.monotonic_ms stalled_request
      one_agent
    let strategy := nearest_service.handle_strategy_run stalled_context MatchWorld.monotonic_ms
      stalled_request one_agent
    ¬ MatchSound (nearest_service.filled stalled_request one_agent.epoch_ms) run.result strategy
      run.final.1 := by
  intro run strategy hsound
  have hresult : (nearest_service.handle_run stalled_context MatchWorld.monotonic_ms stalled_request
      one_agent).result = .ok ⟨"r", .MATCHED, ["a"], "", 60000⟩ := by
    decide +kernel
  have hlate : (nearest_service.filled stalled_request one_agent.epoch_ms).expired
      (nearest_service.handle_run stalled_context MatchWorld.monotonic_ms stalled_request
        one_agent).final.1.epoch_ms = true := by
    decide +kernel
  have htime := (hsound.matched _ hresult rfl).1
  exact Bool.noConfusion (hlate.symm.trans htime)

end SignalRoute
