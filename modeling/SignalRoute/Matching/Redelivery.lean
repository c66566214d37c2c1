import SignalRoute.Matching.Deadlines

/-!
# Redelivery of a match request

The request topic is consumed at least once, so a request may be handled again while the agents that
were assigned to it are still reserved. Nothing else happens in between but that time passes.

`try_reserve_agent` refuses an agent that the request itself holds (`refused_by_other_iff`), and the
built-in strategy then goes on to the next candidate. So a handling takes exactly the first free
candidates (`free_from`), as many as are asked for, whatever the request already holds
(`deliver_spec`). `idempotent_iff` is what that means for a run of handlings.
-/

namespace SignalRoute

open Interaction (Prog Handler Run)
open Interaction.Prog (perform always_bind)

namespace RedisClient

variable {redis : RedisClient} {agent_id request_id : String} {ttl_ms now_ms : ℤ}

/-- A refused reservation means that another request holds the agent, unless this one does. -/
theorem refused_by_other_iff (ha : agent_id ≠ "") (hr : request_id ≠ "") (httl : 0 < ttl_ms) :
    ((redis.try_reserve_agent agent_id request_id ttl_ms now_ms).1 = false →
        ∃ other, other ≠ request_id ∧
          redis.get_agent_reservation_holder agent_id now_ms = some other) ↔
      redis.get_agent_reservation_holder agent_id now_ms ≠ some request_id := by
  have hfst : (redis.try_reserve_agent agent_id request_id ttl_ms now_ms).1 = true ↔ _ :=
    try_reserve_agent_fst
  -- The script refuses exactly when it finds the key held, by this request or by another.
  cases hholder : redis.get_agent_reservation_holder agent_id now_ms with
  | none =>
    rw [hfst.mpr ⟨ha, hr, httl, hholder⟩]
    exact iff_of_true nofun nofun
  | some other =>
    have hrefused : (redis.try_reserve_agent agent_id request_id ttl_ms now_ms).1 = false := by
      refine eq_false_of_ne_true fun hok => ?_
      have hfree := (hfst.mp hok).2.2.2
      rw [hholder] at hfree
      cases hfree
    rw [hrefused]
    constructor
    · intro hother heq
      obtain ⟨other', hne, hsome⟩ := hother rfl
      exact hne (Option.some.inj (hsome.symm.trans heq))
    · intro hne _
      exact ⟨other, fun heq => hne (congrArg some heq), rfl⟩

/-- Whether an agent is reserved depends on its stored reservation alone. -/
theorem is_agent_reserved_congr {redis' : RedisClient}
    (hlookup : redis'.reservations.lookup agent_id = redis.reservations.lookup agent_id) :
    redis'.is_agent_reserved agent_id now_ms = redis.is_agent_reserved agent_id now_ms := by
  unfold is_agent_reserved
  rw [hlookup]

/-- A reservation succeeds exactly where the agent is not reserved, if its arguments are sound. -/
theorem try_reserve_agent_eq (ha : agent_id ≠ "") (hr : request_id ≠ "") (httl : 0 < ttl_ms) :
    (redis.try_reserve_agent agent_id request_id ttl_ms now_ms).1 =
      !redis.is_agent_reserved agent_id now_ms := by
  rw [is_agent_reserved_eq, Bool.eq_iff_iff, try_reserve_agent_fst, Bool.not_eq_true',
    Option.isSome_eq_false_iff, Option.isNone_iff_eq_none]
  exact ⟨fun h => h.2.2.2, fun h => ⟨ha, hr, httl, h⟩⟩

/-- A reservation leaves the devices alone. -/
theorem try_reserve_agent_devices :
    (redis.try_reserve_agent agent_id request_id ttl_ms now_ms).2.device_states =
        redis.device_states ∧
      (redis.try_reserve_agent agent_id request_id ttl_ms now_ms).2.cell_devices =
        redis.cell_devices := by
  unfold try_reserve_agent
  split
  · exact ⟨rfl, rfl⟩
  · split
    · split <;> exact ⟨rfl, rfl⟩
    · exact ⟨rfl, rfl⟩

/-- The index does not depend on the reservations. -/
theorem Indexed.congr {redis' : RedisClient} (h : redis.Indexed)
    (hstates : redis'.device_states = redis.device_states)
    (hcells : redis'.cell_devices = redis.cell_devices) : redis'.Indexed where
  device_id_eq := by
    rw [hstates]
    exact h.device_id_eq
  mem_iff := by
    unfold members
    rw [hstates, hcells]
    exact h.mem_iff
  no_empty := by
    unfold NoEmptyCell
    rw [hcells]
    exact h.no_empty

end RedisClient

namespace MatchEnvironment

variable {D : Type} {request_id : String} (env : MatchEnvironment D request_id)

/-- The system clock does not go back, whatever happens elsewhere. -/
theorem epoch_le_turn {env : MatchEnvironment D request_id} {w : MatchWorld} :
    w.epoch_ms ≤ (env.turn w).epoch_ms := by
  have hacts : w.epoch_ms ≤ ((env.elsewhere w.calls).foldl Elsewhere.act w).epoch_ms :=
    List.foldlRecOn (motive := fun w' : MatchWorld => w.epoch_ms ≤ w'.epoch_ms) _ _ le_rfl
      fun w' hle (event : Elsewhere request_id) _ => by
        cases event with
        | advance epoch_ms monotonic_ms =>
          refine hle.trans ?_
          dsimp only [Elsewhere.act]
          omega
        | try_reserve_agent agent_id other ttl_ms hother => exact hle
        | release_agent agent_id other hother => exact hle
  exact hacts

/-- Elsewhere only time passes. -/
def Quiet : Prop :=
  ∀ n, ∀ event ∈ env.elsewhere n, ∃ epoch_ms monotonic_ms, event = .advance epoch_ms monotonic_ms

/-- The world after a number of calls, where these left the store as it is given. -/
def later (w : MatchWorld) (calls : ℕ) (redis : RedisClient) : MatchWorld :=
  { env.turn^[calls] w with redis }

variable {env} (hquiet : env.Quiet) (w : MatchWorld) (redis : RedisClient)
include hquiet

/-- Time passes whatever is in the store. -/
theorem Quiet.turn_with_redis : env.turn { w with redis } = { env.turn w with redis } := by
  have hacts : ∀ (events : List (Elsewhere request_id)) (w : MatchWorld),
      (∀ event ∈ events, ∃ epoch_ms monotonic_ms, event = .advance epoch_ms monotonic_ms) →
      events.foldl Elsewhere.act { w with redis } = { events.foldl Elsewhere.act w with redis } := by
    intro events
    induction events with
    | nil => exact fun _ _ => rfl
    | cons event events ih =>
      intro w hevents
      obtain ⟨epoch_ms, monotonic_ms, rfl⟩ := hevents event List.mem_cons_self
      exact ih (Elsewhere.act w (.advance epoch_ms monotonic_ms : Elsewhere request_id))
        fun event hmem => hevents event (List.mem_cons_of_mem _ hmem)
  unfold turn
  rw [hacts _ w (hquiet w.calls)]

/-- Time does not go backwards. -/
theorem Quiet.le_turn : w.epoch_ms ≤ (env.turn w).epoch_ms ∧
    w.monotonic_ms ≤ (env.turn w).monotonic_ms := by
  have hacts : ∀ (events : List (Elsewhere request_id)) (w : MatchWorld),
      (∀ event ∈ events, ∃ epoch_ms monotonic_ms, event = .advance epoch_ms monotonic_ms) →
      w.epoch_ms ≤ (events.foldl Elsewhere.act w).epoch_ms ∧
        w.monotonic_ms ≤ (events.foldl Elsewhere.act w).monotonic_ms := by
    intro events
    induction events with
    | nil => exact fun w _ => ⟨le_refl _, le_refl _⟩
    | cons event events ih =>
      intro w hevents
      obtain ⟨epoch_ms, monotonic_ms, rfl⟩ := hevents event List.mem_cons_self
      obtain ⟨hepoch, hmonotonic⟩ := ih
        (Elsewhere.act w (.advance epoch_ms monotonic_ms : Elsewhere request_id))
        fun event hmem => hevents event (List.mem_cons_of_mem _ hmem)
      dsimp only [Elsewhere.act] at hepoch hmonotonic
      rw [List.foldl_cons]
      constructor
      · exact (by omega : w.epoch_ms ≤ w.epoch_ms + epoch_ms).trans hepoch
      · exact (by omega : w.monotonic_ms ≤ w.monotonic_ms + monotonic_ms).trans hmonotonic
  exact hacts _ w (hquiet w.calls)

/-- After one more call. -/
theorem Quiet.turn_later (calls : ℕ) :
    env.turn (env.later w calls redis) = env.later w (calls + 1) redis := by
  unfold later
  rw [hquiet.turn_with_redis, Function.iterate_succ_apply']

/-- The store stays as it is while only time passes. -/
theorem Quiet.redis_iterate (calls : ℕ) : (env.turn^[calls] w).redis = w.redis := by
  have hlater : env.turn^[calls] w = env.later w calls w.redis := by
    induction calls with
    | zero => rfl
    | succ calls ih =>
      rw [Function.iterate_succ_apply', ih, hquiet.turn_later]
  rw [hlater]
  rfl

/-- The clocks go on from call to call. -/
theorem Quiet.later_mono {calls calls' : ℕ} (hle : calls ≤ calls') (redis' : RedisClient) :
    (env.later w calls redis).epoch_ms ≤ (env.later w calls' redis').epoch_ms ∧
      (env.later w calls redis).monotonic_ms ≤ (env.later w calls' redis').monotonic_ms := by
  have hmono : Monotone fun calls => (env.turn^[calls] w).epoch_ms := by
    refine monotone_nat_of_le_succ fun calls => ?_
    rw [Function.iterate_succ_apply']
    exact (hquiet.le_turn _).1
  have hmono' : Monotone fun calls => (env.turn^[calls] w).monotonic_ms := by
    refine monotone_nat_of_le_succ fun calls => ?_
    rw [Function.iterate_succ_apply']
    exact (hquiet.le_turn _).2
  exact ⟨hmono hle, hmono' hle⟩

omit hquiet
variable (env)

/-- The agents of a list that are free at their turn, where the first one's turn comes after a number
of calls, and two calls are made for each. -/
def free_from (w : MatchWorld) : ℕ → List String → List String
  | _, [] => []
  | calls, agent_id :: rest =>
    if w.redis.is_agent_reserved agent_id (env.turn^[calls] w).monotonic_ms then
      free_from w (calls + 2) rest
    else agent_id :: free_from w (calls + 2) rest

/-- The free agents are some of those of the list, in the same order. -/
theorem free_from_sublist (calls : ℕ) (ids : List String) :
    (env.free_from w calls ids).Sublist ids := by
  induction ids generalizing calls with
  | nil => exact List.Sublist.slnil
  | cons agent_id rest ih =>
    unfold free_from
    split
    · exact (ih _).cons _
    · exact (ih _).cons_cons _

end MatchEnvironment

/-- The store after these agents have been reserved for the request, each at a time at which it was
free, and nothing else. -/
structure Reserves (request_id : String) (ttl_ms : ℤ) (w : MatchWorld) (ids : List String)
    (until_ms : ℤ) (redis redis' : RedisClient) : Prop where
  device_states : redis'.device_states = redis.device_states
  cell_devices : redis'.cell_devices = redis.cell_devices
  kept : ∀ id ∉ ids, redis'.reservations.lookup id = redis.reservations.lookup id
  stored : ∀ id ∈ ids, ∃ since_ms, w.monotonic_ms ≤ since_ms ∧ since_ms ≤ until_ms ∧
    w.redis.is_agent_reserved id since_ms = false ∧
    redis'.reservations.lookup id = some ⟨request_id, since_ms + ttl_ms⟩

section Reserves

variable {request_id : String} {ttl_ms until_ms : ℤ} {w : MatchWorld} {redis redis' : RedisClient}

/-- No agent is reserved. -/
theorem Reserves.nil : Reserves request_id ttl_ms w [] until_ms redis redis where
  device_states := rfl
  cell_devices := rfl
  kept _ _ := rfl
  stored _ h := absurd h List.not_mem_nil

/-- One agent is reserved, and then others. -/
theorem Reserves.cons {id : String} {ids : List String} {now_ms : ℤ}
    (hok : (redis.try_reserve_agent id request_id ttl_ms now_ms).1 = true)
    (hfree : w.redis.is_agent_reserved id now_ms = false) (hw : w.monotonic_ms ≤ now_ms)
    (huntil : now_ms ≤ until_ms) (hid : id ∉ ids)
    (h : Reserves request_id ttl_ms w ids until_ms
      (redis.try_reserve_agent id request_id ttl_ms now_ms).2 redis') :
    Reserves request_id ttl_ms w (id :: ids) until_ms redis redis' where
  device_states := h.device_states.trans RedisClient.try_reserve_agent_devices.1
  cell_devices := h.cell_devices.trans RedisClient.try_reserve_agent_devices.2
  kept a ha := by
    rw [List.mem_cons, not_or] at ha
    rw [h.kept a ha.2, RedisClient.lookup_try_reserve_agent hok, if_neg ha.1]
  stored a ha := by
    rcases List.mem_cons.mp ha with rfl | ha
    · refine ⟨now_ms, hw, huntil, hfree, ?_⟩
      rw [h.kept a hid, RedisClient.lookup_try_reserve_agent hok, if_pos rfl]
    · exact h.stored a ha

/-- The same, seen later. -/
theorem Reserves.later {ids : List String} {until_ms' : ℤ} (hle : until_ms ≤ until_ms')
    (h : Reserves request_id ttl_ms w ids until_ms redis redis') :
    Reserves request_id ttl_ms w ids until_ms' redis redis' where
  device_states := h.device_states
  cell_devices := h.cell_devices
  kept := h.kept
  stored id hid := by
    obtain ⟨since_ms, hfrom, huntil, hstored⟩ := h.stored id hid
    exact ⟨since_ms, hfrom, huntil.trans hle, hstored⟩

end Reserves

section Assign

variable {D : Type} [LinearOrder D] {request : MatchRequest} {ttl_ms max_agents : ℤ}
  {env : MatchEnvironment D request.request_id} {w : MatchWorld}

/-- There is no time left once the deadline has passed. -/
theorem time_remaining_ms_eq_zero_iff (now_ms : ℤ) :
    ServiceMatchContext.time_remaining_ms request.deadline_ms now_ms = 0 ↔
      request.expired now_ms = true := by
  unfold ServiceMatchContext.time_remaining_ms MatchRequest.expired
  rw [Bool.and_eq_true, decide_eq_true_iff, decide_eq_true_iff]
  split
  · omega
  · split <;> omega

/-- A deadline that has passed stays passed. -/
theorem expired_mono {now_ms now_ms' : ℤ} (hle : now_ms ≤ now_ms')
    (h : request.expired now_ms = true) : request.expired now_ms' = true := by
  unfold MatchRequest.expired at h ⊢
  rw [Bool.and_eq_true, decide_eq_true_iff, decide_eq_true_iff] at h ⊢
  omega

/-- What is in time later is in time before. -/
theorem in_time_of_le {now_ms now_ms' : ℤ} (hle : now_ms ≤ now_ms')
    (h : request.expired now_ms' = false) : request.expired now_ms = false :=
  eq_false_of_ne_true fun hexpired => ne_true_of_eq_false h (expired_mono hle hexpired)

/-- The rule for one candidate of the loop: it ends where no time remains, goes on past an agent that is
held, and assigns one that is free. -/
theorem always_assign_cons {P : List String → MatchWorld × List (ReservationEvent ℤ) → Prop}
    (hr : request.request_id ≠ "") (httl : 0 < ttl_ms) {candidate : MatchCandidate D}
    (hid : candidate.agent_id ≠ "") {rest : List (MatchCandidate D)} {assigned : List String}
    (v : MatchWorld) {log : List (ReservationEvent ℤ)}
    (hlate : request.expired v.epoch_ms = true → P assigned (env.turn v, log))
    (hheld : (env.turn v).redis.is_agent_reserved candidate.agent_id (env.turn v).monotonic_ms = true →
      (NearestStrategy.assign max_agents rest assigned).Always
        ((ServiceMatchContext.handler env request.deadline_ms ttl_ms).logged
          (reservation_event MatchWorld.monotonic_ms)) (fun _ => True) P (fun _ _ => False)
        (env.turn (env.turn v), log))
    (hfull : ∀ redis, (env.turn v).redis.is_agent_reserved candidate.agent_id
          (env.turn v).monotonic_ms = false →
      (env.turn v).redis.try_reserve_agent candidate.agent_id request.request_id ttl_ms
          (env.turn v).monotonic_ms = (true, redis) →
      castInt (assigned ++ [candidate.agent_id]).length ≥ max_agents →
      P (assigned ++ [candidate.agent_id]) (env.turn { env.turn v with redis },
        log ++ [.reserved candidate.agent_id (env.turn v).monotonic_ms]))
    (hmore : ∀ redis, (env.turn v).redis.is_agent_reserved candidate.agent_id
          (env.turn v).monotonic_ms = false →
      (env.turn v).redis.try_reserve_agent candidate.agent_id request.request_id ttl_ms
          (env.turn v).monotonic_ms = (true, redis) →
      ¬castInt (assigned ++ [candidate.agent_id]).length ≥ max_agents →
      (NearestStrategy.assign max_agents rest (assigned ++ [candidate.agent_id])).Always
        ((ServiceMatchContext.handler env request.deadline_ms ttl_ms).logged
          (reservation_event MatchWorld.monotonic_ms)) (fun _ => True) P (fun _ _ => False)
        (env.turn { env.turn v with redis },
          log ++ [.reserved candidate.agent_id (env.turn v).monotonic_ms])) :
    (NearestStrategy.assign max_agents (candidate :: rest) assigned).Always
      ((ServiceMatchContext.handler env request.deadline_ms ttl_ms).logged
        (reservation_event MatchWorld.monotonic_ms)) (fun _ => True) P (fun _ _ => False) (v, log) := by
  unfold NearestStrategy.assign
  rw [Prog.bind_eq, always_bind]
  refine ⟨trivial, ?_⟩
  change Prog.Always _ _ _ _ (if ServiceMatchContext.time_remaining_ms request.deadline_ms
    v.epoch_ms = 0 then _ else _) (env.turn v, log ++ [])
  rw [List.append_nil]
  by_cases hpassed : ServiceMatchContext.time_remaining_ms request.deadline_ms v.epoch_ms = 0
  · rw [if_pos hpassed]
    exact hlate ((time_remaining_ms_eq_zero_iff _).mp hpassed)
  rw [if_neg hpassed, Prog.bind_eq, always_bind]
  refine ⟨trivial, ?_⟩
  -- The agent's turn, one call later than the reading of the clock.
  generalize env.turn v = v' at *
  change Prog.Always _ _ _ _ (if (ReservationManager.reserve ttl_ms v'.redis candidate.agent_id
      request.request_id v'.monotonic_ms).1 = false then _ else _)
    (env.turn { v' with redis := (ReservationManager.reserve ttl_ms v'.redis candidate.agent_id
      request.request_id v'.monotonic_ms).2 },
      log ++ (if (ReservationManager.reserve ttl_ms v'.redis candidate.agent_id request.request_id
        v'.monotonic_ms).1 then some (.reserved candidate.agent_id v'.monotonic_ms) else none).toList)
  rw [ReservationManager.reserve_eq]
  have hok : (v'.redis.try_reserve_agent candidate.agent_id request.request_id ttl_ms
      v'.monotonic_ms).1 = !v'.redis.is_agent_reserved candidate.agent_id v'.monotonic_ms :=
    RedisClient.try_reserve_agent_eq hid hr httl
  cases hreserved : v'.redis.is_agent_reserved candidate.agent_id v'.monotonic_ms with
  | true =>
    -- The agent is held, so `reserve` refuses it and changes nothing.
    rw [hreserved, Bool.not_true] at hok
    rw [RedisClient.try_reserve_agent_rejected hok, hok, if_pos rfl, if_neg Bool.noConfusion,
      Option.toList_none, List.append_nil]
    exact hheld hreserved
  | false =>
    -- The agent is free, so `reserve` grants it and it is assigned.
    rw [hreserved, Bool.not_false] at hok
    rw [hok, if_neg Bool.noConfusion, if_pos rfl, Option.toList_some]
    generalize v'.redis.try_reserve_agent candidate.agent_id request.request_id ttl_ms
      v'.monotonic_ms = reservation at *
    obtain ⟨granted, redis⟩ := reservation
    obtain rfl : granted = true := hok
    have hlast := hfull redis hreserved rfl
    have hnext := hmore redis hreserved rfl
    dsimp only
    generalize castInt (assigned ++ [candidate.agent_id]).length = count at hlast hnext ⊢
    split
    · exact hlast ‹_›
    · exact hnext ‹_›

/-- What the loop over the candidates leaves: it has reserved the free ones, up to the number asked
for, unless the deadline has passed. -/
def Assigned (request : MatchRequest) (ttl_ms : ℤ) (env : MatchEnvironment D request.request_id)
    (w : MatchWorld) (calls : ℕ) (redis : RedisClient) (log : List (ReservationEvent ℤ))
    (assigned taken : List String) (ids : List String)
    (s : MatchWorld × List (ReservationEvent ℤ)) : Prop :=
  ∃ calls' redis', calls ≤ calls' ∧ s.1 = env.later w calls' redis' ∧
    (request.expired s.1.epoch_ms = false →
      ids = assigned ++ taken ∧
      Reserves request.request_id ttl_ms w taken s.1.monotonic_ms redis redis' ∧
      ∀ id, Held s.2 id ↔ Held log id ∨ id ∈ taken)

omit [LinearOrder D] in
/-- Nothing is taken at first. -/
theorem Assigned.refl (calls : ℕ) (redis : RedisClient) (log : List (ReservationEvent ℤ))
    (assigned : List String) :
    Assigned request ttl_ms env w calls redis log assigned [] assigned
      (env.later w calls redis, log) :=
  ⟨calls, redis, le_rfl, rfl, fun _ => ⟨(List.append_nil _).symm, .nil, fun id => by simp⟩⟩

omit [LinearOrder D] in
/-- One agent is reserved in the second of two calls, and then others. -/
theorem Assigned.cons (hquiet : env.Quiet) {calls : ℕ} {redis : RedisClient}
    {log : List (ReservationEvent ℤ)} {assigned taken ids : List String} {id : String} {now_ms : ℤ}
    {s : MatchWorld × List (ReservationEvent ℤ)}
    (hnow : (env.later w (calls + 1) redis).monotonic_ms = now_ms)
    (hok : (redis.try_reserve_agent id request.request_id ttl_ms now_ms).1 = true)
    (hfree : w.redis.is_agent_reserved id now_ms = false) (hnew : id ∉ taken)
    (h : Assigned request ttl_ms env w (calls + 2)
      (redis.try_reserve_agent id request.request_id ttl_ms now_ms).2 (log ++ [.reserved id now_ms])
      (assigned ++ [id]) taken ids s) :
    Assigned request ttl_ms env w calls redis log assigned (id :: taken) ids s := by
  obtain ⟨calls', redis', hle, hs, htaken⟩ := h
  refine ⟨calls', redis', by omega, hs, fun hintime => ?_⟩
  obtain ⟨hids, hreserves, hheld⟩ := htaken hintime
  have hstart : w.monotonic_ms ≤ now_ms := by
    rw [← hnow]
    exact (hquiet.later_mono w redis (Nat.zero_le (calls + 1)) redis).2
  have hend : now_ms ≤ s.1.monotonic_ms := by
    rw [← hnow, hs]
    exact (hquiet.later_mono w redis (by omega : calls + 1 ≤ calls') redis').2
  refine ⟨?_, .cons hok hfree hstart hend hnew hreserves, fun a => ?_⟩
  · rw [hids, List.append_assoc]
    rfl
  · rw [hheld, held_reserved, List.mem_cons, or_comm (a := id = a), or_assoc, eq_comm (a := a)]

/-- The loop over the candidates takes the free ones. -/
theorem always_assign (hquiet : env.Quiet) (hr : request.request_id ≠ "") (httl : 0 < ttl_ms)
    (hmax : max_agents < 2^31) (candidates : List (MatchCandidate D)) (calls : ℕ)
    (redis : RedisClient) (assigned : List String) (log : List (ReservationEvent ℤ))
    (hnodup : (candidates.map MatchCandidate.agent_id).Nodup)
    (hids : ∀ id ∈ candidates.map MatchCandidate.agent_id, id ≠ "" ∧
      redis.reservations.lookup id = w.redis.reservations.lookup id)
    (hfew : assigned.length < max_agents) :
    (NearestStrategy.assign max_agents candidates assigned).Always
      ((ServiceMatchContext.handler env request.deadline_ms ttl_ms).logged
        (reservation_event MatchWorld.monotonic_ms)) (fun _ => True)
      (fun ids s => Assigned request ttl_ms env w calls redis log assigned
        ((env.free_from w (calls + 1) (candidates.map MatchCandidate.agent_id)).take
          (max_agents - assigned.length).toNat) ids s)
      (fun _ _ => False) (env.later w calls redis, log) := by
  -- The world behind moves one call on at each reading of the clock and at each reservation, so the
  -- number of calls and the store are generalised.
  induction candidates generalizing calls redis assigned log with
  | nil =>
    have htaken : (env.free_from w (calls + 1) []).take (max_agents - assigned.length).toNat = [] :=
      List.take_nil
    rw [List.map_nil, htaken]
    exact .refl calls redis log assigned
  | cons candidate rest ih =>
    rw [List.map_cons, List.nodup_cons] at hnodup
    obtain ⟨hnew, hnodup⟩ := hnodup
    obtain ⟨hid, hlookup⟩ := hids candidate.agent_id List.mem_cons_self
    have hrest : ∀ id ∈ rest.map MatchCandidate.agent_id, id ≠ "" ∧
        redis.reservations.lookup id = w.redis.reservations.lookup id :=
      fun id hmem => hids id (List.mem_cons_of_mem _ hmem)
    have hturn : env.turn (env.later w calls redis) = env.later w (calls + 1) redis :=
      hquiet.turn_later w redis calls
    let now_ms := (env.later w (calls + 1) redis).monotonic_ms
    have hheld : redis.is_agent_reserved candidate.agent_id now_ms =
        w.redis.is_agent_reserved candidate.agent_id now_ms := RedisClient.is_agent_reserved_congr hlookup
    have hlength : ((assigned ++ [candidate.agent_id]).length : ℤ) = assigned.length + 1 := by
      rw [List.length_append, List.length_singleton]
      push_cast
      rfl
    have hcast : castInt (assigned ++ [candidate.agent_id]).length = assigned.length + 1 := by
      rw [castInt_eq (by omega) (by omega), hlength]
    have htake : w.redis.is_agent_reserved candidate.agent_id now_ms = false →
        env.free_from w (calls + 1) ((candidate :: rest).map MatchCandidate.agent_id) =
          candidate.agent_id :: env.free_from w (calls + 3) (rest.map MatchCandidate.agent_id) :=
      fun hfree => if_neg (ne_true_of_eq_false hfree)
    refine always_assign_cons hr httl hid _ (fun hlate => ?_) (fun hreserved => ?_)
      (fun redis' hreserved htry hfull => ?_) (fun redis' hreserved htry hmore => ?_)
    · -- The deadline has passed then, and nothing is promised past it.
      refine ⟨calls + 1, redis, Nat.le_succ _, hturn, fun hintime => ?_⟩
      dsimp only at hintime
      rw [hturn] at hintime
      have hbefore := in_time_of_le (hquiet.later_mono w redis (Nat.le_succ calls) redis).1 hintime
      rw [hlate] at hbefore
      cases hbefore
    · -- The agent is held, and the loop goes on without it.
      rw [hturn] at hreserved ⊢
      have hskip : env.free_from w (calls + 1) ((candidate :: rest).map MatchCandidate.agent_id) =
          env.free_from w (calls + 3) (rest.map MatchCandidate.agent_id) :=
        if_pos (hheld.symm.trans hreserved)
      rw [hquiet.turn_later, hskip]
      refine (ih (calls + 2) redis assigned log hnodup hrest hfew).imp (fun _ => id) ?_ fun _ _ => id
      rintro ids s ⟨calls', redis'', hle, hs⟩
      exact ⟨calls', redis'', by omega, hs⟩
    · -- This was the last agent asked for, and the loop breaks.
      rw [hturn] at hreserved htry ⊢
      change Assigned _ _ _ _ _ _ _ _ _ _ (env.turn (env.later w (calls + 1) redis'),
        log ++ [.reserved candidate.agent_id now_ms])
      rw [hquiet.turn_later, htake (hheld.symm.trans hreserved)]
      have hone : (max_agents - assigned.length).toNat = 1 := by omega
      rw [hone, List.take_succ_cons, List.take_zero]
      obtain rfl : (redis.try_reserve_agent candidate.agent_id request.request_id ttl_ms now_ms).2 =
        redis' := congrArg Prod.snd htry
      exact .cons hquiet rfl (congrArg Prod.fst htry) (hheld.symm.trans hreserved) List.not_mem_nil
        (.refl _ _ _ _)
    · -- The rest of the loop does not come to this agent again, as each id is offered once.
      rw [hturn] at hreserved htry ⊢
      change Prog.Always _ _ _ _ _ (env.turn (env.later w (calls + 1) redis'),
        log ++ [.reserved candidate.agent_id now_ms])
      rw [hquiet.turn_later, htake (hheld.symm.trans hreserved)]
      have hok : (redis.try_reserve_agent candidate.agent_id request.request_id ttl_ms now_ms).1 = true :=
        congrArg Prod.fst htry
      obtain rfl : (redis.try_reserve_agent candidate.agent_id request.request_id ttl_ms now_ms).2 =
        redis' := congrArg Prod.snd htry
      have hrest' : ∀ id ∈ rest.map MatchCandidate.agent_id, id ≠ "" ∧
          (redis.try_reserve_agent candidate.agent_id request.request_id ttl_ms
            now_ms).2.reservations.lookup id = w.redis.reservations.lookup id := by
        intro id hmem
        have hne : id ≠ candidate.agent_id := by
          rintro rfl
          exact hnew hmem
        rw [RedisClient.lookup_try_reserve_agent hok, if_neg hne]
        exact hrest id hmem
      have hcount : (max_agents - assigned.length).toNat =
          (max_agents - (assigned ++ [candidate.agent_id]).length).toNat + 1 := by omega
      have hnot : candidate.agent_id ∉ (env.free_from w (calls + 2 + 1)
          (rest.map MatchCandidate.agent_id)).take
            (max_agents - (assigned ++ [candidate.agent_id]).length).toNat :=
        fun hmem => hnew ((env.free_from_sublist w _ _).subset (List.mem_of_mem_take hmem))
      rw [hcount, List.take_succ_cons]
      exact (ih (calls + 2) _ (assigned ++ [candidate.agent_id]) _ hnodup hrest' (by omega)).imp
        (fun _ => id) (fun ids s => .cons hquiet rfl hok (hheld.symm.trans hreserved) hnot) fun _ _ => id

/-- Once the deadline has passed, it stays passed whatever is called. -/
theorem always_expired {deadline_ms : ℤ} {α : Type} (p : MatchProgram D α)
    (s : MatchWorld × List (ReservationEvent ℤ)) (hs : request.expired s.1.epoch_ms = true) :
    p.Always ((ServiceMatchContext.handler env deadline_ms ttl_ms).logged
        (reservation_event MatchWorld.monotonic_ms)) (fun s => request.expired s.1.epoch_ms = true)
      (fun _ s => request.expired s.1.epoch_ms = true)
      (fun _ s => request.expired s.1.epoch_ms = true) s := by
  refine Prog.always_of_forall_call (fun c s hs => ?_) p s hs
  have hclock : (ServiceMatchContext.perform env deadline_ms ttl_ms c s.1).2.epoch_ms =
      s.1.epoch_ms := by
    cases c <;> rfl
  refine expired_mono ?_ hs
  rw [← hclock]
  exact MatchEnvironment.epoch_le_turn

/-- A handling has reserved these agents for the request, and is matched with them if there are any;
unless the deadline has passed. -/
def Delivered (request : MatchRequest) (ttl_ms : ℤ) (env : MatchEnvironment D request.request_id)
    (w : MatchWorld) (taken : List String) (outcome : Except Exception MatchResult)
    (w' : MatchWorld) : Prop :=
  request.expired w'.epoch_ms = false →
    (∃ calls redis', w' = env.later w calls redis' ∧
      Reserves request.request_id ttl_ms w taken w'.monotonic_ms w.redis redis') ∧
    (taken = [] → ∀ result, outcome = .ok result → result.status ≠ .MATCHED) ∧
    (taken ≠ [] → ∃ result, outcome = .ok result ∧ result.status = .MATCHED ∧
      result.assigned_agent_ids = taken)

omit [LinearOrder D] in
/-- A handling that reserves nothing. -/
theorem Delivered.nothing {outcome : Except Exception MatchResult} (calls : ℕ)
    (hstatus : ∀ result, outcome = .ok result → result.status ≠ .MATCHED) :
    Delivered request ttl_ms env w [] outcome (env.later w calls w.redis) :=
  fun _ => ⟨⟨calls, w.redis, rfl, .nil⟩, fun _ => hstatus, fun h => absurd rfl h⟩

omit [LinearOrder D] in
/-- Nothing is released where everything that is reserved is assigned. -/
theorem release_unassigned_eq {assigned reserved : List String}
    (hall : ∀ id ∈ reserved, id ∈ assigned) :
    (TrackingMatchContext.release_unassigned assigned reserved : MatchProgram D _) =
      .pure reserved := by
  have hloop : ∀ (rest : List String) (t : List String), (∀ id ∈ rest, id ∈ assigned) →
      (Prog.foldEach rest t (fun reserved agent_id =>
        if agent_id ∈ assigned then .pure reserved
        else TrackingMatchContext.release reserved agent_id) : MatchProgram D _) = .pure t := by
    intro rest
    induction rest with
    | nil => exact fun _ _ => rfl
    | cons id rest ih =>
      intro t hrest
      unfold Prog.foldEach
      rw [if_pos (hrest id List.mem_cons_self), Prog.pure_bind]
      exact ih t fun id hmem => hrest id (List.mem_cons_of_mem _ hmem)
  exact hloop reserved reserved hall

/-- The match keeps what the loop has reserved, and assigns it. -/
theorem always_settle_assigned (hquiet : env.Quiet) {taken reserved : List String} {calls : ℕ}
    {redis' : RedisClient} {log : List (ReservationEvent ℤ)} (started_ms : ℤ)
    (ht : Tracks reserved log)
    (hheld : ∀ id, Held log id ↔ id ∈ taken) (hids : ∀ id ∈ taken, id ≠ "")
    (hcut : request.cut taken = taken)
    (hreserves : Reserves request.request_id ttl_ms w taken
      (env.later w calls redis').monotonic_ms w.redis redis') :
    (MatchingService.settle request started_ms (.ok taken) reserved).Always
      ((ServiceMatchContext.handler env request.deadline_ms ttl_ms).logged
        (reservation_event MatchWorld.monotonic_ms)) (fun _ => True)
      (fun result s => Delivered request ttl_ms env w taken (.ok result) s.1) (fun _ _ => False)
      (env.later w calls redis', log) := by
  unfold MatchingService.settle
  dsimp only
  rw [hcut]
  -- With no free agent nothing is held, and there is nothing to give back.
  by_cases hempty : taken = []
  · have hnone : reserved = [] := by
      refine List.eq_nil_iff_forall_not_mem.mpr fun id hmem => ?_
      have hin := (hheld id).mp ((ht id).mp hmem)
      rw [hempty] at hin
      exact List.not_mem_nil hin
    rw [if_pos hempty, hnone]
    refine fun _ => ⟨⟨calls, redis', rfl, hreserves⟩, ?_, fun h => absurd hempty h⟩
    rintro _ result ⟨⟩
    exact nofun
  · -- Every id that the strategy returns is one that the tracking context has reserved.
    have howns : TrackingMatchContext.owns_all reserved taken = true :=
      (ht.owns_all_iff (s := (w, log)) taken).mpr fun id hid => ⟨hids id hid, (hheld id).mpr hid⟩
    rw [if_neg hempty, howns, if_neg Bool.noConfusion,
      release_unassigned_eq fun id hmem => (hheld id).mp ((ht id).mp hmem)]
    refine ⟨trivial, fun _ => ?_⟩
    change (∃ calls' redis'', env.turn (env.later w calls redis') = env.later w calls' redis'' ∧
      Reserves _ _ w taken (env.turn (env.later w calls redis')).monotonic_ms w.redis redis'') ∧ _
    rw [hquiet.turn_later]
    exact ⟨⟨calls + 1, redis', rfl,
      hreserves.later (hquiet.later_mono w redis' (Nat.le_succ calls) redis').2⟩,
      fun h => absurd h hempty, fun _ => ⟨_, rfl, rfl, rfl⟩⟩

/-- The ids that the strategy goes through, in order. -/
def offered_ids (candidates : List (MatchCandidate D)) : List String :=
  (NearestStrategy.sorted candidates).map MatchCandidate.agent_id

/-- The strategy goes through no empty id. -/
theorem ne_empty_of_mem_offered_ids {candidates : List (MatchCandidate D)} {id : String}
    (h : id ∈ offered_ids candidates) : id ≠ "" := by
  obtain ⟨candidate, hmem, rfl⟩ := List.mem_map.mp h
  unfold NearestStrategy.sorted at hmem
  rw [List.mem_mergeSort, List.mem_filter] at hmem
  rw [Bool.and_eq_true, decide_eq_true_iff] at hmem
  exact hmem.2.2

/-- The strategy goes through each id once, if the candidates have each id once. -/
theorem nodup_offered_ids {candidates : List (MatchCandidate D)}
    (h : (candidates.map MatchCandidate.agent_id).Nodup) : (offered_ids candidates).Nodup := by
  have hperm : (offered_ids candidates).Perm
      ((candidates.filter fun candidate => candidate.available && candidate.agent_id ≠ "").map
        MatchCandidate.agent_id) := by
    unfold offered_ids NearestStrategy.sorted
    exact (List.mergeSort_perm _ _).map _
  exact hperm.nodup_iff.mpr (h.sublist ((List.filter_sublist).map _))

variable (request) in
/-- The rule for a match with the nearest strategy: what the loop over the candidates leaves is settled,
and nothing is said of what comes after the deadline. -/
theorem always_match_nearest {service : MatchingService D}
    {Q : List String → MatchWorld × List (ReservationEvent ℤ) → Prop}
    {P : MatchResult → MatchWorld × List (ReservationEvent ℤ) → Prop}
    {E : Exception → MatchWorld × List (ReservationEvent ℤ) → Prop}
    (hrunning : service.running = true) (hstrategy : service.strategy = some NearestStrategy.strategy)
    (hr : request.request_id ≠ "") (hpos : 0 < request.max_agents)
    (candidates : List (MatchCandidate D)) (started_ms : ℤ) (v : MatchWorld)
    (hstarted : started_ms ≤ v.epoch_ms)
    (hlate : ∀ s : MatchWorld × List (ReservationEvent ℤ), request.expired s.1.epoch_ms = true →
      (∀ result, P result s) ∧ ∀ e, E e s)
    (hassign : (NearestStrategy.assign request.max_agents (NearestStrategy.sorted candidates) []).Always
      ((ServiceMatchContext.handler env request.deadline_ms ttl_ms).logged
        (reservation_event MatchWorld.monotonic_ms)) (fun _ => True) Q (fun _ _ => False) (v, []))
    (hsettle : ∀ ids reserved s, Q ids s → request.expired s.1.epoch_ms = false → Tracks reserved s.2 →
      (MatchingService.settle request started_ms (.ok ids) reserved).Always
        ((ServiceMatchContext.handler env request.deadline_ms ttl_ms).logged
          (reservation_event MatchWorld.monotonic_ms)) (fun _ => True) P E s) :
    (service.match_started request candidates started_ms).Always
      ((ServiceMatchContext.handler env request.deadline_ms ttl_ms).logged
        (reservation_event MatchWorld.monotonic_ms)) (fun _ => True) P E (v, []) := by
  unfold MatchingService.match_started
  rw [hrunning, hstrategy]
  dsimp only
  rw [if_neg hr]
  by_cases hexpired : request.expired started_ms = true
  · -- An expired request is answered with `EXPIRED`, and its deadline stays passed.
    rw [if_pos hexpired]
    exact (hlate (v, []) (expired_mono hstarted hexpired)).1 _
  rw [if_neg hexpired, Prog.bind_eq, always_bind]
  have hstrategy_eq : NearestStrategy.strategy request candidates =
      NearestStrategy.assign request.max_agents (NearestStrategy.sorted candidates) [] :=
    if_neg (by omega)
  rw [hstrategy_eq]
  obtain ⟨-, hok, herror⟩ := (Prog.always_iff_exec _ _).mp hassign
  have ht : Tracks [] ([] : List (ReservationEvent ℤ)) := fun id => by
    simpa using not_held_nil
  -- The tracking context passes each call on and notes the ids, so the run behind is that of the loop.
  refine (always_tracking (h := ServiceMatchContext.handler env request.deadline_ms ttl_ms)
    (s := (v, [])) (NearestStrategy.assign request.max_agents (NearestStrategy.sorted candidates) [])
    ht).imp (fun _ => id) ?_ fun _ _ => False.elim
  rintro ⟨outcome, reserved⟩ s ⟨hresult, hfinal, ht'⟩
  dsimp only at hresult ht' ⊢
  cases outcome with
  | error e => exact (herror e hresult.symm).elim
  | ok ids =>
    have hpost := hok ids hresult.symm
    rw [← hfinal] at hpost
    by_cases hpassed : request.expired s.1.epoch_ms = true
    · -- The deadline passed in the loop.
      exact (always_expired _ s hpassed).imp (fun _ _ => trivial)
        (fun result s' hpassed' => (hlate s' hpassed').1 result)
        fun e s' hpassed' => (hlate s' hpassed').2 e
    · exact hsettle ids reserved s hpost (eq_false_of_ne_true hpassed) ht'

variable (request) in
/-- The match of a request that has some agents on offer takes the free ones. -/
theorem always_nearest_match_started (hquiet : env.Quiet) {service : MatchingService D}
    (hrunning : service.running = true) (hstrategy : service.strategy = some NearestStrategy.strategy)
    (hr : request.request_id ≠ "") (httl : 0 < ttl_ms) (hpos : 0 < request.max_agents)
    (hmax : request.max_agents < 2^31) (candidates : List (MatchCandidate D))
    (hnodup : (candidates.map MatchCandidate.agent_id).Nodup) (started_ms : ℤ) (calls : ℕ)
    (hstarted : started_ms ≤ (env.later w calls w.redis).epoch_ms) :
    (service.match_started request candidates started_ms).Always
      ((ServiceMatchContext.handler env request.deadline_ms ttl_ms).logged
        (reservation_event MatchWorld.monotonic_ms)) (fun _ => True)
      (fun result s => Delivered request ttl_ms env w
        ((env.free_from w (calls + 1) (offered_ids candidates)).take request.max_agents.toNat)
        (.ok result) s.1)
      (fun e s => Delivered request ttl_ms env w
        ((env.free_from w (calls + 1) (offered_ids candidates)).take request.max_agents.toNat)
        (.error e) s.1)
      (env.later w calls w.redis, []) := by
  generalize htaken : (env.free_from w (calls + 1) (offered_ids candidates)).take
    request.max_agents.toNat = taken
  have hassign := always_assign hquiet hr httl hmax (NearestStrategy.sorted candidates) calls w.redis
    [] [] (nodup_offered_ids hnodup) (fun id hmem => ⟨ne_empty_of_mem_offered_ids hmem, rfl⟩)
    (by simpa using hpos)
  have hcount : (request.max_agents - ([] : List String).length).toNat =
      request.max_agents.toNat := by
    rw [List.length_nil, Nat.cast_zero, sub_zero]
  rw [hcount] at hassign
  change Prog.Always _ _ (fun ids s => Assigned request ttl_ms env w calls w.redis [] []
    ((env.free_from w (calls + 1) (offered_ids candidates)).take request.max_agents.toNat) ids s)
    _ _ _ at hassign
  rw [htaken] at hassign
  refine always_match_nearest request hrunning hstrategy hr hpos candidates started_ms _ hstarted
    (fun s hlate => ?_) hassign ?_
  · -- Nothing is promised past the deadline, whatever is given back.
    have hvacuous : ∀ outcome, Delivered request ttl_ms env w taken outcome s.1 := by
      intro outcome hintime
      rw [hlate] at hintime
      cases hintime
    exact ⟨fun result => hvacuous (.ok result), fun e => hvacuous (.error e)⟩
  rintro ids reserved ⟨w', log⟩ ⟨calls', redis', hle, hs, hintime⟩ hbefore ht'
  obtain ⟨rfl, hreserves, hheld⟩ := hintime hbefore
  -- The ids fit the request, so neither the cut nor the check of ownership removes any.
  dsimp only at hs
  subst hs
  have hheld' : ∀ id, Held log id ↔ id ∈ ids := fun id => by
    rw [hheld id]
    exact or_iff_right not_held_nil
  have hoffered : ∀ id ∈ ids, id ∈ offered_ids candidates := by
    rw [← htaken]
    exact fun id hmem => (env.free_from_sublist w _ _).subset (List.mem_of_mem_take hmem)
  have hlength : (ids.length : ℤ) ≤ request.max_agents := by
    rw [← htaken, List.length_take]
    omega
  have hcut : request.cut ids = ids := by
    refine if_neg fun hcut => ?_
    have hlong := hcut.2
    have hcast := castInt_natCast_le ids.length
    omega
  exact (always_settle_assigned hquiet started_ms ht' hheld'
    (fun id hmem => ne_empty_of_mem_offered_ids (hoffered id hmem)) hcut hreserves).imp
    (fun _ => id) (fun _ _ => id) fun _ _ => False.elim

omit [LinearOrder D] in
/-- One more call after a handling. -/
theorem Delivered.turn {taken : List String} {result : MatchResult} {w' : MatchWorld}
    (h : Delivered request ttl_ms env w taken (.ok result) w') (hquiet : env.Quiet) (latency_ms : ℤ) :
    Delivered request ttl_ms env w taken (.ok { result with latency_ms }) (env.turn w') := by
  intro hintime
  have hbefore : request.expired w'.epoch_ms = false := in_time_of_le (hquiet.le_turn w').1 hintime
  obtain ⟨⟨calls, redis', rfl, hreserves⟩, hnone, hsome⟩ := h hbefore
  rw [hquiet.turn_later]
  refine ⟨⟨calls + 1, redis', rfl, ?_⟩, fun hempty result' hresult' => ?_, fun hne => ?_⟩
  · exact hreserves.later (hquiet.later_mono w redis' (Nat.le_succ calls) redis').2
  · cases hresult'
    exact hnone hempty result rfl
  · obtain ⟨result', hresult', hstatus, hassigned⟩ := hsome hne
    cases hresult'
    exact ⟨_, rfl, hstatus, hassigned⟩

end Assign

section Delivery

variable {D : Type} [LinearOrder D] (service : MatchingService D) (request : MatchRequest)
  (env : MatchEnvironment D request.request_id)

/-- The ids that a handling of the request goes through: those that its search finds, where it gets as
far as to run the strategy. -/
def offered (w : MatchWorld) : List String :=
  let filled := service.filled request w.epoch_ms
  if service.running = false ∨ filled.expired w.epoch_ms = true ∨
      MatchingService.invalid filled = true then []
  else
    match NearbyHandler.handle env.haversine env.metres env.h3 env.config (env.orders (w.calls + 1))
      w.redis (env.turn w).epoch_ms filled.lat filled.lon filled.radius_m (castInt (filled.max_agents * 4)) 0 with
    | .ok nearby => offered_ids (to_candidates nearby)
    | .error _ => []

/-- The agents that a handling of the request takes: the free ones, up to the number asked for. -/
def taken (w : MatchWorld) : List String :=
  (env.free_from w 4 (offered service request env w)).take
    (service.filled request w.epoch_ms).max_agents.toNat

/-- One handling of the request. -/
def deliver (w : MatchWorld) :
    Run (MatchWorld × List (ReservationEvent ℤ)) Exception MatchResult :=
  service.handle_run (ServiceMatchContext.handler env
    (service.filled request w.epoch_ms).deadline_ms service.request_ttl_ms) MatchWorld.monotonic_ms
    request w

omit [LinearOrder D] in
/-- A request that is handled asks for an agent at least. -/
theorem filled_max_agents_pos (started_ms : ℤ) :
    0 < (service.filled request started_ms).max_agents := by
  dsimp only [MatchingService.filled]
  split <;> omega

variable {service request env}

/-- A handling ends as the rest of the request does once the clock has been read. -/
theorem deliver_of_always {P : MatchResult → MatchWorld × List (ReservationEvent ℤ) → Prop}
    {E : Exception → MatchWorld × List (ReservationEvent ℤ) → Prop} {w : MatchWorld}
    (h : (service.request_started request w.epoch_ms).Always
      ((ServiceMatchContext.handler env (service.filled request w.epoch_ms).deadline_ms
        service.request_ttl_ms).logged (reservation_event MatchWorld.monotonic_ms)) (fun _ => True)
      P E (env.turn w, [])) :
    (∀ result, (deliver service request env w).result = .ok result →
        P result (deliver service request env w).final) ∧
      ∀ e, (deliver service request env w).result = .error e →
        E e (deliver service request env w).final :=
  ((Prog.always_iff_exec _ _).mp h).2

/-- The rule for a request that fails one of the checks: it is not matched, and makes no more calls. -/
theorem always_request_skipped {P : MatchResult → MatchWorld × List (ReservationEvent ℤ) → Prop}
    {E : Exception → MatchWorld × List (ReservationEvent ℤ) → Prop} {w : MatchWorld}
    (hskip : service.running = false ∨ (service.filled request w.epoch_ms).expired w.epoch_ms = true ∨
      MatchingService.invalid (service.filled request w.epoch_ms) = true)
    (h : ∀ result : MatchResult, result.status ≠ .MATCHED → P result (env.turn w, [])) :
    (service.request_started request w.epoch_ms).Always
      ((ServiceMatchContext.handler env (service.filled request w.epoch_ms).deadline_ms
        service.request_ttl_ms).logged (reservation_event MatchWorld.monotonic_ms)) (fun _ => True)
      P E (env.turn w, []) := by
  unfold MatchingService.request_started
  dsimp only
  split
  · exact h _ nofun
  split
  · exact h _ nofun
  split
  · exact h _ nofun
  · rcases hskip with hfails | hfails | hfails <;> contradiction

/-- The rule for a request that passes the checks: the search is the second call, the match reads the
clock in the third one, and the latency is read at the end. -/
theorem always_request_searched {P : MatchResult → MatchWorld × List (ReservationEvent ℤ) → Prop}
    {E : Exception → MatchWorld × List (ReservationEvent ℤ) → Prop} {w : MatchWorld}
    (hrunning : service.running = true)
    (hexpired : (service.filled request w.epoch_ms).expired w.epoch_ms = false)
    (hvalid : MatchingService.invalid (service.filled request w.epoch_ms) = false)
    (found : Except Exception (NearbyResult D))
    (hfound : NearbyHandler.handle env.haversine env.metres env.h3 env.config (env.orders (w.calls + 1))
      (env.turn w).redis (env.turn w).epoch_ms (service.filled request w.epoch_ms).lat
      (service.filled request w.epoch_ms).lon (service.filled request w.epoch_ms).radius_m
      (castInt ((service.filled request w.epoch_ms).max_agents * 4)) 0 = found)
    (herror : ∀ e, found = .error e → E e (env.turn^[2] w, []))
    (hmatch : ∀ nearby, found = .ok nearby →
      (service.match_started (service.filled request w.epoch_ms) (to_candidates nearby)
          (env.turn^[2] w).epoch_ms).Always
        ((ServiceMatchContext.handler env (service.filled request w.epoch_ms).deadline_ms
          service.request_ttl_ms).logged (reservation_event MatchWorld.monotonic_ms)) (fun _ => True)
        (fun result s => ∀ latency_ms, P { result with latency_ms } (env.turn s.1, s.2)) E
        (env.turn^[3] w, [])) :
    (service.request_started request w.epoch_ms).Always
      ((ServiceMatchContext.handler env (service.filled request w.epoch_ms).deadline_ms
        service.request_ttl_ms).logged (reservation_event MatchWorld.monotonic_ms)) (fun _ => True)
      P E (env.turn w, []) := by
  unfold MatchingService.request_started
  rw [hrunning, if_neg Bool.noConfusion]
  dsimp only
  rw [hexpired, if_neg Bool.noConfusion, hvalid, if_neg Bool.noConfusion]
  refine ⟨trivial, ?_⟩
  change Prog.Always _ _ _ _ (Prog.bind (Prog.ofExcept ((NearbyHandler.handle env.haversine env.metres
      env.h3 env.config (env.orders (w.calls + 1)) (env.turn w).redis (env.turn w).epoch_ms
      (service.filled request w.epoch_ms).lat (service.filled request w.epoch_ms).lon
      (service.filled request w.epoch_ms).radius_m
      (castInt ((service.filled request w.epoch_ms).max_agents * 4)) 0).map to_candidates)) _)
    (env.turn^[2] w, [])
  rw [hfound]
  cases found with
  | error e => exact herror e rfl
  | ok nearby =>
    change Prog.Always _ _ _ _ (Prog.bind (service.match_once (service.filled request w.epoch_ms)
      (to_candidates nearby)) _) _
    rw [always_bind]
    refine ⟨trivial, (hmatch nearby rfl).imp (fun _ => id) (fun result s hs => ?_) fun _ _ => id⟩
    have hempty : s.2 ++ (none : Option (ReservationEvent ℤ)).toList = s.2 := List.append_nil _
    refine ⟨trivial, ?_⟩
    change P _ (env.turn s.1, s.2 ++ (none : Option (ReservationEvent ℤ)).toList)
    rw [hempty]
    exact hs _

/-- A handling of the request takes the free agents. -/
theorem delivered_deliver (hquiet : env.Quiet)
    (hstrategy : service.strategy = some NearestStrategy.strategy)
    (httl : 0 < service.request_ttl_ms) (hmax : request.max_agents < 2^31) (w : MatchWorld)
    (hindexed : w.redis.Indexed) :
    Delivered (service.filled request w.epoch_ms) service.request_ttl_ms env w
      (taken service request env w) (deliver service request env w).result
      (deliver service request env w).final.1 := by
  suffices halways : (service.request_started request w.epoch_ms).Always
      ((ServiceMatchContext.handler env (service.filled request w.epoch_ms).deadline_ms
        service.request_ttl_ms).logged (reservation_event MatchWorld.monotonic_ms)) (fun _ => True)
      (fun result s => Delivered (service.filled request w.epoch_ms) service.request_ttl_ms env w
        (taken service request env w) (.ok result) s.1)
      (fun e s => Delivered (service.filled request w.epoch_ms) service.request_ttl_ms env w
        (taken service request env w) (.error e) s.1) (env.turn w, []) by
    obtain ⟨hok, herror⟩ := deliver_of_always halways
    cases hresult : (deliver service request env w).result with
    | ok result => exact hok result hresult
    | error e => exact herror e hresult
  have hlater : ∀ calls, env.turn^[calls] w = env.later w calls w.redis := by
    intro calls
    unfold MatchEnvironment.later
    rw [← hquiet.redis_iterate w calls]
  by_cases hskip : service.running = false ∨
      (service.filled request w.epoch_ms).expired w.epoch_ms = true ∨
      MatchingService.invalid (service.filled request w.epoch_ms) = true
  · -- What fails the checks takes nothing.
    have htaken : taken service request env w = [] := by
      unfold taken offered
      dsimp only
      rw [if_pos hskip]
      exact List.take_nil
    rw [htaken]
    refine always_request_skipped hskip fun result hstatus => ?_
    rw [show env.turn w = env.later w 1 w.redis from hlater 1]
    refine Delivered.nothing 1 ?_
    rintro _ ⟨⟩
    exact hstatus
  have hoffered : offered service request env w =
      match NearbyHandler.handle env.haversine env.metres env.h3 env.config (env.orders (w.calls + 1))
        w.redis (env.turn w).epoch_ms (service.filled request w.epoch_ms).lat
        (service.filled request w.epoch_ms).lon (service.filled request w.epoch_ms).radius_m
        (castInt ((service.filled request w.epoch_ms).max_agents * 4)) 0 with
      | .ok nearby => offered_ids (to_candidates nearby)
      | .error _ => [] := if_neg hskip
  obtain ⟨hrunning, hexpired, hvalid⟩ := (not_or.trans (and_congr_right fun _ => not_or)).mp hskip
  -- Past the validation, the id is not empty and the number of agents is positive.
  have hr : (service.filled request w.epoch_ms).request_id ≠ "" := by
    unfold MatchingService.invalid at hvalid
    intro hempty
    simp [hempty] at hvalid
  have hmany : (service.filled request w.epoch_ms).max_agents < 2^31 := by
    dsimp only [MatchingService.filled]
    split <;> omega
  have hredis : (env.turn w).redis = w.redis := hquiet.redis_iterate w 1
  cases hfound : NearbyHandler.handle env.haversine env.metres env.h3 env.config
      (env.orders (w.calls + 1)) w.redis (env.turn w).epoch_ms (service.filled request w.epoch_ms).lat
      (service.filled request w.epoch_ms).lon (service.filled request w.epoch_ms).radius_m
      (castInt ((service.filled request w.epoch_ms).max_agents * 4)) 0 with
  | error e =>
    -- A search that throws ends the handling, which has reserved nothing.
    have htaken : taken service request env w = [] := by
      unfold taken
      rw [hoffered, hfound]
      exact List.take_nil
    rw [htaken]
    refine always_request_searched (eq_true_of_ne_false hrunning) (eq_false_of_ne_true hexpired)
      (eq_false_of_ne_true hvalid) (.error e) (hredis.symm ▸ hfound) (fun e' he' => ?_)
      fun nearby h => by cases h
    rw [hlater]
    exact Delivered.nothing 2 nofun
  | ok nearby =>
    have htaken : taken service request env w =
        (env.free_from w 4 (offered_ids (to_candidates nearby))).take
          (service.filled request w.epoch_ms).max_agents.toNat := by
      unfold taken
      rw [hoffered, hfound]
    have hnodup : ((to_candidates nearby).map MatchCandidate.agent_id).Nodup := by
      unfold to_candidates
      rw [List.map_map]
      exact NearbyHandler.nodup_device_ids _ _ _ _ _ hindexed _ _ _ _ _ _ hfound
    rw [htaken]
    refine always_request_searched (eq_true_of_ne_false hrunning) (eq_false_of_ne_true hexpired)
      (eq_false_of_ne_true hvalid) (.ok nearby) (hredis.symm ▸ hfound) (fun e h => by cases h)
      fun nearby' hnearby' => ?_
    cases hnearby'
    rw [hlater, hlater]
    exact (always_nearest_match_started (service.filled request w.epoch_ms) hquiet
      (eq_true_of_ne_false hrunning) hstrategy hr httl (filled_max_agents_pos service request w.epoch_ms)
      hmany (to_candidates nearby) hnodup (env.later w 2 w.redis).epoch_ms 3
      (hquiet.later_mono w w.redis (by omega) w.redis).1).imp (fun _ => id)
      (fun result s hs latency_ms => hs.turn hquiet latency_ms) fun _ _ => id

/-- Time does not go backwards in a handling. -/
theorem monotonic_le_deliver (hquiet : env.Quiet) (w : MatchWorld) :
    w.monotonic_ms ≤ (deliver service request env w).final.1.monotonic_ms := by
  suffices hcall : ∀ {β : Type} (c : MatchCall D β) (s : MatchWorld × List (ReservationEvent ℤ)),
      w.monotonic_ms ≤ s.1.monotonic_ms → w.monotonic_ms ≤
        (((ServiceMatchContext.handler env (service.filled request w.epoch_ms).deadline_ms
          service.request_ttl_ms).logged (reservation_event MatchWorld.monotonic_ms)).run
            c s).2.1.monotonic_ms from
    (Prog.always_of_forall_call hcall (service.handle_request request) (w, []) (le_refl _)).final
  intro β c s hs
  have hclock : (ServiceMatchContext.perform env (service.filled request w.epoch_ms).deadline_ms
      service.request_ttl_ms c s.1).2.monotonic_ms = s.1.monotonic_ms := by
    cases c <;> rfl
  refine le_trans hs ?_
  rw [← hclock]
  exact (hquiet.le_turn _).2

end Delivery

/-- The agents that are reserved for a request. -/
def RedisClient.reserved_agents (redis : RedisClient) (request_id : String) (now_ms : ℤ) :
    Finset String :=
  redis.reservations.keys.toFinset.filter fun agent_id =>
    redis.get_agent_reservation_holder agent_id now_ms = some request_id

/-- An agent is reserved for the request that holds it. -/
theorem RedisClient.mem_reserved_agents {redis : RedisClient} {request_id agent_id : String}
    {now_ms : ℤ} : agent_id ∈ redis.reserved_agents request_id now_ms ↔
      ∃ expires_at_ms, redis.reservations.lookup agent_id = some ⟨request_id, expires_at_ms⟩ ∧
        now_ms < expires_at_ms := by
  unfold reserved_agents
  rw [Finset.mem_filter, get_agent_reservation_holder_eq_some, List.mem_toFinset]
  refine and_iff_right_of_imp ?_
  rintro ⟨expires_at_ms, hlookup, -⟩
  rw [← AList.mem_keys, ← AList.lookup_isSome, hlookup]
  rfl

section Redeliveries

variable {D : Type} [LinearOrder D] (service : MatchingService D) (request : MatchRequest)
  (env : MatchEnvironment D request.request_id) (w : MatchWorld)

/-- The world after a number of handlings of the request. -/
def delivered : ℕ → MatchWorld
  | 0 => w
  | n + 1 => (deliver service request env (delivered n)).final.1

/-- The agents that are reserved for the request after a number of handlings. -/
def held_after (n : ℕ) : Finset String :=
  (delivered service request env w n).redis.reserved_agents request.request_id
    (delivered service request env w n).monotonic_ms

/-- All handlings are within the deadline and the TTL: no deadline has passed at the end of a handling,
and no reservation of the request ends on the way. -/
structure Timely (n : ℕ) : Prop where
  deadline : ∀ i < n, (service.filled request (delivered service request env w i).epoch_ms).expired
    (delivered service request env w (i + 1)).epoch_ms = false
  ttl : (delivered service request env w n).monotonic_ms < w.monotonic_ms + service.request_ttl_ms
  lasting : ∀ agent_id expires_at_ms,
    w.redis.reservations.lookup agent_id = some ⟨request.request_id, expires_at_ms⟩ →
      w.monotonic_ms < expires_at_ms →
        (delivered service request env w n).monotonic_ms < expires_at_ms

/-- Handling the request any number of times is idempotent: no more agents are reserved for it than
it asks for, and if the first handling is matched, each later one is matched with agents that are
already reserved. -/
structure Idempotent (n : ℕ) : Prop where
  bounded : ∀ i < n, ((held_after service request env w (i + 1)).card : ℤ) ≤
    (service.filled request w.epoch_ms).max_agents
  repeated : ∀ result, (deliver service request env w).result = .ok result →
    result.status = .MATCHED → ∀ i, 0 < i → i < n →
      ∃ again, (deliver service request env (delivered service request env w i)).result = .ok again ∧
        again.status = .MATCHED ∧
        ∀ agent_id ∈ again.assigned_agent_ids, agent_id ∈ held_after service request env w i

variable {service request env w}

omit [LinearOrder D] in
/-- A handling within the TTL adds the agents that it takes to those that are held. -/
theorem held_of_delivered {v v' : MatchWorld} {end_ms : ℤ} {ids : List String} {redis' : RedisClient}
    (hreserves : Reserves request.request_id service.request_ttl_ms v ids v'.monotonic_ms v.redis redis')
    (hle : v.monotonic_ms ≤ v'.monotonic_ms) (hend : v'.monotonic_ms ≤ end_ms)
    (httl : end_ms < v.monotonic_ms + service.request_ttl_ms)
    (hlasting : ∀ agent_id expires_at_ms,
      v.redis.reservations.lookup agent_id = some ⟨request.request_id, expires_at_ms⟩ →
        v.monotonic_ms < expires_at_ms → end_ms < expires_at_ms) :
    redis'.reserved_agents request.request_id v'.monotonic_ms =
        v.redis.reserved_agents request.request_id v.monotonic_ms ∪ ids.toFinset ∧
      Disjoint (v.redis.reserved_agents request.request_id v.monotonic_ms) ids.toFinset := by
  have hdisjoint : ∀ id ∈ v.redis.reserved_agents request.request_id v.monotonic_ms, id ∉ ids := by
    -- An agent that was free when it was taken was not held for this request before.
    intro id hid hmem
    obtain ⟨expires_at_ms, hlookup, hlive⟩ := RedisClient.mem_reserved_agents.mp hid
    obtain ⟨since_ms, -, huntil, hfree, -⟩ := hreserves.stored id hmem
    have hlast := hlasting id expires_at_ms hlookup hlive
    -- The agent was still held when it was taken.
    have hholder : v.redis.get_agent_reservation_holder id since_ms = some request.request_id :=
      RedisClient.get_agent_reservation_holder_eq_some.mpr ⟨expires_at_ms, hlookup, by omega⟩
    rw [RedisClient.is_agent_reserved_eq, hholder] at hfree
    cases hfree
  refine ⟨?_, Finset.disjoint_left.mpr fun id hid hmem => hdisjoint id hid (List.mem_toFinset.mp hmem)⟩
  ext id
  rw [Finset.mem_union, List.mem_toFinset, RedisClient.mem_reserved_agents]
  constructor
  · rintro ⟨expires_at_ms, hlookup, hlive⟩
    by_cases hmem : id ∈ ids
    · exact .inr hmem
    · rw [hreserves.kept id hmem] at hlookup
      exact .inl (RedisClient.mem_reserved_agents.mpr ⟨expires_at_ms, hlookup, by omega⟩)
  · rintro (hid | hmem)
    · obtain ⟨expires_at_ms, hlookup, hlive⟩ := RedisClient.mem_reserved_agents.mp hid
      have hlast := hlasting id expires_at_ms hlookup hlive
      rw [← hreserves.kept id (hdisjoint id hid)] at hlookup
      exact ⟨expires_at_ms, hlookup, by omega⟩
    · obtain ⟨since_ms, hfrom, huntil, hfree, hlookup⟩ := hreserves.stored id hmem
      exact ⟨_, hlookup, by omega⟩

/-- What holds after each of the handlings of a run within the TTL, which ends at `end_ms`. -/
structure Underway (service : MatchingService D) (request : MatchRequest) (start_ms end_ms : ℤ)
    (v : MatchWorld) : Prop where
  indexed : v.redis.Indexed
  started : start_ms ≤ v.monotonic_ms
  lasting : ∀ agent_id expires_at_ms,
    v.redis.reservations.lookup agent_id = some ⟨request.request_id, expires_at_ms⟩ →
      v.monotonic_ms < expires_at_ms → end_ms < expires_at_ms

/-- One handling of the run: the agents that it takes are added to those that are held, and if there
are some, it is matched with them. -/
theorem Underway.step (hquiet : env.Quiet)
    (hstrategy : service.strategy = some NearestStrategy.strategy) (hmax : request.max_agents < 2^31)
    {start_ms end_ms : ℤ} {v : MatchWorld} (h : Underway service request start_ms end_ms v)
    (httl : end_ms < start_ms + service.request_ttl_ms)
    (hend : (deliver service request env v).final.1.monotonic_ms ≤ end_ms)
    (hintime : (service.filled request v.epoch_ms).expired
      (deliver service request env v).final.1.epoch_ms = false) :
    Underway service request start_ms end_ms (deliver service request env v).final.1 ∧
      (deliver service request env v).final.1.redis.reserved_agents request.request_id
          (deliver service request env v).final.1.monotonic_ms =
        v.redis.reserved_agents request.request_id v.monotonic_ms ∪
          (taken service request env v).toFinset ∧
      Disjoint (v.redis.reserved_agents request.request_id v.monotonic_ms)
        (taken service request env v).toFinset := by
  have hle : v.monotonic_ms ≤ (deliver service request env v).final.1.monotonic_ms :=
    monotonic_le_deliver hquiet v
  have hstarted := h.started
  obtain ⟨⟨calls, redis', hfinal, hreserves⟩, -, -⟩ :=
    delivered_deliver hquiet hstrategy (by omega) hmax v h.indexed hintime
  have hredis : (deliver service request env v).final.1.redis = redis' := by
    rw [hfinal]
    rfl
  have hheld := held_of_delivered hreserves hle hend (by omega) h.lasting
  rw [← hredis] at hheld hreserves
  -- A reservation that is live at the end is an old one, which lasts, or one made here, whose TTL
  -- goes past the end.
  refine ⟨⟨?_, by omega, fun id expires_at_ms hlookup hlive => ?_⟩, hheld⟩
  · exact h.indexed.congr hreserves.device_states hreserves.cell_devices
  · by_cases hmem : id ∈ taken service request env v
    · obtain ⟨since_ms, hfrom, -, -, hstored⟩ := hreserves.stored id hmem
      rw [hstored] at hlookup
      cases hlookup
      omega
    · rw [hreserves.kept id hmem] at hlookup
      exact h.lasting id expires_at_ms hlookup (by omega)

/-- The clock of a run. -/
theorem delivered_monotone (hquiet : env.Quiet) :
    Monotone fun n => (delivered service request env w n).monotonic_ms :=
  monotone_nat_of_le_succ fun n => monotonic_le_deliver hquiet (delivered service request env w n)

/-- The invariant of a run that is within the TTL and the deadline. -/
theorem Timely.underway (hquiet : env.Quiet)
    (hstrategy : service.strategy = some NearestStrategy.strategy) (hmax : request.max_agents < 2^31)
    (hindexed : w.redis.Indexed) {n : ℕ} (htimely : Timely service request env w n) (i : ℕ)
    (hi : i ≤ n) :
    Underway service request w.monotonic_ms (delivered service request env w n).monotonic_ms
      (delivered service request env w i) := by
  induction i with
  | zero => exact ⟨hindexed, le_refl _, htimely.lasting⟩
  | succ i ih =>
    exact ((ih (by omega)).step hquiet hstrategy hmax htimely.ttl (delivered_monotone hquiet hi)
      (htimely.deadline i hi)).1

/-- A handling takes each agent once. -/
theorem nodup_taken {v : MatchWorld} (hindexed : v.redis.Indexed) :
    (taken service request env v).Nodup := by
  have hoffered : (offered service request env v).Nodup := by
    unfold offered
    dsimp only
    split
    · exact List.nodup_nil
    · cases hfound : NearbyHandler.handle env.haversine env.metres env.h3 env.config
          (env.orders (v.calls + 1)) v.redis (env.turn v).epoch_ms
          (service.filled request v.epoch_ms).lat (service.filled request v.epoch_ms).lon
          (service.filled request v.epoch_ms).radius_m
          (castInt ((service.filled request v.epoch_ms).max_agents * 4)) 0 with
      | error e => exact List.nodup_nil
      | ok nearby =>
        refine nodup_offered_ids ?_
        unfold to_candidates
        rw [List.map_map]
        exact NearbyHandler.nodup_device_ids _ _ _ _ _ hindexed _ _ _ _ _ _ hfound
  exact (hoffered.sublist (env.free_from_sublist v 4 _)).sublist (List.take_sublist _ _)

/-- A handling takes the free agents, or as many of them as are asked for. -/
theorem length_taken (v : MatchWorld) (started_ms : ℤ) : ((taken service request env v).length : ℤ) =
    min (service.filled request started_ms).max_agents
      (env.free_from v 4 (offered service request env v)).length := by
  unfold taken
  rw [List.length_take]
  have hpos := filled_max_agents_pos service request started_ms
  have hsame : (service.filled request v.epoch_ms).max_agents =
      (service.filled request started_ms).max_agents := rfl
  rw [hsame]
  omega

/-- What one handling of the run adds to the number of agents that are held. -/
theorem Timely.card_held_after (hquiet : env.Quiet)
    (hstrategy : service.strategy = some NearestStrategy.strategy) (hmax : request.max_agents < 2^31)
    (hindexed : w.redis.Indexed) {n : ℕ} (htimely : Timely service request env w n) {i : ℕ}
    (hi : i < n) :
    ((held_after service request env w (i + 1)).card : ℤ) =
      (held_after service request env w i).card +
        min (service.filled request w.epoch_ms).max_agents
          (env.free_from (delivered service request env w i) 4
            (offered service request env (delivered service request env w i))).length := by
  have hunderway := htimely.underway hquiet hstrategy hmax hindexed i hi.le
  obtain ⟨-, hheld, hdisjoint⟩ := hunderway.step hquiet hstrategy hmax htimely.ttl
    (delivered_monotone hquiet hi) (htimely.deadline i hi)
  have hcard := Finset.card_union_of_disjoint hdisjoint
  rw [← hheld, List.toFinset_card_of_nodup (nodup_taken hunderway.indexed)] at hcard
  rw [← length_taken _ w.epoch_ms]
  exact_mod_cast hcard

/-- Handling a request any number of times within its TTL and deadline, with nothing else in
between, is idempotent exactly when no handling takes more free agents than are missing, and the
first one finds none if it is not the only one. -/
theorem idempotent_iff (hquiet : env.Quiet)
    (hstrategy : service.strategy = some NearestStrategy.strategy) (hmax : request.max_agents < 2^31)
    (hindexed : w.redis.Indexed) {n : ℕ} (htimely : Timely service request env w n) :
    Idempotent service request env w n ↔
      (∀ i < n, ((held_after service request env w i).card : ℤ) +
          min (service.filled request w.epoch_ms).max_agents
            (env.free_from (delivered service request env w i) 4
              (offered service request env (delivered service request env w i))).length ≤
        (service.filled request w.epoch_ms).max_agents) ∧
      (1 < n → env.free_from w 4 (offered service request env w) = []) := by
  -- Each handling adds the agents that it takes to those that are held.
  have hcard : ∀ i < n, _ := fun i hi => htimely.card_held_after hquiet hstrategy hmax hindexed hi
  have hunderway := htimely.underway hquiet hstrategy hmax hindexed
  have hstarted := (hunderway n (le_refl n)).started
  have httl := htimely.ttl
  have hspec : ∀ i < n, _ := fun i hi =>
    (delivered_deliver hquiet hstrategy (by omega) hmax _ (hunderway i hi.le).indexed
      (htimely.deadline i hi)).2
  constructor
  · rintro ⟨hbounded, hrepeated⟩
    refine ⟨fun i hi => ?_, fun hmany => ?_⟩
    · rw [← hcard i hi]
      exact hbounded i hi
    · by_contra hfree
      -- The first handling takes an agent and is matched, so the second should be matched again.
      have hfirst : taken service request env w ≠ [] := by
        intro hnone
        have hpos := filled_max_agents_pos service request w.epoch_ms
        have hlength : ((taken service request env w).length : ℤ) = _ := length_taken w w.epoch_ms
        have hsome := List.length_pos_iff.mpr hfree
        rw [hnone, List.length_nil] at hlength
        omega
      obtain ⟨result, hresult, hstatus, -⟩ := (hspec 0 (by omega)).2 hfirst
      obtain ⟨again, hagain, hmatched, hheld⟩ := hrepeated result hresult hstatus 1 one_pos hmany
      by_cases hsecond : taken service request env (delivered service request env w 1) = []
      · exact (hspec 1 hmany).1 hsecond again hagain hmatched
      · obtain ⟨result', hresult', -, hassigned⟩ := (hspec 1 hmany).2 hsecond
        obtain rfl : again = result' := Except.ok.inj (hagain.symm.trans hresult')
        rw [hassigned] at hheld
        obtain ⟨id, hid⟩ := List.exists_mem_of_ne_nil _ hsecond
        obtain ⟨-, -, hdisjoint⟩ := (hunderway 1 hmany.le).step hquiet hstrategy hmax httl
          (delivered_monotone hquiet hmany) (htimely.deadline 1 hmany)
        exact Finset.disjoint_left.mp hdisjoint (hheld id hid) (List.mem_toFinset.mpr hid)
  · rintro ⟨hroom, hfirst⟩
    -- With no free agent the first handling is not matched, and nothing is asked of the later ones.
    refine ⟨fun i hi => ?_, fun result hresult hstatus i hpos hi => ?_⟩
    · rw [hcard i hi]
      exact hroom i hi
    · have hnone : taken service request env w = [] := by
        unfold taken
        rw [hfirst (by omega), List.take_nil]
      exact absurd hstatus ((hspec 0 (by omega)).1 hnone result hresult)

/-- Redelivery, within the TTL and the deadline of a request, is idempotent exactly when no handling
takes more free agents than are missing, and the first one finds none if it is not the only one; a
refused reservation means that another request holds the agent exactly when this one does not. -/
theorem redelivery_iff (hquiet : env.Quiet)
    (hstrategy : service.strategy = some NearestStrategy.strategy) (hmax : request.max_agents < 2^31)
    (hindexed : w.redis.Indexed) {n : ℕ} (htimely : Timely service request env w n) :
    (Idempotent service request env w n ↔
      (∀ i < n, ((held_after service request env w i).card : ℤ) +
          min (service.filled request w.epoch_ms).max_agents
            (env.free_from (delivered service request env w i) 4
              (offered service request env (delivered service request env w i))).length ≤
        (service.filled request w.epoch_ms).max_agents) ∧
      (1 < n → env.free_from w 4 (offered service request env w) = [])) ∧
    ∀ (redis : RedisClient) (agent_id request_id : String) (ttl_ms now_ms : ℤ),
      agent_id ≠ "" → request_id ≠ "" → 0 < ttl_ms →
      (((redis.try_reserve_agent agent_id request_id ttl_ms now_ms).1 = false →
          ∃ other, other ≠ request_id ∧
            redis.get_agent_reservation_holder agent_id now_ms = some other) ↔
        redis.get_agent_reservation_holder agent_id now_ms ≠ some request_id) :=
  ⟨idempotent_iff hquiet hstrategy hmax hindexed htimely,
    fun _ _ _ _ _ => RedisClient.refused_by_other_iff⟩

end Redeliveries

/-- The environment of the request where each call takes a millisecond. -/
def steady : MatchEnvironment ℚ "r" := { stalling with elsewhere := fun _ => [.advance 1 1] }

/-- Only time passes there. -/
theorem steady_quiet : steady.Quiet := by
  intro n event hevent
  exact ⟨1, 1, List.mem_singleton.mp hevent⟩

/-- Two handlings of the request are in time. -/
theorem timely_twice : Timely nearest_service stalled_request steady one_agent 2 where
  deadline := by decide +kernel
  ttl := by decide +kernel
  lasting _ _ h := by cases h

/-- The witness at two handlings. -/
theorem redelivery_iff_twice :
    (Idempotent nearest_service stalled_request steady one_agent 2 ↔
      (∀ i < 2, ((held_after nearest_service stalled_request steady one_agent i).card : ℤ) +
          min (nearest_service.filled stalled_request one_agent.epoch_ms).max_agents
            (steady.free_from (delivered nearest_service stalled_request steady one_agent i) 4
              (offered nearest_service stalled_request steady
                (delivered nearest_service stalled_request steady one_agent i))).length ≤
        (nearest_service.filled stalled_request one_agent.epoch_ms).max_agents) ∧
      (1 < 2 → steady.free_from one_agent 4
        (offered nearest_service stalled_request steady one_agent) = [])) ∧
    ∀ (redis : RedisClient) (agent_id request_id : String) (ttl_ms now_ms : ℤ),
      agent_id ≠ "" → request_id ≠ "" → 0 < ttl_ms →
      (((redis.try_reserve_agent agent_id request_id ttl_ms now_ms).1 = false →
          ∃ other, other ≠ request_id ∧
            redis.get_agent_reservation_holder agent_id now_ms = some other) ↔
        redis.get_agent_reservation_holder agent_id now_ms ≠ some request_id) :=
  redelivery_iff steady_quiet rfl (by decide)
    (RedisClient.Indexed.empty.update_device_state_cas _ _) timely_twice

/-- The first handling is matched with the one agent, and the second one finds it taken. -/
theorem twice_not_idempotent : Timely nearest_service stalled_request steady one_agent 2 ∧
    ¬ Idempotent nearest_service stalled_request steady one_agent 2 := by
  refine ⟨timely_twice, fun hidempotent => ?_⟩
  have hfirst : (deliver nearest_service stalled_request steady one_agent).result =
      .ok ⟨"r", .MATCHED, ["a"], "", 6⟩ := by
    decide +kernel
  have hsecond : (deliver nearest_service stalled_request steady
      (delivered nearest_service stalled_request steady one_agent 1)).result =
      .ok ⟨"r", .FAILED, [], "no agents matched", 5⟩ := by
    decide +kernel
  obtain ⟨again, hagain, hstatus, -⟩ := hidempotent.repeated _ hfirst rfl 1 one_pos (by decide)
  obtain rfl := Except.ok.inj (hsecond.symm.trans hagain)
  cases hstatus

end SignalRoute
