import SignalRoute.Clients.Redis

/-!
# Reservations as leases

`src/matching/reservation_manager.cpp` and the reservation calls of the in-memory store, in any
order and by any requests, under a clock that never goes back. A `LeaseWorld` keeps, beside the
store, the history of what succeeded: the reservations with their times, and the releases.

What is stored about an agent is a function of the history (`granted`), because an expired
reservation stays until another replaces it. Two laws follow. Reservations exclude one another
(`Exclusive`): a second one of an agent succeeds only once the first has expired or was released by
its request. And the reported holder is the request of the last reservation, unless it has expired
or was released (`Holds`). `leases_exclude` proves both of every history.
-/

namespace SignalRoute

namespace ReservationManager

/-- `reserve`. -/
def reserve (default_ttl_ms : ℤ) (redis : RedisClient) (agent_id request_id : String)
    (now_ms : ℤ) : Bool × RedisClient :=
  if agent_id = "" ∨ request_id = "" ∨ default_ttl_ms ≤ 0 then (false, redis)
  else redis.try_reserve_agent agent_id request_id default_ttl_ms now_ms

/-- `release`. -/
def release (redis : RedisClient) (agent_id request_id : String) : RedisClient :=
  redis.release_agent agent_id request_id

/-- `is_reserved`. -/
def is_reserved (redis : RedisClient) (agent_id : String) (now_ms : ℤ) : Bool :=
  if agent_id = "" then false else redis.is_agent_reserved agent_id now_ms

/-- The manager checks what the store checks again. -/
theorem reserve_eq (default_ttl_ms : ℤ) (redis : RedisClient) (agent_id request_id : String)
    (now_ms : ℤ) :
    reserve default_ttl_ms redis agent_id request_id now_ms =
      redis.try_reserve_agent agent_id request_id default_ttl_ms now_ms := by
  unfold reserve
  split
  · rename_i hargs
    unfold RedisClient.try_reserve_agent
    rw [if_pos hargs]
  · rfl

end ReservationManager

/-- The reservation calls of the store. -/
inductive ReservationCall where
  | try_reserve_agent (agent_id request_id : String) (ttl_ms : ℤ)
  | release_agent (agent_id request_id : String)
  | is_agent_reserved (agent_id : String)
  | get_agent_reservation_holder (agent_id : String)

/-- A reservation that succeeded, with its time, or a release. -/
inductive LeaseEvent where
  | reserved (agent_id request_id : String) (ttl_ms at_ms : ℤ)
  | released (agent_id request_id : String)

/-- The store, its clock, and the history of its reservations. -/
structure LeaseWorld where
  redis : RedisClient := {}
  now_ms : ℤ
  events : List LeaseEvent := []

/-- A call, some milliseconds after the one before. The two that only look change nothing. -/
def LeaseWorld.step (w : LeaseWorld) (call : ℕ × ReservationCall) : LeaseWorld :=
  let now_ms := w.now_ms + call.1
  match call.2 with
  | .try_reserve_agent agent_id request_id ttl_ms =>
    let (reserved, redis) := w.redis.try_reserve_agent agent_id request_id ttl_ms now_ms
    { redis, now_ms, events :=
        if reserved then w.events ++ [.reserved agent_id request_id ttl_ms now_ms] else w.events }
  | .release_agent agent_id request_id =>
    { redis := w.redis.release_agent agent_id request_id, now_ms, events :=
        w.events ++ [.released agent_id request_id] }
  | .is_agent_reserved _ => { w with now_ms }
  | .get_agent_reservation_holder _ => { w with now_ms }

/-- The calls of a history in order, on an empty store whose clock starts anywhere. -/
def LeaseWorld.run (start_ms : ℤ) (calls : List (ℕ × ReservationCall)) : LeaseWorld :=
  calls.foldl LeaseWorld.step { now_ms := start_ms }

/-- Of two reservations of an agent, the second came when the first had expired, or after a release by
the request of the first. -/
def Exclusive (events : List LeaseEvent) : Prop :=
  ∀ before between after agent_id first second first_ttl_ms second_ttl_ms first_ms second_ms,
    events = before ++ .reserved agent_id first first_ttl_ms first_ms :: between ++
      .reserved agent_id second second_ttl_ms second_ms :: after →
    first_ms + first_ttl_ms ≤ second_ms ∨ .released agent_id first ∈ between

/-- The last reservation of an agent is that of a request, which has not released it since. -/
def LastReservation (events : List LeaseEvent) (agent_id request_id : String) (expires_at_ms : ℤ) :
    Prop :=
  ∃ before ttl_ms at_ms after, events = before ++ .reserved agent_id request_id ttl_ms at_ms :: after ∧
    (∀ other ttl_ms at_ms, .reserved agent_id other ttl_ms at_ms ∉ after) ∧
    .released agent_id request_id ∉ after ∧ expires_at_ms = at_ms + ttl_ms

/-- A request holds an agent: the last reservation of the agent is its own, and it has neither expired
nor been released. -/
def Holds (events : List LeaseEvent) (now_ms : ℤ) (agent_id request_id : String) : Prop :=
  ∃ expires_at_ms, LastReservation events agent_id request_id expires_at_ms ∧ now_ms < expires_at_ms

/-- The reservation that a history leaves for an agent, expired or not. -/
def granted (events : List LeaseEvent) (agent_id : String) : Option ReservationRecord :=
  events.foldl (fun stored event =>
    match event with
    | .reserved a request_id ttl_ms at_ms =>
      if agent_id = a then some ⟨request_id, at_ms + ttl_ms⟩ else stored
    | .released a request_id =>
      if agent_id = a then stored.filter fun record => record.request_id ≠ request_id else stored)
    none

section Histories

variable {events : List LeaseEvent} {agent_id : String}

/-- One more reservation. -/
theorem granted_reserved (a r : String) (ttl_ms at_ms : ℤ) :
    granted (events ++ [.reserved a r ttl_ms at_ms]) agent_id =
      if agent_id = a then some ⟨r, at_ms + ttl_ms⟩ else granted events agent_id := by
  unfold granted
  rw [List.foldl_append]
  rfl

/-- One more release. -/
theorem granted_released (a r : String) :
    granted (events ++ [.released a r]) agent_id =
      if agent_id = a then (granted events agent_id).filter fun record => record.request_id ≠ r
      else granted events agent_id := by
  unfold granted
  rw [List.foldl_append]
  rfl

/-- An event that neither reserves the agent nor releases it for the request. -/
theorem LastReservation.snoc {request_id : String} {expires_at_ms : ℤ}
    (h : LastReservation events agent_id request_id expires_at_ms) {event : LeaseEvent}
    (hreserved : ∀ other ttl_ms at_ms, .reserved agent_id other ttl_ms at_ms ≠ event)
    (hreleased : .released agent_id request_id ≠ event) :
    LastReservation (events ++ [event]) agent_id request_id expires_at_ms := by
  obtain ⟨before, ttl_ms, at_ms, after, rfl, hnew, hold, hexp⟩ := h
  refine ⟨before, ttl_ms, at_ms, after ++ [event], by simp, fun other ttl_ms at_ms hmem => ?_,
    fun hmem => ?_, hexp⟩
  · rcases List.mem_append.mp hmem with hmem | hmem
    · exact hnew _ _ _ hmem
    · exact hreserved _ _ _ (List.mem_singleton.mp hmem)
  · rcases List.mem_append.mp hmem with hmem | hmem
    · exact hold hmem
    · exact hreleased (List.mem_singleton.mp hmem)

/-- The last reservation before an event, unless the event is one of the agent or its release. -/
theorem LastReservation.of_snoc {request_id : String} {expires_at_ms : ℤ} {event : LeaseEvent}
    (h : LastReservation (events ++ [event]) agent_id request_id expires_at_ms)
    (hreserved : ∀ ttl_ms at_ms, .reserved agent_id request_id ttl_ms at_ms ≠ event) :
    LastReservation events agent_id request_id expires_at_ms ∧
      (∀ other ttl_ms at_ms, .reserved agent_id other ttl_ms at_ms ≠ event) ∧
      .released agent_id request_id ≠ event := by
  obtain ⟨before, ttl_ms, at_ms, after, heq, hnew, hold, hexp⟩ := h
  -- Either the reservation is the last event, or the last event comes after it.
  rcases List.eq_nil_or_concat after with rfl | ⟨after, last, rfl⟩
  · obtain ⟨-, hlast⟩ := List.append_inj' heq rfl
    exact absurd (List.singleton_inj.mp hlast).symm (hreserved _ _)
  · rw [List.concat_eq_append] at heq hnew hold
    rw [← List.cons_append, ← List.append_assoc] at heq
    obtain ⟨hevents, hlast⟩ := List.append_inj' heq rfl
    obtain rfl : event = last := List.singleton_inj.mp hlast
    refine ⟨⟨before, ttl_ms, at_ms, after, hevents, fun _ _ _ hmem => ?_, fun hmem => ?_, hexp⟩,
      ?_, ?_⟩
    · exact hnew _ _ _ (List.mem_append_left _ hmem)
    · exact hold (List.mem_append_left _ hmem)
    · rintro other ttl_ms at_ms rfl
      exact hnew _ _ _ (List.mem_append_right _ List.mem_cons_self)
    · rintro rfl
      exact hold (List.mem_append_right _ List.mem_cons_self)

/-- What a history leaves for an agent is its last reservation, unless the request released it. -/
theorem granted_eq_some {request_id : String} {expires_at_ms : ℤ} :
    granted events agent_id = some ⟨request_id, expires_at_ms⟩ ↔
      LastReservation events agent_id request_id expires_at_ms := by
  induction events using List.reverseRecOn with
  | nil =>
    refine iff_of_false nofun ?_
    rintro ⟨before, ttl_ms, at_ms, after, heq, -⟩
    simp at heq
  | append_singleton events event ih =>
    cases event with
    | reserved a r ttl_ms at_ms =>
      rw [granted_reserved]
      -- A reservation of the agent is its last one from then on; one of another agent changes
      -- nothing.
      by_cases ha : agent_id = a
      · subst ha
        rw [if_pos rfl]
        constructor
        · intro heq
          cases heq
          exact ⟨events, ttl_ms, at_ms, [], rfl, by simp, by simp, rfl⟩
        · intro hlast
          by_cases hr : request_id = r
          · -- The last reservation is the new one, as no reservation of the agent comes after it.
            subst hr
            obtain ⟨before, ttl_ms', at_ms', after, heq, hnew, -, rfl⟩ := hlast
            rcases List.eq_nil_or_concat after with rfl | ⟨after, last, rfl⟩
            · obtain ⟨-, hlast⟩ := List.append_inj' heq rfl
              cases hlast
              rfl
            · rw [List.concat_eq_append] at heq hnew
              rw [← List.cons_append, ← List.append_assoc] at heq
              obtain ⟨-, hlast⟩ := List.append_inj' heq rfl
              rw [← hlast] at hnew
              exact absurd (List.mem_append_right _ List.mem_cons_self) (hnew _ _ _)
          · have hother : ∀ ttl_ms' at_ms',
                LeaseEvent.reserved agent_id request_id ttl_ms' at_ms' ≠
                  .reserved agent_id r ttl_ms at_ms := by
              intro _ _ heq
              injection heq with _ heq
              exact hr heq
            exact absurd rfl ((hlast.of_snoc hother).2.1 r ttl_ms at_ms)
      · rw [if_neg ha, ih]
        have hother : ∀ other ttl_ms' at_ms',
            LeaseEvent.reserved agent_id other ttl_ms' at_ms' ≠ .reserved a r ttl_ms at_ms := by
          intro _ _ _ heq
          injection heq with heq
          exact ha heq
        exact ⟨fun h => h.snoc hother nofun, fun h => (h.of_snoc (hother _)).1⟩
    | released a r =>
      rw [granted_released]
      -- A release of the agent takes the reservation of its own request only.
      by_cases ha : agent_id = a
      · subst ha
        rw [if_pos rfl, Option.filter_eq_some_iff, ih]
        constructor
        · rintro ⟨hlast, hr⟩
          refine hlast.snoc nofun fun heq => ?_
          injection heq with _ heq
          exact absurd heq (by simpa using hr)
        · intro hlast
          obtain ⟨hbefore, -, hreleased⟩ := hlast.of_snoc nofun
          refine ⟨hbefore, ?_⟩
          simpa using fun heq => hreleased (by rw [heq])
      · rw [if_neg ha, ih]
        have hother : LeaseEvent.released agent_id request_id ≠ .released a r := by
          intro heq
          injection heq with heq
          exact ha heq
        exact ⟨fun h => h.snoc nofun hother, fun h => (h.of_snoc nofun).1⟩

end Histories

/-- The invariant of the store and its history: what is stored is what the history leaves, reservations
exclude one another, and a reservation that was not released is still stored or has expired. -/
structure Leased (w : LeaseWorld) : Prop where
  lookup_eq : ∀ agent_id, w.redis.reservations.lookup agent_id = granted w.events agent_id
  exclusive : Exclusive w.events
  stored_or_expired : ∀ before agent_id request_id ttl_ms at_ms after,
    w.events = before ++ .reserved agent_id request_id ttl_ms at_ms :: after →
    .released agent_id request_id ∉ after →
    granted w.events agent_id = some ⟨request_id, at_ms + ttl_ms⟩ ∨ at_ms + ttl_ms ≤ w.now_ms

section Steps

variable {w : LeaseWorld}

/-- Time passes. -/
theorem Leased.wait (h : Leased w) (elapsed : ℕ) :
    Leased { w with now_ms := w.now_ms + elapsed } where
  lookup_eq := h.lookup_eq
  exclusive := h.exclusive
  stored_or_expired before agent_id request_id ttl_ms at_ms after hevents hreleased := by
    rcases h.stored_or_expired before agent_id request_id ttl_ms at_ms after hevents hreleased with
      hstored | hexpired
    · exact .inl hstored
    · have hlater : at_ms + ttl_ms ≤ w.now_ms + elapsed := by omega
      exact .inr hlater

/-- A reservation succeeds: where an earlier one of the agent was not released, it has expired. -/
theorem Leased.reserve (h : Leased w) {agent_id request_id : String} {ttl_ms : ℤ}
    (hok : (w.redis.try_reserve_agent agent_id request_id ttl_ms w.now_ms).1 = true) :
    Leased { w with
      redis := (w.redis.try_reserve_agent agent_id request_id ttl_ms w.now_ms).2
      events := w.events ++ [.reserved agent_id request_id ttl_ms w.now_ms] } := by
  have hfree := (RedisClient.try_reserve_agent_fst.mp hok).2.2.2
  -- An earlier reservation that is still stored has no holder, so it has expired.
  have hearlier : ∀ before first first_ttl_ms first_ms after,
      w.events = before ++ .reserved agent_id first first_ttl_ms first_ms :: after →
      .released agent_id first ∉ after → first_ms + first_ttl_ms ≤ w.now_ms := by
    intro before first first_ttl_ms first_ms after hevents hreleased
    rcases h.stored_or_expired _ _ _ _ _ _ hevents hreleased with hstored | hexpired
    · by_contra hlive
      have hholder : w.redis.get_agent_reservation_holder agent_id w.now_ms = some first :=
        RedisClient.get_agent_reservation_holder_eq_some.mpr
          ⟨_, (h.lookup_eq agent_id).trans hstored, not_le.mp hlive⟩
      rw [hfree] at hholder
      cases hholder
    · exact hexpired
  refine ⟨fun a => ?_, ?_, ?_⟩
  · rw [RedisClient.lookup_try_reserve_agent hok, granted_reserved, h.lookup_eq]
  · intro before between after a first second first_ttl_ms second_ttl_ms first_ms second_ms hevents
    rcases List.eq_nil_or_concat after with rfl | ⟨after, last, rfl⟩
    · -- The second reservation is the new one.
      obtain ⟨hold, hlast⟩ := List.append_inj' hevents rfl
      cases hlast
      by_cases hreleased : .released agent_id first ∈ between
      · exact .inr hreleased
      · exact .inl (hearlier _ _ _ _ _ hold hreleased)
    · rw [List.concat_eq_append, ← List.cons_append, ← List.append_assoc] at hevents
      obtain ⟨hold, -⟩ := List.append_inj' hevents rfl
      exact h.exclusive _ _ _ _ _ _ _ _ _ _ hold
  · intro before a r first_ttl_ms first_ms after hevents hreleased
    rcases List.eq_nil_or_concat after with rfl | ⟨after, last, rfl⟩
    · obtain ⟨-, hlast⟩ := List.append_inj' hevents rfl
      cases hlast
      left
      dsimp only
      rw [granted_reserved, if_pos rfl]
    · rw [List.concat_eq_append] at hevents hreleased
      rw [← List.cons_append, ← List.append_assoc] at hevents
      obtain ⟨hold, -⟩ := List.append_inj' hevents rfl
      have hreleased' : .released a r ∉ after := fun hmem =>
        hreleased (List.mem_append_left _ hmem)
      by_cases ha : a = agent_id
      · subst ha
        exact .inr (hearlier _ _ _ _ _ hold hreleased')
      · refine (h.stored_or_expired _ _ _ _ _ _ hold hreleased').imp_left fun hstored => ?_
        dsimp only
        rw [granted_reserved, if_neg ha]
        exact hstored

/-- A release takes away the reservation of its own request only. -/
theorem Leased.release (h : Leased w) (agent_id request_id : String) :
    Leased { w with
      redis := w.redis.release_agent agent_id request_id
      events := w.events ++ [.released agent_id request_id] } := by
  -- A release adds no reservation, so exclusion is that of the events before.
  refine ⟨fun a => ?_, ?_, ?_⟩
  · rw [RedisClient.lookup_release_agent, granted_released, h.lookup_eq]
  · intro before between after a first second first_ttl_ms second_ttl_ms first_ms second_ms hevents
    rcases List.eq_nil_or_concat after with rfl | ⟨after, last, rfl⟩
    · obtain ⟨-, hlast⟩ := List.append_inj' hevents rfl
      cases hlast
    · rw [List.concat_eq_append, ← List.cons_append, ← List.append_assoc] at hevents
      obtain ⟨hold, -⟩ := List.append_inj' hevents rfl
      exact h.exclusive _ _ _ _ _ _ _ _ _ _ hold
  · intro before a r ttl_ms at_ms after hevents hreleased
    rcases List.eq_nil_or_concat after with rfl | ⟨after, last, rfl⟩
    · obtain ⟨-, hlast⟩ := List.append_inj' hevents rfl
      cases hlast
    · rw [List.concat_eq_append] at hevents hreleased
      rw [← List.cons_append, ← List.append_assoc] at hevents
      obtain ⟨hold, hlast⟩ := List.append_inj' hevents rfl
      obtain rfl : .released agent_id request_id = last := List.singleton_inj.mp hlast
      have hreleased' : .released a r ∉ after := fun hmem =>
        hreleased (List.mem_append_left _ hmem)
      refine (h.stored_or_expired _ _ _ _ _ _ hold hreleased').imp_left fun hstored => ?_
      dsimp only
      rw [granted_released, hstored]
      -- The release of the agent is another request's, as this reservation was not released.
      by_cases ha : a = agent_id
      · have hr : r ≠ request_id := by
          rintro rfl
          exact hreleased (List.mem_append_right _ (by rw [ha]; exact List.mem_cons_self))
        rw [if_pos ha, Option.filter_some, if_pos (by simpa using hr)]
      · rw [if_neg ha]

/-- Every call keeps the invariant. -/
theorem Leased.step (h : Leased w) (call : ℕ × ReservationCall) : Leased (w.step call) := by
  obtain ⟨elapsed, call⟩ := call
  have hwait := h.wait elapsed
  unfold LeaseWorld.step
  cases call with
  | try_reserve_agent agent_id request_id ttl_ms =>
    cases hok : (w.redis.try_reserve_agent agent_id request_id ttl_ms (w.now_ms + elapsed)).1 with
    | true =>
      dsimp only
      rw [hok, if_pos rfl]
      exact hwait.reserve hok
    | false =>
      dsimp only
      rw [hok, if_neg Bool.false_ne_true, RedisClient.try_reserve_agent_rejected hok]
      exact hwait
  | release_agent agent_id request_id => exact hwait.release agent_id request_id
  | is_agent_reserved _ => exact hwait
  | get_agent_reservation_holder _ => exact hwait

/-- Every history keeps the invariant. -/
theorem leased_run (start_ms : ℤ) (calls : List (ℕ × ReservationCall)) :
    Leased (LeaseWorld.run start_ms calls) := by
  refine List.foldlRecOn (motive := Leased) calls _ ⟨fun _ => rfl, ?_, ?_⟩ fun w h call _ =>
    h.step call
  · intro before between after a first second first_ttl_ms second_ttl_ms first_ms second_ms hevents
    simp at hevents
  · intro before a r ttl_ms at_ms after hevents
    simp at hevents

end Steps

/-- Reservations are exclusive leases: after every history of calls, no two reservations of an agent
overlap, the reported holder of an agent is the request that holds it, an agent is reserved when
some request holds it, and a release by a request that is not the holder changes neither report, now
or later. -/
theorem leases_exclude (start_ms : ℤ) (calls : List (ℕ × ReservationCall)) :
    let w := LeaseWorld.run start_ms calls
    Exclusive w.events ∧
      (∀ agent_id request_id,
        w.redis.get_agent_reservation_holder agent_id w.now_ms = some request_id ↔
          Holds w.events w.now_ms agent_id request_id) ∧
      (∀ agent_id, w.redis.is_agent_reserved agent_id w.now_ms = true ↔
        ∃ request_id, Holds w.events w.now_ms agent_id request_id) ∧
      ∀ agent_id request_id,
        w.redis.get_agent_reservation_holder agent_id w.now_ms ≠ some request_id →
        ∀ a later_ms, w.now_ms ≤ later_ms →
          (w.redis.release_agent agent_id request_id).get_agent_reservation_holder a later_ms =
            w.redis.get_agent_reservation_holder a later_ms ∧
          (w.redis.release_agent agent_id request_id).is_agent_reserved a later_ms =
            w.redis.is_agent_reserved a later_ms := by
  intro w
  have h : Leased w := leased_run start_ms calls
  have hholder : ∀ agent_id request_id,
      w.redis.get_agent_reservation_holder agent_id w.now_ms = some request_id ↔
        Holds w.events w.now_ms agent_id request_id := by
    intro agent_id request_id
    rw [RedisClient.get_agent_reservation_holder_eq_some, h.lookup_eq]
    simp only [granted_eq_some, Holds]
  refine ⟨h.exclusive, hholder, fun agent_id => ?_, ?_⟩
  · rw [RedisClient.is_agent_reserved_eq, Option.isSome_iff_exists]
    exact exists_congr (hholder agent_id)
  · intro agent_id request_id hother a later_ms hlater
    have hsame : (w.redis.release_agent agent_id request_id).get_agent_reservation_holder a later_ms =
        w.redis.get_agent_reservation_holder a later_ms := by
      -- What the release takes away was not live, now or later.
      refine Option.ext fun r => ?_
      rw [RedisClient.get_agent_reservation_holder_eq_some,
        RedisClient.get_agent_reservation_holder_eq_some, RedisClient.lookup_release_agent]
      by_cases ha : a = agent_id
      · subst ha
        rw [if_pos rfl]
        refine exists_congr fun expires_at_ms => and_congr_left fun hlive => ?_
        rw [Option.filter_eq_some_iff, and_iff_left_iff_imp]
        intro hstored
        -- A live reservation of the request would make it the holder now.
        have hr : r ≠ request_id := by
          rintro rfl
          refine hother (RedisClient.get_agent_reservation_holder_eq_some.mpr ⟨_, hstored, ?_⟩)
          omega
        simpa using hr
      · rw [if_neg ha]
    exact ⟨hsame, by rw [RedisClient.is_agent_reserved_eq, hsame, RedisClient.is_agent_reserved_eq]⟩

end SignalRoute
