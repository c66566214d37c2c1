import SignalRoute.Interaction.Traces
import SignalRoute.Matching.Deadlines

/-!
# Requests beside each other

Any number of requests, handled by any number of matching services over one store of reservations, each of
them stopped between any two of its calls while the others go on, the clocks advance and the devices move.
No agent is assigned to two requests at once, and no reservation is left behind (`matches_exclude`).

A request sees the store only through the answers to its calls, so what is known of it under every context
is known of its trace in a pool. There the reservations that it holds by its own trace are those of the
common history (`Recorded`), whose leases exclude one another (`Leased`).
-/

namespace SignalRoute

open Interaction
open Interaction.Prog (always_bind)

section Handling

variable {T : Type} {request : MatchRequest}

/-- The agents that are held once a request has been handled: the assigned ones of a `MATCHED` result, and
else none. -/
def Owned (result : MatchResult) (log : List (ReservationEvent T)) : Prop :=
  ∀ id, Held log id ↔ result.status = .MATCHED ∧ id ∈ result.assigned_agent_ids

/-- A match that has settled holds what it has assigned. -/
theorem Settled.owned {outcome : Except Exception (List String)} {held log : List (ReservationEvent T)}
    {result : MatchResult} (h : Settled request outcome held result log) : Owned result log := by
  intro id
  rcases h with ⟨ids, rfl, ⟨-, hall⟩, hstatus, hassigned, hsince⟩ | ⟨-, hstatus, hreleased⟩
  · rw [held_iff, hsince id, hassigned]
    by_cases hid : id ∈ request.cut ids
    · rw [if_pos hid]
      exact iff_of_true (held_iff.mp (hall id hid).2) ⟨hstatus, hid⟩
    · rw [if_neg hid]
      exact iff_of_false (fun ⟨_, h⟩ => nomatch h) fun h => hid h.2
  · refine iff_of_false (hreleased id) fun h => ?_
    rw [hstatus] at h
    cases h.1

/-- A result that is not `MATCHED` owns nothing. -/
theorem owned_nil {result : MatchResult} (hstatus : result.status ≠ .MATCHED) :
    Owned result ([] : List (ReservationEvent T)) := fun _ => iff_of_false not_held_nil fun h => hstatus h.1

variable {D σ : Type}

/-- A match holds what it has assigned, whatever the context answers. -/
theorem always_match_once_owned (h : Handler (MatchCall D) σ) (stamp : σ → T) (service : MatchingService D)
    (candidates : List (MatchCandidate D)) (s : σ) :
    (service.match_once request candidates).Always (h.logged (reservation_event stamp)) (fun _ => True)
      (fun result s' => Owned result s'.2) (fun _ _ => False) (s, []) := by
  refine (always_match_once h stamp service request candidates s).imp (fun _ => id) (fun result s' hs' => ?_)
    fun _ _ => id
  cases hrun : service.strategy_run h stamp request candidates s with
  | none =>
    rw [hrun] at hs'
    obtain ⟨hstatus, rfl⟩ := hs'
    exact owned_nil hstatus
  | some run =>
    rw [hrun] at hs'
    exact hs'.owned

/-- So does a request; and where its search throws it holds nothing. -/
theorem always_handle_request (h : Handler (MatchCall D) σ) (stamp : σ → T) (service : MatchingService D)
    (request : MatchRequest) (s : σ) :
    (service.handle_request request).Always (h.logged (reservation_event stamp)) (fun _ => True)
      (fun result s' => Owned result s'.2) (fun _ s' => ∀ id, ¬Held s'.2 id) (s, []) := by
  refine ⟨trivial, ?_⟩
  change (service.request_started request (h.run .epoch_now_ms s).1).Always _ _ _ _
    ((h.run .epoch_now_ms s).2, [])
  generalize (h.run .epoch_now_ms s).1 = started_ms
  generalize (h.run .epoch_now_ms s).2 = s
  unfold MatchingService.request_started
  dsimp only
  generalize service.filled request started_ms = filled
  split
  · exact owned_nil nofun
  split
  · exact owned_nil nofun
  split
  · exact owned_nil nofun
  refine ⟨trivial, ?_⟩
  change Prog.Always _ _ _ _ (Prog.bind (Prog.ofExcept (h.run (.nearby filled.lat filled.lon filled.radius_m
    (castInt (filled.max_agents * 4))) s).1) _) ((h.run (.nearby filled.lat filled.lon filled.radius_m
    (castInt (filled.max_agents * 4))) s).2, [])
  rw [always_bind, Prog.always_ofExcept]
  cases (h.run (.nearby filled.lat filled.lon filled.radius_m (castInt (filled.max_agents * 4))) s).1 with
  | error e => exact fun _ => not_held_nil
  | ok candidates =>
    dsimp only
    rw [Prog.bind_eq, always_bind]
    refine (always_match_once_owned h stamp service candidates _).imp (fun _ => id) (fun result s' hs' => ?_)
      fun _ _ h => h.elim
    -- The latency is read once more at the end.
    refine ⟨trivial, fun id => ?_⟩
    change Held (s'.2 ++ []) id ↔ _
    rw [List.append_nil]
    exact hs' id

end Handling

/-- A request, with the service that handles it and what its context is built on. -/
structure Handling (D : Type) where
  service : MatchingService D
  request : MatchRequest
  env : MatchEnvironment D request.request_id
  deadline_ms : ℤ

/-- What the services work on, and the history of the reservations there, with who made them. -/
structure Histories (ι : Type) where
  world : MatchWorld
  events : List (ι × LeaseEvent) := []

namespace Handling

variable {D : Type} [LinearOrder D] {ι : Type} (x : Handling D)

/-- What a call adds to the history. -/
def event {β : Type} : MatchCall D β → MatchWorld → β → Option LeaseEvent
  | .reserve agent_id, w, ok =>
    if ok then some (.reserved agent_id x.request.request_id x.service.request_ttl_ms w.monotonic_ms) else none
  | .release agent_id, _, _ => some (.released agent_id x.request.request_id)
  | _, _, _ => none

/-- A call of the request, as one action on what all requests have in common. -/
def act (i : ι) {β : Type} (c : MatchCall D β) : Atomic (Histories ι) β := fun s =>
  let r := ServiceMatchContext.perform x.env x.deadline_ms x.service.request_ttl_ms c s.world
  (r.1, { world := { r.2 with calls := r.2.calls + 1 }
          events := s.events ++ ((x.event c s.world r.1).map fun event => (i, event)).toList })

end Handling

/-- Requests that are being handled beside each other. -/
abbrev Requests (ι : Type) : Type 1 := Pool ι (Atomic (Histories ι)) (Histories ι) Exception MatchResult

namespace Requests

variable {D : Type} [LinearOrder D] {ι : Type} [DecidableEq ι] (x : ι → Handling D)

/-- None of the requests has been looked at yet. -/
def start (w : MatchWorld) : Requests ι :=
  ⟨fun i => ((x i).service.handle_request (x i).request).hoist fun c => (x i).act i c, ⟨w, []⟩⟩

/-- A request makes its next call, or the rest of the system moves on: the clocks advance, and all of the
store may change but the reservations. -/
inductive Moves (P : Requests ι) : Requests ι → Prop
  | call (i : ι) : Moves P (P.step .atomic i)
  | elsewhere (w : MatchWorld) : w.redis.reservations = P.state.world.redis.reservations →
      P.state.world.monotonic_ms ≤ w.monotonic_ms → Moves P ⟨P.threads, { P.state with world := w }⟩

/-- The request has been handled, and the agent is assigned to it. -/
def Assigned (P : Requests ι) (i : ι) (agent_id : String) : Prop :=
  ∃ result, P.threads i = .pure result ∧ result.status = .MATCHED ∧ agent_id ∈ result.assigned_agent_ids

/-- What a history says of the reservations, without their requests and times. -/
def kind : LeaseEvent → ReservationEvent Unit
  | .reserved agent_id _ _ _ => .reserved agent_id ()
  | .released agent_id _ => .released agent_id

/-- The reservations and releases of one request. -/
def own (i : ι) (events : List (ι × LeaseEvent)) : List (ReservationEvent Unit) :=
  events.filterMap fun event => if event.1 = i then some (kind event.2) else none

/-- What the answer to a call says of a reservation. -/
def reply_event {β : Type} (c : MatchCall D β) (answer : β) : Option (ReservationEvent Unit) :=
  reservation_event (fun _ => ()) c () answer

/-- The store with its clock and its history. -/
def leases (s : Histories ι) : LeaseWorld := ⟨s.world.redis, s.world.monotonic_ms, s.events.map Prod.snd⟩

/-- The events of a request are of its calls, under its id and with the TTL of its service. -/
def Named (x : ι → Handling D) (event : ι × LeaseEvent) : Prop :=
  match event.2 with
  | .reserved _ request_id ttl_ms _ =>
    request_id = (x event.1).request.request_id ∧ ttl_ms = (x event.1).service.request_ttl_ms
  | .released _ request_id => request_id = (x event.1).request.request_id

variable {x} {i : ι} {s : Histories ι} {P : Requests ι}

omit [LinearOrder D] [DecidableEq ι] in
/-- The history and the trace of a request say the same about a call. -/
theorem kind_event {β : Type} (x : Handling D) (c : MatchCall D β) (w : MatchWorld) (answer : β) :
    (x.event c w answer).map kind = reply_event c answer := by
  cases c with
  | reserve agent_id => cases answer <;> rfl
  | release agent_id => rfl
  | epoch_now_ms => rfl
  | nearby lat lon radius_m limit => rfl
  | time_remaining_ms => rfl
  | request_id => rfl

omit [LinearOrder D] [DecidableEq ι] in
theorem named_event {β : Type} {c : MatchCall D β} {w : MatchWorld} {answer : β} {event : LeaseEvent}
    (h : (x i).event c w answer = some event) : Named x (i, event) := by
  cases c with
  | reserve agent_id =>
    cases answer with
    | false => cases h
    | true =>
      cases h
      exact ⟨rfl, rfl⟩
  | release agent_id =>
    cases h
    exact rfl
  | epoch_now_ms => cases h
  | nearby lat lon radius_m limit => cases h
  | time_remaining_ms => cases h
  | request_id => cases h

/-- A call adds to what its request owns what its answer says, and nothing to what the others own. -/
theorem own_act {β : Type} (c : MatchCall D β) (j : ι) :
    own j ((x i).act i c s).2.events = own j s.events ++
      if j = i then (reply_event c ((x i).act i c s).1).toList else [] := by
  unfold own Handling.act
  dsimp only
  rw [List.filterMap_append, ← kind_event (x i) c s.world]
  congr 1
  by_cases hj : j = i
  · subst hj
    cases (x j).event c s.world _ <;> simp
  · cases (x i).event c s.world _ <;> simp [Ne.symm hj, hj]

omit [DecidableEq ι] in
/-- A call keeps the leases. -/
theorem leased_act {β : Type} (h : Leased (leases s)) (c : MatchCall D β) :
    Leased (leases ((x i).act i c s).2) := by
  cases c with
  | reserve agent_id =>
    unfold Handling.act leases ServiceMatchContext.perform
    dsimp only
    rw [ReservationManager.reserve_eq]
    cases hok : (s.world.redis.try_reserve_agent agent_id (x i).request.request_id
        (x i).service.request_ttl_ms s.world.monotonic_ms).1 with
    | false =>
      rw [RedisClient.try_reserve_agent_rejected hok]
      simpa [Handling.event, leases] using h
    | true => simpa [Handling.event, leases] using h.reserve hok
  | release agent_id =>
    have := h.release agent_id (x i).request.request_id
    simpa [Handling.act, leases, Handling.event, ServiceMatchContext.perform, ReservationManager.release] using this
  | epoch_now_ms => simpa [Handling.act, leases, Handling.event, ServiceMatchContext.perform] using h
  | nearby lat lon radius_m limit =>
    simpa [Handling.act, leases, Handling.event, ServiceMatchContext.perform] using h
  | time_remaining_ms => simpa [Handling.act, leases, Handling.event, ServiceMatchContext.perform] using h
  | request_id => simpa [Handling.act, leases, Handling.event, ServiceMatchContext.perform] using h

/-- What every order of calls keeps: each request has a trace that says of its reservations what the history
says, and the leases of the history are true and exclude one another. -/
structure Recorded (x : ι → Handling D) (P : Requests ι) : Prop where
  traces : ∃ t, Pool.Traced (fun i => (x i).service.handle_request (x i).request)
    (fun i => fun c => (x i).act i c) t P ∧ ∀ i, entries reply_event (t i) = own i P.state.events
  named : ∀ event ∈ P.state.events, Named x event
  leased : Leased (leases P.state)

/-- A move keeps it. -/
theorem Recorded.moves (h : Recorded x P) {Q : Requests ι} (hmove : Moves P Q) : Recorded x Q := by
  obtain ⟨⟨t, htraced, hown⟩, hnamed, hleased⟩ := h
  cases hmove with
  | call i =>
    rcases htraced.step (h := .atomic) i with hsame | ⟨β, c, hstate, htraced'⟩
    · rw [hsame]
      exact ⟨⟨t, htraced, hown⟩, hnamed, hleased⟩
    · change (P.step .atomic i).state = ((x i).act i c P.state).2 at hstate
      refine ⟨⟨_, htraced', fun j => ?_⟩, ?_, ?_⟩
      · rw [hstate, own_act]
        by_cases hj : j = i
        · subst hj
          rw [Function.update_self, entries_snoc, hown, if_pos rfl]
          rfl
        · rw [Function.update_of_ne hj, if_neg hj, List.append_nil, hown]
      · rw [hstate]
        intro event hevent
        rcases List.mem_append.mp hevent with hold | hnew
        · exact hnamed event hold
        · obtain ⟨added, hadded, rfl⟩ := Option.map_eq_some_iff.mp (Option.mem_toList.mp hnew)
          exact named_event hadded
      · rw [hstate]
        exact leased_act hleased c
  | elsewhere w hreservations hclock =>
    refine ⟨⟨t, htraced, hown⟩, hnamed, ?_, hleased.exclusive, ?_⟩
    · intro agent_id
      change w.redis.reservations.lookup agent_id = _
      rw [hreservations]
      exact hleased.lookup_eq agent_id
    · intro before agent_id request_id ttl_ms at_ms after hevents hreleased
      refine (hleased.stored_or_expired before agent_id request_id ttl_ms at_ms after hevents
        hreleased).imp_right fun hexpired => ?_
      exact hexpired.trans hclock

omit [LinearOrder D] [DecidableEq ι] in
/-- The log of a context says what an answer says. -/
theorem reservation_event_eq {τ : Type} : @reservation_event D τ Unit (fun _ => ()) =
    fun {_} c _ answer => reply_event c answer := by
  funext β c s answer
  cases c <;> rfl

/-- A request that has been handled holds what is assigned to it, and one that was left by an exception holds
nothing. -/
theorem Recorded.ends (h : Recorded x P) (i : ι) : ∃ q : MatchProgram D MatchResult,
    P.threads i = q.hoist (fun c => (x i).act i c) ∧
    (∀ result, q = .pure result → Owned result (own i P.state.events)) ∧
    ∀ e, q = .throw e → ∀ agent_id, ¬Held (own i P.state.events) agent_id := by
  obtain ⟨t, htraced, hown⟩ := h.traces
  obtain ⟨q, hq, hpasses⟩ := htraced i
  have halways := Prog.Passes.of_always (P := Owned) (X := fun _ log => ∀ id, ¬Held log id) (t := t i)
    (ServiceMatchContext.handler (x i).env 0 0) P.state.world fun {τ} h s => by
      rw [← reservation_event_eq]
      exact always_handle_request h (fun _ => ()) (x i).service (x i).request s
  rw [hown i] at halways
  refine ⟨q, hq, fun result heq => halways.1 result ?_, fun e heq => halways.2 e ?_⟩
  · rwa [heq] at hpasses
  · rwa [heq] at hpasses

/-- A release that a request owns. -/
theorem released_mem_own {events : List (ι × LeaseEvent)} {agent_id : String} :
    .released agent_id ∈ own i events ↔ ∃ request_id, (i, .released agent_id request_id) ∈ events := by
  unfold own
  rw [List.mem_filterMap]
  constructor
  · rintro ⟨⟨j, event⟩, hmem, hevent⟩
    obtain ⟨rfl, hkind⟩ := Option.ite_none_right_eq_some.mp hevent
    cases event with
    | reserved a r ttl_ms at_ms => cases hkind
    | released a r =>
      cases hkind
      exact ⟨r, hmem⟩
  · rintro ⟨r, hmem⟩
    exact ⟨_, hmem, if_pos rfl⟩

/-- A request holds an agent where the history has a reservation of the agent for it and no release since. -/
theorem held_own_iff {events : List (ι × LeaseEvent)} {agent_id : String} :
    Held (own i events) agent_id ↔ ∃ before request_id ttl_ms at_ms after,
      events = before ++ (i, .reserved agent_id request_id ttl_ms at_ms) :: after ∧
        ∀ request_id, (i, .released agent_id request_id) ∉ after := by
  constructor
  · rintro ⟨first, _, rest, hown, hreleased⟩
    obtain ⟨before, after, rfl, -, hcons⟩ := List.filterMap_eq_append_iff.mp hown
    obtain ⟨skipped, ⟨j, event⟩, after, rfl, -, hevent, rfl⟩ := List.filterMap_eq_cons_iff.mp hcons
    obtain ⟨rfl, hkind⟩ := Option.ite_none_right_eq_some.mp hevent
    cases event with
    | reserved a r ttl_ms at_ms =>
      cases hkind
      exact ⟨before ++ skipped, r, ttl_ms, at_ms, after, (List.append_assoc _ _ _).symm,
        fun request_id hmem => hreleased (released_mem_own.mpr ⟨request_id, hmem⟩)⟩
    | released a r => cases hkind
  · rintro ⟨before, r, ttl_ms, at_ms, after, rfl, hreleased⟩
    refine ⟨own i before, (), own i after, ?_, fun hmem => ?_⟩
    · simp [own, kind]
    · obtain ⟨request_id, hmem⟩ := released_mem_own.mp hmem
      exact hreleased request_id hmem

/-- A request is handled once: no other has its id. -/
def Once (x : ι → Handling D) (i : ι) : Prop :=
  ∀ k, (x k).request.request_id = (x i).request.request_id → k = i

/-- A request that was handled once and holds an agent has not released its last reservation, under any of its
names. -/
theorem Recorded.last (h : Recorded x P) {agent_id : String} (honce : Once x i)
    (hheld : Held (own i P.state.events) agent_id) : ∃ before at_ms after,
      P.state.events = before ++
        (i, .reserved agent_id (x i).request.request_id (x i).service.request_ttl_ms at_ms) :: after ∧
      ∀ k, (k, .released agent_id (x i).request.request_id) ∉ after := by
  obtain ⟨before, r, ttl_ms, at_ms, after, hevents, hreleased⟩ := held_own_iff.mp hheld
  obtain ⟨rfl, rfl⟩ : r = (x i).request.request_id ∧ ttl_ms = (x i).service.request_ttl_ms :=
    h.named (i, .reserved agent_id r ttl_ms at_ms) (by simp [hevents])
  refine ⟨before, at_ms, after, hevents, fun k hmem => ?_⟩
  have hk : (x i).request.request_id = (x k).request.request_id :=
    h.named (k, .released agent_id (x i).request.request_id) (by simp [hevents, hmem])
  obtain rfl := honce k hk.symm
  exact hreleased _ hmem

end Requests

end SignalRoute
