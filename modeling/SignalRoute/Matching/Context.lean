import SignalRoute.Interaction.Prog
import SignalRoute.Types

/-!
# The match context

`src/matching/match_context.h` and the `TrackingMatchContext` of `matching_service.cpp`. A strategy
is a program over the calls of the context; it may stop with any exception. What it holds is defined
by its calls alone: the agents with a successful `reserve` that no `release` follows (`Held`).

The service gives the strategy a context that passes every call on and keeps a list of the agents
that are reserved. `always_tracking` says that this list is what the strategy holds (`Tracks`),
whatever the strategy does and whatever the context behind answers.
-/

namespace SignalRoute

open Numeric (Double)
open Interaction (Prog Handler)
open Interaction.Prog (perform foldEach always_bind always_foldEach)

/-- The calls of a `MatchContext`, and the system clock that the service and every strategy can read. A
search throws where the handler behind it does. -/
inductive MatchCall (D : Type) : Type → Type where
  | epoch_now_ms : MatchCall D ℤ
  | reserve (agent_id : String) : MatchCall D Bool
  | release (agent_id : String) : MatchCall D Unit
  | nearby (lat lon radius_m : Double) (limit : ℤ) :
    MatchCall D (Except Exception (List (MatchCandidate D)))
  | time_remaining_ms : MatchCall D ℤ
  | request_id : MatchCall D String

/-- A program of the matching service. -/
abbrev MatchProgram (D α : Type) : Type 1 := Prog (MatchCall D) Exception α

/-- `IMatchStrategy::match`. -/
abbrev MatchStrategy (D : Type) : Type 1 :=
  MatchRequest → List (MatchCandidate D) → MatchProgram D (List String)

/-- What happens to a reservation, with a stamp for when an agent is reserved. -/
inductive ReservationEvent (T : Type) where
  | reserved (agent_id : String) (stamp : T)
  | released (agent_id : String)

/-- The agent of an event. -/
def ReservationEvent.agent_id {T : Type} : ReservationEvent T → String
  | .reserved agent_id _ | .released agent_id => agent_id

/-- The successful reservations and the releases among the calls, stamped with a part of the state. -/
def reservation_event {D σ T : Type} (stamp : σ → T) {β : Type} :
    MatchCall D β → σ → β → Option (ReservationEvent T)
  | .reserve agent_id, s, ok => if ok then some (.reserved agent_id (stamp s)) else none
  | .release agent_id, _, _ => some (.released agent_id)
  | _, _, _ => none

section Held

variable {T : Type}

/-- An agent is held: it has been reserved, and not been released since. -/
def Held (log : List (ReservationEvent T)) (agent_id : String) : Prop :=
  ∃ before stamp after, log = before ++ .reserved agent_id stamp :: after ∧
    .released agent_id ∉ after

/-- The stamp of the last reservation of an agent that is held. -/
def held_since (log : List (ReservationEvent T)) (agent_id : String) : Option T :=
  log.foldl (fun since event =>
    match event with
    | .reserved id stamp => if id = agent_id then some stamp else since
    | .released id => if id = agent_id then none else since) none

variable {log : List (ReservationEvent T)} {agent_id : String}

/-- One more reservation. -/
theorem held_since_reserved (id : String) (stamp : T) :
    held_since (log ++ [.reserved id stamp]) agent_id =
      if id = agent_id then some stamp else held_since log agent_id := by
  unfold held_since
  rw [List.foldl_append]
  rfl

/-- One more release. -/
theorem held_since_released (id : String) :
    held_since (log ++ [.released id]) agent_id =
      if id = agent_id then none else held_since log agent_id := by
  unfold held_since
  rw [List.foldl_append]
  rfl

/-- An agent is held once it is reserved. -/
theorem held_reserved (id : String) (stamp : T) :
    Held (log ++ [.reserved id stamp]) agent_id ↔ id = agent_id ∨ Held log agent_id := by
  constructor
  · rintro ⟨before, stamp', after, hlog, hafter⟩
    rcases List.eq_nil_or_concat after with rfl | ⟨after, last, rfl⟩
    · obtain ⟨-, hlast⟩ := List.append_inj' hlog rfl
      cases hlast
      exact .inl rfl
    · rw [List.concat_eq_append] at hlog hafter
      rw [← List.cons_append, ← List.append_assoc] at hlog
      obtain ⟨hlog, -⟩ := List.append_inj' hlog rfl
      exact .inr ⟨before, stamp', after, hlog, fun h => hafter (List.mem_append_left _ h)⟩
  · rintro (rfl | ⟨before, stamp', after, rfl, hafter⟩)
    · exact ⟨log, stamp, [], rfl, List.not_mem_nil⟩
    · exact ⟨before, stamp', after ++ [.reserved id stamp], by simp, by simpa using hafter⟩

/-- An agent is no longer held once it is released. -/
theorem held_released (id : String) :
    Held (log ++ [.released id]) agent_id ↔ id ≠ agent_id ∧ Held log agent_id := by
  constructor
  · rintro ⟨before, stamp', after, hlog, hafter⟩
    rcases List.eq_nil_or_concat after with rfl | ⟨after, last, rfl⟩
    · obtain ⟨-, hlast⟩ := List.append_inj' hlog rfl
      cases hlast
    · rw [List.concat_eq_append] at hlog hafter
      rw [← List.cons_append, ← List.append_assoc] at hlog
      obtain ⟨hlog', hlast⟩ := List.append_inj' hlog rfl
      obtain rfl : .released id = last := List.singleton_inj.mp hlast
      refine ⟨?_, before, stamp', after, hlog', fun h => hafter (List.mem_append_left _ h)⟩
      rintro rfl
      exact hafter (List.mem_append_right _ List.mem_cons_self)
  · rintro ⟨hne, before, stamp', after, rfl, hafter⟩
    exact ⟨before, stamp', after ++ [.released id], by simp, by simpa [hafter] using hne.symm⟩

/-- Nothing is held at the start. -/
theorem not_held_nil : ¬ Held ([] : List (ReservationEvent T)) agent_id := by
  rintro ⟨before, stamp, after, hlog, -⟩
  exact absurd hlog (by simp)

/-- An agent is held when it is held since some stamp. -/
theorem held_iff : Held log agent_id ↔ ∃ stamp, held_since log agent_id = some stamp := by
  induction log using List.reverseRecOn with
  | nil => exact iff_of_false not_held_nil (by rintro ⟨_, h⟩; cases h)
  | append_singleton log event ih =>
    cases event with
    | reserved id stamp =>
      rw [held_reserved, held_since_reserved, ih]
      split <;> simp [*]
    | released id =>
      rw [held_released, held_since_released, ih]
      split <;> simp [*]

/-- An agent is not held when it is held since no stamp. -/
theorem not_held_iff : ¬ Held log agent_id ↔ held_since log agent_id = none := by
  rw [held_iff, Option.eq_none_iff_forall_ne_some, not_exists]

end Held

namespace TrackingMatchContext

variable {D : Type}

/-- The list after a `reserve` with this answer. -/
def after_reserve (reserved : List String) (agent_id : String) (ok : Bool) : List String :=
  if ok ∧ agent_id ∉ reserved then reserved ++ [agent_id] else reserved

/-- The agents of the list after a `reserve`. -/
theorem mem_after_reserve {reserved : List String} {agent_id : String} {ok : Bool} {id : String} :
    id ∈ after_reserve reserved agent_id ok ↔ ok = true ∧ agent_id = id ∨ id ∈ reserved := by
  unfold after_reserve
  split
  · rename_i hnew
    rw [List.mem_append, List.mem_singleton, or_comm, eq_comm, and_iff_right hnew.1]
  · rename_i hold
    refine ⟨.inr, fun h => h.elim ?_ fun h => h⟩
    rintro ⟨hok, rfl⟩
    exact not_not.mp fun hmem => hold ⟨hok, hmem⟩

/-- A call of the strategy, passed on to the context behind, with the list of reserved agents. -/
def call {β : Type} (c : MatchCall D β) (reserved : List String) :
    MatchProgram D (β × List String) :=
  match c with
  | .epoch_now_ms => do
    let now_ms ← perform .epoch_now_ms
    return (now_ms, reserved)
  | .reserve agent_id => do
    let ok ← perform (.reserve agent_id)
    return (ok, after_reserve reserved agent_id ok)
  | .release agent_id => do
    perform (.release agent_id)
    return ((), reserved.filter (· ≠ agent_id))
  | .nearby lat lon radius_m limit => do
    let found ← perform (.nearby lat lon radius_m limit)
    return (found, reserved)
  | .time_remaining_ms => do
    let remaining ← perform .time_remaining_ms
    return (remaining, reserved)
  | .request_id => do
    let id ← perform .request_id
    return (id, reserved)

/-- `release`. -/
def release (reserved : List String) (agent_id : String) : MatchProgram D (List String) := do
  let ((), reserved) ← call (.release agent_id) reserved
  return reserved

/-- `release_all`. -/
def release_all (reserved : List String) : MatchProgram D (List String) :=
  foldEach reserved reserved release

/-- `release_unassigned`. -/
def release_unassigned (assigned_agent_ids reserved : List String) :
    MatchProgram D (List String) :=
  foldEach reserved reserved fun reserved agent_id =>
    if agent_id ∈ assigned_agent_ids then .pure reserved else release reserved agent_id

/-- `owns_all`. -/
def owns_all (reserved agent_ids : List String) : Bool :=
  agent_ids.all fun agent_id => agent_id ≠ "" && reserved.contains agent_id

end TrackingMatchContext

/-- The list of the tracking context is what the calls hold. -/
def Tracks {T : Type} (reserved : List String) (log : List (ReservationEvent T)) : Prop :=
  ∀ agent_id, agent_id ∈ reserved ↔ Held log agent_id

/-- All ids of a list are those of agents that are held. -/
def HoldsAll {T : Type} (log : List (ReservationEvent T)) (agent_ids : List String) : Prop :=
  ∀ agent_id ∈ agent_ids, agent_id ≠ "" ∧ Held log agent_id

section Tracking

variable {D σ T : Type} {h : Handler (MatchCall D) σ} {stamp : σ → T}
  {reserved : List String} {s : σ × List (ReservationEvent T)}

/-- `owns_all` decides whether all ids are held. -/
theorem Tracks.owns_all_iff (ht : Tracks reserved s.2) (agent_ids : List String) :
    TrackingMatchContext.owns_all reserved agent_ids = true ↔ HoldsAll s.2 agent_ids := by
  simp [TrackingMatchContext.owns_all, HoldsAll, ht _]

/-- Each call is passed on, and the list stays true. -/
theorem always_call {β : Type} (c : MatchCall D β) (ht : Tracks reserved s.2) :
    (TrackingMatchContext.call c reserved).Always
      (h.logged (reservation_event stamp)) (fun _ => True)
      (fun b s' => b.1 = ((h.logged (reservation_event stamp)).run c s).1 ∧
        s' = ((h.logged (reservation_event stamp)).run c s).2 ∧ Tracks b.2 s'.2)
      (fun _ _ => False) s := by
  cases c with
  | reserve agent_id =>
    -- A refused reservation adds nothing to the list and nothing to the log.
    refine ⟨trivial, rfl, rfl, fun id => ?_⟩
    rw [TrackingMatchContext.mem_after_reserve, ht id]
    dsimp only [Handler.logged, reservation_event]
    cases (h.run (.reserve agent_id) s.1).1 with
    | true => rw [if_pos rfl, Option.toList_some, held_reserved, and_iff_right rfl]
    | false => simp
  | release agent_id =>
    refine ⟨trivial, rfl, rfl, fun id => ?_⟩
    dsimp only [Handler.logged, reservation_event]
    rw [Option.toList_some, held_released, ← ht id, List.mem_filter, decide_eq_true_iff, and_comm,
      ne_comm]
  | _ =>
    refine ⟨trivial, rfl, rfl, fun id => ?_⟩
    dsimp only [Handler.logged, reservation_event]
    rw [Option.toList_none, List.append_nil]
    exact ht id

/-- Under the tracking context a strategy does what it does on the context behind, and the list is
what it holds at the end. -/
theorem always_tracking {α : Type} (p : MatchProgram D α) (ht : Tracks reserved s.2) :
    let run := p.exec (h.logged (reservation_event stamp)) s
    (p.translate TrackingMatchContext.call reserved : MatchProgram D _).Always
      (h.logged (reservation_event stamp)) (fun _ => True)
      (fun b s' => b.1 = run.result ∧ s' = run.final ∧ Tracks b.2 s'.2) (fun _ _ => False) s :=
  Prog.always_translate (fun reserved s => Tracks reserved s.2) TrackingMatchContext.call
    (fun c _ _ ht => always_call c ht) p reserved s ht

/-- A release. -/
theorem always_release (agent_id : String) (ht : Tracks reserved s.2) :
    (TrackingMatchContext.release reserved agent_id).Always
      (h.logged (reservation_event stamp)) (fun _ => True)
      (fun reserved' s' => Tracks reserved' s'.2 ∧
        ∀ id, held_since s'.2 id = if agent_id = id then none else held_since s.2 id)
      (fun _ _ => False) s := by
  unfold TrackingMatchContext.release
  rw [Prog.bind_eq, always_bind]
  refine (always_call _ ht).imp (fun _ => id) ?_ fun _ _ => id
  rintro ⟨⟨⟩, reserved'⟩ s' ⟨-, rfl, ht'⟩
  exact ⟨ht', fun id => held_since_released agent_id⟩

/-- Releasing what is not assigned leaves what is assigned. -/
theorem always_release_unassigned (assigned : List String) (ht : Tracks reserved s.2) :
    (TrackingMatchContext.release_unassigned assigned reserved).Always
      (h.logged (reservation_event stamp)) (fun _ => True)
      (fun _ s' => ∀ id, held_since s'.2 id = if id ∈ assigned then held_since s.2 id else none)
      (fun _ _ => False) s := by
  -- Of the agents that are not assigned, only those that are still to come can be held.
  refine (always_foldEach (fun rest reserved' s' => Tracks reserved' s'.2 ∧
    (∀ id ∈ assigned, held_since s'.2 id = held_since s.2 id) ∧
    ∀ id ∉ assigned, id ∉ rest → held_since s'.2 id = none) _ ?_ reserved reserved s
    ⟨ht, fun _ _ => rfl, fun id _ hid => ?_⟩).imp (fun _ => id) ?_ fun _ _ => id
  · rintro agent_id rest reserved' s' ⟨ht', hkept, hgone⟩
    by_cases hassigned : agent_id ∈ assigned
    · -- An assigned agent is skipped, and nothing is claimed of it.
      rw [if_pos hassigned]
      refine ⟨ht', hkept, fun id hid hrest => hgone id hid fun hmem => ?_⟩
      rcases List.mem_cons.mp hmem with rfl | hmem
      · exact hid hassigned
      · exact hrest hmem
    · rw [if_neg hassigned]
      refine (always_release agent_id ht').imp (fun _ => id) ?_ fun _ _ => id
      rintro reserved'' s'' ⟨ht'', hsince⟩
      refine ⟨ht'', fun id hid => ?_, fun id hid hrest => ?_⟩
      · -- The agent released is not an assigned one, so these keep their leases.
        have hne : agent_id ≠ id := by
          rintro rfl
          exact hassigned hid
        rw [hsince id, if_neg hne]
        exact hkept id hid
      · rw [hsince id]
        by_cases heq : agent_id = id
        · rw [if_pos heq]
        · rw [if_neg heq]
          exact hgone id hid fun hmem => (List.mem_cons.mp hmem).elim (fun h => heq h.symm) hrest
  · rw [← not_held_iff, ← ht id]
    exact hid
  · rintro _ s' ⟨-, hkept, hgone⟩ id
    by_cases hid : id ∈ assigned
    · rw [if_pos hid]
      exact hkept id hid
    · rw [if_neg hid]
      exact hgone id hid List.not_mem_nil

/-- Releasing everything leaves nothing. -/
theorem always_release_all (ht : Tracks reserved s.2) :
    (TrackingMatchContext.release_all reserved).Always
      (h.logged (reservation_event stamp)) (fun _ => True)
      (fun _ s' => ∀ id, ¬ Held s'.2 id) (fun _ _ => False) s := by
  have hall : TrackingMatchContext.release_all reserved =
      (TrackingMatchContext.release_unassigned [] reserved : MatchProgram D _) := by
    simp [TrackingMatchContext.release_all, TrackingMatchContext.release_unassigned]
  rw [hall]
  refine (always_release_unassigned [] ht).imp (fun _ => id) (fun _ s' hs' id => ?_) fun _ _ => id
  rw [not_held_iff, hs' id, if_neg List.not_mem_nil]

end Tracking

end SignalRoute
