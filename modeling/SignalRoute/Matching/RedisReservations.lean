import SignalRoute.Clients.RedisServer
import SignalRoute.Interaction.Pool
import SignalRoute.Matching.Reservations
import Mathlib.Tactic.FinCases

/-!
# Reservations in Redis (hiredis build)

`try_reserve_agent` is one `SET` with `NX` and `PX`, and `release_agent` is a `GET` and then a
`DEL`. Any number of calls run as a pool over one server, command by command, while time passes; a
key is gone once its time is over. Between the two commands of a release the reservation can expire
and another request can reserve the agent, and the `DEL` then deletes that reservation
(`late_delete_frees_other`).

Where no reservation comes between the two commands of a release for another request
(`Undisturbed`), each command does what a call of the in-memory build does, on the same history
(`Refines`), and so reservations are exclusive leases here too (`undisturbed_leases_exclude`).
-/

namespace SignalRoute

open Store (UnorderedMap)
open Interaction (Prog Pool Handler)
open Interaction.Prog (perform)

/-- `reservation_key`. -/
def reservation_key (config : RedisConfig) (agent_id : String) : String :=
  key_prefix config ("reservation:" ++ agent_id)

/-- The commands of the reservation calls, and the passing of time. A `DEL` is labelled with the
request whose release sends it, for the history only. -/
inductive LeaseCommand : Type → Type where
  | SET_PX_NX (key value : String) (ttl_ms : ℤ) : LeaseCommand Bool
  | GET (key : String) : LeaseCommand (Option String)
  | DEL (key request_id : String) : LeaseCommand Unit
  | elapse (ms : ℕ) : LeaseCommand Unit

/-- The reservations of a server with the time at which each expires, its clock, and the history of
what has been reserved and released. -/
structure LeaseServer where
  keys : UnorderedMap String ReservationRecord := ∅
  now_ms : ℤ
  events : List LeaseEvent := []

deriving instance DecidableEq for LeaseEvent

namespace LeaseServer

/-- The reservation under a key that has not expired. -/
def live (server : LeaseServer) (key : String) : Option ReservationRecord :=
  (server.keys.lookup key).filter fun record => server.now_ms < record.expires_at_ms

/-- The server executes a command. -/
def execute {β : Type} : LeaseCommand β → LeaseServer → β × LeaseServer
  | .SET_PX_NX key value ttl_ms, server =>
    match server.live key with
    | some _ => (false, server)
    | none => (true, { server with
        keys := server.keys.insert key ⟨value, server.now_ms + ttl_ms⟩
        events := server.events ++ [.reserved key value ttl_ms server.now_ms] })
  | .GET key, server => ((server.live key).map ReservationRecord.request_id, server)
  | .DEL key request_id, server =>
    ((), { server with
      keys := server.keys.erase key
      events := server.events ++ [.released key request_id] })
  | .elapse ms, server => ((), { server with now_ms := server.now_ms + ms })

/-- What is live after some time was live before. -/
theorem live_of_elapse {server : LeaseServer} {ms : ℕ} {key : String} {record : ReservationRecord}
    (h : ({ server with now_ms := server.now_ms + ms } : LeaseServer).live key = some record) :
    server.live key = some record := by
  obtain ⟨hstored, hlater⟩ := Option.filter_eq_some_iff.mp h
  have hlive : server.now_ms + ms < record.expires_at_ms := by simpa using hlater
  refine Option.filter_eq_some_iff.mpr ⟨hstored, decide_eq_true ?_⟩
  omega

/-- What is live after a `DEL` was live before. -/
theorem live_of_erase {server : LeaseServer} {events : List LeaseEvent} {erased key : String}
    {record : ReservationRecord}
    (h : ({ server with keys := server.keys.erase erased, events } : LeaseServer).live key =
      some record) : server.live key = some record := by
  obtain ⟨hstored, hlive⟩ := Option.filter_eq_some_iff.mp h
  refine Option.filter_eq_some_iff.mpr ⟨?_, hlive⟩
  by_cases hkey : key = erased
  · rw [hkey, AList.lookup_erase] at hstored
    cases hstored
  · rwa [AList.lookup_erase_ne hkey] at hstored

/-- What is live after a `SET` is the new reservation, or was live before. -/
theorem live_of_insert {server : LeaseServer} {events : List LeaseEvent} {inserted key : String}
    {new record : ReservationRecord}
    (h : ({ server with keys := server.keys.insert inserted new, events } : LeaseServer).live key =
      some record) : key = inserted ∧ record = new ∨ server.live key = some record := by
  obtain ⟨hstored, hlive⟩ := Option.filter_eq_some_iff.mp h
  by_cases hkey : key = inserted
  · rw [hkey, AList.lookup_insert] at hstored
    exact .inl ⟨hkey, (Option.some.inj hstored).symm⟩
  · rw [AList.lookup_insert_ne hkey] at hstored
    exact .inr (Option.filter_eq_some_iff.mpr ⟨hstored, hlive⟩)

/-- The server as the handler of the commands. -/
def handler : Handler LeaseCommand LeaseServer := ⟨execute⟩

end LeaseServer

/-- A program of the client. -/
abbrev LeaseProgram (α : Type) : Type 1 := Prog LeaseCommand Exception α

namespace LeaseProgram

variable (config : RedisConfig)

/-- `try_reserve_agent`. -/
def try_reserve_agent (agent_id request_id : String) (ttl_ms : ℤ) : LeaseProgram Bool :=
  if agent_id = "" ∨ request_id = "" ∨ ttl_ms ≤ 0 then return false
  else perform (.SET_PX_NX (reservation_key config agent_id) request_id ttl_ms)

/-- `get_agent_reservation_holder`. -/
def get_agent_reservation_holder (agent_id : String) : LeaseProgram (Option String) :=
  perform (.GET (reservation_key config agent_id))

/-- `release_agent`. -/
def release_agent (agent_id request_id : String) : LeaseProgram Unit := do
  let holder ← get_agent_reservation_holder config agent_id
  if holder = some request_id then
    perform (.DEL (reservation_key config agent_id) request_id)

end LeaseProgram

/-- A call of a matching process, or the passing of some time. -/
inductive LeaseCall where
  | try_reserve_agent (agent_id request_id : String) (ttl_ms : ℤ)
  | release_agent (agent_id request_id : String)
  | elapse (ms : ℕ)

/-- The program of a call; the value is of interest for a reservation only. -/
def LeaseCall.program (config : RedisConfig) : LeaseCall → LeaseProgram Bool
  | .try_reserve_agent agent_id request_id ttl_ms =>
    LeaseProgram.try_reserve_agent config agent_id request_id ttl_ms
  | .release_agent agent_id request_id => do
    LeaseProgram.release_agent config agent_id request_id
    return true
  | .elapse ms => do
    perform (.elapse ms)
    return true

/-- The commands of a release. -/
theorem LeaseCall.program_release_agent (config : RedisConfig) (agent_id request_id : String) :
    (LeaseCall.release_agent agent_id request_id).program config =
      .call (.GET (reservation_key config agent_id)) fun holder =>
        if holder = some request_id then
          .call (.DEL (reservation_key config agent_id) request_id) fun _ => .pure true
        else .pure true := by
  refine congrArg (Prog.call (LeaseCommand.GET (reservation_key config agent_id)))
    (funext fun holder => ?_)
  by_cases hholder : holder = some request_id
  · simp only [Prog.pure_bind, if_pos hholder]
    rfl
  · simp only [Prog.pure_bind, if_neg hholder]
    rfl

/-- A pool of calls over a server. -/
abbrev LeasePool (ι : Type) : Type 1 := Pool ι LeaseCommand LeaseServer Exception Bool

namespace LeasePool

variable {ι : Type} (config : RedisConfig) (calls : ι → LeaseCall)

/-- The pool in which every call is at its start and nothing is reserved. -/
def start (now_ms : ℤ) : LeasePool ι := ⟨fun i => (calls i).program config, { now_ms }⟩

/-- A call is about to send its `DEL`. -/
def Deleting (P : LeasePool ι) (i : ι) : Prop :=
  match P.threads i with
  | .call (.DEL _ _) _ => True
  | _ => False

/-- The next step of `i` is no reservation of a free agent for another request than that of a
release that is about to delete the reservation of the agent. -/
def Undisturbed (P : LeasePool ι) (i : ι) : Prop :=
  ∀ agent_id request_id ttl_ms, calls i = .try_reserve_agent agent_id request_id ttl_ms →
    ¬P.Finished i → P.state.live (reservation_key config agent_id) = none →
    ∀ j other, calls j = .release_agent agent_id other → P.Deleting j → other = request_id

/-- A release that is about to delete a reservation deletes that of its own request, and
reservations are exclusive leases. -/
structure Safe (P : LeasePool ι) : Prop where
  own : ∀ j agent_id request_id, calls j = .release_agent agent_id request_id → P.Deleting j →
    ∀ record, P.state.live (reservation_key config agent_id) = some record →
      record.request_id = request_id
  exclusive : Exclusive P.state.events

end LeasePool

/-- Different agents have different keys. -/
theorem reservation_key_injective (config : RedisConfig) : Function.Injective (reservation_key config) := by
  intro a a' h
  unfold reservation_key key_prefix at h
  split at h
  · exact (String.append_right_inj _).mp h
  · exact (String.append_right_inj _).mp ((String.append_right_inj _).mp h)

/-- No key is empty. -/
theorem reservation_key_ne_empty (config : RedisConfig) (agent_id : String) :
    reservation_key config agent_id ≠ "" := by
  unfold reservation_key key_prefix
  split <;> simp

/-- The server does what the in-memory store does, with the keys for agents: the history is the
same, and so is what is reserved and has not expired. -/
structure Refines (server : LeaseServer) (w : LeaseWorld) : Prop where
  leased : Leased w
  now_ms : w.now_ms = server.now_ms
  events : w.events = server.events
  live : ∀ key, server.live key =
    (w.redis.reservations.lookup key).filter fun record => w.now_ms < record.expires_at_ms

namespace Refines

variable {server : LeaseServer} {w : LeaseWorld}

/-- An agent has a holder where its key is live. -/
theorem holder_eq_none_iff (h : Refines server w) (key : String) :
    w.redis.get_agent_reservation_holder key w.now_ms = none ↔ server.live key = none := by
  rw [h.live]
  unfold RedisClient.get_agent_reservation_holder reservation_expired_at
  cases w.redis.reservations.lookup key with
  | none => exact iff_of_true rfl rfl
  | some record =>
    by_cases hlive : record.expires_at_ms ≤ w.now_ms
    · simp [hlive]
    · simp [hlive]

/-- Time passes. -/
theorem elapse (h : Refines server w) (ms : ℕ) :
    Refines { server with now_ms := server.now_ms + ms } { w with now_ms := w.now_ms + ms } where
  leased := h.leased.wait ms
  now_ms := by rw [h.now_ms]
  events := h.events
  live key := by
    have hlive := congrArg (Option.filter fun record => w.now_ms + ms < record.expires_at_ms) (h.live key)
    -- What is live later is live now.
    have hlater : ∀ stored : Option ReservationRecord,
        (stored.filter fun record => w.now_ms < record.expires_at_ms).filter
          (fun record => w.now_ms + ms < record.expires_at_ms) =
        stored.filter fun record => w.now_ms + ms < record.expires_at_ms := by
      intro stored
      rw [Option.filter_filter]
      congr 1
      funext record
      have hle : w.now_ms + ms < record.expires_at_ms → w.now_ms < record.expires_at_ms := by omega
      simpa using hle
    unfold LeaseServer.live at hlive ⊢
    dsimp only
    rw [hlater, ← h.now_ms, hlater] at hlive
    rw [← h.now_ms]
    exact hlive

/-- A `SET` that finds the key free is a reservation that succeeds. -/
theorem reserve (h : Refines server w) {key request_id : String} {ttl_ms : ℤ} (hkey : key ≠ "")
    (hrequest : request_id ≠ "") (httl : 0 < ttl_ms) (hfree : server.live key = none) :
    Refines { server with
      keys := server.keys.insert key ⟨request_id, server.now_ms + ttl_ms⟩
      events := server.events ++ [.reserved key request_id ttl_ms server.now_ms] }
    { w with
      redis := (w.redis.try_reserve_agent key request_id ttl_ms w.now_ms).2
      events := w.events ++ [.reserved key request_id ttl_ms w.now_ms] } := by
  -- The in-memory store finds the agent free where the server finds the key free.
  have hok : (w.redis.try_reserve_agent key request_id ttl_ms w.now_ms).1 = true :=
    RedisClient.try_reserve_agent_fst.mpr
      ⟨hkey, hrequest, httl, (h.holder_eq_none_iff key).mpr hfree⟩
  refine ⟨h.leased.reserve hok, h.now_ms, ?_, fun key' => ?_⟩
  · rw [← h.events, ← h.now_ms]
  · have hlive := h.live key'
    unfold LeaseServer.live at hlive ⊢
    dsimp only
    rw [RedisClient.lookup_try_reserve_agent hok]
    by_cases hk : key' = key
    · subst hk
      rw [AList.lookup_insert, if_pos rfl, h.now_ms]
    · rw [AList.lookup_insert_ne hk, if_neg hk]
      exact hlive

/-- A `DEL` of a key that is live for the request at most is a release by it. -/
theorem release (h : Refines server w) {key request_id : String}
    (hown : ∀ record, server.live key = some record → record.request_id = request_id) :
    Refines { server with
      keys := server.keys.erase key
      events := server.events ++ [.released key request_id] }
    { w with
      redis := w.redis.release_agent key request_id
      events := w.events ++ [.released key request_id] } := by
  refine ⟨h.leased.release key request_id, h.now_ms, by rw [← h.events], fun key' => ?_⟩
  have hlive := h.live key'
  by_cases hk : key' = key
  · subst hk
    -- The in-memory store keeps a reservation of another request, and that one has expired.
    have hexpired : ∀ record, w.redis.reservations.lookup key' = some record →
        record.request_id ≠ request_id → ¬w.now_ms < record.expires_at_ms := by
      intro record hrecord hother hnow
      refine hother (hown record ?_)
      rw [hlive, hrecord, Option.filter_some, if_pos (by simpa using hnow)]
    unfold LeaseServer.live
    dsimp only
    rw [AList.lookup_erase, RedisClient.lookup_release_agent, if_pos rfl]
    refine (Option.filter_eq_none_iff.mpr fun record hrecord => ?_).symm
    obtain ⟨hstored, hr⟩ := Option.filter_eq_some_iff.mp hrecord
    simpa using hexpired record hstored (by simpa using hr)
  · unfold LeaseServer.live at hlive ⊢
    dsimp only
    rw [AList.lookup_erase_ne hk, RedisClient.lookup_release_agent, if_neg hk]
    exact hlive

end Refines

/-- Where a call can be: at its start, at the `DEL` of a release, or at its end. -/
inductive Stage (config : RedisConfig) : LeaseCall → LeaseProgram Bool → Prop
  | start (call : LeaseCall) : Stage config call (call.program config)
  | deleting (agent_id request_id : String) : Stage config (.release_agent agent_id request_id)
      (.call (.DEL (reservation_key config agent_id) request_id) fun _ => .pure true)
  | ended (call : LeaseCall) (answer : Bool) : Stage config call (.pure answer)

namespace LeasePool

variable {ι : Type} {config : RedisConfig} {calls : ι → LeaseCall} {P : LeasePool ι}

/-- The invariant of a pool: each call is at one of its stages, the server does what the in-memory
store does, and a release that is about to delete a reservation deletes its own. -/
structure Sound (config : RedisConfig) (calls : ι → LeaseCall) (P : LeasePool ι) : Prop where
  stage : ∀ i, Stage config (calls i) (P.threads i)
  refines : ∃ w, Refines P.state w
  own : ∀ j agent_id request_id, calls j = .release_agent agent_id request_id → P.Deleting j →
    ∀ record, P.state.live (reservation_key config agent_id) = some record →
      record.request_id = request_id

/-- At the start nothing is reserved. -/
theorem sound_start (now_ms : ℤ) : Sound config calls (start config calls now_ms) := by
  have hempty : ∀ key, ({ now_ms } : LeaseServer).live key = none := fun key => by
    simp [LeaseServer.live]
  refine ⟨fun i => .start _, ⟨{ now_ms }, ⟨leased_run now_ms [], rfl, rfl, fun key => ?_⟩⟩, ?_⟩
  · exact (hempty key).trans (by simp)
  · intro j a r _ _ record hrecord
    exact absurd ((hempty _).symm.trans hrecord) (Option.some_ne_none _).symm

variable [DecidableEq ι]

/-- A step of `i` after which the server does what the in-memory store does: what has to be seen is
that a release about to delete a reservation still deletes its own. -/
theorem Sound.update (hP : Sound config calls P) {i : ι} {thread : LeaseProgram Bool}
    {server : LeaseServer} (hstage : Stage config (calls i) thread) (hrefines : ∃ w, Refines server w)
    (hothers : ∀ j agent_id request_id, calls j = .release_agent agent_id request_id → P.Deleting j →
      ∀ record, server.live (reservation_key config agent_id) = some record →
        record.request_id = request_id ∨
          P.state.live (reservation_key config agent_id) = some record)
    (hself : ∀ agent_id request_id, calls i = .release_agent agent_id request_id →
      (∃ answer, thread = .pure answer) ∨
      ∃ record, server.live (reservation_key config agent_id) = some record ∧
        record.request_id = request_id) :
    Sound config calls ⟨Function.update P.threads i thread, server⟩ := by
  -- The others stand where they stood; what they are about to delete is theirs, or was live before.
  refine ⟨fun j => ?_, hrefines, fun j agent_id request_id hj hdeleting record hrecord => ?_⟩
  · by_cases hji : j = i
    · subst hji
      simpa using hstage
    · simpa [hji] using hP.stage j
  · by_cases hji : j = i
    · subst hji
      rcases hself agent_id request_id hj with ⟨answer, rfl⟩ | ⟨own, hown, hr⟩
      · simp [Deleting] at hdeleting
      · rw [hown] at hrecord
        cases hrecord
        exact hr
    · have hdeleting' : P.Deleting j := by simpa [Deleting, hji] using hdeleting
      rcases hothers j agent_id request_id hj hdeleting' record hrecord with hr | hlive
      · exact hr
      · exact hP.own j agent_id request_id hj hdeleting' record hlive

/-- Every undisturbed step keeps the invariant. -/
theorem Sound.step (hP : Sound config calls P) (i : ι) (hundisturbed : Undisturbed config calls P i) :
    Sound config calls (P.step LeaseServer.handler i) := by
  obtain ⟨w, hw⟩ := hP.refines
  have hstage := hP.stage i
  generalize hcall : calls i = call at hstage
  generalize hthread : P.threads i = thread at hstage
  cases hstage with
  | ended _ answer =>
    -- A call that has ended does nothing more.
    rw [Pool.step_of_finished (.inl ⟨answer, hthread⟩)]
    exact hP
  | deleting agent_id request_id =>
    -- The `DEL` of a release, which finds its own reservation or none.
    have hown := hP.own i agent_id request_id hcall (by unfold Deleting; rw [hthread]; trivial)
    rw [Pool.step_of_call hthread]
    refine hP.update (.ended _ true) ⟨_, hw.release hown⟩ ?_ fun _ _ _ => .inl ⟨true, rfl⟩
    exact fun j a other _ _ record hrecord => .inr (LeaseServer.live_of_erase hrecord)
  | start =>
    cases call with
    | elapse ms =>
      -- Time brings nothing to life.
      rw [Pool.step_of_call hthread]
      refine hP.update (.ended _ true) ⟨_, hw.elapse ms⟩ ?_ fun _ _ _ => .inl ⟨true, rfl⟩
      exact fun j a other _ _ record hrecord => .inr (LeaseServer.live_of_elapse hrecord)
    | release_agent agent_id request_id =>
      -- The `GET` of a release, which goes on to the `DEL` where the reservation is its own.
      rw [LeaseCall.program_release_agent] at hthread
      rw [Pool.step_of_call hthread]
      have hothers := fun j a other (_ : calls j = .release_agent a other) (_ : P.Deleting j) record
        (hrecord : P.state.live (reservation_key config a) = some record) =>
          Or.inr (a := record.request_id = other) hrecord
      change Sound config calls ⟨Function.update P.threads i (if (P.state.live
        (reservation_key config agent_id)).map ReservationRecord.request_id = some request_id then _
        else _), P.state⟩
      split
      · rename_i hholder
        -- The reservation is the request's own, which is what the `DEL` that follows has to find.
        obtain ⟨own, hown, hr⟩ := Option.map_eq_some_iff.mp hholder
        refine hP.update (by rw [hcall]; exact .deleting _ _) ⟨w, hw⟩ hothers fun a r hi => .inr ?_
        rw [hcall] at hi
        cases hi
        exact ⟨own, hown, hr⟩
      · exact hP.update (.ended _ true) ⟨w, hw⟩ hothers fun _ _ _ => .inl ⟨true, rfl⟩
    | try_reserve_agent agent_id request_id ttl_ms =>
      by_cases hargs : agent_id = "" ∨ request_id = "" ∨ ttl_ms ≤ 0
      · -- Arguments that are refused end the call before any command.
        have hended : P.threads i = .pure false := by
          rw [hthread]
          exact if_pos hargs
        rw [Pool.step_of_finished (.inl ⟨false, hended⟩)]
        exact hP
      · have hset : P.threads i = perform
            (.SET_PX_NX (reservation_key config agent_id) request_id ttl_ms) := by
          rw [hthread]
          exact if_neg hargs
        obtain ⟨-, hrequest, httl⟩ : _ ∧ request_id ≠ "" ∧ 0 < ttl_ms := by
          simpa using hargs
        rw [Pool.step_of_call hset]
        have hreleased : ∀ a r, calls i ≠ .release_agent a r := by
          intro a r hi
          rw [hcall] at hi
          cases hi
        cases hlive : P.state.live (reservation_key config agent_id) with
        | some record =>
          -- The agent is reserved, so the `SET` does nothing.
          have hsame : LeaseServer.handler.run (.SET_PX_NX (reservation_key config agent_id)
              request_id ttl_ms) P.state = (false, P.state) := by
            simp only [LeaseServer.handler, LeaseServer.execute, hlive]
          rw [hsame]
          exact hP.update (.ended _ false) ⟨w, hw⟩ (fun _ _ _ _ _ _ hrecord => .inr hrecord)
            fun a r hi => absurd hi (hreleased a r)
        | none =>
          -- The key is free, and the `SET` is a reservation of the in-memory store.
          have hnew : LeaseServer.handler.run (.SET_PX_NX (reservation_key config agent_id)
              request_id ttl_ms) P.state = (true, { P.state with
                keys := P.state.keys.insert (reservation_key config agent_id)
                  ⟨request_id, P.state.now_ms + ttl_ms⟩
                events := P.state.events ++ [.reserved (reservation_key config agent_id) request_id
                  ttl_ms P.state.now_ms] }) := by
            simp only [LeaseServer.handler, LeaseServer.execute, hlive]
          rw [hnew]
          refine hP.update (.ended _ true) ⟨_, hw.reserve (reservation_key_ne_empty config agent_id)
            hrequest httl hlive⟩ ?_ fun a r hi => absurd hi (hreleased a r)
          intro j a other hj hdeleting record hrecord
          rcases LeaseServer.live_of_insert hrecord with ⟨hkey, rfl⟩ | hbefore
          · -- A release of the agent in between is one of the same request.
            obtain rfl := reservation_key_injective config hkey
            have hrunning : ¬P.Finished i := by
              rintro (⟨answer, h⟩ | ⟨e, h⟩) <;> rw [hset] at h <;> cases h
            exact .inl (hundisturbed a request_id ttl_ms hcall hrunning hlive j other hj hdeleting).symm
          · exact .inr hbefore

/-- Reservations in Redis are exclusive leases, and a release deletes no other request's
reservation, in every interleaving in which no agent is reserved for another request while a release
of it is between its `GET` and its `DEL`. -/
theorem undisturbed_leases_exclude (config : RedisConfig) (calls : ι → LeaseCall) (now_ms : ℤ)
    (P : LeasePool ι)
    (h : Pool.Reaches LeaseServer.handler (Undisturbed config calls) (start config calls now_ms) P) :
    Safe config calls P := by
  have hP : Sound config calls P := h.invariant (sound_start now_ms) fun _ i hI hG => hI.step i hG
  obtain ⟨w, hw⟩ := hP.refines
  exact ⟨hP.own, hw.events ▸ hw.leased.exclusive⟩

/-- The calls of a witness: a request reserves an agent and releases it, then another reserves it. -/
def in_turn : Fin 3 → LeaseCall
  | 0 => .try_reserve_agent "a" "first" 10
  | 1 => .release_agent "a" "first"
  | 2 => .try_reserve_agent "a" "second" 10

/-- Two requests that reserve an agent one after the other. -/
theorem undisturbed_leases_exclude_in_turn :
    Safe {} in_turn ((start {} in_turn 0).run LeaseServer.handler [0, 1, 1, 2]) := by
  refine undisturbed_leases_exclude {} in_turn 0 _ (Pool.reaches_run ⟨?_, ?_, ?_, ?_, trivial⟩)
  · intro a r ttl _ _ _ j other hj hdeleting
    fin_cases j <;> exact hdeleting.elim
  · nofun
  · nofun
  · intro a r ttl _ _ _ j other hj hdeleting
    fin_cases j <;> exact hdeleting.elim

/-- The calls of a late `DEL`: the reservation of the first request expires, and the second reserves
the agent, before the first sends the `DEL` of its release. Then the third reserves the agent as
well. -/
def late_delete : Fin 5 → LeaseCall
  | 0 => .try_reserve_agent "a" "first" 10
  | 1 => .release_agent "a" "first"
  | 2 => .elapse 10
  | 3 => .try_reserve_agent "a" "second" 10
  | 4 => .try_reserve_agent "a" "third" 10

/-- In some interleavings a release frees the reservation of another request, and two requests hold one
agent. -/
theorem late_delete_frees_other : ¬ ∀ (config : RedisConfig) (calls : Fin 5 → LeaseCall) (now_ms : ℤ)
    (P : LeasePool (Fin 5)),
    Pool.Reaches LeaseServer.handler (fun _ _ => True) (start config calls now_ms) P →
      Safe config calls P := by
  intro hall
  have hsafe := hall {} late_delete 0 _ (Pool.reaches_run_true [0, 1, 2, 3, 1, 4])
  have hevents : ((start {} late_delete 0).run LeaseServer.handler [0, 1, 2, 3, 1, 4]).state.events =
      [.reserved (reservation_key {} "a") "first" 10 0] ++
        .reserved (reservation_key {} "a") "second" 10 10 ::
          [.released (reservation_key {} "a") "first"] ++
        .reserved (reservation_key {} "a") "third" 10 10 :: [] := by
    decide +kernel
  rcases hsafe.exclusive _ _ _ _ _ _ _ _ _ _ hevents with hexpired | hreleased
  · omega
  · simp at hreleased

end LeasePool

end SignalRoute
