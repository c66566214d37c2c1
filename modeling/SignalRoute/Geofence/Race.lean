import SignalRoute.Geofence.Protocol
import SignalRoute.Interaction.Pool

/-!
# The evaluator and the dwell checker on two threads

One thread evaluates positions, another makes dwell scans, and they take turns at any call to the
stores. `FenceRace.Consistent` says that the audit records of every device and fence are still a run
of visits, and that they still determine the stored state whenever no thread is between setting a
state and recording it.

The dwell checker writes `DWELL` over whatever is stored by then, and both components insert the
record of a state after they have set it. `late_dwell_not_consistent` is the schedule in which a
`DWELL` follows an `EXIT` and stays stored. `orderly_consistent` is the positive result, for the
runs in which `DWELL` is only written over `INSIDE` and the records are inserted in the order of the
states (`Orderly`). The invariant is `Agrees`: what the records and the store say of a fence, given
which states each thread has set and not yet recorded.
-/

namespace SignalRoute

open Store (HashOrder)
open Numeric (Double)
open Interaction (Prog Pool Protocol)
open Interaction.Prog (forEach ofExcept follows_bind follows_forEach follows_foldEach)

/-- The two threads. -/
inductive Component where
  | evaluator
  | checker
  deriving DecidableEq

/-- The arguments of one evaluation, and the order of its table of candidates. -/
structure Evaluation where
  order : HashOrder
  device_id : String
  old_h3 : ℤ
  new_h3 : ℤ
  lat : Double
  lon : Double
  timestamp_ms : ℤ

/-- What the two threads are to do, over a loaded registry. The devices have different fence keys, as
one device alone always has. -/
structure FenceRace where
  registry : FenceRegistry
  config : GeofenceConfig := {}
  event_topic : String
  orders : ℕ → HashOrder
  evaluations : List Evaluation
  scans : List ℤ
  loaded : registry.Loaded
  device_eq : ∀ e ∈ evaluations, ∀ e' ∈ evaluations, ∀ f f',
    fence_key e.device_id f = fence_key e'.device_id f' → e.device_id = e'.device_id

/-- The pair of a device and a fence that a call sets, and the state that it sets. -/
def FenceCall.sets {β : Type} : FenceCall β → Option (String × String × FenceState)
  | .set_fence_state device_id fence_id state _ => some (device_id, fence_id, state)
  | _ => none

/-- The record that a call inserts. -/
def FenceCall.inserts {β : Type} : FenceCall β → Option GeofenceEventRecord
  | .insert_geofence_event record => some record
  | _ => none

/-- The two threads over the stores. -/
abbrev RacePool : Type 1 := Pool Component FenceCall GeofenceStore Exception Unit

namespace RacePool

/-- What the next call of a thread sets. -/
def sets (P : RacePool) (i : Component) : Option (String × String × FenceState) :=
  match P.threads i with
  | .call c _ => c.sets
  | _ => none

/-- What the next call of a thread inserts. -/
def inserts (P : RacePool) (i : Component) : Option GeofenceEventRecord :=
  match P.threads i with
  | .call c _ => c.inserts
  | _ => none

/-- The next step of `i` keeps the order of a visit: `DWELL` is set on a fence that is stored `INSIDE`,
a `DWELL` is not inserted where the other thread is still to insert the `ENTER` before it, and an
`EXIT` not where the other thread is still to insert the `DWELL` before it. -/
structure Orderly (P : RacePool) (i : Component) : Prop where
  inside : ∀ d f, P.sets i = some (d, f, .DWELL) → P.state.state d f = .INSIDE
  after_enter : ∀ record, P.inserts i = some record → record.event_type = .DWELL →
    ∀ j ≠ i, ∀ other, P.inserts j = some other → other.device_id = record.device_id →
      other.fence_id = record.fence_id → other.event_type ≠ .ENTER
  after_dwell : ∀ record, P.inserts i = some record → record.event_type = .EXIT →
    ∀ j ≠ i, ∀ other, P.inserts j = some other → other.device_id = record.device_id →
      other.fence_id = record.fence_id → other.event_type ≠ .DWELL

end RacePool

namespace FenceRace

variable (race : FenceRace)

/-- The devices that are evaluated. -/
def Device (device_id : String) : Prop := ∃ e ∈ race.evaluations, e.device_id = device_id

/-- The program of each thread. -/
def program : Component → GeofenceProgram Unit
  | .evaluator => forEach race.evaluations fun e =>
      Evaluator.evaluate race.registry e.order race.event_topic e.device_id e.old_h3 e.new_h3 e.lat
        e.lon e.timestamp_ms
  | .checker => forEach race.scans fun now_ms =>
      (DwellChecker.check_once race.registry race.config race.event_topic now_ms).bind fun _ =>
        .pure ()

/-- Both threads at their start, over empty stores. -/
def start : RacePool := ⟨race.program, {}⟩

/-- Every pool that the guarded runs reach. -/
def Reached (G : RacePool → Component → Prop) : RacePool → Prop :=
  Pool.Reaches (GeofenceStore.handler race.orders) G race.start

/-- The two threads stay consistent: in every pool that the guarded runs reach, the records of each
device and fence are a run of visits up to some point, and while no thread is about to insert a
record, the stored state is the one that the last record leads to. -/
structure Consistent (G : RacePool → Component → Prop) : Prop where
  visits : ∀ P, race.Reached G P → ∀ d, race.Device d → ∀ f,
    VisitPrefix (typesOf d f P.state.events)
  state_eq : ∀ P, race.Reached G P → (∀ i, P.inserts i = none) → ∀ d, race.Device d → ∀ f,
    P.state.state d f = stateAfter (typesOf d f P.state.events).getLast?

end FenceRace

/-- How far a thread has come: between fences, with the states that it has listed last, having read a
state, having set a state that is still to be recorded, and having recorded it. -/
inductive RacePhase where
  | ready (listed : List FenceStateRecord)
  | read (device_id fence_id : String) (previous : FenceState)
  | recording (device_id fence_id : String) (state : FenceState) (listed : List FenceStateRecord)
  | producing (listed : List FenceStateRecord)

namespace RacePhase

/-- The states that a thread has listed and may come to. -/
def listed : RacePhase → List FenceStateRecord
  | .ready listed | .recording _ _ _ listed | .producing listed => listed
  | .read _ _ _ => []

/-- The state of a device and a fence that a thread has set and not yet recorded. -/
def pending (φ : RacePhase) (d f : String) : Option FenceState :=
  match φ with
  | .recording d' f' state _ => if d = d' ∧ f = f' then some state else none
  | _ => none

end RacePhase

namespace FenceRace

variable (race : FenceRace)

/-- The order of the calls of each thread. -/
def protocol (i : Component) : Protocol FenceCall RacePhase where
  allowed φ c :=
    match i, φ, c with
    | .evaluator, .ready _, .get_fence_state d _ => race.Device d
    | .evaluator, .read _ _ _, .get_fence_state d _ => race.Device d
    | .evaluator, .read d f previous, .set_fence_state d' f' state _ =>
      d' = d ∧ f' = f ∧ ∃ event, event ≠ .DWELL ∧ previous.next event = some state
    | .checker, .ready _, .list_fence_states state => state = .INSIDE
    | .checker, .ready listed, .set_fence_state d f state _ =>
      state = .DWELL ∧ ∃ record ∈ listed, record.device_id = d ∧ record.fence_id = f
    | _, .recording d f state _, .insert_geofence_event record =>
      record.device_id = d ∧ record.fence_id = f ∧ stateAfter (some record.event_type) = state
    | _, .producing _, .produce _ _ _ => True
    | _, _, _ => False
  next φ c answer :=
    match c, answer with
    | .list_fence_states _, records => .ready records
    | .get_fence_state d f, stored => .read d f (stored.getD .OUTSIDE)
    | .set_fence_state d f state _, _ => .recording d f state φ.listed
    | .insert_geofence_event _, .ok () => .producing φ.listed
    | .insert_geofence_event _, .error _ => .ready φ.listed
    | .produce _ _ _, _ => .ready φ.listed

/-- The phases in which a thread may end: nothing is left to be recorded. -/
def Resting : RacePhase → Prop
  | .ready _ | .read _ _ _ => True
  | _ => False

/-- Publishing a record of the state that was set keeps to the order. -/
theorem publish_event_follows (i : Component) (record : GeofenceEventRecord)
    (listed : List FenceStateRecord) :
    (publish_event race.event_topic record).Follows (race.protocol i)
      (fun _ φ => φ = .ready listed) (fun _ φ => φ = .ready listed)
      (.recording record.device_id record.fence_id (stateAfter (some record.event_type)) listed) := by
  unfold publish_event
  refine ⟨?_, fun inserted => ?_⟩
  · cases i <;> exact ⟨rfl, rfl, rfl⟩
  · cases inserted with
    | error e => rfl
    | ok _ =>
      refine ⟨?_, fun produced => ?_⟩
      · cases i <;> trivial
      · cases produced <;> rfl

/-- An evaluation keeps to the order. -/
theorem evaluate_follows {e : Evaluation} (he : e ∈ race.evaluations) {φ : RacePhase}
    (hφ : Resting φ) :
    (Evaluator.evaluate race.registry e.order race.event_topic e.device_id e.old_h3 e.new_h3 e.lat
      e.lon e.timestamp_ms).Follows (race.protocol .evaluator) (fun _ => Resting) (fun _ => Resting)
      φ := by
  unfold Evaluator.evaluate
  split
  · exact hφ
  refine follows_forEach (fun _ => Resting) _ (fun fence _ φ hφ => ?_) _ hφ
  -- Each candidate is read, and a crossing is set, recorded and produced.
  rw [Evaluator.evaluate_fence_eq]
  refine ⟨?_, fun stored => ?_⟩
  · cases φ with
    | ready _ => exact ⟨e, he, rfl⟩
    | read _ _ _ => exact ⟨e, he, rfl⟩
    | _ => exact hφ.elim
  · change Prog.Follows _ _ _ _ (RacePhase.read e.device_id fence.fence_id (stored.getD .OUTSIDE))
    simp only [Prog.pure_bind]
    cases hcross : Evaluator.crossing
        (geo.point_in_polygon e.lat e.lon fence.polygon_vertices) (stored.getD .OUTSIDE) with
    | none => trivial
    | some event =>
      refine ⟨⟨rfl, rfl, event, Evaluator.crossing_ne_dwell hcross,
        Evaluator.next_of_crossing hcross⟩, fun _ => ?_⟩
      refine (race.publish_event_follows .evaluator (Evaluator.make_event_record e.device_id fence
        event e.lat e.lon e.timestamp_ms) []).imp ?_ ?_
      · rintro _ _ rfl
        trivial
      · rintro _ _ rfl
        trivial

/-- A dwell scan keeps to the order. -/
theorem check_once_follows (now_ms : ℤ) (listed : List FenceStateRecord) :
    (DwellChecker.check_once race.registry race.config race.event_topic now_ms).Follows
      (race.protocol .checker) (fun _ φ => ∃ listed', φ = .ready listed') (fun _ => Resting)
      (.ready listed) := by
  unfold DwellChecker.check_once
  refine ⟨rfl, fun records => ?_⟩
  change Prog.Follows _ _ _ _ (RacePhase.ready records)
  -- All that is set is listed.
  refine (follows_foldEach (fun rest _ φ => φ = .ready records ∧ ∀ state ∈ rest, state ∈ records) _
    ?_ records 0 ⟨rfl, fun _ => id⟩).imp (fun _ _ hφ => ⟨records, hφ.1⟩) fun _ _ => id
  rintro state rest transitioned φ ⟨rfl, hrest⟩
  have hlater : ∀ state ∈ rest, state ∈ records := fun _ h => hrest _ (List.mem_cons_of_mem _ h)
  unfold DwellChecker.check_state
  cases hdue : DwellChecker.due race.registry race.config now_ms state with
  | none => exact ⟨rfl, hlater⟩
  | some fence =>
    obtain ⟨-, hid, -⟩ := DwellChecker.of_due race.loaded hdue
    have hpublish := race.publish_event_follows .checker
      (DwellChecker.make_dwell_record state fence now_ms) records
    change Prog.Follows _ _ _ _ (RacePhase.recording state.device_id fence.fence_id .DWELL records)
      at hpublish
    rw [hid] at hpublish
    simp only [Prog.bind_eq, follows_bind, Prog.follows_perform, Prog.pure_eq, Prog.follows_pure]
    refine ⟨⟨rfl, state, hrest _ List.mem_cons_self, rfl, rfl⟩, fun _ => ?_⟩
    refine hpublish.imp (fun _ φ hφ => ⟨hφ, hlater⟩) ?_
    rintro _ _ rfl
    trivial

/-- Both threads keep to their orders. -/
theorem program_follows (i : Component) :
    (race.program i).Follows (race.protocol i) (fun _ => Resting) (fun _ => Resting)
      (.ready []) := by
  cases i with
  | evaluator =>
    refine (follows_forEach (φ := RacePhase.ready [])
      (fun rest φ => (∀ e ∈ rest, e ∈ race.evaluations) ∧ Resting φ) _
      (fun e rest φ hφ => ?_) race.evaluations ⟨fun _ => id, trivial⟩).imp (fun _ _ => And.right)
      fun _ _ => id
    refine (race.evaluate_follows (hφ.1 e List.mem_cons_self) hφ.2).imp (fun _ φ' hφ' => ?_)
      fun _ _ => id
    exact ⟨fun e' he' => hφ.1 e' (List.mem_cons_of_mem _ he'), hφ'⟩
  | checker =>
    refine (follows_forEach (fun _ φ => ∃ listed, φ = .ready listed) _ ?_ race.scans
      ⟨[], rfl⟩).imp ?_ fun _ _ => id
    · rintro now_ms _ _ ⟨listed, rfl⟩
      rw [follows_bind]
      exact race.check_once_follows now_ms listed
    · rintro _ _ ⟨listed, rfl⟩
      trivial

end FenceRace

/-- What the records and the store say of one fence, where the evaluator has set the state `e` and the
checker the state `c`, and neither has recorded its state yet. -/
def Agrees (e c recorded : Option FenceState) (stored : FenceState) : Prop :=
  match e, c with
  | none, none => recorded = some stored
  | none, some .DWELL => recorded = some .INSIDE ∧ stored = .DWELL
  | some .INSIDE, none => recorded = some .OUTSIDE ∧ stored = .INSIDE
  | some .INSIDE, some .DWELL => recorded = some .OUTSIDE ∧ stored = .DWELL
  | some .OUTSIDE, none => (recorded = some .INSIDE ∨ recorded = some .DWELL) ∧ stored = .OUTSIDE
  | some .OUTSIDE, some .DWELL => recorded = some .INSIDE ∧ stored = .OUTSIDE
  | _, _ => False

namespace Agrees

variable {e c recorded : Option FenceState} {stored state previous : FenceState}
  {event : GeofenceEventType}

/-- The records are a run of visits. -/
theorem isSome (h : Agrees e c recorded stored) : ∃ s, recorded = some s := by
  unfold Agrees at h
  split at h
  · exact ⟨_, h⟩
  · exact ⟨_, h.1⟩
  · exact ⟨_, h.1⟩
  · exact ⟨_, h.1⟩
  · rcases h.1 with h | h <;> exact ⟨_, h⟩
  · exact ⟨_, h.1⟩
  · exact h.elim

/-- The evaluator sets the state of a crossing. What it read is still stored, unless the checker has
set `DWELL` since, and both are left by an `EXIT`. -/
theorem evaluator_sets (h : Agrees none c recorded stored)
    (hread : previous = stored ∨ previous = .INSIDE ∧ stored = .DWELL) (hevent : event ≠ .DWELL)
    (hnext : previous.next event = some state) : Agrees (some state) c recorded state := by
  unfold Agrees at h
  split at h
  · subst h
    rcases hread with rfl | ⟨rfl, rfl⟩
    · cases previous <;> cases event <;> cases hnext <;>
        first | exact (hevent rfl).elim | simp [Agrees]
    · cases event <;> cases hnext <;> first | exact (hevent rfl).elim | simp [Agrees]
  · obtain ⟨rfl, rfl⟩ := h
    rcases hread with rfl | ⟨rfl, -⟩ <;> cases event <;> cases hnext <;>
      first | exact (hevent rfl).elim | simp [Agrees]
  all_goals simp_all

/-- The checker sets `DWELL` over `INSIDE`. -/
theorem checker_sets (h : Agrees e none recorded .INSIDE) :
    Agrees e (some .DWELL) recorded .DWELL := by
  rcases e with _ | s
  · exact ⟨h, rfl⟩
  · cases s with
    | OUTSIDE => exact absurd h.2 (by decide)
    | INSIDE => exact ⟨h.1, rfl⟩
    | DWELL => exact h.elim

/-- The evaluator records its state, an `EXIT` not before a `DWELL` of the checker. -/
theorem evaluator_inserts (h : Agrees (some (stateAfter (some event))) c recorded stored)
    (hdwell : event = .EXIT → c ≠ some .DWELL) :
    Agrees none c (recorded.bind fun s => s.next event) stored := by
  rcases c with _ | s
  · cases event with
    | ENTER =>
      obtain ⟨rfl, rfl⟩ := h
      rfl
    | EXIT =>
      obtain ⟨rfl | rfl, rfl⟩ := h <;> rfl
    | DWELL => exact h.elim
  · cases s <;> cases event <;> first | exact h.elim | exact (hdwell rfl rfl).elim | skip
    obtain ⟨rfl, rfl⟩ := h
    exact ⟨rfl, rfl⟩

/-- The checker records its state, a `DWELL` not before an `ENTER` of the evaluator. -/
theorem checker_inserts (h : Agrees e (some (stateAfter (some event))) recorded stored)
    (henter : event = .DWELL → e ≠ some .INSIDE) :
    Agrees e none (recorded.bind fun s => s.next event) stored := by
  cases event with
  | DWELL =>
    rcases e with _ | s
    · obtain ⟨rfl, rfl⟩ := h
      rfl
    · cases s with
      | OUTSIDE =>
        obtain ⟨rfl, rfl⟩ := h
        exact ⟨.inr rfl, rfl⟩
      | INSIDE => exact (henter rfl rfl).elim
      | DWELL => exact h.elim
  | _ => rcases e with _ | s <;> [skip; cases s] <;> exact h.elim

end Agrees

/-- A state is pending from when it is set until it is recorded. -/
theorem RacePhase.pending_eq_some {φ : RacePhase} {d f : String} {state : FenceState} :
    φ.pending d f = some state ↔ ∃ listed, φ = .recording d f state listed := by
  unfold pending
  constructor
  · intro h
    split at h
    · rename_i d' f' state' listed
      split_ifs at h with hpair
      obtain ⟨rfl, rfl⟩ := hpair
      cases h
      exact ⟨listed, rfl⟩
    · cases h
  · rintro ⟨listed, rfl⟩
    simp

/-- The next call of a thread with a pending state inserts the record of it. -/
theorem RacePool.inserts_of_pending {race : FenceRace} {P : RacePool} {i : Component}
    {φ : RacePhase}
    (hf : (P.threads i).Follows (race.protocol i) (fun _ => FenceRace.Resting)
      (fun _ => FenceRace.Resting) φ) {d f : String} {state : FenceState}
    (hp : φ.pending d f = some state) :
    ∃ record, P.inserts i = some record ∧ record.device_id = d ∧ record.fence_id = f ∧
      stateAfter (some record.event_type) = state := by
  obtain ⟨listed, rfl⟩ := RacePhase.pending_eq_some.mp hp
  unfold inserts
  generalize P.threads i = p at hf ⊢
  cases p with
  | pure a => exact hf.elim
  | throw e => exact hf.elim
  | call c k =>
    obtain ⟨hc, -⟩ := hf
    cases c <;> cases i <;> first | exact hc.elim | exact ⟨_, rfl, hc⟩

namespace FenceRace

variable (race : FenceRace)

/-- The invariant: only evaluated devices have fence states, under their keys; the records and the
store agree up to what is pending; what the evaluator has read is still stored, or `DWELL` over it;
and the checker has listed states of evaluated devices. -/
structure Raced (φ : Component → RacePhase) (store : GeofenceStore) : Prop where
  key_eq : ∀ key record, store.redis.fence_states.lookup key = some record →
    race.Device record.device_id ∧ key = fence_key record.device_id record.fence_id
  agrees : ∀ d, race.Device d → ∀ f, Agrees ((φ .evaluator).pending d f)
    ((φ .checker).pending d f) (track (typesOf d f store.events)) (store.state d f)
  read : ∀ d f previous, φ .evaluator = .read d f previous → race.Device d ∧
    (previous = store.state d f ∨ previous = .INSIDE ∧ store.state d f = .DWELL)
  listed : ∀ i, ∀ record ∈ (φ i).listed, race.Device record.device_id

variable {race} {φ : Component → RacePhase} {store : GeofenceStore}

/-- The stored states after one of them is set. -/
theorem state_set {d d' : String} (hd : race.Device d) (hd' : race.Device d') (f f' : String)
    (s : FenceState) (timestamp_ms : ℤ) :
    GeofenceStore.state
        { store with redis := store.redis.set_fence_state d f s timestamp_ms } d' f' =
      if d' = d ∧ f' = f then s else store.state d' f' := by
  unfold GeofenceStore.state RedisClient.get_fence_state RedisClient.get_fence_state_record
  rw [RedisClient.lookup_set_fence_state]
  have hkey : fence_key d' f' = fence_key d f ↔ d' = d ∧ f' = f := by
    refine ⟨fun h => ?_, by rintro ⟨rfl, rfl⟩; rfl⟩
    obtain ⟨e, he, rfl⟩ := hd
    obtain ⟨e', he', rfl⟩ := hd'
    have heq := race.device_eq e' he' e he f' f h
    rw [heq] at h
    exact ⟨heq, fence_key_right_inj.mp h⟩
  by_cases hpair : d' = d ∧ f' = f
  · rw [if_pos hpair, if_pos (hkey.mpr hpair)]
    rfl
  · rw [if_neg hpair, if_neg (mt hkey.mp hpair)]

/-- A call that changes neither states nor records keeps the invariant. -/
theorem Raced.quiet (h : race.Raced φ store) {i : Component} {ψ : RacePhase}
    {store' : GeofenceStore} (hredis : store'.redis = store.redis)
    (hevents : store'.events = store.events) (hpending : ψ.pending = (φ i).pending)
    (hread : i = .evaluator → ∀ d f previous, ψ = .read d f previous →
      race.Device d ∧ previous = store.state d f)
    (hlisted : ∀ record ∈ ψ.listed, race.Device record.device_id) :
    race.Raced (Function.update φ i ψ) store' := by
  -- No record becomes due and none stops being due.
  have hpending' : ∀ j, (Function.update φ i ψ j).pending = (φ j).pending := by
    intro j
    by_cases hj : j = i
    · subst hj
      rw [Function.update_self, hpending]
    · rw [Function.update_of_ne hj]
  have hstate : ∀ d f, store'.state d f = store.state d f := by
    intro d f
    unfold GeofenceStore.state
    rw [hredis]
  refine ⟨fun key record hl => h.key_eq key record (hredis ▸ hl), fun d hd f => ?_,
    fun d f previous hφ => ?_, fun j => ?_⟩
  · -- The agreement of states and records, what was read, and what was listed.
    rw [hpending', hpending', hevents, hstate]
    exact h.agrees d hd f
  · rw [hstate]
    by_cases hi : Component.evaluator = i
    · subst hi
      rw [Function.update_self] at hφ
      exact (hread rfl d f previous hφ).imp_right .inl
    · rw [Function.update_of_ne hi] at hφ
      exact h.read d f previous hφ
  · by_cases hj : j = i
    · subst hj
      rwa [Function.update_self]
    · rw [Function.update_of_ne hj]
      exact h.listed j

/-- Setting a state keeps the keys. -/
theorem Raced.key_eq_set (h : race.Raced φ store) {d : String} (hd : race.Device d) (f : String)
    (s : FenceState) (timestamp_ms : ℤ) (key : String) (record : FenceStateRecord)
    (hl : (store.redis.set_fence_state d f s timestamp_ms).fence_states.lookup key = some record) :
    race.Device record.device_id ∧ key = fence_key record.device_id record.fence_id := by
  rw [RedisClient.lookup_set_fence_state] at hl
  split at hl
  · cases hl
    exact ⟨hd, ‹_›⟩
  · exact h.key_eq key record hl

/-- The evaluator sets the state of a crossing. -/
theorem Raced.evaluator_sets (h : race.Raced φ store) {d f : String} {previous state : FenceState}
    (hφ : φ .evaluator = .read d f previous) {event : GeofenceEventType} (hevent : event ≠ .DWELL)
    (hnext : previous.next event = some state) (timestamp_ms : ℤ) :
    race.Raced (Function.update φ .evaluator (.recording d f state []))
      { store with redis := store.redis.set_fence_state d f state timestamp_ms } := by
  obtain ⟨hd, hread⟩ := h.read d f previous hφ
  refine ⟨h.key_eq_set hd f state timestamp_ms, fun d' hd' f' => ?_, fun d' f' previous' hφ' => ?_,
    fun j => ?_⟩
  · have hagrees := h.agrees d' hd' f'
    rw [state_set hd hd', Function.update_self, Function.update_of_ne (by decide)]
    unfold RacePhase.pending
    -- Only the pair that is set has a record due that it did not have.
    by_cases hpair : d' = d ∧ f' = f
    · dsimp only
      rw [if_pos hpair, if_pos hpair]
      obtain ⟨rfl, rfl⟩ := hpair
      rw [hφ] at hagrees
      exact hagrees.evaluator_sets hread hevent hnext
    · dsimp only
      rw [if_neg hpair, if_neg hpair]
      rw [hφ] at hagrees
      exact hagrees
  · rw [Function.update_self] at hφ'
    cases hφ'
  · cases j with
    | evaluator =>
      rw [Function.update_self]
      exact fun record hrecord => absurd hrecord List.not_mem_nil
    | checker =>
      rw [Function.update_of_ne (by decide)]
      exact h.listed .checker

/-- The checker sets `DWELL` on a fence that is stored `INSIDE`. -/
theorem Raced.checker_sets (h : race.Raced φ store) {listed : List FenceStateRecord}
    (hφ : φ .checker = .ready listed) {d f : String} (hd : race.Device d)
    (hinside : store.state d f = .INSIDE) (timestamp_ms : ℤ) :
    race.Raced (Function.update φ .checker (.recording d f .DWELL listed))
      { store with redis := store.redis.set_fence_state d f .DWELL timestamp_ms } := by
  refine ⟨h.key_eq_set hd f .DWELL timestamp_ms, fun d' hd' f' => ?_, fun d' f' previous hφ' => ?_,
    fun j => ?_⟩
  · have hagrees := h.agrees d' hd' f'
    rw [state_set hd hd', Function.update_self, Function.update_of_ne (by decide)]
    rw [hφ] at hagrees
    -- The same for the checker, from `INSIDE`.
    by_cases hpair : d' = d ∧ f' = f
    · rw [if_pos hpair]
      obtain ⟨rfl, rfl⟩ := hpair
      rw [hinside] at hagrees
      have hpending : (RacePhase.recording d' f' .DWELL listed).pending d' f' = some .DWELL :=
        RacePhase.pending_eq_some.mpr ⟨listed, rfl⟩
      rw [hpending]
      exact hagrees.checker_sets
    · rw [if_neg hpair]
      have hpending : (RacePhase.recording d f .DWELL listed).pending d' f' = none := if_neg hpair
      rw [hpending]
      exact hagrees
  · rw [Function.update_of_ne (by decide)] at hφ'
    obtain ⟨hd', hread⟩ := h.read d' f' previous hφ'
    refine ⟨hd', ?_⟩
    rw [state_set hd hd']
    -- What the evaluator has read may now be old, but then it was `INSIDE` and is `DWELL`.
    by_cases hpair : d' = d ∧ f' = f
    · rw [if_pos hpair]
      obtain ⟨rfl, rfl⟩ := hpair
      rw [hinside] at hread
      exact .inr ⟨hread.elim id And.left, rfl⟩
    · rwa [if_neg hpair]
  · cases j with
    | evaluator =>
      rw [Function.update_of_ne (by decide)]
      exact h.listed .evaluator
    | checker =>
      have hlisted := h.listed .checker
      rw [hφ] at hlisted
      rw [Function.update_self]
      exact hlisted

/-- A thread inserts the record of the state that it has set. -/
theorem Raced.inserts (h : race.Raced φ store) {i : Component} {record : GeofenceEventRecord}
    {listed : List FenceStateRecord}
    (hφ : φ i = .recording record.device_id record.fence_id (stateAfter (some record.event_type))
      listed)
    (henter : record.event_type = .DWELL → ∀ j ≠ i,
      (φ j).pending record.device_id record.fence_id ≠ some .INSIDE)
    (hdwell : record.event_type = .EXIT → ∀ j ≠ i,
      (φ j).pending record.device_id record.fence_id ≠ some .DWELL) :
    race.Raced (Function.update φ i (.producing listed))
      { store with pg := store.pg.insert_geofence_event record } := by
  refine ⟨h.key_eq, fun d hd f => ?_, fun d f previous hφ' => ?_, fun j => ?_⟩
  · have hagrees := h.agrees d hd f
    change Agrees _ _ (track (typesOf d f (store.events ++ [record]))) (store.state d f)
    -- The record that was due is inserted, after the other thread's if that one is due as well.
    by_cases hpair : d = record.device_id ∧ f = record.fence_id
    · obtain ⟨rfl, rfl⟩ := hpair
      have hpending : (φ i).pending record.device_id record.fence_id =
          some (stateAfter (some record.event_type)) := RacePhase.pending_eq_some.mpr ⟨listed, hφ⟩
      unfold typesOf at hagrees ⊢
      rw [recordsOf_append_self rfl rfl, List.map_append, List.map_singleton,
        track_append_singleton]
      cases i with
      | evaluator =>
        rw [hpending] at hagrees
        rw [Function.update_self, Function.update_of_ne (by decide)]
        exact hagrees.evaluator_inserts fun hexit => hdwell hexit .checker (by decide)
      | checker =>
        rw [hpending] at hagrees
        rw [Function.update_self, Function.update_of_ne (by decide)]
        exact hagrees.checker_inserts fun hdwell => henter hdwell .evaluator (by decide)
    · have hpending : (φ i).pending d f = none := by
        rw [hφ]
        exact if_neg hpair
      unfold typesOf at hagrees ⊢
      rw [recordsOf_append_of_ne fun hr => hpair ⟨hr.1.symm, hr.2.symm⟩]
      cases i with
      | evaluator =>
        rw [hpending] at hagrees
        rwa [Function.update_self, Function.update_of_ne (by decide)]
      | checker =>
        rw [hpending] at hagrees
        rwa [Function.update_self, Function.update_of_ne (by decide)]
  · cases i with
    | evaluator =>
      rw [Function.update_self] at hφ'
      cases hφ'
    | checker =>
      rw [Function.update_of_ne (by decide)] at hφ'
      exact h.read d f previous hφ'
  · by_cases hj : j = i
    · subst hj
      have hlisted := h.listed j
      rw [hφ] at hlisted
      rw [Function.update_self]
      exact hlisted
    · rw [Function.update_of_ne hj]
      exact h.listed j

/-- One call of an orderly run keeps the invariant. -/
theorem Raced.call {P : RacePool} (h : race.Raced φ P.state)
    (hf : ∀ j, (P.threads j).Follows (race.protocol j) (fun _ => Resting) (fun _ => Resting) (φ j))
    {i : Component} (hg : P.Orderly i) {β : Type} {c : FenceCall β} {k : β → GeofenceProgram Unit}
    (hi : P.threads i = .call c k) (hc : (race.protocol i).allowed (φ i) c) :
    race.Raced
      (Function.update φ i
        ((race.protocol i).next (φ i) c ((GeofenceStore.handler race.orders).run c P.state).1))
      ((GeofenceStore.handler race.orders).run c P.state).2 := by
  have hsets : P.sets i = c.sets := by
    unfold RacePool.sets
    rw [hi]
  have hinserts : P.inserts i = c.inserts := by
    unfold RacePool.inserts
    rw [hi]
  -- By the call, and by the phases in which the order allows it.
  cases c with
  | list_fence_states state =>
    cases i <;> cases hφ : φ _ <;> rw [hφ] at hc <;> try exact hc.elim
    refine h.quiet rfl rfl (by rw [hφ]; rfl) nofun fun record hrecord => ?_
    obtain ⟨key, hl⟩ := (race.orders _).mem_values.mp (List.mem_filter.mp hrecord).1
    exact (h.key_eq key record hl).1
  | get_fence_state d f =>
    have hread : ∀ d' f' previous,
        RacePhase.read d f ((P.state.redis.get_fence_state d f).getD .OUTSIDE) =
          .read d' f' previous → race.Device d → race.Device d' ∧ previous = P.state.state d' f' := by
      rintro d' f' previous heq hd
      cases heq
      exact ⟨hd, rfl⟩
    cases i <;> cases hφ : φ _ <;> rw [hφ] at hc <;> try exact hc.elim
    · exact h.quiet rfl rfl (by rw [hφ]; rfl) (fun _ d' f' p heq => hread d' f' p heq hc) nofun
    · exact h.quiet rfl rfl (by rw [hφ]; rfl) (fun _ d' f' p heq => hread d' f' p heq hc) nofun
  | set_fence_state d f state timestamp_ms =>
    cases i <;> cases hφ : φ _ <;> rw [hφ] at hc <;> try exact hc.elim
    · obtain ⟨rfl, rfl, event, hevent, hnext⟩ := hc
      exact h.evaluator_sets hφ hevent hnext timestamp_ms
    · obtain ⟨rfl, record, hrecord, rfl, rfl⟩ := hc
      refine h.checker_sets hφ ?_ (hg.inside _ _ hsets) timestamp_ms
      exact h.listed .checker record (by rw [hφ]; exact hrecord)
  | insert_geofence_event record =>
    cases hφ : φ i <;> rw [hφ] at hc <;> try (cases i <;> exact hc.elim)
    rename_i d f state listed
    obtain ⟨rfl, rfl, rfl⟩ : record.device_id = d ∧ record.fence_id = f ∧
        stateAfter (some record.event_type) = state := by cases i <;> exact hc
    -- The conditions on the run say that the other thread's record is not overtaken.
    refine h.inserts hφ (fun hdwell j hj hp => ?_) fun hexit j hj hp => ?_
    · obtain ⟨other, ho, hod, hof, hstate⟩ := RacePool.inserts_of_pending (hf j) hp
      refine hg.after_enter record hinserts hdwell j hj other ho hod hof ?_
      revert hstate
      cases other.event_type <;> simp [stateAfter]
    · obtain ⟨other, ho, hod, hof, hstate⟩ := RacePool.inserts_of_pending (hf j) hp
      refine hg.after_dwell record hinserts hexit j hj other ho hod hof ?_
      revert hstate
      cases other.event_type <;> simp [stateAfter]
  | produce topic key payload =>
    cases hφ : φ i <;> rw [hφ] at hc <;> try (cases i <;> exact hc.elim)
    refine h.quiet rfl rfl (by rw [hφ]; rfl) nofun ?_
    have hlisted := h.listed i
    rw [hφ] at hlisted
    exact hlisted

/-- Every pool that orderly runs reach satisfies the invariant. -/
theorem reached_inv {P : RacePool} (hP : race.Reached RacePool.Orderly P) :
    Pool.Inv race.protocol (fun _ _ => Resting) (fun _ _ => Resting) race.Raced P := by
  refine hP.invariant ⟨fun _ => .ready [], race.program_follows, ?_⟩ fun Q i hQ hg =>
    hQ.step i fun φ _ c k hf hJ hi hc => hJ.call hf hg hi hc
  refine ⟨fun _ _ hl => ?_, fun _ _ _ => rfl, fun _ _ _ hφ => ?_,
    fun _ _ hrecord => absurd hrecord List.not_mem_nil⟩
  · cases hl
  · cases hφ

/-- The evaluator and the dwell checker stay consistent in every orderly run. -/
theorem orderly_consistent (race : FenceRace) : race.Consistent RacePool.Orderly where
  visits P hP d hd f := by
    obtain ⟨φ, -, hJ⟩ := reached_inv hP
    exact visitPrefix_iff.mpr (hJ.agrees d hd f).isSome
  state_eq P hP hidle d hd f := by
    obtain ⟨φ, hf, hJ⟩ := reached_inv hP
    have hnone : ∀ i, (φ i).pending d f = none := by
      intro i
      rw [Option.eq_none_iff_forall_ne_some]
      intro state hp
      obtain ⟨record, hrecord, -⟩ := RacePool.inserts_of_pending (hf i) hp
      rw [hidle i] at hrecord
      cases hrecord
    have hagrees := hJ.agrees d hd f
    rw [hnone, hnone] at hagrees
    exact eq_stateAfter_of_track hagrees

end FenceRace

/-- A fence over the square from 0 to 1 degrees, in one cell. -/
def unitFence : GeofenceRule where
  fence_id := "f"
  polygon_vertices := [(.finite 0, .finite 0), (.finite 0, .finite 1), (.finite 1, .finite 1),
    (.finite 1, .finite 0)]
  h3_cells := {1}

/-- A device enters the fence and leaves it long after, while the fence states are scanned. -/
def lateScan : FenceRace where
  registry := FenceRegistry.load .insertion (PostgresClient.set_active_fences {} [unitFence])
  event_topic := "tm.geofence.events"
  orders _ := .insertion
  evaluations := [⟨.insertion, "d", 0, 1, .finite (1 / 2), .finite (1 / 2), 1000⟩,
    ⟨.insertion, "d", 1, 1, .finite 2, .finite 2, 900000⟩]
  scans := [900000]
  loaded := FenceRegistry.loaded_load _ _
  device_eq := by simp

/-- The scan lists the fence states while the device is inside, and comes to the fence when the device
has left it. -/
def lateDwell : List Component :=
  [.evaluator, .evaluator, .evaluator, .evaluator, .checker, .evaluator, .evaluator, .evaluator,
    .checker, .checker]

/-- The records are `ENTER`, `EXIT`, `DWELL`, and `DWELL` stays stored. -/
theorem late_dwell_not_consistent :
    ¬ lateScan.Consistent (fun _ _ => True) ∧
      let P := Pool.run (GeofenceStore.handler lateScan.orders) lateDwell lateScan.start
      typesOf "d" "f" P.state.events = [.ENTER, .EXIT, .DWELL] ∧ P.state.state "d" "f" = .DWELL := by
  have htypes : typesOf "d" "f" (Pool.run (GeofenceStore.handler lateScan.orders) lateDwell
      lateScan.start).state.events = [.ENTER, .EXIT, .DWELL] := by decide +kernel
  refine ⟨fun h => ?_, htypes, by decide +kernel⟩
  have hvisits := h.visits _ (Pool.reaches_run_true lateDwell) "d" ⟨_, List.mem_cons_self, rfl⟩ "f"
  rw [htypes, visitPrefix_iff] at hvisits
  obtain ⟨s, hs⟩ := hvisits
  cases hs

end SignalRoute
