import SignalRoute.Types
import Mathlib.Computability.Language

/-!
# The visits of a device to a fence

A visit is an `ENTER`, at most one `DWELL`, and an `EXIT`. The audit records of one device and one
fence are a run of visits, the last of which may still be going on: the prefixes of the words of
`visit∗`. `track` is the automaton of these prefixes, with the fence states as its states, so the
records determine the state in which the fence should be stored (`track_eq_some_iff`).
-/

namespace SignalRoute

open scoped Computability

/-- The fence state after one more event; nothing where the event is not one of a visit. -/
def FenceState.next : FenceState → GeofenceEventType → Option FenceState
  | .OUTSIDE, .ENTER => some .INSIDE
  | .INSIDE, .DWELL => some .DWELL
  | .INSIDE, .EXIT => some .OUTSIDE
  | .DWELL, .EXIT => some .OUTSIDE
  | _, _ => none

/-- The fence state after a list of events, from outside. -/
def track (events : List GeofenceEventType) : Option FenceState :=
  events.foldlM FenceState.next .OUTSIDE

/-- One visit. -/
def visit : Language GeofenceEventType := {[.ENTER]} * (1 + {[.DWELL]}) * {[.EXIT]}

/-- A run of visits, up to some point. -/
def VisitPrefix (events : List GeofenceEventType) : Prop := ∃ rest, events ++ rest ∈ visit∗

/-- The fence state that an event leads to; outside before the first one. -/
def stateAfter : Option GeofenceEventType → FenceState
  | none => .OUTSIDE
  | some .ENTER => .INSIDE
  | some .DWELL => .DWELL
  | some .EXIT => .OUTSIDE

/-- The two forms of a visit. -/
theorem mem_visit {w : List GeofenceEventType} :
    w ∈ visit ↔ w = [.ENTER, .EXIT] ∨ w = [.ENTER, .DWELL, .EXIT] := by
  unfold visit
  simp only [Language.mem_mul, Language.mem_add]
  constructor
  · rintro ⟨ab, ⟨a, rfl, b, rfl | rfl, rfl⟩, c, rfl, rfl⟩
    · exact .inl rfl
    · exact .inr rfl
  · rintro (rfl | rfl)
    · exact ⟨[.ENTER], ⟨[.ENTER], rfl, [], .inl rfl, rfl⟩, [.EXIT], rfl, rfl⟩
    · exact ⟨[.ENTER, .DWELL], ⟨[.ENTER], rfl, [.DWELL], .inr rfl, rfl⟩, [.EXIT], rfl, rfl⟩

/-- One more event. -/
theorem track_append_singleton (events : List GeofenceEventType) (e : GeofenceEventType) :
    track (events ++ [e]) = (track events).bind fun s => s.next e := by
  unfold track
  rw [List.foldlM_append]
  simp

/-- The events so far of the visit that is going on in each state. -/
def FenceState.begun : FenceState → List GeofenceEventType
  | .OUTSIDE => []
  | .INSIDE => [.ENTER]
  | .DWELL => [.ENTER, .DWELL]

/-- Visits that have ended, and the one that is going on. -/
theorem exists_of_track {events : List GeofenceEventType} {s : FenceState}
    (h : track events = some s) :
    ∃ visits : List (List GeofenceEventType), (∀ w ∈ visits, w ∈ visit) ∧
      events = visits.flatten ++ s.begun := by
  induction events using List.reverseRecOn generalizing s with
  | nil =>
    cases h
    exact ⟨[], by simp, rfl⟩
  | append_singleton events e ih =>
    rw [track_append_singleton, Option.bind_eq_some_iff] at h
    obtain ⟨s', hs', hnext⟩ := h
    obtain ⟨visits, hvisits, rfl⟩ := ih hs'
    have hended : ∀ w ∈ visit, ∀ v ∈ visits ++ [w], v ∈ visit := by
      intro w hw v hv
      rcases List.mem_append.mp hv with hv | hv
      · exact hvisits v hv
      · rwa [List.mem_singleton.mp hv]
    cases s' <;> cases e <;> cases hnext
    · exact ⟨visits, hvisits, by simp [FenceState.begun]⟩
    · exact ⟨visits ++ [[.ENTER, .EXIT]], hended _ (mem_visit.mpr (.inl rfl)),
        by simp [FenceState.begun]⟩
    · exact ⟨visits, hvisits, by simp [FenceState.begun]⟩
    · exact ⟨visits ++ [[.ENTER, .DWELL, .EXIT]], hended _ (mem_visit.mpr (.inr rfl)),
        by simp [FenceState.begun]⟩

/-- A run of whole visits ends outside. -/
theorem track_flatten {visits : List (List GeofenceEventType)} (h : ∀ w ∈ visits, w ∈ visit) :
    track visits.flatten = some .OUTSIDE := by
  induction visits with
  | nil => rfl
  | cons w visits ih =>
    have hrest := ih fun v hv => h v (List.mem_cons_of_mem _ hv)
    unfold track at hrest ⊢
    rw [List.flatten_cons, List.foldlM_append]
    rcases mem_visit.mp (h w List.mem_cons_self) with rfl | rfl <;> exact hrest

/-- The automaton accepts exactly the prefixes of runs of visits. -/
theorem visitPrefix_iff {events : List GeofenceEventType} :
    VisitPrefix events ↔ ∃ s, track events = some s := by
  constructor
  · rintro ⟨rest, visits, hflat, hvisits⟩
    have htrack := track_flatten hvisits
    rw [← hflat] at htrack
    unfold track at htrack ⊢
    rw [List.foldlM_append] at htrack
    exact (Option.bind_eq_some_iff.mp htrack).imp fun _ => And.left
  · rintro ⟨s, hs⟩
    obtain ⟨visits, hvisits, rfl⟩ := exists_of_track hs
    cases s with
    | OUTSIDE => exact ⟨[], visits, by simp [FenceState.begun], hvisits⟩
    | INSIDE =>
      refine ⟨[.EXIT], visits ++ [[.ENTER, .EXIT]], by simp [FenceState.begun], ?_⟩
      simpa [or_imp, forall_and, mem_visit] using hvisits
    | DWELL =>
      refine ⟨[.EXIT], visits ++ [[.ENTER, .DWELL, .EXIT]], by simp [FenceState.begun], ?_⟩
      simpa [or_imp, forall_and, mem_visit] using hvisits

/-- The state after a run of visits is the one that its last event leads to. -/
theorem eq_stateAfter_of_track {events : List GeofenceEventType} {s : FenceState}
    (h : track events = some s) : s = stateAfter events.getLast? := by
  induction events using List.reverseRecOn with
  | nil =>
    cases h
    rfl
  | append_singleton events e =>
    rw [track_append_singleton, Option.bind_eq_some_iff] at h
    obtain ⟨s', -, hnext⟩ := h
    rw [List.getLast?_concat]
    cases s' <;> cases e <;> cases hnext <;> rfl

/-- The audit records of one device and one fence. -/
def recordsOf (device_id fence_id : String) (events : List GeofenceEventRecord) :
    List GeofenceEventRecord :=
  events.filter fun record => record.device_id = device_id ∧ record.fence_id = fence_id

/-- Their types. -/
def typesOf (device_id fence_id : String) (events : List GeofenceEventRecord) :
    List GeofenceEventType :=
  (recordsOf device_id fence_id events).map GeofenceEventRecord.event_type

/-- A new record of the device and the fence comes last. -/
theorem recordsOf_append_self {device_id fence_id : String} {events : List GeofenceEventRecord}
    {record : GeofenceEventRecord} (hd : record.device_id = device_id)
    (hf : record.fence_id = fence_id) :
    recordsOf device_id fence_id (events ++ [record]) =
      recordsOf device_id fence_id events ++ [record] := by
  simp [recordsOf, hd, hf]

/-- A new record of another device or fence does not show. -/
theorem recordsOf_append_of_ne {device_id fence_id : String} {events : List GeofenceEventRecord}
    {record : GeofenceEventRecord}
    (h : ¬ (record.device_id = device_id ∧ record.fence_id = fence_id)) :
    recordsOf device_id fence_id (events ++ [record]) = recordsOf device_id fence_id events := by
  simp [recordsOf, h]

end SignalRoute
