import SignalRoute.Events.Gains
import SignalRoute.Events.Ownership
import SignalRoute.Interaction.Calls
import SignalRoute.Gateway.Service
import SignalRoute.Metrics.Registry
import Mathlib.Algebra.BigOperators.Ring.Finset

/-!
# Events that are counted

`src/common/composition/metrics_event_handlers.cpp`: fourteen handlers that turn events into calls of the metrics
registry. The program that uses the bus, and its other handlers, may do anything that leaves a counter alone: publish
events while others are delivered, wire and clear handlers, change the rest of the memory, throw. Then the counter says
how often the events were published, each as often as the metrics were wired when it was published, unless the
exception of an earlier handler has left the publish (`events_counted`).
-/

namespace SignalRoute

open Interaction (Prog Atomic)
open Numeric (Double Format)

/-- The types of the events: those of `MetricsEventHandlers`, and the others by their names. -/
inductive EventType where
  | IngestBatchReceived
  | IngestBatchRejected
  | IngestEventPublished
  | LocationAccepted
  | LocationDuplicateRejected
  | LocationStaleRejected
  | StateWriteRejected
  | GeofenceEntered
  | GeofenceExited
  | GeofenceDwellDetected
  | MatchRequestReceived
  | MatchCompleted
  | MatchFailed
  | MatchExpired
  | other (name : String)
  deriving DecidableEq

instance : Inhabited EventType := ⟨.other "void"⟩

namespace events

/-- The events of these types; the other ones carry an `X`. -/
inductive Any (X : Type) where
  | IngestBatchReceived (device_id : String) (events : List LocationEvent) (received_at_ms : ℤ)
  | IngestBatchRejected (device_id reason : String) (rejected_count : ℤ)
  | IngestEventPublished (event : LocationEvent) (topic : String)
  | LocationAccepted (event : LocationEvent)
  | LocationDuplicateRejected (event : LocationEvent)
  | LocationStaleRejected (event : LocationEvent) (current_seq : ℕ)
  | StateWriteRejected (event : LocationEvent) (reason : String)
  | GeofenceEntered (event : GeofenceEventRecord)
  | GeofenceExited (event : GeofenceEventRecord)
  | GeofenceDwellDetected (event : GeofenceEventRecord)
  | MatchRequestReceived (request_id requester_id : String) (lat lon radius_m : Double) (max_agents deadline_ms : ℤ)
      (strategy : String)
  | MatchCompleted (request_id : String) (assigned_agent_ids : List String) (latency_ms : ℤ)
  | MatchFailed (request_id reason : String)
  | MatchExpired (request_id : String)
  | other (event : X)

end events

namespace MetricsEventHandlers

/-- The types that `wire` subscribes to, in its order. -/
def types : List EventType :=
  [.IngestBatchReceived, .IngestBatchRejected, .IngestEventPublished, .LocationAccepted, .LocationDuplicateRejected,
    .LocationStaleRejected, .StateWriteRejected, .GeofenceEntered, .GeofenceExited, .GeofenceDwellDetected,
    .MatchRequestReceived, .MatchCompleted, .MatchFailed, .MatchExpired]

/-- What the handlers of an event call. -/
def calls {X : Type} : events.Any X → List MetricsCall
  | .IngestBatchReceived _ events _ => [.inc_ingest_received events.length]
  | .IngestBatchRejected _ reason rejected_count => [.inc_ingest_rejected reason rejected_count]
  | .IngestEventPublished _ _ => [.inc_ingest_queued 1]
  | .LocationAccepted _ => [.inc_events_accepted 1]
  | .LocationDuplicateRejected _ => [.inc_dedup_hit 1]
  | .LocationStaleRejected _ _ => [.inc_seq_guard_reject 1]
  | .StateWriteRejected _ _ => [.inc_truly_stale 1]
  | .GeofenceEntered _ => [.inc_geofence_event "ENTER"]
  | .GeofenceExited _ => [.inc_geofence_event "EXIT"]
  | .GeofenceDwellDetected _ => [.inc_geofence_event "DWELL"]
  | .MatchRequestReceived .. => [.inc_match_request]
  | .MatchCompleted _ _ latency_ms =>
    [.inc_match_result "completed", .observe_match_latency (.finite (Format.double.nearest latency_ms))]
  | .MatchFailed _ _ => [.inc_match_result "failed"]
  | .MatchExpired _ => [.inc_match_result "expired"]
  | .other _ => []

end MetricsEventHandlers

/-- The callbacks on a bus: those of `MetricsEventHandlers`, and the others. -/
inductive WiredCallback (C : Type) where
  | metrics
  | other (callback : C)

/-- Whether a callback is one of `MetricsEventHandlers`. -/
def WiredCallback.is_metrics {C : Type} : WiredCallback C → Bool
  | metrics => true
  | other _ => false

/-- A program on a bus that metrics are wired to; its memory is the registry and an `S`. -/
abbrev MeteredProgram (X C S E : Type) : Type 1 :=
  BusProgram EventType (WiredCallback C) (events.Any X) (MetricsRegistry × S) E

/-- The log of one. -/
abbrev MeteredLog (X C E : Type) : Type := List (BusEvent EventType (WiredCallback C) (events.Any X) E)

section Counting

variable {X C S E : Type}

/-- The calls of a handler, one after the other, each under the mutex. -/
def metrics_handler : List MetricsCall → MeteredProgram X C S E
  | [] => .pure ()
  | call :: calls =>
    .call (.inr fun memory => ((), (memory.1.perform call.update, memory.2))) fun _ => metrics_handler calls

/-- What a callback runs. -/
def invoke (others : C → events.Any X → MeteredProgram X C S E) :
    WiredCallback C → events.Any X → MeteredProgram X C S E
  | .metrics, event => metrics_handler (MetricsEventHandlers.calls event)
  | .other callback, event => others callback event

/-- `observation_count`. -/
def MetricsRegistry.observation_count (registry : MetricsRegistry) (name : String) : ℤ :=
  ((registry.observations.lookup name).getD {}).count

/-- What calls add to a counter. -/
def MetricsCall.amount (key : String) (calls : List MetricsCall) : ℤ :=
  (calls.map fun call => (call.update.added key).getD 0).sum

/-- How often calls observe a name. -/
def MetricsCall.observations (name : String) (calls : List MetricsCall) : ℤ :=
  (calls.map fun call => if (call.update.observed name).isSome then 1 else 0).sum

/-- How often the metrics are subscribed to a type. -/
def EventBus.metered (bus : EventBus EventType (WiredCallback C)) (type : EventType) : ℕ :=
  (bus.entries type).countP fun entry => entry.callback.is_metrics

/-- Whether a publish's invocation of a handler is one of the metrics; its return is not. -/
def of_metrics : Option (HandlerEntry (WiredCallback C) × events.Any X) → Bool
  | some (entry, _) => entry.callback.is_metrics
  | none => false

/-- How often the publish at a place of the log has invoked the metrics. -/
def metrics_invoked (log : MeteredLog X C E) (n : ℕ) : ℕ := (BusEvent.history log n).countP of_metrics

/-- What the publish at a place of the log counts for, where an event counts for `count`. -/
def counted (count : List MetricsCall → ℤ) (log : MeteredLog X C E) (n : ℕ) : ℤ :=
  match log[n]? with
  | some (.published _ event _) => metrics_invoked log n * count (MetricsEventHandlers.calls event)
  | _ => 0

/-- A program whose own actions leave the counter and the observations of a name alone. -/
def Leaves (key : String) (program : MeteredProgram X C S E) : Prop :=
  program.Calls fun c => ∀ action, c = .inr action → ∀ memory,
    (action memory).2.1.counter_value key = memory.1.counter_value key ∧
      (action memory).2.1.observation_count key = memory.1.observation_count key

variable {key : String}

/-- What a change adds to a counter. -/
theorem MetricsRegistry.counter_value_perform (registry : MetricsRegistry) (update : MetricsUpdate) (key : String) :
    (registry.perform update).counter_value key = registry.counter_value key + (update.added key).getD 0 := by
  unfold counter_value
  rw [counters_perform]
  cases update.added key with
  | none => exact (add_zero _).symm
  | some count => rfl

/-- A change adds one to the observations of its name. -/
theorem MetricsRegistry.observation_count_perform (registry : MetricsRegistry) (update : MetricsUpdate) (key : String) :
    (registry.perform update).observation_count key =
      registry.observation_count key + if (update.observed key).isSome then 1 else 0 := by
  unfold observation_count
  rw [observations_perform]
  cases update.observed key with
  | none => exact (add_zero _).symm
  | some value => rfl

/-- A handler adds the amounts of its calls to whatever each call adds to. -/
theorem gains_metrics_handler {f : MetricsRegistry × S → ℤ} {count : MetricsCall → ℤ}
    (hcount : ∀ memory call, f (memory.1.perform call.update, memory.2) = f memory + count call)
    (calls : List MetricsCall) :
    BusMachine.Gains f (metrics_handler calls : MeteredProgram X C S E) (calls.map count).sum := by
  induction calls with
  | nil => rfl
  | cons call calls ih =>
    intro memory
    dsimp only
    rwa [hcount, add_sub_cancel_left, List.map_cons, List.sum_cons, add_sub_cancel_left]

/-- A program that leaves a name alone adds nothing to what is measured of it. -/
theorem Leaves.gains {f : MetricsRegistry × S → ℤ} {program : MeteredProgram X C S E} (h : Leaves key program)
    (hf : ∀ memory memory' : MetricsRegistry × S, memory'.1.counter_value key = memory.1.counter_value key →
      memory'.1.observation_count key = memory.1.observation_count key → f memory' = f memory) :
    BusMachine.Gains f program 0 := by
  induction program with
  | pure a => rfl
  | throw e => rfl
  | call c k ih =>
    obtain ⟨hc, hk⟩ := h
    obtain c | action := c
    · exact fun b => ih b (hk b)
    · intro memory
      obtain ⟨hcounter, hobservations⟩ := hc action rfl memory
      rw [hf memory _ hcounter hobservations, sub_self, sub_zero]
      exact ih _ (hk _)

/-- What an invocation brings is the amount of its event, if the handler is one of the metrics. -/
def metrics_gain (count : MetricsCall → ℤ) (callback : WiredCallback C) (event : events.Any X) : ℤ :=
  if callback.is_metrics then ((MetricsEventHandlers.calls event).map count).sum else 0

/-- What a publish's invocation of a handler brings; its return brings nothing. -/
def told (gain : WiredCallback C → events.Any X → ℤ) :
    Option (HandlerEntry (WiredCallback C) × events.Any X) → ℤ
  | some (entry, event) => gain entry.callback event
  | none => 0

/-- The invocations of a log, one publish after the other. -/
theorem sum_history (gain : WiredCallback C → events.Any X → ℤ) {log : MeteredLog X C E} {places : ℕ}
    (h : ∀ n entry event, .invoked n entry event ∈ log → n < places) :
    ∑ n ∈ Finset.range places, ((BusEvent.history log n).map (told gain)).sum =
      (log.map (BusMachine.brought gain)).sum := by
  induction log with
  | nil => exact Finset.sum_const_zero
  | cons e log ih =>
    have hsplit : ∀ n, ((BusEvent.history (e :: log) n).map (told gain)).sum =
        (BusEvent.about n e).elim 0 (told gain) + ((BusEvent.history log n).map (told gain)).sum := by
      intro n
      unfold BusEvent.history
      rw [List.filterMap_cons]
      cases BusEvent.about n e with
      | none => exact (zero_add _).symm
      | some r => exact List.sum_cons
    rw [Finset.sum_congr rfl fun n _ => hsplit n, Finset.sum_add_distrib, List.map_cons, List.sum_cons,
      ih fun n entry event he => h n entry event (List.mem_cons_of_mem _ he)]
    congr 1
    cases e with
    | invoked publish entry event =>
      have habout : ∀ n, (BusEvent.about n (.invoked publish entry event : BusEvent EventType _ _ E)).elim 0
          (told gain) = if publish = n then gain entry.callback event else 0 := by
        intro n
        rw [BusEvent.about]
        split <;> rfl
      rw [Finset.sum_congr rfl fun n _ => habout n, Finset.sum_ite_eq,
        if_pos (Finset.mem_range.mpr (h publish entry event List.mem_cons_self))]
      rfl
    | returned publish =>
      refine Finset.sum_eq_zero fun n _ => ?_
      rw [BusEvent.about]
      split <;> rfl
    | subscribed type entry => exact Finset.sum_const_zero
    | published type event w => exact Finset.sum_const_zero
    | left publish exception => exact Finset.sum_const_zero

/-- Invocations with one event count for it as often as they are of the metrics. -/
theorem sum_told (count : MetricsCall → ℤ) (event : events.Any X)
    {l : List (Option (HandlerEntry (WiredCallback C) × events.Any X))}
    (h : ∀ entry event', some (entry, event') ∈ l → event' = event) :
    (l.map (told (metrics_gain count))).sum =
      l.countP of_metrics * ((MetricsEventHandlers.calls event).map count).sum := by
  induction l with
  | nil => exact (zero_mul _).symm
  | cons r l ih =>
    rw [List.map_cons, List.sum_cons, ih fun entry event' hin => h entry event' (List.mem_cons_of_mem _ hin),
      List.countP_cons, Nat.cast_add, add_mul, add_comm]
    congr 1
    obtain _ | ⟨entry, event'⟩ := r
    · exact (zero_mul _).symm
    · obtain rfl := h entry event' List.mem_cons_self
      cases hcallback : entry.callback.is_metrics with
      | true => rw [of_metrics, told, metrics_gain, hcallback, if_pos rfl, if_pos rfl, Nat.cast_one, one_mul]
      | false =>
        rw [of_metrics, told, metrics_gain, hcallback, if_neg Bool.false_ne_true, if_neg Bool.false_ne_true,
          Nat.cast_zero, zero_mul]

variable {captured : WiredCallback C → List ℕ} {others : C → events.Any X → MeteredProgram X C S E}
  {program : MeteredProgram X C S E} {memory : MetricsRegistry × S}
  {m : BusMachine EventType (WiredCallback C) (events.Any X) (MetricsRegistry × S) E}

/-- What the publishes count for is what their invocations bring. -/
theorem sum_counted (count : MetricsCall → ℤ) (h : BusMachine.Delivering m) :
    ∑ n ∈ Finset.range m.log.length, counted (fun calls => (calls.map count).sum) m.log n =
      (m.log.map (BusMachine.brought (metrics_gain count))).sum := by
  have hbound : ∀ n entry event, .invoked n entry event ∈ m.log → n < m.log.length := by
    intro n entry event hinvoked
    obtain ⟨event', target, hpublished⟩ := (h.status n).published
      (List.ne_nil_of_mem (List.mem_filterMap.mpr ⟨_, hinvoked, by rw [BusEvent.about, if_pos rfl]⟩))
    exact hpublished.lt
  rw [← sum_history _ hbound]
  refine Finset.sum_congr rfl fun n _ => ?_
  unfold counted
  split
  · next type event w hlog =>
    refine (sum_told count event fun entry event' hin => ?_).symm
    have hstart := ((h.status n).history_start ⟨type, w, hlog, rfl⟩).1.subset hin
    obtain htarget | hnone := List.mem_append.mp hstart
    · obtain ⟨entry', -, heq⟩ := List.mem_map.mp htarget
      exact (Prod.mk.inj (Option.some.inj heq)).2.symm
    · cases List.mem_singleton.mp hnone
  · next hnot =>
    have hnothing : BusEvent.history m.log n = [] := by
      by_contra hsome
      obtain ⟨event, target, type, w, hlog, -⟩ := (h.status n).published hsome
      exact hnot type event w hlog
    rw [hnothing]
    rfl

/-- What the metrics count between the start of a program and its end, for whatever their calls add to. -/
theorem measured {f : MetricsRegistry × S → ℤ} {count : MetricsCall → ℤ}
    (hcount : ∀ memory call, f (memory.1.perform call.update, memory.2) = f memory + count call)
    (hothers : ∀ callback event, BusMachine.Gains f (others callback event) 0)
    (hprogram : BusMachine.Gains f program 0)
    (h : BusMachine.Reaches captured (invoke others) memory program m) (hend : m.Ended) :
    f m.memory =
      f memory + ∑ n ∈ Finset.range m.log.length, counted (fun calls => (calls.map count).sum) m.log n := by
  have hinvoke : ∀ callback event,
      BusMachine.Gains f (invoke others callback event) (metrics_gain count callback event) := by
    rintro (_ | callback) event
    · exact gains_metrics_handler hcount _
    · exact hothers callback event
  rw [h.gained hinvoke hprogram hend, add_zero, sum_counted count h.delivering]

/-- A publish invokes the metrics as often as they were subscribed to its type at its start, unless the program has
not ended or an exception has left the publish; then at most as often. -/
theorem metrics_invoked_le (h : BusMachine.Delivering m) {n : ℕ} {type : EventType} {event : events.Any X}
    {w : BusWorld EventType (WiredCallback C)} (hlog : m.log[n]? = some (.published type event w)) :
    metrics_invoked m.log n ≤ w.bus.metered type ∧
      (m.Ended → (∀ exception, .left n exception ∉ m.log) → metrics_invoked m.log n = w.bus.metered type) := by
  have hmetered : (BusEvent.invocations event (BusEvent.subscribed_at (m.log.take n) w type) ++ [none]).countP
      of_metrics = w.bus.metered type := by
    unfold EventBus.metered BusEvent.invocations
    rw [(h.recorded n type event w hlog).entries type, List.countP_append, List.countP_map]
    rfl
  refine ⟨?_, fun hend hleft => ?_⟩
  · rw [← hmetered]
    exact ((h.status n).history_start ⟨type, w, hlog, rfl⟩).1.sublist.countP_le
  · rw [← hmetered]
    unfold metrics_invoked
    rw [h.complete hlog (.inr ⟨hend, hleft⟩)]

/-- When a program on the bus has ended, however its handlers publish, subscribe, unsubscribe and throw: a counter, and
the number of observations of a name, that nothing but the metrics changes have grown by what the published events count
for, each as often as its publish has invoked the metrics. That is as often as they were subscribed to its type when it
was published, or less where an exception has left the publish. -/
theorem events_counted {registry : MetricsRegistry} {s : S}
    (hothers : ∀ callback event, Leaves key (others callback event)) (hprogram : Leaves key program)
    (h : BusMachine.Reaches captured (invoke others) (registry, s) program m) (hend : m.Ended) :
    m.memory.1.counter_value key = registry.counter_value key +
        ∑ n ∈ Finset.range m.log.length, counted (MetricsCall.amount key) m.log n ∧
      m.memory.1.observation_count key = registry.observation_count key +
        ∑ n ∈ Finset.range m.log.length, counted (MetricsCall.observations key) m.log n ∧
      ∀ n type event w, m.log[n]? = some (.published type event w) →
        metrics_invoked m.log n ≤ w.bus.metered type ∧
          ((∀ exception, .left n exception ∉ m.log) → metrics_invoked m.log n = w.bus.metered type) := by
  refine ⟨?_, ?_, fun n type event w hlog => ?_⟩
  · have hf : ∀ memory memory' : MetricsRegistry × S, memory'.1.counter_value key = memory.1.counter_value key →
        memory'.1.observation_count key = memory.1.observation_count key →
        memory'.1.counter_value key = memory.1.counter_value key := fun _ _ hcounter _ => hcounter
    exact measured (fun memory call => memory.1.counter_value_perform call.update key)
      (fun callback event => (hothers callback event).gains hf) (hprogram.gains hf) h hend
  · have hf : ∀ memory memory' : MetricsRegistry × S, memory'.1.counter_value key = memory.1.counter_value key →
        memory'.1.observation_count key = memory.1.observation_count key →
        memory'.1.observation_count key = memory.1.observation_count key := fun _ _ _ hobservations => hobservations
    exact measured (fun memory call => memory.1.observation_count_perform call.update key)
      (fun callback event => (hothers callback event).gains hf) (hprogram.gains hf) h hend
  · obtain ⟨hle, heq⟩ := metrics_invoked_le h.delivering hlog
    exact ⟨hle, heq hend⟩

/-- Wiring subscribes the metrics once more to each of the types. -/
theorem EventBus.metered_wire (bus : EventBus EventType (WiredCallback C)) (types : List EventType) (type : EventType) :
    (EventBus.wire .metrics types bus).2.metered type = bus.metered type + types.count type := by
  induction types generalizing bus with
  | nil => rfl
  | cons first types ih =>
    refine (ih (bus.subscribe first .metrics).2).trans ?_
    have hadd : (bus.subscribe first .metrics).2.metered type = bus.metered type + if first = type then 1 else 0 := by
      unfold EventBus.metered EventBus.subscribe
      rw [EventBus.entries_add, List.countP_append]
      split <;> rfl
    rw [hadd, List.count_cons, add_assoc, Nat.add_comm (List.count type types)]
    by_cases h : first = type
    · rw [if_pos h, if_pos (beq_iff_eq.mpr h)]
    · rw [if_neg h, if_neg fun heq => h (beq_iff_eq.mp heq)]

/-- `wire` subscribes to each type of the metrics once. -/
theorem EventBus.metered_wire_types (bus : EventBus EventType (WiredCallback C)) {type : EventType}
    (h : type ∈ MetricsEventHandlers.types) :
    (EventBus.wire .metrics MetricsEventHandlers.types bus).2.metered type = bus.metered type + 1 := by
  rw [metered_wire, List.count_eq_one_of_mem (by decide) h]

end Counting

section Nested

/-- A handler that reports a rejection of two events while another event is delivered, and throws where that event is
of the request `s`. -/
def rejects_two (_ : Unit) : events.Any Unit → MeteredProgram Unit Unit Unit String
  | .MatchFailed "s" _ => .throw "late"
  | _ => .call (.inl (.publish .IngestBatchRejected (.IngestBatchRejected "d" "late" 2))) fun _ => .pure ()

/-- The metrics are subscribed to two types, the second after another handler, and two events are published. -/
def publish_twice : MeteredProgram Unit Unit Unit String :=
  .call (.inl (.subscribe .IngestBatchRejected .metrics)) fun _ =>
    .call (.inl (.subscribe .MatchFailed (.other ()))) fun _ =>
      .call (.inl (.subscribe .MatchFailed .metrics)) fun _ =>
        .call (.inl (.publish .MatchFailed (.MatchFailed "r" "none"))) fun _ =>
          .call (.inl (.publish .MatchFailed (.MatchFailed "s" "none"))) fun _ => .pure ()

/-- The rejection is counted, also where it is published during a delivery. -/
theorem events_counted_nested :
    let m := BusMachine.run (fun _ => []) (invoke rejects_two) 40 (BusMachine.start ({}, ()) publish_twice)
    m.program = .pure () ∧ m.waiting = [] ∧
      m.memory.1.counter_value (labeled_key "ingest_rejected_total" (label_pair "reason" "late")) = 2 := by
  intro m
  have hprogram : m.program = .pure () := rfl
  have hwaiting : m.waiting = [] := rfl
  let key := labeled_key "ingest_rejected_total" (label_pair "reason" "late")
  refine ⟨hprogram, hwaiting, (@events_counted _ _ _ _ key (fun _ => []) rejects_two publish_twice m {} () ?_ ?_
    (BusMachine.reaches_run _ _ 40 _) (BusMachine.ended_of_pure rfl hwaiting hprogram)).1.trans (by decide +kernel)⟩
  · rintro _ event
    unfold rejects_two
    split
    · trivial
    · exact ⟨nofun, fun _ => trivial⟩
  · exact ⟨nofun, fun _ => ⟨nofun, fun _ => ⟨nofun, fun _ => ⟨nofun, fun _ => ⟨nofun, fun _ => trivial⟩⟩⟩⟩⟩

end Nested

end SignalRoute
