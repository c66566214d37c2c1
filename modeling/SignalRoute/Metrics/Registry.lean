import SignalRoute.Store.Unordered
import SignalRoute.Numeric.Rounding
import Mathlib.Algebra.BigOperators.Group.List.Basic

/-!
# The metrics registry

`src/common/metrics/metrics.cpp`: counters, gauges and observations by their names, where a label is part of the
name. Each member takes the mutex for one change, so the registry that threads share is the one after some list of
changes. What it has of a name depends only on the changes of that name (`counters_after`, `gauges_after`,
`observations_after`).

The counters are integers: no process counts `2 ^ 63` events. Observations are summed as doubles, in their order.
-/

namespace SignalRoute

open Store (UnorderedMap HashOrder)
open Numeric (Double Format ostreamDouble)

/-- `Metrics::Observation`. -/
structure Observation where
  count : ℤ := 0
  sum : Double := 0

/-- `Metrics`. -/
structure MetricsRegistry where
  counters : UnorderedMap String ℤ := ∅
  gauges : UnorderedMap String Double := ∅
  observations : UnorderedMap String Observation := ∅

/-- `labeled_key`. -/
def labeled_key (name label : String) : String := name ++ "\x7b" ++ label ++ "\x7d"

/-- `label_pair`. -/
def label_pair (key value : String) : String := key ++ "=\"" ++ value ++ "\""

/-- The private members that change the registry. -/
inductive MetricsUpdate where
  | inc_counter (name : String) (count : ℤ)
  | inc_labeled_counter (name label : String) (count : ℤ)
  | set_gauge (name : String) (value : Double)
  | observe_value (name : String) (value : Double)

/-- The public members that change the registry. -/
inductive MetricsCall where
  | inc_ingest_received (count : ℤ)
  | inc_ingest_rejected (reason : String) (count : ℤ)
  | inc_ingest_queued (count : ℤ)
  | inc_dedup_hit (count : ℤ)
  | inc_seq_guard_reject (count : ℤ)
  | inc_events_accepted (count : ℤ)
  | inc_truly_stale (count : ℤ)
  | observe_redis_write_latency (ms : Double)
  | observe_postgis_write_latency (ms : Double)
  | set_history_buffer_size (size : ℤ)
  | set_kafka_consumer_lag (partition lag : ℤ)
  | observe_nearby_latency (ms : Double)
  | observe_trip_query_latency (ms : Double)
  | observe_geofence_eval_latency (ms : Double)
  | inc_geofence_event (type : String)
  | inc_match_request
  | inc_match_result (status : String)
  | observe_match_latency (ms : Double)
  | set_redis_pool_utilization (fraction : Double)
  | set_postgis_pool_utilization (fraction : Double)
  | inc_kafka_publish_errors
  | inc_redis_write_errors
  | inc_postgis_write_errors

/-- The change that a public member makes. -/
def MetricsCall.update : MetricsCall → MetricsUpdate
  | inc_ingest_received count => .inc_counter "ingest_received_total" count
  | inc_ingest_rejected reason count =>
    .inc_labeled_counter "ingest_rejected_total" (label_pair "reason" reason) count
  | inc_ingest_queued count => .inc_counter "ingest_queued_total" count
  | inc_dedup_hit count => .inc_counter "dedup_hit_total" count
  | inc_seq_guard_reject count => .inc_counter "seq_guard_reject_total" count
  | inc_events_accepted count => .inc_counter "events_accepted_total" count
  | inc_truly_stale count => .inc_counter "truly_stale_total" count
  | observe_redis_write_latency ms => .observe_value "redis_write_latency_ms" ms
  | observe_postgis_write_latency ms => .observe_value "postgis_write_latency_ms" ms
  | set_history_buffer_size size => .set_gauge "history_buffer_size" (.finite (Format.double.nearest size))
  | set_kafka_consumer_lag partition lag =>
    .set_gauge (labeled_key "kafka_consumer_lag" (label_pair "partition" (toString partition)))
      (.finite (Format.double.nearest lag))
  | observe_nearby_latency ms => .observe_value "nearby_latency_ms" ms
  | observe_trip_query_latency ms => .observe_value "trip_query_latency_ms" ms
  | observe_geofence_eval_latency ms => .observe_value "geofence_eval_latency_ms" ms
  | inc_geofence_event type => .inc_labeled_counter "geofence_events_total" (label_pair "type" type) 1
  | inc_match_request => .inc_counter "match_requests_total" 1
  | inc_match_result status => .inc_labeled_counter "match_results_total" (label_pair "status" status) 1
  | observe_match_latency ms => .observe_value "match_latency_ms" ms
  | set_redis_pool_utilization fraction => .set_gauge "redis_pool_utilization" fraction
  | set_postgis_pool_utilization fraction => .set_gauge "postgis_pool_utilization" fraction
  | inc_kafka_publish_errors => .inc_counter "kafka_publish_errors_total" 1
  | inc_redis_write_errors => .inc_counter "redis_write_errors_total" 1
  | inc_postgis_write_errors => .inc_counter "postgis_write_errors_total" 1

namespace MetricsRegistry

variable (registry : MetricsRegistry)

/-- `inc_counter`. -/
def inc_counter (name : String) (count : ℤ) : MetricsRegistry :=
  { registry with counters := registry.counters.insert name ((registry.counters.lookup name).getD 0 + count) }

/-- `inc_labeled_counter`. -/
def inc_labeled_counter (name label : String) (count : ℤ) : MetricsRegistry :=
  let key := labeled_key name label
  { registry with counters := registry.counters.insert key ((registry.counters.lookup key).getD 0 + count) }

/-- `set_gauge`. -/
def set_gauge (name : String) (value : Double) : MetricsRegistry :=
  { registry with gauges := registry.gauges.insert name value }

/-- `observe_value`. -/
def observe_value (name : String) (value : Double) : MetricsRegistry :=
  let observation := (registry.observations.lookup name).getD {}
  { registry with
    observations := registry.observations.insert name ⟨observation.count + 1,
      Format.double.add observation.sum value⟩ }

/-- A change. -/
def perform : MetricsUpdate → MetricsRegistry
  | .inc_counter name count => registry.inc_counter name count
  | .inc_labeled_counter name label count => registry.inc_labeled_counter name label count
  | .set_gauge name value => registry.set_gauge name value
  | .observe_value name value => registry.observe_value name value

/-- `counter_value`. -/
def counter_value (name : String) : ℤ := (registry.counters.lookup name).getD 0

/-- `sorted_keys`. -/
def sorted_keys {V : Type} (order : HashOrder) (map : UnorderedMap String V) : List String :=
  (order.arrange map.keys).mergeSort fun a b => !decide (b < a)

/-- `export_text`. The keys are those of the maps, so `at` does not throw. -/
def export_text (order : HashOrder) : String :=
  "# SignalRoute metrics fallback\n" ++
    String.join ((sorted_keys order registry.counters).map fun key =>
      key ++ " " ++ toString ((registry.counters.lookup key).getD 0) ++ "\n") ++
    String.join ((sorted_keys order registry.gauges).map fun key =>
      key ++ " " ++ ostreamDouble ((registry.gauges.lookup key).getD 0) ++ "\n") ++
    String.join ((sorted_keys order registry.observations).map fun key =>
      let observation := (registry.observations.lookup key).getD {}
      key ++ "_count " ++ toString observation.count ++ "\n" ++
        key ++ "_sum " ++ ostreamDouble observation.sum ++ "\n")

/-- The registry after some changes. -/
def after (updates : List MetricsUpdate) : MetricsRegistry := updates.foldl perform {}

end MetricsRegistry

namespace MetricsUpdate

/-- What a change adds to the counter of a key. -/
def added (key : String) : MetricsUpdate → Option ℤ
  | inc_counter name count => if name = key then some count else none
  | inc_labeled_counter name label count => if labeled_key name label = key then some count else none
  | _ => none

/-- What a change sets the gauge of a key to. -/
def assigned (key : String) : MetricsUpdate → Option Double
  | set_gauge name value => if name = key then some value else none
  | _ => none

/-- The value of a name that a change observes. -/
def observed (key : String) : MetricsUpdate → Option Double
  | observe_value name value => if name = key then some value else none
  | _ => none

/-- What some changes make of the counter of a key. -/
def total (updates : List MetricsUpdate) (key : String) : Option ℤ :=
  let counts := updates.filterMap (added key)
  if counts = [] then none else some counts.sum

/-- What some changes make of the gauge of a key. -/
def latest (updates : List MetricsUpdate) (key : String) : Option Double :=
  (updates.filterMap (assigned key)).getLast?

/-- What some changes make of the observations of a name. -/
def summary (updates : List MetricsUpdate) (key : String) : Option Observation :=
  let values := updates.filterMap (observed key)
  if values = [] then none else some ⟨values.length, values.foldl Format.double.add 0⟩

end MetricsUpdate

namespace MetricsRegistry

open MetricsUpdate (added assigned observed total latest summary)

/-- One more change. -/
theorem after_concat (updates : List MetricsUpdate) (update : MetricsUpdate) :
    after (updates ++ [update]) = (after updates).perform update := by
  unfold after
  rw [List.foldl_append, List.foldl_cons, List.foldl_nil]

variable (registry : MetricsRegistry) (update : MetricsUpdate) (key : String)

/-- A value that is made from the key, seen from any key. -/
theorem lookup_insert_elim {V W : Type} (map : UnorderedMap String V) (f : String → W → V) (name : String) (w : W) :
    (map.insert name (f name w)).lookup key =
      (if name = key then some w else none).elim (map.lookup key) fun w => some (f key w) := by
  by_cases h : name = key
  · subst h
    rw [AList.lookup_insert, if_pos rfl, Option.elim_some]
  · rw [AList.lookup_insert_ne (Ne.symm h), if_neg h, Option.elim_none]

/-- What a change does to the counter of a key. -/
theorem counters_perform : (registry.perform update).counters.lookup key =
    (added key update).elim (registry.counters.lookup key)
      fun count => some ((registry.counters.lookup key).getD 0 + count) := by
  have hinsert := lookup_insert_elim key registry.counters fun name count =>
    (registry.counters.lookup name).getD 0 + count
  cases update with
  | inc_counter name count => exact hinsert name count
  | inc_labeled_counter name label count => exact hinsert (labeled_key name label) count
  | set_gauge name value => rfl
  | observe_value name value => rfl

/-- The counter that is added to. -/
theorem counters_inc_counter (name : String) (count : ℤ) :
    (registry.perform (.inc_counter name count)).counters.lookup name =
      some ((registry.counters.lookup name).getD 0 + count) := by
  rw [counters_perform, added, if_pos rfl, Option.elim_some]

/-- Another counter. -/
theorem counters_inc_counter_ne {name key : String} (h : name ≠ key) (count : ℤ) :
    (registry.perform (.inc_counter name count)).counters.lookup key = registry.counters.lookup key := by
  rw [counters_perform, added, if_neg h, Option.elim_none]

/-- What a change does to the gauge of a key. -/
theorem gauges_perform : (registry.perform update).gauges.lookup key =
    (assigned key update).elim (registry.gauges.lookup key) some := by
  cases update with
  | set_gauge name value => exact lookup_insert_elim key registry.gauges (fun _ value => value) name value
  | inc_counter name count => rfl
  | inc_labeled_counter name label count => rfl
  | observe_value name value => rfl

/-- What a change does to the observations of a name. -/
theorem observations_perform : (registry.perform update).observations.lookup key =
    (observed key update).elim (registry.observations.lookup key) fun value =>
      let observation := (registry.observations.lookup key).getD {}
      some ⟨observation.count + 1, Format.double.add observation.sum value⟩ := by
  cases update with
  | observe_value name value =>
    exact lookup_insert_elim key registry.observations (fun name value =>
      ⟨((registry.observations.lookup name).getD {}).count + 1,
        Format.double.add ((registry.observations.lookup name).getD {}).sum value⟩) name value
  | inc_counter name count => rfl
  | inc_labeled_counter name label count => rfl
  | set_gauge name value => rfl

variable (updates : List MetricsUpdate)

/-- A counter is the sum of what was added to it. -/
theorem counters_after : (after updates).counters.lookup key = total updates key := by
  induction updates using List.reverseRecOn with
  | nil => rfl
  | append_singleton updates update ih =>
    rw [after_concat, counters_perform, ih]
    unfold total
    dsimp only
    rw [List.filterMap_append, List.filterMap_cons, List.filterMap_nil]
    cases added key update with
    | none => rw [List.append_nil]; rfl
    | some count =>
      rw [if_neg (List.append_ne_nil_of_right_ne_nil _ (List.cons_ne_nil count [])), List.sum_append,
        List.sum_singleton]
      refine congrArg (fun sum : ℤ => some (sum + count)) ?_
      split
      · rename_i hnil
        rw [hnil]
        rfl
      · rfl

/-- A gauge is what was last assigned to it. -/
theorem gauges_after : (after updates).gauges.lookup key = latest updates key := by
  induction updates using List.reverseRecOn with
  | nil => rfl
  | append_singleton updates update ih =>
    rw [after_concat, gauges_perform, ih]
    unfold latest
    rw [List.filterMap_append, List.filterMap_cons, List.filterMap_nil]
    cases assigned key update with
    | none => rw [List.append_nil]; rfl
    | some value => exact List.getLast?_concat.symm

/-- The observations are the number of the values and their sum, each addition rounded. -/
theorem observations_after : (after updates).observations.lookup key = summary updates key := by
  induction updates using List.reverseRecOn with
  | nil => rfl
  | append_singleton updates update ih =>
    rw [after_concat, observations_perform, ih]
    unfold summary
    dsimp only
    rw [List.filterMap_append, List.filterMap_cons, List.filterMap_nil]
    cases observed key update with
    | none => rw [List.append_nil]; rfl
    | some value =>
      rw [if_neg (List.append_ne_nil_of_right_ne_nil _ (List.cons_ne_nil value [])), List.length_append,
        List.length_singleton, Nat.cast_succ, List.foldl_append, List.foldl_cons, List.foldl_nil]
      refine congrArg some ?_
      split
      · rename_i hnil
        rw [hnil]
        rfl
      · rfl

end MetricsRegistry

end SignalRoute
