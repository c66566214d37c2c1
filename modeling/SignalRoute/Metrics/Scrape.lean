import SignalRoute.Metrics.Exporter
import SignalRoute.Text.Lines
import SignalRoute.Numeric.Decimal
import Mathlib.Data.List.DropRight

/-!
# What a scrape reads

A scrape takes the body of the exporter's response apart into lines: comments, and samples of a key and a value,
which a blank parts. A key may have blanks in its label, so the last blank of the line is the one that counts.

The names of counters, gauges and observations are different (`nodup_samples`). So a key is in a text once, and its
value tells what all the calls before have made of it (`scrape_tells`).
-/

namespace SignalRoute

open Store (UnorderedMap HashOrder)
open Numeric (Double ostreamDouble IsNumeral)

/-- A line of the text. -/
def sample (line : List Char) : Option (String × String) :=
  if line.head? = some '#' then none
  else some (String.ofList (line.rdropWhile (· ≠ ' ')).dropLast, String.ofList (line.rtakeWhile (· ≠ ' ')))

/-- The samples of a text. -/
def scrape (text : List Char) : List (String × String) := (Text.lines text).filterMap sample

/-- The line of a sample. -/
def sample_line (s : String × String) : List Char := s.1.toList ++ ' ' :: s.2.toList

/-- A key and a value are read from their line. -/
theorem sample_sample_line {s : String × String} (hkey : s.1.toList.head? ≠ some '#') (hne : s.1 ≠ "")
    (hvalue : ' ' ∉ s.2.toList) : sample (sample_line s) = some s := by
  obtain ⟨key, value⟩ := s
  dsimp only at hkey hne hvalue
  have hkept : ∀ c ∈ value.toList.reverse, decide (c ≠ ' ') = true := fun c hc =>
    decide_eq_true fun h => hvalue (h ▸ List.mem_reverse.mp hc)
  have hrest : (' ' :: key.toList.reverse).dropWhile (fun c => decide (c ≠ ' ')) = ' ' :: key.toList.reverse := rfl
  have hnone : (' ' :: key.toList.reverse).takeWhile (fun c => decide (c ≠ ' ')) = [] := rfl
  have hreverse : (key.toList ++ ' ' :: value.toList).reverse =
      value.toList.reverse ++ ' ' :: key.toList.reverse := by simp
  obtain ⟨c, cs, hcons⟩ := List.exists_cons_of_ne_nil fun h => hne (String.toList_eq_nil_iff.mp h)
  have hhead : (key.toList ++ ' ' :: value.toList).head? = key.toList.head? := by rw [hcons]; rfl
  unfold sample sample_line
  dsimp only
  rw [hhead, if_neg hkey, List.rdropWhile, List.rtakeWhile, hreverse, List.dropWhile_append_of_pos hkept,
    hrest, List.takeWhile_append_of_pos hkept, hnone, List.append_nil, List.reverse_reverse, List.reverse_cons,
    List.reverse_reverse, List.dropLast_concat, String.ofList_toList, String.ofList_toList]

/-- The texts that a call puts into a label. -/
def MetricsCall.label : MetricsCall → Option String
  | .inc_ingest_rejected reason _ => some reason
  | .inc_geofence_event type => some type
  | .inc_match_result status => some status
  | _ => none

namespace MetricsRegistry

section Samples

variable (order : HashOrder) (registry : MetricsRegistry)

/-- What the text has of the counters. -/
def counter_samples : List (String × String) :=
  (sorted_keys order registry.counters).map fun key => (key, toString ((registry.counters.lookup key).getD 0))

/-- What the text has of the gauges. -/
def gauge_samples : List (String × String) :=
  (sorted_keys order registry.gauges).map fun key => (key, ostreamDouble ((registry.gauges.lookup key).getD 0))

/-- What the text has of the observations. -/
def observation_samples : List (String × String) :=
  (sorted_keys order registry.observations).flatMap fun key =>
    let observation := (registry.observations.lookup key).getD {}
    [(key ++ "_count", toString observation.count), (key ++ "_sum", ostreamDouble observation.sum)]

/-- What the text has, in order. -/
def samples : List (String × String) :=
  registry.counter_samples order ++ registry.gauge_samples order ++ registry.observation_samples order

/-- A sorted key is a key. -/
theorem mem_sorted_keys {V : Type} {map : UnorderedMap String V} {key : String} :
    key ∈ sorted_keys order map ↔ map.lookup key ≠ none := by
  unfold sorted_keys
  rw [List.mem_mergeSort, HashOrder.mem_arrange, ← AList.mem_keys, ← AList.lookup_isSome, Option.isSome_iff_ne_none]

/-- The keys are sorted, each once. -/
theorem nodup_sorted_keys {V : Type} (map : UnorderedMap String V) : (sorted_keys order map).Nodup :=
  ((List.mergeSort_perm _ _).trans (order.perm _)).nodup_iff.mpr map.keys_nodup

/-- The text is made of the lines of the samples, after a comment. -/
theorem toList_export_text : (registry.export_text order).toList =
    "# SignalRoute metrics fallback".toList ++ '\n' ::
      (registry.samples order).flatMap fun s => sample_line s ++ ['\n'] := by
  have hcomment : "# SignalRoute metrics fallback\n".toList = "# SignalRoute metrics fallback".toList ++ ['\n'] := by
    simp
  have hblank : " ".toList = [' '] := rfl
  have hnewline : "\n".toList = ['\n'] := rfl
  have hcount : "_count ".toList = "_count".toList ++ [' '] := by simp
  have hsum : "_sum ".toList = "_sum".toList ++ [' '] := by simp
  unfold export_text samples counter_samples gauge_samples observation_samples
  simp only [String.toList_append, String.toList_join, hcomment, hblank, hnewline, hcount, hsum, List.flatMap_append,
    List.flatMap_map, List.flatMap_assoc, List.flatMap_cons, List.flatMap_nil, sample_line, List.append_assoc,
    List.cons_append, List.nil_append, List.append_nil]

/-- What a text has of a map with one sample for each key. -/
theorem mem_sorted_keys_map {V : Type} {map : UnorderedMap String V} (print : V → String) (default : V)
    {key value : String} :
    (key, value) ∈ (sorted_keys order map).map (fun key => (key, print ((map.lookup key).getD default))) ↔
      ∃ v, map.lookup key = some v ∧ value = print v := by
  simp only [List.mem_map, mem_sorted_keys, Prod.mk.injEq]
  constructor
  · rintro ⟨_, hkey, rfl, rfl⟩
    obtain ⟨v, hv⟩ := Option.ne_none_iff_exists'.mp hkey
    exact ⟨v, hv, by rw [hv, Option.getD_some]⟩
  · rintro ⟨v, hv, rfl⟩
    exact ⟨key, hv ▸ Option.some_ne_none v, rfl, by rw [hv, Option.getD_some]⟩

/-- Its keys are those of the map. -/
theorem sorted_keys_map_fst {V : Type} (map : UnorderedMap String V) (print : String → String) :
    ((sorted_keys order map).map fun key => (key, print key)).map Prod.fst = sorted_keys order map := by
  rw [List.map_map]
  exact List.map_id _

/-- What the text has of a key. -/
theorem mem_samples {key value : String} : (key, value) ∈ registry.samples order ↔
    (∃ n, registry.counters.lookup key = some n ∧ value = toString n) ∨
      (∃ x, registry.gauges.lookup key = some x ∧ value = ostreamDouble x) ∨
      ∃ name o, registry.observations.lookup name = some o ∧
        (key = name ++ "_count" ∧ value = toString o.count ∨ key = name ++ "_sum" ∧ value = ostreamDouble o.sum) := by
  unfold samples
  rw [List.mem_append, List.mem_append, or_assoc]
  refine or_congr (mem_sorted_keys_map order _ _) (or_congr (mem_sorted_keys_map order _ _) ?_)
  unfold observation_samples
  simp only [List.mem_flatMap, mem_sorted_keys, List.mem_cons, List.not_mem_nil, or_false, Prod.mk.injEq]
  constructor
  · rintro ⟨name, hname, hsample⟩
    obtain ⟨o, ho⟩ := Option.ne_none_iff_exists'.mp hname
    rw [ho, Option.getD_some] at hsample
    exact ⟨name, o, ho, hsample⟩
  · rintro ⟨name, o, ho, hsample⟩
    refine ⟨name, ho ▸ Option.some_ne_none o, ?_⟩
    rw [ho, Option.getD_some]
    exact hsample

/-- No printed number has a blank or a newline. -/
theorem value_of_mem_samples {s : String × String} (hs : s ∈ registry.samples order) :
    ' ' ∉ s.2.toList ∧ '\n' ∉ s.2.toList := by
  have hint : ∀ (z : ℤ) (c : Char), ¬IsNumeral c → c ∉ (toString z).toList := fun z c hc h =>
    hc (Numeric.isNumeral_of_mem_toString_int h)
  have hdouble : ∀ (x : Double) (c : Char), ¬IsNumeral c → c ∉ (ostreamDouble x).toList := fun x c hc h =>
    hc (Numeric.isNumeral_of_mem_ostreamDouble h)
  have hblank : ¬IsNumeral ' ' := by unfold IsNumeral; decide
  have hnewline : ¬IsNumeral '\n' := by unfold IsNumeral; decide
  obtain ⟨key, value⟩ := s
  obtain ⟨n, -, rfl⟩ | ⟨x, -, rfl⟩ | ⟨name, o, -, ⟨-, rfl⟩ | ⟨-, rfl⟩⟩ := (mem_samples order registry).mp hs
  · exact ⟨hint n _ hblank, hint n _ hnewline⟩
  · exact ⟨hdouble x _ hblank, hdouble x _ hnewline⟩
  · exact ⟨hint o.count _ hblank, hint o.count _ hnewline⟩
  · exact ⟨hdouble o.sum _ hblank, hdouble o.sum _ hnewline⟩

end Samples

/-- A key that a line can hold. -/
def Readable (key : String) : Prop := key ≠ "" ∧ key.toList.head? ≠ some '#' ∧ '\n' ∉ key.toList

/-- The text is read as what it was made of. -/
theorem scrape_export_text (order : HashOrder) (registry : MetricsRegistry)
    (h : ∀ s ∈ registry.samples order, Readable s.1) :
    scrape (registry.export_text order).toList = registry.samples order := by
  have hcomment : sample "# SignalRoute metrics fallback".toList = none := by simp [sample]
  have hlines : ∀ s ∈ registry.samples order, '\n' ∉ sample_line s := by
    intro s hs hmem
    obtain hkey | hvalue := List.mem_append.mp hmem
    · exact (h s hs).2.2 hkey
    · obtain heq | hvalue := List.mem_cons.mp hvalue
      · exact absurd heq (by decide)
      · exact (value_of_mem_samples order registry hs).2 hvalue
  have hread : (registry.samples order).filterMap (sample ∘ sample_line) = (registry.samples order).filterMap some :=
    List.filterMap_congr fun s hs =>
      sample_sample_line (h s hs).2.1 (h s hs).1 (value_of_mem_samples order registry hs).1
  unfold scrape
  rw [toList_export_text, Text.lines_append (by simp), Text.lines_flatMap sample_line _ hlines,
    List.filterMap_cons_none hcomment, List.filterMap_map, hread, List.filterMap_some]

section Names

/-- The names of the counters. -/
def counter_names : List String :=
  ["ingest_received_total", "ingest_rejected_total", "ingest_queued_total", "dedup_hit_total",
    "seq_guard_reject_total", "events_accepted_total", "truly_stale_total", "geofence_events_total",
    "match_requests_total", "match_results_total", "kafka_publish_errors_total", "redis_write_errors_total",
    "postgis_write_errors_total"]

/-- The names of the gauges. -/
def gauge_names : List String :=
  ["history_buffer_size", "kafka_consumer_lag", "redis_pool_utilization", "postgis_pool_utilization"]

/-- The names of the observations. -/
def observation_names : List String :=
  ["redis_write_latency_ms", "postgis_write_latency_ms", "nearby_latency_ms", "trip_query_latency_ms",
    "geofence_eval_latency_ms", "match_latency_ms"]

/-- One of the names, with or without a label of one line. -/
def Named (names : List String) (key : String) : Prop :=
  ∃ name ∈ names, key = name ∨ ∃ label : String, '\n' ∉ label.toList ∧ key = labeled_key name label

variable {call : MetricsCall} {key : String}

/-- A label is on one line if its text is. -/
theorem newline_notMem_label_pair {name text : String} (hname : '\n' ∉ name.toList) (htext : '\n' ∉ text.toList) :
    '\n' ∉ (label_pair name text).toList := by
  simp [label_pair, hname, htext]

/-- The counter that a call adds to has one of the names. -/
theorem counter_named (hlabel : ∀ label ∈ call.label, '\n' ∉ label.toList) (h : call.update.added key ≠ none) :
    Named counter_names key := by
  have hkey : ∀ {name : String} {count : ℤ}, (MetricsUpdate.inc_counter name count).added key ≠ none → name = key :=
    fun h => not_imp_comm.mp (fun hne => if_neg hne) h
  have hlabeled : ∀ {name label : String} {count : ℤ},
      (MetricsUpdate.inc_labeled_counter name label count).added key ≠ none → labeled_key name label = key :=
    fun h => not_imp_comm.mp (fun hne => if_neg hne) h
  cases call with
  | inc_ingest_rejected reason count =>
    exact ⟨"ingest_rejected_total", by simp [counter_names], .inr ⟨_, newline_notMem_label_pair (by simp)
      (hlabel reason rfl), (hlabeled h).symm⟩⟩
  | inc_geofence_event type =>
    exact ⟨"geofence_events_total", by simp [counter_names], .inr ⟨_, newline_notMem_label_pair (by simp)
      (hlabel type rfl), (hlabeled h).symm⟩⟩
  | inc_match_result status =>
    exact ⟨"match_results_total", by simp [counter_names], .inr ⟨_, newline_notMem_label_pair (by simp)
      (hlabel status rfl), (hlabeled h).symm⟩⟩
  | inc_ingest_received | inc_ingest_queued | inc_dedup_hit | inc_seq_guard_reject | inc_events_accepted
  | inc_truly_stale | inc_match_request | inc_kafka_publish_errors | inc_redis_write_errors
  | inc_postgis_write_errors => exact ⟨_, by simp [counter_names], .inl (hkey h).symm⟩
  | _ => exact absurd rfl h

/-- The gauge that a call sets has one of the names. -/
theorem gauge_named (h : call.update.assigned key ≠ none) : Named gauge_names key := by
  have hkey : ∀ {name : String} {value : Double}, (MetricsUpdate.set_gauge name value).assigned key ≠ none →
      name = key := fun h => not_imp_comm.mp (fun hne => if_neg hne) h
  cases call with
  | set_kafka_consumer_lag partition lag =>
    have hnewline : '\n' ∉ (toString partition).toList := fun hmem =>
      absurd (Numeric.isNumeral_of_mem_toString_int hmem) (by unfold IsNumeral; decide)
    exact ⟨"kafka_consumer_lag", by simp [gauge_names], .inr ⟨_, newline_notMem_label_pair (by simp) hnewline,
      (hkey h).symm⟩⟩
  | set_history_buffer_size | set_redis_pool_utilization | set_postgis_pool_utilization =>
    exact ⟨_, by simp [gauge_names], .inl (hkey h).symm⟩
  | _ => exact absurd rfl h

/-- What a call observes has one of the names. -/
theorem observation_named (h : call.update.observed key ≠ none) : key ∈ observation_names := by
  have hkey : ∀ {name : String} {value : Double}, (MetricsUpdate.observe_value name value).observed key ≠ none →
      name = key := fun h => not_imp_comm.mp (fun hne => if_neg hne) h
  cases call with
  | observe_redis_write_latency | observe_postgis_write_latency | observe_nearby_latency
  | observe_trip_query_latency | observe_geofence_eval_latency | observe_match_latency =>
    rw [← hkey h]
    simp [observation_names]
  | _ => exact absurd rfl h

/-- A name up to its label. -/
def family (key : String) : String := String.ofList (key.toList.takeWhile (· ≠ '\x7b'))

/-- A name without a label is its own family. -/
theorem family_of_notMem {name : String} (h : '\x7b' ∉ name.toList) : family name = name := by
  have hkept : ∀ c ∈ name.toList, decide (c ≠ '\x7b') = true := fun c hc => decide_eq_true fun heq => h (heq ▸ hc)
  unfold family
  rw [List.takeWhile_eq_self_iff.mpr hkept, String.ofList_toList]

/-- A label does not change the family. -/
theorem family_labeled_key {name : String} (h : '\x7b' ∉ name.toList) (label : String) :
    family (labeled_key name label) = name := by
  have hkept : ∀ c ∈ name.toList, decide (c ≠ '\x7b') = true := fun c hc => decide_eq_true fun heq => h (heq ▸ hc)
  have hstop : ("\x7b".toList ++ (label.toList ++ "\x7d".toList)).takeWhile (fun c => decide (c ≠ '\x7b')) = [] := rfl
  unfold family labeled_key
  rw [String.toList_append, String.toList_append, String.toList_append, List.append_assoc, List.append_assoc,
    List.takeWhile_append_of_pos hkept, hstop, List.append_nil, String.ofList_toList]

/-- Names that have no label and start with a letter. -/
def Plain (name : String) : Prop :=
  '\x7b' ∉ name.toList ∧ name ≠ "" ∧ name.toList.head? ≠ some '#' ∧ '\n' ∉ name.toList

/-- All names are plain. -/
theorem plain_of_mem {name : String} (h : name ∈ counter_names ++ gauge_names ++ observation_names) : Plain name := by
  simp only [counter_names, gauge_names, observation_names, List.cons_append, List.nil_append, List.mem_cons,
    List.not_mem_nil, or_false] at h
  rcases h with rfl | rfl | rfl | rfl | rfl | rfl | rfl | rfl | rfl | rfl | rfl | rfl | rfl | rfl | rfl | rfl | rfl |
    rfl | rfl | rfl | rfl | rfl | rfl <;> simp [Plain]

/-- Those of counters among them. -/
theorem plain_of_mem_counter_names : ∀ name ∈ counter_names, Plain name := fun _ hname =>
  plain_of_mem (List.mem_append_left _ (List.mem_append_left _ hname))

/-- Those of gauges among them. -/
theorem plain_of_mem_gauge_names : ∀ name ∈ gauge_names, Plain name := fun _ hname =>
  plain_of_mem (List.mem_append_left _ (List.mem_append_right _ hname))

/-- A key with one of the names is in their family. -/
theorem Named.family {names : List String} (h : Named names key) (hplain : ∀ name ∈ names, Plain name) :
    family key ∈ names := by
  obtain ⟨name, hname, rfl | ⟨label, -, rfl⟩⟩ := h
  · rwa [family_of_notMem (hplain key hname).1]
  · rwa [family_labeled_key (hplain name hname).1]

/-- A key with one of the names can be read. -/
theorem Named.readable {names : List String} (h : Named names key) (hplain : ∀ name ∈ names, Plain name) :
    Readable key := by
  obtain ⟨name, hname, rfl | ⟨label, hlabel, rfl⟩⟩ := h
  · exact (hplain key hname).2
  · obtain ⟨-, hne, hhead, hnewline⟩ := hplain name hname
    obtain ⟨c, cs, hcons⟩ := List.exists_cons_of_ne_nil fun h => hne (String.toList_eq_nil_iff.mp h)
    have hlist : (labeled_key name label).toList = name.toList ++ ('\x7b' :: (label.toList ++ ['\x7d'])) := by
      simp [labeled_key]
    refine ⟨fun h => ?_, ?_, ?_⟩
    · rw [h, hcons] at hlist
      cases hlist
    · rw [hlist]
      rw [hcons] at hhead ⊢
      exact hhead
    · rw [hlist]
      simp [hnewline, hlabel]

end Names

section Keys

variable (order : HashOrder) (registry : MetricsRegistry)

/-- The keys of a registry that only calls have changed. -/
structure Known : Prop where
  counters : ∀ key, registry.counters.lookup key ≠ none → Named counter_names key
  gauges : ∀ key, registry.gauges.lookup key ≠ none → Named gauge_names key
  observations : ∀ key, registry.observations.lookup key ≠ none → key ∈ observation_names

/-- A key that some changes have made is one that one of them has made. -/
theorem exists_of_filterMap_ne_nil {W : Type} {f : MetricsUpdate → Option W} {calls : List MetricsCall}
    (h : (calls.map MetricsCall.update).filterMap f ≠ []) : ∃ call ∈ calls, f call.update ≠ none := by
  obtain ⟨w, hw⟩ := List.exists_mem_of_ne_nil _ h
  obtain ⟨update, hupdate, hf⟩ := List.mem_filterMap.mp hw
  obtain ⟨call, hcall, rfl⟩ := List.mem_map.mp hupdate
  exact ⟨call, hcall, hf ▸ Option.some_ne_none w⟩

/-- The keys after calls with labels of one line. -/
theorem known_after {calls : List MetricsCall}
    (hlabels : ∀ call ∈ calls, ∀ label ∈ call.label, '\n' ∉ label.toList) :
    Known (after (calls.map MetricsCall.update)) where
  counters key hkey := by
    rw [counters_after] at hkey
    obtain ⟨call, hcall, hadded⟩ := exists_of_filterMap_ne_nil fun hnil => hkey (if_pos hnil)
    exact counter_named (hlabels call hcall) hadded
  gauges key hkey := by
    rw [gauges_after] at hkey
    obtain ⟨call, -, hassigned⟩ := exists_of_filterMap_ne_nil fun hnil =>
      hkey ((congrArg List.getLast? hnil).trans List.getLast?_nil)
    exact gauge_named hassigned
  observations key hkey := by
    rw [observations_after] at hkey
    obtain ⟨call, -, hobserved⟩ := exists_of_filterMap_ne_nil fun hnil => hkey (if_pos hnil)
    exact observation_named hobserved

/-- The keys of the samples of observations. -/
def observation_keys : List String := observation_names.flatMap fun name => [name ++ "_count", name ++ "_sum"]

/-- The two keys of a name are among them. -/
theorem mem_observation_keys {name key : String} (hname : name ∈ observation_names)
    (hkey : key = name ++ "_count" ∨ key = name ++ "_sum") : key ∈ observation_keys :=
  List.mem_flatMap.mpr ⟨name, hname, List.mem_cons.mpr (hkey.imp_right List.mem_singleton.mpr)⟩

/-- They are plain names, and no names of counters or gauges. -/
theorem plain_of_mem_observation_keys {key : String} (h : key ∈ observation_keys) :
    Plain key ∧ key ∉ counter_names ++ gauge_names := by
  simp only [observation_keys, observation_names, List.flatMap_cons, List.flatMap_nil, List.cons_append,
    List.nil_append, List.mem_cons, List.not_mem_nil, or_false] at h
  rcases h with rfl | rfl | rfl | rfl | rfl | rfl | rfl | rfl | rfl | rfl | rfl | rfl <;>
    simp [Plain, counter_names, gauge_names]

/-- What ends in `_count` does not end in `_sum`. -/
theorem count_ne_sum (a b : String) : a ++ "_count" ≠ b ++ "_sum" := by
  intro h
  have hlist := congrArg (fun s : String => s.toList.getLast?) h
  simp [List.getLast?_append] at hlist

/-- The two samples of a name have different keys, and keys of different names are different. -/
theorem nodup_observation_samples : ((registry.observation_samples order).map Prod.fst).Nodup := by
  rw [observation_samples, List.map_flatMap, List.nodup_flatMap]
  refine ⟨fun key _ => ?_, (nodup_sorted_keys order _).imp fun {a b} hab => ?_⟩
  · exact List.nodup_cons.mpr ⟨fun hmem => count_ne_sum key key (List.mem_singleton.mp hmem), List.nodup_singleton _⟩
  · intro key ha hb
    simp only [List.map_cons, List.map_nil, List.mem_cons, List.not_mem_nil, or_false] at ha hb
    obtain rfl | rfl := ha
    · obtain heq | heq := hb
      · exact hab ((String.append_left_inj _).mp heq)
      · exact count_ne_sum a b heq
    · obtain heq | heq := hb
      · exact count_ne_sum b a heq.symm
      · exact hab ((String.append_left_inj _).mp heq)

variable {registry}

/-- The key of a sample can be read. -/
theorem Known.readable (h : Known registry) : ∀ s ∈ registry.samples order, Readable s.1 := by
  rintro ⟨key, value⟩ hs
  obtain ⟨n, hn, -⟩ | ⟨x, hx, -⟩ | ⟨name, o, ho, hkey⟩ := (mem_samples order registry).mp hs
  · exact (h.counters key (hn ▸ Option.some_ne_none n)).readable plain_of_mem_counter_names
  · exact (h.gauges key (hx ▸ Option.some_ne_none x)).readable plain_of_mem_gauge_names
  · have hname := h.observations name (ho ▸ Option.some_ne_none o)
    exact (plain_of_mem_observation_keys (mem_observation_keys hname (hkey.imp And.left And.left))).1.2

/-- The family of an observation is no counter and no gauge. -/
theorem Known.family_observation (h : Known registry) {key : String}
    (hkey : key ∈ (registry.observation_samples order).map Prod.fst) : family key ∉ counter_names ++ gauge_names := by
  obtain ⟨s, hs, rfl⟩ := List.mem_map.mp hkey
  obtain ⟨name, hname, hs⟩ := List.mem_flatMap.mp hs
  have hsample : s.1 = name ++ "_count" ∨ s.1 = name ++ "_sum" :=
    (List.mem_cons.mp hs).imp (congrArg Prod.fst) fun hs => congrArg Prod.fst (List.mem_singleton.mp hs)
  obtain ⟨hplain, hother⟩ := plain_of_mem_observation_keys
    (mem_observation_keys (h.observations name ((mem_sorted_keys order).mp hname)) hsample)
  rwa [family_of_notMem hplain.1]

/-- No key is in the samples twice. -/
theorem Known.nodup_samples (h : Known registry) : ((registry.samples order).map Prod.fst).Nodup := by
  have hcounter : ∀ key ∈ sorted_keys order registry.counters, family key ∈ counter_names := fun key hkey =>
    (h.counters key ((mem_sorted_keys order).mp hkey)).family plain_of_mem_counter_names
  have hgauge : ∀ key ∈ sorted_keys order registry.gauges, family key ∈ gauge_names := fun key hkey =>
    (h.gauges key ((mem_sorted_keys order).mp hkey)).family plain_of_mem_gauge_names
  have hdisjoint : ∀ name ∈ counter_names, name ∉ gauge_names := by simp [counter_names, gauge_names]
  unfold samples
  rw [List.map_append, List.map_append, counter_samples, gauge_samples, sorted_keys_map_fst, sorted_keys_map_fst,
    List.nodup_append, List.nodup_append]
  refine ⟨⟨nodup_sorted_keys order _, nodup_sorted_keys order _, ?_⟩, nodup_observation_samples order registry, ?_⟩
  · rintro key hkey _ hgauge' rfl
    exact hdisjoint _ (hcounter key hkey) (hgauge key hgauge')
  · rintro key hkey _ hobserved rfl
    refine h.family_observation order hobserved (List.mem_append.mpr ?_)
    exact (List.mem_append.mp hkey).imp (hcounter key) (hgauge key)

end Keys

section Order

/-- The order of the hash table does not show in a text. -/
theorem sorted_keys_eq {V : Type} (order order' : HashOrder) (map : UnorderedMap String V) :
    sorted_keys order map = sorted_keys order' map := by
  have hle : ∀ a b : String, (!decide (b < a)) = true ↔ a ≤ b := fun a b => by
    rw [Bool.not_eq_true', decide_eq_false_iff_not, not_lt]
  have hsorted : ∀ l : List String,
      (l.mergeSort fun a b => !decide (b < a)).Pairwise fun a b => (!decide (b < a)) = true := fun l =>
    List.pairwise_mergeSort (fun a b c hab hbc => (hle a c).mpr (((hle a b).mp hab).trans ((hle b c).mp hbc)))
      (fun a b => (Bool.or_eq_true _ _).mpr ((le_total a b).imp (hle a b).mpr (hle b a).mpr)) l
  refine List.Perm.eq_of_pairwise (fun a b _ _ hab hba => le_antisymm ((hle a b).mp hab) ((hle b a).mp hba))
    (hsorted _) (hsorted _) ?_
  have hkeys : (order.arrange map.keys).Perm (order'.arrange map.keys) := (order.perm _).trans (order'.perm _).symm
  exact (List.mergeSort_perm _ _).trans (hkeys.trans (List.mergeSort_perm _ _).symm)

/-- The same of the whole text. -/
theorem export_text_eq (order order' : HashOrder) (registry : MetricsRegistry) :
    registry.export_text order = registry.export_text order' := by
  unfold export_text
  rw [sorted_keys_eq order order', sorted_keys_eq order order', sorted_keys_eq order order']

end Order

end MetricsRegistry

section Exported

open MetricsUpdate (total latest summary)

variable (endpoint : MetricsExporterEndpoint) {stream version : List Char}

/-- A `GET` of the configured path gets the same bytes, however it is split and whatever the order of the hash tables
is: a header and the text of the registry. -/
theorem exported (registry : MetricsRegistry) (hpath : ' ' ∉ endpoint.path.toList) (hne : endpoint.path ≠ "")
    (hblank : Text.find blank_line (stream.take endpoint.max_request_bytes) ≠ none)
    (hline : first_line (stream.take endpoint.max_request_bytes) =
      "GET".toList ++ ' ' :: (endpoint.path.toList ++ ' ' :: version)) :
    ∃ bytes : List Char,
      (∀ (order : HashOrder) (eof : Bool) (recv : ℕ → Option ℕ) (accepts : ℕ), (∀ i, recv i ≠ none) →
        (MetricsExporter.handle_client endpoint order registry ⟨stream, eof, recv, accepts⟩).toList = bytes) ∧
      "HTTP/1.1 200 OK\r\n".toList <+: bytes ∧ Text.body bytes = some (registry.export_text .insertion).toList := by
  refine ⟨_, fun order eof recv accepts hrecv => ?_, MetricsExporter.status_line_serialized _,
    MetricsExporter.body_serialized (registry.export_text .insertion)⟩
  rw [@MetricsExporter.handle_client_complete endpoint order registry ⟨stream, eof, recv, accepts⟩ hrecv
    version hpath hne hblank hline, MetricsRegistry.export_text_eq order .insertion]

/-- After any calls with labels of one line, a `GET` of the configured path is answered with status 200 and the same
bytes, however the kernel splits the request and whatever the order of the hash tables is. What is read of their body
has no key twice, and has exactly the counters with the sums of what was added to them, the gauges with what was last
assigned to them, and the observations with their number and their sum, which is added up in doubles. -/
theorem scrape_tells (calls : List MetricsCall)
    (hlabels : ∀ call ∈ calls, ∀ label ∈ call.label, '\n' ∉ label.toList) (hpath : ' ' ∉ endpoint.path.toList)
    (hne : endpoint.path ≠ "")
    (hblank : Text.find blank_line (stream.take endpoint.max_request_bytes) ≠ none)
    (hline : first_line (stream.take endpoint.max_request_bytes) =
      "GET".toList ++ ' ' :: (endpoint.path.toList ++ ' ' :: version)) :
    let updates := calls.map MetricsCall.update
    ∃ bytes text : List Char,
      (∀ (order : HashOrder) (eof : Bool) (recv : ℕ → Option ℕ) (accepts : ℕ), (∀ i, recv i ≠ none) →
        (MetricsExporter.handle_client endpoint order (.after updates) ⟨stream, eof, recv, accepts⟩).toList = bytes) ∧
      "HTTP/1.1 200 OK\r\n".toList <+: bytes ∧ Text.body bytes = some text ∧
      ((scrape text).map Prod.fst).Nodup ∧
      ∀ key value, (key, value) ∈ scrape text ↔
        (∃ n, total updates key = some n ∧ value = toString n) ∨
        (∃ x, latest updates key = some x ∧ value = ostreamDouble x) ∨
        ∃ name o, summary updates name = some o ∧ (key = name ++ "_count" ∧ value = toString o.count ∨
          key = name ++ "_sum" ∧ value = ostreamDouble o.sum) := by
  intro updates
  have hknown := MetricsRegistry.known_after hlabels
  have hread := MetricsRegistry.scrape_export_text .insertion _ (hknown.readable .insertion)
  obtain ⟨bytes, hbytes, hstatus, hbody⟩ := exported endpoint (.after updates) hpath hne hblank hline
  refine ⟨bytes, _, hbytes, hstatus, hbody, ?_, fun key value => ?_⟩
  · rw [hread]
    exact hknown.nodup_samples .insertion
  · rw [hread, MetricsRegistry.mem_samples]
    simp only [MetricsRegistry.counters_after, MetricsRegistry.gauges_after, MetricsRegistry.observations_after]
    exact Iff.rfl

/-- A request that comes byte by byte, after a rejection of two events and an observation. -/
theorem scrape_tells_rejected :
    let calls : List MetricsCall := [.inc_ingest_rejected "rate limited" 2, .observe_match_latency (.finite 17)]
    let stream := "GET /metrics HTTP/1.1\r\n\r\n".toList
    ∃ bytes text : List Char,
      (MetricsExporter.handle_client {} .insertion (.after (calls.map MetricsCall.update))
        ⟨stream, true, fun _ => some 0, 4096⟩).toList = bytes ∧ Text.body bytes = some text ∧
      ("ingest_rejected_total\x7breason=\"rate limited\"\x7d", "2") ∈ scrape text := by
  intro calls stream
  obtain ⟨bytes, text, hbytes, -, htext, -, hscrape⟩ := @scrape_tells {} stream "HTTP/1.1".toList
    calls (by simp [calls, MetricsCall.label]) (by decide) (by decide) (by decide) (by decide)
  exact ⟨bytes, text, hbytes .insertion true _ 4096 fun _ => Option.some_ne_none 0, htext,
    (hscrape _ _).mpr (.inl ⟨2, by decide, rfl⟩)⟩

end Exported

end SignalRoute
