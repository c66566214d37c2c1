import SignalRoute.Gateway.Accepted
import SignalRoute.Metrics.Events
import SignalRoute.Metrics.Scrape

/-!
# What a scrape shows of a gateway

The registry that the handlers of `MetricsEventHandlers` fill has the counters that a gateway has in `Metrics`, after
any run of calls (`counters_of_run`). The reasons of rejections are texts of one line, so a scrape reads them all,
and what it reads of a gateway is what has happened there (`gateway_scrape`).
-/

namespace SignalRoute

open Interaction (Prog Atomic)
open Interaction.Prog (bind_eq always_bind always_tryCatch always_atomically)

/-- The event as it is on the bus. -/
def events.Gateway.any {X : Type} : events.Gateway → Option (events.Any X)
  | .IngestBatchReceived device_id events received_at_ms => some (.IngestBatchReceived device_id events received_at_ms)
  | .IngestBatchRejected device_id reason rejected_count => some (.IngestBatchRejected device_id reason rejected_count)
  | .IngestEventPublished event topic => some (.IngestEventPublished event topic)
  | .GatewayBackpressureApplied _ _ => none

/-- What the handlers of the gateway's events call. -/
def events.Gateway.calls (event : events.Gateway) : List MetricsCall :=
  (event.any (X := Empty)).elim [] MetricsEventHandlers.calls

/-- A reason that is a text of one line. -/
def events.Gateway.OneLine : events.Gateway → Prop
  | .IngestBatchRejected _ reason _ => '\n' ∉ reason.toList
  | _ => True

namespace GatewayService

variable {env : GatewayEnvironment} {config : GatewayServiceConfig} {s : Gateway}

/-- The counters of `Metrics` after published events. -/
def metrics_of (published : List events.Gateway) : Metrics :=
  published.foldl (fun metrics event => Metrics.handle event metrics) {}

/-- One more event. -/
theorem metrics_of_concat (published : List events.Gateway) (event : events.Gateway) :
    metrics_of (published ++ [event]) = Metrics.handle event (metrics_of published) := by
  unfold metrics_of
  rw [List.foldl_append]
  rfl

/-- The counters are those of the published events, and the reasons are on one line. -/
structure Metered (s : Gateway) : Prop where
  metrics : s.metrics = metrics_of s.published
  one_line : ∀ event ∈ s.published, event.OneLine

/-- An action after which the counters are still those of the published events. -/
def Meters {β : Type} (c : Atomic Gateway β) : Prop := ∀ s : Gateway, Metered s → Metered (c s).2

/-- An action that publishes nothing. -/
theorem meters_of_eq {β : Type} {c : Atomic Gateway β}
    (h : ∀ s : Gateway, (c s).2.published = s.published ∧ (c s).2.metrics = s.metrics) : Meters c := fun s hs => by
  obtain ⟨hpublished, hmetrics⟩ := h s
  exact ⟨by rw [hmetrics, hpublished, hs.metrics], by rw [hpublished]; exact hs.one_line⟩

/-- A publication counts its event. -/
theorem meters_publish (event : events.Gateway) (h : event.OneLine) : (publish event).Calls Meters := by
  refine (Prog.calls_perform _).mpr fun s hs => ⟨?_, fun other hother => ?_⟩
  · show Metrics.handle event s.metrics = metrics_of (s.published ++ [event])
    rw [metrics_of_concat, ← hs.metrics]
  · rcases List.mem_append.mp hother with hold | hnew
    · exact hs.one_line other hold
    · rw [List.mem_singleton.mp hnew]
      exact h

theorem meters_now_ms : (now_ms env).Calls Meters :=
  (Prog.calls_perform _).mpr (meters_of_eq fun _ => ⟨rfl, rfl⟩)

/-- What the validator says is on one line. -/
theorem newline_notMem_validate {now : ℤ} {event : LocationEvent} {reason : String}
    (h : validate config.toGatewayConfig now event = .error reason) : '\n' ∉ reason.toList := by
  have hcheck : ∀ {fails : Prop} [Decidable fails] {message : String} {rest : Except String Unit},
      '\n' ∉ message.toList → (rest = .error reason → '\n' ∉ reason.toList) →
      (if fails then .error message else rest) = .error reason → '\n' ∉ reason.toList := by
    intro fails _ message rest hmessage hrest h
    split at h
    · exact Except.error.inj h ▸ hmessage
    · exact hrest h
  revert h
  unfold validate
  iterate 9 refine hcheck (by simp) ?_
  exact nofun

theorem meters_ingest_one (event : LocationEvent) : (ingest_one env config event).Calls Meters := by
  unfold ingest_one
  refine Prog.Calls.bind ((Prog.calls_perform _).mpr (meters_of_eq fun _ => ⟨rfl, rfl⟩)) fun running => ?_
  split
  · trivial
  refine Prog.Calls.bind ?_ fun event => Prog.Calls.bind meters_now_ms fun now => ?_
  · unfold stamp
    split
    · exact meters_now_ms.bind fun _ => trivial
    · trivial
  split
  · next reason hreason =>
    exact (meters_publish (.IngestBatchRejected _ _ _) (newline_notMem_validate hreason)).bind fun _ => trivial
  · refine Prog.Calls.bind ((Prog.calls_perform _).mpr (meters_of_eq fun _ => ⟨rfl, rfl⟩)) fun allowed => ?_
    split
    · refine (meters_publish (.GatewayBackpressureApplied _ _) trivial).bind fun _ => ?_
      refine (meters_publish (.IngestBatchRejected _ "rate limited" _) ?_).bind fun _ => trivial
      show '\n' ∉ "rate limited".toList
      simp
    · refine Prog.Calls.bind ((Prog.calls_perform _).mpr (meters_of_eq fun s => ?_)) fun result => ?_
      · unfold Gateway.produce_location
        split <;> exact ⟨rfl, rfl⟩
      · exact (Prog.calls_ofExcept _).bind fun _ =>
          (meters_publish (.IngestEventPublished _ _) trivial).bind fun _ => trivial

theorem meters_ingest_batch (batch : List LocationEvent) : (ingest_batch env config batch).Calls Meters := by
  unfold ingest_batch
  refine meters_now_ms.bind fun now => (meters_publish (.IngestBatchReceived _ _ _) trivial).bind fun _ => ?_
  refine Prog.Calls.bind ?_ fun results => ?_
  · unfold validate_batch
    split
    · trivial
    · exact Prog.Calls.foldEach fun results event => meters_now_ms.bind fun _ => trivial
  split
  · unfold reject_batch
    refine (meters_publish (.IngestBatchRejected _ "batch too large" _) ?_).bind fun _ => trivial
    show '\n' ∉ "batch too large".toList
    simp
  · unfold ingest_each
    exact Prog.Calls.foldEach fun result event => (meters_ingest_one event).bind fun _ => trivial

/-- Such programs keep the counters, wherever they end. -/
theorem Metered.always {α : Type} {p : GatewayAction α} (hp : p.Calls Meters) (hs : Metered s) :
    p.Always .atomic (fun _ => True) (fun _ => Metered) (fun _ => Metered) s :=
  (hp.always (fun _ s hc hs => hc s hs) hs).imp (fun _ _ => trivial) (fun _ _ => id) fun _ _ => id

/-- The frame of a request rejects it with a text of one line. -/
theorem metered_with_lease {body : GatewayAction IngestResponse} (hbody : body.Calls Meters) (api_key : String)
    (rejected_count : ℤ) (device_id : String) (hs : Metered s) :
    (with_lease env config api_key rejected_count device_id body).Always .atomic (fun _ => True)
      (fun _ => Metered) (fun _ => Metered) s := by
  have hreject : ∀ {reason : String} (backpressure : Bool), '\n' ∉ reason.toList →
      (reject_transport_request config reason rejected_count device_id backpressure).Calls Meters := by
    intro reason backpressure hreason
    have hrejected := meters_publish (.IngestBatchRejected device_id reason rejected_count) hreason
    unfold reject_transport_request
    cases backpressure with
    | false => exact hrejected.bind fun _ => trivial
    | true =>
      exact (meters_publish (.GatewayBackpressureApplied _ _) trivial).bind fun _ => hrejected.bind fun _ => trivial
  have hrelease : ∀ active t, Metered t → Metered (Gateway.release active t) := by
    intro active t ht
    unfold Gateway.release
    split <;> exact ⟨ht.metrics, ht.one_line⟩
  unfold with_lease
  split
  · next reason hreason =>
    refine Metered.always (hreject false ?_) hs
    unfold authorize at hreason
    split_ifs at hreason
    cases hreason
    simp
  rw [bind_eq, always_bind, always_atomically]
  refine ⟨trivial, ?_⟩
  have hacquired : Metered (s.try_acquire env config).2 := by
    unfold Gateway.try_acquire
    split
    · split <;> exact ⟨hs.metrics, hs.one_line⟩
    · exact ⟨hs.metrics, hs.one_line⟩
  have hreason : ∀ reason, (s.try_acquire env config).1 = .error reason → '\n' ∉ reason.toList := by
    intro reason h
    unfold Gateway.try_acquire at h
    split_ifs at h
    cases h
    simp
  split
  · next reason heq => exact Metered.always (hreject true (hreason _ heq)) hacquired
  · rename_i active _
    rw [bind_eq, always_bind, always_tryCatch]
    refine (Metered.always hbody hacquired).imp (fun _ => id) (fun response t ht => ?_) fun e t ht => ?_
    · exact ⟨trivial, hrelease active t ht⟩
    · exact ⟨trivial, hrelease active t ht⟩

/-- A call keeps the counters, whether it ends or is left by an exception. -/
theorem Call.metered (call : Call) (hs : Metered s) : Metered (call.after env config s) := by
  have hfinish : ∀ {α : Type} {p : GatewayAction α},
      p.Always .atomic (fun _ => True) (fun _ => Metered) (fun _ => Metered) s → Metered (finish p s) :=
    Prog.Always.final
  unfold Call.after
  cases call with
  | ingest_one event => exact hfinish (Metered.always (meters_ingest_one event) hs)
  | ingest_batch batch => exact hfinish (Metered.always (meters_ingest_batch batch) hs)
  | handle_ingest_one request =>
    refine hfinish (metered_with_lease ?_ _ _ _ hs)
    refine (meters_ingest_one request.event).bind fun answer => ?_
    cases answer <;> trivial
  | handle_ingest_batch request =>
    refine hfinish (metered_with_lease ?_ _ _ _ hs)
    exact Prog.Calls.bind (meters_ingest_batch request.events) fun _ => trivial

/-- The counters of every run are those of its published events. -/
theorem run_metered (calls : List Call) : Metered (run env config calls (Gateway.start config)) := by
  induction calls using List.reverseRecOn with
  | nil => exact ⟨rfl, fun _ h => absurd h List.not_mem_nil⟩
  | append_singleton calls call ih =>
    rw [run_append]
    exact call.metered ih

end GatewayService

/-- The batch that an event reports as received. -/
def events.Gateway.batch : events.Gateway → Option (List LocationEvent)
  | .IngestBatchReceived _ events _ => some events
  | _ => none

/-- The batches that were reported as received, in order. -/
def Gateway.batches (gateway : Gateway) : List (List LocationEvent) := gateway.published.filterMap events.Gateway.batch

/-- How many events an event reports as rejected for a reason. -/
def events.Gateway.rejection (reason : String) : events.Gateway → Option ℤ
  | .IngestBatchRejected _ other rejected_count => if other = reason then some rejected_count else none
  | _ => none

/-- The numbers of events that were reported as rejected for a reason, in order. -/
def Gateway.rejections (gateway : Gateway) (reason : String) : List ℤ :=
  gateway.published.filterMap (events.Gateway.rejection reason)

/-- The key of the rejections for a reason. -/
def rejected_key (reason : String) : String := labeled_key "ingest_rejected_total" (label_pair "reason" reason)

/-- The key determines the reason. -/
theorem rejected_key_injective {reason reason' : String} (h : rejected_key reason = rejected_key reason') :
    reason = reason' := by
  have htext := congrArg String.toList h
  simp only [rejected_key, labeled_key, label_pair, String.toList_append, List.append_cancel_left_eq,
    List.append_cancel_right_eq, List.append_assoc] at htext
  exact String.toList_inj.mp htext

namespace GatewayService

/-- The changes that the handlers make for published events. -/
def updates (published : List events.Gateway) : List MetricsUpdate :=
  (published.flatMap events.Gateway.calls).map MetricsCall.update

/-- One more event makes the changes of its handlers. -/
theorem updates_concat (published : List events.Gateway) (event : events.Gateway) :
    updates (published ++ [event]) = updates published ++ event.calls.map MetricsCall.update := by
  unfold updates
  rw [List.flatMap_append, List.flatMap_singleton, List.map_append]

/-- The counter of received events is the sum of the batches. -/
theorem metrics_received (published : List events.Gateway) : (metrics_of published).ingest_received_total =
    ((published.filterMap events.Gateway.batch).map fun batch => (batch.length : ℤ)).sum := by
  induction published using List.reverseRecOn with
  | nil => rfl
  | append_singleton published event ih =>
    rw [metrics_of_concat, List.filterMap_append, List.map_append, List.sum_append, ← ih]
    cases event with
    | IngestBatchReceived device_id events received_at_ms =>
      exact congrArg ((metrics_of published).ingest_received_total + ·) (add_zero _).symm
    | GatewayBackpressureApplied reason duration_ms => exact (add_zero _).symm
    | IngestBatchRejected device_id reason rejected_count => exact (add_zero _).symm
    | IngestEventPublished event topic => exact (add_zero _).symm

/-- The counter of queued events is their number. -/
theorem metrics_queued (published : List events.Gateway) : (metrics_of published).ingest_queued_total =
    ((published.filterMap events.Gateway.reported).length : ℤ) := by
  induction published using List.reverseRecOn with
  | nil => rfl
  | append_singleton published event ih =>
    rw [metrics_of_concat, List.filterMap_append, List.length_append, Nat.cast_add, ← ih]
    cases event with
    | IngestEventPublished event topic => rfl
    | GatewayBackpressureApplied reason duration_ms => exact (add_zero _).symm
    | IngestBatchRejected device_id reason rejected_count => exact (add_zero _).symm
    | IngestBatchReceived device_id events received_at_ms => exact (add_zero _).symm

/-- The counter of a reason is the sum of its rejections. -/
theorem metrics_rejected (published : List events.Gateway) (reason : String) :
    (metrics_of published).ingest_rejected_total.lookup reason =
      if published.filterMap (events.Gateway.rejection reason) = [] then none
      else some (published.filterMap (events.Gateway.rejection reason)).sum := by
  induction published using List.reverseRecOn with
  | nil => rfl
  | append_singleton published event ih =>
    have hother : events.Gateway.rejection reason event = none →
        (Metrics.handle event (metrics_of published)).ingest_rejected_total.lookup reason =
          (metrics_of published).ingest_rejected_total.lookup reason →
        (metrics_of (published ++ [event])).ingest_rejected_total.lookup reason =
          if (published ++ [event]).filterMap (events.Gateway.rejection reason) = [] then none
          else some ((published ++ [event]).filterMap (events.Gateway.rejection reason)).sum := by
      intro hnone hsame
      rw [metrics_of_concat, hsame, ih, List.filterMap_append, List.filterMap_cons_none hnone, List.filterMap_nil,
        List.append_nil]
    cases event with
    | GatewayBackpressureApplied cause duration_ms => exact hother rfl rfl
    | IngestBatchReceived device_id events received_at_ms => exact hother rfl rfl
    | IngestEventPublished event topic => exact hother rfl rfl
    | IngestBatchRejected device_id cause rejected_count =>
      by_cases hcause : cause = reason
      · -- The count is added to what the counter has, or is the first.
        subst hcause
        have hcount : events.Gateway.rejection cause (.IngestBatchRejected device_id cause rejected_count) =
            some rejected_count := if_pos rfl
        rw [metrics_of_concat, List.filterMap_append, List.filterMap_cons_some hcount, List.filterMap_nil,
          if_neg (List.append_ne_nil_of_right_ne_nil _ (List.cons_ne_nil _ _)), List.sum_append, List.sum_singleton]
        refine (AList.lookup_insert (metrics_of published).ingest_rejected_total).trans ?_
        rw [ih]
        split
        · next hnil => rw [hnil]; rfl
        · rfl
      · exact hother (if_neg hcause) (AList.lookup_insert_ne (Ne.symm hcause))

/-- What the registry has after published events. -/
structure Shows (published : List events.Gateway) (registry : MetricsRegistry) : Prop where
  received : registry.counters.lookup "ingest_received_total" =
    if published.filterMap events.Gateway.batch = [] then none else some (metrics_of published).ingest_received_total
  queued : registry.counters.lookup "ingest_queued_total" =
    if published.filterMap events.Gateway.reported = [] then none
    else some ((published.filterMap events.Gateway.reported).length : ℤ)
  rejected : ∀ reason, registry.counters.lookup (rejected_key reason) =
    (metrics_of published).ingest_rejected_total.lookup reason
  gauges : registry.gauges = ∅
  observations : registry.observations = ∅

section Steps

variable {published : List events.Gateway} {registry : MetricsRegistry}

/-- The keys of rejections are other keys. -/
theorem rejected_key_ne (reason : String) :
    rejected_key reason ≠ "ingest_received_total" ∧ rejected_key reason ≠ "ingest_queued_total" := by
  constructor <;> intro h <;> have htext := congrArg String.toList h <;>
    simp [rejected_key, labeled_key, label_pair] at htext

/-- An event that a selection leaves out. -/
theorem filterMap_concat_none {β : Type} {f : events.Gateway → Option β} {event : events.Gateway} (h : f event = none) :
    (published ++ [event]).filterMap f = published.filterMap f := by
  rw [List.filterMap_append, List.filterMap_cons_none h, List.filterMap_nil, List.append_nil]

/-- An event that it takes. -/
theorem filterMap_concat_some {β : Type} {f : events.Gateway → Option β} {event : events.Gateway} {b : β}
    (h : f event = some b) : (published ++ [event]).filterMap f = published.filterMap f ++ [b] := by
  rw [List.filterMap_append, List.filterMap_cons_some h, List.filterMap_nil]

/-- Back pressure is not counted. -/
theorem Shows.backpressure (h : Shows published registry) (reason : String) (duration_ms : ℤ) :
    Shows (published ++ [.GatewayBackpressureApplied reason duration_ms]) registry where
  received := by
    rw [h.received, filterMap_concat_none (by rfl), metrics_of_concat]
    rfl
  queued := by rw [h.queued, filterMap_concat_none (by rfl)]
  rejected reason := by
    rw [h.rejected, metrics_of_concat]
    rfl
  gauges := h.gauges
  observations := h.observations

/-- A batch is counted with its size. -/
theorem Shows.batch (h : Shows published registry) (device_id : String) (batch : List LocationEvent) (now : ℤ) :
    Shows (published ++ [.IngestBatchReceived device_id batch now])
      (registry.perform (.inc_counter "ingest_received_total" batch.length)) where
  received := by
    rw [MetricsRegistry.counters_inc_counter, h.received,
      filterMap_concat_some (by rfl), if_neg (List.append_ne_nil_of_right_ne_nil _ (List.cons_ne_nil _ _)),
      metrics_of_concat]
    refine congrArg some (congrArg (· + (batch.length : ℤ)) ?_)
    split
    · next hnil => rw [metrics_received, hnil]; rfl
    · rfl
  queued := by
    rw [MetricsRegistry.counters_inc_counter_ne _ (by simp), h.queued, filterMap_concat_none (by rfl)]
  rejected reason := by
    rw [MetricsRegistry.counters_inc_counter_ne _ (rejected_key_ne reason).1.symm, h.rejected,
      metrics_of_concat]
    rfl
  gauges := h.gauges
  observations := h.observations

/-- A rejection adds to the counter of its reason. -/
theorem perform_rejection (registry : MetricsRegistry) (reason : String) (count : ℤ) :
    registry.perform (.inc_labeled_counter "ingest_rejected_total" (label_pair "reason" reason) count) =
      registry.perform (.inc_counter (rejected_key reason) count) := rfl

/-- A rejection is counted under its reason. -/
theorem Shows.rejection (h : Shows published registry) (device_id reason : String) (rejected_count : ℤ) :
    Shows (published ++ [.IngestBatchRejected device_id reason rejected_count]) (registry.perform
      (.inc_labeled_counter "ingest_rejected_total" (label_pair "reason" reason) rejected_count)) where
  received := by
    rw [perform_rejection, MetricsRegistry.counters_inc_counter_ne _ (rejected_key_ne reason).1, h.received,
      filterMap_concat_none (by rfl), metrics_of_concat]
    rfl
  queued := by
    rw [perform_rejection, MetricsRegistry.counters_inc_counter_ne _ (rejected_key_ne reason).2, h.queued,
      filterMap_concat_none (by rfl)]
  rejected other := by
    rw [perform_rejection, metrics_of_concat]
    by_cases hreason : reason = other
    · subst hreason
      rw [MetricsRegistry.counters_inc_counter, h.rejected]
      exact (AList.lookup_insert (metrics_of published).ingest_rejected_total).symm
    · rw [MetricsRegistry.counters_inc_counter_ne _ fun heq => hreason (rejected_key_injective heq), h.rejected]
      exact (AList.lookup_insert_ne (Ne.symm hreason)).symm
  gauges := h.gauges
  observations := h.observations

/-- An event that reaches the topic is counted as queued. -/
theorem Shows.publication (h : Shows published registry) (event : LocationEvent) (topic : String) :
    Shows (published ++ [.IngestEventPublished event topic])
      (registry.perform (.inc_counter "ingest_queued_total" 1)) where
  received := by
    rw [MetricsRegistry.counters_inc_counter_ne _ (by simp), h.received, filterMap_concat_none (by rfl),
      metrics_of_concat]
    rfl
  queued := by
    rw [MetricsRegistry.counters_inc_counter, h.queued,
      filterMap_concat_some (by rfl), if_neg (List.append_ne_nil_of_right_ne_nil _ (List.cons_ne_nil _ _)),
      List.length_append, List.length_singleton, Nat.cast_succ]
    refine congrArg (fun n : ℤ => some (n + 1)) ?_
    split
    · next hnil => rw [hnil]; rfl
    · rfl
  rejected reason := by
    rw [MetricsRegistry.counters_inc_counter_ne _ (rejected_key_ne reason).2.symm, h.rejected,
      metrics_of_concat]
    rfl
  gauges := h.gauges
  observations := h.observations

end Steps

/-- The registry shows what was published. -/
theorem shows_after (published : List events.Gateway) : Shows published (.after (updates published)) := by
  induction published using List.reverseRecOn with
  | nil => exact ⟨rfl, rfl, fun _ => rfl, rfl, rfl⟩
  | append_singleton published event ih =>
    rw [updates_concat]
    cases event with
    | GatewayBackpressureApplied reason duration_ms =>
      exact (List.append_nil (updates published)).symm ▸ ih.backpressure reason duration_ms
    | IngestBatchReceived device_id batch now =>
      exact (MetricsRegistry.after_concat (updates published) _).symm ▸ ih.batch device_id batch now
    | IngestBatchRejected device_id reason rejected_count =>
      exact (MetricsRegistry.after_concat (updates published) _).symm ▸ ih.rejection device_id reason rejected_count
    | IngestEventPublished event topic =>
      exact (MetricsRegistry.after_concat (updates published) _).symm ▸ ih.publication event topic

/-- After any run of calls the registry has the counters of the gateway. -/
theorem counters_of_run (calls : List Call) :
    let gateway := run env config calls (Gateway.start config)
    let registry := MetricsRegistry.after (updates gateway.published)
    registry.counter_value "ingest_received_total" = gateway.metrics.ingest_received_total ∧
      registry.counter_value "ingest_queued_total" = gateway.metrics.ingest_queued_total ∧
      ∀ reason, registry.counters.lookup (rejected_key reason) =
        gateway.metrics.ingest_rejected_total.lookup reason := by
  intro gateway registry
  have hmetrics : gateway.metrics = metrics_of gateway.published := (run_metered calls).metrics
  have hshows : Shows gateway.published registry := shows_after gateway.published
  unfold MetricsRegistry.counter_value
  rw [hmetrics, hshows.received, hshows.queued]
  refine ⟨?_, ?_, hshows.rejected⟩
  · split
    · next hnil => rw [metrics_received, hnil]; rfl
    · rfl
  · rw [metrics_queued]
    split
    · next hnil => rw [hnil]; rfl
    · rfl

/-- The reasons that the handlers put into labels are on one line. -/
theorem Metered.label (h : Metered s) : ∀ call ∈ s.published.flatMap events.Gateway.calls, ∀ label ∈ call.label,
    '\n' ∉ label.toList := by
  intro call hcall label hlabel
  obtain ⟨event, hevent, hcall⟩ := List.mem_flatMap.mp hcall
  have hone := h.one_line event hevent
  cases event with
  | GatewayBackpressureApplied reason duration_ms => cases hcall
  | IngestBatchReceived device_id batch now =>
    obtain rfl := List.mem_singleton.mp hcall
    cases hlabel
  | IngestBatchRejected device_id reason rejected_count =>
    obtain rfl := List.mem_singleton.mp hcall
    cases hlabel
    exact hone
  | IngestEventPublished event topic =>
    obtain rfl := List.mem_singleton.mp hcall
    cases hlabel

/-- A counter that is there if something was counted. -/
theorem exists_ite_iff {nothing : Prop} [Decidable nothing] {z : ℤ} {value : String} :
    (∃ n, (if nothing then none else some z) = some n ∧ value = toString n) ↔ ¬nothing ∧ value = toString z := by
  by_cases h : nothing
  · rw [if_pos h]
    exact iff_of_false (by rintro ⟨n, hn, -⟩; cases hn) fun hnot => hnot.1 h
  · rw [if_neg h]
    constructor
    · rintro ⟨n, hn, rfl⟩
      cases hn
      exact ⟨h, rfl⟩
    · rintro ⟨-, rfl⟩
      exact ⟨z, rfl, rfl⟩

/-- After any run of calls, whatever the producer does, a scrape of the registry that counts the gateway's events
reads what has happened there, however its request is split: the number of messages on the topic as queued, the sizes
of the batches as received, and under each reason what was rejected for it. A counter is missing exactly if nothing
was counted. -/
theorem gateway_scrape (env : GatewayEnvironment) (config : GatewayServiceConfig) (endpoint : MetricsExporterEndpoint)
    (calls : List Call) {stream version : List Char} (hpath : ' ' ∉ endpoint.path.toList) (hne : endpoint.path ≠ "")
    (hblank : Text.find blank_line (stream.take endpoint.max_request_bytes) ≠ none)
    (hline : first_line (stream.take endpoint.max_request_bytes) =
      "GET".toList ++ ' ' :: (endpoint.path.toList ++ ' ' :: version)) :
    let gateway := run env config calls (Gateway.start config)
    ∃ bytes text : List Char,
      (∀ (order : Store.HashOrder) (eof : Bool) (recv : ℕ → Option ℕ) (accepts : ℕ), (∀ i, recv i ≠ none) →
        (MetricsExporter.handle_client endpoint order (.after (updates gateway.published))
          ⟨stream, eof, recv, accepts⟩).toList = bytes) ∧
      Text.body bytes = some text ∧ ((scrape text).map Prod.fst).Nodup ∧
      (∀ value, ("ingest_queued_total", value) ∈ scrape text ↔
        gateway.produced ≠ [] ∧ value = toString gateway.produced.length) ∧
      (∀ value, ("ingest_received_total", value) ∈ scrape text ↔
        gateway.batches ≠ [] ∧ value = toString (gateway.batches.map List.length).sum) ∧
      ∀ reason value, (rejected_key reason, value) ∈ scrape text ↔
        gateway.rejections reason ≠ [] ∧ value = toString (gateway.rejections reason).sum := by
  intro gateway
  have hmetered : Metered gateway := run_metered calls
  have hfaithful : Faithful env config Set.univ gateway := run_faithful fun _ _ _ _ => trivial
  have hshows := shows_after gateway.published
  have hknown : (MetricsRegistry.after (updates gateway.published)).Known := MetricsRegistry.known_after hmetered.label
  have hread := MetricsRegistry.scrape_export_text .insertion _ (hknown.readable .insertion)
  obtain ⟨bytes, hbytes, -, hbody⟩ := exported endpoint (.after (updates gateway.published)) hpath hne hblank hline
  have hcounter : ∀ key value,
      (key, value) ∈ scrape ((MetricsRegistry.after (updates gateway.published)).export_text .insertion).toList ↔
        ∃ n, (MetricsRegistry.after (updates gateway.published)).counters.lookup key = some n ∧ value = toString n := by
    intro key value
    rw [hread, MetricsRegistry.mem_samples, hshows.gauges, hshows.observations]
    refine or_iff_left ?_
    rintro (⟨x, hx, -⟩ | ⟨name, o, ho, -⟩)
    · cases hx
    · cases ho
  have hproduced : gateway.produced =
      (gateway.published.filterMap events.Gateway.reported).map (location_message config) := hfaithful.produced
  refine ⟨bytes, _, hbytes, hbody, hread ▸ hknown.nodup_samples .insertion, fun value => ?_, fun value => ?_,
    fun reason value => ?_⟩
  · rw [hcounter, hshows.queued, exists_ite_iff, hproduced, List.length_map, ne_eq, List.map_eq_nil_iff]
    rfl
  · have hsum : (metrics_of gateway.published).ingest_received_total = ((gateway.batches.map List.length).sum : ℕ) := by
      rw [metrics_received, Nat.cast_list_sum, List.map_map]
      rfl
    rw [hcounter, hshows.received, exists_ite_iff, hsum]
    rfl
  · rw [hcounter, hshows.rejected, metrics_rejected, exists_ite_iff]
    rfl

/-- A batch of one valid event, on quiet clocks. -/
theorem gateway_scrape_batch :
    let gateway := run quiet {} [.ingest_batch [first_event]] (Gateway.start {})
    let stream := "GET /metrics HTTP/1.1\r\n\r\n".toList
    ∃ bytes text : List Char,
      (MetricsExporter.handle_client {} .insertion (.after (updates gateway.published))
        ⟨stream, true, fun _ => some 3, 4096⟩).toList = bytes ∧ Text.body bytes = some text ∧
      ("ingest_queued_total", "1") ∈ scrape text ∧ ("ingest_received_total", "1") ∈ scrape text := by
  intro gateway stream
  obtain ⟨bytes, text, hbytes, htext, -, hqueued, hreceived, -⟩ := @gateway_scrape quiet {} {}
    [.ingest_batch [first_event]] stream "HTTP/1.1".toList (by decide) (by decide) (by decide) (by decide)
  refine ⟨bytes, text, hbytes .insertion true _ 4096 fun _ => Option.some_ne_none 3, htext, ?_, ?_⟩
  · exact (hqueued _).mpr ⟨by decide +kernel, by decide +kernel⟩
  · exact (hreceived _).mpr ⟨by decide +kernel, by decide +kernel⟩

end GatewayService

end SignalRoute
