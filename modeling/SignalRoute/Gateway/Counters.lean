import SignalRoute.Gateway.Service

/-!
# The counters of the gateway

An event that arrives is received, and then rejected or queued: the counters of the gateway should
say how many events went each way, and the numbers should add up. They do for a batch that gets as
far as `ingest_batch`. A single event is never counted as received, nor is a batch that is refused
before; and a batch that is too large is rejected with its size cut to an `int`.
`conserved_iff` is about every run: the counters are right after each call exactly if every call is
counted.
-/

namespace SignalRoute

open Interaction
open Store (total)

namespace GatewayService

open Prog

variable {env : GatewayEnvironment} {config : GatewayServiceConfig}

/-- The producer takes every event: the topic has a name, and no call throws. -/
structure NeverThrows (env : GatewayEnvironment) (config : GatewayServiceConfig) : Prop where
  topic : config.ingest_topic ≠ ""
  produce : ∀ tick, env.produce_error tick = none

/-- What the counters and the topic have grown by between two states. -/
structure Grew (r q x : ℤ) (gateway gateway' : Gateway) : Prop where
  running : gateway'.running = gateway.running
  received : gateway'.metrics.ingest_received_total = gateway.metrics.ingest_received_total + r
  queued : gateway'.metrics.ingest_queued_total = gateway.metrics.ingest_queued_total + q
  rejected : total gateway'.metrics.ingest_rejected_total =
    total gateway.metrics.ingest_rejected_total + x
  published : (gateway'.produced.length : ℤ) = gateway.produced.length + q

/-- What leaves the counters and the topic grows nothing. -/
theorem Grew.of_eq {s t : Gateway} (hrunning : t.running = s.running) (hmetrics : t.metrics = s.metrics)
    (hproduced : t.produced = s.produced) : Grew 0 0 0 s t := by
  refine ⟨hrunning, ?_, ?_, ?_, ?_⟩
  · rw [hmetrics, add_zero]
  · rw [hmetrics, add_zero]
  · rw [hmetrics, add_zero]
  · rw [hproduced, add_zero]

theorem Grew.trans {r q x r' q' x' : ℤ} {s t u : Gateway} (h : Grew r q x s t)
    (h' : Grew r' q' x' t u) : Grew (r + r') (q + q') (x + x') s u where
  running := h'.running.trans h.running
  received := by rw [h'.received, h.received, add_assoc]
  queued := by rw [h'.queued, h.queued, add_assoc]
  rejected := by rw [h'.rejected, h.rejected, add_assoc]
  published := by rw [h'.published, h.published, add_assoc]

/-- A step that leaves the counters and the topic changes nothing in what they have grown by. -/
theorem Grew.trans_eq {r q x : ℤ} {s t u : Gateway} (h : Grew r q x s t)
    (hrunning : u.running = t.running) (hmetrics : u.metrics = t.metrics)
    (hproduced : u.produced = t.produced) : Grew r q x s u where
  running := hrunning.trans h.running
  received := by rw [hmetrics, h.received]
  queued := by rw [hmetrics, h.queued]
  rejected := by rw [hmetrics, h.rejected]
  published := by rw [hproduced, h.published]

/-- Of some events, as many were queued as the topic has got, and the others were rejected. -/
def Settled (received events : ℤ) (gateway gateway' : Gateway) : Prop :=
  ∃ queued, Grew received queued (events - queued) gateway gateway'

/-- Events that are settled one after the other. -/
theorem Settled.trans {r n r' n' : ℤ} {s t u : Gateway} (h : Settled r n s t)
    (h' : Settled r' n' t u) : Settled (r + r') (n + n') s u := by
  obtain ⟨q, h⟩ := h
  obtain ⟨q', h'⟩ := h'
  refine ⟨q + q', ?_⟩
  have := h.trans h'
  rwa [show n - q + (n' - q') = n + n' - (q + q') by omega] at this

/-- Nothing to settle. -/
theorem Settled.of_grew {r n : ℤ} {s t : Gateway} (h : Grew r 0 n s t) : Settled r n s t :=
  ⟨0, by rwa [sub_zero]⟩

section Actions

variable {s : Gateway}

/-- A program that settles events, returning or not. -/
abbrev Settles {α : Type} (r n : ℤ) (p : GatewayAction α) (s : Gateway) : Prop :=
  p.Always .atomic (fun _ => True) (fun _ => Settled r n s) (fun _ _ => False) s

/-- A rejection is counted under its reason. -/
theorem grew_rejected (device_id reason : String) (n : ℤ) :
    Grew 0 0 n s (s.publish (.IngestBatchRejected device_id reason n)) := by
  refine ⟨rfl, (add_zero _).symm, (add_zero _).symm, ?_, (add_zero _).symm⟩
  show total (s.metrics.ingest_rejected_total.insert reason _) = _
  rw [Store.total_insert]
  omega

/-- A batch is counted as received. -/
theorem grew_received (device_id : String) (batch : List LocationEvent) (now : ℤ) :
    Grew batch.length 0 0 s (s.publish (.IngestBatchReceived device_id batch now)) :=
  ⟨rfl, rfl, (add_zero _).symm, (add_zero _).symm, (add_zero _).symm⟩

/-- A published event is counted, after the topic got it. -/
theorem grew_published (hnever : NeverThrows env config) (event : LocationEvent) :
    ∃ t, s.produce_location env config event = (.ok (), t) ∧
      Grew 0 1 0 s (t.publish (.IngestEventPublished event config.ingest_topic)) := by
  unfold Gateway.produce_location produce
  rw [hnever.produce, if_neg hnever.topic]
  refine ⟨_, rfl, rfl, (add_zero _).symm, rfl, (add_zero _).symm, ?_⟩
  show ((s.produced ++ [_]).length : ℤ) = _
  rw [List.length_append, List.length_singleton, Nat.cast_add, Nat.cast_one]

/-- Stamping reads a clock at most. -/
theorem always_stamp (event : LocationEvent) : (stamp env event).Always .atomic (fun _ => True)
    (fun _ t => Grew 0 0 0 s t) (fun _ _ => False) s := by
  unfold stamp now_ms
  split
  · simp only [bind_eq, always_bind, always_atomically, pure_eq, always_pure, true_and]
    exact Grew.of_eq rfl rfl rfl
  · exact Grew.of_eq rfl rfl rfl

/-- `ingest_one` settles one event, and does not count it as received. -/
theorem settles_ingest_one (hnever : NeverThrows env config) (hrunning : s.running = true)
    (event : LocationEvent) : Settles 0 1 (ingest_one env config event) s := by
  unfold ingest_one Settles
  simp only [bind_eq, always_bind, always_read, hrunning, Bool.not_true, Bool.false_eq_true,
    if_false, true_and]
  refine (always_stamp event).imp (fun _ => id) (fun stamped t ht => ?_) fun _ _ => id
  unfold now_ms
  rw [always_atomically]
  refine ⟨trivial, ?_⟩
  generalize hu : ({ t with tick := t.tick + 1 } : Gateway) = u
  have hsu : Grew 0 0 0 s u := by
    rw [← hu]
    exact ht.trans_eq rfl rfl rfl
  split
  · -- The event is not valid.
    rename_i reason _
    simp only [publish, always_bind, always_modify, pure_eq, always_pure, true_and]
    exact .of_grew (hsu.trans (grew_rejected _ _ 1))
  · simp only [always_bind, always_atomically, true_and]
    generalize hv : (u.allow env stamped.device_id).2 = v
    have hsv : Grew 0 0 0 s v := by
      rw [← hv]
      exact hsu.trans_eq rfl rfl rfl
    split
    · simp only [publish, always_bind, always_modify, pure_eq, always_pure, true_and]
      have hback : Grew 0 0 0 s (v.publish (.GatewayBackpressureApplied "rate limited" 0)) :=
        hsv.trans_eq rfl rfl rfl
      exact .of_grew (hback.trans (grew_rejected _ _ 1))
    · obtain ⟨w, hproduce, hgrew⟩ := grew_published (s := v) hnever stamped
      simp only [publish, always_bind, always_atomically, hproduce, always_ofExcept, always_modify,
        pure_eq, always_pure, true_and]
      exact ⟨1, hsv.trans hgrew⟩

/-- A check with another text does not end with the given one. -/
theorem check_ne {fails : Prop} [Decidable fails] {message text : String} {rest : Except String Unit}
    (hmessage : message ≠ text) (hrest : rest ≠ .error text) :
    (if fails then .error message else rest) ≠ .error text := by
  split
  · exact fun h => hmessage (Except.error.inj h)
  · exact hrest

/-- The validator never refuses an event as too large a batch. -/
theorem validate_ne_batch (now : ℤ) (event : LocationEvent) :
    validate config.toGatewayConfig now event ≠ .error "batch too large" := by
  unfold validate
  iterate 9 refine check_ne (by simp) ?_
  intro h
  cases h

/-- Where no event is refused as too large a batch, the batch is not refused as a whole. -/
theorem not_batch_level_reject {results : List (Except String Unit)}
    (h : ∀ result ∈ results, result ≠ .error "batch too large") : ¬batch_level_reject results = true := by
  intro hreject
  unfold batch_level_reject at hreject
  cases results with
  | nil => cases hreject
  | cons result results =>
    have hfirst := h result List.mem_cons_self
    cases result with
    | ok _ => simp at hreject
    | error reason =>
      simp only [List.isEmpty_cons, Bool.not_false, List.all_cons, Bool.true_and,
        Bool.and_eq_true, decide_eq_true_eq] at hreject
      exact hfirst (by rw [hreject.1])

/-- A batch is refused as a whole exactly where it is over the limit and not empty. -/
theorem always_validate_batch (batch : List LocationEvent) :
    (validate_batch env config batch).Always .atomic (fun _ => True)
      (fun results t => Grew 0 0 0 s t ∧ (batch_level_reject results = true ↔
        over_limit config batch = true ∧ batch ≠ [])) (fun _ _ => False) s := by
  unfold validate_batch
  by_cases hlarge : over_limit config batch = true
  · rw [if_pos hlarge]
    refine ⟨Grew.of_eq rfl rfl rfl, ?_⟩
    cases batch <;> simp [batch_level_reject, hlarge]
  · rw [if_neg hlarge]
    have hloop := always_foldEach (h := .atomic) (I := fun _ => True) (E := fun _ _ => False)
      (fun (_ : List LocationEvent) (results : List (Except String Unit)) t => Grew 0 0 0 s t ∧
        ∀ result ∈ results, result ≠ .error "batch too large")
      (fun results event => do
        let now ← now_ms env
        return results ++ [validate config.toGatewayConfig now event])
      (fun event rest results t ⟨ht, hresults⟩ => by
        simp only [now_ms, bind_eq, always_bind, always_atomically, pure_eq, always_pure, true_and]
        refine ⟨ht.trans_eq rfl rfl rfl, fun result hresult => ?_⟩
        rcases List.mem_append.mp hresult with hold | hnew
        · exact hresults result hold
        · rw [List.mem_singleton.mp hnew]
          exact validate_ne_batch _ _)
      batch [] s ⟨Grew.of_eq rfl rfl rfl, fun _ h => absurd h List.not_mem_nil⟩
    refine hloop.imp (fun _ => id) (fun results t ⟨ht, hresults⟩ => ⟨ht, ?_⟩) fun _ _ => id
    exact iff_of_false (not_batch_level_reject hresults) fun h => hlarge h.1

/-- How many events of a batch `ingest_batch` settles: a batch over the limit is rejected with its size
as an `int`. -/
def settled (config : GatewayServiceConfig) (batch : List LocationEvent) : ℤ :=
  if over_limit config batch then castInt batch.length else batch.length

/-- The loop settles every event. -/
theorem settles_ingest_each (hnever : NeverThrows env config) (hrunning : s.running = true)
    (batch : List LocationEvent) : Settles 0 batch.length (ingest_each env config batch) s := by
  unfold ingest_each Settles
  have hloop := always_foldEach (h := .atomic) (I := fun _ => True) (E := fun _ _ => False)
    (fun (rest : List LocationEvent) (_ : IngestResult) t =>
      t.running = true ∧ Settled 0 (batch.length - rest.length) s t)
    (fun result event => do
      let one ← ingest_one env config event
      return IngestResult.add result one)
    (fun event rest result t ⟨ht, hst⟩ => by
      simp only [bind_eq, always_bind, pure_eq, always_pure]
      refine (settles_ingest_one hnever ht event).imp (fun _ => id) (fun _ u htu => ?_) fun _ _ => id
      obtain ⟨q, hgrew⟩ := htu
      refine ⟨hgrew.running.trans ht, ?_⟩
      have := hst.trans ⟨q, hgrew⟩
      rwa [List.length_cons, Nat.cast_add, Nat.cast_one, add_zero,
        show (batch.length : ℤ) - (rest.length + 1) + 1 = batch.length - rest.length by omega] at this)
    batch {} s ⟨hrunning, 0, by
      rw [sub_self, sub_zero]
      exact Grew.of_eq rfl rfl rfl⟩
  refine hloop.imp (fun _ => id) (fun _ t ht => ?_) fun _ _ => id
  have := ht.2
  rwa [List.length_nil, Nat.cast_zero, sub_zero] at this

/-- A batch that is refused as a whole is rejected with its size as an `int`. -/
theorem settles_reject_batch (batch : List LocationEvent) :
    Settles 0 (castInt batch.length) (reject_batch batch) s := by
  unfold reject_batch publish Settles
  generalize castInt batch.length = n
  simp only [bind_eq, always_bind, always_modify, pure_eq, always_pure, true_and]
  exact .of_grew (grew_rejected _ _ _)

/-- `ingest_batch` counts every event as received. -/
theorem settles_ingest_batch (hnever : NeverThrows env config) (hrunning : s.running = true)
    (batch : List LocationEvent) :
    Settles batch.length (settled config batch) (ingest_batch env config batch) s := by
  unfold ingest_batch Settles
  rw [bind_eq, always_bind, now_ms, always_atomically]
  refine ⟨trivial, ?_⟩
  rw [bind_eq, always_bind, publish, always_modify]
  refine ⟨trivial, ?_⟩
  rw [bind_eq, always_bind]
  refine (always_validate_batch batch).imp (fun _ => id) (fun results t ⟨hgrew, hlarge⟩ => ?_)
    fun _ _ => id
  have hreceived : Grew batch.length 0 0 s t := by
    have := (Grew.of_eq (s := s) (t := { s with tick := s.tick + 1 }) rfl rfl rfl).trans
      ((grew_received (batch_device batch) batch (env.system_ms s.tick)).trans hgrew)
    simpa using this
  by_cases hreject : batch_level_reject results = true
  · rw [if_pos hreject]
    refine (settles_reject_batch batch).imp (fun _ => id) (fun _ u hu => ?_) fun _ _ => id
    have := (Settled.of_grew hreceived).trans hu
    rw [add_zero, zero_add] at this
    unfold settled
    rwa [if_pos (hlarge.mp hreject).1]
  · rw [if_neg hreject]
    refine (settles_ingest_each hnever (hreceived.running.trans hrunning) batch).imp (fun _ => id)
      (fun _ u hu => ?_) fun _ _ => id
    have hsettled : settled config batch = batch.length := by
      unfold settled
      split
      · -- Only an empty batch is over the limit and not refused as a whole.
        have hnil : batch = [] := by
          by_contra hne
          exact hreject (hlarge.mpr ⟨‹_›, hne⟩)
        rw [hnil]
        rfl
      · rfl
    have := (Settled.of_grew hreceived).trans hu
    rw [hsettled]
    rwa [add_zero, zero_add] at this

/-- A request that is refused before it reaches the service is rejected with the count it was given,
and not counted as received. -/
theorem settles_reject_transport (reason device_id : String) (n : ℤ) (backpressure : Bool) :
    Settles 0 n (reject_transport_request config reason n device_id backpressure) s := by
  unfold reject_transport_request publish Settles
  cases backpressure with
  | false =>
    simp only [Bool.false_eq_true, if_false, bind_eq, always_bind, always_modify, pure_eq,
      always_pure, true_and]
    exact .of_grew (grew_rejected _ _ _)
  | true =>
    simp only [if_true, bind_eq, always_bind, always_modify, pure_eq, always_pure, true_and]
    have hback : Grew 0 0 0 s
        (s.publish (.GatewayBackpressureApplied reason config.queue_full_timeout_ms)) :=
      Grew.of_eq rfl rfl rfl
    have := hback.trans (grew_rejected device_id reason n)
    rw [zero_add, zero_add] at this
    exact .of_grew this

/-- A request gets to the service if it is authorized and there is a lease for it. -/
def Served (env : GatewayEnvironment) (config : GatewayServiceConfig) (gateway : Gateway)
    (api_key : String) : Prop :=
  authorize config api_key = .ok () ∧ gateway.may_acquire env config = true

/-- What `try_acquire` answers. -/
theorem try_acquire_cases (env : GatewayEnvironment) (config : GatewayServiceConfig) (s : Gateway) :
    ∃ answer t, s.try_acquire env config = (answer, t) ∧ Grew 0 0 0 s t ∧
      (s.may_acquire env config = true → ∃ active, answer = .ok active) ∧
      (¬s.may_acquire env config = true → ∃ reason, answer = .error reason) := by
  unfold Gateway.try_acquire
  by_cases hmay : s.may_acquire env config = true
  · rw [if_pos hmay]
    split
    · exact ⟨_, _, rfl, Grew.of_eq rfl rfl rfl, fun _ => ⟨_, rfl⟩, fun h => absurd hmay h⟩
    · exact ⟨_, _, rfl, Grew.of_eq rfl rfl rfl, fun _ => ⟨_, rfl⟩, fun h => absurd hmay h⟩
  · rw [if_neg hmay]
    exact ⟨_, _, rfl, Grew.of_eq rfl rfl rfl, fun h => absurd h hmay, fun _ => ⟨_, rfl⟩⟩

/-- A request that is served settles what its body settles. -/
theorem settles_with_lease {r n : ℤ} {body : GatewayAction IngestResponse}
    (hbody : ∀ t : Gateway, t.running = s.running → Settles r n body t) {api_key : String}
    (hserved : Served env config s api_key) (rejected_count : ℤ) (device_id : String) :
    Settles r n (with_lease env config api_key rejected_count device_id body) s := by
  obtain ⟨hauth, hmay⟩ := hserved
  obtain ⟨answer, t, hacquire, hst, hok, -⟩ := try_acquire_cases env config s
  obtain ⟨active, rfl⟩ := hok hmay
  unfold with_lease Settles
  rw [hauth]
  dsimp only
  rw [bind_eq, always_bind, always_atomically, hacquire]
  refine ⟨trivial, ?_⟩
  dsimp only
  rw [bind_eq, always_bind, always_tryCatch]
  refine (hbody t hst.running).imp (fun _ => id) (fun response u hu => ?_) fun _ _ h => h.elim
  -- The lease ends, which counts nothing.
  rw [bind_eq, always_bind, always_modify]
  have hrelease : Grew 0 0 0 u (u.release active) := by
    unfold Gateway.release
    split <;> exact Grew.of_eq rfl rfl rfl
  have := ((Settled.of_grew hst).trans hu).trans (.of_grew hrelease)
  rw [zero_add, zero_add, add_zero, add_zero] at this
  exact ⟨trivial, this⟩

/-- A request that is not served settles what it is rejected with. -/
theorem settles_of_not_served {body : GatewayAction IngestResponse} {api_key : String}
    (hserved : ¬Served env config s api_key) (rejected_count : ℤ) (device_id : String) :
    Settles 0 rejected_count (with_lease env config api_key rejected_count device_id body) s := by
  unfold with_lease Settles
  cases hauth : authorize config api_key with
  | error reason => exact settles_reject_transport _ _ _ _
  | ok _ =>
    obtain ⟨answer, t, hacquire, hst, -, herror⟩ := try_acquire_cases env config s
    obtain ⟨reason, rfl⟩ := herror fun hmay => hserved ⟨hauth, hmay⟩
    dsimp only
    rw [bind_eq, always_bind, always_atomically, hacquire]
    refine ⟨trivial, ?_⟩
    refine (settles_reject_transport _ _ _ _).imp (fun _ => id) (fun _ u hu => ?_) fun _ _ => id
    have := (Settled.of_grew hst).trans hu
    rwa [zero_add, zero_add] at this

end Actions

/-! ## Runs of calls -/

/-- The state when a program has ended. -/
def finish {α : Type} (p : GatewayAction α) (s : Gateway) : Gateway := (p.exec .atomic s).final

/-- A call of the service. -/
inductive Call where
  | ingest_one (event : LocationEvent)
  | ingest_batch (batch : List LocationEvent)
  | handle_ingest_one (request : IngestOneRequest)
  | handle_ingest_batch (request : IngestBatchRequest)

namespace Call

/-- How many events a call submits. -/
def submitted : Call → ℕ
  | ingest_one _ => 1
  | ingest_batch batch => batch.length
  | handle_ingest_one _ => 1
  | handle_ingest_batch request => request.events.length

/-- The state after a call. -/
def after (env : GatewayEnvironment) (config : GatewayServiceConfig) :
    Call → Gateway → Gateway
  | ingest_one event => finish (GatewayService.ingest_one env config event)
  | ingest_batch batch => finish (GatewayService.ingest_batch env config batch)
  | handle_ingest_one request => finish (GatewayService.handle_ingest_one env config request)
  | handle_ingest_batch request => finish (GatewayService.handle_ingest_batch env config request)

/-- The size of a batch as an `int` is its size, or is within the limit. -/
def Fits (config : GatewayServiceConfig) (batch : List LocationEvent) : Prop :=
  over_limit config batch = true → castInt batch.length = batch.length

/-- The calls whose events are counted as they go: a batch that gets to `ingest_batch`, and fits. -/
def Counted (env : GatewayEnvironment) (config : GatewayServiceConfig) (s : Gateway) : Call → Prop
  | ingest_one _ => False
  | ingest_batch batch => Fits config batch
  | handle_ingest_one _ => False
  | handle_ingest_batch request => Served env config s request.api_key ∧ Fits config request.events

end Call

/-- The state after some calls. -/
def run (env : GatewayEnvironment) (config : GatewayServiceConfig) (calls : List Call)
    (s : Gateway) : Gateway :=
  calls.foldl (fun s call => call.after env config s) s

/-- What was received was queued or rejected. -/
def Balanced (s : Gateway) : Prop :=
  s.metrics.ingest_received_total =
    s.metrics.ingest_queued_total + total s.metrics.ingest_rejected_total

/-- The counters have grown by the events that were submitted, those that the topic got, and the
others. -/
def Exact (submitted : ℕ) (s t : Gateway) : Prop := Settled submitted submitted s t

/-- How many events a step received and settled is determined by the two states. -/
theorem Settled.unique {r n r' n' : ℤ} {s t : Gateway} (h : Settled r n s t)
    (h' : Settled r' n' s t) : r = r' ∧ n = n' := by
  obtain ⟨q, -, hr, hq, hx, -⟩ := h
  obtain ⟨q', -, hr', hq', hx', -⟩ := h'
  omega

/-- A program that settles events has settled them when it ends. -/
theorem Settles.final {α : Type} {r n : ℤ} {p : GatewayAction α} {s : Gateway}
    (h : Settles r n p s) : Settled r n s (finish p s) :=
  Always.final (h.imp (fun _ => id) (fun _ _ => id) fun _ _ h => h.elim)

/-- How many events of a batch are settled is their number exactly if the batch fits. -/
theorem settled_eq_iff (batch : List LocationEvent) :
    settled config batch = batch.length ↔ Call.Fits config batch := by
  unfold settled Call.Fits
  cases over_limit config batch <;> simp

/-- The body of `handle_ingest_one`. -/
theorem settles_handle_ingest_one (hnever : NeverThrows env config) {s : Gateway}
    (hrunning : s.running = true) (request : IngestOneRequest) :
    Settles 0 1 (handle_ingest_one env config request) s := by
  by_cases hserved : Served env config s request.api_key
  · refine settles_with_lease (fun t ht => ?_) hserved _ _
    unfold Settles
    rw [bind_eq, always_bind]
    refine (settles_ingest_one hnever (ht.trans hrunning) request.event).imp (fun _ => id)
      (fun result u hu => ?_) fun _ _ => id
    cases result <;> exact hu
  · exact settles_of_not_served hserved _ _

/-- The body of `handle_ingest_batch`. -/
theorem settles_handle_ingest_batch (hnever : NeverThrows env config) {s : Gateway}
    (hrunning : s.running = true) {request : IngestBatchRequest}
    (hserved : Served env config s request.api_key) :
    Settles request.events.length (settled config request.events)
      (handle_ingest_batch env config request) s := by
  refine settles_with_lease (fun t ht => ?_) hserved _ _
  unfold Settles
  rw [bind_eq, always_bind]
  exact (settles_ingest_batch hnever (ht.trans hrunning) request.events).imp (fun _ => id)
    (fun _ _ => id) fun _ _ => id

/-- The counters are exact after a call exactly if the call is counted. -/
theorem exact_iff (hnever : NeverThrows env config) {s : Gateway} (hrunning : s.running = true)
    (call : Call) : Exact call.submitted s (call.after env config s) ↔ call.Counted env config s := by
  cases call with
  | ingest_one event =>
    refine iff_of_false (fun h => ?_) id
    obtain ⟨hr, -⟩ := (settles_ingest_one hnever hrunning event).final.unique h
    cases hr
  | ingest_batch batch =>
    have hsettled := (settles_ingest_batch hnever hrunning batch).final
    show _ ↔ Call.Fits config batch
    rw [← settled_eq_iff]
    refine ⟨fun h => (hsettled.unique h).2, fun h => ?_⟩
    rw [h] at hsettled
    exact hsettled
  | handle_ingest_one request =>
    refine iff_of_false (fun h => ?_) id
    obtain ⟨hr, -⟩ := (settles_handle_ingest_one hnever hrunning request).final.unique h
    cases hr
  | handle_ingest_batch request =>
    show _ ↔ Served env config s request.api_key ∧ Call.Fits config request.events
    by_cases hserved : Served env config s request.api_key
    · have hsettled := (settles_handle_ingest_batch hnever hrunning hserved).final
      rw [← settled_eq_iff, and_iff_right hserved]
      refine ⟨fun h => (hsettled.unique h).2, fun h => ?_⟩
      rw [h] at hsettled
      exact hsettled
    · refine iff_of_false (fun h => ?_) fun h => hserved h.1
      -- A refused batch is not received, and an empty one is rejected as one event.
      obtain ⟨hr, hx⟩ := (settles_of_not_served hserved _ _).final.unique h
      have hnil : request.events = [] := List.length_eq_zero_iff.mp (Int.ofNat.inj hr).symm
      rw [if_pos hnil, ← hr] at hx
      cases hx

/-- The service runs on after a call. -/
theorem running_after (hnever : NeverThrows env config) {s : Gateway} (hrunning : s.running = true)
    (call : Call) : (call.after env config s).running = true := by
  have hsettled : ∃ r n, Settled r n s (call.after env config s) := by
    cases call with
    | ingest_one event => exact ⟨_, _, (settles_ingest_one hnever hrunning event).final⟩
    | ingest_batch batch => exact ⟨_, _, (settles_ingest_batch hnever hrunning batch).final⟩
    | handle_ingest_one request =>
      exact ⟨_, _, (settles_handle_ingest_one hnever hrunning request).final⟩
    | handle_ingest_batch request =>
      by_cases hserved : Served env config s request.api_key
      · exact ⟨_, _, (settles_handle_ingest_batch hnever hrunning hserved).final⟩
      · exact ⟨_, _, (settles_of_not_served hserved _ _).final⟩
  obtain ⟨r, n, q, hgrew⟩ := hsettled
  exact hgrew.running.trans hrunning

/-- A call after others. -/
theorem run_append (calls : List Call) (call : Call) (s : Gateway) :
    run env config (calls ++ [call]) s = call.after env config (run env config calls s) :=
  List.foldl_append

/-- The service runs on. -/
theorem running_run (hnever : NeverThrows env config) {s : Gateway} (hrunning : s.running = true)
    (calls : List Call) : (run env config calls s).running = true := by
  induction calls using List.reverseRecOn with
  | nil => exact hrunning
  | append_singleton calls call ih =>
    rw [run_append]
    exact running_after hnever ih call

/-- Exact counters stay in balance. -/
theorem Balanced.of_exact {s t : Gateway} {n : ℕ} (hs : Balanced s) (h : Exact n s t) :
    Balanced t := by
  obtain ⟨q, -, hr, hq, hx, -⟩ := h
  unfold Balanced at *
  omega

/-- In every run from balanced counters, with a producer that never throws, the counters are in
balance and exact after every call if and only if every call is a batch that fits and, where it comes
through `handle_ingest_batch`, is authorized and admitted. -/
theorem conserved_iff (hnever : NeverThrows env config) {s : Gateway} (hrunning : s.running = true)
    (hbalanced : Balanced s) (calls : List Call) :
    (∀ earlier call, earlier ++ [call] <+: calls →
      Balanced (run env config (earlier ++ [call]) s) ∧
        Exact call.submitted (run env config earlier s) (run env config (earlier ++ [call]) s)) ↔
    ∀ earlier call, earlier ++ [call] <+: calls →
      call.Counted env config (run env config earlier s) := by
  constructor
  · intro h earlier call hprefix
    have hexact := (h earlier call hprefix).2
    rw [run_append] at hexact
    exact (exact_iff hnever (running_run hnever hrunning earlier) call).mp hexact
  · intro h
    have hexact : ∀ earlier call, earlier ++ [call] <+: calls → Exact call.submitted
        (run env config earlier s) (run env config (earlier ++ [call]) s) := by
      intro earlier call hprefix
      rw [run_append]
      exact (exact_iff hnever (running_run hnever hrunning earlier) call).mpr (h earlier call hprefix)
    -- Balance is carried from call to call.
    have hbalance : ∀ earlier, earlier <+: calls → Balanced (run env config earlier s) := by
      intro earlier
      induction earlier using List.reverseRecOn with
      | nil => exact fun _ => hbalanced
      | append_singleton earlier call ih =>
        intro hprefix
        exact (ih ((List.prefix_append _ _).trans hprefix)).of_exact (hexact earlier call hprefix)
    exact fun earlier call hprefix => ⟨hbalance _ hprefix, hexact earlier call hprefix⟩

/-- Clocks that stand at one second, and nothing that fails. -/
def quiet : GatewayEnvironment where
  system_ms _ := 1000
  steady_ns _ := 1000000000
  other_leases _ := 0
  produce_error _ := none

/-- A valid event of that time. -/
def first_event : LocationEvent := { device_id := "d", timestamp_ms := 1000, seq := 1 }

/-- With the default topic the producer takes every event. -/
theorem quiet_never : NeverThrows quiet {} := ⟨by decide, fun _ => rfl⟩

/-- The witness at a run of one batch. -/
theorem conserved_iff_batch :
    (∀ earlier call, earlier ++ [call] <+: [Call.ingest_batch [first_event]] →
      Balanced (run quiet {} (earlier ++ [call]) (Gateway.start {})) ∧
        Exact call.submitted (run quiet {} earlier (Gateway.start {}))
          (run quiet {} (earlier ++ [call]) (Gateway.start {}))) ↔
    ∀ earlier call, earlier ++ [call] <+: [Call.ingest_batch [first_event]] →
      call.Counted quiet {} (run quiet {} earlier (Gateway.start {})) :=
  conserved_iff quiet_never (s := Gateway.start {}) rfl rfl [.ingest_batch [first_event]]

/-- A single valid event is published, and no event was received. -/
theorem single_event_not_received : NeverThrows quiet {} ∧
    (run quiet {} [.ingest_one first_event] (Gateway.start {})).metrics.ingest_queued_total = 1 ∧
    (run quiet {} [.ingest_one first_event] (Gateway.start {})).metrics.ingest_received_total = 0 ∧
    ¬Balanced (run quiet {} [.ingest_one first_event] (Gateway.start {})) :=
  ⟨quiet_never, by decide +kernel, by decide +kernel, by unfold Balanced; decide +kernel⟩

end GatewayService

end SignalRoute
