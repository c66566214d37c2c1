import SignalRoute.Gateway.Counters
import Mathlib.Data.List.Forall2

/-!
# Batches against single events

`ingest_batch` hands the events of a batch to `ingest_one` in turn, once `validate_batch` has looked
at them all. What `ingest_one` does before it reaches the producer depends on the clocks and the
limiter only: `verdict` says it as a function, and `produce_ticks` says at which ticks a batch calls
the producer. If every one of these calls returns, the loop over the batch does what the single
calls do (`turns_of_taken`); if one throws, so does the loop, and nothing reports how far it came.

`ingests_as_singles_iff` compares a batch with single events where the producer takes everything. The
sizes and the counts are of type `int`, which is what is left to go wrong, and does not for a batch that
a request can have (`ingests_as_singles`). `reports_failures_iff` is about a producer that throws.
-/

namespace SignalRoute

open Interaction

namespace GatewayService

open Prog (ends ends_bind_ok ends_bind_error ends_bind_atomically ends_bind_modify ends_bind_read
  ends_ofExcept ends_pure ends_throw atomically foldEach bind_eq pure_eq)

variable (env : GatewayEnvironment) (config : GatewayServiceConfig)

/-- An event with its time of receipt, and the tick after. -/
def stamped (tick : ℕ) (event : LocationEvent) : LocationEvent × ℕ :=
  if event.server_recv_ms = 0 then ({ event with server_recv_ms := env.system_ms tick }, tick + 1)
  else (event, tick)

/-- What becomes of an event before it reaches the producer: it is refused with a text, or it goes on.
With it, the limiter and the tick then. -/
def verdict (limiter : RateLimiter) (tick : ℕ) (event : LocationEvent) :
    Except String LocationEvent × RateLimiter × ℕ :=
  let (event, tick) := stamped env tick event
  match validate config.toGatewayConfig (env.system_ms tick) event with
  | .error reason => (.error reason, limiter, tick + 1)
  | .ok () =>
    let (allowed, limiter) := limiter.allow event.device_id (env.steady_ns (tick + 1))
    (if allowed then .ok event else .error "rate limited", limiter, tick + 2)

/-- The ticks at which the events of a batch reach the producer. -/
def produce_ticks (limiter : RateLimiter) (tick : ℕ) : List LocationEvent → List ℕ
  | [] => []
  | event :: batch =>
    match verdict env config limiter tick event with
    | (.error _, limiter, tick) => produce_ticks limiter tick batch
    | (.ok _, limiter, tick) => tick :: produce_ticks limiter (tick + 1) batch

/-- The producer takes what reaches it at a tick. -/
def Takes (tick : ℕ) : Prop := config.ingest_topic ≠ "" ∧ env.produce_error tick = none

/-- The message of an event in the ingest topic. -/
def location_message (event : LocationEvent) : ProducedMessage :=
  ⟨config.ingest_topic, event.device_id, encode_location_payload event⟩

/-- `ingest_one` for each event, one after the other: the answers, as far as they go, and the state. -/
def in_turn : List LocationEvent → Gateway → List (Except String LocationEvent) × Gateway
  | [], s => ([], s)
  | event :: batch, s =>
    match (ingest_one env config event).ends .atomic s with
    | (.ok one, t) => (one :: (in_turn batch t).1, (in_turn batch t).2)
    | (.error _, t) => ([], t)

/-- The events that were accepted. -/
def accepted_of (ones : List (Except String LocationEvent)) : List LocationEvent :=
  ones.filterMap Except.toOption

/-- The texts of those that were not. -/
def errors_of (ones : List (Except String LocationEvent)) : List String :=
  ones.filterMap fun
    | .ok _ => none
    | .error reason => some reason

/-- An event, or the event with a reading of the clock as its time of receipt. -/
def Stamped (accepted event : LocationEvent) : Prop :=
  ∃ tick, accepted = (stamped env tick event).1

/-- What a call leaves: the limiter, the tick and the messages that it has added, with the rest of what
later calls depend on as it was. -/
structure Leaves (s t : Gateway) (limiter : RateLimiter) (tick : ℕ) (messages : List ProducedMessage) :
    Prop where
  running : t.running = s.running
  in_flight : t.in_flight = s.in_flight
  rate_limiter : t.rate_limiter = limiter
  tick : t.tick = tick
  produced : t.produced = s.produced ++ messages

section Singles

variable {env config} {s : Gateway} {event : LocationEvent}

/-- Stamping reads a clock at most. -/
theorem ends_stamp : (stamp env event).ends .atomic s =
    (.ok (stamped env s.tick event).1, { s with tick := (stamped env s.tick event).2 }) := by
  unfold stamp stamped
  split <;> rfl

/-- A service that is not running refuses. -/
theorem ends_ingest_one_stopped (hrunning : s.running = false) :
    (ingest_one env config event).ends .atomic s = (.ok (.error "gateway service is not running"), s) := by
  unfold ingest_one
  simp [hrunning]

/-- The end of `ingest_one`, for an event that has passed the checks. -/
def publish_one (env : GatewayEnvironment) (config : GatewayServiceConfig) (event : LocationEvent) :
    GatewayAction (Except String LocationEvent) := do
  let result ← atomically (Gateway.produce_location env config event)
  Prog.ofExcept result
  publish (.IngestEventPublished event config.ingest_topic)
  return .ok event

/-- A refusal is not an acceptance. -/
theorem error_ne_ok {ε α : Type} {e : ε} {a : α} : (.error e : Except ε α) ≠ .ok a := by
  intro h
  cases h

/-- A refused event does not reach the producer, and another goes on to it. -/
theorem ends_ingest_one (hrunning : s.running = true) {answer : Except String LocationEvent}
    {limiter : RateLimiter} {tick : ℕ}
    (hverdict : verdict env config s.rate_limiter s.tick event = (answer, limiter, tick)) :
    ∃ t, (∀ reason, answer = .error reason →
        (ingest_one env config event).ends .atomic s = (.ok (.error reason), t)) ∧
      (∀ checked, answer = .ok checked →
        (ingest_one env config event).ends .atomic s = (publish_one env config checked).ends .atomic t) ∧
      Leaves s t limiter tick [] := by
  unfold verdict at hverdict
  unfold ingest_one
  simp only [bind_eq, ends_bind_read, hrunning, Bool.not_true, Bool.false_eq_true, if_false]
  rw [ends_bind_ok ends_stamp]
  generalize stamped env s.tick event = mark at hverdict ⊢
  obtain ⟨marked, later⟩ := mark
  dsimp only at hverdict ⊢
  unfold now_ms
  rw [ends_bind_atomically]
  dsimp only
  have hnil : s.produced = s.produced ++ [] := (List.append_nil _).symm
  generalize validate config.toGatewayConfig (env.system_ms later) marked = checks at hverdict ⊢
  cases checks with
  | error text =>
    obtain ⟨rfl, rfl, rfl⟩ := by simpa using hverdict
    refine ⟨({ s with tick := later + 1 } : Gateway).publish
      (.IngestBatchRejected marked.device_id text 1), fun reason hreason => ?_,
      fun _ h => (error_ne_ok h).elim, ⟨rfl, rfl, rfl, rfl, hnil⟩⟩
    cases hreason
    rfl
  | ok _ =>
    dsimp only at hverdict ⊢
    rw [ends_bind_atomically]
    unfold Gateway.allow
    dsimp only
    cases hallow : s.rate_limiter.allow marked.device_id (env.steady_ns (later + 1)) with
    | mk allowed limited =>
      rw [hallow] at hverdict
      cases allowed with
      | true =>
        obtain ⟨rfl, rfl, rfl⟩ := by simpa using hverdict
        refine ⟨{ s with rate_limiter := limited, tick := later + 2 },
          fun _ h => (error_ne_ok h.symm).elim, fun checked hchecked => ?_,
          ⟨rfl, rfl, rfl, rfl, hnil⟩⟩
        cases hchecked
        rfl
      | false =>
        obtain ⟨rfl, rfl, rfl⟩ := by simpa using hverdict
        refine ⟨(({ s with rate_limiter := limited, tick := later + 2 } : Gateway).publish
          (.GatewayBackpressureApplied "rate limited" 0)).publish
            (.IngestBatchRejected marked.device_id "rate limited" 1), fun reason hreason => ?_,
          fun _ h => (error_ne_ok h).elim, ⟨rfl, rfl, rfl, rfl, hnil⟩⟩
        cases hreason
        rfl

/-- What the producer takes is published. -/
theorem ends_publish_one (htakes : Takes env config s.tick) :
    ∃ t, (publish_one env config event).ends .atomic s = (.ok (.ok event), t) ∧
      Leaves s t s.rate_limiter (s.tick + 1) [location_message config event] := by
  unfold publish_one
  rw [bind_eq, ends_bind_atomically]
  unfold Gateway.produce_location produce
  rw [htakes.2, if_neg htakes.1]
  exact ⟨_, rfl, rfl, rfl, rfl, rfl, rfl⟩

/-- What the producer does not take is thrown. -/
theorem ends_publish_one_error (htakes : ¬Takes env config s.tick) :
    ∃ e t, (publish_one env config event).ends .atomic s = (.error e, t) ∧ t.in_flight = s.in_flight := by
  unfold publish_one
  rw [bind_eq, ends_bind_atomically]
  unfold Gateway.produce_location produce
  cases herror : env.produce_error s.tick with
  | some what => exact ⟨_, _, rfl, rfl⟩
  | none =>
    have htopic : config.ingest_topic = "" := by
      by_contra hne
      exact htakes ⟨hne, herror⟩
    rw [if_pos htopic]
    exact ⟨_, _, rfl, rfl⟩

/-- An event that passes the checks is the one that arrived, stamped. -/
theorem Stamped.of_verdict {limiter limiter' : RateLimiter} {tick tick' : ℕ} {checked : LocationEvent}
    (h : verdict env config limiter tick event = (.ok checked, limiter', tick')) :
    Stamped env checked event := by
  unfold verdict at h
  dsimp only at h
  split at h
  · cases h
  · generalize limiter.allow _ _ = answer at h
    obtain ⟨allowed, limited⟩ := answer
    cases allowed with
    | true =>
      cases h
      exact ⟨tick, rfl⟩
    | false => cases h

end Singles

/-- What an `IngestResult` says. -/
structure Counts (result : IngestResult) (accepted rejected : ℕ) (errors : List String) : Prop where
  accepted : result.accepted = castInt accepted
  rejected : result.rejected = castInt rejected
  errors : result.errors = errors

section Counts

variable (ones : List (Except String LocationEvent)) (event : LocationEvent) (reason : String)

@[simp] theorem accepted_of_ok : accepted_of (.ok event :: ones) = event :: accepted_of ones := rfl

@[simp] theorem accepted_of_error : accepted_of (.error reason :: ones) = accepted_of ones := rfl

@[simp] theorem errors_of_ok : errors_of (.ok event :: ones) = errors_of ones := rfl

@[simp] theorem errors_of_error : errors_of (.error reason :: ones) = reason :: errors_of ones := rfl

/-- Every event of a batch is accepted or not. -/
theorem length_accepted_add_errors :
    (accepted_of ones).length + (errors_of ones).length = ones.length := by
  induction ones with
  | nil => rfl
  | cons one ones ih => cases one <;> simp <;> omega

/-- A count in an `int` wraps as it goes. -/
theorem castInt_castInt_add (a b : ℤ) : castInt (castInt a + b) = castInt (a + b) := by
  unfold castInt
  exact Int.bmod_add_bmod

variable {result : IngestResult} {a r : ℕ} {errors : List String}

theorem Counts.add_ok (h : Counts result a r errors) :
    Counts (IngestResult.add result (.ok event)) (a + 1) r errors where
  accepted := by
    show castInt (result.accepted + 1) = _
    rw [h.accepted, castInt_castInt_add, Nat.cast_add, Nat.cast_one]
  rejected := h.rejected
  errors := h.errors

theorem Counts.add_error (h : Counts result a r errors) :
    Counts (IngestResult.add result (.error reason)) a (r + 1) (errors ++ [reason]) where
  accepted := h.accepted
  rejected := by
    show castInt (result.rejected + 1) = _
    rw [h.rejected, castInt_castInt_add, Nat.cast_add, Nat.cast_one]
  errors := by
    show result.errors ++ [reason] = _
    rw [h.errors]

/-- What the counts come to. -/
theorem Counts.foldl (h : Counts result a r errors) :
    Counts (ones.foldl IngestResult.add result) (a + (accepted_of ones).length)
      (r + (errors_of ones).length) (errors ++ errors_of ones) := by
  induction ones generalizing result a r errors with
  | nil => simpa [accepted_of, errors_of] using h
  | cons one ones ih =>
    rw [List.foldl_cons]
    cases one with
    | ok event =>
      have hones := ih (h.add_ok event)
      rwa [add_assoc, add_comm 1] at hones
    | error reason =>
      have hones := ih (h.add_error reason)
      rwa [add_assoc r, add_comm 1, List.append_assoc, List.singleton_append] at hones

end Counts

section Turns

variable {env config} {s : Gateway}

/-- What the single calls do with the events of a batch: each is answered, and the accepted ones are
in the topic, in their order. -/
structure Turns (env : GatewayEnvironment) (config : GatewayServiceConfig) (batch : List LocationEvent)
    (s t : Gateway) (ones : List (Except String LocationEvent)) (calls : ℕ) : Prop where
  length : ones.length = batch.length
  in_flight : t.in_flight = s.in_flight
  accepted : List.SublistForall₂ (Stamped env) (accepted_of ones) batch
  produced : t.produced = s.produced ++ (accepted_of ones).map (location_message config)
  calls : (accepted_of ones).length = calls

/-- The turn of one event, in a loop that counts. -/
def count_one (env : GatewayEnvironment) (config : GatewayServiceConfig) (result : IngestResult)
    (event : LocationEvent) : GatewayAction IngestResult := do
  let one ← ingest_one env config event
  return IngestResult.add result one

/-- The loop goes on after an event that is answered. -/
theorem ends_count_ok {event : LocationEvent} {batch : List LocationEvent} {t : Gateway}
    {one : Except String LocationEvent}
    (h : (ingest_one env config event).ends .atomic s = (.ok one, t)) (result : IngestResult) :
    (foldEach (event :: batch) result (count_one env config)).ends .atomic s =
      (foldEach batch (IngestResult.add result one) (count_one env config)).ends .atomic t := by
  have hone : (count_one env config result event).ends .atomic s = (.ok (IngestResult.add result one), t) := by
    unfold count_one
    rw [bind_eq, ends_bind_ok h]
    rfl
  rw [foldEach, ends_bind_ok hone]

/-- An exception ends it. -/
theorem ends_count_error {event : LocationEvent} {batch : List LocationEvent} {t : Gateway} {e : Exception}
    (h : (ingest_one env config event).ends .atomic s = (.error e, t)) (result : IngestResult) :
    (foldEach (event :: batch) result (count_one env config)).ends .atomic s = (.error e, t) := by
  have hone : (count_one env config result event).ends .atomic s = (.error e, t) := by
    unfold count_one
    rw [bind_eq, ends_bind_error h]
  rw [foldEach, ends_bind_error hone]

/-- A service that is not running refuses every event. -/
theorem turns_of_stopped (hrunning : s.running = false) (batch : List LocationEvent) :
    ∃ ones, in_turn env config batch s = (ones, s) ∧ Turns env config batch s s ones 0 ∧
      ∀ result, (foldEach batch result (count_one env config)).ends .atomic s =
        (.ok (ones.foldl IngestResult.add result), s) := by
  induction batch with
  | nil => exact ⟨[], rfl, ⟨rfl, rfl, .nil, (List.append_nil _).symm, rfl⟩, fun _ => rfl⟩
  | cons event batch ih =>
    obtain ⟨ones, hturn, hones, hloop⟩ := ih
    have hone : (ingest_one env config event).ends .atomic s = _ := ends_ingest_one_stopped hrunning
    refine ⟨.error "gateway service is not running" :: ones, ?_,
      ⟨?_, rfl, hones.accepted.cons_right, hones.produced, hones.calls⟩,
      fun result => ?_⟩
    · unfold in_turn
      rw [hone]
      dsimp only
      rw [hturn]
    · rw [List.length_cons, hones.length, List.length_cons]
    · rw [ends_count_ok hone, hloop, List.foldl_cons]

/-- If the producer takes every event that reaches it, each event is answered in turn, and the loop
counts the answers. -/
theorem turns_of_taken (hrunning : s.running = true) {batch : List LocationEvent}
    (htaken : ∀ tick ∈ produce_ticks env config s.rate_limiter s.tick batch, Takes env config tick) :
    ∃ ones t, in_turn env config batch s = (ones, t) ∧
      Turns env config batch s t ones
        (produce_ticks env config s.rate_limiter s.tick batch).length ∧
      ∀ result, (foldEach batch result (count_one env config)).ends .atomic s =
        (.ok (ones.foldl IngestResult.add result), t) := by
  induction batch generalizing s with
  | nil => exact ⟨[], s, rfl, ⟨rfl, rfl, .nil, (List.append_nil _).symm, rfl⟩, fun _ => rfl⟩
  | cons event batch ih =>
    unfold produce_ticks at htaken ⊢
    cases hverdict : verdict env config s.rate_limiter s.tick event with
    | mk answer rest =>
      obtain ⟨limiter, tick⟩ := rest
      obtain ⟨t, hrefused, hchecked, hleaves⟩ := ends_ingest_one hrunning hverdict
      rw [hverdict] at htaken
      cases answer with
      | error reason =>
        dsimp only at htaken ⊢
        have hone := hrefused reason rfl
        rw [← hleaves.rate_limiter, ← hleaves.tick] at htaken ⊢
        obtain ⟨ones, u, hturn, hones, hloop⟩ := ih (hleaves.running.trans hrunning) htaken
        refine ⟨.error reason :: ones, u, ?_, ⟨?_, ?_, ?_, ?_, ?_⟩, fun result => ?_⟩
        · unfold in_turn
          rw [hone]
          dsimp only
          rw [hturn]
        · rw [List.length_cons, hones.length, List.length_cons]
        · rw [hones.in_flight, hleaves.in_flight]
        · exact hones.accepted.cons_right
        · rw [hones.produced, hleaves.produced, List.append_nil, accepted_of_error]
        · exact hones.calls
        · rw [ends_count_ok hone, hloop, List.foldl_cons]
      | ok checked =>
        dsimp only at htaken ⊢
        obtain ⟨htake, hrest⟩ := List.forall_mem_cons.mp htaken
        rw [← hleaves.tick] at htake
        obtain ⟨u, hpublish, hu⟩ := @ends_publish_one env config t checked htake
        have hone := (hchecked checked rfl).trans hpublish
        rw [hleaves.rate_limiter, hleaves.tick] at hu
        rw [← hu.rate_limiter, ← hu.tick] at hrest ⊢
        obtain ⟨ones, v, hturn, hones, hloop⟩ := ih ((hu.running.trans hleaves.running).trans hrunning) hrest
        refine ⟨.ok checked :: ones, v, ?_, ⟨?_, ?_, ?_, ?_, ?_⟩, fun result => ?_⟩
        · unfold in_turn
          rw [hone]
          dsimp only
          rw [hturn]
        · rw [List.length_cons, hones.length, List.length_cons]
        · rw [hones.in_flight, hu.in_flight, hleaves.in_flight]
        · exact .cons (Stamped.of_verdict hverdict) hones.accepted
        · rw [hones.produced, hu.produced, hleaves.produced, List.append_nil, accepted_of_ok, List.map_cons,
            List.append_assoc, List.singleton_append]
        · rw [accepted_of_ok, List.length_cons, List.length_cons, hones.calls]
        · rw [ends_count_ok hone, hloop, List.foldl_cons]

/-- If the producer throws on an event that reaches it, so does the loop. -/
theorem throws_of_not_taken (hrunning : s.running = true) {batch : List LocationEvent}
    (htaken : ¬∀ tick ∈ produce_ticks env config s.rate_limiter s.tick batch, Takes env config tick)
    (result : IngestResult) :
    ∃ e t, (foldEach batch result (count_one env config)).ends .atomic s = (.error e, t) ∧
      t.in_flight = s.in_flight := by
  induction batch generalizing s result with
  | nil => exact absurd (fun _ h => absurd h List.not_mem_nil) htaken
  | cons event batch ih =>
    unfold produce_ticks at htaken
    cases hverdict : verdict env config s.rate_limiter s.tick event with
    | mk answer rest =>
      obtain ⟨limiter, tick⟩ := rest
      obtain ⟨t, hrefused, hchecked, hleaves⟩ := ends_ingest_one hrunning hverdict
      rw [hverdict] at htaken
      cases answer with
      | error reason =>
        dsimp only at htaken
        rw [← hleaves.rate_limiter, ← hleaves.tick] at htaken
        obtain ⟨e, u, hloop, hu⟩ := ih (hleaves.running.trans hrunning) htaken (IngestResult.add result (.error reason))
        exact ⟨e, u, (ends_count_ok (hrefused reason rfl) result).trans hloop, hu.trans hleaves.in_flight⟩
      | ok checked =>
        dsimp only at htaken
        by_cases htake : Takes env config t.tick
        · obtain ⟨u, hpublish, hu⟩ := @ends_publish_one env config t checked htake
          have hone := (hchecked checked rfl).trans hpublish
          rw [List.forall_mem_cons, not_and, ← hleaves.tick] at htaken
          have hrest := htaken htake
          rw [← hleaves.rate_limiter, ← hu.rate_limiter, ← hu.tick] at hrest
          obtain ⟨e, v, hloop, hv⟩ :=
            ih ((hu.running.trans hleaves.running).trans hrunning) hrest (IngestResult.add result (.ok checked))
          exact ⟨e, v, (ends_count_ok hone result).trans hloop,
            (hv.trans hu.in_flight).trans hleaves.in_flight⟩
        · obtain ⟨e, u, hpublish, hu⟩ := @ends_publish_one_error env config t checked htake
          have hone := (hchecked checked rfl).trans hpublish
          exact ⟨e, u, ends_count_error hone result, hu.trans hleaves.in_flight⟩

/-- The ticks at which the service calls its producer for a batch. -/
def produce_calls (env : GatewayEnvironment) (config : GatewayServiceConfig) (s : Gateway)
    (batch : List LocationEvent) : List ℕ :=
  if s.running then produce_ticks env config s.rate_limiter s.tick batch else []

/-- If the producer takes every event that reaches it, each is answered, and the loop counts. -/
theorem turns_of_calls {batch : List LocationEvent}
    (htaken : ∀ tick ∈ produce_calls env config s batch, Takes env config tick) :
    ∃ ones t, in_turn env config batch s = (ones, t) ∧
      Turns env config batch s t ones (produce_calls env config s batch).length ∧
      ∀ result, (foldEach batch result (count_one env config)).ends .atomic s =
        (.ok (ones.foldl IngestResult.add result), t) := by
  unfold produce_calls at htaken ⊢
  cases hrunning : s.running with
  | true =>
    rw [hrunning, if_pos rfl] at htaken
    exact turns_of_taken hrunning htaken
  | false =>
    obtain ⟨ones, hturn, hones, hloop⟩ := @turns_of_stopped env config s hrunning batch
    exact ⟨ones, s, hturn, hones, hloop⟩

/-- If it does not, the loop throws. -/
theorem throws_of_calls {batch : List LocationEvent}
    (htaken : ¬∀ tick ∈ produce_calls env config s batch, Takes env config tick) :
    ∃ e t, (foldEach batch {} (count_one env config)).ends .atomic s = (.error e, t) ∧
      t.in_flight = s.in_flight := by
  unfold produce_calls at htaken
  cases hrunning : s.running with
  | true =>
    rw [hrunning, if_pos rfl] at htaken
    exact throws_of_not_taken hrunning htaken {}
  | false =>
    rw [hrunning] at htaken
    exact absurd (fun _ h => absurd h List.not_mem_nil) htaken

end Turns

section Batch

variable {env config} {s : Gateway} {batch : List LocationEvent}

/-- The state in which the events of a batch are taken up: the batch is announced, and its validation has
read the clock for every event. -/
def batch_start (env : GatewayEnvironment) (batch : List LocationEvent) (s : Gateway) : Gateway :=
  { s.publish (.IngestBatchReceived (batch_device batch) batch (env.system_ms s.tick)) with
    tick := s.tick + 1 + batch.length }

/-- A batch is refused as a whole if it is over the limit, unless it is empty. -/
def Refused (config : GatewayServiceConfig) (batch : List LocationEvent) : Prop :=
  over_limit config batch = true ∧ batch ≠ []

instance (config : GatewayServiceConfig) (batch : List LocationEvent) : Decidable (Refused config batch) :=
  inferInstanceAs (Decidable (_ ∧ _))

/-- The validation of a batch within the limit reads the clock for each event. -/
theorem ends_validate_each (results : List (Except String Unit))
    (hresults : ∀ result ∈ results, result ≠ .error "batch too large") :
    ∃ results', (foldEach batch results fun results event => do
        let now ← now_ms env
        return results ++ [validate config.toGatewayConfig now event] :
          GatewayAction (List (Except String Unit))).ends .atomic s =
        (.ok results', { s with tick := s.tick + batch.length }) ∧
      ∀ result ∈ results', result ≠ .error "batch too large" := by
  induction batch generalizing s results with
  | nil => exact ⟨results, rfl, hresults⟩
  | cons event batch ih =>
    have hnew : ∀ result ∈ results ++ [validate config.toGatewayConfig (env.system_ms s.tick) event],
        result ≠ .error "batch too large" := by
      intro result hresult
      rcases List.mem_append.mp hresult with hold | hlast
      · exact hresults result hold
      · rw [List.mem_singleton.mp hlast]
        exact validate_ne_batch _ _
    obtain ⟨results', hends, hresults'⟩ := ih (s := { s with tick := s.tick + 1 }) _ hnew
    refine ⟨results', ?_, hresults'⟩
    rw [List.length_cons, add_comm batch.length, ← add_assoc]
    exact hends

/-- A batch that is not refused is taken up event by event. -/
theorem ends_ingest_batch_each (hrefused : ¬Refused config batch) :
    (ingest_batch env config batch).ends .atomic s =
      (foldEach batch {} (count_one env config)).ends .atomic (batch_start env batch s) := by
  unfold ingest_batch now_ms publish
  rw [bind_eq, ends_bind_atomically, bind_eq, ends_bind_modify, bind_eq]
  dsimp only
  unfold validate_batch
  by_cases hlarge : over_limit config batch = true
  · -- Only an empty batch is over the limit and not refused.
    have hnil : batch = [] := by
      by_contra hne
      exact hrefused ⟨hlarge, hne⟩
    subst hnil
    rw [if_pos hlarge]
    rfl
  · rw [if_neg hlarge]
    obtain ⟨results, hends, hresults⟩ := @ends_validate_each env config
      (({ s with tick := s.tick + 1 } : Gateway).publish
        (.IngestBatchReceived (batch_device batch) batch (env.system_ms s.tick))) batch []
      fun _ h => absurd h List.not_mem_nil
    rw [ends_bind_ok hends, if_neg (not_batch_level_reject hresults)]
    rfl

/-- A refused batch changes neither the topic nor the limiter. -/
theorem ends_ingest_batch_refused (hrefused : Refused config batch) :
    ∃ result t, (ingest_batch env config batch).ends .atomic s = (.ok result, t) ∧
      Counts result 0 batch.length (batch.map fun _ => "batch too large") ∧
      t.produced = s.produced ∧ t.rate_limiter = s.rate_limiter ∧ t.in_flight = s.in_flight := by
  obtain ⟨hlarge, hne⟩ := hrefused
  have hreject : batch_level_reject (batch.map fun _ => .error "batch too large") = true := by
    unfold batch_level_reject
    cases batch with
    | nil => exact absurd rfl hne
    | cons event batch => simp
  unfold ingest_batch now_ms publish validate_batch reject_batch
  rw [bind_eq, ends_bind_atomically, bind_eq, ends_bind_modify, if_pos hlarge, bind_eq, pure_eq]
  obtain ⟨count, hcount⟩ : ∃ count, count = castInt batch.length := ⟨_, rfl⟩
  rw [← hcount, Prog.pure_bind, if_pos hreject, bind_eq]
  exact ⟨_, _, rfl, ⟨rfl, hcount, rfl⟩, rfl, rfl, rfl⟩

/-- What a batch does, event by event, if the producer takes every event that reaches it. -/
theorem ends_ingest_batch_turns (hrefused : ¬Refused config batch)
    (htaken : ∀ tick ∈ produce_calls env config (batch_start env batch s) batch, Takes env config tick) :
    ∃ ones t, in_turn env config batch (batch_start env batch s) = (ones, t) ∧
      Turns env config batch (batch_start env batch s) t ones
        (produce_calls env config (batch_start env batch s) batch).length ∧
      ∃ result, (ingest_batch env config batch).ends .atomic s = (.ok result, t) ∧
        Counts result (accepted_of ones).length (errors_of ones).length (errors_of ones) := by
  obtain ⟨ones, t, hturn, hones, hloop⟩ := turns_of_calls htaken
  refine ⟨ones, t, hturn, hones, ones.foldl IngestResult.add {}, ?_, ?_⟩
  · rw [ends_ingest_batch_each hrefused, hloop]
  · have hstart : Counts {} 0 0 [] := ⟨rfl, rfl, rfl⟩
    have hones := hstart.foldl ones
    rwa [zero_add, zero_add, List.nil_append] at hones

/-- The topic says which events were accepted. -/
theorem Turns.accepted_unique {t : Gateway} {ones : List (Except String LocationEvent)} {calls : ℕ}
    (h : Turns env config batch s t ones calls) {accepted : List LocationEvent}
    (hproduced : t.produced = s.produced ++ accepted.map (location_message config)) :
    accepted.length = (accepted_of ones).length := by
  rw [h.produced] at hproduced
  have := congrArg List.length (List.append_cancel_left hproduced)
  rwa [List.length_map, List.length_map, eq_comm] at this

/-- A batch is over the limit where its size as an `int` is. -/
theorem over_limit_iff : over_limit config batch = true ↔ castInt batch.length > config.max_batch_events := by
  unfold over_limit
  exact decide_eq_true_iff

/-- A batch against single events: the counts are those of the batch, the topic grows by the accepted
events in their order, a batch over the limit has no effect on topic and limiter, and any other does
what the single calls do. -/
structure AsSingles (env : GatewayEnvironment) (config : GatewayServiceConfig) (batch : List LocationEvent)
    (s t : Gateway) (result : IngestResult) : Prop where
  counts : result.accepted + result.rejected = batch.length
  errors : (result.errors.length : ℤ) = result.rejected
  published : ∃ accepted : List LocationEvent, (accepted.length : ℤ) = result.accepted ∧
    List.SublistForall₂ (Stamped env) accepted batch ∧
    t.produced = s.produced ++ accepted.map (location_message config)
  too_large : (batch.length : ℤ) > config.max_batch_events →
    t.produced = s.produced ∧ t.rate_limiter = s.rate_limiter
  singles : (batch.length : ℤ) ≤ config.max_batch_events →
    ∃ ones, in_turn env config batch (batch_start env batch s) = (ones, t) ∧
      result.accepted = (accepted_of ones).length ∧ result.rejected = (errors_of ones).length ∧
      result.errors = errors_of ones

/-- `ingest_batch` returns, and does what the single calls do. -/
def IngestsAsSingles (env : GatewayEnvironment) (config : GatewayServiceConfig)
    (batch : List LocationEvent) (s : Gateway) : Prop :=
  ∃ result t, (ingest_batch env config batch).ends .atomic s = (.ok result, t) ∧
    AsSingles env config batch s t result

/-- The producer takes what reaches it at any tick. -/
theorem NeverThrows.takes (h : NeverThrows env config) (tick : ℕ) : Takes env config tick :=
  ⟨h.topic, h.produce tick⟩

/-- A program returns one value and one state. -/
theorem ends_unique {α : Type} {p : GatewayAction α} {a b : α} {t u : Gateway}
    (h : p.ends .atomic s = (.ok a, t)) (h' : p.ends .atomic s = (.ok b, u)) : a = b ∧ t = u := by
  obtain ⟨hvalue, hstate⟩ := Prod.mk.inj (h.symm.trans h')
  exact ⟨Except.ok.inj hvalue, hstate⟩

/-- A batch whose size does not fit an `int` is counted wrongly, or published although it is over the
limit. -/
theorem not_ingestsAsSingles (hnever : NeverThrows env config) (hmax : config.max_batch_events < 2^31)
    (hlength : 2^31 ≤ batch.length) : ¬IngestsAsSingles env config batch s := by
  have hcast : castInt batch.length ≠ batch.length := fun h => by
    have := (castInt_natCast_eq_iff _).mp h
    omega
  have hzero : castInt (0 : ℕ) = 0 := rfl
  rintro ⟨result, t, hends, has⟩
  have hcounts := has.counts
  by_cases hrefused : Refused config batch
  · obtain ⟨_, u, hbatch, hresult, -⟩ := @ends_ingest_batch_refused env config s batch hrefused
    obtain ⟨rfl, rfl⟩ := ends_unique hends hbatch
    rw [hresult.accepted, hresult.rejected, hzero, zero_add] at hcounts
    exact hcast hcounts
  · obtain ⟨ones, u, -, hones, _, hbatch, hresult⟩ :=
      ends_ingest_batch_turns (s := s) hrefused fun tick _ => hnever.takes tick
    obtain ⟨rfl, rfl⟩ := ends_unique hends hbatch
    -- Nothing may be published, so every event is counted as rejected.
    have hnone : (accepted_of ones).length = 0 := by
      have hempty : t.produced = s.produced ++ ([] : List LocationEvent).map (location_message config) := by
        rw [List.map_nil, List.append_nil, (has.too_large (by omega)).1]
      exact (hones.accepted_unique hempty).symm
    have hall := length_accepted_add_errors ones
    rw [hones.length, hnone, zero_add] at hall
    rw [hresult.accepted, hresult.rejected, hnone, hall, hzero, zero_add] at hcounts
    exact hcast hcounts

/-- With a producer that takes everything, a batch does what its events do one after the other exactly if
its size fits an `int`. -/
theorem ingests_as_singles_iff (hnever : NeverThrows env config) (hmax : config.max_batch_events < 2^31)
    (batch : List LocationEvent) (s : Gateway) :
    IngestsAsSingles env config batch s ↔ batch.length < 2^31 := by
  refine ⟨fun h => ?_, fun hlength => ?_⟩
  · by_contra hlarge
    exact not_ingestsAsSingles hnever hmax (not_lt.mp hlarge) h
  have hcast : ∀ n ≤ batch.length, castInt n = n := fun n hn =>
    (castInt_natCast_eq_iff _).mpr (lt_of_le_of_lt hn hlength)
  by_cases hrefused : Refused config batch
  · obtain ⟨result, t, hends, hresult, hproduced, hlimiter, -⟩ :=
      @ends_ingest_batch_refused env config s batch hrefused
    have haccepted := hresult.accepted.trans (hcast 0 (Nat.zero_le _))
    have hrejected := hresult.rejected.trans (hcast _ (le_refl _))
    have hover := over_limit_iff.mp hrefused.1
    rw [hcast _ (le_refl _)] at hover
    refine ⟨result, t, hends, ?_, ?_, ⟨[], haccepted.symm, .nil, ?_⟩,
      fun _ => ⟨hproduced, hlimiter⟩, fun hle => ?_⟩
    · rw [haccepted, hrejected, Nat.cast_zero, zero_add]
    · rw [hresult.errors, hrejected, List.length_map]
    · rw [hproduced, List.map_nil, List.append_nil]
    · omega
  · obtain ⟨ones, t, hturn, hones, result, hends, hresult⟩ :=
      ends_ingest_batch_turns (s := s) hrefused fun tick _ => hnever.takes tick
    have hall := length_accepted_add_errors ones
    rw [hones.length] at hall
    have haccepted := hresult.accepted.trans (hcast _ (by omega))
    have hrejected := hresult.rejected.trans (hcast _ (by omega))
    refine ⟨result, t, hends, ?_, ?_, ⟨_, haccepted.symm, hones.accepted, hones.produced⟩,
      fun hlarge => ?_, fun _ => ⟨ones, hturn, haccepted, hrejected, hresult.errors⟩⟩
    · rw [haccepted, hrejected, ← hall, Nat.cast_add]
    · rw [hresult.errors, hrejected]
    · -- Only an empty batch is over the limit and not refused.
      have hnil : batch = [] := by
        by_contra hne
        exact hrefused ⟨over_limit_iff.mpr (by rwa [hcast _ (le_refl _)]), hne⟩
      subst hnil
      cases hturn
      exact ⟨rfl, rfl⟩

/-- The events of a request are a repeated field, whose size is an `int`. -/
def max_repeated_size : ℕ := 2^31 - 1

/-- With a producer that takes everything, every batch that can be received does what its events do one after the
other, or is refused as a whole. -/
theorem ingests_as_singles (hnever : NeverThrows env config) (hmax : config.max_batch_events < 2^31)
    (hsize : batch.length ≤ max_repeated_size) (s : Gateway) : IngestsAsSingles env config batch s :=
  (ingests_as_singles_iff hnever hmax batch s).mpr (Nat.lt_of_le_sub_one (by decide) hsize)

/-- The witness at a batch of one event. -/
theorem ingests_as_singles_one : IngestsAsSingles quiet {} [first_event] (Gateway.start {}) :=
  ingests_as_singles quiet_never (by decide) (by decide) (Gateway.start {})

/-! ## A producer that throws -/

/-- What is reported of a batch is what happened to it: the accepted events are those in the topic, the
others are rejected, with an error for each or one for all, and the leases are those from before. -/
structure Reported (env : GatewayEnvironment) (config : GatewayServiceConfig) (batch : List LocationEvent)
    (s t : Gateway) (accepted_count rejected_count : ℤ) (errors : List String) : Prop where
  published : ∃ accepted, List.SublistForall₂ (Stamped env) accepted batch ∧
    t.produced = s.produced ++ accepted.map (location_message config) ∧
    accepted_count = accepted.length ∧ rejected_count = batch.length - accepted.length
  errors : (errors.length : ℤ) = rejected_count ∨ (accepted_count = 0 ∧ errors.length = 1)
  lease : t.in_flight = s.in_flight

/-- `ingest_batch` returns, and reports what happened. -/
def ReportsBatch (env : GatewayEnvironment) (config : GatewayServiceConfig) (batch : List LocationEvent)
    (s : Gateway) : Prop :=
  ∃ result t, (ingest_batch env config batch).ends .atomic s = (.ok result, t) ∧
    Reported env config batch s t result.accepted result.rejected result.errors

/-- `handle_ingest_batch` returns, and reports what happened. -/
def ReportsRequest (env : GatewayEnvironment) (config : GatewayServiceConfig) (request : IngestBatchRequest)
    (s : Gateway) : Prop :=
  ∃ response t, (handle_ingest_batch env config request).ends .atomic s = (.ok response, t) ∧
    Reported env config request.events s t response.accepted_count response.rejected_count response.errors

/-- A batch can be delivered: the producer takes what reaches it, and the numbers of the events that
reach it and of the others fit an `int`, as does the number of a batch that is refused. -/
def Deliverable (env : GatewayEnvironment) (config : GatewayServiceConfig) (batch : List LocationEvent)
    (s : Gateway) : Prop :=
  if Refused config batch then batch.length < 2^31
  else
    (∀ tick ∈ produce_calls env config (batch_start env batch s) batch, Takes env config tick) ∧
      (produce_calls env config (batch_start env batch s) batch).length < 2^31 ∧
      batch.length < 2^31 + (produce_calls env config (batch_start env batch s) batch).length

/-- What is counted is what there is, if it fits. -/
theorem Counts.fits_iff {result : IngestResult} {a r : ℕ} {errors : List String}
    (h : Counts result a r errors) : result.accepted = a ∧ result.rejected = r ↔ a < 2^31 ∧ r < 2^31 := by
  rw [h.accepted, h.rejected, castInt_natCast_eq_iff, castInt_natCast_eq_iff]

/-- A batch that returns is reported exactly if its counts fit. -/
theorem reported_iff {t : Gateway} {result : IngestResult} {accepted : List LocationEvent} {r : ℕ}
    {errors : List String} (hcounts : Counts result accepted.length r errors) (herrors : errors.length = r)
    (hall : accepted.length + r = batch.length)
    (haccepted : List.SublistForall₂ (Stamped env) accepted batch)
    (hproduced : t.produced = s.produced ++ accepted.map (location_message config))
    (hlease : t.in_flight = s.in_flight) :
    Reported env config batch s t result.accepted result.rejected result.errors ↔
      accepted.length < 2^31 ∧ r < 2^31 := by
  rw [← hcounts.fits_iff]
  constructor
  · rintro ⟨⟨events, -, hevents, ha, hr⟩, -, -⟩
    have hlength : events.length = accepted.length := by
      rw [hproduced] at hevents
      have := congrArg List.length (List.append_cancel_left hevents)
      rwa [List.length_map, List.length_map, eq_comm] at this
    exact ⟨by omega, by omega⟩
  · rintro ⟨ha, hr⟩
    refine ⟨⟨accepted, haccepted, hproduced, ha, by omega⟩, .inl ?_, hlease⟩
    rw [hcounts.errors, herrors, hr]

/-- `ingest_batch` reports what happened exactly if the batch can be delivered. -/
theorem reportsBatch_iff : ReportsBatch env config batch s ↔ Deliverable env config batch s := by
  unfold Deliverable
  by_cases hrefused : Refused config batch
  · rw [if_pos hrefused]
    obtain ⟨result, t, hends, hresult, hproduced, -, hlease⟩ :=
      @ends_ingest_batch_refused env config s batch hrefused
    have hreported : Reported env config batch s t result.accepted result.rejected result.errors ↔
        ([] : List LocationEvent).length < 2^31 ∧ batch.length < 2^31 :=
      reported_iff hresult (List.length_map _) (Nat.zero_add _) .nil (by rw [hproduced]; simp) hlease
    constructor
    · rintro ⟨_, _, hbatch, hreport⟩
      obtain ⟨rfl, rfl⟩ := ends_unique hends hbatch
      exact (hreported.mp hreport).2
    · exact fun hlength => ⟨result, t, hends, hreported.mpr ⟨by norm_num, hlength⟩⟩
  · rw [if_neg hrefused]
    by_cases htaken : ∀ tick ∈ produce_calls env config (batch_start env batch s) batch, Takes env config tick
    · rw [and_iff_right htaken]
      obtain ⟨ones, t, -, hones, result, hends, hresult⟩ := ends_ingest_batch_turns hrefused htaken
      have hall := length_accepted_add_errors ones
      rw [hones.length] at hall
      have hreported := reported_iff hresult rfl hall hones.accepted (s := s) hones.produced hones.in_flight
      have hfits : (accepted_of ones).length < 2^31 ∧ (errors_of ones).length < 2^31 ↔
          (produce_calls env config (batch_start env batch s) batch).length < 2^31 ∧
            batch.length < 2^31 + (produce_calls env config (batch_start env batch s) batch).length := by
        rw [← hones.calls]
        omega
      rw [← hfits]
      constructor
      · rintro ⟨_, _, hbatch, hreport⟩
        obtain ⟨rfl, rfl⟩ := ends_unique hends hbatch
        exact hreported.mp hreport
      · exact fun hfit => ⟨result, t, hends, hreported.mpr hfit⟩
    · refine iff_of_false ?_ fun h => htaken h.1
      rintro ⟨result, t, hbatch, -⟩
      obtain ⟨e, u, hloop, -⟩ := throws_of_calls htaken
      rw [ends_ingest_batch_each hrefused, hloop] at hbatch
      cases hbatch

/-- Whatever the producer does, `ingest_batch` takes and gives no lease. -/
theorem in_flight_ingest_batch :
    ((ingest_batch env config batch).ends .atomic s).2.in_flight = s.in_flight := by
  by_cases hrefused : Refused config batch
  · obtain ⟨result, t, hends, -, -, -, hlease⟩ := @ends_ingest_batch_refused env config s batch hrefused
    rw [hends]
    exact hlease
  · by_cases htaken : ∀ tick ∈ produce_calls env config (batch_start env batch s) batch, Takes env config tick
    · obtain ⟨ones, t, -, hones, result, hends, -⟩ := ends_ingest_batch_turns hrefused htaken
      rw [hends]
      exact hones.in_flight
    · obtain ⟨e, t, hloop, hlease⟩ := throws_of_calls htaken
      rw [ends_ingest_batch_each hrefused, hloop]
      exact hlease

/-- The body of `handle_ingest_batch`. -/
def respond (env : GatewayEnvironment) (config : GatewayServiceConfig) (batch : List LocationEvent) :
    GatewayAction IngestResponse := do
  let result ← ingest_batch env config batch
  return {
    accepted := result.rejected = 0
    accepted_count := result.accepted
    rejected_count := result.rejected
    errors := result.errors }

/-- The number that a request is rejected with before it reaches the service. -/
def refused_count (batch : List LocationEvent) : ℤ := if batch = [] then 1 else castInt batch.length

/-- A lease that is taken and released leaves the count. -/
theorem try_acquire_served (hmay : s.may_acquire env config = true) :
    ∃ active, s.try_acquire env config = (.ok active, (s.try_acquire env config).2) ∧
      (s.try_acquire env config).2.produced = s.produced ∧
      ∀ t : Gateway, t.in_flight = (s.try_acquire env config).2.in_flight →
        (t.release active).in_flight = s.in_flight := by
  unfold Gateway.try_acquire
  rw [if_pos hmay]
  split
  · exact ⟨false, rfl, rfl, fun t ht => ht⟩
  · refine ⟨true, rfl, rfl, fun t ht => ?_⟩
    show t.in_flight - 1 = s.in_flight
    rw [ht]
    exact Int.add_sub_cancel _ _

/-- `handle_ingest_batch` is its body in the frame of a request. -/
theorem handle_ingest_batch_eq (request : IngestBatchRequest) : handle_ingest_batch env config request =
    with_lease env config request.api_key (refused_count request.events) (batch_device request.events)
      (respond env config request.events) := rfl

/-- A request that is not served is refused as a whole. -/
theorem ends_with_lease_refused {api_key : String} (hserved : ¬Served env config s api_key) (count : ℤ)
    (device_id : String) (body : GatewayAction IngestResponse) :
    ∃ reason t, (with_lease env config api_key count device_id body).ends .atomic s =
        (.ok { rejected_count := count, errors := [reason] }, t) ∧
      t.produced = s.produced ∧ t.in_flight = s.in_flight := by
  have hreject : ∀ (u : Gateway) (reason : String) (backpressure : Bool),
      ∃ t, (reject_transport_request config reason count device_id backpressure).ends .atomic u =
          (.ok { rejected_count := count, errors := [reason] }, t) ∧
        t.produced = u.produced ∧ t.in_flight = u.in_flight := by
    intro u reason backpressure
    cases backpressure <;> exact ⟨_, rfl, rfl, rfl⟩
  unfold with_lease
  cases hauth : authorize config api_key with
  | error reason => exact ⟨reason, hreject s reason false⟩
  | ok _ =>
    dsimp only
    rw [bind_eq, ends_bind_atomically]
    have hmay : s.may_acquire env config ≠ true := fun hmay => hserved ⟨hauth, hmay⟩
    unfold Gateway.try_acquire
    rw [if_neg hmay]
    exact ⟨_, hreject _ "gateway backpressure" true⟩

/-- A request that is served ends as its body does, and its lease ends with it. -/
theorem ends_with_lease_served {api_key : String} (hserved : Served env config s api_key) (count : ℤ)
    (device_id : String) {body : GatewayAction IngestResponse} {outcome : Except Exception IngestResponse}
    {t : Gateway} (hbody : body.ends .atomic (s.try_acquire env config).2 = (outcome, t))
    (hlease : t.in_flight = (s.try_acquire env config).2.in_flight) :
    ∃ u, (with_lease env config api_key count device_id body).ends .atomic s = (outcome, u) ∧
      u.produced = t.produced ∧ u.in_flight = s.in_flight := by
  obtain ⟨hauth, hmay⟩ := hserved
  obtain ⟨active, hacquire, -, hrelease⟩ := try_acquire_served hmay
  have hproduced : (t.release active).produced = t.produced := by
    unfold Gateway.release
    split <;> rfl
  refine ⟨t.release active, ?_, hproduced, hrelease t hlease⟩
  unfold with_lease
  rw [hauth]
  dsimp only
  rw [bind_eq, ends_bind_atomically, hacquire]
  dsimp only
  rw [bind_eq]
  cases outcome with
  | ok response =>
    rw [ends_bind_ok (Prog.ends_tryCatch_ok hbody _)]
    rfl
  | error e =>
    have hthrow : (body.tryCatch fun e => do
        Prog.modify (Gateway.release active)
        (.throw e : GatewayAction IngestResponse)).ends .atomic (s.try_acquire env config).2 =
        (.error e, t.release active) := by
      rw [Prog.ends_tryCatch_error hbody]
      rfl
    rw [ends_bind_error hthrow]

/-- The body answers with the counts and the errors of its batch, and throws what it throws. -/
theorem ends_respond (batch : List LocationEvent) : (respond env config batch).ends .atomic s =
    (((ingest_batch env config batch).ends .atomic s).1.map fun result =>
      { accepted := result.rejected = 0, accepted_count := result.accepted,
        rejected_count := result.rejected, errors := result.errors },
      ((ingest_batch env config batch).ends .atomic s).2) := by
  unfold respond
  cases hbatch : (ingest_batch env config batch).ends .atomic s with
  | mk outcome t =>
    cases outcome with
    | error e => exact ends_bind_error hbatch _
    | ok result => exact ends_bind_ok hbatch _

/-- A request that is served reports what its batch reports. -/
theorem reportsRequest_iff_of_served {request : IngestBatchRequest}
    (hserved : Served env config s request.api_key) : ReportsRequest env config request s ↔
      ReportsBatch env config request.events (s.try_acquire env config).2 := by
  obtain ⟨active, -, hproduced, -⟩ := try_acquire_served hserved.2
  have hlease := @in_flight_ingest_batch env config (s.try_acquire env config).2 request.events
  obtain ⟨u, hends, hu, hrelease⟩ := ends_with_lease_served hserved (refused_count request.events)
    (batch_device request.events) (ends_respond request.events) hlease
  unfold ReportsRequest ReportsBatch
  rw [handle_ingest_batch_eq, hends]
  generalize (ingest_batch env config request.events).ends .atomic (s.try_acquire env config).2 = answer at *
  obtain ⟨outcome, t⟩ := answer
  have hsame (accepted_count rejected_count : ℤ) (errors : List String) :
      Reported env config request.events s u accepted_count rejected_count errors ↔
        Reported env config request.events (s.try_acquire env config).2 t accepted_count rejected_count errors := by
    constructor
    · rintro ⟨⟨accepted, haccepted, hmessages, hcounts⟩, herrors, -⟩
      exact ⟨⟨accepted, haccepted, by rw [← hu, hmessages, hproduced], hcounts⟩, herrors, hlease⟩
    · rintro ⟨⟨accepted, haccepted, hmessages, hcounts⟩, herrors, -⟩
      exact ⟨⟨accepted, haccepted, by rw [hu, hmessages, hproduced], hcounts⟩, herrors, hrelease⟩
  cases outcome with
  | error e => refine iff_of_false ?_ ?_ <;> rintro ⟨_, _, h, -⟩ <;> cases h
  | ok result =>
    constructor
    · rintro ⟨_, _, h, hreport⟩
      cases h
      exact ⟨result, t, rfl, (hsame _ _ _).mp hreport⟩
    · rintro ⟨_, _, h, hreport⟩
      cases h
      exact ⟨_, u, rfl, (hsame _ _ _).mpr hreport⟩

/-- A request that is not served is rejected with the number of its events, unless it has none. -/
theorem reportsRequest_iff_of_not_served {request : IngestBatchRequest}
    (hserved : ¬Served env config s request.api_key) : ReportsRequest env config request s ↔
      request.events ≠ [] ∧ request.events.length < 2^31 := by
  obtain ⟨reason, t, hends, hproduced, hlease⟩ := ends_with_lease_refused hserved
    (refused_count request.events) (batch_device request.events) (respond env config request.events)
  unfold ReportsRequest
  rw [handle_ingest_batch_eq, hends]
  -- Nothing is published, so the count has to be that of the batch.
  have hcount : refused_count request.events = request.events.length ↔
      request.events ≠ [] ∧ request.events.length < 2^31 := by
    unfold refused_count
    by_cases hnil : request.events = []
    · rw [if_pos hnil, hnil]
      exact iff_of_false (by decide) fun h => h.1 rfl
    · rw [if_neg hnil, castInt_natCast_eq_iff, and_iff_right hnil]
  rw [← hcount]
  constructor
  · rintro ⟨_, _, h, ⟨accepted, -, hmessages, -, hrejected⟩, -⟩
    cases h
    have hnone : accepted.length = 0 := by
      rw [hproduced] at hmessages
      have := congrArg List.length hmessages
      rw [List.length_append, List.length_map] at this
      omega
    rw [hnone, Nat.cast_zero, sub_zero] at hrejected
    exact hrejected
  · intro hrejected
    refine ⟨_, t, rfl, ⟨[], .nil, ?_, rfl, ?_⟩, .inr ⟨rfl, rfl⟩, hlease⟩
    · rw [hproduced, List.map_nil, List.append_nil]
    · rw [List.length_nil, Nat.cast_zero, sub_zero]
      exact hrejected

/-- The lease of a request ends with it, whatever the producer does. -/
theorem in_flight_handle_ingest_batch (request : IngestBatchRequest) :
    ((handle_ingest_batch env config request).ends .atomic s).2.in_flight = s.in_flight := by
  rw [handle_ingest_batch_eq]
  by_cases hserved : Served env config s request.api_key
  · obtain ⟨u, hframe, -, hu⟩ := ends_with_lease_served hserved (refused_count request.events)
      (batch_device request.events) (ends_respond request.events) in_flight_ingest_batch
    rw [hframe]
    exact hu
  · obtain ⟨reason, t, hends, -, ht⟩ := ends_with_lease_refused hserved (refused_count request.events)
      (batch_device request.events) (respond env config request.events)
    rw [hends]
    exact ht

/-- A batch is reported as what happened to it exactly if the producer takes every event of it that
passes the checks, and the counts fit. A request is too, once it is served; before, it is refused with
its number of events unless it is empty. The lease of a request ends with it in any case. -/
theorem reports_failures_iff (env : GatewayEnvironment) (config : GatewayServiceConfig) (s : Gateway)
    (batch : List LocationEvent) (request : IngestBatchRequest) :
    (ReportsBatch env config batch s ↔ Deliverable env config batch s) ∧
      (ReportsRequest env config request s ↔
        (Served env config s request.api_key →
          Deliverable env config request.events (s.try_acquire env config).2) ∧
        (¬Served env config s request.api_key → request.events ≠ [] ∧ request.events.length < 2^31)) ∧
      ((handle_ingest_batch env config request).ends .atomic s).2.in_flight = s.in_flight := by
  refine ⟨reportsBatch_iff, ?_, ?_⟩
  · by_cases hserved : Served env config s request.api_key
    · rw [reportsRequest_iff_of_served hserved, reportsBatch_iff]
      exact ⟨fun h => ⟨fun _ => h, fun hnot => absurd hserved hnot⟩, fun h => h.1 hserved⟩
    · rw [reportsRequest_iff_of_not_served hserved]
      exact ⟨fun h => ⟨fun hyes => absurd hyes hserved, fun _ => h⟩, fun h => h.2 hserved⟩
  · exact in_flight_handle_ingest_batch request

/-- The queue of the producer is full when the second event of a batch gets there. -/
def full_queue : GatewayEnvironment :=
  { quiet with produce_error := fun tick => if tick = 10 then some "Kafka produce failed: Local: Queue full" else none }

/-- Two valid events of one device. -/
def two_events : List LocationEvent := [first_event, { first_event with seq := 2 }]

/-- The first event is in the topic, and the caller gets an exception. -/
theorem full_queue_not_reported :
    ((ingest_batch full_queue {} two_events).ends .atomic (Gateway.start {})).2.produced.length = 1 ∧
      ¬ReportsBatch full_queue {} two_events (Gateway.start {}) := by
  have hthrows : ((ingest_batch full_queue {} two_events).ends .atomic (Gateway.start {})).1.isOk = false := by
    decide +kernel
  refine ⟨by decide +kernel, ?_⟩
  rintro ⟨result, t, h, -⟩
  rw [h] at hthrows
  cases hthrows

end Batch

end GatewayService

end SignalRoute
