import SignalRoute.Interaction.Batches
import SignalRoute.Clients.Kafka
import SignalRoute.Matching.Codec
import SignalRoute.Matching.Service

/-!
# The request loop of the matching service

`MatchingService::process_requests_once` of `src/matching/matching_service.cpp`: each message of the
request topic is decoded, handled, and its result published; then its offset is committed.
Publishing may fail with any exception at any call.

A message whose result is not published is left uncommitted, but the loop goes on to the next one,
and a commit is a high-water mark. So the committed offset stays below every decodable request
without a published result (`World.Covered`) exactly when the loop settles no message after it has
left one (`published_iff_orderly`). Which of the two it does with a message depends on the state
before the turn alone (`request_fates`).
-/

namespace SignalRoute

open Interaction
open Interaction.Prog (perform ofExcept always_bind always_tryCatch)
open CommitLog (Fate Orderly Follows)

/-- The calls of the loop's consumer and producer. -/
inductive QueueCall : Type → Type where
  | poll : QueueCall (Option KafkaMessage)
  | commit (msg : KafkaMessage) : QueueCall Unit
  | produce (topic key payload : String) : QueueCall (Except Exception Unit)
  | flush : QueueCall (Except Exception Unit)

/-- The calls of the loop: those of its queues, and those of the service. -/
abbrev RequestLoopCall (D β : Type) : Type := QueueCall β ⊕ MatchCall D β

/-- A program of the request loop. -/
abbrev RequestLoopProgram (D α : Type) : Type 1 := Prog (RequestLoopCall D) Exception α

/-- `MatchingLoopResult`. -/
structure MatchingLoopResult where
  processed_requests : ℤ := 0
  published_results : ℤ := 0
  invalid_messages : ℤ := 0
  failed_messages : ℤ := 0
  deriving DecidableEq

/-- What a turn of the loop comes to. -/
inductive RequestOutcome where
  | nothing
  | invalid
  | published
  | failed
  deriving DecidableEq

/-- The counters after a turn. -/
def MatchingLoopResult.count (result : MatchingLoopResult) : RequestOutcome → MatchingLoopResult
  | .nothing => result
  | .invalid => { result with invalid_messages := result.invalid_messages + 1 }
  | .published =>
    { result with
      processed_requests := result.processed_requests + 1
      published_results := result.published_results + 1 }
  | .failed => { result with failed_messages := result.failed_messages + 1 }

namespace MatchingService

variable {D : Type} (service : MatchingService D) (result_topic : String)

/-- The body of the `try`: publish the result of a request, and commit its message. -/
def publish (msg : KafkaMessage) (request : MatchRequest) (result : MatchResult) :
    RequestLoopProgram D RequestOutcome := do
  let produced ← perform (.inl (.produce result_topic result.request_id
    (encode_match_result_payload result request.requester_id
      (if request.strategy = "" then service.strategy_name else request.strategy))))
  ofExcept produced
  let flushed ← perform (.inl .flush)
  ofExcept flushed
  perform (.inl (.commit msg))
  return .published

/-- Its handler: only a standard exception is caught. -/
def publish_failed : Exception → RequestLoopProgram D RequestOutcome
  | .std _ => .pure .failed
  | .other => .throw .other

/-- A turn of the loop, and whether the loop goes on. -/
def request_turn : RequestLoopProgram D (RequestOutcome × Bool) := do
  match ← perform (.inl .poll) with
  | none => return (.nothing, false)
  | some msg =>
    match decode_match_request_payload msg.payload with
    | .error _ =>
      perform (.inl (.commit msg))
      return (.invalid, true)
    | .ok request =>
      let result ← (service.handle_request request).hoist Sum.inr
      let outcome ← (service.publish result_topic msg request result).tryCatch publish_failed
      return (outcome, true)

/-- `process_requests_once`. The consumer and the producer are there while the service is running. -/
def process_requests_once (max_messages : ℤ) : RequestLoopProgram D MatchingLoopResult :=
  if max_messages ≤ 0 ∨ service.running = false then return {}
  else (service.request_turn result_topic).untilStop MatchingLoopResult.count {} max_messages.toNat

end MatchingService

/-- What a run of the loop meets, by tick: the request topic and how much of it is there, and the
exceptions of the producer. -/
structure RequestLoopEnvironment where
  request_topic : String := "sr.match.requests"
  topic : List BrokerMessage
  visible : ℕ → ℕ
  produce_error : ℕ → Option Exception
  flush_error : ℕ → Option Exception

/-- The consumer, the producer, and the state of the service's context. `published` is a history
variable: the offsets of the messages whose result has been produced and flushed. -/
structure RequestLoopWorld (σ : Type) where
  tick : ℕ := 0
  consumer : KafkaConsumer := {}
  produced : List ProducedMessage := []
  context : σ
  published : List ℕ := []

namespace RequestLoopWorld

variable {D σ : Type} (env : RequestLoopEnvironment) (h : Handler (MatchCall D) σ)

/-- `request_consumer_->poll`. -/
def poll (w : RequestLoopWorld σ) : Option KafkaMessage × RequestLoopWorld σ :=
  let (msg, consumer) := w.consumer.poll env.request_topic (env.topic.take (env.visible w.tick))
  (msg, { w with consumer, tick := w.tick + 1 })

/-- `result_producer_->produce`. -/
def produce (topic key payload : String) (w : RequestLoopWorld σ) :
    Except Exception Unit × RequestLoopWorld σ :=
  match env.produce_error w.tick with
  | some e => (.error e, { w with tick := w.tick + 1 })
  | none =>
    let (result, produced) := SignalRoute.produce topic key payload w.produced
    (result, { w with produced, tick := w.tick + 1 })

/-- `result_producer_->flush`; it is the result of the message polled last that is flushed. -/
def flush (w : RequestLoopWorld σ) : Except Exception Unit × RequestLoopWorld σ :=
  match env.flush_error w.tick with
  | some e => (.error e, { w with tick := w.tick + 1 })
  | none => (.ok (), { w with
      published := w.published ++ [w.consumer.next_offset - 1], tick := w.tick + 1 })

/-- The meaning of the calls. -/
def handler : Handler (RequestLoopCall D) (RequestLoopWorld σ) :=
  ⟨fun c w =>
    match c with
    | .inl .poll => w.poll env
    | .inl (.commit msg) => ((), { w with consumer := w.consumer.commit msg })
    | .inl (.produce topic key payload) => w.produce env topic key payload
    | .inl .flush => w.flush env
    | .inr c => ((h.run c w.context).1, { w with context := (h.run c w.context).2 })⟩

/-- A decodable request is at the offset. -/
def Decodable (offset : ℕ) : Prop :=
  ∃ message request, env.topic[offset]? = some message ∧
    decode_match_request_payload message.payload = .ok request

/-- Every decodable request below the committed offset has its result published. -/
def Covered (w : RequestLoopWorld σ) : Prop :=
  ∀ offset < w.consumer.committed_offset, Decodable env offset → offset ∈ w.published

/-- Whether the handling of a request, and the publication of its result, go through. -/
def goes_through (service : MatchingService D) (result_topic : String) (w : RequestLoopWorld σ)
    (request : MatchRequest) : Bool :=
  ((service.handle_request request).exec h w.context).result.isOk && result_topic ≠ "" &&
    (env.produce_error (w.tick + 1)).isNone && (env.flush_error (w.tick + 2)).isNone

/-- The fate of the message that a turn gets, if it gets one: it is settled if it does not decode or if
it goes through. -/
def request_fates (service : MatchingService D) (result_topic : String) (w : RequestLoopWorld σ) :
    List Fate :=
  match (w.poll env).1 with
  | none => []
  | some msg =>
    match decode_match_request_payload msg.payload with
    | .error _ => [.settled]
    | .ok request =>
      if goes_through env h service result_topic w request then [.settled] else [.left]

/-- The offsets and the published results follow the fates of the messages. -/
def Tracks (before : List Fate) (w : RequestLoopWorld σ) : Prop :=
  Follows (Decodable env) before w.consumer.next_offset w.consumer.committed_offset w.published

variable {env h} {before : List Fate} {w : RequestLoopWorld σ}

/-- A state is covered where the commits and the published results are those of a state that is. -/
theorem Covered.of_le {t : RequestLoopWorld σ} (hw : Covered env w)
    (hcommitted : t.consumer.committed_offset = w.consumer.committed_offset)
    (hpublished : ∀ offset ∈ w.published, offset ∈ t.published) : Covered env t := by
  intro offset hlt hdecodable
  rw [hcommitted] at hlt
  exact hpublished offset (hw offset hlt hdecodable)

/-- The states that follow a request which is not published. -/
theorem Tracks.leave (hw : Tracks env before w) (hdecodable : Decodable env w.consumer.next_offset)
    {t : RequestLoopWorld σ}
    (hconsumer : t.consumer = { w.consumer with next_offset := w.consumer.next_offset + 1 })
    (hpublished : t.published = w.published) : Tracks env (before ++ [.left]) t := by
  unfold Tracks
  rw [hconsumer, hpublished]
  exact Follows.leave hw hdecodable

/-- Producing a message leaves the offsets and the published results alone; it goes through if the
topic has a name and no exception is due. -/
theorem produce_cases (env : RequestLoopEnvironment) (topic key payload : String)
    (t : RequestLoopWorld σ) :
    (t.produce env topic key payload).2.consumer = t.consumer ∧
      (t.produce env topic key payload).2.published = t.published ∧
      (t.produce env topic key payload).2.tick = t.tick + 1 ∧
      ((t.produce env topic key payload).1 = .ok () ∧ topic ≠ "" ∧ env.produce_error t.tick = none ∨
        (∃ e, (t.produce env topic key payload).1 = .error e) ∧
          ¬ (topic ≠ "" ∧ env.produce_error t.tick = none)) := by
  unfold produce SignalRoute.produce
  cases env.produce_error t.tick with
  | some e => exact ⟨rfl, rfl, rfl, .inr ⟨⟨e, rfl⟩, by simp⟩⟩
  | none =>
    by_cases htopic : topic = ""
    · rw [if_pos htopic]
      exact ⟨rfl, rfl, rfl, .inr ⟨⟨_, rfl⟩, by simp [htopic]⟩⟩
    · rw [if_neg htopic]
      exact ⟨rfl, rfl, rfl, .inl ⟨rfl, htopic, rfl⟩⟩

/-- Flushing leaves the offsets alone; if no exception is due, the result of the message polled last is
published. -/
theorem flush_cases (env : RequestLoopEnvironment) (t : RequestLoopWorld σ) :
    (t.flush env).2.consumer = t.consumer ∧
      ((t.flush env).1 = .ok () ∧ env.flush_error t.tick = none ∧
          (t.flush env).2.published = t.published ++ [t.consumer.next_offset - 1] ∨
        (∃ e, (t.flush env).1 = .error e) ∧ env.flush_error t.tick ≠ none ∧
          (t.flush env).2.published = t.published) := by
  unfold flush
  cases env.flush_error t.tick with
  | some e => exact ⟨rfl, .inr ⟨⟨e, rfl⟩, nofun, rfl⟩⟩
  | none => exact ⟨rfl, .inl ⟨rfl, rfl, rfl⟩⟩

/-- The publication of a result: it goes through if the producer does not throw, and then the message
is committed; else the message is left, and only an exception that is not standard gets out. -/
theorem always_publish (service : MatchingService D) (result_topic : String)
    (hw : Tracks env before w) (hdecodable : Decodable env w.consumer.next_offset)
    (msg : KafkaMessage) (hoffset : msg.offset = w.consumer.next_offset) (request : MatchRequest)
    (result : MatchResult) {t : RequestLoopWorld σ}
    (hconsumer : t.consumer = { w.consumer with next_offset := w.consumer.next_offset + 1 })
    (hpublished : t.published = w.published) :
    let fate := if result_topic ≠ "" ∧ env.produce_error t.tick = none ∧
      env.flush_error (t.tick + 1) = none then Fate.settled else .left
    ((service.publish result_topic msg request result).tryCatch
        MatchingService.publish_failed).Always (handler env h)
      (fun t' => Orderly (before ++ [fate]) → Covered env t')
      (fun _ t' => Tracks env (before ++ [fate]) t') (fun _ t' => Tracks env (before ++ [fate]) t')
      t := by
  intro fate
  have hcovered : ∀ t' : RequestLoopWorld σ,
      t'.consumer = { w.consumer with next_offset := w.consumer.next_offset + 1 } →
      (∀ offset ∈ w.published, offset ∈ t'.published) → Orderly (before ++ [fate]) →
        Covered env t' := by
    intro t' hconsumer' hpublished' horderly
    have hstart : Covered env w := (Follows.covered_iff hw).mpr (orderly_of_append horderly)
    exact hstart.of_le (by rw [hconsumer']) hpublished'
  -- An exception of the producer leaves the message, whether it is caught or not.
  have hleft : ∀ (e : Exception) (t' : RequestLoopWorld σ), fate = .left →
      t'.consumer = { w.consumer with next_offset := w.consumer.next_offset + 1 } →
      t'.published = w.published →
      (MatchingService.publish_failed e : RequestLoopProgram D RequestOutcome).Always (handler env h)
        (fun t' => Orderly (before ++ [fate]) → Covered env t')
        (fun _ t' => Tracks env (before ++ [fate]) t')
        (fun _ t' => Tracks env (before ++ [fate]) t') t' := by
    intro e t' hfate hconsumer' hpublished'
    have htracks : Tracks env (before ++ [fate]) t' := by
      rw [hfate]
      exact hw.leave hdecodable hconsumer' hpublished'
    cases e <;> exact htracks
  rw [always_tryCatch]
  unfold MatchingService.publish
  rw [Prog.bind_eq, always_bind]
  generalize result.request_id = key
  generalize encode_match_result_payload result request.requester_id
    (if request.strategy = "" then service.strategy_name else request.strategy) = payload
  obtain ⟨hconsumer₁, hpublished₁, htick, hproduced⟩ := produce_cases env result_topic key payload t
  rw [hconsumer] at hconsumer₁
  rw [hpublished] at hpublished₁
  refine ⟨hcovered _ hconsumer₁ fun _ => hpublished₁ ▸ id, ?_⟩
  change Prog.Always _ _ _ _ (Prog.bind (ofExcept (t.produce env result_topic key payload).1) _)
    (t.produce env result_topic key payload).2
  generalize t.produce env result_topic key payload = produced at *
  obtain ⟨outcome, t₁⟩ := produced
  dsimp only at hconsumer₁ hpublished₁ htick hproduced ⊢
  -- The producer may throw in `produce` or in `flush`; only past both is the message committed.
  rcases hproduced with ⟨rfl, htopic, hproduce⟩ | ⟨⟨e, rfl⟩, hfails⟩
  · obtain ⟨hconsumer₂, hflushed⟩ := flush_cases env t₁
    rw [hconsumer₁] at hconsumer₂
    rw [htick, hconsumer₁, hpublished₁] at hflushed
    have hkept : ∀ offset ∈ w.published, offset ∈ (t₁.flush env).2.published := by
      rcases hflushed with ⟨-, -, hmore⟩ | ⟨-, -, hsame⟩
      · rw [hmore]
        exact fun _ => List.mem_append_left _
      · rw [hsame]
        exact fun _ => id
    refine ⟨hcovered (t₁.flush env).2 hconsumer₂ hkept, ?_⟩
    change Prog.Always _ _ _ _ (Prog.bind (ofExcept (t₁.flush env).1) _) (t₁.flush env).2
    generalize t₁.flush env = flushed at *
    obtain ⟨outcome, t₂⟩ := flushed
    dsimp only at hconsumer₂ hflushed ⊢
    rcases hflushed with ⟨rfl, hflush, hpublished₂⟩ | ⟨⟨e, rfl⟩, hfails, hpublished₂⟩
    · -- The result is published, and the commit settles the message.
      have hfate : fate = .settled := if_pos ⟨htopic, hproduce, hflush⟩
      have htracks : Tracks env (before ++ [fate])
          { t₂ with consumer := t₂.consumer.commit msg } := by
        rw [hfate]
        unfold Tracks KafkaConsumer.commit
        dsimp only
        rw [hconsumer₂, hoffset]
        refine Follows.settle hw fun offset _ => ?_
        rw [hpublished₂, Nat.add_sub_cancel, List.mem_append, List.mem_singleton]
      exact ⟨(Follows.covered_iff htracks).mpr, htracks⟩
    · refine hleft e t₂ (if_neg fun hall => hfails ?_) hconsumer₂ hpublished₂
      exact hall.2.2
  · exact hleft e t₁ (if_neg fun hall => hfails ⟨hall.1, hall.2.1⟩) hconsumer₁ hpublished₁

/-- A turn keeps the offsets and the published results in step with the fates. -/
theorem keeps_request_turn (service : MatchingService D) (result_topic : String) :
    Keeps (handler env h) (Tracks env) (Covered env) (service.request_turn result_topic)
      (request_fates env h service result_topic) := by
  intro before w hw
  have hstart : ∀ fates, Orderly (before ++ fates) → Covered env w := fun fates horderly =>
    (Follows.covered_iff hw).mpr (orderly_of_append horderly)
  have hrun : (handler env h).run (.inl .poll) w = w.poll env := rfl
  unfold MatchingService.request_turn request_fates
  rw [Prog.bind_eq, always_bind]
  rw [Prog.always_perform, hrun]
  rcases w.consumer.poll_cases env.request_topic (env.topic.take (env.visible w.tick)) with
    ⟨hpoll, -⟩ | ⟨message, msg, hmessage, hpayload, hoffset, hpoll⟩
  · -- Nothing is polled, so the turn has no fate.
    have hpolled : w.poll env = (none, { w with tick := w.tick + 1 }) := by
      unfold poll
      rw [hpoll]
    rw [hpolled]
    dsimp only
    rw [List.append_nil]
    exact ⟨fun horderly => (Follows.covered_iff hw).mpr horderly, hw⟩
  · have hpolled : w.poll env = (some msg, { w with
        consumer := { w.consumer with next_offset := w.consumer.next_offset + 1 }
        tick := w.tick + 1 }) := by
      unfold poll
      rw [hpoll]
    -- What is visible of the topic is a prefix of it, so the message is the topic's.
    have htopic : env.topic[w.consumer.next_offset]? = some message := by
      rw [List.getElem?_take] at hmessage
      split at hmessage
      · exact hmessage
      · cases hmessage
    rw [hpolled]
    dsimp only
    refine ⟨fun horderly => (hstart _ horderly).of_le rfl fun _ => id, ?_⟩
    cases hdecode : decode_match_request_payload msg.payload with
    | error e =>
      dsimp only
      -- A payload that does not decode is logged and committed, and needs no published result.
      have hunneeded : ¬ Decodable env w.consumer.next_offset := by
        rintro ⟨message', request, hmessage', hrequest⟩
        rw [htopic] at hmessage'
        cases hmessage'
        rw [hpayload, hrequest] at hdecode
        cases hdecode
      have htracks : Tracks env (before ++ [.settled]) { w with
          consumer := KafkaConsumer.commit
            { w.consumer with next_offset := w.consumer.next_offset + 1 } msg
          tick := w.tick + 1 } := by
        unfold Tracks KafkaConsumer.commit
        dsimp only
        rw [hoffset]
        refine Follows.settle hw fun offset hdecodable => ?_
        refine (or_iff_left ?_).symm
        rintro rfl
        exact hunneeded hdecodable
      rw [Prog.bind_eq, always_bind, Prog.always_perform]
      exact ⟨(Follows.covered_iff htracks).mpr, htracks⟩
    | ok request =>
      dsimp only
      have hdecodable : Decodable env w.consumer.next_offset :=
        ⟨message, request, htopic, by rw [← hpayload, hdecode]⟩
      rw [Prog.bind_eq, always_bind]
      -- Handling the request calls the match context only, and leaves the offsets alone.
      refine (Prog.always_hoist Sum.inr RequestLoopWorld.context
        (fun w context => { w with context }) (fun _ _ => rfl) (fun _ _ => rfl) (fun _ _ _ => rfl)
        (fun _ => rfl) (service.handle_request request) _).imp ?_ ?_ ?_
      · rintro t ⟨context, rfl⟩ horderly
        exact (hstart _ horderly).of_le rfl fun _ => id
      · rintro result t ⟨hresult, rfl⟩
        have hfate : (if goes_through env h service result_topic w request = true then [Fate.settled]
            else [.left]) = [if result_topic ≠ "" ∧ env.produce_error (w.tick + 1) = none ∧
              env.flush_error (w.tick + 2) = none then Fate.settled else .left] := by
          unfold goes_through
          rw [hresult]
          simp only [Except.isOk, Except.toBool, Bool.true_and, Bool.and_eq_true,
            decide_eq_true_eq, Option.isNone_iff_eq_none, and_assoc]
          split <;> rfl
        rw [hfate, Prog.bind_eq, always_bind]
        exact (always_publish (t := { w with
          consumer := { w.consumer with next_offset := w.consumer.next_offset + 1 }
          tick := w.tick + 1
          context := ((service.handle_request request).exec h w.context).final })
          service result_topic hw hdecodable msg hoffset request result rfl rfl).imp
            (fun _ => id) (fun _ _ => id) fun _ _ => id
      · rintro e t ⟨hresult, rfl⟩
        -- An exception of the handling leaves the message, and gets out of the batch.
        have hfate : goes_through env h service result_topic w request = false := by
          unfold goes_through
          rw [hresult]
          rfl
        rw [hfate, if_neg Bool.noConfusion]
        exact hw.leave hdecodable rfl rfl

/-- The committed offset stays below every decodable request without a published result, in every
state of a run of the loop, exactly when no turn of the run settles its message after an earlier one
has left its message. -/
theorem published_iff_orderly (service : MatchingService D) (result_topic : String)
    (env : RequestLoopEnvironment) (h : Handler (MatchCall D) σ) (context : σ) (calls : List ℤ) :
    (∀ w ∈ visits (handler env h) (service.process_requests_once result_topic) calls { context },
      Covered env w) ↔
    Orderly (run_fates (handler env h) (service.process_requests_once result_topic)
      (fun max_messages => if max_messages ≤ 0 ∨ service.running = false then fun _ => [] else
        batch_fates (handler env h) (service.request_turn result_topic)
          (request_fates env h service result_topic) max_messages.toNat) calls { context }) := by
  have hcovered : ∀ before (w : RequestLoopWorld σ), Tracks env before w →
      (Covered env w ↔ Orderly before) := fun _ _ => Follows.covered_iff
  refine covered_iff_orderly hcovered (fun max_messages => ?_) calls [] _ .start
  unfold MatchingService.process_requests_once
  by_cases hskip : max_messages ≤ 0 ∨ service.running = false
  · rw [if_pos hskip, if_pos hskip]
    intro before w hw
    rw [List.append_nil]
    exact hw
  · rw [if_neg hskip, if_neg hskip]
    exact (keeps_request_turn service result_topic).untilStop _ _ _

/-- Two requests, where the first result cannot be produced. -/
def failing_once : RequestLoopEnvironment where
  topic := [⟨"r", "r,u,0,0,1,1,0,", 0⟩, ⟨"s", "s,u,0,0,1,1,0,", 0⟩]
  visible _ := 2
  produce_error tick := if tick = 1 then some (.std "Kafka produce failed") else none
  flush_error _ := none

/-- The call of the loop that handles both. -/
def failing_once_run : Run (RequestLoopWorld Unit) Exception MatchingLoopResult :=
  (MatchingService.process_requests_once { strategy := some NearestStrategy.strategy }
    "sr.match.results" 2).exec (handler failing_once lenient) { context := () }

/-- The second request is published and committed, and so the first one is committed too. -/
theorem failing_once_not_covered :
    ¬ ∀ w ∈ visits (handler failing_once lenient)
        (MatchingService.process_requests_once { strategy := some NearestStrategy.strategy }
          "sr.match.results") [2] { context := () },
      Covered failing_once w := by
  intro hcovered
  have hfinal : failing_once_run.final ∈ visits (handler failing_once lenient)
      (MatchingService.process_requests_once { strategy := some NearestStrategy.strategy }
        "sr.match.results") [2] { context := () } :=
    List.mem_append_right _ (List.mem_singleton.mpr rfl)
  have hcommitted : 0 < failing_once_run.final.consumer.committed_offset := by
    decide +kernel
  have hdecodable : Decodable failing_once 0 :=
    ⟨_, { request_id := "r", requester_id := "u", radius_m := .finite 1 }, rfl, by decide +kernel⟩
  have hpublished : 0 ∉ failing_once_run.final.published := by
    decide +kernel
  exact hpublished (hcovered _ hfinal 0 hcommitted hdecodable)

end RequestLoopWorld

end SignalRoute
