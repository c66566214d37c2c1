import SignalRoute.Interaction.RelyGuarantee
import SignalRoute.Processor.Convergence
import SignalRoute.Processor.Turns

/-!
# Groups of processors

A consumer group is any number of processors that share a store and a broker. Each reads one partition of
the ingest topic, from the offset that its group has committed, and commits as it goes; several may read the
same partition. A processor can stop between any two of its steps, or end with an exception, and start
anew with an empty window. So a message can be delivered any number of times, to any number of processors,
while they write.

What no schedule can do is to lose an event's effect on the store (`group_converges`): an event whose
message has been committed is covered by what is stored, and where everything has been committed the store
holds the newest event of every device. The argument is one of rely and guarantee. A store only ever covers
more (`RedisClient.Grows`), so what a processor has once seen covered stays covered whatever the others do,
and a processor commits what is covered (`Taken`).
-/

namespace SignalRoute

open Interaction
open Interaction.Prog (among_bind among_ofExcept)

/-- The store has a state of the device that is at least as new. -/
def RedisClient.Covers (redis : RedisClient) (device_id : String) (seq : ℕ) : Prop :=
  ∃ state, redis.get_device_state device_id = some state ∧ seq ≤ state.seq

/-- What is covered stays covered. -/
def RedisClient.Grows (redis redis' : RedisClient) : Prop :=
  ∀ device_id seq, redis.Covers device_id seq → redis'.Covers device_id seq

/-- The store is as it was, or has been given the state of a valid event of `S`. -/
def RedisClient.Writes (h3 : H3Index) (S : Set LocationEvent) (redis redis' : RedisClient) : Prop :=
  redis' = redis ∨ ∃ event ∈ S, valid_lat_lon event.lat event.lon = true ∧
    redis' = (redis.update_device_state_cas event.device_id (settled_state h3 event)).2

/-- Every event of the first messages of a topic is covered. -/
def RedisClient.HasTaken (redis : RedisClient) (topic : List BrokerMessage) (n : ℕ) : Prop :=
  ∀ event ∈ events_of (topic.take n), redis.Covers event.device_id event.seq

namespace RedisClient

variable {redis redis' : RedisClient} {h3 : H3Index} {S : Set LocationEvent} {d : String} {st : DeviceState}

/-- A compare-and-set covers its state, accepted or not. -/
theorem covers_update_device_state_cas : (redis.update_device_state_cas d st).2.Covers d st.seq := by
  unfold Covers get_device_state
  cases haccepted : (redis.update_device_state_cas d st).1 with
  | true => exact ⟨_, (redis.lookup_update_device_state_cas haccepted d).trans (if_pos rfl), le_rfl⟩
  | false =>
    have hold := mt (redis.update_device_state_cas_fst d st).mpr (by simp [haccepted])
    push Not at hold
    rwa [redis.update_device_state_cas_rejected haccepted]

/-- A compare-and-set uncovers nothing. -/
theorem grows_update_device_state_cas : redis.Grows (redis.update_device_state_cas d st).2 := by
  intro device_id seq hcovers
  cases haccepted : (redis.update_device_state_cas d st).1 with
  | false => rwa [redis.update_device_state_cas_rejected haccepted]
  | true =>
    obtain ⟨current, hcurrent, hle⟩ := hcovers
    unfold Covers get_device_state
    rw [redis.lookup_update_device_state_cas haccepted]
    split
    · rename_i heq
      subst heq
      exact ⟨_, rfl, hle.trans ((redis.update_device_state_cas_fst _ _).mp haccepted _ hcurrent).le⟩
    · exact ⟨current, hcurrent, hle⟩

theorem Writes.grows (h : Writes h3 S redis redis') : redis.Grows redis' := by
  obtain rfl | ⟨event, -, -, rfl⟩ := h
  · exact fun _ _ => id
  · exact grows_update_device_state_cas

theorem Writes.written (h : Writes h3 S redis redis') (hredis : Written h3 redis) : Written h3 redis' := by
  obtain rfl | ⟨event, -, hvalid, rfl⟩ := h
  · exact hredis
  · have hwritten := hredis.write event 0 hvalid
    obtain ⟨cell, hcell, hwrite⟩ := StateWriter.write_with_result_valid h3 event 0 redis hvalid
    obtain ⟨-, rfl⟩ := h3.lat_lng_to_cell_ok_iff.mp hcell
    unfold StateWriter.write at hwritten
    rw [hwrite] at hwritten
    exact hwritten

/-- The sequence guard stops what is covered. -/
theorem covers_of_not_should_accept {seq : ℕ} (h : ¬SequenceGuard.should_accept redis d seq = true) :
    redis.Covers d seq := by
  unfold SequenceGuard.should_accept at h
  cases hcurrent : redis.get_device_state d with
  | none => simp [hcurrent] at h
  | some state => exact ⟨state, hcurrent, by simpa [hcurrent] using h⟩

end RedisClient

section Processor

variable {G : Type} {env : Environment} {p : Processor G} {topic : List BrokerMessage}
  {S T : Set (String × ℕ)} {w w' : World G} {e : LocationEvent}

/-- What other processors do to the world of one: they have the store, the database and the dead-letter
topic in common with it. -/
def World.Disturbed (w w' : World G) : Prop :=
  (∃ redis pg produced, w' = { w with redis, pg, produced }) ∧ w.redis.Grows w'.redis

/-- What a processor does to the store and to its committed offset: it commits what is covered. -/
structure World.Advances (h3 : H3Index) (topic : List BrokerMessage) (w w' : World G) : Prop where
  writes : w.redis.Writes h3 (events_of topic) w'.redis
  commits : w'.consumer.committed_offset = w.consumer.committed_offset ∨
    w'.redis.HasTaken topic w'.consumer.committed_offset

/-- What a processor has polled is covered but for the pairs `S`, and what its window remembers but for `T`. -/
structure Taken (topic : List BrokerMessage) (S T : Set (String × ℕ)) (w : World G) : Prop where
  polled : ∀ event ∈ events_of (topic.take w.consumer.next_offset),
    (event.device_id, event.seq) ∈ S ∨ w.redis.Covers event.device_id event.seq
  seen : ∀ pair ∈ w.dedup.seen, pair ∈ T ∨ w.redis.Covers pair.1 pair.2

/-- The others disturb none of it. -/
theorem Taken.disturbed (h : Taken topic S T w) (hw : w.Disturbed w') : Taken topic S T w' := by
  obtain ⟨⟨redis, pg, produced, rfl⟩, hgrows⟩ := hw
  exact ⟨fun event hevent => (h.polled event hevent).imp_right (hgrows _ _),
    fun pair hpair => (h.seen pair hpair).imp_right (hgrows _ _)⟩

/-- Neither do steps of the processor that leave the store, the window and the consumer alone. -/
theorem Taken.frame (h : Taken topic S T w) (hw : w.Frame w') : Taken topic S T w' := by
  obtain ⟨hredis, hdedup, hconsumer, -, -⟩ := hw
  refine ⟨?_, ?_⟩
  · rw [hredis, hconsumer]
    exact h.polled
  · rw [hredis, hdedup]
    exact h.seen

theorem World.Frame.advances {h3 : H3Index} (hw : w.Frame w') : w.Advances h3 topic w' :=
  ⟨.inl hw.redis, .inl (congrArg KafkaConsumer.committed_offset hw.consumer)⟩

/-- A pair that is covered is no exception. -/
theorem Taken.cover {d : String} {s : ℕ} (h : Taken topic {(d, s)} T w) (hT : T ⊆ {(d, s)})
    (hcovers : w.redis.Covers d s) : Taken topic ∅ ∅ w := by
  refine ⟨fun event hevent => .inr ?_, fun pair hpair => .inr ?_⟩
  · rcases h.polled event hevent with heq | hcovered
    · obtain ⟨hd, hs⟩ := Prod.mk.inj heq
      rwa [hd, hs]
    · exact hcovered
  · rcases h.seen pair hpair with hpair | hcovered
    · rw [Set.mem_singleton_iff.mp (hT hpair)]
      exact hcovers
    · exact hcovered

/-- A call that leaves the store, the window and the consumer alone. -/
def Quiet {β : Type} (c : Atomic (World G) β) : Prop := ∀ w : World G, w.Frame (c w).2

/-- Quiet steps, among others. -/
theorem quiet_among {ε α : Type} {q : Prog (Atomic (World G)) ε α} (hq : q.Calls Quiet) (h3 : H3Index)
    (h : Taken topic S T w) :
    q.Among .atomic World.Disturbed (World.Advances h3 topic)
      (fun _ t => Taken topic S T t ∧ t.consumer = w.consumer)
      (fun _ t => Taken topic S T t ∧ t.consumer = w.consumer) w := by
  refine hq.among (fun s t hs hst => ⟨hs.1.disturbed hst, ?_⟩) (fun c t hc ht => ?_) ⟨h, rfl⟩
  · obtain ⟨⟨redis, pg, produced, rfl⟩, -⟩ := hst
    exact hs.2
  · exact ⟨(hc t).advances, ht.1.frame (hc t), (hc t).consumer.trans ht.2⟩

theorem quiet_reading {β : Type} (f : ℕ → β) : (reading f : Action G β).Calls Quiet :=
  (Prog.calls_perform _).mpr fun _ => ⟨rfl, rfl, rfl, rfl, rfl⟩

theorem quiet_read {ε β : Type} (f : World G → β) : (Prog.read f : Prog _ ε β).Calls Quiet :=
  (Prog.calls_perform _).mpr fun _ => ⟨rfl, rfl, rfl, rfl, rfl⟩

theorem quiet_note_flush : (note_flush env : Action G Unit).Calls Quiet :=
  (quiet_reading _).bind fun _ => (Prog.calls_perform _).mpr fun _ => ⟨rfl, rfl, rfl, rfl, rfl⟩

theorem quiet_flush : (HistoryWriter.flush env : Action G Unit).Calls Quiet := by
  unfold HistoryWriter.flush
  refine Prog.Calls.bind ((Prog.calls_perform _).mpr fun _ => ⟨rfl, rfl, rfl, rfl, rfl⟩) fun batch => ?_
  split
  · exact Prog.calls_pure ()
  refine Prog.Calls.tryCatch ?_ fun e => ?_
  · exact Prog.Calls.bind ((Prog.calls_perform _).mpr fun _ => World.frame_batch_insert batch)
      fun _ => Prog.calls_ofExcept _
  · cases e with
    | std what =>
      refine Prog.Calls.forEach fun event => ?_
      exact Prog.Calls.bind ((Prog.calls_perform _).mpr fun _ => ⟨rfl, rfl, rfl, rfl, rfl⟩)
        fun _ => Prog.calls_ofExcept _
    | other => exact Prog.calls_throw _

/-- Buffering an event, and the flush that it may cause. -/
theorem quiet_buffer {full : Action G Unit} (hfull : full.Calls Quiet) : Prog.Calls Quiet (do
    HistoryWriter.buffer e
    if ← HistoryWriter.should_flush p then full) := by
  refine Prog.Calls.bind ((Prog.calls_perform _).mpr fun _ => ⟨rfl, rfl, rfl, rfl, rfl⟩) fun _ => ?_
  refine Prog.Calls.bind (quiet_read _) fun due => ?_
  cases due with
  | true => exact hfull
  | false => exact Prog.calls_pure ()

theorem quiet_idle : (ProcessingLoop.idle env p).Calls Quiet := by
  refine Prog.Calls.bind (quiet_reading _) fun now => Prog.Calls.bind (quiet_read _) fun due => ?_
  split
  · exact Prog.Calls.bind quiet_flush fun _ => quiet_note_flush
  · exact Prog.calls_pure ()

/-- A state write covers its event, or throws. -/
theorem write_among (hstamp : e.server_recv_ms ≠ 0) (he : e ∈ events_of topic)
    (h : Taken topic {(e.device_id, e.seq)} {(e.device_id, e.seq)} w) :
    (write_with_result env p e).Among .atomic World.Disturbed (World.Advances p.h3 topic)
      (fun _ t => Taken topic ∅ ∅ t ∧ t.consumer = w.consumer) (fun _ _ => True) w := by
  unfold write_with_result
  rw [Prog.bind_eq, among_bind]
  intro t ht
  have htaken := h.disturbed ht
  have hconsumer : t.consumer = w.consumer := by
    obtain ⟨⟨redis, pg, produced, rfl⟩, -⟩ := ht
    rfl
  change World.Advances p.h3 topic t (t.write_with_result env p e).2 ∧ Prog.Among .atomic _ _ _ _
    (Prog.ofExcept (t.write_with_result env p e).1) (t.write_with_result env p e).2
  cases hvalid : valid_lat_lon e.lat e.lon with
  | false =>
    rw [World.write_with_result_invalid hvalid]
    exact ⟨⟨.inl rfl, .inl rfl⟩, trivial⟩
  | true =>
    obtain ⟨cell, hcell, hwrite⟩ := World.write_with_result_valid env p t hvalid
    rw [hwrite, state_of_eq_settled_state hcell hstamp]
    have hgrows := @RedisClient.grows_update_device_state_cas t.redis e.device_id (settled_state p.h3 e)
    refine ⟨⟨.inr ⟨e, he, hvalid, rfl⟩, .inl rfl⟩, ?_, hconsumer⟩
    refine Taken.cover ⟨fun event hevent => ?_, fun pair hpair => ?_⟩ subset_rfl
      RedisClient.covers_update_device_state_cas
    · exact (htaken.polled event hevent).imp_right (hgrows _ _)
    · exact (htaken.seen pair hpair).imp_right (hgrows _ _)

/-- An accepted event is covered, and then written to the history, or the processor ends. -/
theorem accept_among (hstamp : e.server_recv_ms ≠ 0) (he : e ∈ events_of topic)
    (h : Taken topic {(e.device_id, e.seq)} {(e.device_id, e.seq)} w) :
    (ProcessingLoop.accept env p e).Among .atomic World.Disturbed (World.Advances p.h3 topic)
      (fun _ t => Taken topic ∅ ∅ t ∧ t.consumer = w.consumer) (fun _ _ => True) w := by
  -- What follows the write is quiet.
  have hrest : ∀ {α : Type} {q : Action G α} {t : World G}, q.Calls Quiet →
      Taken topic ∅ ∅ t ∧ t.consumer = w.consumer →
      q.Among .atomic World.Disturbed (World.Advances p.h3 topic)
        (fun _ t' => Taken topic ∅ ∅ t' ∧ t'.consumer = w.consumer) (fun _ _ => True) t :=
    fun hq ht => (quiet_among hq p.h3 ht.1).imp (fun _ _ ht' => ⟨ht'.1, ht'.2.trans ht.2⟩) fun _ _ _ => trivial
  unfold ProcessingLoop.accept
  split
  · rename_i geofence _
    unfold location_accepted location_accepted_with state_write_requested_with trip_history_write_requested
    rw [Prog.bind_eq, Prog.bind_eq, among_bind, among_bind]
    refine (write_among hstamp he h).imp (fun outcome t ht => ?_) fun _ _ _ => trivial
    have hevaluate : Prog.Calls Quiet (if outcome.accepted = true then
        Prog.modify (World.evaluate geofence (geofence_evaluation_requested (state_write_succeeded e outcome)))
        else Pure.pure () : Action G Unit) := by
      split
      · exact (Prog.calls_perform _).mpr fun _ => ⟨rfl, rfl, rfl, rfl, rfl⟩
      · exact Prog.calls_pure ()
    exact (hrest hevaluate ht).imp (fun _ _ ht' => hrest (quiet_buffer quiet_flush) ht') fun _ _ => id
  · unfold write_directly
    rw [Prog.bind_eq, among_bind]
    refine (write_among hstamp he h).imp (fun outcome t ht => ?_) fun _ _ _ => trivial
    split
    · exact hrest (quiet_buffer (Prog.Calls.bind quiet_flush fun _ => quiet_note_flush)) ht
    · exact ht

/-- A decoded event is covered, whichever of the checks it meets, or the processor ends. -/
theorem process_among (hstamp : e.server_recv_ms ≠ 0) (he : e ∈ events_of topic)
    (h : Taken topic {(e.device_id, e.seq)} ∅ w) :
    (ProcessingLoop.process env p e).Among .atomic World.Disturbed (World.Advances p.h3 topic)
      (fun _ t => Taken topic ∅ ∅ t ∧ t.consumer = w.consumer) (fun _ _ => True) w := by
  unfold ProcessingLoop.process ProcessingLoop.process_with
  rw [Prog.bind_eq, among_bind]
  intro t ht
  have htaken := h.disturbed ht
  have hconsumer : t.consumer = w.consumer := by
    obtain ⟨⟨redis, pg, produced, rfl⟩, -⟩ := ht
    rfl
  refine ⟨⟨.inl rfl, .inl rfl⟩, ?_⟩
  change Prog.Among .atomic _ _ _ _ (if (t.is_duplicate env e).1 = true then _ else _) (t.is_duplicate env e).2
  have hasked : Taken topic {(e.device_id, e.seq)} ∅ (t.is_duplicate env e).2 :=
    ⟨htaken.polled, fun pair hpair => htaken.seen pair (World.seen_is_duplicate e t hpair)⟩
  split
  · -- A remembered pair is covered.
    rename_i hduplicate
    have hmem : (e.device_id, e.seq) ∈ t.dedup.seen := DedupWindow.mem_seen_of_is_duplicate hduplicate
    exact ⟨hasked.cover (Set.empty_subset _) ((htaken.seen _ hmem).resolve_left nofun), hconsumer⟩
  rw [Prog.bind_eq, among_bind]
  intro u hu
  have hmarked : Taken topic {(e.device_id, e.seq)} {(e.device_id, e.seq)} (u.mark_seen env e) := by
    have hdisturbed := hasked.disturbed hu
    refine ⟨hdisturbed.polled, fun pair hpair => ?_⟩
    rcases World.seen_mark_seen e u hpair with rfl | hpair
    · exact .inl rfl
    · exact .inr ((hdisturbed.seen pair hpair).resolve_left nofun)
  have hconsumer_u : (u.mark_seen env e).consumer = w.consumer := by
    obtain ⟨⟨redis, pg, produced, rfl⟩, -⟩ := hu
    exact hconsumer
  refine ⟨⟨.inl rfl, .inl rfl⟩, ?_⟩
  change Prog.Among .atomic _ _ _ _ (Prog.bind (Prog.read _) _) (u.mark_seen env e)
  rw [among_bind]
  intro v hv
  have hconsumer_v : v.consumer = w.consumer := by
    obtain ⟨⟨redis, pg, produced, rfl⟩, -⟩ := hv
    exact hconsumer_u
  refine ⟨⟨.inl rfl, .inl rfl⟩, ?_⟩
  change Prog.Among .atomic _ _ _ _ (if SequenceGuard.should_accept v.redis e.device_id e.seq = true then _ else _) v
  split
  · exact (accept_among hstamp he (hmarked.disturbed hv)).imp (fun _ _ ht' => ⟨ht'.1, ht'.2.trans hconsumer_v⟩)
      fun _ _ => id
  · -- So is what the guard stops.
    rename_i hguard
    exact ⟨(hmarked.disturbed hv).cover subset_rfl (RedisClient.covers_of_not_should_accept hguard), hconsumer_v⟩

/-- The events of a topic's first messages, with one more that does not decode. -/
theorem events_of_take_succ_of_error {k : ℕ} {message : BrokerMessage} {what : String}
    (hm : topic[k]? = some message) (herror : decode_location_payload message.payload = .error what) :
    events_of (topic.take (k + 1)) = events_of (topic.take k) := by
  rw [List.take_add_one, hm]
  ext event
  constructor
  · rintro ⟨m, hmem, hd⟩
    rcases List.mem_append.mp hmem with hmem | hmem
    · exact ⟨m, hmem, hd⟩
    · rw [Option.toList_some, List.mem_singleton] at hmem
      rw [hmem, herror] at hd
      cases hd
  · rintro ⟨m, hmem, hd⟩
    exact ⟨m, List.mem_append_left _ hmem, hd⟩

/-- The events of a topic's first messages are events of the topic. -/
theorem events_of_take_subset (topic : List BrokerMessage) (n : ℕ) : events_of (topic.take n) ⊆ events_of topic := by
  rintro event ⟨m, hm, hd⟩
  exact ⟨m, List.mem_of_mem_take hm, hd⟩

/-- A commit of the message polled last. -/
theorem commit_among {msg : KafkaMessage} (h : Taken topic ∅ ∅ w) (hoffset : msg.offset + 1 = w.consumer.next_offset)
    (h3 : H3Index) : (Prog.modify (World.commit msg) : Action G Unit).Among .atomic World.Disturbed
      (World.Advances h3 topic) (fun _ => Taken topic ∅ ∅) (fun _ _ => True) w := by
  intro t ht
  have htaken := h.disturbed ht
  have hconsumer : t.consumer = w.consumer := by
    obtain ⟨⟨redis, pg, produced, rfl⟩, -⟩ := ht
    rfl
  refine ⟨⟨.inl rfl, ?_⟩, htaken.polled, htaken.seen⟩
  change max t.consumer.committed_offset (msg.offset + 1) = _ ∨
    t.redis.HasTaken topic (max t.consumer.committed_offset (msg.offset + 1))
  rcases le_total (msg.offset + 1) t.consumer.committed_offset with hle | hle
  · exact .inl (max_eq_left hle)
  · rw [max_eq_right hle, hoffset, ← hconsumer]
    exact .inr fun event hevent => (htaken.polled event hevent).resolve_left nofun

/-- A turn takes in what it polls, or the processor ends. -/
theorem turn_among (hstamped : ∀ event ∈ events_of env.topic, event.server_recv_ms ≠ 0)
    (h : Taken env.topic ∅ ∅ w) :
    (ProcessingLoop.turn env p).Among .atomic World.Disturbed (World.Advances p.h3 env.topic)
      (fun _ => Taken env.topic ∅ ∅) (fun _ _ => True) w := by
  unfold ProcessingLoop.turn ProcessingLoop.turn_with
  rw [Prog.bind_eq, among_bind, Prog.among_atomically]
  intro t ht
  have htaken := h.disturbed ht
  rcases t.poll_cases env with hpoll | ⟨message, msg, hm, hpayload, hoffset, hpoll⟩
  · rw [hpoll]
    have hframe : t.Frame t.advance := ⟨rfl, rfl, rfl, rfl, rfl⟩
    exact ⟨hframe.advances, (quiet_among quiet_idle p.h3 (htaken.frame hframe)).imp (fun _ _ => And.left)
      fun _ _ _ => trivial⟩
  · rw [hpoll]
    generalize hu : ({ t with
      consumer := { t.consumer with next_offset := t.consumer.next_offset + 1 }
      tick := t.tick + 1 } : World G) = u
    have hredis : u.redis = t.redis := by rw [← hu]
    have hconsumer : u.consumer = { t.consumer with next_offset := t.consumer.next_offset + 1 } := by rw [← hu]
    have hcommitted : u.consumer.committed_offset = t.consumer.committed_offset := by rw [hconsumer]
    refine ⟨⟨.inl hredis, .inl hcommitted⟩, ?_⟩
    have hnext : msg.offset + 1 = u.consumer.next_offset := by rw [hoffset, hconsumer]
    have hseen : ∀ pair ∈ u.dedup.seen, pair ∈ (∅ : Set (String × ℕ)) ∨ u.redis.Covers pair.1 pair.2 := by
      rw [← hu]
      exact htaken.seen
    dsimp only
    rw [hpayload]
    cases hdecode : decode_location_payload message.payload with
    | error what =>
      refine commit_among ⟨?_, hseen⟩ hnext p.h3
      rw [hconsumer, hredis]
      exact events_of_take_succ_of_error hm hdecode ▸ htaken.polled
    | ok event =>
      have hevents := events_of_take_succ hm hdecode
      have hmem : event ∈ events_of env.topic :=
        events_of_take_subset _ _ (hevents ▸ Set.mem_insert event _)
      have hpolled : Taken env.topic {(event.device_id, event.seq)} ∅ u := by
        refine ⟨fun other hother => ?_, hseen⟩
        rw [hconsumer, hevents] at hother
        rcases hother with rfl | hother
        · exact .inl rfl
        · rw [hredis]
          exact .inr ((htaken.polled other hother).resolve_left nofun)
      dsimp only
      rw [Prog.bind_eq, among_bind]
      refine (process_among (hstamped event hmem) hmem hpolled).imp (fun _ v hv => ?_) fun _ _ => id
      exact commit_among hv.1 (hnext.trans (congrArg KafkaConsumer.next_offset hv.2.symm)) p.h3

/-- So does every run. -/
theorem run_among (hstamped : ∀ event ∈ events_of env.topic, event.server_recv_ms ≠ 0) (n : ℕ)
    (h : Taken env.topic ∅ ∅ w) :
    (ProcessingLoop.run env p n).Among .atomic World.Disturbed (World.Advances p.h3 env.topic)
      (fun _ _ => True) (fun _ _ => True) w := by
  unfold ProcessingLoop.run ProcessingLoop.run_with
  rw [Prog.bind_eq, among_bind]
  refine (quiet_among quiet_note_flush p.h3 h).imp (fun _ t ht => ?_) fun _ _ _ => trivial
  rw [Prog.bind_eq, among_bind]
  have hloop := Prog.among_whileM (h := .atomic) (P := fun _ => Taken env.topic ∅ ∅) (E := fun _ _ => True)
    (R := World.Disturbed) (M := World.Advances p.h3 env.topic) (Taken env.topic ∅ ∅)
    (ProcessingLoop.condition env) (ProcessingLoop.turn env p) (fun u hu => ?_) (fun _ => id) n ht.1
  · refine hloop.imp (fun stopped u hu => ?_) fun _ _ => id
    cases stopped with
    | true =>
      rw [if_pos rfl, Prog.bind_eq, among_bind]
      exact (quiet_among quiet_flush p.h3 hu).imp (fun _ _ _ => trivial) fun _ _ _ => trivial
    | false => trivial
  · unfold ProcessingLoop.condition
    rw [Prog.bind_eq, among_bind]
    refine (quiet_among (quiet_reading _) p.h3 hu).imp (fun stop v hv => ?_) fun _ _ _ => trivial
    rw [Prog.pure_eq, Prog.among_pure]
    cases stop with
    | true => exact hv.1
    | false => exact turn_among hstamped hv.1

end Processor

/-- The processors of a consumer group: where the partitions of the topic are, and which of them each reads. -/
structure ProcessorGroup (ι π : Type) where
  h3 : H3Index
  partitions : π → List BrokerMessage
  assigned : ι → π

/-- What the processors of a group have in common, the offsets that the group has committed, and what each
processor owns. -/
structure GroupState (ι π G : Type) where
  redis : RedisClient := {}
  pg : PostgresClient := {}
  produced : List ProducedMessage := []
  committed : π → ℕ := fun _ => 0
  worlds : ι → World G

namespace ProcessorGroup

variable {ι π G : Type} [DecidableEq ι] [DecidableEq π] (group : ProcessorGroup ι π)

/-- The events of all partitions. -/
def events : Set LocationEvent := {event | ∃ j, event ∈ events_of (group.partitions j)}

/-- The world of a processor. -/
def view (i : ι) (state : GroupState ι π G) : World G :=
  { state.worlds i with redis := state.redis, pg := state.pg, produced := state.produced }

/-- The state in which the world of a processor is another. -/
def put (i : ι) (state : GroupState ι π G) (w : World G) : GroupState ι π G where
  redis := w.redis
  pg := w.pg
  produced := w.produced
  committed := Function.update state.committed (group.assigned i)
    (max (state.committed (group.assigned i)) w.consumer.committed_offset)
  worlds := Function.update state.worlds i w

/-- A step of a processor. -/
def on (i : ι) {β : Type} (c : Atomic (World G) β) : Atomic (GroupState ι π G) β := fun state =>
  ((c (view i state)).1, group.put i state (c (view i state)).2)

/-- What a processor owns that starts at an offset, with an empty window. -/
def starting (offset max_entries : ℕ) (ttl_seconds : ℤ) (geofence : G) : World G :=
  { World.fresh max_entries ttl_seconds geofence with
    consumer := { next_offset := offset, committed_offset := offset } }

/-- Processor `i` starts: a run of any length, in any environment and either mode, with an empty window, at
an offset that its group has committed or an earlier one. -/
def Boots (i : ι) (state : GroupState ι π G) (program : Prog (Atomic (GroupState ι π G)) Exception Bool)
    (state' : GroupState ι π G) : Prop :=
  ∃ (env : Environment) (p : Processor G) (n offset max_entries : ℕ) (ttl_seconds : ℤ) (geofence : G),
    env.topic = group.partitions (group.assigned i) ∧ p.h3 = group.h3 ∧
    offset ≤ state.committed (group.assigned i) ∧
    program = (ProcessingLoop.run env p n).hoist (group.on i) ∧
    state' = { state with
      worlds := Function.update state.worlds i (starting offset max_entries ttl_seconds geofence) }

/-- The group before any of its processors has started. -/
def start (geofence : ι → G) : Pool ι (Atomic (GroupState ι π G)) (GroupState ι π G) Exception Bool :=
  ⟨fun _ => .pure false, { worlds := fun i => World.fresh 0 0 (geofence i) }⟩

/-- The pools that a group can reach. -/
def Reaches : Pool ι (Atomic (GroupState ι π G)) (GroupState ι π G) Exception Bool →
    Pool ι (Atomic (GroupState ι π G)) (GroupState ι π G) Exception Bool → Prop :=
  Relation.ReflTransGen (Pool.Moves .atomic group.Boots)

/-- What is stored is the state of an event, by writes of valid events, and what is committed is covered; no
processor has committed more than its group. -/
structure Sound (state : GroupState ι π G) : Prop where
  stored : ∀ d st, state.redis.get_device_state d = some st →
    ∃ event ∈ group.events, event.device_id = d ∧ settled_state group.h3 event = st
  written : Written group.h3 state.redis
  committed : ∀ j, state.redis.HasTaken (group.partitions j) (state.committed j)
  commits : ∀ i, (state.worlds i).consumer.committed_offset ≤ state.committed (group.assigned i)

/-- What the others leave of a processor. -/
def Relies (i : ι) (state state' : GroupState ι π G) : Prop :=
  state'.worlds i = state.worlds i ∧ state.redis.Grows state'.redis

/-- What a processor does. -/
def Guarantees (i : ι) (state state' : GroupState ι π G) : Prop :=
  ∃ w, state' = group.put i state w ∧
    (view i state).Advances group.h3 (group.partitions (group.assigned i)) w

variable {group}

/-- A processor sees the world that its step has left. -/
theorem view_put {i : ι} (state : GroupState ι π G) (w : World G) : view i (group.put i state w) = w := by
  have hworld : (group.put i state w).worlds i = w := by
    unfold put
    dsimp only
    rw [Function.update_self]
  unfold view
  rw [hworld]
  rfl

omit [DecidableEq ι] [DecidableEq π] in
/-- A processor sees the others as disturbances. -/
theorem Relies.disturbed {i : ι} {state state' : GroupState ι π G} (h : Relies i state state') :
    (view i state).Disturbed (view i state') := by
  refine ⟨⟨state'.redis, state'.pg, state'.produced, ?_⟩, h.2⟩
  unfold view
  rw [h.1]

/-- An empty window remembers nothing. -/
theorem seen_starting (offset max_entries : ℕ) (ttl_seconds : ℤ) (geofence : G) :
    (starting offset max_entries ttl_seconds geofence).dedup.seen = ∅ := by
  refine Set.eq_empty_of_forall_notMem ?_
  rintro pair ⟨_, hentry, -⟩
  cases hentry

omit [DecidableEq π] in
/-- A processor that is given another world sees what the group has in common. -/
theorem view_update {i : ι} (state : GroupState ι π G) (w : World G) :
    view i { state with worlds := Function.update state.worlds i w } =
      { w with redis := state.redis, pg := state.pg, produced := state.produced } := by
  unfold view
  dsimp only
  rw [Function.update_self]

/-- A step of a processor uncovers nothing. -/
theorem Guarantees.grows {i : ι} {state state' : GroupState ι π G} (h : group.Guarantees i state state') :
    state.redis.Grows state'.redis := by
  obtain ⟨w, rfl, hw⟩ := h
  exact hw.writes.grows

/-- A step of a processor keeps the group sound. -/
theorem Guarantees.sound {i : ι} {state state' : GroupState ι π G} (h : group.Guarantees i state state')
    (hsound : group.Sound state) : group.Sound state' := by
  have hgrows := h.grows
  obtain ⟨w, rfl, hw⟩ := h
  refine ⟨fun d st hst => ?_, ?_, fun j => ?_, fun j => ?_⟩
  · change w.redis.get_device_state d = some st at hst
    obtain hsame | ⟨event, hevent, -, hwrite⟩ := hw.writes
    · rw [hsame] at hst
      exact hsound.stored d st hst
    · rw [hwrite] at hst
      cases haccepted :
        (state.redis.update_device_state_cas event.device_id (settled_state group.h3 event)).1 with
      | false =>
        change (state.redis.update_device_state_cas _ _).2.get_device_state d = some st at hst
        rw [RedisClient.update_device_state_cas_rejected _ haccepted] at hst
        exact hsound.stored d st hst
      | true =>
        change (state.redis.update_device_state_cas _ _).2.device_states.lookup d = some st at hst
        rw [RedisClient.lookup_update_device_state_cas _ haccepted] at hst
        split at hst
        · rename_i hd
          exact ⟨event, ⟨_, hevent⟩, hd.symm, Option.some.inj hst⟩
        · exact hsound.stored d st hst
  · exact hw.writes.written hsound.written
  · have hkept : w.redis.HasTaken (group.partitions j) (state.committed j) := fun event hevent =>
      hgrows _ _ (hsound.committed j event hevent)
    change w.redis.HasTaken (group.partitions j) (Function.update state.committed (group.assigned i) _ j)
    rw [Function.update_apply]
    split
    · rename_i hj
      subst hj
      rcases le_total w.consumer.committed_offset (state.committed (group.assigned i)) with hle | hle
      · rwa [max_eq_left hle]
      · rw [max_eq_right hle]
        obtain hsame | htaken := hw.commits
        · rwa [le_antisymm (hsame.trans_le (hsound.commits i)) hle]
        · exact htaken
    · exact hkept
  · change ((Function.update state.worlds i w) j).consumer.committed_offset ≤
      Function.update state.committed (group.assigned i) _ (group.assigned j)
    rw [Function.update_apply, Function.update_apply]
    split
    · rename_i hj
      rw [hj, if_pos rfl]
      exact le_max_right _ _
    · refine (hsound.commits j).trans ?_
      split
      · rename_i hj
        rw [hj]
        exact le_max_left _ _
      · exact le_rfl

/-- The processors rely on what each of them guarantees. -/
theorem compatible (group : ProcessorGroup ι π) :
    Pool.Compatible (Relies (ι := ι) (π := π) (G := G)) group.Guarantees group.Sound where
  refl _ _ := ⟨rfl, fun _ _ => id⟩
  trans _ _ _ _ h h' := ⟨h'.1.trans h.1, fun d s hcovers => h'.2 d s (h.2 d s hcovers)⟩
  others i j state state' hij _ h := by
    refine ⟨?_, h.grows⟩
    obtain ⟨w, rfl, -⟩ := h
    exact Function.update_of_ne hij.symm _ _
  inv _ _ _ hsound h := h.sound hsound

/-- A processor that starts takes part in the group. -/
theorem Boots.accords (hstamped : ∀ event ∈ group.events, event.server_recv_ms ≠ 0) {i : ι}
    {state state' : GroupState ι π G} {program : Prog (Atomic (GroupState ι π G)) Exception Bool}
    (h : group.Boots i state program state') (hsound : group.Sound state) :
    program.Among .atomic (Relies i) (group.Guarantees i) (fun _ _ => True) (fun _ _ => True) state' ∧
      (∀ j, i ≠ j → Relies j state state') ∧ group.Sound state' := by
  obtain ⟨env, p, n, offset, max_entries, ttl_seconds, geofence, htopic, hh3, hoffset, rfl, rfl⟩ := h
  refine ⟨?_, fun j hij => ⟨Function.update_of_ne hij.symm _ _, fun _ _ => id⟩,
    hsound.stored, hsound.written, hsound.committed, fun j => ?_⟩
  · -- It starts with what the group has committed, which is covered, and an empty window.
    have htaken : ∀ w : World G, w.consumer.next_offset = offset → w.redis = state.redis → w.dedup.seen = ∅ →
        Taken env.topic ∅ ∅ w := by
      intro w hnext hredis hseen
      refine ⟨fun event hevent => .inr ?_, fun pair hpair => ?_⟩
      · rw [hnext, htopic] at hevent
        rw [hredis]
        refine hsound.committed (group.assigned i) event ?_
        obtain ⟨m, hm, hd⟩ := hevent
        exact ⟨m, List.take_subset_take_left _ hoffset hm, hd⟩
      · rw [hseen] at hpair
        cases hpair
    have hstarting := htaken { starting offset max_entries ttl_seconds geofence with
      redis := state.redis, pg := state.pg, produced := state.produced } rfl rfl
      (seen_starting offset max_entries ttl_seconds geofence)
    rw [← view_update] at hstarting
    have hrun := run_among (p := p) (fun event hevent => hstamped event ⟨group.assigned i, htopic ▸ hevent⟩) n
      hstarting
    refine Prog.Among.hoist (fun c => group.on i c) (view i) (group.put i) (fun _ _ => rfl) view_put
      (fun _ _ => Relies.disturbed) (fun _ w hw => ⟨w, rfl, ?_⟩) hrun
    rwa [← hh3, ← htopic]
  · change ((Function.update state.worlds i _) j).consumer.committed_offset ≤ _
    rw [Function.update_apply]
    split
    · rename_i hj
      rw [hj]
      exact hoffset
    · exact hsound.commits j

/-- In every state that a group reaches, what is stored is of some event, and what is committed is covered;
and nothing that was covered before is uncovered since. -/
theorem reaches_sound (hstamped : ∀ event ∈ group.events, event.server_recv_ms ≠ 0) {geofence : ι → G}
    {P Q : Pool ι (Atomic (GroupState ι π G)) (GroupState ι π G) Exception Bool}
    (hP : group.Reaches (start geofence) P) (hQ : group.Reaches P Q) :
    group.Sound Q.state ∧ P.state.redis.Grows Q.state.redis := by
  have hstart : Pool.Accords .atomic Relies group.Guarantees (fun _ _ _ => True) (fun _ _ _ => True) group.Sound
      (start geofence) := by
    refine ⟨fun i => ⟨_, ⟨rfl, fun _ _ => id⟩, trivial⟩, ?_, .empty, ?_, fun i => le_rfl⟩
    · exact fun d st hst => nomatch hst
    · rintro j event ⟨m, hm, -⟩
      cases hm
  have hsound := hstart.moves (compatible group) (fun i state program state' hboots hsound =>
    hboots.accords hstamped hsound) hP
  have hcompatible : Pool.Compatible (Relies (ι := ι) (π := π) (G := G)) group.Guarantees fun state =>
      group.Sound state ∧ P.state.redis.Grows state.redis := by
    obtain ⟨hrefl, htrans, hothers, hinv⟩ := compatible (G := G) group
    exact ⟨hrefl, htrans, fun i j s t hij hs => hothers i j s t hij hs.1, fun i s t hs hst =>
      ⟨hinv i s t hs.1 hst, fun d seq hcovers => hst.grows d seq (hs.2 d seq hcovers)⟩⟩
  refine (Pool.Accords.moves ⟨hsound.thread, hsound.inv, fun _ _ => id⟩ hcompatible
    (fun i state program state' hboots hs => ?_) hQ).inv
  obtain ⟨hamong, hothers, hsound'⟩ := hboots.accords hstamped hs.1
  refine ⟨hamong, hothers, hsound', ?_⟩
  obtain ⟨env, p, n, offset, max_entries, ttl_seconds, geofence, -, -, -, -, rfl⟩ := hboots
  exact hs.2

/-- Two processors of one partition, in which the first report of a device is delivered again after the
second. -/
def pair_group : ProcessorGroup Bool Unit where
  h3 := .default
  partitions _ := [first_report, second_report, first_report]
  assigned _ := ()

/-- Both start, one after the other. -/
def pair_of (program : Bool → Prog (Atomic (GroupState Bool Unit Unit)) Exception Bool) :
    Pool Bool (Atomic (GroupState Bool Unit Unit)) (GroupState Bool Unit Unit) Exception Bool :=
  (((start fun _ => ()).restart false (program false)
      { worlds := Function.update (fun _ => World.fresh 0 0 ()) false (starting 0 10 60 ()) }).restart
    true (program true)
      { worlds := Function.update (Function.update (fun _ => World.fresh 0 0 ()) false (starting 0 10 60 ()))
          true (starting 0 10 60 ()) })

theorem pair_reaches {program : Bool → Prog (Atomic (GroupState Bool Unit Unit)) Exception Bool}
    (hboots : ∀ (i : Bool) (state : GroupState Bool Unit Unit), pair_group.Boots i state (program i)
      { state with worlds := Function.update state.worlds i (starting 0 10 60 ()) }) (schedule : List Bool) :
    pair_group.Reaches (start fun _ => ()) ((pair_of program).run .atomic schedule) :=
  .head (.restart (hboots false _)) (.head (.restart (hboots true _)) (Pool.moves_run _ schedule (pair_of program)))

end ProcessorGroup

end SignalRoute
