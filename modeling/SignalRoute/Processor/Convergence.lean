import SignalRoute.Processor.Loop
import SignalRoute.Store.Latest

/-!
# Convergence of location processing

However a topic is delivered, the device states at the end depend on the set of its messages only:
every device holds the state of its newest event. The stores are the registers of `Store.Latest`,
with devices as keys and sequence numbers as ranks, and a turn of the loop takes in one event.

The deduplication window could break this in two ways, by taking a new event for a duplicate or by
forgetting an old one. Neither happens to matter, because what the window remembers is never newer
than what is stored (`Converging.seen`): a remembered event has been taken in, and a forgotten one
is stopped by the sequence guard.
-/

namespace SignalRoute

open Interaction
open Prog (always_bind whileM)
open Numeric (Double)

/-- The events that the messages of a topic decode to. -/
def events_of (topic : List BrokerMessage) : Set LocationEvent :=
  {event | ∃ message ∈ topic, decode_location_payload message.payload = .ok event}

/-- A topic whose messages are events with valid coordinates that the gateway has stamped, and in
which a device and a sequence number determine the event. -/
structure WellFormedTopic (topic : List BrokerMessage) : Prop where
  decodes : ∀ message ∈ topic, ∃ event, decode_location_payload message.payload = .ok event ∧
    valid_lat_lon event.lat event.lon = true ∧ event.server_recv_ms ≠ 0
  determined : ∀ a ∈ events_of topic, ∀ b ∈ events_of topic,
    a.device_id = b.device_id → a.seq = b.seq → a = b

/-- The device state that a stamped event leaves. -/
def settled_state (h3 : H3Index) (event : LocationEvent) : DeviceState :=
  StateWriter.state_of event
    (pack_cell h3.resolution (h3.lat_idx event.lat.toRat) (h3.lon_idx event.lon.toRat)) 0

variable {G : Type} {env : Environment} {p : Processor G} {w : World G} {e : LocationEvent}

/-- The store holds the newest of the events that the loop has polled, its index is true, and the
window remembers nothing newer than what is stored. -/
structure Converging (env : Environment) (p : Processor G) (w : World G) : Prop where
  holds : Store.Holds LocationEvent.device_id LocationEvent.seq (settled_state p.h3)
    w.redis.get_device_state (events_of (env.topic.take w.consumer.next_offset))
  seen : ∀ d s, (d, s) ∈ w.dedup.seen →
    ∃ st, w.redis.get_device_state d = some st ∧ s ≤ st.seq
  indexed : w.redis.Indexed

/-- What the invariant speaks about is in the frame. -/
theorem Converging.of_frame {t : World G} (h : Converging env p w) (hf : w.Frame t) :
    Converging env p t where
  holds := by
    rw [hf.redis, hf.consumer]
    exact h.holds
  seen := by
    rw [hf.redis, hf.dedup]
    exact h.seen
  indexed := by
    rw [hf.redis]
    exact h.indexed

/-- Polling one more message adds its event. -/
theorem events_of_take_succ {topic : List BrokerMessage} {k : ℕ} {message : BrokerMessage}
    (hm : topic[k]? = some message) (he : decode_location_payload message.payload = .ok e) :
    events_of (topic.take (k + 1)) = insert e (events_of (topic.take k)) := by
  rw [List.take_add_one, hm]
  ext event
  constructor
  · rintro ⟨m, hmem, hd⟩
    rcases List.mem_append.mp hmem with hmem | hmem
    · exact Set.mem_insert_of_mem _ ⟨m, hmem, hd⟩
    · rw [Option.toList_some, List.mem_singleton] at hmem
      subst hmem
      exact .inl (Except.ok.inj (hd.symm.trans he))
  · rintro (rfl | ⟨m, hmem, hd⟩)
    · exact ⟨message, List.mem_append_right _ List.mem_cons_self, he⟩
    · exact ⟨m, List.mem_append_left _ hmem, hd⟩

/-- A stamped event with valid coordinates is written as its settled state. -/
theorem state_of_eq_settled_state {h3 : H3Index} {cell now_ms : ℤ}
    (hcell : h3.lat_lng_to_cell e.lat e.lon = .ok cell) (hstamp : e.server_recv_ms ≠ 0) :
    StateWriter.state_of e cell now_ms = settled_state h3 e := by
  unfold settled_state StateWriter.state_of
  rw [(h3.lat_lng_to_cell_ok_iff.mp hcell).2, if_neg hstamp, if_neg hstamp]

/-- A turn that takes in an event that is not newer than what is stored. -/
theorem Converging.take_older {t : World G} {message : BrokerMessage} (h : Converging env p w)
    (hm : env.topic[w.consumer.next_offset]? = some message)
    (he : decode_location_payload message.payload = .ok e) {st : DeviceState}
    (hst : w.redis.get_device_state e.device_id = some st) (hle : e.seq ≤ st.seq)
    (hnext : t.consumer.next_offset = w.consumer.next_offset + 1) (hredis : t.redis = w.redis)
    (hseen : t.dedup.seen ⊆ insert (e.device_id, e.seq) w.dedup.seen) : Converging env p t where
  holds := by
    rw [hredis, hnext, events_of_take_succ hm he]
    obtain ⟨e', he', hk, rfl⟩ := h.holds.exists_of_eq_some hst
    exact h.holds.insert_older e ⟨e', he', hk, hle⟩
  seen d s hds := by
    rw [hredis]
    rcases hseen hds with heq | hds
    · obtain ⟨rfl, rfl⟩ := Prod.mk.inj heq
      exact ⟨st, hst, hle⟩
    · exact h.seen d s hds
  indexed := hredis ▸ h.indexed

/-- A turn that takes in an event newer than what is stored. -/
theorem Converging.take_newer {t : World G} {message : BrokerMessage} (h : Converging env p w)
    (hm : env.topic[w.consumer.next_offset]? = some message)
    (he : decode_location_payload message.payload = .ok e)
    (hnew : ∀ st, w.redis.get_device_state e.device_id = some st → st.seq < e.seq)
    (hnext : t.consumer.next_offset = w.consumer.next_offset + 1)
    (hredis : t.redis = (w.redis.update_device_state_cas e.device_id (settled_state p.h3 e)).2)
    (hseen : t.dedup.seen ⊆ insert (e.device_id, e.seq) w.dedup.seen) : Converging env p t := by
  have hacc : (w.redis.update_device_state_cas e.device_id (settled_state p.h3 e)).1 = true :=
    (w.redis.update_device_state_cas_fst _ _).mpr hnew
  have hlookup : t.redis.get_device_state = Function.update w.redis.get_device_state e.device_id
      (some (settled_state p.h3 e)) := by
    funext d
    rw [hredis]
    unfold RedisClient.get_device_state
    rw [w.redis.lookup_update_device_state_cas hacc, Function.update_apply]
    rfl
  -- The newest events, what the window has seen, and the index.
  refine ⟨?_, fun d s hds => ?_, ?_⟩
  · rw [hlookup, hnext, events_of_take_succ hm he]
    refine h.holds.insert_newer e fun e' he' hk => ?_
    obtain ⟨a, ha, hst⟩ := h.holds.exists_of_mem he'
    rw [hk] at ha hst
    exact (ha.le e' he' hk).trans_lt (hnew _ hst)
  · rw [hlookup, Function.update_apply]
    split
    · rename_i hd
      refine ⟨_, rfl, ?_⟩
      rcases hseen hds with heq | hds
      · exact (Prod.mk.inj heq).2.le
      · obtain ⟨st, hst, hle⟩ := h.seen d s hds
        exact hle.trans (hnew st (hd ▸ hst)).le
    · rename_i hd
      rcases hseen hds with heq | hds
      · exact absurd (Prod.mk.inj heq).1 hd
      · exact h.seen d s hds
  · rw [hredis]
    exact h.indexed.update_device_state_cas _ _

/-- A decoded event is taken in, whichever of the checks it meets. -/
theorem process_converging {t : World G} {message : BrokerMessage} (h : Converging env p w)
    (hm : env.topic[w.consumer.next_offset]? = some message)
    (he : decode_location_payload message.payload = .ok e)
    (hv : valid_lat_lon e.lat e.lon = true) (hstamp : e.server_recv_ms ≠ 0)
    (hnext : t.consumer.next_offset = w.consumer.next_offset + 1) (hredis : t.redis = w.redis)
    (hdedup : t.dedup = w.dedup) :
    (ProcessingLoop.process env p e).Always .atomic (fun _ => True)
      (fun _ t' => Converging env p t' ∧ t'.consumer = t.consumer) (fun _ _ => False) t := by
  have hquestion : (t.is_duplicate env e).2.dedup.seen ⊆ w.dedup.seen := by
    rw [← hdedup]
    exact World.seen_is_duplicate e t
  unfold ProcessingLoop.process ProcessingLoop.process_with
  simp only [Prog.bind_eq, always_bind, Prog.always_atomically]
  refine ⟨trivial, ?_⟩
  split
  · -- A duplicate was remembered, so something at least as new is stored.
    rename_i hdup
    have hmem : (e.device_id, e.seq) ∈ w.dedup.seen :=
      hdedup ▸ DedupWindow.mem_seen_of_is_duplicate hdup
    obtain ⟨st, hst, hle⟩ := h.seen _ _ hmem
    exact ⟨h.take_older hm he hst hle hnext hredis
      (hquestion.trans (Set.subset_insert _ _)), rfl⟩
  · generalize ht₁ : (t.is_duplicate env e).2.mark_seen env e = t₁
    have hseen : t₁.dedup.seen ⊆ insert (e.device_id, e.seq) w.dedup.seen := by
      rw [← ht₁]
      exact hdedup ▸ World.seen_mark_asked e t
    have hredis₁ : t₁.redis = w.redis := by
      rw [← ht₁]
      exact hredis
    have hconsumer₁ : t₁.consumer = t.consumer := by
      rw [← ht₁]
      rfl
    have hnext₁ : t₁.consumer.next_offset = w.consumer.next_offset + 1 := hconsumer₁ ▸ hnext
    rw [always_bind, Prog.always_modify, always_bind, Prog.always_read, ht₁]
    refine ⟨trivial, trivial, ?_⟩
    split
    · -- The guard lets the event through, so it is newer than what is stored.
      rename_i hguard
      obtain ⟨cell, hcell, hw⟩ := World.write_with_result_valid env p t₁ hv
      rw [state_of_eq_settled_state hcell hstamp] at hw
      have hconv : Converging env p (t₁.write_with_result env p e).2 := by
        rw [hw]
        refine h.take_newer hm he (fun st hst => ?_) hnext₁ (by rw [hredis₁]) hseen
        unfold SequenceGuard.should_accept at hguard
        rw [hredis₁, hst] at hguard
        simpa using hguard
      have hconsumer₂ : (t₁.write_with_result env p e).2.consumer = t₁.consumer := by rw [hw]
      refine (accept_frame hv).imp (fun _ _ => trivial) (fun _ t' hf => ?_) fun _ _ => id
      exact ⟨hconv.of_frame hf, hf.consumer.trans (hconsumer₂.trans hconsumer₁)⟩
    · -- The guard stops it, so what is stored is as new as the event.
      rename_i hguard
      obtain ⟨st, hst, hle⟩ : ∃ st, w.redis.get_device_state e.device_id = some st ∧
          e.seq ≤ st.seq := by
        unfold SequenceGuard.should_accept at hguard
        rw [hredis₁] at hguard
        cases hst : w.redis.get_device_state e.device_id with
        | none => simp [hst] at hguard
        | some st => exact ⟨st, rfl, by simpa [hst] using hguard⟩
      exact ⟨h.take_older hm he hst hle hnext₁ hredis₁ hseen, hconsumer₁⟩

/-- A turn keeps the invariant and throws nothing, and it takes in a message where it polls one. -/
theorem turn_converging (htopic : WellFormedTopic env.topic) (h : Converging env p w) :
    (ProcessingLoop.turn env p).Always .atomic (fun _ => True)
      (fun _ t => Converging env p t ∧
        t.consumer.next_offset = (w.poll env).2.consumer.next_offset) (fun _ _ => False) w := by
  unfold ProcessingLoop.turn ProcessingLoop.turn_with
  rw [Prog.bind_eq, always_bind, Prog.always_atomically]
  unfold World.poll
  rcases w.consumer.poll_cases "tm.location.events" (env.topic.take (env.visible w.tick)) with
    ⟨hpoll, -⟩ | ⟨message, msg, hm, hpayload, -, hpoll⟩
  · -- No message, and the timed flush touches no state of a device.
    rw [hpoll]
    refine ⟨trivial, ?_⟩
    exact idle_frame.imp (fun _ _ => trivial)
      (fun _ t hf => ⟨h.of_frame ⟨hf.redis, hf.dedup, hf.consumer, hf.accepted, hf.commits⟩,
        congrArg KafkaConsumer.next_offset hf.consumer⟩) fun _ _ => id
  · rw [hpoll]
    have hm' : env.topic[w.consumer.next_offset]? = some message := by
      rw [List.getElem?_take] at hm
      split at hm
      · exact hm
      · cases hm
    obtain ⟨e, he, hv, hstamp⟩ := htopic.decodes message (List.mem_of_getElem? hm')
    dsimp only
    rw [hpayload, he]
    refine ⟨trivial, ?_⟩
    -- The commit after the event moves no offset that the invariant speaks of.
    dsimp only
    rw [Prog.bind_eq, always_bind]
    refine Prog.Always.imp (process_converging h hm' he hv hstamp (by rfl) (by rfl) (by rfl))
      (fun _ => id) (fun _ t ht => ?_) fun _ _ => id
    exact ⟨trivial, ⟨ht.1.holds, ht.1.seen, ht.1.indexed⟩,
      congrArg KafkaConsumer.next_offset ht.2⟩

/-- A fresh world has taken in nothing. -/
theorem converging_fresh (max_entries : ℕ) (ttl_seconds : ℤ) (geofence : G) :
    Converging env p (World.fresh max_entries ttl_seconds geofence) where
  holds := by
    have hnone : events_of (env.topic.take 0) = ∅ := by
      ext event
      simp [events_of]
    show Store.Holds _ _ _ _ (events_of (env.topic.take 0))
    rw [hnone]
    exact Store.Holds.empty
  seen _ _ h := by
    obtain ⟨_, he, -⟩ := h
    cases he
  indexed := RedisClient.Indexed.empty

/-- Every run keeps the invariant and throws nothing. -/
theorem run_converging (htopic : WellFormedTopic env.topic) (n : ℕ) (h : Converging env p w) :
    (ProcessingLoop.run env p n).Always .atomic (fun _ => True) (fun _ => Converging env p)
      (fun _ _ => False) w := by
  unfold ProcessingLoop.run ProcessingLoop.run_with
  simp only [Prog.bind_eq, always_bind]
  refine note_flush_frame.imp (fun _ _ => trivial) (fun _ t hf => ?_) fun _ _ => id
  refine Prog.always_whileM (Converging env p) _ _ (fun t ht => ?_) (fun t ht => ht) n t
    (h.of_frame hf)
  have hread : Converging env p t.advance := ⟨ht.holds, ht.seen, ht.indexed⟩
  rw [always_condition]
  refine ⟨trivial, ?_⟩
  cases env.should_stop t.tick with
  | false =>
    exact (turn_converging htopic hread).imp (fun _ => id) (fun _ _ => And.left) fun _ _ => id
  | true =>
    rw [if_neg (by decide), if_pos rfl, always_bind]
    exact flush_frame.imp (fun _ _ => trivial) (fun _ _ hf => hread.of_frame hf) fun _ _ => id

/-- A run that meets every message and is not asked to stop takes one message a turn. -/
theorem run_consumes (env : Environment) (htopic : WellFormedTopic env.topic)
    (hvisible : ∀ t, env.visible t = env.topic.length) (hgo : ∀ t, env.should_stop t = false)
    (n : ℕ) (h : Converging env p w) (hn : w.consumer.next_offset + n ≤ env.topic.length) :
    (ProcessingLoop.run env p n).Always .atomic (fun _ => True)
      (fun _ t => t.consumer.next_offset = w.consumer.next_offset + n) (fun _ _ => False) w := by
  -- The induction is on the turns left, each of which finds the next message.
  have hloop : ∀ (n : ℕ) (w : World G), Converging env p w →
      w.consumer.next_offset + n ≤ env.topic.length →
      (whileM (ProcessingLoop.condition env) (ProcessingLoop.turn env p) n).Always .atomic (fun _ => True)
        (fun stopped t => stopped = false ∧ t.consumer.next_offset = w.consumer.next_offset + n)
        (fun _ _ => False) w := by
    intro n
    induction n with
    | zero => exact fun w _ _ => ⟨rfl, rfl⟩
    | succ n ih =>
      intro w h hn
      have hread : Converging env p w.advance := ⟨h.holds, h.seen, h.indexed⟩
      have hpoll : (w.advance.poll env).2.consumer.next_offset = w.consumer.next_offset + 1 := by
        have hlt : w.advance.consumer.next_offset < env.topic.length := by
          show w.consumer.next_offset < env.topic.length
          omega
        unfold World.poll KafkaConsumer.poll read_message
        rw [hvisible, List.take_length, List.getElem?_eq_getElem hlt]
        rfl
      unfold whileM
      rw [always_bind, always_condition, hgo, if_pos (by rfl), always_bind]
      refine ⟨trivial, (turn_converging htopic hread).imp (fun _ => id) (fun _ t ht => ?_)
        fun _ _ => id⟩
      rw [hpoll] at ht
      refine (ih t ht.1 (by omega)).imp (fun _ => id) (fun _ t' ht' => ⟨ht'.1, ?_⟩) fun _ _ => id
      omega
  unfold ProcessingLoop.run ProcessingLoop.run_with
  simp only [Prog.bind_eq, always_bind]
  refine note_flush_frame.imp (fun _ _ => trivial) (fun _ t hf => ?_) fun _ _ => id
  have hnext := congrArg KafkaConsumer.next_offset hf.consumer
  refine (hloop n t (h.of_frame hf) (by omega)).imp (fun _ => id) (fun stopped t' ht' => ?_)
    fun _ _ => id
  rw [ht'.1]
  exact ht'.2.trans (by omega)

/-- `redis` is the store of some run that has consumed `topic` from an empty store: in either mode,
with any window, clocks, flush failures and pauses. -/
def ConsumedStore (h3 : H3Index) (topic : List BrokerMessage) (redis : RedisClient) : Prop :=
  ∃ (G : Type) (p : Processor G) (env : Environment) (n max_entries : ℕ) (ttl_seconds : ℤ)
    (geofence : G), p.h3 = h3 ∧ env.topic = topic ∧
      let w := ((ProcessingLoop.run env p n).exec .atomic
        (World.fresh max_entries ttl_seconds geofence)).final
      w.consumer.next_offset = topic.length ∧ w.redis = redis

/-- The store of a consumed topic holds the newest events of the topic, and its index is true. -/
theorem ConsumedStore.holds {h3 : H3Index} {topic : List BrokerMessage} {redis : RedisClient}
    (htopic : WellFormedTopic topic) (h : ConsumedStore h3 topic redis) :
    Store.Holds LocationEvent.device_id LocationEvent.seq (settled_state h3)
      redis.get_device_state (events_of topic) ∧ redis.Indexed := by
  obtain ⟨G, p, env, n, max_entries, ttl_seconds, geofence, rfl, rfl, hnext, rfl⟩ := h
  have hconv := Prog.Always.final ((run_converging (p := p) htopic n
    (converging_fresh max_entries ttl_seconds geofence)).imp (fun _ => id) (fun _ _ => id)
    fun _ _ h => h.elim)
  have hholds := hconv.holds
  rw [hnext, List.take_length] at hholds
  exact ⟨hholds, hconv.indexed⟩

/-- Every well-formed topic is consumed by some run. -/
theorem exists_consumedStore (h3 : H3Index) {topic : List BrokerMessage}
    (htopic : WellFormedTopic topic) : ∃ redis, ConsumedStore h3 topic redis := by
  have hrun := run_consumes (.attentive topic) (p := (⟨h3, {}, none⟩ : Processor Unit)) htopic
    (fun _ => rfl) (fun _ => rfl) topic.length (converging_fresh 1 0 ()) (Nat.zero_add _).le
  have hnext := Prog.Always.final (Q := fun t => t.consumer.next_offset = topic.length)
    (hrun.imp (fun _ => id) (fun _ _ h => h.trans (Nat.zero_add _)) fun _ _ h => h.elim)
  exact ⟨_, Unit, _, _, _, _, _, _, rfl, rfl, hnext, rfl⟩

/-- Topics with the same payloads have the same events. -/
theorem events_of_congr {topic topic' : List BrokerMessage}
    (hsame : ∀ payload, payload ∈ topic.map BrokerMessage.payload ↔
      payload ∈ topic'.map BrokerMessage.payload) : events_of topic = events_of topic' := by
  have hsub : ∀ l l' : List BrokerMessage,
      (∀ payload, payload ∈ l.map BrokerMessage.payload → payload ∈ l'.map BrokerMessage.payload) →
      events_of l ⊆ events_of l' := by
    rintro l l' h event ⟨m, hm, hd⟩
    obtain ⟨m', hm', heq⟩ := List.mem_map.mp (h _ (List.mem_map_of_mem hm))
    exact ⟨m', hm', by rw [heq, hd]⟩
  exact (hsub _ _ fun _ => (hsame _).mp).antisymm (hsub _ _ fun _ => (hsame _).mpr)

/-- Location processing converges. Whatever runs consume two topics with the same set of payloads,
their stores agree: each device that occurs has the state of its newest event, no other device has a
state, and the cell indexes are the same. -/
theorem consumed_stores_agree {h3 : H3Index} {topic topic' : List BrokerMessage}
    {redis redis' : RedisClient} (htopic : WellFormedTopic topic)
    (hsame : ∀ payload, payload ∈ topic.map BrokerMessage.payload ↔
      payload ∈ topic'.map BrokerMessage.payload)
    (h : ConsumedStore h3 topic redis) (h' : ConsumedStore h3 topic' redis') :
    (∀ e ∈ events_of topic,
      (∀ e' ∈ events_of topic, e'.device_id = e.device_id → e'.seq ≤ e.seq) →
      redis.get_device_state e.device_id = some (settled_state h3 e)) ∧
    (∀ d, (∀ e ∈ events_of topic, e.device_id ≠ d) → redis.get_device_state d = none) ∧
    (∀ d, redis.get_device_state d = redis'.get_device_state d) ∧
    ∀ cell, redis.cell_devices.lookup cell = redis'.cell_devices.lookup cell := by
  have hevents := events_of_congr hsame
  have htopic' : WellFormedTopic topic' := by
    refine ⟨fun m hm => ?_, hevents ▸ htopic.determined⟩
    obtain ⟨m', hm', heq⟩ := List.mem_map.mp ((hsame _).mpr (List.mem_map_of_mem hm))
    exact heq ▸ htopic.decodes m' hm'
  obtain ⟨hholds, hindexed⟩ := h.holds htopic
  obtain ⟨hholds', hindexed'⟩ := h'.holds htopic'
  rw [← hevents] at hholds'
  have hstates := hholds.ext htopic.determined hholds'
  refine ⟨fun e he hmax => ?_, fun d hd => ?_, congrFun hstates, fun cell => ?_⟩
  · obtain ⟨e', he', hst⟩ := hholds.exists_of_mem he
    rwa [Store.Latest.unique htopic.determined he' ⟨he, rfl, hmax⟩] at hst
  · cases hst : redis.get_device_state d with
    | none => rfl
    | some st =>
      obtain ⟨e, he, hk, -⟩ := hholds.exists_of_eq_some hst
      exact absurd hk (hd e he)
  · exact hindexed.ext hindexed' (congrFun hstates) cell

/-- Two reports of one device. -/
def first_report : BrokerMessage := { key := "d", payload := "d,1,1,1,0,0" }

/-- The later one, from elsewhere. -/
def second_report : BrokerMessage := { key := "d", payload := "d,2,2,2,10.5,20" }

/-- In order and with the first one delivered twice, they are a well-formed topic. -/
theorem reports_wellFormed : WellFormedTopic [first_report, second_report, first_report] := by
  obtain ⟨a, ha, hav, has, haq⟩ : ∃ a, decode_location_payload first_report.payload = .ok a ∧
      valid_lat_lon a.lat a.lon = true ∧ a.server_recv_ms ≠ 0 ∧ a.seq = 1 :=
    ⟨{ device_id := "d", seq := 1, timestamp_ms := 1, server_recv_ms := 1 }, by decide +kernel,
      by decide +kernel, by decide, rfl⟩
  obtain ⟨b, hb, hbv, hbs, hbq⟩ : ∃ b, decode_location_payload second_report.payload = .ok b ∧
      valid_lat_lon b.lat b.lon = true ∧ b.server_recv_ms ≠ 0 ∧ b.seq = 2 :=
    ⟨{ device_id := "d", seq := 2, timestamp_ms := 2, server_recv_ms := 2, lat := .finite (21 / 2),
       lon := .finite 20 }, by decide +kernel, by decide +kernel, by decide, rfl⟩
  have hevents : ∀ e ∈ events_of [first_report, second_report, first_report], e = a ∨ e = b := by
    rintro e ⟨m, hm, he⟩
    simp only [List.mem_cons, List.not_mem_nil, or_false] at hm
    rcases hm with rfl | rfl | rfl
    · exact .inl (Except.ok.inj (he.symm.trans ha))
    · exact .inr (Except.ok.inj (he.symm.trans hb))
    · exact .inl (Except.ok.inj (he.symm.trans ha))
  refine ⟨fun m hm => ?_, fun x hx y hy _ hseq => ?_⟩
  · simp only [List.mem_cons, List.not_mem_nil, or_false] at hm
    rcases hm with rfl | rfl | rfl
    · exact ⟨a, ha, hav, has⟩
    · exact ⟨b, hb, hbv, hbs⟩
    · exact ⟨a, ha, hav, has⟩
  · rcases hevents x hx with rfl | rfl <;> rcases hevents y hy with rfl | rfl
    · rfl
    · omega
    · omega
    · rfl

/-- The second delivery of the first report changes nothing, nor does the other order. -/
theorem consumed_stores_agree_reports : ∃ redis redis',
    ConsumedStore .default [first_report, second_report, first_report] redis ∧
    ConsumedStore .default [second_report, first_report] redis' ∧
    (∀ d, redis.get_device_state d = redis'.get_device_state d) ∧
    ∀ cell, redis.cell_devices.lookup cell = redis'.cell_devices.lookup cell := by
  have hsame : ∀ payload,
      payload ∈ [first_report, second_report, first_report].map BrokerMessage.payload ↔
        payload ∈ [second_report, first_report].map BrokerMessage.payload := by
    intro payload
    simp only [List.map_cons, List.map_nil, List.mem_cons, List.not_mem_nil, or_false]
    tauto
  have hwell : WellFormedTopic [second_report, first_report] := by
    have hevents := events_of_congr hsame
    exact ⟨fun m hm => reports_wellFormed.decodes m (by simp_all), hevents ▸ reports_wellFormed.determined⟩
  obtain ⟨redis, h⟩ := exists_consumedStore .default reports_wellFormed
  obtain ⟨redis', h'⟩ := exists_consumedStore .default hwell
  exact ⟨redis, redis', h, h', (consumed_stores_agree reports_wellFormed hsame h h').2.2⟩

end SignalRoute
