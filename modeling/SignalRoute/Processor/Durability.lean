import SignalRoute.Processor.Loop

/-!
# Commit durability

An event is durable when a crash cannot lose it from history: it is a trip point, or a message on
the dead-letter topic. The question is whether every accepted event below the committed offset is
durable at every point of every run, since a crash there loses the history writer's buffer.

The loop commits a message at the end of its turn, whether or not the batch was flushed. So the
answer depends on the size of a batch. If it is at most one, the buffer is empty between two turns
(`World.Steady`), and inside a turn the one event that is on its way belongs to a message that is
not committed (`World.Pending`). If it is larger, the first accepted event of the first batch is
committed while it is only in memory (`turn_unflushed`).
-/

namespace SignalRoute

open Interaction
open Prog (always_bind always_tryCatch always_forEach always_whileM whileM)

variable {G : Type} {env : Environment} {p : Processor G} {w : World G} {e : LocationEvent}

namespace World

/-- An event that no crash loses from history. -/
def Saved (w : World G) (e : LocationEvent) : Prop :=
  e ∈ w.pg.trip_points ∨ dlq_message e ∈ w.produced

/-- Every accepted event below the committed offset is saved. -/
def Durable (w : World G) : Prop :=
  ∀ x ∈ w.accepted, x.1 < w.consumer.committed_offset → w.Saved x.2

/-- The stored trip points are not newer than the device states. -/
def KeysBounded (w : World G) : Prop :=
  ∀ key ∈ w.pg.trip_point_keys,
    ∃ st, w.redis.get_device_state key.1 = some st ∧ key.2 ≤ st.seq

/-- Nothing waits in memory: the world between two messages. -/
structure Settled (w : World G) : Prop where
  empty : w.history_buffer = []
  saved : ∀ x ∈ w.accepted, w.Saved x.2
  keys : w.KeysBounded

/-- The event `e` has passed the compare-and-set and waits to be saved. Where it was accepted, its
message is not committed and no trip point has its key. -/
structure Pending (e : LocationEvent) (w : World G) : Prop where
  saved : (∀ x ∈ w.accepted, w.Saved x.2) ∨
    PostgresClient.trip_point_key e ∉ w.pg.trip_point_keys ∧
      ∀ x ∈ w.accepted, w.Saved x.2 ∨ x.2 = e ∧ w.consumer.committed_offset ≤ x.1
  keys : w.KeysBounded
  newest : ∃ st, w.redis.get_device_state e.device_id = some st ∧ e.seq ≤ st.seq

theorem Settled.durable (h : w.Settled) : w.Durable := fun x hx _ => h.saved x hx

theorem Pending.durable (h : w.Pending e) : w.Durable := by
  intro x hx hlt
  rcases h.saved with hs | ⟨-, hs⟩
  · exact hs x hx
  · rcases hs x hx with hs | ⟨-, hle⟩
    · exact hs
    · exact absurd hlt (not_lt.mpr hle)

end World

/-- What one flushed event leaves: a trip point, or a message on the dead-letter topic. -/
def World.Delivered (w : World G) (e : LocationEvent) (t : World G) : Prop :=
  t.pg = w.pg.batch_insert_trip_points [e] ∧ t.produced = w.produced ∨
    t.pg = w.pg ∧ t.produced = w.produced ++ [dlq_message e]

/-- A flush of one event delivers it, and before that it changes no stored history. -/
theorem flush_singleton (hb : w.history_buffer = [e]) :
    (HistoryWriter.flush env).Always .atomic
      (fun t => w.Frame t ∧ (t.pg = w.pg ∧ t.produced = w.produced ∨ w.Delivered e t))
      (fun _ t => w.Frame t ∧ t.history_buffer = [] ∧ w.Delivered e t) (fun _ _ => False) w := by
  have htake : w.take_history = ([e], { w with history_buffer := [] }) := by
    unfold World.take_history
    rw [hb]
  unfold HistoryWriter.flush HistoryWriter.insert_batch
  rw [Prog.bind_eq, always_bind, Prog.always_atomically, htake, if_neg (List.cons_ne_nil _ _),
    always_tryCatch, Prog.bind_eq, always_bind, Prog.always_atomically, Prog.always_ofExcept]
  refine ⟨⟨⟨rfl, rfl, rfl, rfl, rfl⟩, .inl ⟨rfl, rfl⟩⟩, ?_⟩
  unfold World.batch_insert_trip_points
  dsimp only
  cases env.insert_error w.tick with
  | none =>
    exact ⟨⟨⟨rfl, rfl, rfl, rfl, rfl⟩, .inr (.inl ⟨rfl, rfl⟩)⟩, ⟨rfl, rfl, rfl, rfl, rfl⟩, rfl,
      .inl ⟨rfl, rfl⟩⟩
  | some what =>
    refine ⟨⟨⟨rfl, rfl, rfl, rfl, rfl⟩, .inl ⟨rfl, rfl⟩⟩, ?_⟩
    exact ⟨⟨⟨rfl, rfl, rfl, rfl, rfl⟩, .inr (.inr ⟨rfl, rfl⟩)⟩, ⟨rfl, rfl, rfl, rfl, rfl⟩, rfl,
      .inr ⟨rfl, rfl⟩⟩

/-- Delivering a pending event settles the world. -/
theorem World.Pending.settled_of_delivered {t : World G} (h : w.Pending e) (hf : w.Frame t)
    (hb : t.history_buffer = []) (hd : w.Delivered e t) : t.Settled := by
  -- Delivering adds to the store or to the topic, and takes nothing away.
  have hkeep : ∀ x, w.Saved x → t.Saved x := by
    rintro x (hx | hx)
    · rcases hd with ⟨hpg, -⟩ | ⟨hpg, -⟩
      · exact .inl (hpg ▸ PostgresClient.mem_batch_insert_of_mem hx [e])
      · exact .inl (hpg ▸ hx)
    · rcases hd with ⟨-, hp⟩ | ⟨-, hp⟩
      · exact .inr (hp ▸ hx)
      · exact .inr (hp ▸ List.mem_append_left _ hx)
  -- What is accepted is saved, and each stored key is covered by a state.
  refine ⟨hb, fun x hx => ?_, fun key hkey => ?_⟩
  · rw [hf.accepted] at hx
    rcases h.saved with hs | ⟨hfresh, hs⟩
    · exact hkeep _ (hs x hx)
    · rcases hs x hx with hs | ⟨rfl, -⟩
      · exact hkeep _ hs
      · rcases hd with ⟨hpg, -⟩ | ⟨-, hp⟩
        · exact .inl (hpg ▸ PostgresClient.mem_batch_insert_singleton hfresh)
        · exact .inr (hp ▸ List.mem_append_right _ (List.mem_singleton.mpr rfl))
  · rw [hf.redis]
    rcases hd with ⟨hpg, -⟩ | ⟨hpg, -⟩
    · rw [hpg] at hkey
      rcases PostgresClient.mem_keys_batch_insert_singleton.mp hkey with rfl | hkey
      · exact h.newest
      · exact h.keys key hkey
    · rw [hpg] at hkey
      exact h.keys key hkey

/-- While a pending event is delivered, every state is durable. -/
theorem World.Pending.durable_of_frame {t : World G} (h : w.Pending e) (hf : w.Frame t)
    (hd : t.pg = w.pg ∧ t.produced = w.produced ∨ w.Delivered e t) : t.Durable := by
  intro x hx hlt
  rw [hf.accepted] at hx
  rw [hf.consumer] at hlt
  rcases h.durable x hx hlt with hs | hs
  · rcases hd with ⟨hpg, -⟩ | ⟨hpg, -⟩ | ⟨hpg, -⟩
    · exact .inl (hpg ▸ hs)
    · exact .inl (hpg ▸ PostgresClient.mem_batch_insert_of_mem hs [e])
    · exact .inl (hpg ▸ hs)
  · rcases hd with ⟨-, hp⟩ | ⟨-, hp⟩ | ⟨-, hp⟩
    · exact .inr (hp ▸ hs)
    · exact .inr (hp ▸ hs)
    · exact .inr (hp ▸ List.mem_append_left _ hs)

/-- Flushing a pending event settles the world. -/
theorem flush_of_pending (h : w.Pending e) (hb : w.history_buffer = [e]) :
    (HistoryWriter.flush env).Always .atomic World.Durable
      (fun _ t => t.Settled ∧ t.consumer = w.consumer) (fun _ _ => True) w := by
  refine (flush_singleton hb).imp (fun t ht => ?_) (fun _ t ht => ?_) fun _ _ _ => trivial
  · exact h.durable_of_frame ht.1 ht.2
  · exact ⟨h.settled_of_delivered ht.1 ht.2.1 ht.2.2, ht.1.consumer⟩

/-- With batches of at most one event, a pending event that is buffered fills the batch: what runs
after the buffering, `flush` first, is run with the event in the buffer. -/
theorem buffer_of_pending (hbatch : p.config.history_batch_size ≤ 1) (h : w.Pending e)
    (hb : w.history_buffer = []) {Q : Unit → World G → Prop} {full rest : Action G Unit}
    (hfull : ∀ t : World G, t.Pending e → t.history_buffer = [e] → t.consumer = w.consumer →
      full.Always .atomic World.Durable Q (fun _ _ => True) t) :
    Prog.Always .atomic World.Durable Q (fun _ _ => True) (do
      HistoryWriter.buffer e
      if ← HistoryWriter.should_flush p then full else rest) w := by
  have hpush : (w.push_history e).Pending e := ⟨h.saved, h.keys, h.newest⟩
  have hb' : (w.push_history e).history_buffer = [e] := by
    unfold World.push_history
    rw [hb]
    rfl
  have hflush : (w.push_history e).history_full p = true := by
    unfold World.history_full
    rw [hb', List.length_singleton, (castInt_natCast_eq_iff 1).mpr (by norm_num)]
    exact decide_eq_true hbatch
  unfold HistoryWriter.buffer HistoryWriter.should_flush
  simp only [Prog.bind_eq, always_bind, Prog.always_modify, Prog.always_read, hflush, if_true]
  exact ⟨hpush.durable, hpush.durable, hfull _ hpush hb' rfl⟩

/-- The state write of a new event: it throws, or it leaves the event pending. -/
theorem write_of_settled (env : Environment) (p : Processor G) (e : LocationEvent) (h : w.Settled)
    (hmsg : w.consumer.committed_offset ≤ w.consumer.next_offset - 1) :
    (write_with_result env p e).Always .atomic World.Durable
      (fun outcome t => t.consumer = w.consumer ∧ t.history_buffer = [] ∧ t.Pending e ∧
        (outcome.accepted = false → t.Settled)) (fun _ _ => True) w := by
  unfold write_with_result
  rw [Prog.bind_eq, always_bind, Prog.always_atomically, Prog.always_ofExcept]
  cases hv : valid_lat_lon e.lat e.lon with
  | false =>
    rw [World.write_with_result_invalid hv]
    exact ⟨h.durable, trivial⟩
  | true =>
    obtain ⟨cell, -, hw⟩ := World.write_with_result_valid env p w hv
    rw [hw]
    dsimp only
    generalize hst : StateWriter.state_of e cell (env.system_ms w.tick) = st
    have hseq : st.seq = e.seq := by rw [← hst]; rfl
    cases hacc : (w.redis.update_device_state_cas e.device_id st).1 with
    | false =>
      -- A rejected write leaves everything as it was, under a state that is at least as new.
      rw [w.redis.update_device_state_cas_rejected hacc, if_neg Bool.false_ne_true]
      have hset : { w with tick := w.tick + 1 }.Settled := ⟨h.empty, h.saved, h.keys⟩
      have hnew : ∃ cur, w.redis.get_device_state e.device_id = some cur ∧ e.seq ≤ cur.seq := by
        by_contra hno
        rw [← Bool.not_eq_true, w.redis.update_device_state_cas_fst] at hacc
        refine hacc fun cur hcur => ?_
        rw [hseq]
        exact not_le.mp fun hle => hno ⟨cur, hcur, hle⟩
      exact ⟨hset.durable, rfl, h.empty, ⟨.inl h.saved, h.keys, hnew⟩, fun _ => hset⟩
    | true =>
      rw [if_pos rfl]
      -- The event is newer than the stored state, so its key is not in the history yet.
      have hlookup := w.redis.lookup_update_device_state_cas hacc
      have hfst := (w.redis.update_device_state_cas_fst e.device_id st).mp hacc
      have hpend : World.Pending e { w with
          redis := (w.redis.update_device_state_cas e.device_id st).2
          accepted := (w.consumer.next_offset - 1, e) :: w.accepted
          tick := w.tick + 1 } := by
        refine ⟨.inr ⟨fun hkey => ?_, fun x hx => ?_⟩, fun key hkey => ?_, ?_⟩
        · obtain ⟨cur, hcur, hle⟩ := h.keys _ hkey
          have hlt := hfst cur hcur
          rw [hseq] at hlt
          exact absurd hlt (not_lt.mpr hle)
        · rcases List.mem_cons.mp hx with rfl | hx
          · exact .inr ⟨rfl, hmsg⟩
          · exact .inl (h.saved x hx)
        · obtain ⟨cur, hcur, hle⟩ := h.keys key hkey
          unfold RedisClient.get_device_state at hcur ⊢
          dsimp only
          rw [hlookup]
          split
          · rename_i hd
            rw [hd] at hcur
            exact ⟨_, rfl, hle.trans (hfst cur hcur).le⟩
          · exact ⟨cur, hcur, hle⟩
        · unfold RedisClient.get_device_state
          dsimp only
          rw [hlookup, if_pos rfl]
          exact ⟨_, rfl, hseq.ge⟩
      exact ⟨hpend.durable, rfl, h.empty, hpend, fun hfalse => by cases hfalse⟩

/-- Noting the time of a flush changes nothing else. -/
theorem note_flush_of_settled {c : KafkaConsumer} (h : w.Settled) (hc : w.consumer = c) :
    (note_flush env).Always .atomic World.Durable (fun _ t => t.Settled ∧ t.consumer = c)
      (fun _ _ => True) w := by
  have hset : ∀ now, (w.advance.stamp_flush now).Settled := fun _ => ⟨h.empty, h.saved, h.keys⟩
  exact ⟨h.durable, (hset 0).durable, hset _, hc⟩

/-- With batches of at most one event, an accepted event is saved before its turn ends. -/
theorem accept_of_settled (hbatch : p.config.history_batch_size ≤ 1) (h : w.Settled)
    (hmsg : w.consumer.committed_offset ≤ w.consumer.next_offset - 1) :
    (ProcessingLoop.accept env p e).Always .atomic World.Durable
      (fun _ t => t.Settled ∧ t.consumer = w.consumer) (fun _ _ => True) w := by
  have hwrite := write_of_settled env p e h hmsg
  unfold ProcessingLoop.accept
  -- In event-bus mode the handlers run the same steps, with the geofences in between.
  split
  · rename_i geofence _
    have htrip : ∀ t : World G, t.Pending e → t.history_buffer = [] → t.consumer = w.consumer →
        (trip_history_write_requested env p e).Always .atomic World.Durable
          (fun _ t => t.Settled ∧ t.consumer = w.consumer) (fun _ _ => True) t := by
      intro t hpend hb hc
      refine buffer_of_pending hbatch hpend hb fun t' hpend' hb' hc' => ?_
      exact (flush_of_pending hpend' hb').imp (fun _ => id)
        (fun _ _ ht => ⟨ht.1, ht.2.trans (hc'.trans hc)⟩) fun _ _ => id
    unfold location_accepted location_accepted_with state_write_requested_with
    simp only [Prog.bind_eq, always_bind]
    refine hwrite.imp (fun _ => id) (fun outcome t ⟨hc, hb, hpend, _⟩ => ?_) fun _ _ => id
    split
    · have heval : (t.evaluate geofence
          (geofence_evaluation_requested (state_write_succeeded e outcome))).Pending e :=
        ⟨hpend.saved, hpend.keys, hpend.newest⟩
      exact ⟨heval.durable, htrip _ heval hb hc⟩
    · exact htrip t hpend hb hc
  · unfold write_directly
    rw [Prog.bind_eq, always_bind]
    refine hwrite.imp (fun _ => id) (fun outcome t ⟨hc, hb, hpend, hset⟩ => ?_) fun _ _ => id
    split
    · refine buffer_of_pending hbatch hpend hb fun t' hpend' hb' hc' => ?_
      -- In direct mode the time of the flush is noted as well.
      rw [Prog.bind_eq, always_bind]
      exact (flush_of_pending hpend' hb').imp (fun _ => id)
        (fun _ _ ht => note_flush_of_settled ht.1 (ht.2.trans (hc'.trans hc))) fun _ _ => id
    · rename_i hacc
      exact ⟨hset (Bool.eq_false_iff.mpr hacc), hc⟩

/-- With batches of at most one event, a decoded event leaves nothing in memory, whichever of the
checks stops it. -/
theorem process_of_settled (hbatch : p.config.history_batch_size ≤ 1) (h : w.Settled)
    (hmsg : w.consumer.committed_offset ≤ w.consumer.next_offset - 1) :
    (ProcessingLoop.process env p e).Always .atomic World.Durable
      (fun _ t => t.Settled ∧ t.consumer = w.consumer) (fun _ _ => True) w := by
  have hdup : (w.is_duplicate env e).2.Settled := ⟨h.empty, h.saved, h.keys⟩
  have hmark : ((w.is_duplicate env e).2.mark_seen env e).Settled := ⟨h.empty, h.saved, h.keys⟩
  unfold ProcessingLoop.process ProcessingLoop.process_with
  simp only [Prog.bind_eq, always_bind, Prog.always_atomically]
  refine ⟨hdup.durable, ?_⟩
  -- A duplicate and a stale event leave the stores as they are.
  split
  · exact ⟨hdup, rfl⟩
  simp only [always_bind, Prog.always_modify, Prog.always_read]
  refine ⟨hmark.durable, hmark.durable, ?_⟩
  split
  · exact accept_of_settled hbatch hmark hmsg
  · exact ⟨hmark, rfl⟩

/-- The world between two turns of the loop. -/
structure World.Steady (w : World G) : Prop where
  settled : w.Settled
  committed : w.consumer.committed_offset ≤ w.consumer.next_offset

/-- A turn without a message finds nothing to flush. -/
theorem idle_of_steady (h : w.Steady) :
    (ProcessingLoop.idle env p).Always .atomic World.Durable (fun _ => World.Steady)
      (fun _ _ => True) w := by
  have hset : w.advance.Settled := ⟨h.settled.empty, h.settled.saved, h.settled.keys⟩
  unfold ProcessingLoop.idle
  simp only [Prog.bind_eq, always_bind, always_reading, Prog.always_read]
  refine ⟨hset.durable, hset.durable, ?_⟩
  rw [if_neg]
  · exact ⟨hset, h.committed⟩
  · simp [World.advance, h.settled.empty]

/-- With batches of at most one event, a turn goes from a steady world to a steady one, and every
world on the way is durable. -/
theorem turn_of_steady (hbatch : p.config.history_batch_size ≤ 1) (h : w.Steady) :
    (ProcessingLoop.turn env p).Always .atomic World.Durable (fun _ => World.Steady)
      (fun _ _ => True) w := by
  unfold ProcessingLoop.turn ProcessingLoop.turn_with
  rw [Prog.bind_eq, always_bind, Prog.always_atomically]
  unfold World.poll
  rcases w.consumer.poll_cases "tm.location.events" (env.topic.take (env.visible w.tick)) with
    ⟨hpoll, -⟩ | ⟨message, msg, -, -, hoff, hpoll⟩
  · rw [hpoll]
    have hpolled : ({ w with tick := w.tick + 1 } : World G).Steady :=
      ⟨⟨h.settled.empty, h.settled.saved, h.settled.keys⟩, h.committed⟩
    exact ⟨hpolled.settled.durable, idle_of_steady hpolled⟩
  · rw [hpoll]
    dsimp only
    have hpolled : ({ w with
        consumer := { w.consumer with next_offset := w.consumer.next_offset + 1 }
        tick := w.tick + 1 } : World G).Settled :=
      ⟨h.settled.empty, h.settled.saved, h.settled.keys⟩
    -- The commit is of the message just polled, so it does not pass the next offset.
    have hcommit : ∀ t : World G, t.Settled →
        t.consumer = { w.consumer with next_offset := w.consumer.next_offset + 1 } →
        (t.commit msg).Durable ∧ (t.commit msg).Steady := by
      intro t ht hc
      have hset : (t.commit msg).Settled := ⟨ht.empty, ht.saved, ht.keys⟩
      refine ⟨hset.durable, hset, ?_⟩
      have hle := h.committed
      unfold World.commit KafkaConsumer.commit
      dsimp only
      rw [hc, hoff]
      dsimp only
      omega
    refine ⟨hpolled.durable, ?_⟩
    cases decode_location_payload msg.payload with
    | error _ => exact hcommit _ hpolled rfl
    | ok event =>
      dsimp only
      rw [Prog.bind_eq, always_bind]
      exact (process_of_settled hbatch hpolled h.committed).imp (fun _ => id)
        (fun _ t ht => hcommit t ht.1 ht.2) fun _ _ => id

/-- A fresh world is steady. -/
theorem World.steady_fresh (max_entries : ℕ) (ttl_seconds : ℤ) (geofence : G) :
    (World.fresh max_entries ttl_seconds geofence).Steady where
  settled := ⟨rfl, fun _ hx => absurd hx List.not_mem_nil,
    fun _ hkey => absurd hkey (Finset.notMem_empty _)⟩
  committed := le_refl 0

/-- With batches of at most one event, every world of a run is durable. -/
theorem run_durable (env : Environment) (hbatch : p.config.history_batch_size ≤ 1) (n : ℕ) (h : w.Steady) :
    (ProcessingLoop.run env p n).Always .atomic World.Durable (fun _ => World.Durable)
      (fun _ _ => True) w := by
  have hnote : (note_flush env).Always .atomic World.Durable (fun _ => World.Steady)
      (fun _ _ => True) w :=
    (note_flush_of_settled h.settled rfl).imp (fun _ => id)
      (fun _ t ht => ⟨ht.1, ht.2 ▸ h.committed⟩) fun _ _ => id
  unfold ProcessingLoop.run ProcessingLoop.run_with
  simp only [Prog.bind_eq, always_bind]
  refine hnote.imp (fun _ => id) (fun _ t ht => ?_) fun _ _ => id
  refine always_whileM World.Steady _ _ (fun t ht => ?_) (fun t ht => ht.settled.durable) n t ht
  have hread : t.advance.Steady :=
    ⟨⟨ht.settled.empty, ht.settled.saved, ht.settled.keys⟩, ht.committed⟩
  rw [always_condition]
  refine ⟨hread.settled.durable, ?_⟩
  cases env.should_stop t.tick with
  | false => exact turn_of_steady hbatch hread
  | true =>
    rw [if_neg (by decide), if_pos rfl, always_bind]
    refine (flush_nil hread.settled.empty).imp ?_ ?_ fun _ _ h => h.elim
    · rintro _ rfl
      exact hread.settled.durable
    · rintro _ _ rfl
      exact hread.settled.durable

section LostEvent

/-- A topic with one valid message. -/
def single_message : Environment := .attentive [{ key := "d", payload := "d,1,1,1,0,0" }]

/-- With batches of more than one event, the first event of a batch stays in memory when it is
accepted. -/
theorem accept_unflushed (hbatch : 1 < p.config.history_batch_size)
    (hv : valid_lat_lon e.lat e.lon = true) (hb : w.history_buffer = [])
    (hnew : w.redis.get_device_state e.device_id = none) :
    (ProcessingLoop.accept env p e).Always .atomic (fun _ => True)
      (fun _ t => (w.consumer.next_offset - 1, e) ∈ t.accepted ∧ t.pg = w.pg ∧
        t.produced = w.produced ∧ t.consumer = w.consumer) (fun _ _ => False) w := by
  obtain ⟨cell, -, hw⟩ := World.write_with_result_valid env p w hv
  have hacc : (w.redis.update_device_state_cas e.device_id
      (StateWriter.state_of e cell (env.system_ms w.tick))).1 = true := by
    refine (w.redis.update_device_state_cas_fst _ _).mpr fun cur hcur => ?_
    rw [RedisClient.get_device_state, hcur] at hnew
    cases hnew
  -- One event in the buffer is less than a batch, so `should_flush` says no.
  have hkeep : ∀ t : World G, t.history_buffer = [] →
      (t.push_history e).history_full p = false := by
    intro t ht
    unfold World.push_history World.history_full
    rw [ht, List.nil_append, List.length_singleton, (castInt_natCast_eq_iff 1).mpr (by norm_num)]
    exact decide_eq_false (not_le.mpr hbatch)
  unfold ProcessingLoop.accept
  split
  · unfold location_accepted location_accepted_with state_write_requested_with
      trip_history_write_requested write_with_result
      HistoryWriter.buffer HistoryWriter.should_flush
    simp only [Prog.bind_eq, always_bind, Prog.always_atomically, Prog.always_ofExcept, hw, hacc,
      if_true, Prog.always_modify, Prog.always_read, true_and]
    rw [hkeep]
    · exact ⟨List.mem_cons_self, rfl, rfl, rfl⟩
    · exact hb
  · unfold write_directly write_with_result HistoryWriter.buffer HistoryWriter.should_flush
    simp only [Prog.bind_eq, always_bind, Prog.always_atomically, Prog.always_ofExcept, hw, hacc,
      if_true, Prog.always_modify, Prog.always_read, true_and]
    rw [hkeep]
    · exact ⟨List.mem_cons_self, rfl, rfl, rfl⟩
    · exact hb

/-- So the turn commits an event that is only in memory. -/
theorem turn_unflushed (hbatch : 1 < p.config.history_batch_size)
    (hv : valid_lat_lon e.lat e.lon = true) {msg : KafkaMessage} (consumer : KafkaConsumer)
    (hpoll : w.poll env = (some msg, { w.advance with consumer }))
    (hdecode : decode_location_payload msg.payload = .ok e)
    (hoff : consumer.next_offset - 1 ≤ msg.offset) (hdedup : w.dedup.lru_list = [])
    (hb : w.history_buffer = []) (hnew : w.redis.get_device_state e.device_id = none)
    (hpoints : w.pg.trip_points = []) (hproduced : w.produced = []) :
    (ProcessingLoop.turn env p).Always .atomic (fun _ => True) (fun _ t => ¬t.Durable)
      (fun _ _ => False) w := by
  have hdup : ((({ w.advance with consumer } : World G)).is_duplicate env e).1 = false :=
    DedupWindow.is_duplicate_of_empty hdedup _ _ _ _
  have hguard : SequenceGuard.should_accept w.redis e.device_id e.seq = true := by
    unfold SequenceGuard.should_accept
    rw [hnew]
  unfold ProcessingLoop.turn ProcessingLoop.turn_with ProcessingLoop.process
    ProcessingLoop.process_with
  rw [Prog.bind_eq, always_bind, Prog.always_atomically, hpoll]
  dsimp only
  rw [hdecode]
  dsimp only
  simp only [Prog.bind_eq, always_bind, Prog.always_atomically, Prog.always_modify, true_and, hdup]
  rw [if_neg Bool.false_ne_true, always_bind, Prog.always_modify, always_bind, Prog.always_read]
  refine ⟨trivial, trivial, ?_⟩
  rw [if_pos (by exact hguard)]
  refine Prog.Always.imp (accept_unflushed hbatch hv (by exact hb) (by exact hnew)) (fun _ => id)
    (fun _ t ht => ?_) fun _ _ => id
  -- The event is below the committed offset, and neither stored nor dead-lettered.
  intro hdurable
  obtain ⟨hmem, hpg, hprod, hc⟩ := ht
  have hcommitted : consumer.next_offset - 1 < max t.consumer.committed_offset (msg.offset + 1) := by
    omega
  rcases hdurable _ hmem hcommitted with hs | hs
  · change e ∈ t.pg.trip_points at hs
    rw [hpg] at hs
    change e ∈ w.pg.trip_points at hs
    rw [hpoints] at hs
    cases hs
  · change dlq_message e ∈ t.produced at hs
    rw [hprod] at hs
    change dlq_message e ∈ w.produced at hs
    rw [hproduced] at hs
    cases hs

/-- With batches of more than one event, a run that has processed one message has committed an event
that is only in memory. -/
theorem exists_not_durable (hbatch : 1 < p.config.history_batch_size) (geofence : G) :
    ∃ t ∈ ((ProcessingLoop.run single_message p 1).exec .atomic
      (World.fresh 10 10 geofence)).visited, ¬t.Durable := by
  obtain ⟨e, hdecode, hv⟩ : ∃ e, decode_location_payload "d,1,1,1,0,0" = .ok e ∧
      valid_lat_lon e.lat e.lon = true :=
    ⟨{ device_id := "d", seq := 1, timestamp_ms := 1, server_recv_ms := 1 }, by decide +kernel,
      by decide +kernel⟩
  have hrun : (ProcessingLoop.run single_message p 1).Always .atomic (fun _ => True)
      (fun _ t => ¬t.Durable) (fun _ t => ¬t.Durable) (World.fresh 10 10 geofence) := by
    unfold ProcessingLoop.run ProcessingLoop.run_with whileM
    simp only [Prog.bind_eq, always_bind, always_condition, always_note_flush, true_and]
    rw [if_pos (by rfl), always_bind]
    refine (turn_unflushed hbatch hv ⟨1, 0⟩ rfl hdecode ?_ rfl rfl rfl rfl rfl).imp
      (fun _ => id) (fun _ _ => id) fun _ _ h => h.elim
    exact le_refl 0
  have hfinal := hrun.final
  refine ⟨_, ?_, hfinal⟩
  rcases List.mem_cons.mp (Prog.exec_final_mem _ _) with heq | hmem
  · rw [heq] at hfinal
    exact absurd (fun x hx => by cases hx) hfinal
  · exact hmem

end LostEvent

/-- Commit durability: in every run from fresh stores, in either mode and for every behaviour of the
environment, each accepted event below the committed offset is durable at every point, if and only
if the batches have at most one event. -/
theorem durable_iff_batch_size (p : Processor G) (geofence : G) :
    (∀ env max_entries ttl_seconds n,
      ∀ t ∈ ((ProcessingLoop.run env p n).exec .atomic
        (World.fresh max_entries ttl_seconds geofence)).visited, t.Durable) ↔
      p.config.history_batch_size ≤ 1 := by
  constructor
  · intro h
    by_contra hbatch
    obtain ⟨t, ht, hnot⟩ := exists_not_durable (not_le.mp hbatch) geofence
    exact hnot (h _ _ _ _ t ht)
  · intro hbatch env max_entries ttl_seconds n
    have hrun := run_durable env hbatch n
      (World.steady_fresh max_entries ttl_seconds geofence)
    exact ((Prog.always_iff_exec _ _).mp hrun).1

/-- The default batches of 500 events, in direct mode. -/
def direct_default : Processor Unit := ⟨H3Index.default, {}, none⟩

/-- With the default batches, a run on a single valid message reaches a point where its event is
accepted and committed, and in memory only. -/
theorem direct_default_not_durable :
    ∃ t ∈ ((ProcessingLoop.run single_message direct_default 1).exec .atomic
      (World.fresh 10 10 ())).visited, ¬t.Durable :=
  exists_not_durable (by decide) ()

end SignalRoute
