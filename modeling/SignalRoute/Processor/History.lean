import SignalRoute.Clients.TripPoints
import SignalRoute.Processor.Group

/-!
# The history that a group writes

The processors of a group buffer what they accept, each on its own, and flush to the trip points that they
have in common; a batch that the database does not take goes to the dead-letter topic. Whatever their schedule
and wherever they stop, the history holds nothing but events of the topic and no two points of one key, and
loses nothing that it once had. What a processor holds in its buffer is lost if it stops between two calls, but
when its run has ended everything that it has accepted is in the history (`history_kept`).
-/

namespace SignalRoute

open Interaction
open Interaction.Prog (among_bind among_tryCatch)

section Processor

variable {G : Type} {env : Environment} {p : Processor G} {S T : Set LocationEvent} {w w' : World G}
  {e : LocationEvent} {batch : List LocationEvent}

/-- An event is in the history: there is a trip point of its key, or it has gone to the dead-letter topic. -/
def World.InHistory (w : World G) (event : LocationEvent) : Prop :=
  PostgresClient.trip_point_key event ∈ w.pg.trip_point_keys ∨ dlq_message event ∈ w.produced

/-- What other processors do to the world of one, as far as the history goes: they add to it. -/
def World.Joins (w w' : World G) : Prop :=
  (∃ redis pg produced, w' = { w with redis, pg, produced }) ∧ ∀ event, w.InHistory event → w'.InHistory event

/-- A step writes events of `S` to the history: a batch of trip points, or a message to the dead-letter topic. -/
structure World.Records (S : Set LocationEvent) (w w' : World G) : Prop where
  points : w'.pg = w.pg ∨ ∃ batch, (∀ event ∈ batch, event ∈ S) ∧ w'.pg = w.pg.batch_insert_trip_points batch
  letters : w'.produced = w.produced ∨ ∃ event ∈ S, w'.produced = w.produced ++ [dlq_message event]

/-- What a processor has taken is of `S`, and what it has accepted is buffered or in the history, but for `T`. -/
structure Owes (S T : Set LocationEvent) (w : World G) : Prop where
  buffered : ∀ event ∈ w.history_buffer, event ∈ S
  taken : ∀ x ∈ w.accepted, x.2 ∈ S
  accepted : ∀ x ∈ w.accepted, x.2 ∈ w.history_buffer ∨ x.2 ∈ T ∨ w.InHistory x.2

/-- A call that leaves the buffer, the accepted events and the history alone. -/
def Idle {β : Type} (c : Atomic (World G) β) : Prop := ∀ w : World G,
  (c w).2.history_buffer = w.history_buffer ∧ (c w).2.accepted = w.accepted ∧ (c w).2.pg = w.pg ∧
    (c w).2.produced = w.produced

theorem World.Records.refl (w : World G) : w.Records S w := ⟨.inl rfl, .inl rfl⟩

/-- What is in the history stays there. -/
theorem World.Records.inHistory (h : w.Records S w') (he : w.InHistory e) : w'.InHistory e := by
  rcases he with hkey | hletter
  · left
    rcases h.points with hpg | ⟨batch, -, hpg⟩
    · rwa [hpg]
    · rw [hpg]
      exact PostgresClient.key_mem_insert (.inr hkey)
  · right
    rcases h.letters with hsame | ⟨event, -, hmore⟩
    · rwa [hsame]
    · rw [hmore]
      exact List.mem_append_left _ hletter

theorem Owes.joins (h : Owes S T w) (hw : w.Joins w') : Owes S T w' := by
  obtain ⟨⟨redis, pg, produced, rfl⟩, hgrows⟩ := hw
  exact ⟨h.buffered, h.taken, fun x hx => (h.accepted x hx).imp_right (.imp_right (hgrows _))⟩

theorem Owes.mono {U : Set LocationEvent} (h : Owes S T w) (hTU : T ⊆ U) : Owes S U w :=
  ⟨h.buffered, h.taken, fun x hx => (h.accepted x hx).imp_right (.imp_left fun hin => hTU hin)⟩

/-- Calls that are idle change nothing of it. -/
theorem idle_among {ε α : Type} {q : Prog (Atomic (World G)) ε α} (hq : q.Calls Idle) {buffer : List LocationEvent}
    (h : Owes S T w) (hbuffer : w.history_buffer = buffer) :
    q.Among .atomic World.Joins (World.Records S) (fun _ t => Owes S T t ∧ t.history_buffer = buffer)
      (fun _ t => Owes S T t ∧ t.history_buffer = buffer) w := by
  refine hq.among (fun s t hs hst => ⟨hs.1.joins hst, ?_⟩) (fun c t hc ht => ?_) ⟨h, hbuffer⟩
  · obtain ⟨⟨redis, pg, produced, rfl⟩, -⟩ := hst
    exact hs.2
  · obtain ⟨hbuf, hacc, hpg, hproduced⟩ := hc t
    refine ⟨⟨.inl hpg, .inl hproduced⟩, ⟨?_, ?_, ?_⟩, hbuf.trans ht.2⟩
    · exact (congrArg (fun l : List LocationEvent => ∀ event ∈ l, event ∈ S) hbuf).mpr ht.1.buffered
    · exact (congrArg (fun l : List (ℕ × LocationEvent) => ∀ x ∈ l, x.2 ∈ S) hacc).mpr ht.1.taken
    · change ∀ x ∈ (c t).2.accepted, x.2 ∈ (c t).2.history_buffer ∨ x.2 ∈ T ∨ (c t).2.InHistory x.2
      unfold World.InHistory
      rw [hbuf, hacc, hpg, hproduced]
      exact ht.1.accepted

theorem idle_reading {β : Type} (f : ℕ → β) : (reading f : Action G β).Calls Idle :=
  (Prog.calls_perform _).mpr fun _ => ⟨rfl, rfl, rfl, rfl⟩

theorem idle_note_flush : (note_flush env : Action G Unit).Calls Idle :=
  (idle_reading _).bind fun _ => (Prog.calls_perform _).mpr fun _ => ⟨rfl, rfl, rfl, rfl⟩

/-- A batch that has been inserted is in the history. -/
theorem Owes.insert (h : Owes S {event | event ∈ batch} w) (hpg : w'.pg = w.pg.batch_insert_trip_points batch)
    (hproduced : w'.produced = w.produced) (hbuffer : w'.history_buffer = w.history_buffer)
    (haccepted : w'.accepted = w.accepted) : Owes S ∅ w' := by
  refine ⟨fun event hevent => h.buffered event (hbuffer ▸ hevent), fun x hx => h.taken x (haccepted ▸ hx),
    fun x hx => ?_⟩
  unfold World.InHistory
  rw [hbuffer, hpg, hproduced]
  rcases h.accepted x (haccepted ▸ hx) with hin | hin | hkey | hletter
  · exact .inl hin
  · exact .inr (.inr (.inl (PostgresClient.key_mem_insert (.inl hin))))
  · exact .inr (.inr (.inl (PostgresClient.key_mem_insert (.inr hkey))))
  · exact .inr (.inr (.inr hletter))

/-- A message to the dead-letter topic puts its event into the history. -/
theorem Owes.produce (h : Owes S {event | event ∈ e :: batch} w) :
    Owes S {event | event ∈ batch} { w with produced := w.produced ++ [dlq_message e] } := by
  refine ⟨h.buffered, h.taken, fun x hx => ?_⟩
  rcases h.accepted x hx with hin | hin | hkey | hletter
  · exact .inl hin
  · rcases List.mem_cons.mp hin with heq | hin
    · exact .inr (.inr (.inr (heq ▸ List.mem_append_right _ (List.mem_singleton_self _))))
    · exact .inr (.inl hin)
  · exact .inr (.inr (.inl hkey))
  · exact .inr (.inr (.inr (List.mem_append_left _ hletter)))

/-- The dead-letter topic takes in a batch. -/
theorem send_to_dlq_owes {exception : Exception} (hbatch : ∀ event ∈ batch, event ∈ S)
    (h : Owes S {event | event ∈ batch} w) (hbuffer : w.history_buffer = []) :
    (HistoryWriter.send_to_dlq batch exception : Action G Unit).Among .atomic World.Joins (World.Records S)
      (fun _ t => Owes S ∅ t ∧ t.history_buffer = []) (fun _ _ => True) w := by
  cases exception with
  | other => trivial
  | std what =>
    have hloop := Prog.among_forEach (h := .atomic) (E := fun _ _ => True) (R := World.Joins) (M := World.Records S)
      (fun rest (t : World G) => (∀ event ∈ rest, event ∈ S) ∧ Owes S {event | event ∈ rest} t ∧ t.history_buffer = [])
      (fun event => (Prog.atomically (World.produce_dlq event) >>= Prog.ofExcept : Action G Unit))
      (fun event rest s hs t ht => ?_) batch ⟨hbatch, h, hbuffer⟩
    · refine hloop.imp (fun _ t ht => ⟨?_, ht.2.2⟩) fun _ _ => id
      simpa using ht.2.1
    · obtain ⟨hrest, howes, hempty⟩ := hs
      refine ⟨⟨.inl rfl, .inr ⟨event, hrest event List.mem_cons_self, rfl⟩⟩, ?_⟩
      refine ⟨fun other hother => hrest other (List.mem_cons_of_mem _ hother), (howes.joins ht).produce, ?_⟩
      obtain ⟨⟨redis, pg, produced, rfl⟩, -⟩ := ht
      exact hempty

/-- The insertion of a batch puts it into the history, one way or the other. -/
theorem insert_batch_owes (hbatch : ∀ event ∈ batch, event ∈ S) (h : Owes S {event | event ∈ batch} w)
    (hbuffer : w.history_buffer = []) :
    ((HistoryWriter.insert_batch env batch).tryCatch (HistoryWriter.send_to_dlq batch) : Action G Unit).Among
      .atomic World.Joins (World.Records S) (fun _ t => Owes S ∅ t ∧ t.history_buffer = []) (fun _ _ => True) w := by
  unfold HistoryWriter.insert_batch
  rw [among_tryCatch, Prog.bind_eq, among_bind, Prog.among_atomically]
  intro t ht
  have howes := h.joins ht
  have hempty : t.history_buffer = [] := by
    obtain ⟨⟨redis, pg, produced, rfl⟩, -⟩ := ht
    exact hbuffer
  rw [Prog.among_ofExcept]
  unfold World.batch_insert_trip_points
  cases env.insert_error t.tick with
  | none => exact ⟨⟨.inr ⟨batch, hbatch, rfl⟩, .inl rfl⟩, howes.insert rfl rfl rfl rfl, hempty⟩
  | some what =>
    exact ⟨⟨.inl rfl, .inl rfl⟩, send_to_dlq_owes hbatch ⟨howes.buffered, howes.taken, howes.accepted⟩ hempty⟩

/-- A flush leaves nothing in the buffer. -/
theorem flush_owes (h : Owes S ∅ w) :
    (HistoryWriter.flush env : Action G Unit).Among .atomic World.Joins (World.Records S)
      (fun _ t => Owes S ∅ t ∧ t.history_buffer = []) (fun _ _ => True) w := by
  unfold HistoryWriter.flush
  rw [Prog.bind_eq, among_bind, Prog.among_atomically]
  intro t ht
  have howes := h.joins ht
  have htaken : Owes S {event | event ∈ t.history_buffer} t.take_history.2 :=
    ⟨fun _ hevent => absurd hevent List.not_mem_nil, howes.taken,
      fun x hx => .inr ((howes.accepted x hx).imp_right (Or.resolve_left · (Set.notMem_empty _)))⟩
  refine ⟨⟨.inl rfl, .inl rfl⟩, ?_⟩
  by_cases hempty : t.take_history.1 = []
  · rw [if_pos hempty]
    refine ⟨?_, rfl⟩
    rw [show t.history_buffer = [] from hempty] at htaken
    simpa using htaken
  · rw [if_neg hempty]
    exact insert_batch_owes howes.buffered htaken rfl

/-- Buffering an event settles it. -/
theorem Owes.push (h : Owes S T w) (he : e ∈ S) (hT : T ⊆ {e}) : Owes S ∅ (w.push_history e) := by
  refine ⟨fun event hevent => ?_, h.taken, fun x hx => ?_⟩
  · rcases List.mem_append.mp hevent with hin | hin
    · exact h.buffered event hin
    · rwa [List.mem_singleton.mp hin]
  · rcases h.accepted x hx with hin | hin | hin
    · exact .inl (List.mem_append_left _ hin)
    · rw [Set.mem_singleton_iff.mp (hT hin)]
      exact .inl (List.mem_append_right _ (List.mem_singleton_self e))
    · exact .inr (.inr hin)

/-- So does buffering it with the flush that it may cause. -/
theorem buffer_owes {full : Action G Unit} (hfull : ∀ t, Owes S ∅ t →
      full.Among .atomic World.Joins (World.Records S) (fun _ => Owes S ∅) (fun _ _ => True) t)
    (he : e ∈ S) (h : Owes S T w) (hT : T ⊆ {e}) :
    Prog.Among .atomic World.Joins (World.Records S) (fun _ => Owes S ∅) (fun _ _ => True) (do
      HistoryWriter.buffer e
      if ← HistoryWriter.should_flush p then full) w := by
  unfold HistoryWriter.buffer HistoryWriter.should_flush
  rw [Prog.bind_eq, among_bind, Prog.among_modify]
  intro t ht
  refine ⟨⟨.inl rfl, .inl rfl⟩, ?_⟩
  rw [Prog.bind_eq, among_bind, Prog.among_read]
  intro u hu
  have hpushed := ((h.joins ht).push he hT).joins hu
  refine ⟨.refl u, ?_⟩
  cases u.history_full p with
  | true => exact hfull u hpushed
  | false => exact hpushed

/-- A state write adds to what is owed where the event is accepted. -/
theorem write_owes (he : e ∈ S) (h : Owes S ∅ w) :
    (write_with_result env p e).Among .atomic World.Joins (World.Records S)
      (fun outcome => Owes S {event | outcome.accepted = true ∧ event = e}) (fun _ _ => True) w := by
  unfold write_with_result
  rw [Prog.bind_eq, among_bind, Prog.among_atomically]
  intro t ht
  have howes := h.joins ht
  rw [Prog.among_ofExcept]
  cases hvalid : valid_lat_lon e.lat e.lon with
  | false =>
    rw [World.write_with_result_invalid hvalid]
    exact ⟨⟨.inl rfl, .inl rfl⟩, trivial⟩
  | true =>
    obtain ⟨cell, -, hwrite⟩ := World.write_with_result_valid env p t hvalid
    rw [hwrite]
    have hkept := howes.mono (Set.empty_subset {event | (t.redis.update_device_state_cas e.device_id
      (StateWriter.state_of e cell (env.system_ms t.tick))).1 = true ∧ event = e})
    refine ⟨⟨.inl rfl, .inl rfl⟩, ?_⟩
    dsimp only
    cases haccepted : (t.redis.update_device_state_cas e.device_id
      (StateWriter.state_of e cell (env.system_ms t.tick))).1 with
    | false =>
      rw [haccepted] at hkept
      exact ⟨hkept.buffered, hkept.taken, hkept.accepted⟩
    | true =>
      refine ⟨hkept.buffered, fun x hx => ?_, fun x hx => ?_⟩
      · rcases List.mem_cons.mp hx with rfl | hx
        · exact he
        · exact hkept.taken x hx
      · rcases List.mem_cons.mp hx with rfl | hx
        · exact .inr (.inl ⟨rfl, rfl⟩)
        · exact (howes.mono (Set.empty_subset _)).accepted x hx

/-- An accepted event is buffered, and perhaps flushed. -/
theorem accept_owes (he : e ∈ S) (h : Owes S ∅ w) :
    (ProcessingLoop.accept env p e).Among .atomic World.Joins (World.Records S) (fun _ => Owes S ∅)
      (fun _ _ => True) w := by
  have hflush : ∀ t, Owes S ∅ t → (HistoryWriter.flush env : Action G Unit).Among .atomic World.Joins
      (World.Records S) (fun _ => Owes S ∅) (fun _ _ => True) t :=
    fun t ht => (flush_owes ht).imp (fun _ _ => And.left) fun _ _ => id
  unfold ProcessingLoop.accept
  split
  · rename_i geofence _
    unfold location_accepted location_accepted_with state_write_requested_with trip_history_write_requested
    rw [Prog.bind_eq, Prog.bind_eq, among_bind, among_bind]
    refine (write_owes he h).imp (fun outcome t ht => ?_) fun _ _ => id
    have hevaluate : Prog.Calls Idle (if outcome.accepted = true then
        Prog.modify (World.evaluate geofence (geofence_evaluation_requested (state_write_succeeded e outcome)))
        else Pure.pure () : Action G Unit) := by
      split
      · exact (Prog.calls_perform _).mpr fun _ => ⟨rfl, rfl, rfl, rfl⟩
      · exact Prog.calls_pure ()
    exact (idle_among hevaluate ht rfl).imp (fun _ u hu => buffer_owes hflush he hu.1 fun _ h => h.2)
      fun _ _ _ => trivial
  · unfold write_directly
    rw [Prog.bind_eq, among_bind]
    refine (write_owes he h).imp (fun outcome t ht => ?_) fun _ _ => id
    cases haccepted : outcome.accepted with
    | true =>
      rw [if_pos rfl]
      refine buffer_owes (fun u hu => ?_) he ht fun _ h => h.2
      rw [Prog.bind_eq, among_bind]
      exact (hflush u hu).imp (fun _ v hv => (idle_among idle_note_flush hv rfl).imp (fun _ _ => And.left)
        fun _ _ _ => trivial) fun _ _ => id
    | false =>
      rw [haccepted] at ht
      simpa using ht

/-- A decoded event that no check stops is accepted. -/
theorem process_owes (he : e ∈ S) (h : Owes S ∅ w) :
    (ProcessingLoop.process env p e).Among .atomic World.Joins (World.Records S) (fun _ => Owes S ∅)
      (fun _ _ => True) w := by
  unfold ProcessingLoop.process ProcessingLoop.process_with
  have hasked : (Prog.atomically (World.is_duplicate env e) : Action G Bool).Calls Idle :=
    (Prog.calls_perform _).mpr fun _ => ⟨rfl, rfl, rfl, rfl⟩
  have hmark : (Prog.modify (World.mark_seen env e) : Action G Unit).Calls Idle :=
    (Prog.calls_perform _).mpr fun _ => ⟨rfl, rfl, rfl, rfl⟩
  rw [Prog.bind_eq, among_bind]
  refine (idle_among hasked h rfl).imp (fun duplicate t ht => ?_) fun _ _ _ => trivial
  cases duplicate with
  | true => exact ht.1
  | false =>
    rw [if_neg Bool.false_ne_true, Prog.bind_eq, among_bind]
    refine (idle_among hmark ht.1 rfl).imp (fun _ u hu => ?_) fun _ _ _ => trivial
    rw [Prog.bind_eq, among_bind, Prog.among_read]
    intro v hv
    refine ⟨.refl v, ?_⟩
    cases SequenceGuard.should_accept v.redis e.device_id e.seq with
    | true => exact accept_owes he (hu.1.joins hv)
    | false => exact hu.1.joins hv

/-- A turn without a message flushes at most. -/
theorem idle_owes (h : Owes S ∅ w) :
    (ProcessingLoop.idle env p).Among .atomic World.Joins (World.Records S) (fun _ => Owes S ∅)
      (fun _ _ => True) w := by
  unfold ProcessingLoop.idle
  rw [Prog.bind_eq, among_bind]
  refine (idle_among (idle_reading _) h rfl).imp (fun now t ht => ?_) fun _ _ _ => trivial
  rw [Prog.bind_eq, among_bind, Prog.among_read]
  intro u hu
  refine ⟨.refl u, ?_⟩
  split
  · rw [Prog.bind_eq, among_bind]
    exact (flush_owes (ht.1.joins hu)).imp (fun _ v hv =>
      (idle_among idle_note_flush hv.1 rfl).imp (fun _ _ => And.left) fun _ _ _ => trivial) fun _ _ => id
  · exact ht.1.joins hu

/-- What is polled and decoded is of the topic. -/
theorem mem_events_of_poll {msg : KafkaMessage} (hpoll : (w.poll env).1 = some msg)
    (hdecode : decode_location_payload msg.payload = .ok e) : e ∈ events_of env.topic := by
  rcases w.poll_cases env with hnone | ⟨message, msg', hm, hpayload, -, hsome⟩
  · rw [hnone] at hpoll
    cases hpoll
  · rw [hsome, Option.some.injEq] at hpoll
    subst hpoll
    exact ⟨message, List.mem_of_getElem? hm, hpayload ▸ hdecode⟩

/-- A turn leaves nothing owed but what is buffered. -/
theorem turn_owes (h : Owes (events_of env.topic) ∅ w) :
    (ProcessingLoop.turn env p).Among .atomic World.Joins (World.Records (events_of env.topic))
      (fun _ => Owes (events_of env.topic) ∅) (fun _ _ => True) w := by
  unfold ProcessingLoop.turn ProcessingLoop.turn_with
  have hcommit : ∀ msg, (Prog.modify (World.commit msg) : Action G Unit).Calls Idle := fun msg =>
    (Prog.calls_perform _).mpr fun _ => ⟨rfl, rfl, rfl, rfl⟩
  rw [Prog.bind_eq, among_bind, Prog.among_atomically]
  intro t ht
  have howes := h.joins ht
  have hpolled : Owes (events_of env.topic) ∅ (t.poll env).2 := ⟨howes.buffered, howes.taken, howes.accepted⟩
  refine ⟨⟨.inl rfl, .inl rfl⟩, ?_⟩
  cases hpoll : (t.poll env).1 with
  | none => exact idle_owes hpolled
  | some msg =>
    dsimp only
    cases hdecode : decode_location_payload msg.payload with
    | error what => exact (idle_among (hcommit msg) hpolled rfl).imp (fun _ _ => And.left) fun _ _ _ => trivial
    | ok event =>
      dsimp only
      rw [Prog.bind_eq, among_bind]
      exact (process_owes (mem_events_of_poll hpoll hdecode) hpolled).imp (fun _ u hu =>
        (idle_among (hcommit msg) hu rfl).imp (fun _ _ => And.left) fun _ _ _ => trivial) fun _ _ => id

/-- When a run has ended, what it has accepted is in the history. -/
theorem run_owes (n : ℕ) (h : Owes (events_of env.topic) ∅ w) :
    (ProcessingLoop.run env p n).Among .atomic World.Joins (World.Records (events_of env.topic))
      (fun stopped t => stopped = true → ∀ x ∈ t.accepted, x.2 ∈ events_of env.topic ∧ t.InHistory x.2)
      (fun _ _ => True) w := by
  unfold ProcessingLoop.run ProcessingLoop.run_with
  rw [Prog.bind_eq, among_bind]
  refine (idle_among idle_note_flush h rfl).imp (fun _ t ht => ?_) fun _ _ _ => trivial
  rw [Prog.bind_eq, among_bind]
  have hloop := Prog.among_whileM (h := .atomic) (P := fun _ => Owes (events_of env.topic) ∅)
    (E := fun _ _ => True) (R := World.Joins) (M := World.Records (events_of env.topic))
    (Owes (events_of env.topic) ∅) (ProcessingLoop.condition env) (ProcessingLoop.turn env p) (fun u hu => ?_)
    (fun _ => id) n ht.1
  · refine hloop.imp (fun stopped u hu => ?_) fun _ _ => id
    cases stopped with
    | true =>
      rw [if_pos rfl, Prog.bind_eq, among_bind]
      refine (flush_owes hu).imp (fun _ v hv _ x hx => ?_) fun _ _ => id
      have hin := hv.1.accepted x hx
      rw [hv.2] at hin
      exact ⟨hv.1.taken x hx, (hin.resolve_left List.not_mem_nil).resolve_left (Set.notMem_empty _)⟩
    | false => exact nofun
  · unfold ProcessingLoop.condition
    rw [Prog.bind_eq, among_bind]
    refine (idle_among (idle_reading _) hu rfl).imp (fun stop v hv => ?_) fun _ _ _ => trivial
    rw [Prog.pure_eq, Prog.among_pure]
    cases stop with
    | true => exact hv.1
    | false => exact turn_owes hv.1

end Processor

namespace ProcessorGroup

variable {ι π G : Type} [DecidableEq ι] [DecidableEq π] (group : ProcessorGroup ι π)

/-- The history is of events of the group, and has no two points of one key. -/
structure Historic (state : GroupState ι π G) : Prop where
  keyed : state.pg.Keyed
  points : ∀ event ∈ state.pg.trip_points, event ∈ group.events
  letters : ∀ message ∈ state.produced, ∃ event ∈ group.events, message = dlq_message event

/-- What the others leave of a processor, as far as the history goes. -/
def Keeps (i : ι) (state state' : GroupState ι π G) : Prop :=
  state'.worlds i = state.worlds i ∧ ∀ event, (view i state).InHistory event → (view i state').InHistory event

/-- What a processor leaves whose run has ended: what it has accepted is in the history. -/
def Finishes (i : ι) (stopped : Bool) (state : GroupState ι π G) : Prop :=
  stopped = true → ∀ x ∈ (view i state).accepted, x.2 ∈ events_of (group.partitions (group.assigned i)) ∧
    (view i state).InHistory x.2

/-- What a processor does to the history. -/
def Adds (i : ι) (state state' : GroupState ι π G) : Prop :=
  ∃ w, state' = group.put i state w ∧ (view i state).Records (events_of (group.partitions (group.assigned i))) w

variable {group} {i : ι} {state state' : GroupState ι π G}

omit [DecidableEq ι] [DecidableEq π] in
theorem Keeps.joins (h : Keeps i state state') : (view i state).Joins (view i state') := by
  refine ⟨⟨state'.redis, state'.pg, state'.produced, ?_⟩, h.2⟩
  unfold view
  rw [h.1]

/-- A step of a processor keeps the history, and adds to it at its end. -/
theorem Adds.historic (h : group.Adds i state state') (hstate : group.Historic state) : group.Historic state' ∧
    state.pg.trip_points <+: state'.pg.trip_points ∧ state.produced <+: state'.produced := by
  obtain ⟨w, rfl, hpoints, hletters⟩ := h
  have hpg : w.pg.Keyed ∧ (∀ event ∈ w.pg.trip_points, event ∈ group.events) ∧
      state.pg.trip_points <+: w.pg.trip_points := by
    rcases hpoints with hpg | ⟨batch, hbatch, hpg⟩
    · rw [hpg]
      exact ⟨hstate.keyed, hstate.points, List.prefix_rfl⟩
    · rw [hpg]
      refine ⟨hstate.keyed.insert batch, fun event hevent => ?_, PostgresClient.prefix_batch_insert batch⟩
      rcases PostgresClient.mem_or_mem_of_mem_batch_insert hevent with hold | hnew
      · exact hstate.points event hold
      · exact ⟨_, hbatch event hnew⟩
  have hproduced : (∀ message ∈ w.produced, ∃ event ∈ group.events, message = dlq_message event) ∧
      state.produced <+: w.produced := by
    rcases hletters with hsame | ⟨event, hevent, hmore⟩
    · rw [hsame]
      exact ⟨hstate.letters, List.prefix_rfl⟩
    · rw [hmore]
      refine ⟨fun message hmessage => ?_, List.prefix_append _ _⟩
      rcases List.mem_append.mp hmessage with hold | hnew
      · exact hstate.letters message hold
      · exact ⟨event, ⟨_, hevent⟩, List.mem_singleton.mp hnew⟩
  exact ⟨⟨hpg.1, hpg.2.1, hproduced.1⟩, hpg.2.2, hproduced.2⟩

/-- The processors keep what each of them adds. -/
theorem compatible_history (group : ProcessorGroup ι π) (points : List LocationEvent)
    (letters : List ProducedMessage) :
    Pool.Compatible (Keeps (ι := ι) (π := π) (G := G)) group.Adds fun state =>
      group.Historic state ∧ points <+: state.pg.trip_points ∧ letters <+: state.produced where
  refl _ _ := ⟨rfl, fun _ => id⟩
  trans _ _ _ _ h h' := ⟨h'.1.trans h.1, fun event hin => h'.2 event (h.2 event hin)⟩
  others i j state state' hij _ h := by
    obtain ⟨w, rfl, hrecords⟩ := h
    exact ⟨Function.update_of_ne hij.symm _ _, fun event hin => hrecords.inHistory hin⟩
  inv i state state' hstate h := by
    obtain ⟨hhistoric, hpoints, hletters⟩ := h.historic hstate.1
    exact ⟨hhistoric, hstate.2.1.trans hpoints, hstate.2.2.trans hletters⟩

/-- A processor that starts owes nothing. -/
theorem Boots.adds {program : Prog (Atomic (GroupState ι π G)) Exception Bool}
    (h : group.Boots i state program state') :
    program.Among .atomic (Keeps i) (group.Adds i) (group.Finishes i) (fun _ _ => True) state' := by
  obtain ⟨env, p, n, offset, max_entries, ttl_seconds, geofence, htopic, -, -, rfl, rfl⟩ := h
  have howes : Owes (events_of env.topic) ∅ (view i { state with
      worlds := Function.update state.worlds i (starting offset max_entries ttl_seconds geofence) }) := by
    rw [view_update]
    exact ⟨fun _ hevent => absurd hevent List.not_mem_nil, fun _ hx => absurd hx List.not_mem_nil,
      fun _ hx => absurd hx List.not_mem_nil⟩
  have hrun := run_owes (p := p) n howes
  rw [htopic] at hrun
  exact Prog.Among.hoist (fun c => group.on i c) (view i) (group.put i) (fun _ _ => rfl) view_put
    (fun _ _ => Keeps.joins) (fun _ w hw => ⟨w, rfl, hw⟩) hrun

/-- In every state that a group reaches the history is of its events, nothing is gone that was there before, and
what a processor has accepted whose run has ended is there. -/
theorem reaches_historic {geofence : ι → G}
    {P Q : Pool ι (Atomic (GroupState ι π G)) (GroupState ι π G) Exception Bool}
    (hP : group.Reaches (start geofence) P) (hQ : group.Reaches P Q) :
    (group.Historic Q.state ∧ P.state.pg.trip_points <+: Q.state.pg.trip_points ∧
        P.state.produced <+: Q.state.produced) ∧
      ∀ i, Q.threads i = .pure true → ∀ x ∈ (Q.state.worlds i).accepted,
        x.2 ∈ group.events ∧ (view i Q.state).InHistory x.2 := by
  have hboots : ∀ (points : List LocationEvent) (letters : List ProducedMessage) (i : ι) (s : GroupState ι π G)
      (p : Prog (Atomic (GroupState ι π G)) Exception Bool) (s' : GroupState ι π G), group.Boots i s p s' →
      (group.Historic s ∧ points <+: s.pg.trip_points ∧ letters <+: s.produced) →
      p.Among .atomic (Keeps i) (group.Adds i) (group.Finishes i) (fun _ _ => True) s' ∧
        (∀ j, i ≠ j → Keeps j s s') ∧
        group.Historic s' ∧ points <+: s'.pg.trip_points ∧ letters <+: s'.produced := by
    intro points letters i s p s' hboots hs
    refine ⟨hboots.adds, ?_⟩
    obtain ⟨env, p, n, offset, max_entries, ttl_seconds, geofence, -, -, -, -, rfl⟩ := hboots
    exact ⟨fun j hij => ⟨Function.update_of_ne hij.symm _ _, fun _ => id⟩, ⟨hs.1.keyed, hs.1.points, hs.1.letters⟩,
      hs.2⟩
  have hstart : Pool.Accords .atomic Keeps group.Adds group.Finishes (fun _ _ _ => True)
      (fun state => group.Historic state ∧ [] <+: state.pg.trip_points ∧ [] <+: state.produced) (start geofence) :=
    ⟨fun i => ⟨_, ⟨rfl, fun _ => id⟩, nofun⟩, ⟨PostgresClient.keyed_empty, fun _ h => absurd h List.not_mem_nil,
      fun _ h => absurd h List.not_mem_nil⟩, List.nil_prefix, List.nil_prefix⟩
  have hat := hstart.moves (compatible_history group [] []) (hboots [] []) hP
  have hthen := Pool.Accords.moves
    (I := fun state => group.Historic state ∧ P.state.pg.trip_points <+: state.pg.trip_points ∧
      P.state.produced <+: state.produced)
    ⟨hat.thread, hat.inv.1, List.prefix_rfl, List.prefix_rfl⟩ (compatible_history group _ _) (hboots _ _) hQ
  refine ⟨hthen.inv, fun i hi x hx => ?_⟩
  obtain ⟨s, hs, hended⟩ := hthen.thread i
  rw [hi] at hended
  rw [hs.1] at hx
  obtain ⟨hevent, hin⟩ := hended rfl x hx
  exact ⟨⟨_, hevent⟩, hs.2 _ hin⟩

/-- A group keeps its history. In every state that it reaches, whatever its schedule and wherever its processors
stop and start anew, the trip points and the dead letters are of its events, with at most one point of a key;
later states only add to them. When the run of a processor has ended, every event that it has accepted has a trip
point of its key or is a dead letter. -/
theorem history_kept (group : ProcessorGroup ι π) (geofence : ι → G)
    (P : Pool ι (Atomic (GroupState ι π G)) (GroupState ι π G) Exception Bool)
    (hP : group.Reaches (start geofence) P) :
    (P.state.pg.trip_points.map PostgresClient.trip_point_key).Nodup ∧
    (∀ event ∈ P.state.pg.trip_points, event ∈ group.events) ∧
    (∀ message ∈ P.state.produced, ∃ event ∈ group.events, message = dlq_message event) ∧
    (∀ Q, group.Reaches P Q → P.state.pg.trip_points <+: Q.state.pg.trip_points ∧
      P.state.produced <+: Q.state.produced) ∧
    ∀ i, P.threads i = .pure true → ∀ x ∈ (P.state.worlds i).accepted,
      (∃ point ∈ P.state.pg.trip_points, point.device_id = x.2.device_id ∧ point.seq = x.2.seq) ∨
        dlq_message x.2 ∈ P.state.produced := by
  obtain ⟨⟨hhistoric, -, -⟩, hended⟩ := reaches_historic hP .refl
  refine ⟨hhistoric.keyed.nodup, hhistoric.points, hhistoric.letters, fun Q hQ => (reaches_historic hP hQ).1.2,
    fun i hi x hx => (hended i hi x hx).2.imp_left fun hkey => ?_⟩
  obtain ⟨point, hpoint, hsame⟩ := (hhistoric.keyed.mem_keys_iff _).mp hkey
  exact ⟨point, hpoint, congrArg Prod.fst hsame, congrArg Prod.snd hsame⟩

/-- Two processors are asked to stop after a while, and the first finds the database down. -/
def stopping (i : Bool) : Environment :=
  { Environment.attentive (pair_group.partitions ()) with
    should_stop := fun tick => 12 ≤ tick
    insert_error := fun _ => if i then none else some "down" }

/-- One of them, with ten turns ahead. -/
def stopping_program (i : Bool) : Prog (Atomic (GroupState Bool Unit Unit)) Exception Bool :=
  (ProcessingLoop.run (stopping i) ⟨.default, {}, none⟩ 10).hoist (pair_group.on i)

/-- The first gets one report and the second the other, and then both end. -/
def both_stopped : Pool Bool (Atomic (GroupState Bool Unit Unit)) (GroupState Bool Unit Unit) Exception Bool :=
  (pair_of stopping_program).run .atomic (List.replicate 9 false ++ List.replicate 40 true ++ List.replicate 40 false)

/-- One report has a trip point, and the other is a dead letter. -/
theorem history_kept_stopped :
    (both_stopped.state.pg.trip_points.length = 1 ∧ both_stopped.state.produced.length = 1) ∧
    ∀ i, ∀ x ∈ (both_stopped.state.worlds i).accepted,
      (∃ point ∈ both_stopped.state.pg.trip_points, point.device_id = x.2.device_id ∧ point.seq = x.2.seq) ∨
        dlq_message x.2 ∈ both_stopped.state.produced := by
  have hreaches : pair_group.Reaches (start fun _ => ()) both_stopped := pair_reaches (fun i state =>
    ⟨_, ⟨.default, {}, none⟩, 10, 0, 10, 60, (), rfl, rfl, Nat.zero_le _, rfl, rfl⟩) _
  have hended : ∀ i, both_stopped.returned i = some true := by decide +kernel
  exact ⟨by decide +kernel, fun i => (history_kept pair_group (fun _ => ()) both_stopped hreaches).2.2.2.2 i
    (Pool.returned_eq_some.mp (hended i))⟩

end ProcessorGroup

end SignalRoute
