import SignalRoute.Processor.Loop

/-!
# Poison pills

A payload is a poison pill when a turn of the loop on it ends in an exception: the exception leaves
`run`, the message stays uncommitted, and the next process meets it again. The decoder accepts any
two numbers for coordinates, including the texts of infinities and NaN, and the first check of the
coordinates is in the state writer, which throws. So the poison pills are the payloads that decode
to coordinates off the globe (`OffGlobe`); on every other payload a turn returns.
-/

namespace SignalRoute

open Interaction
open Prog (always_bind)
open Numeric (stoull stoll stod)

/-- The payload has six fields that all convert, a device id, and coordinates that are no position on
the globe. -/
def OffGlobe (payload : String) : Prop :=
  ∃ device_id seq timestamp_ms server_recv_ms lat lon,
    split_csv payload = [device_id, seq, timestamp_ms, server_recv_ms, lat, lon] ∧
    device_id ≠ "" ∧
    (∃ n, stoull seq = .ok n) ∧ (∃ t, stoll timestamp_ms = .ok t) ∧
    (∃ r, stoll server_recv_ms = .ok r) ∧
    ∃ x y, stod lat = .ok x ∧ stod lon = .ok y ∧ valid_lat_lon x y = false

/-- The worlds that the loop can be in between two turns, from fresh stores on. -/
inductive BetweenTurns {G : Type} (env : Environment) (p : Processor G) : World G → Prop
  | start (max_entries : ℕ) (ttl_seconds : ℤ) (geofence : G) :
      BetweenTurns env p (World.fresh max_entries ttl_seconds geofence)
  | turn {w : World G} : BetweenTurns env p w →
      ((ProcessingLoop.turn env p).exec .atomic w.advance).result = .ok () →
      BetweenTurns env p ((ProcessingLoop.turn env p).exec .atomic w.advance).final

/-- A message is treated as malformed: it is committed, and the stores and the history are as before. -/
structure Discarded {G : Type} (w : World G) (msg : KafkaMessage) (t : World G) : Prop where
  committed : msg.offset < t.consumer.committed_offset
  redis : t.redis = w.redis
  pg : t.pg = w.pg
  history_buffer : t.history_buffer = w.history_buffer
  produced : t.produced = w.produced

/-- A payload that does the loop no harm: wherever its message is polled, the turn returns, and it
discards the message where the encoding would reject the decoded coordinates. -/
def Harmless (payload : String) : Prop :=
  ∀ {G : Type} (env : Environment) (p : Processor G) (w : World G) (msg : KafkaMessage),
    BetweenTurns env p w → (w.advance.poll env).1 = some msg → msg.payload = payload →
    let run := (ProcessingLoop.turn env p).exec .atomic w.advance
    run.result = .ok () ∧
      ∀ event, decode_location_payload payload = .ok event →
        (p.h3.lat_lng_to_cell event.lat event.lon).isOk = false → Discarded w msg run.final

/-- What the decoder makes of a payload passes the wire conversion. -/
def DecodesToWireEvents (payload : String) : Prop :=
  ∀ event, decode_location_payload payload = .ok event →
    (location_event_from_wire event).isOk = true

/-- All fields of an event that converts do, and the last two are its coordinates. -/
theorem event_of_fields_ok {d seq timestamp recv lat lon : String} {event : LocationEvent}
    (h : event_of_fields d seq timestamp recv lat lon = .ok event) :
    event.device_id = d ∧ (∃ n, stoull seq = .ok n) ∧ (∃ t, stoll timestamp = .ok t) ∧
      (∃ r, stoll recv = .ok r) ∧ stod lat = .ok event.lat ∧ stod lon = .ok event.lon := by
  unfold event_of_fields at h
  obtain ⟨n, hn, h⟩ := Numeric.exists_of_bind_eq_ok h
  obtain ⟨t, ht, h⟩ := Numeric.exists_of_bind_eq_ok h
  obtain ⟨r, hr, h⟩ := Numeric.exists_of_bind_eq_ok h
  obtain ⟨x, hx, h⟩ := Numeric.exists_of_bind_eq_ok h
  obtain ⟨y, hy, h⟩ := Numeric.exists_of_bind_eq_ok h
  cases h
  exact ⟨rfl, ⟨n, hn⟩, ⟨t, ht⟩, ⟨r, hr⟩, hx, hy⟩

/-- A payload is off the globe exactly when it decodes to invalid coordinates. -/
theorem offGlobe_iff {payload : String} : OffGlobe payload ↔
    ∃ event, decode_location_payload payload = .ok event ∧
      valid_lat_lon event.lat event.lon = false := by
  unfold decode_location_payload decode_csv_location_payload
  constructor
  · rintro ⟨d, seq, timestamp, recv, lat, lon, hsplit, hd, ⟨n, hn⟩, ⟨t, ht⟩, ⟨r, hr⟩, x, y, hx, hy, hv⟩
    have hfields : event_of_fields d seq timestamp recv lat lon = .ok
        { device_id := d, seq := n, timestamp_ms := t, server_recv_ms := r, lat := x, lon := y } := by
      unfold event_of_fields
      rw [hn, ht, hr, hx, hy]
      rfl
    rw [hsplit]
    dsimp only
    rw [hfields]
    dsimp only
    rw [if_neg hd]
    exact ⟨_, rfl, hv⟩
  · -- What decodes has six fields that convert, and an id.
    rintro ⟨event, hdecode, hv⟩
    split at hdecode
    · rename_i d seq timestamp recv lat lon hsplit
      split at hdecode
      · rename_i event' hfields
        obtain ⟨hd, hn, ht, hr, hx, hy⟩ := event_of_fields_ok hfields
        split at hdecode
        · cases hdecode
        · cases hdecode
          exact ⟨d, seq, timestamp, recv, lat, lon, hsplit, hd ▸ ‹_›, hn, ht, hr, _, _, hx, hy, hv⟩
      · cases hdecode
    · cases hdecode

variable {G : Type} {env : Environment} {p : Processor G} {w : World G} {e : LocationEvent}

/-- An event with valid coordinates throws nothing, whatever the loop does with it. -/
theorem process_valid (hv : valid_lat_lon e.lat e.lon = true) :
    (ProcessingLoop.process env p e).Always .atomic (fun _ => True) (fun _ _ => True)
      (fun _ _ => False) w := by
  unfold ProcessingLoop.process ProcessingLoop.process_with
  simp only [Prog.bind_eq, always_bind, Prog.always_atomically, true_and]
  split
  · trivial
  rw [always_bind, Prog.always_modify, always_bind, Prog.always_read]
  refine ⟨trivial, trivial, ?_⟩
  split
  · exact (accept_frame hv).imp (fun _ _ => trivial) (fun _ _ _ => trivial) fun _ _ => id
  · trivial

/-- A new event with invalid coordinates ends the turn with an exception. -/
theorem process_invalid (hv : valid_lat_lon e.lat e.lon = false) (hdedup : w.dedup.lru_list = [])
    (hnew : w.redis.get_device_state e.device_id = none) :
    (ProcessingLoop.process env p e).Always .atomic (fun _ => True) (fun _ _ => False)
      (fun _ _ => True) w := by
  have hdup : (w.is_duplicate env e).1 = false :=
    DedupWindow.is_duplicate_of_empty hdedup _ _ _ _
  have hguard : SequenceGuard.should_accept w.redis e.device_id e.seq = true := by
    unfold SequenceGuard.should_accept
    rw [hnew]
  unfold ProcessingLoop.process ProcessingLoop.process_with
  simp only [Prog.bind_eq, always_bind, Prog.always_atomically, true_and, hdup]
  rw [if_neg Bool.false_ne_true, always_bind, Prog.always_modify, always_bind, Prog.always_read]
  refine ⟨trivial, trivial, ?_⟩
  rw [if_pos (by exact hguard)]
  exact accept_invalid hv

/-- A payload that is not off the globe does no harm. -/
theorem harmless_of_not_offGlobe {payload : String} (h : ¬OffGlobe payload) : Harmless payload := by
  intro G env p w msg _ hpoll hpayload
  have hvalid : ∀ event, decode_location_payload payload = .ok event →
      valid_lat_lon event.lat event.lon = true := by
    intro event he
    by_contra hv
    exact h (offGlobe_iff.mpr ⟨event, he, Bool.eq_false_iff.mpr hv⟩)
  have hturn : (ProcessingLoop.turn env p).Always .atomic (fun _ => True) (fun _ _ => True)
      (fun _ _ => False) w.advance := by
    unfold ProcessingLoop.turn ProcessingLoop.turn_with
    rw [Prog.bind_eq, always_bind, Prog.always_atomically, hpoll]
    refine ⟨trivial, ?_⟩
    dsimp only
    rw [hpayload]
    cases hd : decode_location_payload payload with
    | error _ => exact ⟨trivial, trivial⟩
    | ok event =>
      dsimp only
      rw [Prog.bind_eq, always_bind]
      exact (process_valid (hvalid event hd)).imp (fun _ => id) (fun _ _ _ => ⟨trivial, trivial⟩)
        fun _ _ => id
  -- No turn on the message throws.
  obtain ⟨-, -, herr⟩ := (Prog.always_iff_exec _ _).mp hturn
  refine ⟨?_, fun event he hrejected => ?_⟩
  · cases hr : ((ProcessingLoop.turn env p).exec .atomic w.advance).result with
    | ok _ => rfl
    | error e => exact (herr e hr).elim
  · rw [p.h3.lat_lng_to_cell_ok_iff.mpr ⟨hvalid event he, rfl⟩] at hrejected
    cases hrejected

/-- A payload that is off the globe ends the first turn of a run with an exception. -/
theorem not_harmless_of_offGlobe {payload : String} (h : OffGlobe payload) :
    ¬Harmless payload := by
  obtain ⟨event, he, hv⟩ := offGlobe_iff.mp h
  intro hsafe
  -- The run on this message alone, with a fresh window and an empty store.
  have hstart : BetweenTurns (.attentive [{ key := "", payload }]) ⟨.default, {}, none⟩
    (World.fresh 1 0 ()) := .start 1 0 ()
  have hok := (hsafe _ _ _ _ hstart rfl rfl).1
  have hturn : (ProcessingLoop.turn (.attentive [{ key := "", payload }])
      (⟨.default, {}, none⟩ : Processor Unit)).Always .atomic (fun _ => True) (fun _ _ => False)
      (fun _ _ => True) (World.fresh 1 0 ()).advance := by
    obtain ⟨msg, hpolled, hpayload⟩ : ∃ msg, ((World.fresh 1 0 ()).advance.poll
        (.attentive [{ key := "", payload }])).1 = some msg ∧ msg.payload = payload := ⟨_, rfl, rfl⟩
    unfold ProcessingLoop.turn ProcessingLoop.turn_with
    rw [Prog.bind_eq, always_bind, Prog.always_atomically, hpolled]
    refine ⟨trivial, ?_⟩
    dsimp only
    rw [hpayload, he]
    dsimp only
    rw [Prog.bind_eq, always_bind]
    exact Prog.Always.imp (process_invalid hv (by rfl) (by rfl)) (fun _ => id)
      (fun _ _ h => h.elim) fun _ _ => id
  exact ((Prog.always_iff_exec _ _).mp hturn).2.1 () hok

/-- No poison pill, and where there is one. For every payload: a turn on it always returns, and
discards the message where its coordinates are rejected, if and only if the payload is not off the
globe; and the decoder accepts of it only what the wire conversion accepts, under the same
condition. -/
theorem harmless_iff_not_offGlobe (payload : String) :
    (Harmless payload ↔ ¬OffGlobe payload) ∧ (DecodesToWireEvents payload ↔ ¬OffGlobe payload) := by
  refine ⟨⟨fun hsafe hoff => not_harmless_of_offGlobe hoff hsafe, harmless_of_not_offGlobe⟩,
    fun hwire hoff => ?_, fun hoff event he => ?_⟩
  · obtain ⟨event, he, hv⟩ := offGlobe_iff.mp hoff
    have := (location_event_from_wire_isOk_iff event).mp (hwire event he)
    rw [hv] at this
    exact Bool.false_ne_true this.2
  · refine (location_event_from_wire_isOk_iff event).mpr ⟨device_id_of_decode he, ?_⟩
    by_contra hv
    exact hoff (offGlobe_iff.mpr ⟨event, he, Bool.eq_false_iff.mpr hv⟩)

/-- A latitude of NaN is a poison pill. -/
theorem not_harmless_nan : ¬Harmless "d,1,1,1,nan,0" ∧ ¬DecodesToWireEvents "d,1,1,1,nan,0" := by
  have hdecode : decode_location_payload "d,1,1,1,nan,0" = .ok
      { device_id := "d", seq := 1, timestamp_ms := 1, server_recv_ms := 1, lat := .nan } := by
    decide +kernel
  refine ⟨not_harmless_of_offGlobe (offGlobe_iff.mpr ⟨_, hdecode, rfl⟩), fun hwire => ?_⟩
  have := hwire _ hdecode
  revert this
  decide +kernel

end SignalRoute
