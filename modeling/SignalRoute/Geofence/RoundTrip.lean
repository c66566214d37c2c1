import SignalRoute.Geofence.FailedTransitions
import SignalRoute.Numeric.Reread
import SignalRoute.Processor.Grammar

/-!
# Geofence event payloads

The decoder of `src/common/proto/geofence_payload_codec.cpp` without protobuf, beside the encoder in
`Evaluator.lean`. A record that the evaluator or the dwell checker emits (`Emitted`) has only the fields
of its kind, so it comes back exactly if its ids are there and have no comma and its coordinates are
six-digit numbers. The decoder chooses the kind of a record by the number of its fields and takes any
other type for `ENTER`; it ignores what follows a numeral. So it accepts payloads that are no records,
and `geofence_codec_iff` says which.
-/

namespace SignalRoute

open Numeric
open Store (HashOrder)
open Interaction (Prog)

/-- `geofence_event_type_from_string`. -/
def geofence_event_type_from_string (s : String) : GeofenceEventType :=
  if s = "EXIT" then .EXIT
  else if s = "DWELL" then .DWELL
  else .ENTER

namespace geofence_payload

/-- `split_csv`, as in the codec of locations. -/
def split_csv (payload : String) : List String := SignalRoute.split_csv payload

/-- The five fields of a payload as an event. -/
def event_of_duration (device_id fence_id event_type event_ts_ms inside_duration_s : String) :
    Except ConversionError GeofenceEventRecord := do
  let event_ts_ms ← stoll event_ts_ms
  let inside_duration_s ← stoi inside_duration_s
  return { device_id, fence_id, fence_name := "", event_type := geofence_event_type_from_string event_type,
           event_ts_ms, inside_duration_s }

/-- The six fields of a payload as an event. -/
def event_of_position (device_id fence_id event_type event_ts_ms lat lon : String) :
    Except ConversionError GeofenceEventRecord := do
  let event_ts_ms ← stoll event_ts_ms
  let lat ← stod lat
  let lon ← stod lon
  return { device_id, fence_id, fence_name := "", event_type := geofence_event_type_from_string event_type,
           event_ts_ms, lat, lon }

/-- The end of the decoder: the check of the ids, and the `catch`. -/
def checked : Except ConversionError GeofenceEventRecord → Except String GeofenceEventRecord
  | .ok event =>
    if event.device_id = "" ∨ event.fence_id = "" then
      .error "geofence event identifiers are required"
    else .ok event
  | .error _ => .error "invalid geofence event payload"

end geofence_payload

open geofence_payload (event_of_duration event_of_position checked)

/-- `decode_csv_geofence_event_payload`. -/
def decode_csv_geofence_event_payload (payload : String) : Except String GeofenceEventRecord :=
  match geofence_payload.split_csv payload with
  | [device_id, fence_id, event_type, event_ts_ms, inside_duration_s] =>
    checked (event_of_duration device_id fence_id event_type event_ts_ms inside_duration_s)
  | [device_id, fence_id, event_type, event_ts_ms, lat, lon] =>
    checked (event_of_position device_id fence_id event_type event_ts_ms lat lon)
  | _ => .error "invalid geofence event payload"

/-- `decode_geofence_event_payload`. -/
def decode_geofence_event_payload (payload : String) : Except String GeofenceEventRecord :=
  decode_csv_geofence_event_payload payload

namespace GeofenceEventRecord

/-- A record comes back but for the name of its fence. -/
def RoundTrips (r : GeofenceEventRecord) : Prop :=
  decode_geofence_event_payload (encode_geofence_event_payload r) = .ok { r with fence_name := "" }

/-- The fields of a record are values of their types. -/
structure InRange (r : GeofenceEventRecord) : Prop where
  event_ts_ms : -2^63 ≤ r.event_ts_ms ∧ r.event_ts_ms < 2^63
  lat : ∀ q, r.lat = .finite q → |q| < 2^1024
  lon : ∀ q, r.lon = .finite q → |q| < 2^1024

/-- A record has only the fields of its kind: a duration, or a position. -/
inductive Shaped (r : GeofenceEventRecord) : Prop
  | duration : r.event_type = .DWELL → r.lat = 0 → r.lon = 0 →
      -2^31 ≤ r.inside_duration_s ∧ r.inside_duration_s < 2^31 → Shaped r
  | position : r.event_type ≠ .DWELL → r.inside_duration_s = 0 → Shaped r

/-- A record that `evaluate` or `check_once` emits: a run of it inserts the record, whatever the stores
have and whether or not their insertions and productions fail. -/
inductive Emitted (r : GeofenceEventRecord) : Prop
  | evaluate (registry : FenceRegistry) (order : HashOrder) (event_topic device_id : String)
      (old_h3 new_h3 : ℤ) (lat lon : Double) (timestamp_ms : ℤ) (faults : GeofenceFaults)
      (orders : ℕ → HashOrder) (s : FaultyStore) : r ∉ s.store.events →
      r ∈ (FaultyStore.after faults orders (Evaluator.evaluate registry order event_topic device_id
        old_h3 new_h3 lat lon timestamp_ms) s).events → Emitted r
  | check_once (registry : FenceRegistry) (config : GeofenceConfig) (event_topic : String) (now_ms : ℤ)
      (faults : GeofenceFaults) (orders : ℕ → HashOrder) (s : FaultyStore) : r ∉ s.store.events →
      r ∈ (FaultyStore.after faults orders (DwellChecker.check_once registry config event_topic now_ms)
        s).events → Emitted r

/-- The fields of an encoded record after its ids. -/
def detail (r : GeofenceEventRecord) : List String :=
  if r.event_type = .DWELL then [toString r.inside_duration_s]
  else [ostreamDouble r.lat, ostreamDouble r.lon]

end GeofenceEventRecord

section Encoding

variable {r : GeofenceEventRecord}

/-- The name of a type has no comma in it. -/
theorem comma_notMem_type (t : GeofenceEventType) : ',' ∉ (geofence_event_type_to_string t).toList := by
  cases t <;> decide

/-- The fields of an encoded record, where a comma in an id makes more of them. -/
theorem split_csv_encode_geofence (r : GeofenceEventRecord) :
    geofence_payload.split_csv (encode_geofence_event_payload r) =
      (r.device_id.toList.splitOn ',' ++ r.fence_id.toList.splitOn ',').map String.ofList ++
        geofence_event_type_to_string r.event_type :: toString r.event_ts_ms :: r.detail := by
  have hids : (r.device_id.toList ++ ',' :: r.fence_id.toList).splitOn ',' =
      r.device_id.toList.splitOn ',' ++ r.fence_id.toList.splitOn ',' :=
    List.splitOn_append_cons_self _ _
  have htype := comma_notMem_type r.event_type
  have htime := comma_notMem_int r.event_ts_ms
  unfold geofence_payload.split_csv split_csv encode_geofence_event_payload GeofenceEventRecord.detail
  split
  · have hfields : ∀ f ∈ [(geofence_event_type_to_string r.event_type).toList,
        (toString r.event_ts_ms).toList] ++ [(toString r.inside_duration_s).toList], ',' ∉ f :=
      List.forall_mem_cons.mpr ⟨htype, List.forall_mem_cons.mpr ⟨htime,
        List.forall_mem_singleton.mpr (comma_notMem_int _)⟩⟩
    have hlines := getlines_flatMap ',' (r.device_id.toList ++ ',' :: r.fence_id.toList) _ _ hfields
      (toString_int_ne_nil _)
    rw [hids] at hlines
    have htext : ∀ duration : String, (r.device_id ++ "," ++ r.fence_id ++ "," ++
        geofence_event_type_to_string r.event_type ++ "," ++ toString r.event_ts_ms ++ "," ++
          duration).toList = r.device_id.toList ++ ',' :: r.fence_id.toList ++
        ([(geofence_event_type_to_string r.event_type).toList, (toString r.event_ts_ms).toList] ++
          [duration.toList]).flatMap (',' :: ·) := by
      intro duration
      simp [String.toList_append]
    rw [htext, hlines, List.map_append]
    simp only [List.map_cons, List.map_nil, String.ofList_toList, List.cons_append, List.nil_append]
  · have hfields : ∀ f ∈ [(geofence_event_type_to_string r.event_type).toList,
        (toString r.event_ts_ms).toList, (ostreamDouble r.lat).toList] ++
          [(ostreamDouble r.lon).toList], ',' ∉ f :=
      List.forall_mem_cons.mpr ⟨htype, List.forall_mem_cons.mpr ⟨htime, List.forall_mem_cons.mpr
        ⟨comma_notMem_double _, List.forall_mem_singleton.mpr (comma_notMem_double _)⟩⟩⟩
    have hlines := getlines_flatMap ',' (r.device_id.toList ++ ',' :: r.fence_id.toList) _ _ hfields
      (ostreamDouble_ne_nil _)
    rw [hids] at hlines
    have htext : ∀ lat lon : String, (r.device_id ++ "," ++ r.fence_id ++ "," ++
        geofence_event_type_to_string r.event_type ++ "," ++ toString r.event_ts_ms ++ "," ++
          (lat ++ "," ++ lon)).toList = r.device_id.toList ++ ',' :: r.fence_id.toList ++
        ([(geofence_event_type_to_string r.event_type).toList, (toString r.event_ts_ms).toList,
          lat.toList] ++ [lon.toList]).flatMap (',' :: ·) := by
      intro lat lon
      simp [String.toList_append]
    rw [htext, hlines, List.map_append]
    simp only [List.map_cons, List.map_nil, String.ofList_toList, List.cons_append, List.nil_append]

/-- The name of a type is read back. -/
theorem geofence_event_type_from_string_to_string (t : GeofenceEventType) :
    geofence_event_type_from_string (geofence_event_type_to_string t) = t := by
  cases t <;> rfl

/-- The name of a type is no integer. -/
theorem stoll_type (t : GeofenceEventType) :
    stoll (geofence_event_type_to_string t) = .error .invalid_argument := by
  cases t <;> decide +kernel

/-- A record whose id has a comma does not decode: there are too many fields, or the name of the type
is where the time should be. -/
theorem decode_encode_geofence_of_comma (h : ',' ∈ r.device_id.toList ∨ ',' ∈ r.fence_id.toList) :
    decode_geofence_event_payload (encode_geofence_event_payload r) =
      .error "invalid geofence event payload" := by
  have hids : 3 ≤ ((r.device_id.toList.splitOn ',' ++ r.fence_id.toList.splitOn ',').map
      String.ofList).length := by
    have hdevice := List.length_pos_iff.mpr (List.splitOn_ne_nil ',' r.device_id.toList)
    have hfence := List.length_pos_iff.mpr (List.splitOn_ne_nil ',' r.fence_id.toList)
    rw [List.length_map, List.length_append]
    rcases h with h | h
    · have := two_le_length_splitOn h
      omega
    · have := two_le_length_splitOn h
      omega
  have hdetail : 0 < r.detail.length := by
    unfold GeofenceEventRecord.detail
    split
    · exact Nat.zero_lt_one
    · exact Nat.zero_lt_two
  unfold decode_geofence_event_payload decode_csv_geofence_event_payload
  rw [split_csv_encode_geofence]
  generalize ((r.device_id.toList.splitOn ',' ++ r.fence_id.toList.splitOn ',').map String.ofList) = ids at *
  split
  · rename_i heq
    have hlength := congrArg List.length heq
    simp only [List.length_append, List.length_cons, List.length_nil] at hlength
    omega
  · rename_i heq
    have hlength := congrArg List.length heq
    simp only [List.length_append, List.length_cons, List.length_nil] at hlength
    obtain ⟨x, y, z, rfl⟩ := List.length_eq_three.mp (by omega : ids.length = 3)
    simp only [List.cons_append, List.nil_append, List.cons.injEq] at heq
    obtain ⟨-, -, -, htime, -⟩ := heq
    unfold event_of_position
    rw [← htime, stoll_type]
    rfl
  · rfl

/-- The ids of a record without commas are its first two fields. -/
theorem split_csv_encode_of_no_comma (hdevice : ',' ∉ r.device_id.toList)
    (hfence : ',' ∉ r.fence_id.toList) :
    geofence_payload.split_csv (encode_geofence_event_payload r) = r.device_id :: r.fence_id ::
      geofence_event_type_to_string r.event_type :: toString r.event_ts_ms :: r.detail := by
  rw [split_csv_encode_geofence, List.splitOn_eq_singleton hdevice, List.splitOn_eq_singleton hfence]
  simp only [List.cons_append, List.nil_append, List.map_cons, List.map_nil, String.ofList_toList]

/-- What the decoder makes of a record with a duration. -/
theorem decode_encode_duration (hdevice : ',' ∉ r.device_id.toList) (hfence : ',' ∉ r.fence_id.toList)
    (htype : r.event_type = .DWELL) (hrange : r.InRange) (hduration : -2^31 ≤ r.inside_duration_s ∧
      r.inside_duration_s < 2^31) :
    decode_geofence_event_payload (encode_geofence_event_payload r) =
      checked (.ok { r with fence_name := "", lat := 0, lon := 0 }) := by
  unfold decode_geofence_event_payload decode_csv_geofence_event_payload
  rw [split_csv_encode_of_no_comma hdevice hfence]
  unfold GeofenceEventRecord.detail
  rw [if_pos htype]
  dsimp only
  unfold event_of_duration
  rw [stoll_toString hrange.event_ts_ms, stoi_toString hduration,
    geofence_event_type_from_string_to_string]
  rfl

/-- What the decoder makes of a record with a position. -/
theorem decode_encode_position (hdevice : ',' ∉ r.device_id.toList) (hfence : ',' ∉ r.fence_id.toList)
    (htype : r.event_type ≠ .DWELL) (hrange : r.InRange) :
    decode_geofence_event_payload (encode_geofence_event_payload r) = checked (do
      let lat ← stod (ostreamDouble r.lat)
      let lon ← stod (ostreamDouble r.lon)
      return { r with fence_name := "", lat, lon, inside_duration_s := 0 }) := by
  unfold decode_geofence_event_payload decode_csv_geofence_event_payload
  rw [split_csv_encode_of_no_comma hdevice hfence]
  unfold GeofenceEventRecord.detail
  rw [if_neg htype]
  dsimp only
  unfold event_of_position
  rw [stoll_toString hrange.event_ts_ms, geofence_event_type_from_string_to_string]
  rfl

/-- A double is printed with its six digits and read back as itself. -/
def SixDigits (x : Double) : Prop := ∀ q, x = .finite q → SixDigit q ∧ ¬Tiny q

theorem stod_ostreamDouble_eq_iff {x : Double} (hx : ∀ q, x = .finite q → |q| < 2^1024) :
    stod (ostreamDouble x) = .ok x ↔ SixDigits x := by
  cases x with
  | finite q =>
    unfold SixDigits
    simp only [Double.finite.injEq, forall_eq']
    by_cases htiny : Tiny q
    · rw [stod_ostreamDouble_tiny htiny]
      exact iff_of_false (fun h => by cases h) fun h => h.2 htiny
    · rw [stod_ostreamDouble_ok htiny (hx q rfl), and_iff_left htiny, ← reread_eq_iff, Except.ok.injEq,
        Double.finite.injEq]
  | infinite negative => cases negative <;> exact iff_of_true (by decide +kernel) fun q hq => by cases hq
  | nan => exact iff_of_true (by decide +kernel) fun q hq => by cases hq

/-- A record with the fields of its kind comes back exactly if its ids are there and have no comma, and
its coordinates, if it has them, are six-digit numbers. -/
theorem roundTrips_iff (hshaped : r.Shaped) (hrange : r.InRange) :
    r.RoundTrips ↔ (r.device_id ≠ "" ∧ ',' ∉ r.device_id.toList) ∧
      (r.fence_id ≠ "" ∧ ',' ∉ r.fence_id.toList) ∧
      (r.event_type ≠ .DWELL → SixDigits r.lat ∧ SixDigits r.lon) := by
  unfold GeofenceEventRecord.RoundTrips
  by_cases hcomma : ',' ∈ r.device_id.toList ∨ ',' ∈ r.fence_id.toList
  · rw [decode_encode_geofence_of_comma hcomma]
    refine iff_of_false (fun h => by cases h) ?_
    rintro ⟨⟨-, hdevice⟩, ⟨-, hfence⟩, -⟩
    exact hcomma.elim hdevice hfence
  obtain ⟨hdevice, hfence⟩ := not_or.mp hcomma
  rw [and_iff_left hdevice, and_iff_left hfence]
  have hchecked : ∀ event : GeofenceEventRecord, event.device_id = r.device_id →
      event.fence_id = r.fence_id → (checked (.ok event) = .ok { r with fence_name := "" } ↔
        r.device_id ≠ "" ∧ r.fence_id ≠ "" ∧ event = { r with fence_name := "" }) := by
    intro event hd hf
    unfold checked
    dsimp only
    rw [hd, hf]
    split
    · refine iff_of_false (fun h => by cases h) ?_
      rintro ⟨hne, hne', -⟩
      exact ‹_ ∨ _›.elim hne hne'
    · obtain ⟨hne, hne'⟩ := not_or.mp ‹_›
      rw [Except.ok.injEq, and_iff_right hne, and_iff_right hne']
  rcases hshaped with ⟨htype, hlat, hlon, hduration⟩ | ⟨htype, hduration⟩
  · rw [decode_encode_duration hdevice hfence htype hrange hduration]
    refine (hchecked { r with fence_name := "", lat := 0, lon := 0 } rfl rfl).trans ?_
    refine and_congr_right fun _ => and_congr_right fun _ => iff_of_true ?_ fun h => absurd htype h
    rw [hlat, hlon]
  · rw [decode_encode_position hdevice hfence htype hrange, ← stod_ostreamDouble_eq_iff hrange.lat,
      ← stod_ostreamDouble_eq_iff hrange.lon, forall_prop_of_true htype]
    cases hlat : stod (ostreamDouble r.lat) with
    | error e =>
      refine iff_of_false (fun h => by cases h) ?_
      rintro ⟨-, -, h, -⟩
      cases h
    | ok lat =>
      cases hlon : stod (ostreamDouble r.lon) with
      | error e =>
        refine iff_of_false (fun h => by cases h) ?_
        rintro ⟨-, -, -, h⟩
        cases h
      | ok lon =>
        refine (hchecked { r with fence_name := "", lat, lon, inside_duration_s := 0 } rfl rfl).trans ?_
        refine and_congr_right fun _ => and_congr_right fun _ => ?_
        rw [Except.ok.injEq, Except.ok.injEq]
        constructor
        · intro h
          cases r
          cases h
          exact ⟨rfl, rfl⟩
        · rintro ⟨rfl, rfl⟩
          cases r
          dsimp only at hduration
          rw [hduration]

end Encoding

section Emission

open Interaction.Prog (always_bind always_forEach always_foldEach)

variable {faults : GeofenceFaults} {orders : ℕ → HashOrder} {event_topic : String} {s : FaultyStore}
  {base : List GeofenceEventRecord}

/-- The audit records are those from before and records with the fields of their kind. -/
def AddsShaped (base : List GeofenceEventRecord) (s : FaultyStore) : Prop :=
  ∀ r ∈ s.store.events, r ∈ base ∨ r.Shaped

/-- Publishing such a record adds no other. -/
theorem AddsShaped.publish (h : AddsShaped base s) {record : GeofenceEventRecord} (hrecord : record.Shaped) :
    (publish_event event_topic record).Always (FaultyStore.handler faults orders) (AddsShaped base)
      (fun _ => AddsShaped base) (fun _ => AddsShaped base) s := by
  have hinsert : AddsShaped base { tick := s.tick + 1, store :=
      { s.store with pg := s.store.pg.insert_geofence_event record } } := by
    intro r hr
    rcases List.mem_append.mp hr with hold | hnew
    · exact h r hold
    · exact .inr (List.mem_singleton.mp hnew ▸ hrecord)
  unfold publish_event
  simp only [Prog.bind_eq, always_bind, Prog.always_perform, Prog.always_ofExcept]
  simp only [FaultyStore.handler, FaultyStore.perform, GeofenceStore.perform]
  cases faults.insert_error s.tick with
  | some e => exact ⟨h, h⟩
  | none =>
    refine ⟨hinsert, ?_⟩
    dsimp only
    cases faults.produce_error (s.tick + 1) with
    | some e => exact ⟨hinsert, hinsert⟩
    | none =>
      refine ⟨hinsert, ?_⟩
      dsimp only
      split
      · exact hinsert
      · exact hinsert

/-- So does the evaluation of a candidate. -/
theorem AddsShaped.evaluate_fence (h : AddsShaped base s) (device_id : String) (lat lon : Double)
    (timestamp_ms : ℤ) (fence : GeofenceRule) :
    (Evaluator.evaluate_fence event_topic device_id lat lon timestamp_ms fence).Always
      (FaultyStore.handler faults orders) (AddsShaped base) (fun _ => AddsShaped base)
      (fun _ => AddsShaped base) s := by
  rw [Evaluator.evaluate_fence_eq, always_bind, Prog.always_perform]
  refine ⟨h, ?_⟩
  cases hcross : Evaluator.crossing (geo.point_in_polygon lat lon fence.polygon_vertices)
      (((FaultyStore.handler faults orders).run (.get_fence_state device_id fence.fence_id) s).1.getD
        .OUTSIDE) with
  | none => exact h
  | some event =>
    have hset : AddsShaped base ((FaultyStore.handler faults orders).run (.set_fence_state device_id
        fence.fence_id (stateAfter (some event)) timestamp_ms) s).2 := h
    rw [always_bind, Prog.always_perform]
    exact ⟨hset, hset.publish (.position (Evaluator.crossing_ne_dwell hcross) rfl)⟩

/-- A number cast to `int` is one. -/
theorem castInt_bounds (z : ℤ) : -2^31 ≤ castInt z ∧ castInt z < 2^31 := by
  have hlow := Int.le_bmod (x := z) (m := 2^32) (by decide)
  have hhigh := Int.bmod_lt (x := z) (m := 2^32) (by decide)
  unfold castInt
  constructor
  · omega
  · omega

/-- So does the check of a state. -/
theorem AddsShaped.check_state (h : AddsShaped base s) (registry : FenceRegistry) (config : GeofenceConfig)
    (now_ms transitioned : ℤ) (state : FenceStateRecord) :
    (DwellChecker.check_state registry config event_topic now_ms transitioned state).Always
      (FaultyStore.handler faults orders) (AddsShaped base) (fun _ => AddsShaped base)
      (fun _ => AddsShaped base) s := by
  unfold DwellChecker.check_state
  cases DwellChecker.due registry config now_ms state with
  | none => exact h
  | some fence =>
    have hrecord : (DwellChecker.make_dwell_record state fence now_ms).Shaped :=
      .duration rfl rfl rfl (castInt_bounds _)
    have hset : AddsShaped base ((FaultyStore.handler faults orders).run
        (.set_fence_state state.device_id state.fence_id .DWELL now_ms) s).2 := h
    simp only [Prog.bind_eq, always_bind, Prog.always_perform]
    exact ⟨hset, (hset.publish hrecord).imp (fun _ => id) (fun _ _ => id) fun _ _ => id⟩

/-- A record that is emitted has only the fields of its kind. -/
theorem GeofenceEventRecord.Emitted.shaped {r : GeofenceEventRecord} (h : r.Emitted) : r.Shaped := by
  have hstart : ∀ s : FaultyStore, AddsShaped s.store.events s := fun s r hr => .inl hr
  cases h with
  | evaluate registry order event_topic device_id old_h3 new_h3 lat lon timestamp_ms faults orders s hnew hr =>
    have hrun : (Evaluator.evaluate registry order event_topic device_id old_h3 new_h3 lat lon
        timestamp_ms).Always (FaultyStore.handler faults orders) (AddsShaped s.store.events)
          (fun _ => AddsShaped s.store.events) (fun _ => AddsShaped s.store.events) s := by
      unfold Evaluator.evaluate
      split
      · exact hstart s
      · exact always_forEach (fun _ => AddsShaped s.store.events) _
          (fun fence rest t ht => ht.evaluate_fence device_id lat lon timestamp_ms fence) _ _ (hstart s)
    exact (hrun.final r hr).resolve_left hnew
  | check_once registry config event_topic now_ms faults orders s hnew hr =>
    have hrun : (DwellChecker.check_once registry config event_topic now_ms).Always
        (FaultyStore.handler faults orders) (AddsShaped s.store.events)
          (fun _ => AddsShaped s.store.events) (fun _ => AddsShaped s.store.events) s := by
      unfold DwellChecker.check_once
      rw [Prog.bind_eq, always_bind, Prog.always_perform]
      refine ⟨hstart s, ?_⟩
      exact always_foldEach (fun _ _ => AddsShaped s.store.events) _
        (fun state rest transitioned t ht => ht.check_state registry config now_ms transitioned state) _ _
          _ (hstart s)
    exact (hrun.final r hr).resolve_left hnew

end Emission

section Grammar

variable {payload : String} {event : GeofenceEventRecord}

/-- An integer is read of a text to its end. -/
def ReadsInteger (read : String → Except ConversionError ℤ) (s : String) (z : ℤ) : Prop :=
  read s = .ok z ∧ integerRest s = []

/-- A double is read of a text to its end. -/
def ReadsDouble (s : String) (x : Double) : Prop := stod s = .ok x ∧ floatingRest s = []

/-- A payload is a record of its decoded event: the ids, the name of its type, a time that is read to
its end, and as many numerals as the type asks for, which are read to their ends. -/
def WellFormedEvent (payload : String) (event : GeofenceEventRecord) : Prop :=
  ∃ event_ts_ms numerals, (payload.toList.splitOn ',').map String.ofList = event.device_id ::
      event.fence_id :: geofence_event_type_to_string event.event_type :: event_ts_ms :: numerals ∧
    ReadsInteger stoll event_ts_ms event.event_ts_ms ∧
    if event.event_type = .DWELL then
      ∃ duration, numerals = [duration] ∧ ReadsInteger stoi duration event.inside_duration_s
    else ∃ lat lon, numerals = [lat, lon] ∧ ReadsDouble lat event.lat ∧ ReadsDouble lon event.lon

/-- The fields of a payload have no slack: the number of fields is that of the type, which is known,
and the numerals stand after blanks and a sign with nothing behind them. -/
def StrictEventFields : List String → Prop
  | [_, _, event_type, event_ts_ms, inside_duration_s] =>
    event_type = "DWELL" ∧ Signed IsDigits event_ts_ms.toList ∧ Signed IsDigits inside_duration_s.toList
  | [_, _, event_type, event_ts_ms, lat, lon] =>
    (event_type = "ENTER" ∨ event_type = "EXIT") ∧ Signed IsDigits event_ts_ms.toList ∧
      Signed IsFloat lat.toList ∧ Signed IsFloat lon.toList
  | _ => False

/-- A payload without slack: strict fields, and no separator at its end. -/
def StrictEvent (payload : String) : Prop :=
  payload.toList.getLast? ≠ some ',' ∧ StrictEventFields (geofence_payload.split_csv payload)

/-- The name of the type that a text stands for is the text where it is a name. -/
theorem type_to_string_from_string_iff (s : String) :
    geofence_event_type_to_string (geofence_event_type_from_string s) = s ↔
      s = "ENTER" ∨ s = "EXIT" ∨ s = "DWELL" := by
  unfold geofence_event_type_from_string
  by_cases hexit : s = "EXIT"
  · simp [hexit, geofence_event_type_to_string]
  · by_cases hdwell : s = "DWELL"
    · simp [hdwell, geofence_event_type_to_string]
    · simp [hexit, hdwell, geofence_event_type_to_string, eq_comm]

/-- Only its name stands for a dwell. -/
theorem from_string_eq_dwell_iff (s : String) : geofence_event_type_from_string s = .DWELL ↔ s = "DWELL" := by
  unfold geofence_event_type_from_string
  by_cases hexit : s = "EXIT"
  · simp [hexit]
  · by_cases hdwell : s = "DWELL"
    · simp [hdwell]
    · simp [hexit, hdwell]

/-- The ids of an event that is returned are there. -/
theorem of_checked {result : Except ConversionError GeofenceEventRecord} (h : checked result = .ok event) :
    result = .ok event := by
  cases result with
  | error e => cases h
  | ok decoded =>
    unfold checked at h
    dsimp only at h
    split at h
    · cases h
    · cases h
      rfl

/-- The fields of a payload that the decoder accepts, and what it makes of them. -/
theorem fields_of_decode_event (h : decode_csv_geofence_event_payload payload = .ok event) :
    ∃ event_type event_ts_ms, event.event_type = geofence_event_type_from_string event_type ∧
      stoll event_ts_ms = .ok event.event_ts_ms ∧
      ((∃ inside_duration_s, geofence_payload.split_csv payload =
          [event.device_id, event.fence_id, event_type, event_ts_ms, inside_duration_s] ∧
        stoi inside_duration_s = .ok event.inside_duration_s) ∨
      ∃ lat lon, geofence_payload.split_csv payload =
          [event.device_id, event.fence_id, event_type, event_ts_ms, lat, lon] ∧
        stod lat = .ok event.lat ∧ stod lon = .ok event.lon) := by
  unfold decode_csv_geofence_event_payload at h
  split at h
  · rename_i device_id fence_id event_type event_ts_ms inside_duration_s hsplit
    have hdecoded := of_checked h
    unfold event_of_duration at hdecoded
    obtain ⟨t, htime, hdecoded⟩ := exists_of_bind_eq_ok hdecoded
    obtain ⟨d, hduration, hdecoded⟩ := exists_of_bind_eq_ok hdecoded
    cases hdecoded
    exact ⟨event_type, event_ts_ms, rfl, htime, .inl ⟨inside_duration_s, hsplit, hduration⟩⟩
  · rename_i device_id fence_id event_type event_ts_ms lat lon hsplit
    have hdecoded := of_checked h
    unfold event_of_position at hdecoded
    obtain ⟨t, htime, hdecoded⟩ := exists_of_bind_eq_ok hdecoded
    obtain ⟨x, hlat, hdecoded⟩ := exists_of_bind_eq_ok hdecoded
    obtain ⟨y, hlon, hdecoded⟩ := exists_of_bind_eq_ok hdecoded
    cases hdecoded
    exact ⟨event_type, event_ts_ms, rfl, htime, .inr ⟨lat, lon, hsplit, hlat, hlon⟩⟩
  · cases h

/-- A well-formed payload that the decoder accepts has no separator at its end: there would be a field
too few, or the last numeral would be empty. -/
theorem WellFormedEvent.no_trailing (h : WellFormedEvent payload event)
    (hlength : (geofence_payload.split_csv payload).length = 5 ∨
      (geofence_payload.split_csv payload).length = 6) : payload.toList.getLast? ≠ some ',' := by
  intro htrailing
  have hpieces := length_splitOn_of_trailing htrailing
  have htext : payload.toList ≠ [] := by
    intro hnil
    rw [hnil] at htrailing
    cases htrailing
  have hlast := (getLast?_splitOn_iff ',' htext).mpr htrailing
  change _ = (geofence_payload.split_csv payload).length + 1 at hpieces
  obtain ⟨event_ts_ms, numerals, hsplit, -, hnumerals⟩ := h
  have hempty : ((payload.toList.splitOn ',').map String.ofList).getLast? = some "" := by
    rw [List.getLast?_map, hlast]
    rfl
  rw [← List.length_map (f := String.ofList), hsplit] at hpieces
  rw [hsplit] at hempty
  split at hnumerals
  · obtain ⟨duration, rfl, -⟩ := hnumerals
    simp only [List.length_cons, List.length_nil] at hpieces
    omega
  · obtain ⟨lat, lon, rfl, -, hlon, -⟩ := hnumerals
    obtain rfl : lon = "" := by simpa using hempty
    have : stod "" = .error .invalid_argument := by decide +kernel
    rw [this] at hlon
    cases hlon

/-- A payload that the decoder accepts is well formed exactly if it has no slack. -/
theorem decode_event_wellFormed_iff (h : decode_csv_geofence_event_payload payload = .ok event) :
    WellFormedEvent payload event ↔ StrictEvent payload := by
  obtain ⟨event_type, event_ts_ms, htype, htime, hfields⟩ := fields_of_decode_event h
  obtain ⟨r, hread⟩ : ∃ r, readInteger event_ts_ms = .ok r := by
    obtain ⟨r, hread, -⟩ := exists_of_bind_eq_ok htime
    exact ⟨r, hread⟩
  have hlength : (geofence_payload.split_csv payload).length = 5 ∨
      (geofence_payload.split_csv payload).length = 6 := by
    rcases hfields with ⟨_, hsplit, -⟩ | ⟨_, _, hsplit, -, -⟩
    · exact .inl (congrArg List.length hsplit)
    · exact .inr (congrArg List.length hsplit)
  have hpieces : payload.toList.getLast? ≠ some ',' →
      (payload.toList.splitOn ',').map String.ofList = geofence_payload.split_csv payload := by
    intro hend
    rw [splitOn_eq_fields (List.ne_nil_of_length_pos (show 0 < (geofence_payload.split_csv payload).length
      by omega)) hend, List.map_map]
    exact List.map_id'' (fun s => String.ofList_toList) _
  have hdwell : event.event_type = .DWELL ↔ event_type = "DWELL" := by
    rw [htype]
    exact from_string_eq_dwell_iff event_type
  have hname : geofence_event_type_to_string event.event_type = event_type ↔
      event_type = "ENTER" ∨ event_type = "EXIT" ∨ event_type = "DWELL" := by
    rw [htype]
    exact type_to_string_from_string_iff event_type
  have hstart : ∀ {numerals : List String}, geofence_payload.split_csv payload =
      event.device_id :: event.fence_id :: event_type :: event_ts_ms :: numerals →
      (WellFormedEvent payload event ↔ payload.toList.getLast? ≠ some ',' ∧
        geofence_event_type_to_string event.event_type = event_type ∧ integerRest event_ts_ms = [] ∧
        if event.event_type = .DWELL then
          ∃ duration, numerals = [duration] ∧ ReadsInteger stoi duration event.inside_duration_s
        else ∃ lat lon, numerals = [lat, lon] ∧ ReadsDouble lat event.lat ∧ ReadsDouble lon event.lon) := by
    intro numerals hsplit
    constructor
    · intro hw
      have hend := hw.no_trailing hlength
      obtain ⟨ts, numerals', hs, ⟨-, hrest⟩, hnumerals⟩ := hw
      rw [hpieces hend, hsplit] at hs
      simp only [List.cons.injEq] at hs
      obtain ⟨-, -, hs, rfl, rfl⟩ := hs
      exact ⟨hend, hs.symm, hrest, hnumerals⟩
    · rintro ⟨hend, hs, hrest, hnumerals⟩
      refine ⟨event_ts_ms, numerals, ?_, ⟨htime, hrest⟩, hnumerals⟩
      rw [hpieces hend, hsplit, hs]
  rcases hfields with ⟨duration, hsplit, hduration⟩ | ⟨lat, lon, hsplit, hlat, hlon⟩
  · obtain ⟨d, hread_duration, -⟩ := exists_of_bind_eq_ok hduration
    unfold StrictEvent
    rw [hstart hsplit, hsplit]
    refine and_congr_right fun _ => ?_
    show _ ↔ event_type = "DWELL" ∧ Signed IsDigits event_ts_ms.toList ∧ Signed IsDigits duration.toList
    rw [← integerRest_eq_nil_iff hread, ← integerRest_eq_nil_iff hread_duration, hname]
    by_cases hkind : event.event_type = .DWELL
    · simp [hkind, hdwell.mp hkind, ReadsInteger, hduration]
    · simp [hkind, mt hdwell.mpr hkind]
  · unfold StrictEvent
    rw [hstart hsplit, hsplit]
    refine and_congr_right fun _ => ?_
    show _ ↔ (event_type = "ENTER" ∨ event_type = "EXIT") ∧ Signed IsDigits event_ts_ms.toList ∧
      Signed IsFloat lat.toList ∧ Signed IsFloat lon.toList
    rw [← integerRest_eq_nil_iff hread, ← floatingRest_eq_nil_iff hlat, ← floatingRest_eq_nil_iff hlon,
      hname]
    by_cases hkind : event.event_type = .DWELL
    · simp [hkind, hdwell.mp hkind]
    · simp [hkind, mt hdwell.mpr hkind, ReadsDouble, hlat, hlon]

end Grammar

/-- A record that the evaluator or the dwell checker emits comes back but for its fence's name exactly if
its ids are there and have no comma and its coordinates, unless it is of a dwell, are six-digit numbers.
A payload that the decoder accepts is a record of its type, read to the ends of its fields, exactly if it
has no slack. -/
theorem geofence_codec_iff (r : GeofenceEventRecord) (hemitted : r.Emitted) (hrange : r.InRange) :
    (r.RoundTrips ↔ (r.device_id ≠ "" ∧ ',' ∉ r.device_id.toList) ∧
      (r.fence_id ≠ "" ∧ ',' ∉ r.fence_id.toList) ∧
      (r.event_type ≠ .DWELL → SixDigits r.lat ∧ SixDigits r.lon)) ∧
    ∀ payload event, decode_geofence_event_payload payload = .ok event →
      (WellFormedEvent payload event ↔ StrictEvent payload) :=
  ⟨roundTrips_iff hemitted.shaped hrange, fun _ _ hdecode => decode_event_wellFormed_iff hdecode⟩

/-- The record of a device that enters the unit square. -/
def unitRecord (lat lon : ℚ) : GeofenceEventRecord :=
  Evaluator.make_event_record "d" unitFence .ENTER (.finite lat) (.finite lon) 1000

theorem unitRecord_inRange {lat lon : ℚ} (hlat : |lat| < 2^1024) (hlon : |lon| < 2^1024) :
    (unitRecord lat lon).InRange := by
  refine ⟨(by decide : (-2^63 : ℤ) ≤ 1000 ∧ (1000 : ℤ) < 2^63), ?_, ?_⟩
  · rintro q hq
    exact Double.finite.inj hq ▸ hlat
  · rintro q hq
    exact Double.finite.inj hq ▸ hlon

/-- The evaluation of the device emits it. -/
theorem unitRecord_emitted {lat lon : ℚ} (h : unitRecord lat lon ∈ (FaultyStore.after {}
    (fun _ => .insertion) (Evaluator.evaluate unitRegistry .insertion "tm.geofence.events" "d" 0 1
      (.finite lat) (.finite lon) 1000) {}).events) : (unitRecord lat lon).Emitted :=
  .evaluate unitRegistry .insertion "tm.geofence.events" "d" 0 1 (.finite lat) (.finite lon) 1000 {}
    (fun _ => .insertion) {} List.not_mem_nil h

/-- In the middle of the square, the record comes back, and its payload is well formed. -/
theorem geofence_codec_iff_unit : (unitRecord (1 / 2) (1 / 2)).RoundTrips ∧
    WellFormedEvent "d,f,ENTER,1000,0.5,0.5" { unitRecord (1 / 2) (1 / 2) with fence_name := "" } := by
  have hsix : SixDigits (.finite (1 / 2)) := by
    rintro q hq
    rw [← Double.finite.inj hq]
    exact ⟨⟨5, -1, by norm_num, by decide +kernel⟩, fun h => absurd h.2 (by decide +kernel)⟩
  obtain ⟨hrecord, hpayloads⟩ := geofence_codec_iff (unitRecord (1 / 2) (1 / 2))
    (unitRecord_emitted (by decide +kernel)) (unitRecord_inRange (by decide +kernel) (by decide +kernel))
  have hpayload := hpayloads "d,f,ENTER,1000,0.5,0.5"
    { unitRecord (1 / 2) (1 / 2) with fence_name := "" } (by decide +kernel)
  refine ⟨hrecord.mpr ⟨⟨by decide, by decide⟩, ⟨by decide, by decide⟩, fun _ => ⟨hsix, hsix⟩⟩,
    hpayload.mpr ⟨by decide, ?_⟩⟩
  have hsplit : geofence_payload.split_csv "d,f,ENTER,1000,0.5,0.5" =
      ["d", "f", "ENTER", "1000", "0.5", "0.5"] := by decide +kernel
  have htime : Signed IsDigits "1000".toList :=
    (integerRest_eq_nil_iff (r := (false, 1000)) (by decide +kernel)).mp (by decide +kernel)
  have hdegrees : Signed IsFloat "0.5".toList :=
    (floatingRest_eq_nil_iff (show readFloating .double "0.5" = .ok (.finite (1 / 2)) by decide +kernel)).mp
      (by decide +kernel)
  rw [hsplit]
  exact ⟨.inl rfl, htime, hdegrees, hdegrees⟩

/-- Nearer to the edge, its latitude has more digits than are printed; and a payload of an unknown type is
taken for one of a device that enters. -/
theorem geofence_codec_fails :
    ((unitRecord (1281 / 2048) (1 / 2)).Emitted ∧ (unitRecord (1281 / 2048) (1 / 2)).InRange ∧
      ¬(unitRecord (1281 / 2048) (1 / 2)).RoundTrips) ∧
    ∃ event, decode_geofence_event_payload "d,f,LEFT,1000,1,2" = .ok event ∧ event.event_type = .ENTER ∧
      ¬WellFormedEvent "d,f,LEFT,1000,1,2" event := by
  refine ⟨⟨unitRecord_emitted (by decide +kernel), unitRecord_inRange (by decide +kernel) (by decide +kernel), ?_⟩, ?_⟩
  · unfold GeofenceEventRecord.RoundTrips
    decide +kernel
  · refine ⟨{ device_id := "d", fence_id := "f", fence_name := "", event_type := .ENTER, lat := .finite 1,
              lon := .finite 2, event_ts_ms := 1000 }, by decide +kernel, rfl, ?_⟩
    rintro ⟨event_ts_ms, numerals, hfields, -⟩
    have hpieces : ("d,f,LEFT,1000,1,2".toList.splitOn ',').map String.ofList =
        ["d", "f", "LEFT", "1000", "1", "2"] := by decide +kernel
    rw [hpieces] at hfields
    simp [geofence_event_type_to_string] at hfields

end SignalRoute
