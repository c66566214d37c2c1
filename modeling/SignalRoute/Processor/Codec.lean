import SignalRoute.Numeric.Text
import SignalRoute.Spatial.H3Index

/-!
# Location payloads (CSV build)

`src/common/proto/location_payload_codec.cpp` without protobuf, with the wire conversion of
`domain_conversions.cpp` that it could be compared with. The two disagree on the coordinates: the
wire conversion checks them (`location_event_from_wire_isOk_iff`), the decoder does not.
-/

namespace SignalRoute

open Numeric (Double stoull stoll stod ostreamDouble)

/-- The pieces that `std::getline` reads from a text up to each separator. There is no piece after a
separator at the end. -/
def getlines (separator : Char) (cs : List Char) : List (List Char) :=
  let pieces := cs.splitOn separator
  if pieces.getLast? = some [] then pieces.dropLast else pieces

/-- Pieces after separators are split off one by one. -/
theorem splitOn_flatMap (separator : Char) (first : List Char) (fields : List (List Char))
    (h : ∀ f ∈ fields, separator ∉ f) :
    (first ++ fields.flatMap (separator :: ·)).splitOn separator = first.splitOn separator ++ fields := by
  induction fields generalizing first with
  | nil => simp
  | cons f fields ih =>
    obtain ⟨hf, hfields⟩ := List.forall_mem_cons.mp h
    rw [List.flatMap_cons, ← List.append_assoc, ih _ hfields, List.splitOn_append_cons_self,
      List.splitOn_eq_singleton hf, List.append_assoc, List.singleton_append]

/-- The pieces of fields with a separator between them, the last of which is not empty. -/
theorem getlines_flatMap (separator : Char) (first : List Char) (fields : List (List Char)) (last : List Char)
    (h : ∀ f ∈ fields ++ [last], separator ∉ f) (hlast : last ≠ []) :
    getlines separator (first ++ (fields ++ [last]).flatMap (separator :: ·)) =
      first.splitOn separator ++ (fields ++ [last]) := by
  unfold getlines
  dsimp only
  rw [splitOn_flatMap separator first _ h, ← List.append_assoc, List.getLast?_concat, if_neg]
  exact fun heq => hlast (Option.some.inj heq)

/-- A text with a separator has two pieces at least. -/
theorem two_le_length_splitOn {separator : Char} {cs : List Char} (h : separator ∈ cs) :
    2 ≤ (cs.splitOn separator).length := by
  obtain ⟨before, after, rfl⟩ := List.append_of_mem h
  rw [List.splitOn_append_cons_self, List.length_append]
  have hbefore := List.length_pos_iff.mpr (List.splitOn_ne_nil separator before)
  have hafter := List.length_pos_iff.mpr (List.splitOn_ne_nil separator after)
  omega

/-- A piece is a part of the text without a separator. -/
theorem piece_of_mem_splitOn {separator : Char} {cs piece : List Char} (h : piece ∈ cs.splitOn separator) :
    separator ∉ piece ∧ piece ⊆ cs := by
  induction cs generalizing piece with
  | nil =>
    rw [List.splitOn_nil, List.mem_singleton] at h
    rw [h]
    exact ⟨List.not_mem_nil, List.nil_subset _⟩
  | cons c cs ih =>
    have hlater : ∀ {piece}, piece ∈ cs.splitOn separator → separator ∉ piece ∧ piece ⊆ c :: cs :=
      fun hpiece => ⟨(ih hpiece).1, List.subset_cons_of_subset c (ih hpiece).2⟩
    rw [List.splitOn_cons_eq_if_modifyHead] at h
    split at h
    · rcases List.mem_cons.mp h with rfl | h
      · exact ⟨List.not_mem_nil, List.nil_subset _⟩
      · exact hlater h
    · rename_i hne
      -- The character belongs to the first piece.
      cases hsplit : cs.splitOn separator with
      | nil => exact absurd hsplit (List.splitOn_ne_nil separator cs)
      | cons first rest =>
        rw [hsplit] at h hlater
        rcases List.mem_cons.mp h with rfl | h
        · obtain ⟨hfirst, hsubset⟩ := hlater List.mem_cons_self
          refine ⟨fun hmem => ?_, List.cons_subset.mpr ⟨List.mem_cons_self, hsubset⟩⟩
          rcases List.mem_cons.mp hmem with rfl | hmem
          · exact hne (beq_self_eq_true _)
          · exact hfirst hmem
        · exact hlater (List.mem_cons_of_mem _ h)

/-- The last piece is empty where the text is empty or ends with a separator. -/
theorem getLast?_splitOn_iff (separator : Char) {cs : List Char} (hne : cs ≠ []) :
    (cs.splitOn separator).getLast? = some [] ↔ cs.getLast? = some separator := by
  by_cases hmem : separator ∈ cs
  · -- The text is cut at its last separator.
    obtain ⟨after, before, hreverse, hafter⟩ :=
      List.eq_append_cons_of_mem (List.mem_reverse.mpr hmem)
    have hcs : cs = before.reverse ++ separator :: after.reverse := by
      rw [← cs.reverse_reverse, hreverse]
      simp
    rw [hcs, List.splitOn_append_cons_self,
      List.splitOn_eq_singleton (mt List.mem_reverse.mp hafter), List.getLast?_concat]
    cases after with
    | nil => simp
    | cons c after =>
      have hc : c ≠ separator := fun h => hafter (h ▸ List.mem_cons_self)
      rw [List.reverse_cons, ← List.cons_append, ← List.append_assoc, List.getLast?_concat]
      simpa using hc
  · rw [List.splitOn_eq_singleton hmem]
    refine iff_of_false ?_ fun hlast => hmem (List.mem_of_getLast? hlast)
    simpa using hne

/-- `split_csv`. -/
def split_csv (payload : String) : List String :=
  (getlines ',' payload.toList).map String.ofList

/-- The fields of a payload as an event: the body of the `try`, whose conversions throw. -/
def event_of_fields (device_id seq timestamp_ms server_recv_ms lat lon : String) :
    Except Numeric.ConversionError LocationEvent := do
  let seq ← stoull seq
  let timestamp_ms ← stoll timestamp_ms
  let server_recv_ms ← stoll server_recv_ms
  let lat ← stod lat
  let lon ← stod lon
  return { device_id, seq, timestamp_ms, server_recv_ms, lat, lon }

/-- `decode_csv_location_payload`. -/
def decode_csv_location_payload (payload : String) : Except String LocationEvent :=
  match split_csv payload with
  | [device_id, seq, timestamp_ms, server_recv_ms, lat, lon] =>
    match event_of_fields device_id seq timestamp_ms server_recv_ms lat lon with
    | .ok event =>
      if event.device_id = "" then .error "device_id is required" else .ok event
    | .error _ => .error "invalid location payload"
  | _ => .error "invalid location payload"

/-- `decode_location_payload`. -/
def decode_location_payload (payload : String) : Except String LocationEvent :=
  decode_csv_location_payload payload

/-- `encode_csv_location_payload`. -/
def encode_csv_location_payload (event : LocationEvent) : String :=
  event.device_id ++ "," ++ toString event.seq ++ "," ++ toString event.timestamp_ms ++ "," ++
    toString event.server_recv_ms ++ "," ++ ostreamDouble event.lat ++ "," ++
    ostreamDouble event.lon

/-- `encode_location_payload`. -/
def encode_location_payload (event : LocationEvent) : String := encode_csv_location_payload event

/-- `serialize_dlq_payload`, which is `encode_csv_location_payload` written a second time. -/
def serialize_dlq_payload (event : LocationEvent) : String :=
  event.device_id ++ "," ++ toString event.seq ++ "," ++ toString event.timestamp_ms ++ "," ++
    toString event.server_recv_ms ++ "," ++ ostreamDouble event.lat ++ "," ++
    ostreamDouble event.lon

/-- `location_event_from_wire`; the wire message has the fields of the event. -/
def location_event_from_wire (message : LocationEvent) : Except String LocationEvent :=
  if message.device_id = "" then .error "device_id is required"
  else if !valid_lat_lon message.lat message.lon then .error "invalid coordinates"
  else .ok message

/-- The decoder accepts no event without a device id. -/
theorem device_id_of_decode {payload : String} {event : LocationEvent}
    (h : decode_location_payload payload = .ok event) : event.device_id ≠ "" := by
  unfold decode_location_payload decode_csv_location_payload at h
  split at h
  · split at h
    · split at h
      · cases h
      · cases h
        assumption
    · cases h
  · cases h

/-- The wire conversion accepts an event exactly when it has a device id and valid coordinates. -/
theorem location_event_from_wire_isOk_iff (message : LocationEvent) :
    (location_event_from_wire message).isOk = true ↔
      message.device_id ≠ "" ∧ valid_lat_lon message.lat message.lon = true := by
  unfold location_event_from_wire
  by_cases hd : message.device_id = ""
  · simp [hd, Except.isOk, Except.toBool]
  · cases hv : valid_lat_lon message.lat message.lon <;> simp [hd, Except.isOk, Except.toBool]

/-- The text `nan` is a double for `std::stod`, so it passes the decoder as a latitude. -/
example : (decode_location_payload "d,1,1,1,nan,0").map LocationEvent.lat = .ok .nan := by
  decide +kernel

end SignalRoute
