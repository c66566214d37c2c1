import SignalRoute.Gateway.Validator
import SignalRoute.Numeric.Reread
import SignalRoute.Processor.Codec

/-!
# Location payloads from the gateway to the processor

What the processor decodes of an event that the gateway has encoded. The id and the integers come
back, unless the id has a comma in it, which makes more fields of it; a coordinate comes back if six
significant digits are enough for it. So an event makes the round trip exactly if its id has no
comma and both coordinates are doubles that are nearest to a six-digit number (`round_trips_iff`).
-/

namespace SignalRoute

open Numeric

variable {event : LocationEvent}

/-- The fields of an encoded event, where a comma in the id makes more of it. -/
theorem split_csv_encode (event : LocationEvent) :
    split_csv (encode_location_payload event) =
      (event.device_id.toList.splitOn ',').map String.ofList ++
        [toString event.seq, toString event.timestamp_ms, toString event.server_recv_ms,
          ostreamDouble event.lat, ostreamDouble event.lon] := by
  have hfields : ∀ f ∈ [(toString event.seq).toList, (toString event.timestamp_ms).toList,
      (toString event.server_recv_ms).toList, (ostreamDouble event.lat).toList] ++
        [(ostreamDouble event.lon).toList], ',' ∉ f := by
    simp only [List.cons_append, List.nil_append, List.forall_mem_cons]
    exact ⟨comma_notMem_int event.seq, comma_notMem_int _, comma_notMem_int _, comma_notMem_double _,
      comma_notMem_double _, nofun⟩
  have hlines := getlines_flatMap ',' event.device_id.toList _ _ hfields (ostreamDouble_ne_nil event.lon)
  have htext : (encode_location_payload event).toList = event.device_id.toList ++
      ([(toString event.seq).toList, (toString event.timestamp_ms).toList,
        (toString event.server_recv_ms).toList, (ostreamDouble event.lat).toList] ++
          [(ostreamDouble event.lon).toList]).flatMap (',' :: ·) := by
    unfold encode_location_payload encode_csv_location_payload
    simp [String.toList_append]
  unfold split_csv
  rw [htext, hlines, List.map_append]
  simp only [List.map_cons, List.map_nil, String.ofList_toList, List.cons_append,
    List.nil_append]

/-- The integers of an event are in the ranges of their types. -/
structure LocationEvent.InRange (event : LocationEvent) : Prop where
  seq : event.seq < 2^64
  timestamp_ms : -2^63 ≤ event.timestamp_ms ∧ event.timestamp_ms < 2^63
  server_recv_ms : -2^63 ≤ event.server_recv_ms ∧ event.server_recv_ms < 2^63

/-- An event whose id has a comma does not decode. -/
theorem decode_encode_of_comma (hcomma : ',' ∈ event.device_id.toList) :
    decode_location_payload (encode_location_payload event) = .error "invalid location payload" := by
  have hsplit := split_csv_encode event
  have hlength := two_le_length_splitOn hcomma
  unfold decode_location_payload decode_csv_location_payload
  rw [hsplit]
  split
  · rename_i heq
    have := congrArg List.length heq
    simp only [List.length_append, List.length_map, List.length_cons, List.length_nil] at this
    omega
  · rfl

/-- An event whose id has no comma decodes if its coordinates are read back. -/
theorem decode_encode_of_stod {lat lon : Double} (hrange : event.InRange) (hid : event.device_id ≠ "")
    (hcomma : ',' ∉ event.device_id.toList) (hlat : stod (ostreamDouble event.lat) = .ok lat)
    (hlon : stod (ostreamDouble event.lon) = .ok lon) :
    decode_location_payload (encode_location_payload event) = .ok
      { device_id := event.device_id, seq := event.seq, timestamp_ms := event.timestamp_ms,
        server_recv_ms := event.server_recv_ms, lat, lon } := by
  unfold decode_location_payload decode_csv_location_payload
  rw [split_csv_encode, List.splitOn_eq_singleton hcomma, List.map_singleton, String.ofList_toList]
  have hfields : event_of_fields event.device_id (toString event.seq) (toString event.timestamp_ms)
      (toString event.server_recv_ms) (ostreamDouble event.lat) (ostreamDouble event.lon) = .ok
        { device_id := event.device_id, seq := event.seq, timestamp_ms := event.timestamp_ms,
          server_recv_ms := event.server_recv_ms, lat, lon } := by
    unfold event_of_fields
    rw [stoull_toString hrange.seq, stoll_toString hrange.timestamp_ms, stoll_toString hrange.server_recv_ms,
      hlat, hlon]
    rfl
  dsimp only [List.singleton_append]
  rw [hfields]
  exact if_neg hid

/-- An event with a coordinate that is not read back does not decode. -/
theorem decode_encode_of_stod_error {e : ConversionError} (hrange : event.InRange)
    (hcomma : ',' ∉ event.device_id.toList)
    (hlat_or_lon : stod (ostreamDouble event.lat) = .error e ∨
      (∃ lat, stod (ostreamDouble event.lat) = .ok lat) ∧ stod (ostreamDouble event.lon) = .error e) :
    decode_location_payload (encode_location_payload event) = .error "invalid location payload" := by
  have hfields : event_of_fields event.device_id (toString event.seq) (toString event.timestamp_ms)
      (toString event.server_recv_ms) (ostreamDouble event.lat) (ostreamDouble event.lon) = .error e := by
    unfold event_of_fields
    rw [stoull_toString hrange.seq, stoll_toString hrange.timestamp_ms, stoll_toString hrange.server_recv_ms]
    rcases hlat_or_lon with hlat | ⟨⟨lat, hlat⟩, hlon⟩
    · rw [hlat]
      rfl
    · rw [hlat, hlon]
      rfl
  unfold decode_location_payload decode_csv_location_payload
  rw [split_csv_encode, List.splitOn_eq_singleton hcomma, List.map_singleton, String.ofList_toList]
  dsimp only [List.singleton_append]
  rw [hfields]

/-- An event whose payload does not decode: there is a comma in its id, or a coordinate is so small
that its text is out of range. -/
def LocationEvent.Unreadable (event : LocationEvent) : Prop :=
  ',' ∈ event.device_id.toList ∨ Tiny event.lat.toRat ∨ Tiny event.lon.toRat

/-- What the payload of an event tells: the identity and the times, and the position as its six digits
are read. -/
def LocationEvent.told (event : LocationEvent) : LocationEvent where
  device_id := event.device_id
  lat := .finite (reread event.lat.toRat)
  lon := .finite (reread event.lon.toRat)
  timestamp_ms := event.timestamp_ms
  server_recv_ms := event.server_recv_ms
  seq := event.seq

/-- A coordinate of a valid event is read back. -/
theorem stod_coordinate {x : Double} {q bound : ℚ} (hx : x = .finite q) (hlo : -bound ≤ q) (hhi : q ≤ bound)
    (hbound : bound < 2^1024) (htiny : ¬Tiny x.toRat) :
    stod (ostreamDouble x) = .ok (.finite (reread x.toRat)) := by
  subst hx
  exact stod_ostreamDouble_ok htiny ((abs_le.mpr ⟨hlo, hhi⟩).trans_lt hbound)

/-- A coordinate is told as it is exactly if six digits are enough for it. -/
theorem told_coordinate_iff {x : Double} {q : ℚ} (hx : x = .finite q) :
    .finite (reread x.toRat) = x ↔ SixDigit x.toRat := by
  subst hx
  rw [Double.finite.injEq, Double.toRat_finite]
  exact reread_eq_iff

/-- What the decoder makes of an encoded event. -/
theorem decode_encode_cases {config : GatewayConfig} {now_ms : ℤ} (hvalid : event.Valid config now_ms)
    (hrange : event.InRange) :
    event.Unreadable ∧
        decode_location_payload (encode_location_payload event) = .error "invalid location payload" ∨
      ¬event.Unreadable ∧ decode_location_payload (encode_location_payload event) = .ok event.told := by
  obtain ⟨x, hx, hx_lo, hx_hi⟩ := hvalid.lat
  obtain ⟨y, hy, hy_lo, hy_hi⟩ := hvalid.lon
  have hbounds : (90 : ℚ) < 2^1024 ∧ (180 : ℚ) < 2^1024 := by decide +kernel
  -- The fields convert in order, so the longitude matters only if the latitude is read.
  by_cases hcomma : ',' ∈ event.device_id.toList
  · exact .inl ⟨.inl hcomma, decode_encode_of_comma hcomma⟩
  by_cases hlat : Tiny event.lat.toRat
  · have hfails : stod (ostreamDouble event.lat) = .error .out_of_range := by
      rw [hx] at hlat ⊢
      exact stod_ostreamDouble_tiny hlat
    exact .inl ⟨.inr (.inl hlat), decode_encode_of_stod_error hrange hcomma (.inl hfails)⟩
  have hlat_read := stod_coordinate hx hx_lo hx_hi hbounds.1 hlat
  by_cases hlon : Tiny event.lon.toRat
  · have hfails : stod (ostreamDouble event.lon) = .error .out_of_range := by
      rw [hy] at hlon ⊢
      exact stod_ostreamDouble_tiny hlon
    exact .inl ⟨.inr (.inr hlon),
      decode_encode_of_stod_error hrange hcomma (.inr ⟨⟨_, hlat_read⟩, hfails⟩)⟩
  have hlon_read := stod_coordinate hy hy_lo hy_hi hbounds.2 hlon
  refine .inr ⟨?_, ?_⟩
  · rintro (h | h | h)
    · exact hcomma h
    · exact hlat h
    · exact hlon h
  · exact decode_encode_of_stod hrange hvalid.device_id hcomma hlat_read hlon_read

/-- The identity, the times and the position of an event come back. -/
def LocationEvent.RoundTrips (event : LocationEvent) : Prop :=
  ∃ decoded, decode_location_payload (encode_location_payload event) = .ok decoded ∧
    decoded.device_id = event.device_id ∧ decoded.seq = event.seq ∧
    decoded.timestamp_ms = event.timestamp_ms ∧ decoded.server_recv_ms = event.server_recv_ms ∧
    decoded.lat = event.lat ∧ decoded.lon = event.lon

/-- An event that the validator accepts makes the round trip exactly if its id has no comma and its
coordinates are doubles nearest to numbers with at most six significant digits, and not tiny. -/
theorem round_trips_iff (config : GatewayConfig) (now_ms : ℤ) (event : LocationEvent)
    (hok : validate config now_ms event = .ok ()) (hrange : event.InRange) :
    event.RoundTrips ↔ ',' ∉ event.device_id.toList ∧
      (SixDigit event.lat.toRat ∧ ¬Tiny event.lat.toRat) ∧
      (SixDigit event.lon.toRat ∧ ¬Tiny event.lon.toRat) := by
  have hvalid := validate_eq_ok_iff.mp hok
  obtain ⟨x, hx, -⟩ := hvalid.lat
  obtain ⟨y, hy, -⟩ := hvalid.lon
  have hlat := told_coordinate_iff hx
  have hlon := told_coordinate_iff hy
  unfold LocationEvent.RoundTrips
  rcases decode_encode_cases hvalid hrange with ⟨hunreadable, hdecode⟩ | ⟨hreadable, hdecode⟩
  · -- Nothing comes back of what is not readable.
    refine iff_of_false ?_ ?_
    · rintro ⟨decoded, hdecoded, -⟩
      rw [hdecode] at hdecoded
      cases hdecoded
    · rintro ⟨hcomma, ⟨-, hlat⟩, -, hlon⟩
      exact hunreadable.elim hcomma (Or.rec hlat hlon)
  · rw [hdecode]
    obtain ⟨hcomma, hlat_tiny, hlon_tiny⟩ := (not_or.trans (and_congr_right fun _ => not_or)).mp hreadable
    constructor
    · rintro ⟨decoded, hdecoded, -, -, -, -, hlat_eq, hlon_eq⟩
      cases hdecoded
      exact ⟨hcomma, ⟨hlat.mp hlat_eq, hlat_tiny⟩, hlon.mp hlon_eq, hlon_tiny⟩
    · rintro ⟨-, ⟨hlat_six, -⟩, hlon_six, -⟩
      exact ⟨_, rfl, rfl, rfl, rfl, rfl, hlat.mpr hlat_six, hlon.mpr hlon_six⟩

/-- An event at 10.0078125 degrees north. -/
def precise_event : LocationEvent where
  device_id := "d"
  lat := .finite (1281 / 128)
  timestamp_ms := 1000
  server_recv_ms := 1000
  seq := 1

/-- The validator accepts it. -/
theorem round_trips_iff_precise : precise_event.RoundTrips ↔
    ',' ∉ precise_event.device_id.toList ∧
      (SixDigit precise_event.lat.toRat ∧ ¬Tiny precise_event.lat.toRat) ∧
      (SixDigit precise_event.lon.toRat ∧ ¬Tiny precise_event.lon.toRat) :=
  round_trips_iff {} 1000 precise_event (by decide +kernel) ⟨by decide, by decide, by decide⟩

/-- It comes back at 10.0078 degrees. -/
theorem precise_event_does_not_round_trip : ¬ ∀ (config : GatewayConfig) (now_ms : ℤ)
    (event : LocationEvent), validate config now_ms event = .ok () → event.InRange → event.RoundTrips := by
  intro hall
  obtain ⟨decoded, hdecoded, -, -, -, -, hlat, -⟩ :=
    hall {} 1000 precise_event (by decide +kernel) ⟨by decide, by decide, by decide⟩
  have hread : (decode_location_payload (encode_location_payload precise_event)).map LocationEvent.lat =
      .ok (.finite (Format.double.round (100078 / 10^4))) := by decide +kernel
  rw [hdecoded] at hread
  have heq : precise_event.lat = .finite (Format.double.round (100078 / 10^4)) :=
    hlat.symm.trans (Except.ok.inj hread)
  revert heq
  decide +kernel

end SignalRoute
