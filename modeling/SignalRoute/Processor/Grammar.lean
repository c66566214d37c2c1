import SignalRoute.Numeric.Grammar
import SignalRoute.Processor.Codec

/-!
# The payloads that the decoder accepts

The decoder takes what `std::getline` splits off, which drops a separator at the end, and what the
conversions read, which skip blanks, take signs and zeros, wrap a negative sequence number around and
ignore what follows a numeral. So it accepts payloads that no encoder writes. `decode_wellFormed_iff`
says by their characters which of those that it accepts are records whose integers are the texts of the
decoded ones and whose coordinates are numerals to their end.
-/

namespace SignalRoute

open Numeric

/-- A payload is a record of its decoded event: six fields, of which the first is an id, the integers
are the texts of those of the event and the coordinates are read to their end. -/
structure WellFormed (payload : String) (event : LocationEvent) : Prop where
  fields : ∃ lat lon, payload.toList.splitOn ',' = [event.device_id.toList,
    (toString event.seq).toList, (toString event.timestamp_ms).toList,
    (toString event.server_recv_ms).toList, lat, lon] ∧
      floatingRest (String.ofList lat) = [] ∧ floatingRest (String.ofList lon) = []
  device_id : event.device_id ≠ ""
  seq : event.seq < 2^64
  timestamp_ms : -2^63 ≤ event.timestamp_ms ∧ event.timestamp_ms < 2^63
  server_recv_ms : -2^63 ≤ event.server_recv_ms ∧ event.server_recv_ms < 2^63

/-- The fields of a payload have no slack: digits without a leading zero, after a minus sign where the
type is signed and the number is not zero, and floating numerals after blanks and a sign. -/
def StrictFields : List String → Prop
  | [_, seq, timestamp_ms, server_recv_ms, lat, lon] =>
    IsCanonical seq.toList ∧ IsSignedCanonical timestamp_ms.toList ∧
      IsSignedCanonical server_recv_ms.toList ∧ Signed IsFloat lat.toList ∧ Signed IsFloat lon.toList
  | _ => False

/-- A payload without slack: strict fields, and no separator at its end. -/
def Strict (payload : String) : Prop :=
  payload.toList.getLast? ≠ some ',' ∧ StrictFields (split_csv payload)

/-- Without a separator at the end, the fields are the pieces between the separators. -/
theorem splitOn_eq_fields {payload : String} (hne : split_csv payload ≠ [])
    (hlast : payload.toList.getLast? ≠ some ',') :
    payload.toList.splitOn ',' = (split_csv payload).map String.toList := by
  have htext : payload.toList ≠ [] := by
    intro hnil
    refine hne ?_
    unfold split_csv
    rw [hnil]
    rfl
  unfold split_csv getlines
  dsimp only
  rw [if_neg (mt (getLast?_splitOn_iff ',' htext).mp hlast), List.map_map]
  exact ((List.map_congr_left fun _ _ => String.toList_ofList).trans (List.map_id _)).symm

/-- A separator at the end ends the last field and starts no other. -/
theorem length_splitOn_of_trailing {payload : String} (hlast : payload.toList.getLast? = some ',') :
    (payload.toList.splitOn ',').length = (split_csv payload).length + 1 := by
  have htext : payload.toList ≠ [] := by
    rintro hnil
    rw [hnil] at hlast
    cases hlast
  have hpos := List.length_pos_iff.mpr (List.splitOn_ne_nil ',' payload.toList)
  unfold split_csv getlines
  dsimp only
  rw [if_pos ((getLast?_splitOn_iff ',' htext).mpr hlast), List.length_map, List.length_dropLast]
  omega

/-- What `stoull` gives is a number of 64 bits. -/
theorem stoull_lt {s : String} {n : ℕ} (h : stoull s = .ok n) : n < 2^64 := by
  obtain ⟨⟨negative, m⟩, -, hrange⟩ := exists_of_bind_eq_ok h
  dsimp only at hrange
  split at hrange
  · cases hrange
  · cases hrange
    split
    · exact Nat.mod_lt _ (by decide)
    · omega

/-- What `stoll` gives is a signed number of 64 bits. -/
theorem stoll_bounds {s : String} {z : ℤ} (h : stoll s = .ok z) : -2^63 ≤ z ∧ z < 2^63 := by
  obtain ⟨⟨negative, n⟩, -, hrange⟩ := exists_of_bind_eq_ok h
  dsimp only at hrange
  generalize (if negative then -(n : ℤ) else n) = value at *
  split at hrange
  · cases hrange
  · cases hrange
    omega

/-- The fields of a payload that the decoder accepts, and what the conversions give of them. -/
theorem fields_of_decode {payload : String} {event : LocationEvent}
    (h : decode_csv_location_payload payload = .ok event) :
    ∃ seq timestamp_ms server_recv_ms lat lon,
      split_csv payload = [event.device_id, seq, timestamp_ms, server_recv_ms, lat, lon] ∧
      event.device_id ≠ "" ∧ stoull seq = .ok event.seq ∧ stoll timestamp_ms = .ok event.timestamp_ms ∧
      stoll server_recv_ms = .ok event.server_recv_ms ∧ stod lat = .ok event.lat ∧
      stod lon = .ok event.lon := by
  unfold decode_csv_location_payload at h
  split at h
  · rename_i device_id seq timestamp_ms server_recv_ms lat lon hsplit
    split at h
    · rename_i decoded hdecoded
      split at h
      · cases h
      · rename_i hid
        cases h
        unfold event_of_fields at hdecoded
        obtain ⟨n, hseq, hdecoded⟩ := exists_of_bind_eq_ok hdecoded
        obtain ⟨t, htime, hdecoded⟩ := exists_of_bind_eq_ok hdecoded
        obtain ⟨r, hrecv, hdecoded⟩ := exists_of_bind_eq_ok hdecoded
        obtain ⟨x, hlat, hdecoded⟩ := exists_of_bind_eq_ok hdecoded
        obtain ⟨y, hlon, hdecoded⟩ := exists_of_bind_eq_ok hdecoded
        cases hdecoded
        exact ⟨seq, timestamp_ms, server_recv_ms, lat, lon, hsplit, hid, hseq, htime, hrecv, hlat, hlon⟩
    · cases h
  · cases h

/-- A payload that the decoder accepts is well formed exactly if it has no slack. -/
theorem decode_wellFormed_iff (payload : String) (event : LocationEvent)
    (h : decode_csv_location_payload payload = .ok event) :
    WellFormed payload event ↔ Strict payload := by
  obtain ⟨seq, timestamp_ms, server_recv_ms, lat, lon, hsplit, hid, hseq, htime, hrecv, hlat, hlon⟩ :=
    fields_of_decode h
  have hstrict : StrictFields (split_csv payload) ↔ seq = toString event.seq ∧
      timestamp_ms = toString event.timestamp_ms ∧ server_recv_ms = toString event.server_recv_ms ∧
        floatingRest lat = [] ∧ floatingRest lon = [] := by
    rw [hsplit, stoull_eq_toString_iff hseq, stoll_eq_toString_iff htime, stoll_eq_toString_iff hrecv,
      floatingRest_eq_nil_iff hlat, floatingRest_eq_nil_iff hlon]
    rfl
  have hpieces : payload.toList.getLast? ≠ some ',' → payload.toList.splitOn ',' =
      [event.device_id.toList, seq.toList, timestamp_ms.toList, server_recv_ms.toList, lat.toList,
        lon.toList] := by
    intro hend
    rw [splitOn_eq_fields (by rw [hsplit]; exact List.cons_ne_nil _ _) hend, hsplit]
    rfl
  unfold Strict
  rw [hstrict]
  constructor
  · rintro ⟨⟨lat', lon', hfields, hlat', hlon'⟩, -, -, -, -⟩
    -- A separator at the end would make seven pieces.
    have hend : payload.toList.getLast? ≠ some ',' := by
      intro htrailing
      have hlength := length_splitOn_of_trailing htrailing
      rw [hfields, hsplit] at hlength
      cases hlength
    rw [hpieces hend] at hfields
    simp only [List.cons.injEq, String.toList_inj] at hfields
    obtain ⟨-, hs, ht, hr, rfl, rfl, -⟩ := hfields
    rw [String.ofList_toList] at hlat' hlon'
    exact ⟨hend, hs, ht, hr, hlat', hlon'⟩
  · rintro ⟨hend, rfl, rfl, rfl, hlat', hlon'⟩
    refine ⟨⟨lat.toList, lon.toList, hpieces hend, ?_, ?_⟩, hid, stoull_lt hseq, stoll_bounds htime,
      stoll_bounds hrecv⟩
    · rw [String.ofList_toList]
      exact hlat'
    · rw [String.ofList_toList]
      exact hlon'

/-- A payload with a trailing character in a coordinate. -/
theorem decode_wellFormed_iff_degrees : WellFormed "d,1,1000,1000,10x,20"
    { device_id := "d", seq := 1, timestamp_ms := 1000, server_recv_ms := 1000, lat := .finite 10,
      lon := .finite 20 } ↔ Strict "d,1,1000,1000,10x,20" :=
  decode_wellFormed_iff _ _ (by decide +kernel)

/-- The sequence number `-1` is accepted as the largest one. -/
theorem negative_seq_accepted : ∃ event,
    decode_csv_location_payload "d,-1,1000,1000,10,20" = .ok event ∧ event.seq = 2^64 - 1 ∧
      ¬WellFormed "d,-1,1000,1000,10,20" event := by
  refine ⟨{ device_id := "d", seq := 2^64 - 1, timestamp_ms := 1000, server_recv_ms := 1000,
            lat := .finite 10, lon := .finite 20 }, by decide +kernel, rfl, fun h => ?_⟩
  obtain ⟨lat, lon, hfields, -⟩ := h.fields
  have hpieces : "d,-1,1000,1000,10,20".toList.splitOn ',' = [['d'], ['-', '1'], ['1', '0', '0', '0'],
      ['1', '0', '0', '0'], ['1', '0'], ['2', '0']] := by decide +kernel
  rw [hpieces] at hfields
  have hseq : ['-', '1'] = (toString (2^64 - 1)).toList := (List.cons.inj (List.cons.inj hfields).2).1
  revert hseq
  decide +kernel

end SignalRoute
