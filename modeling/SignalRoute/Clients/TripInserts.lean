import SignalRoute.Clients.TripPoints
import SignalRoute.Gateway.Validator
import SignalRoute.Numeric.Grammar
import SignalRoute.Numeric.Reread

/-!
# Inserting trip points into PostgreSQL

`batch_insert_trip_points` of `src/common/clients/postgres_client.cpp` in the PostGIS build: a
transaction with one `INSERT` for each event, whose ten parameters are texts that the server casts to
the columns of `db/migrations/001_initial.sql`. The casts are the server's; they are a parameter
(`PostgresCasts`), and `Documented` is what is known of them.

A transaction commits iff every row is cast (`batch_insert_eq_ok_iff`), so one event that is not
insertable rolls all others back. The validator bounds the coordinates and the timestamp, but not the
sequence number, the other floats, the time of reception and the bytes of the id (`insertable_iff`).
-/

namespace Numeric

/-- What `std::to_string` prints of a finite number: digits with a point, after a minus sign if it is
negative. -/
theorem toList_to_string (q : ℚ) : ∃ sign whole frac, (sign = [] ∨ sign = ['-']) ∧ IsDigits whole ∧
    (∀ c ∈ frac, c.isDigit = true) ∧ (to_string (.finite q)).toList = sign ++ (whole ++ '.' :: frac) := by
  obtain ⟨c, cs, hcs, -⟩ := toList_toString_cons (roundHalfEven (|q| * 10^6) / 10^6)
  have hfrac : ∀ c ∈ List.replicate (6 - (Nat.toDigits 10 (roundHalfEven (|q| * 10^6) % 10^6)).length) '0' ++
      Nat.toDigits 10 (roundHalfEven (|q| * 10^6) % 10^6), c.isDigit = true := by
    intro c hc
    rcases List.mem_append.mp hc with hc | hc
    · rw [List.eq_of_mem_replicate hc]
      rfl
    · exact Nat.isDigit_of_mem_toDigits (by decide) (by decide) hc
  have hsign : (if q < 0 then ['-'] else []) = [] ∨ (if q < 0 then ['-'] else []) = ['-'] := by
    split
    · exact .inr rfl
    · exact .inl rfl
  refine ⟨_, _, _, hsign, ⟨hcs ▸ List.cons_ne_nil c cs, fun c => isDigit_of_mem_toString⟩, hfrac, ?_⟩
  unfold to_string
  by_cases hneg : q < 0
  · simp [hneg]
  · simp [hneg]

/-- Digits are no NUL. -/
theorem ne_nul_of_isDigit {c : Char} (h : c.isDigit = true) : c ≠ Char.ofNat 0 := by
  rintro rfl
  cases h

/-- The text of a number has no NUL. -/
theorem ne_nul_of_mem_to_string {x : Double} {c : Char} (h : c ∈ (to_string x).toList) : c ≠ Char.ofNat 0 := by
  cases x with
  | finite q =>
    obtain ⟨sign, whole, frac, hsign, ⟨-, hwhole⟩, hfrac, htext⟩ := toList_to_string q
    rw [htext, List.mem_append, List.mem_append, List.mem_cons] at h
    obtain hc | hc | rfl | hc := h
    · obtain rfl | rfl := hsign
      · cases hc
      · rw [List.mem_singleton.mp hc]
        decide
    · exact ne_nul_of_isDigit (hwhole c hc)
    · decide
    · exact ne_nul_of_isDigit (hfrac c hc)
  | infinite negative =>
    rintro rfl
    cases negative <;> simp [to_string] at h
  | nan =>
    rintro rfl
    simp [to_string] at h

/-- A printed integer has no NUL. -/
theorem ne_nul_of_mem_toString {z : ℤ} {c : Char} (h : c ∈ (toString z).toList) : c ≠ Char.ofNat 0 := by
  cases z with
  | ofNat n => exact ne_nul_of_isDigit (isDigit_of_mem_toString h)
  | negSucc n =>
    rw [toString_negSucc, String.toList_append, List.mem_append] at h
    obtain hc | hc := h
    · rw [List.mem_singleton.mp hc]
      decide
    · exact ne_nul_of_isDigit (isDigit_of_mem_toString hc)

end Numeric

namespace SignalRoute

open Numeric (Double Format readFloating)

/-- The casts of a server: its value for the text of a parameter, or its error message. `text` is the
check of the encoding, and `timestamp` is `to_timestamp($n::double precision / 1000.0)`. -/
structure PostgresCasts (Time : Type) where
  text : String → Except String Unit
  bigint : String → Except String ℤ
  double_precision : String → Except String Double
  real : String → Except String Double
  timestamp : String → Except String Time

/-- The columns of `trip_points` that an insert fills. -/
structure TripRow (Time : Type) where
  device_id : String
  seq : ℤ
  event_time : Time
  recv_time : Time
  lat : Double
  lon : Double
  altitude_m : Double
  accuracy_m : Double
  speed_ms : Double
  heading_deg : Double
  deriving DecidableEq

/-- The string that starts at a `c_str`: what is before the first NUL. -/
def c_str (s : String) : String := String.ofList (s.toList.takeWhile fun c => c ≠ Char.ofNat 0)

namespace PostgresCasts

variable {Time : Type} (casts : PostgresCasts Time)

/-- The `VALUES` of the statement. -/
def row (p1 p2 p3 p4 p5 p6 p7 p8 p9 p10 : String) : Except String (TripRow Time) := do
  casts.text p1
  let seq ← casts.bigint p2
  let event_time ← casts.timestamp p3
  let recv_time ← casts.timestamp p4
  let lon ← casts.double_precision p6
  let lat ← casts.double_precision p5
  let altitude_m ← casts.real p7
  let accuracy_m ← casts.real p8
  let speed_ms ← casts.real p9
  let heading_deg ← casts.real p10
  return { device_id := p1, seq, event_time, recv_time, lat, lon, altitude_m, accuracy_m, speed_ms, heading_deg }

/-- The ten parameters of an event, as `exec_params` hands them over. -/
def event_row (event : LocationEvent) : Except String (TripRow Time) :=
  casts.row (c_str event.device_id) (c_str (toString event.seq)) (c_str (toString (event_time_ms event)))
    (c_str (toString event.server_recv_ms)) (c_str (Numeric.to_string event.lat))
    (c_str (Numeric.to_string event.lon)) (c_str (Numeric.to_string event.altitude_m))
    (c_str (Numeric.to_string event.accuracy_m)) (c_str (Numeric.to_string event.speed_ms))
    (c_str (Numeric.to_string event.heading_deg))

/-- One `INSERT`, where a row with the id and the sequence number of another one is left out. -/
def insert_trip_point (table : List (TripRow Time)) (event : LocationEvent) :
    Except String (List (TripRow Time)) :=
  match casts.event_row event with
  | .error message => .error ("insert trip point failed: " ++ message)
  | .ok row =>
    .ok (if table.any fun r => r.device_id = row.device_id && r.seq = row.seq then table else table ++ [row])

/-- `batch_insert_trip_points`, on a connection that does not fail: an error of an insert rolls the
transaction back. -/
def batch_insert_trip_points (table : List (TripRow Time)) (events : List LocationEvent) :
    Except String Unit × List (TripRow Time) :=
  match events.foldlM casts.insert_trip_point table with
  | .ok table' => (.ok (), table')
  | .error message => (.error message, table)

/-- What is documented of the casts: a `bigint` has 64 bits; a decimal numeral and the names of NaN and the
infinities, which is what `std::to_string` prints, are read as `strtod` and `strtof` read them; a
timestamp has a range, which contains the years from 1970 to 2500. -/
structure Documented (first last : ℤ) : Prop where
  bigint : ∀ z n : ℤ, casts.bigint (toString z) = .ok n ↔ n = z ∧ -2^63 ≤ z ∧ z < 2^63
  double_precision : ∀ x y, readFloating .double (Numeric.to_string x) = .ok y →
    casts.double_precision (Numeric.to_string x) = .ok y
  real : ∀ x y, readFloating .float (Numeric.to_string x) = .ok y →
    casts.real (Numeric.to_string x) = .ok y
  timestamp : ∀ z : ℤ, -2^63 ≤ z → z < 2^63 →
    ((∃ t, casts.timestamp (toString z) = .ok t) ↔ first ≤ z ∧ z < last)
  first : first ≤ 0
  last : 2^44 ≤ last

/-- All parameters of an event are in range of their casts, and the row has the event's numbers: the id is
passed whole, and the floats are finite. -/
structure Insertable (event : LocationEvent) : Prop where
  device_id : c_str event.device_id = event.device_id ∧ casts.text (c_str event.device_id) = .ok ()
  seq : casts.bigint (c_str (toString event.seq)) = .ok event.seq
  event_time : ∃ t, casts.timestamp (c_str (toString (event_time_ms event))) = .ok t
  recv_time : ∃ t, casts.timestamp (c_str (toString event.server_recv_ms)) = .ok t
  lat : ∃ q, casts.double_precision (c_str (Numeric.to_string event.lat)) = .ok (.finite q)
  lon : ∃ q, casts.double_precision (c_str (Numeric.to_string event.lon)) = .ok (.finite q)
  altitude_m : ∃ q, casts.real (c_str (Numeric.to_string event.altitude_m)) = .ok (.finite q)
  accuracy_m : ∃ q, casts.real (c_str (Numeric.to_string event.accuracy_m)) = .ok (.finite q)
  speed_ms : ∃ q, casts.real (c_str (Numeric.to_string event.speed_ms)) = .ok (.finite q)
  heading_deg : ∃ q, casts.real (c_str (Numeric.to_string event.heading_deg)) = .ok (.finite q)

/-- With an event, every batch is inserted that is without it. -/
def Harmless (event : LocationEvent) : Prop :=
  ∀ table before after, (casts.batch_insert_trip_points table (before ++ after)).1 = .ok () →
    (casts.batch_insert_trip_points table (before ++ event :: after)).1 = .ok ()

/-- One insert fails iff a cast does, whatever the table has. -/
theorem insert_trip_point_eq_ok_iff (table : List (TripRow Time)) (event : LocationEvent) :
    (∃ table', casts.insert_trip_point table event = .ok table') ↔ ∃ row, casts.event_row event = .ok row := by
  unfold insert_trip_point
  cases casts.event_row event with
  | error message => exact iff_of_false (fun ⟨_, h⟩ => by cases h) fun ⟨_, h⟩ => by cases h
  | ok row => exact iff_of_true ⟨_, rfl⟩ ⟨row, rfl⟩

/-- A batch is inserted iff every event is cast. -/
theorem batch_insert_eq_ok_iff (table : List (TripRow Time)) (events : List LocationEvent) :
    (casts.batch_insert_trip_points table events).1 = .ok () ↔
      ∀ event ∈ events, ∃ row, casts.event_row event = .ok row := by
  have hfold : (∃ table', events.foldlM casts.insert_trip_point table = .ok table') ↔
      ∀ event ∈ events, ∃ row, casts.event_row event = .ok row := by
    induction events generalizing table with
    | nil => exact iff_of_true ⟨table, rfl⟩ fun event h => absurd h List.not_mem_nil
    | cons event events ih =>
      rw [List.forall_mem_cons, ← casts.insert_trip_point_eq_ok_iff table event, List.foldlM_cons]
      cases hinsert : casts.insert_trip_point table event with
      | error message =>
        exact iff_of_false (fun ⟨_, h⟩ => by cases h) fun h => by
          obtain ⟨_, h⟩ := h.1
          cases h
      | ok table' => exact (ih table').trans (and_iff_right ⟨table', rfl⟩).symm
  rw [← hfold]
  unfold batch_insert_trip_points
  cases events.foldlM casts.insert_trip_point table with
  | error message => exact iff_of_false (fun h => by cases h) fun ⟨_, h⟩ => by cases h
  | ok table' => exact iff_of_true rfl ⟨table', rfl⟩

/-- The first event that is not cast ends the batch, and takes the others with it. -/
theorem batch_insert_of_error (table : List (TripRow Time)) {before after : List LocationEvent}
    {event : LocationEvent} {message : String}
    (hbefore : ∀ event ∈ before, ∃ row, casts.event_row event = .ok row)
    (hevent : casts.event_row event = .error message) :
    casts.batch_insert_trip_points table (before ++ event :: after) =
      (.error ("insert trip point failed: " ++ message), table) := by
  have hfold : ∀ table', (before ++ event :: after).foldlM casts.insert_trip_point table' =
      .error ("insert trip point failed: " ++ message) := by
    induction before with
    | nil =>
      intro table'
      rw [List.nil_append, List.foldlM_cons, insert_trip_point, hevent]
      rfl
    | cons first before ih =>
      intro table'
      obtain ⟨hfirst, hrest⟩ := List.forall_mem_cons.mp hbefore
      obtain ⟨next, hnext⟩ := (casts.insert_trip_point_eq_ok_iff table' first).mpr hfirst
      rw [List.cons_append, List.foldlM_cons, hnext]
      exact ih hrest next
  unfold batch_insert_trip_points
  rw [hfold]

/-- An event is harmless iff it is cast. -/
theorem harmless_iff (event : LocationEvent) : casts.Harmless event ↔ ∃ row, casts.event_row event = .ok row := by
  unfold Harmless
  simp only [batch_insert_eq_ok_iff]
  constructor
  · intro h
    exact h [] [] [] (fun event hevent => absurd hevent List.not_mem_nil) event List.mem_cons_self
  · intro hrow table before after hall other hother
    rw [List.mem_append, List.mem_cons] at hother
    obtain hbefore | rfl | hafter := hother
    · exact hall other (List.mem_append_left _ hbefore)
    · exact hrow
    · exact hall other (List.mem_append_right _ hafter)

/-- A row is made iff the server casts all parameters. -/
theorem row_eq_ok_iff {p1 p2 p3 p4 p5 p6 p7 p8 p9 p10 : String} :
    (∃ row, casts.row p1 p2 p3 p4 p5 p6 p7 p8 p9 p10 = .ok row) ↔
      casts.text p1 = .ok () ∧ (∃ z, casts.bigint p2 = .ok z) ∧ (∃ t, casts.timestamp p3 = .ok t) ∧
      (∃ t, casts.timestamp p4 = .ok t) ∧ (∃ x, casts.double_precision p6 = .ok x) ∧
      (∃ x, casts.double_precision p5 = .ok x) ∧ (∃ x, casts.real p7 = .ok x) ∧
      (∃ x, casts.real p8 = .ok x) ∧ (∃ x, casts.real p9 = .ok x) ∧ ∃ x, casts.real p10 = .ok x := by
  constructor
  · rintro ⟨row, h⟩
    unfold PostgresCasts.row at h
    obtain ⟨_, h1, h⟩ := Numeric.exists_of_bind_eq_ok h
    obtain ⟨seq, h2, h⟩ := Numeric.exists_of_bind_eq_ok h
    obtain ⟨event_time, h3, h⟩ := Numeric.exists_of_bind_eq_ok h
    obtain ⟨recv_time, h4, h⟩ := Numeric.exists_of_bind_eq_ok h
    obtain ⟨lon, h6, h⟩ := Numeric.exists_of_bind_eq_ok h
    obtain ⟨lat, h5, h⟩ := Numeric.exists_of_bind_eq_ok h
    obtain ⟨altitude_m, h7, h⟩ := Numeric.exists_of_bind_eq_ok h
    obtain ⟨accuracy_m, h8, h⟩ := Numeric.exists_of_bind_eq_ok h
    obtain ⟨speed_ms, h9, h⟩ := Numeric.exists_of_bind_eq_ok h
    obtain ⟨heading_deg, h10, -⟩ := Numeric.exists_of_bind_eq_ok h
    exact ⟨h1, ⟨_, h2⟩, ⟨_, h3⟩, ⟨_, h4⟩, ⟨_, h6⟩, ⟨_, h5⟩, ⟨_, h7⟩, ⟨_, h8⟩, ⟨_, h9⟩, ⟨_, h10⟩⟩
  · rintro ⟨h1, ⟨_, h2⟩, ⟨_, h3⟩, ⟨_, h4⟩, ⟨_, h6⟩, ⟨_, h5⟩, ⟨_, h7⟩, ⟨_, h8⟩, ⟨_, h9⟩, ⟨_, h10⟩⟩
    unfold PostgresCasts.row
    rw [h1, h2, h3, h4, h5, h6, h7, h8, h9, h10]
    exact ⟨_, rfl⟩

/-- What is insertable does no harm. -/
theorem Insertable.harmless {event : LocationEvent} (h : casts.Insertable event) : casts.Harmless event := by
  obtain ⟨hid, hseq, hevent, hrecv, ⟨_, hlat⟩, ⟨_, hlon⟩, ⟨_, halt⟩, ⟨_, hacc⟩, ⟨_, hspeed⟩, ⟨_, hhead⟩⟩ := h
  refine (casts.harmless_iff event).mpr (casts.row_eq_ok_iff.mpr ?_)
  exact ⟨hid.2, ⟨_, hseq⟩, hevent, hrecv, ⟨_, hlon⟩, ⟨_, hlat⟩, ⟨_, halt⟩, ⟨_, hacc⟩, ⟨_, hspeed⟩, ⟨_, hhead⟩⟩

end PostgresCasts

/-- A text without NUL is passed whole. -/
theorem c_str_eq_iff {s : String} : c_str s = s ↔ Char.ofNat 0 ∉ s.toList := by
  have hlist : c_str s = s ↔ (s.toList.takeWhile fun c => c ≠ Char.ofNat 0) = s.toList := by
    unfold c_str
    rw [← String.toList_inj, String.toList_ofList]
  rw [hlist, List.takeWhile_eq_self_iff]
  constructor
  · intro h hin
    exact of_decide_eq_true (h _ hin) rfl
  · rintro h c hc
    exact decide_eq_true fun heq => h (heq ▸ hc)

/-- The text of a number is passed whole. -/
theorem c_str_to_string (x : Double) : c_str (Numeric.to_string x) = Numeric.to_string x :=
  c_str_eq_iff.mpr fun h => Numeric.ne_nul_of_mem_to_string h rfl

/-- So is that of an integer. -/
theorem c_str_toString (z : ℤ) : c_str (toString z) = toString z :=
  c_str_eq_iff.mpr fun h => Numeric.ne_nul_of_mem_toString h rfl

/-- The values that the fields of an event can have: the numbers of their types. -/
structure LocationEvent.FieldsInRange (event : LocationEvent) : Prop where
  altitude_m : ∀ q, event.altitude_m = .finite q → |q| ≤ Format.float.largest
  accuracy_m : ∀ q, event.accuracy_m = .finite q → |q| ≤ Format.float.largest
  speed_ms : ∀ q, event.speed_ms = .finite q → |q| ≤ Format.float.largest
  heading_deg : ∀ q, event.heading_deg = .finite q → |q| ≤ Format.float.largest
  server_recv_ms : -2^63 ≤ event.server_recv_ms ∧ event.server_recv_ms < 2^63

namespace PostgresCasts

variable {Time : Type} {casts : PostgresCasts Time} {first last : ℤ}

/-- What the validator does not check: the bytes of the id, the upper half of the sequence numbers, the
time of reception and the floats. -/
structure Unchecked (casts : PostgresCasts Time) (first last : ℤ) (event : LocationEvent) : Prop where
  device_id : Char.ofNat 0 ∉ event.device_id.toList ∧ casts.text event.device_id = .ok ()
  seq : event.seq < 2^63
  server_recv_ms : first ≤ event.server_recv_ms ∧ event.server_recv_ms < last
  altitude_m : event.altitude_m.isfinite = true
  accuracy_m : event.accuracy_m.isfinite = true
  speed_ms : event.speed_ms.isfinite = true
  heading_deg : event.heading_deg.isfinite = true

/-- A float is read as a finite `real` iff it is finite. -/
theorem Documented.real_iff (h : casts.Documented first last) {x : Double}
    (hmax : ∀ q, x = .finite q → |q| ≤ Format.float.largest) :
    (∃ q, casts.real (c_str (Numeric.to_string x)) = .ok (.finite q)) ↔ x.isfinite = true := by
  have hread := h.real _ _
    (Numeric.readFloating_to_string Numeric.Format.fine_float hmax)
  rw [c_str_to_string, hread]
  cases x with
  | finite q => exact iff_of_true ⟨_, rfl⟩ rfl
  | infinite negative => exact iff_of_false (fun ⟨_, h⟩ => by cases h) (fun h => by cases h)
  | nan => exact iff_of_false (fun ⟨_, h⟩ => by cases h) (fun h => by cases h)

/-- A coordinate on the globe is read as a finite `double precision`. -/
theorem Documented.exists_double_precision (h : casts.Documented first last) {q bound : ℚ}
    (hmin : -bound ≤ q) (hmax : q ≤ bound) (hbound : bound ≤ Format.double.largest) :
    ∃ r, casts.double_precision (c_str (Numeric.to_string (.finite q))) = .ok (.finite r) := by
  have hread := h.double_precision (.finite q) _
    (Numeric.readFloating_to_string Numeric.Format.fine_double fun q' heq => by
      cases heq
      exact (abs_le.mpr ⟨hmin, hmax⟩).trans hbound)
  rw [c_str_to_string]
  exact ⟨_, hread⟩

/-- A validated event is insertable exactly if what the validator does not check is in range. -/
theorem insertable_iff_unchecked {config : GatewayConfig} {now_ms : ℤ} {event : LocationEvent}
    (hcasts : casts.Documented first last) (hclock : now_ms * 10^6 < 2^63)
    (htolerance : config.timestamp_skew_tolerance_s < 2^31) (hrange : event.FieldsInRange)
    (hvalid : validate config now_ms event = .ok ()) :
    casts.Insertable event ↔ casts.Unchecked first last event := by
  obtain ⟨-, ⟨lat, hlat, hlat_min, hlat_max⟩, ⟨lon, hlon, hlon_min, hlon_max⟩, -, -, hpositive, hfuture, -⟩ :=
    validate_eq_ok_iff.mp hvalid
  have hseq : casts.bigint (c_str (toString event.seq)) = .ok (event.seq : ℤ) ↔ event.seq < 2^63 := by
    have htext : toString event.seq = toString (event.seq : ℤ) := rfl
    rw [htext, c_str_toString, hcasts.bigint]
    omega
  have htime : event_time_ms event = event.timestamp_ms := if_pos (by omega)
  have hevent : ∃ t, casts.timestamp (c_str (toString (event_time_ms event))) = .ok t := by
    have hfirst := hcasts.first
    have hlast := hcasts.last
    rw [htime, c_str_toString, hcasts.timestamp _ (by omega) (by omega)]
    omega
  have hrecv : (∃ t, casts.timestamp (c_str (toString event.server_recv_ms)) = .ok t) ↔
      first ≤ event.server_recv_ms ∧ event.server_recv_ms < last := by
    rw [c_str_toString, hcasts.timestamp _ hrange.server_recv_ms.1 hrange.server_recv_ms.2]
  have hglobe : (180 : ℚ) ≤ Format.double.largest := by decide +kernel
  constructor
  · rintro ⟨⟨hwhole, htext⟩, hbig, -, hrecv_time, -, -, halt, hacc, hspeed, hhead⟩
    rw [hwhole] at htext
    exact ⟨⟨c_str_eq_iff.mp hwhole, htext⟩, hseq.mp hbig, hrecv.mp hrecv_time,
      (hcasts.real_iff hrange.altitude_m).mp halt, (hcasts.real_iff hrange.accuracy_m).mp hacc,
      (hcasts.real_iff hrange.speed_ms).mp hspeed, (hcasts.real_iff hrange.heading_deg).mp hhead⟩
  · rintro ⟨⟨hnul, htext⟩, hbig, hrecv_time, halt, hacc, hspeed, hhead⟩
    have hwhole := c_str_eq_iff.mpr hnul
    refine ⟨⟨hwhole, by rw [hwhole, htext]⟩, hseq.mpr hbig, hevent, hrecv.mpr hrecv_time, ?_, ?_,
      (hcasts.real_iff hrange.altitude_m).mpr halt, (hcasts.real_iff hrange.accuracy_m).mpr hacc,
      (hcasts.real_iff hrange.speed_ms).mpr hspeed, (hcasts.real_iff hrange.heading_deg).mpr hhead⟩
    · rw [hlat]
      exact hcasts.exists_double_precision hlat_min hlat_max (le_trans (by norm_num) hglobe)
    · rw [hlon]
      exact hcasts.exists_double_precision hlon_min hlon_max hglobe

/-- A validated event is insertable, and does no harm to the other events of its batch, exactly if what the
validator does not check is in range. -/
theorem insertable_iff {config : GatewayConfig} {now_ms : ℤ} {event : LocationEvent}
    (hcasts : casts.Documented first last) (hclock : now_ms * 10^6 < 2^63)
    (htolerance : config.timestamp_skew_tolerance_s < 2^31) (hrange : event.FieldsInRange)
    (hvalid : validate config now_ms event = .ok ()) :
    casts.Insertable event ∧ casts.Harmless event ↔ casts.Unchecked first last event := by
  rw [and_iff_left_of_imp fun h => h.harmless]
  exact insertable_iff_unchecked hcasts hclock htolerance hrange hvalid

/-- The message of an outcome without a value. -/
def castError {α : Type} (message : String) : Except Numeric.ConversionError α → Except String α
  | .ok a => .ok a
  | .error _ => .error message

/-- A server, with the times as milliseconds. -/
def server : PostgresCasts ℤ where
  text _ := .ok ()
  bigint s := castError "value is out of range for type bigint" (Numeric.stoll s)
  double_precision s := castError "value is out of range for type double precision" (Numeric.stod s)
  real s := castError "value is out of range for type real" (Numeric.stof s)
  timestamp s :=
    match Numeric.stoll s with
    | .ok z =>
      if -210866803200000 ≤ z ∧ z < 9224318015999999 then .ok z else .error "timestamp out of range"
    | .error _ => .error "timestamp out of range"

/-- A number out of the range of a `bigint` is not read. -/
theorem stoll_of_out_of_range {z : ℤ} (hz : ¬(-2^63 ≤ z ∧ z < 2^63)) :
    Numeric.stoll (toString z) = .error .out_of_range := by
  obtain ⟨negative, n, hread, hvalue⟩ := Numeric.readInteger_toString_int z
  unfold Numeric.stoll
  rw [hread]
  show (if (if negative then -(n : ℤ) else n) < -2^63 ∨ 2^63 ≤ (if negative then -(n : ℤ) else n)
    then _ else _ : Except Numeric.ConversionError ℤ) = _
  rw [hvalue, if_pos (by omega)]

/-- The server does what is documented. -/
theorem documented_server : server.Documented (-210866803200000) 9224318015999999 := by
  constructor
  case bigint =>
    intro z n
    show castError _ (Numeric.stoll (toString z)) = _ ↔ _
    by_cases hz : -2^63 ≤ z ∧ z < 2^63
    · rw [Numeric.stoll_toString hz]
      exact ⟨fun h => by cases h; exact ⟨rfl, hz⟩, fun h => by rw [h.1]; rfl⟩
    · rw [stoll_of_out_of_range hz]
      exact iff_of_false (fun h => by cases h) fun h => hz h.2
  case double_precision =>
    intro x y hread
    show castError _ (readFloating .double (Numeric.to_string x)) = _
    rw [hread]
    rfl
  case real =>
    intro x y hread
    show castError _ (readFloating .float (Numeric.to_string x)) = _
    rw [hread]
    rfl
  case timestamp =>
    intro z hmin hmax
    unfold server
    dsimp only
    rw [Numeric.stoll_toString ⟨hmin, hmax⟩]
    dsimp only
    by_cases hz : -210866803200000 ≤ z ∧ z < 9224318015999999
    · rw [if_pos hz]
      exact iff_of_true ⟨z, rfl⟩ hz
    · rw [if_neg hz]
      exact iff_of_false (fun ⟨_, h⟩ => by cases h) hz
  case first => decide
  case last => decide

/-- An event with the sequence number `seq`, one second old. -/
def pointEvent (seq : ℕ) : LocationEvent where
  device_id := "d"
  lat := .finite 10
  lon := .finite 20
  speed_ms := .finite (27 / 2)
  timestamp_ms := 1000000
  server_recv_ms := 1001000
  seq

/-- Its fields are in range. -/
theorem fields_in_range_pointEvent (seq : ℕ) : (pointEvent seq).FieldsInRange := by
  have hzero : ∀ q : ℚ, (0 : Double) = .finite q → |q| ≤ Format.float.largest := by
    rintro q hq
    cases hq
    decide +kernel
  have hspeed : ∀ q : ℚ, (.finite (27 / 2) : Double) = .finite q → |q| ≤ Format.float.largest := by
    rintro q hq
    cases hq
    decide +kernel
  have hrecv : -2^63 ≤ (1001000 : ℤ) ∧ (1001000 : ℤ) < 2^63 := by decide
  exact ⟨hzero, hzero, hspeed, hzero, hrecv⟩

/-- With the first sequence number, what the validator does not check is in range. -/
theorem unchecked_pointEvent : server.Unchecked (-210866803200000) 9224318015999999 (pointEvent 1) := by
  refine ⟨⟨?_, rfl⟩, by decide, by decide, rfl, rfl, rfl, rfl⟩
  simp [pointEvent]

/-- From `2^63` on the sequence number is no `bigint`. -/
theorem bigint_of_large {seq : ℕ} (h : 2^63 ≤ seq) : server.bigint (c_str (toString (pointEvent seq).seq)) =
    .error "value is out of range for type bigint" := by
  have htext : toString (pointEvent seq).seq = toString (seq : ℤ) := rfl
  rw [htext, c_str_toString]
  show castError _ (Numeric.stoll (toString (seq : ℤ))) = _
  rw [stoll_of_out_of_range (by omega)]
  rfl

/-- The event with the first sequence number is insertable. -/
theorem insertable_pointEvent : server.Insertable (pointEvent 1) ∧ server.Harmless (pointEvent 1) :=
  (@insertable_iff ℤ server _ _ {} 1001000 _ documented_server (by decide) (by decide)
    (fields_in_range_pointEvent 1) (by decide +kernel)).mpr unchecked_pointEvent

/-- The event with the sequence number `2^63` is validated, and it takes the others of its batch with it,
which are inserted without it. -/
theorem not_insertable_pointEvent : validate {} 1001000 (pointEvent (2^63)) = .ok () ∧
    ¬server.Insertable (pointEvent (2^63)) ∧
    server.batch_insert_trip_points [] [pointEvent 1, pointEvent (2^63)] =
      (.error "insert trip point failed: value is out of range for type bigint", []) ∧
    (server.batch_insert_trip_points [] [pointEvent 1]).1 = .ok () := by
  have hbigint := bigint_of_large (le_refl (2^63))
  have hfails : server.event_row (pointEvent (2^63)) = .error "value is out of range for type bigint" := by
    unfold event_row row
    rw [hbigint]
    rfl
  obtain ⟨first_row, hrow⟩ : ∃ row, server.event_row (pointEvent 1) = .ok row := by
    have hinsertable := (@insertable_iff_unchecked ℤ server _ _ {} 1001000 _ documented_server (by decide)
      (by decide) (fields_in_range_pointEvent 1) (by decide +kernel)).mpr unchecked_pointEvent
    exact (server.harmless_iff _).mp hinsertable.harmless
  refine ⟨by decide +kernel, fun h => ?_, ?_, ?_⟩
  · have hseq := h.seq
    rw [hbigint] at hseq
    cases hseq
  · exact server.batch_insert_of_error [] (List.forall_mem_singleton.mpr ⟨first_row, hrow⟩) hfails
  · rw [batch_insert_eq_ok_iff]
    intro event hevent
    rw [List.mem_singleton.mp hevent]
    exact ⟨first_row, hrow⟩

end PostgresCasts
end SignalRoute
