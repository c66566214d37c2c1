import SignalRoute.Query.Nearby
import SignalRoute.Query.Trips

/-!
# The query service

`src/query/query_service.cpp` and `latest_handler.cpp`: the requests are checked, and the handlers answer
them. The handlers of a service exist while it runs.

A trip can be read in pieces (`trip_in_pieces`): what a request for a time range answers is what requests for
two adjoining ranges answer, one after the other and cut at the limit. With sampling the pieces have to meet
where a bucket of the code ends, and the limit must not have been reached. A nearby request loses nothing by
asking for more (`nearby_widens`): a device of the answer to a smaller radius or limit is missing from the
answer to a larger one only where nearer devices fill that.
-/

namespace SignalRoute

open Numeric (Double)
open Store (HashOrder starts)
open PostgresClient (InOrder asked askedWithin cut)

/-- `LatestHandler::handle`. -/
def LatestHandler.handle (redis : RedisClient) (device_id : String) : Option DeviceState :=
  if device_id = "" then none else redis.get_device_state device_id

/-- `LatestLocationRequest`. -/
structure LatestLocationRequest where
  device_id : String

/-- `LatestLocationResponse`. -/
structure LatestLocationResponse where
  ok : Bool := false
  found : Bool := false
  state : DeviceState := { device_id := "" }
  error : String := ""
  deriving DecidableEq

/-- `NearbyDevicesRequest`. -/
structure NearbyDevicesRequest where
  lat : Double := 0
  lon : Double := 0
  radius_m : Double := 0
  limit : ℤ := 0
  last_seen_s : ℤ := 0

/-- `NearbyDevicesResponse`. -/
structure NearbyDevicesResponse (D : Type) where
  ok : Bool := false
  result : NearbyResult D := {}
  error : String := ""

/-- `TripQueryRequest`. -/
structure TripQueryRequest where
  device_id : String
  from_ts : ℤ := 0
  to_ts : ℤ := 0
  sample_interval_s : ℤ := 0
  limit : ℤ := 0

/-- `SpatialTripQueryRequest`. -/
structure SpatialTripQueryRequest extends TripQueryRequest where
  center_lat : Double := 0
  center_lon : Double := 0
  radius_m : Double := 0

/-- `TripQueryResponse`. -/
structure TripQueryResponse where
  ok : Bool := false
  events : List LocationEvent := []
  error : String := ""
  deriving DecidableEq

/-- What a query service owns. -/
structure QueryService where
  running : Bool := true
  redis : RedisClient := {}
  pg : PostgresClient := {}
  h3 : H3Index := .default
  spatial : SpatialConfig := .default

namespace QueryService

variable (service : QueryService)

/-- `valid_trip_range`. -/
def valid_trip_range (from_ts to_ts limit : ℤ) : Bool := from_ts ≤ to_ts && limit > 0

/-- `latest`. -/
def latest (device_id : String) : Option DeviceState :=
  if !service.running then none else LatestHandler.handle service.redis device_id

/-- `trip`. -/
def trip (device_id : String) (from_ts to_ts sample_interval_s limit : ℤ) : List LocationEvent :=
  if !service.running then []
  else TripHandler.handle service.pg device_id from_ts to_ts sample_interval_s limit

/-- `handle_latest`. -/
def handle_latest (request : LatestLocationRequest) : LatestLocationResponse :=
  if !service.running then { error := "query service is not running" }
  else if request.device_id = "" then { error := "device_id is required" }
  else
    match service.latest request.device_id with
    | none => { ok := true }
    | some state => { ok := true, found := true, state }

/-- `handle_trip`. -/
def handle_trip (request : TripQueryRequest) : TripQueryResponse :=
  if !service.running then { error := "query service is not running" }
  else if request.device_id = "" then { error := "device_id is required" }
  else if !valid_trip_range request.from_ts request.to_ts request.limit then
    { error := "valid time range and positive limit are required" }
  else
    { ok := true
      events := service.trip request.device_id request.from_ts request.to_ts request.sample_interval_s
        request.limit }

section Spatial

variable {D : Type} [LinearOrder D] (haversine : ℚ → ℚ → ℚ → ℚ → D) (metres : ℚ → D)

/-- `nearby`, with the system clock at `now_ms`. -/
def nearby (order : HashOrder) (now_ms : ℤ) (lat lon radius_m : Double) (limit last_seen_s : ℤ) :
    Except Exception (NearbyResult D) :=
  if !service.running then return {}
  else
    NearbyHandler.handle haversine metres service.h3 service.spatial order service.redis now_ms lat lon radius_m limit
      last_seen_s

/-- `trip_spatial`. -/
def trip_spatial (device_id : String) (from_ts to_ts : ℤ) (center_lat center_lon radius_m : Double)
    (sample_interval_s limit : ℤ) : List LocationEvent :=
  if !service.running then []
  else
    TripHandler.handle_spatial haversine metres service.pg device_id from_ts to_ts center_lat center_lon radius_m
      sample_interval_s limit

/-- `handle_nearby`. -/
def handle_nearby (order : HashOrder) (now_ms : ℤ) (request : NearbyDevicesRequest) :
    Except Exception (NearbyDevicesResponse D) :=
  if !service.running then return { error := "query service is not running" }
  else if !valid_lat_lon request.lat request.lon then return { error := "valid lat/lon is required" }
  else if !request.radius_m.isfinite || request.radius_m ≤ .finite 0 then
    return { error := "radius_m must be positive" }
  else if request.last_seen_s < 0 then return { error := "last_seen_s must be non-negative" }
  else do
    let result ← service.nearby haversine metres order now_ms request.lat request.lon request.radius_m request.limit
      request.last_seen_s
    return { ok := true, result }

/-- `handle_trip_spatial`. -/
def handle_trip_spatial (request : SpatialTripQueryRequest) : TripQueryResponse :=
  if !service.running then { error := "query service is not running" }
  else if request.device_id = "" then { error := "device_id is required" }
  else if !valid_trip_range request.from_ts request.to_ts request.limit ||
      !valid_lat_lon request.center_lat request.center_lon || !request.radius_m.isfinite ||
      request.radius_m < .finite 0 then
    { error := "valid spatial trip query is required" }
  else
    { ok := true
      events := service.trip_spatial haversine metres request.device_id request.from_ts request.to_ts
        request.center_lat request.center_lon request.radius_m request.sample_interval_s request.limit }

end Spatial

section Latest

variable {service} {device_id : String}

/-- A running service has no answer about a device that is not stored. -/
theorem handle_latest_none (hrunning : service.running = true) (hdevice : device_id ≠ "")
    (h : service.redis.get_device_state device_id = none) : service.handle_latest ⟨device_id⟩ = { ok := true } := by
  unfold handle_latest latest LatestHandler.handle
  simp [hrunning, hdevice, h]

/-- It answers with the state that is stored. -/
theorem handle_latest_some {state : DeviceState} (hrunning : service.running = true) (hdevice : device_id ≠ "")
    (h : service.redis.get_device_state device_id = some state) :
    service.handle_latest ⟨device_id⟩ = { ok := true, found := true, state } := by
  unfold handle_latest latest LatestHandler.handle
  simp [hrunning, hdevice, h]

/-- An answer with a state comes from the store. -/
theorem get_device_state_of_found (hrunning : service.running = true) (hdevice : device_id ≠ "")
    (h : (service.handle_latest ⟨device_id⟩).found = true) :
    service.redis.get_device_state device_id = some (service.handle_latest ⟨device_id⟩).state := by
  cases hstate : service.redis.get_device_state device_id with
  | none =>
    rw [handle_latest_none hrunning hdevice hstate] at h
    cases h
  | some state => rw [handle_latest_some hrunning hdevice hstate]

end Latest

section Pieces

variable {sample_interval_s limit : ℤ} {events : Set LocationEvent}

/-- The adjoining ranges into which some times cut a range: each range but the last ends at one. -/
def ranges (from_ts to_ts : ℤ) : List ℤ → List (ℤ × ℤ)
  | [] => [(from_ts, to_ts)]
  | c :: cuts => (from_ts, c) :: ranges (c + 1) to_ts cuts

/-- The events of a set whose time is in a closed range. -/
def during (events : Set LocationEvent) (from_ts to_ts : ℤ) : Set LocationEvent :=
  {event ∈ events | from_ts ≤ event_time_ms event ∧ event_time_ms event ≤ to_ts}

/-- What a handler answers for each range: the events of a set in that range, cut and sampled. -/
def Reads (sample_interval_s limit : ℤ) (events : Set LocationEvent)
    (answer : ℤ → ℤ → List LocationEvent) : Prop :=
  ∀ from_ts to_ts, ∃ all, InOrder (during events from_ts to_ts) all ∧
    answer from_ts to_ts = TripHandler.downsample_by_interval (cut all limit) sample_interval_s

/-- The last piece does not start after the whole range ends. -/
theorem le_of_ranges {from_ts to_ts : ℤ} {cuts : List ℤ}
    (h : ∀ r ∈ ranges from_ts to_ts cuts, r.1 ≤ r.2) : from_ts ≤ to_ts := by
  induction cuts generalizing from_ts with
  | nil => exact h _ List.mem_cons_self
  | cons c cuts ih =>
    obtain ⟨hfirst, hrest⟩ := List.forall_mem_cons.mp h
    have := ih hrest
    dsimp only at hfirst
    omega

/-- Events in order in two adjoining ranges are in order in both. -/
theorem inOrder_append {from_ts c to_ts : ℤ} {front back : List LocationEvent} (hfront : from_ts ≤ c)
    (hback : c + 1 ≤ to_ts) (h : InOrder (during events from_ts c) front)
    (h' : InOrder (during events (c + 1) to_ts) back) :
    InOrder (during events from_ts to_ts) (front ++ back) := by
  refine ⟨fun event => ?_, List.pairwise_append.mpr ⟨h.ascending, h'.ascending, fun a ha b hb => .inl ?_⟩⟩
  · rw [List.mem_append, h.mem_iff, h'.mem_iff]
    simp only [during, Set.mem_ofPred_eq]
    grind
  · have hle := ((h.mem_iff a).mp ha).2.2
    have hlt := ((h'.mem_iff b).mp hb).2.1
    omega

/-- Where the length of a list fits an `int`, comparing it with the limit before cutting is cutting. -/
theorem ite_castInt_eq_take {α : Type} {l : List α} (hlimit : 0 < limit) (hcount : l.length < 2^31) :
    (if castInt l.length > limit then l.take limit.toNat else l) = l.take limit.toNat := by
  rw [(castInt_natCast_eq_iff _).mpr hcount]
  split
  · rfl
  · rw [List.take_of_length_le (by omega)]

theorem cut_eq_take {all : List LocationEvent} (hlimit : 0 < limit) (hcount : all.length < 2^31) :
    cut all limit = all.take limit.toNat := ite_castInt_eq_take hlimit hcount

/-- Cutting two lists at a limit and then what they make together is cutting them together. -/
theorem take_append_take {α : Type} (n : ℕ) (front back : List α) :
    (front.take n ++ back.take n).take n = (front ++ back).take n := by
  have hback : min (n - min n front.length) n = n - front.length := by omega
  rw [List.take_append, List.take_append, List.take_take, List.take_take, List.length_take, hback, min_self]

variable {answer : ℤ → ℤ → List LocationEvent}

/-- Without sampling, the answers for the pieces, one after the other and cut, are the answer for the
whole range. -/
theorem Reads.unsampled (h : Reads sample_interval_s limit events answer) (hlimit : 0 < limit)
    (hinterval : sample_interval_s ≤ 0) {from_ts to_ts : ℤ} {cuts : List ℤ}
    (hpieces : ∀ r ∈ ranges from_ts to_ts cuts, r.1 ≤ r.2) {all : List LocationEvent}
    (hall : InOrder (during events from_ts to_ts) all) (hcount : all.length < 2^31) :
    all.take limit.toNat =
      ((ranges from_ts to_ts cuts).flatMap fun r => answer r.1 r.2).take limit.toNat := by
  have hanswer : ∀ {a b all}, InOrder (during events a b) all → all.length < 2^31 →
      answer a b = all.take limit.toNat := by
    intro a b all hall hcount
    obtain ⟨all', hall', heq⟩ := h a b
    rw [heq, hall'.unique hall, cut_eq_take hlimit hcount]
    exact if_pos (.inl hinterval)
  induction cuts generalizing from_ts all with
  | nil => rw [ranges, List.flatMap_singleton, hanswer hall hcount, List.take_take, min_self]
  | cons c cuts ih =>
    obtain ⟨hfirst, hrest⟩ := List.forall_mem_cons.mp hpieces
    obtain ⟨front, hfront, -⟩ := h from_ts c
    obtain ⟨back, hback, -⟩ := h (c + 1) to_ts
    obtain rfl := hall.unique (inOrder_append hfirst (le_of_ranges hrest) hfront hback)
    rw [List.length_append] at hcount
    rw [ranges, List.flatMap_cons, hanswer hfront (by omega), ← take_append_take, ih hrest hback (by omega),
      List.take_append, List.take_append, List.take_take, List.take_take]
    congr 2
    rw [List.length_take]
    omega

/-- With sampling, the answers for pieces that meet where a bucket ends make up the answer for the
whole range, which the limit must not cut. -/
theorem Reads.sampled (h : Reads sample_interval_s limit events answer) (hlimit : 0 < limit)
    (hinterval : 0 < sample_interval_s) {from_ts to_ts : ℤ} {cuts : List ℤ}
    (hpieces : ∀ r ∈ ranges from_ts to_ts cuts, r.1 ≤ r.2)
    (hends : ∀ c ∈ cuts, c.tdiv (sample_interval_s * 1000) ≠ (c + 1).tdiv (sample_interval_s * 1000))
    {all : List LocationEvent} (hall : InOrder (during events from_ts to_ts) all)
    (hcount : all.length < 2^31) (hwhole : all.length ≤ limit) :
    starts (TripHandler.bucket sample_interval_s) none all =
      (ranges from_ts to_ts cuts).flatMap fun r => answer r.1 r.2 := by
  have hanswer : ∀ {a b all}, InOrder (during events a b) all → all.length < 2^31 → all.length ≤ limit →
      answer a b = starts (TripHandler.bucket sample_interval_s) none all := by
    intro a b all hall hcount hwhole
    obtain ⟨all', hall', heq⟩ := h a b
    rw [heq, hall'.unique hall, cut_eq_take hlimit hcount, List.take_of_length_le (by omega),
      TripHandler.downsample_eq_starts hinterval]
  induction cuts generalizing from_ts all with
  | nil => rw [ranges, List.flatMap_singleton, hanswer hall hcount hwhole]
  | cons c cuts ih =>
    obtain ⟨hfirst, hrest⟩ := List.forall_mem_cons.mp hpieces
    obtain ⟨hend, hends⟩ := List.forall_mem_cons.mp hends
    obtain ⟨front, hfront, -⟩ := h from_ts c
    obtain ⟨back, hback, -⟩ := h (c + 1) to_ts
    obtain rfl := hall.unique (inOrder_append hfirst (le_of_ranges hrest) hfront hback)
    rw [List.length_append] at hcount hwhole
    -- Buckets do not decrease with time, and between the pieces one ends.
    have hother : ∀ a ∈ front, ∀ b ∈ back,
        TripHandler.bucket sample_interval_s a ≠ TripHandler.bucket sample_interval_s b := by
      intro a ha b hb heq
      have hle := ((hfront.mem_iff a).mp ha).2.2
      have hlt := ((hback.mem_iff b).mp hb).2.1
      have hinterval : 0 < sample_interval_s * 1000 := by omega
      have hbefore : TripHandler.bucket sample_interval_s a ≤ c.tdiv (sample_interval_s * 1000) :=
        Int.tdiv_le_tdiv hinterval hle
      have hafter : (c + 1).tdiv (sample_interval_s * 1000) ≤ TripHandler.bucket sample_interval_s b :=
        Int.tdiv_le_tdiv hinterval hlt
      have hmono := Int.tdiv_le_tdiv hinterval (by omega : c ≤ c + 1)
      omega
    rw [Store.starts_append_of_ne hother, ranges, List.flatMap_cons, hanswer hfront (by omega) (by omega),
      ih hrest hends hback (by omega) (by omega)]

/-- The answer for a range from the answers for its pieces. -/
theorem Reads.in_pieces (h : Reads sample_interval_s limit events answer) (hlimit : 0 < limit)
    {from_ts to_ts : ℤ} {cuts : List ℤ} (hpieces : ∀ r ∈ ranges from_ts to_ts cuts, r.1 ≤ r.2)
    (hcount : (during events from_ts to_ts).ncard < 2^31)
    (hends : 0 < sample_interval_s → (during events from_ts to_ts).ncard ≤ limit ∧
      ∀ c ∈ cuts, c.tdiv (sample_interval_s * 1000) ≠ (c + 1).tdiv (sample_interval_s * 1000)) :
    answer from_ts to_ts =
      ((ranges from_ts to_ts cuts).flatMap fun r => answer r.1 r.2).take limit.toNat := by
  obtain ⟨all, hall, heq⟩ := h from_ts to_ts
  rw [← hall.length_eq] at hcount hends
  rw [heq, cut_eq_take hlimit hcount]
  rcases Int.lt_or_le 0 sample_interval_s with hinterval | hinterval
  · obtain ⟨hwhole, hends⟩ := hends hinterval
    rw [← h.sampled hlimit hinterval hpieces hends hall hcount hwhole, List.take_of_length_le (by omega),
      TripHandler.downsample_eq_starts hinterval, List.take_of_length_le]
    have hle : (starts (TripHandler.bucket sample_interval_s) none all).length ≤ all.length :=
      Store.starts_sublist.length_le
    omega
  · rw [← h.unsampled hlimit hinterval hpieces hall hcount]
    exact if_pos (.inl hinterval)

end Pieces

section Trips

open PostgresClient (stored)

variable {D : Type} [LinearOrder D] (haversine : ℚ → ℚ → ℚ → ℚ → D) (metres : ℚ → D) {service}

/-- A running service answers what the handler does: an empty range is an error, and has no events. -/
theorem handle_trip_events (hrunning : service.running = true) (request : TripQueryRequest)
    (hdevice : request.device_id ≠ "") (hlimit : 0 < request.limit) :
    (service.handle_trip request).events = TripHandler.handle service.pg request.device_id request.from_ts
      request.to_ts request.sample_interval_s request.limit := by
  unfold handle_trip trip valid_trip_range
  simp only [hrunning, Bool.not_true, Bool.false_eq_true, if_false, hdevice, hlimit, decide_true, Bool.and_true]
  by_cases hrange : request.from_ts ≤ request.to_ts
  · simp [hrange]
  · simp [hrange, TripHandler.handle, lt_of_not_ge hrange]

theorem handle_trip_spatial_events (hrunning : service.running = true) (request : SpatialTripQueryRequest)
    (hdevice : request.device_id ≠ "") (hlimit : 0 < request.limit)
    (hcenter : valid_lat_lon request.center_lat request.center_lon = true)
    (hfinite : request.radius_m.isfinite = true) (hradius : .finite 0 ≤ request.radius_m) :
    (service.handle_trip_spatial haversine metres request).events =
      TripHandler.handle_spatial haversine metres service.pg request.device_id request.from_ts request.to_ts
        request.center_lat request.center_lon request.radius_m request.sample_interval_s request.limit := by
  obtain ⟨r, hr⟩ := request.radius_m.isfinite_iff.mp hfinite
  have hpos : ¬request.radius_m < .finite 0 := by
    rw [hr] at hradius ⊢
    simpa using hradius
  unfold handle_trip_spatial trip_spatial valid_trip_range
  simp only [hrunning, Bool.not_true, Bool.false_eq_true, if_false, hdevice, hlimit, decide_true, Bool.and_true,
    hcenter, hfinite, hpos, decide_false, Bool.or_false]
  by_cases hrange : request.from_ts ≤ request.to_ts
  · simp [hrange]
  · simp [hrange, TripHandler.handle_spatial, lt_of_not_ge hrange]

theorem asked_eq_during (events : Set LocationEvent) (device_id : String) (from_ts to_ts : ℤ) :
    asked events device_id from_ts to_ts =
      during {event ∈ events | event.device_id = device_id} from_ts to_ts := by
  ext event
  simp [asked, during, and_assoc]

theorem askedWithin_eq_during (events : Set LocationEvent) (device_id : String) (from_ts to_ts : ℤ)
    (center_lat center_lon radius_m : Double) :
    askedWithin haversine metres events device_id from_ts to_ts center_lat center_lon radius_m =
      during {event ∈ events | event.device_id = device_id ∧
        PostgresClient.within haversine metres center_lat center_lon radius_m event = true} from_ts to_ts := by
  ext event
  simp only [askedWithin, asked, during, Set.mem_ofPred_eq]
  tauto

/-- The points asked for are finitely many. -/
theorem finite_asked (pg : PostgresClient) (device_id : String) (from_ts to_ts : ℤ) :
    (asked {event | event ∈ pg.trip_points} device_id from_ts to_ts).Finite :=
  (List.finite_toSet pg.trip_points).subset fun _ h => h.1

/-- A trip is read in pieces: for every way to cut the range of a request into adjoining ranges, the
answers for these, one after the other and cut at the limit, are the answer for the whole range. With
sampling this holds where the pieces meet at ends of buckets and the limit does not cut the points. -/
theorem trip_in_pieces (service : QueryService) (hrunning : service.running = true)
    (batches : List (List LocationEvent)) (hpg : service.pg = stored batches)
    (request : SpatialTripQueryRequest) (hdevice : request.device_id ≠ "") (hlimit : 0 < request.limit)
    (hcenter : valid_lat_lon request.center_lat request.center_lon = true)
    (hfinite : request.radius_m.isfinite = true) (hradius : .finite 0 ≤ request.radius_m)
    (cuts : List ℤ) (hpieces : ∀ r ∈ ranges request.from_ts request.to_ts cuts, r.1 ≤ r.2)
    (hcount : (asked {event | event ∈ service.pg.trip_points} request.device_id request.from_ts
      request.to_ts).ncard < 2^31)
    (hends : 0 < request.sample_interval_s →
      (asked {event | event ∈ service.pg.trip_points} request.device_id request.from_ts
        request.to_ts).ncard ≤ request.limit ∧
      ∀ c ∈ cuts, c.tdiv (request.sample_interval_s * 1000) ≠
        (c + 1).tdiv (request.sample_interval_s * 1000)) :
    (service.handle_trip request.toTripQueryRequest).events =
      ((ranges request.from_ts request.to_ts cuts).flatMap fun r => (service.handle_trip
        { request.toTripQueryRequest with from_ts := r.1, to_ts := r.2 }).events).take
          request.limit.toNat ∧
    (service.handle_trip_spatial haversine metres request).events =
      ((ranges request.from_ts request.to_ts cuts).flatMap fun r => (service.handle_trip_spatial
        haversine metres { request with from_ts := r.1, to_ts := r.2 }).events).take
          request.limit.toNat := by
  have hkeyed : service.pg.Keyed := hpg ▸ PostgresClient.keyed_stored batches
  constructor
  · have hreads : Reads request.sample_interval_s request.limit
        {event ∈ {event | event ∈ service.pg.trip_points} | event.device_id = request.device_id}
        fun from_ts to_ts => (service.handle_trip
          { request.toTripQueryRequest with from_ts := from_ts, to_ts := to_ts }).events := by
      intro from_ts to_ts
      obtain ⟨all, hall, heq⟩ := TripHandler.handle_eq request.device_id from_ts to_ts
        request.sample_interval_s request.limit hkeyed hlimit
      rw [asked_eq_during] at hall
      rw [if_neg hdevice] at heq
      exact ⟨all, hall, (handle_trip_events hrunning { request.toTripQueryRequest with from_ts, to_ts } hdevice
        hlimit).trans heq⟩
    rw [asked_eq_during] at hcount hends
    exact hreads.in_pieces hlimit hpieces hcount hends
  · have hreads : Reads request.sample_interval_s request.limit
        {event ∈ {event | event ∈ service.pg.trip_points} | event.device_id = request.device_id ∧
          PostgresClient.within haversine metres request.center_lat request.center_lon request.radius_m
            event = true}
        fun from_ts to_ts => (service.handle_trip_spatial haversine metres
          { request with from_ts := from_ts, to_ts := to_ts }).events := by
      intro from_ts to_ts
      obtain ⟨all, hall, heq⟩ := @TripHandler.handle_spatial_eq service.pg request.device_id from_ts to_ts
        request.sample_interval_s request.limit D _ haversine metres hkeyed hlimit _ _ _ hcenter hfinite hradius
      rw [askedWithin_eq_during] at hall
      rw [if_neg hdevice] at heq
      exact ⟨all, hall, (handle_trip_spatial_events haversine metres hrunning { request with from_ts, to_ts }
        hdevice hlimit hcenter hfinite hradius).trans heq⟩
    have hle : (askedWithin haversine metres {event | event ∈ service.pg.trip_points} request.device_id
        request.from_ts request.to_ts request.center_lat request.center_lon request.radius_m).ncard ≤
        (asked {event | event ∈ service.pg.trip_points} request.device_id request.from_ts
          request.to_ts).ncard :=
      Set.ncard_le_ncard (fun _ h => h.1) (finite_asked _ _ _ _)
    rw [askedWithin_eq_during] at hle
    exact hreads.in_pieces hlimit hpieces (hle.trans_lt hcount) fun hinterval =>
      ⟨(Int.ofNat_le.mpr hle).trans (hends hinterval).1, (hends hinterval).2⟩

/-- A service with two points in one second and one in the next. -/
def three_points : QueryService :=
  { pg := stored [[TripHandler.pointAt 1000 1, TripHandler.pointAt 1500 2, TripHandler.pointAt 2000 3]] }

/-- A request for the trip around the origin, sampled to one point a second. -/
def first_seconds : SpatialTripQueryRequest :=
  { device_id := "d", to_ts := 3000, sample_interval_s := 1, limit := 5 }

/-- For the three points, read until the end of the first second and from there. -/
theorem trip_in_pieces_seconds :
    (three_points.handle_trip first_seconds.toTripQueryRequest).events =
      ((ranges 0 3000 [1999]).flatMap fun r => (three_points.handle_trip
        { first_seconds.toTripQueryRequest with from_ts := r.1, to_ts := r.2 }).events).take 5 ∧
    (three_points.handle_trip_spatial (fun a b c d => |a - c| + |b - d|) id first_seconds).events =
      ((ranges 0 3000 [1999]).flatMap fun r => (three_points.handle_trip_spatial
        (fun a b c d => |a - c| + |b - d|) id { first_seconds with from_ts := r.1, to_ts := r.2 }).events).take
          5 := by
  have hcount : (asked {event | event ∈ three_points.pg.trip_points} "d" 0 3000).ncard = 3 :=
    (TripHandler.inOrder_trip [TripHandler.pointAt 1000 1, TripHandler.pointAt 1500 2,
      TripHandler.pointAt 2000 3] (by decide) (by decide) (by decide)).length_eq.symm
  exact trip_in_pieces (fun a b c d => |a - c| + |b - d|) id three_points rfl _ rfl first_seconds (by decide)
    (by decide) (by decide) rfl (by decide) [1999] (by decide) (hcount.trans_lt (by decide)) fun _ =>
      ⟨by rw [show (asked {event | event ∈ three_points.pg.trip_points} first_seconds.device_id
        first_seconds.from_ts first_seconds.to_ts).ncard = 3 from hcount]; decide, by decide⟩

end Trips

section Nearby

open NearbyHandler (Request nearer sort found effective_limit distance)

variable {D : Type} [LinearOrder D] {haversine : ℚ → ℚ → ℚ → ℚ → D} {metres : ℚ → D} {service}
  {order order' : HashOrder} {now_ms : ℤ} {request request' : NearbyDevicesRequest} {k k' : ℤ}

/-- A request for the same point that asks for no less. -/
structure Widens (request request' : NearbyDevicesRequest) : Prop where
  lat : request'.lat = request.lat
  lon : request'.lon = request.lon
  radius : request.radius_m ≤ request'.radius_m
  last_seen : request'.last_seen_s = 0 ∨
    0 < request.last_seen_s ∧ request.last_seen_s ≤ request'.last_seen_s

/-- A wider request is for a radius that is no smaller, also after the cut to the maximum. -/
theorem Widens.radius_le (h : Widens request request') (cfg : SpatialConfig)
    (hfinite : request.radius_m.isfinite = true) (hfinite' : request'.radius_m.isfinite = true) :
    (request.radius_m.min cfg.nearby_max_radius_m).toRat ≤
      (request'.radius_m.min cfg.nearby_max_radius_m).toRat := by
  obtain ⟨q, hq⟩ := request.radius_m.isfinite_iff.mp hfinite
  obtain ⟨q', hq'⟩ := request'.radius_m.isfinite_iff.mp hfinite'
  have hle := h.radius
  rw [hq, hq'] at hle ⊢
  rw [Double.finite_le_finite] at hle
  cases cfg.nearby_max_radius_m with
  | finite p =>
    rw [Double.finite_min, Double.finite_min]
    exact min_le_min_right p hle
  | infinite negative =>
    cases negative with
    | false => exact hle
    | true => exact le_refl _
  | nan => exact hle

/-- A larger radius has no fewer rings. -/
theorem Widens.rings_le (h : Widens request request')
    (hreq : Request service.h3 service.spatial request.lat request.lon request.radius_m request.last_seen_s k)
    (hreq' : Request service.h3 service.spatial request'.lat request'.lon request'.radius_m
      request'.last_seen_s k') : k ≤ k' := by
  have hle := h.radius_le service.spatial hreq.radius_finite hreq'.radius_finite
  obtain ⟨r, hr, heq⟩ := hreq.effective_radius_pos
  obtain ⟨r', hr', heq'⟩ := hreq'.effective_radius_pos
  have hk := hreq.rings
  have hk' := hreq'.rings
  rw [heq, H3Index.radius_to_k_finite _ hr.le] at hk
  rw [heq', H3Index.radius_to_k_finite _ hr'.le] at hk'
  rw [heq, heq', Double.toRat_finite, Double.toRat_finite] at hle
  rw [← Except.ok.inj hk, ← Except.ok.inj hk']
  exact Int.ceil_le_ceil (service.h3.edges_mono hr.le hle)

/-- What passes the filter of a request passes that of a wider one, also where its age wraps around. -/
theorem Widens.fresh (h : Widens request request') {state : DeviceState}
    (hfresh : NearbyHandler.fresh now_ms request.last_seen_s state = true) :
    NearbyHandler.fresh now_ms request'.last_seen_s state = true := by
  unfold NearbyHandler.fresh at *
  simp only [Bool.not_eq_true', Bool.and_eq_false_iff, decide_eq_false_iff_not] at *
  rcases h.last_seen with hzero | ⟨hseen, hle⟩ <;> omega

variable (haversine metres order now_ms) in
/-- The devices that a served request finds. -/
def foundFor (service : QueryService) (request : NearbyDevicesRequest) (k : ℤ) : List (DeviceState × D) :=
  found haversine metres service.h3 service.spatial order service.redis now_ms request.lat request.lon
    request.radius_m request.last_seen_s k

/-- A wider request finds no less. -/
theorem Widens.found_subset (h : Widens request request') (hmetres : Monotone metres)
    (hredis : Written service.h3 service.redis)
    (hreq : Request service.h3 service.spatial request.lat request.lon request.radius_m request.last_seen_s k)
    (hreq' : Request service.h3 service.spatial request'.lat request'.lon request'.radius_m
      request'.last_seen_s k') :
    foundFor haversine metres order now_ms service request k ⊆
      foundFor haversine metres order' now_ms service request' k' := by
  rintro ⟨state, dist⟩ hmem
  obtain ⟨⟨⟨hstored, hdist⟩, hcov, hfresh⟩, rfl⟩ := (NearbyHandler.mem_found hreq hredis state dist).mp hmem
  have hk := h.rings_le hreq hreq'
  obtain ⟨hx, hy, hxy⟩ := hcov
  refine (NearbyHandler.mem_found hreq' hredis state _).mpr ⟨⟨⟨hstored, ?_⟩, ?_, h.fresh hfresh⟩, ?_⟩
  · unfold distance at hdist ⊢
    rw [h.lat, h.lon]
    exact hdist.trans (hmetres (h.radius_le _ hreq.radius_finite hreq'.radius_finite))
  · unfold NearbyHandler.Covered
    rw [h.lat, h.lon]
    exact ⟨hx.trans hk, hy.trans hk, hxy.trans hk⟩
  · unfold distance
    rw [h.lat, h.lon]

/-- No more devices are found than are stored. -/
theorem length_found_le (hredis : Written service.h3 service.redis)
    (hreq : Request service.h3 service.spatial request.lat request.lon request.radius_m request.last_seen_s k) :
    (foundFor haversine metres order now_ms service request k).length ≤
      service.redis.device_states.keys.length := by
  have hnodup : ((foundFor haversine metres order now_ms service request k).map
      fun device => device.1.device_id).Nodup := List.pairwise_map.mpr (NearbyHandler.found_pairwise hredis)
  rw [← List.length_map fun device : DeviceState × D => device.1.device_id]
  refine (hnodup.subperm fun id hid => ?_).length_le
  obtain ⟨⟨state, dist⟩, hmem, rfl⟩ := List.mem_map.mp hid
  obtain ⟨⟨⟨⟨id, hid⟩, -⟩, -⟩, -⟩ := (NearbyHandler.mem_found hreq hredis state dist).mp hmem
  have hsame : state.device_id = id := hredis.indexed.device_id_eq id state hid
  dsimp only
  rw [hsame]
  exact AList.mem_keys.mpr (AList.lookup_isSome.mp (Option.isSome_of_eq_some hid))

variable (haversine metres order now_ms) in
/-- What the service answers to a request that the handler serves. -/
theorem handle_nearby_eq (hrunning : service.running = true) (hredis : Written service.h3 service.redis)
    (hcount : service.redis.device_states.keys.length < 2^31)
    (hreq : Request service.h3 service.spatial request.lat request.lon request.radius_m request.last_seen_s k) :
    ∃ total, service.handle_nearby haversine metres order now_ms request = .ok {
      ok := true
      result := {
        devices := (sort (foundFor haversine metres order now_ms service request k)).take
          (effective_limit service.spatial request.limit).toNat
        total_candidates := total
        total_in_radius := (foundFor haversine metres order now_ms service request k).length } } := by
  obtain ⟨total, heq⟩ := NearbyHandler.handle_eq haversine metres order service.redis now_ms request.limit hreq
  have hlen : (foundFor haversine metres order now_ms service request k).length ≤
    service.redis.device_states.keys.length := length_found_le hredis hreq
  have hpos : 0 < effective_limit service.spatial request.limit := NearbyHandler.effective_limit_pos
  obtain ⟨q, hq⟩ := request.radius_m.isfinite_iff.mp hreq.radius_finite
  have hradius : ¬request.radius_m ≤ .finite 0 := by
    have := hreq.radius_pos
    rw [hq] at this ⊢
    simpa using this
  refine ⟨total, ?_⟩
  unfold handle_nearby nearby
  dsimp only at heq
  rw [hrunning, hreq.position, hreq.radius_finite, heq]
  have hsort : (sort (foundFor haversine metres order now_ms service request k)).length =
      (foundFor haversine metres order now_ms service request k).length :=
    (List.mergeSort_perm _ _).length_eq
  rw [show found haversine metres service.h3 service.spatial order service.redis now_ms request.lat request.lon
    request.radius_m request.last_seen_s k = foundFor haversine metres order now_ms service request k from rfl,
    ite_castInt_eq_take hpos (by omega), (castInt_natCast_eq_iff _).mpr (by omega)]
  simp [hradius, not_lt.mpr hreq.last_seen]

variable (service haversine metres request request') in
/-- Nothing is lost by asking for more. For two requests at one point and time, of which the second is for
a radius and an age that are no smaller, the second counts no fewer devices, and a device of the first
answer is missing from the second only where the limit of the second leaves it out for as many nearer
ones. Where only the limits differ, the answer to the smaller is the start of the answer to the larger. -/
theorem nearby_widens (hrunning : service.running = true) (hredis : Written service.h3 service.redis)
    (hcount : service.redis.device_states.keys.length < 2^31) (hmetres : Monotone metres)
    (order order' : HashOrder) (now_ms : ℤ)
    (hreq : Request service.h3 service.spatial request.lat request.lon request.radius_m request.last_seen_s k)
    (hreq' : Request service.h3 service.spatial request'.lat request'.lon request'.radius_m
      request'.last_seen_s k') (h : Widens request request') :
    ∃ response response', service.handle_nearby haversine metres order now_ms request = .ok response ∧
      service.handle_nearby haversine metres order' now_ms request' = .ok response' ∧
      response.ok = true ∧ response'.ok = true ∧
      response.result.total_in_radius ≤ response'.result.total_in_radius ∧
      (∀ device ∈ response.result.devices, device ∉ response'.result.devices →
        response'.result.devices.length = effective_limit service.spatial request'.limit ∧
          ∀ other ∈ response'.result.devices, nearer other device = true) ∧
      (Widens request' request →
        effective_limit service.spatial request.limit ≤ effective_limit service.spatial request'.limit →
          response.result.devices <+: response'.result.devices) := by
  obtain ⟨total, heq⟩ := handle_nearby_eq haversine metres order now_ms hrunning hredis hcount hreq
  obtain ⟨total', heq'⟩ := handle_nearby_eq haversine metres order' now_ms hrunning hredis hcount hreq'
  have hsub : foundFor haversine metres order now_ms service request k ⊆
      foundFor haversine metres order' now_ms service request' k' :=
    h.found_subset hmetres hredis hreq hreq'
  have hid : (foundFor haversine metres order now_ms service request k).Pairwise
      fun a b => a.1.device_id ≠ b.1.device_id := NearbyHandler.found_pairwise hredis
  have hid' : (foundFor haversine metres order' now_ms service request' k').Pairwise
      fun a b => a.1.device_id ≠ b.1.device_id := NearbyHandler.found_pairwise hredis
  have hpos' : 0 < effective_limit service.spatial request'.limit := NearbyHandler.effective_limit_pos
  have hnodup : (foundFor haversine metres order now_ms service request k).Nodup :=
    hid.imp fun hne heq => hne (by rw [heq])
  refine ⟨_, _, heq, heq', rfl, rfl, Int.ofNat_le.mpr (hnodup.subperm hsub).length_le, ?_, ?_⟩
  · intro device hdevice hmissing
    have hmem : device ∈ sort (foundFor haversine metres order' now_ms service request' k') :=
      List.mem_mergeSort.mpr (hsub (List.mem_mergeSort.mp (List.mem_of_mem_take hdevice)))
    obtain ⟨hlen, hnearer⟩ := Store.full_of_notMem_take (NearbyHandler.pairwise_sort hid') hmem hmissing
    exact ⟨(congrArg Nat.cast hlen).trans (Int.toNat_of_nonneg hpos'.le), hnearer⟩
  · intro hback hlimit
    have hsub' : foundFor haversine metres order' now_ms service request' k' ⊆
        foundFor haversine metres order now_ms service request k :=
      hback.found_subset hmetres hredis hreq' hreq
    have hnodup' : (foundFor haversine metres order' now_ms service request' k').Nodup :=
      hid'.imp fun hne heq => hne (by rw [heq])
    -- The two searches find the same devices, in one order or the other.
    have hsort : sort (foundFor haversine metres order now_ms service request k) =
        sort (foundFor haversine metres order' now_ms service request' k') :=
      NearbyHandler.sort_eq_of_perm ((List.perm_ext_iff_of_nodup hnodup hnodup').mpr fun device =>
        ⟨fun hmem => hsub hmem, fun hmem => hsub' hmem⟩) hid
    dsimp only
    rw [hsort]
    exact List.take_prefix_take_left (Int.toNat_le_toNat hlimit)

/-- A service whose one device reports from the antimeridian. -/
def seam_service : QueryService := { redis := NearbyHandler.seam_store }

/-- Two kilometres take two rings. -/
theorem seam_request_wider :
    Request H3Index.default .default (.finite 0) (.finite 180) (.finite 2000) 0 2 where
  position := by decide +kernel
  radius_finite := rfl
  radius_pos := by decide +kernel
  last_seen := le_refl 0
  rings := by decide +kernel
  disk_fits := by decide

/-- For one kilometre and two, there. -/
theorem nearby_widens_seam : ∃ response response',
    seam_service.handle_nearby (fun a b c d => |a - c| + |b - d|) id .insertion 2
      { lat := .finite 0, lon := .finite 180, radius_m := .finite 1000, limit := 5 } = .ok response ∧
    seam_service.handle_nearby (fun a b c d => |a - c| + |b - d|) id .insertion 2
      { lat := .finite 0, lon := .finite 180, radius_m := .finite 2000, limit := 10 } = .ok response' ∧
    response.ok = true ∧ response'.ok = true ∧
    response.result.total_in_radius ≤ response'.result.total_in_radius := by
  obtain ⟨response, response', heq, heq', hok, hok', htotal, -⟩ :=
    nearby_widens seam_service (fun a b c d => |a - c| + |b - d|) id
      { lat := .finite 0, lon := .finite 180, radius_m := .finite 1000, limit := 5 }
      { lat := .finite 0, lon := .finite 180, radius_m := .finite 2000, limit := 10 } rfl
      NearbyHandler.seam_store_written (by decide +kernel) monotone_id .insertion .insertion 2
      NearbyHandler.seam_request seam_request_wider ⟨rfl, rfl, by decide +kernel, .inl rfl⟩
  exact ⟨response, response', heq, heq', hok, hok', htotal⟩

end Nearby

end QueryService

end SignalRoute
