import SignalRoute.Clients.TripPoints
import SignalRoute.Spatial.H3Index
import SignalRoute.Store.Buckets

/-!
# The trip query

`src/query/trip_handler.cpp`: the store's answer, which is already cut at the limit, is sampled to one
point an interval. The specification samples all the points and cuts afterwards.

The two differ where the points before the cut fill fewer buckets than the limit and later points start
more (`Sampled`), and where the division of a time by the interval, which rounds towards zero, puts two
neighbours into one bucket that the floor tells apart, or the other way round.
-/

namespace SignalRoute

open Numeric (Double)
open Store (firsts starts Alike)
open PostgresClient (InOrder asked askedWithin stored cut)

namespace TripHandler

/-- The bucket of an event: the division rounds towards zero. -/
def bucket (sample_interval_s : ℤ) (event : LocationEvent) : ℤ :=
  let interval_ms := sample_interval_s * 1000
  let ts := if event.timestamp_ms ≠ 0 then event.timestamp_ms else event.server_recv_ms
  ts.tdiv interval_ms

/-- The variables of the loop of `downsample_by_interval`. -/
structure Sampling where
  sampled : List LocationEvent := []
  last_kept_bucket : ℤ := 0
  has_kept : Bool := false

/-- The body of the loop. -/
def Sampling.next (sample_interval_s : ℤ) (s : Sampling) (event : LocationEvent) : Sampling :=
  let bucket := bucket sample_interval_s event
  if !s.has_kept || bucket ≠ s.last_kept_bucket then
    { sampled := s.sampled ++ [event], last_kept_bucket := bucket, has_kept := true }
  else s

/-- `downsample_by_interval`. -/
def downsample_by_interval (events : List LocationEvent) (sample_interval_s : ℤ) :
    List LocationEvent :=
  if sample_interval_s ≤ 0 ∨ events.length ≤ 1 then events
  else (events.foldl (Sampling.next sample_interval_s) {}).sampled

/-- `handle`. -/
def handle (pg : PostgresClient) (device_id : String) (from_ts to_ts sample_interval_s limit : ℤ) :
    List LocationEvent :=
  if device_id = "" ∨ from_ts > to_ts ∨ limit ≤ 0 then []
  else
    let events := pg.query_trip device_id from_ts to_ts limit
    downsample_by_interval events sample_interval_s

/-- `handle_spatial`. -/
def handle_spatial {D : Type} [LinearOrder D] (haversine : ℚ → ℚ → ℚ → ℚ → D) (metres : ℚ → D)
    (pg : PostgresClient) (device_id : String) (from_ts to_ts : ℤ)
    (center_lat center_lon radius_m : Double) (sample_interval_s limit : ℤ) : List LocationEvent :=
  if device_id = "" || from_ts > to_ts || limit ≤ 0 || !center_lat.isfinite ||
      !center_lon.isfinite || !radius_m.isfinite || center_lat < .finite (-90) ||
      .finite 90 < center_lat || center_lon < .finite (-180) || .finite 180 < center_lon ||
      radius_m < .finite 0 then
    []
  else
    let events := pg.query_trip_spatial haversine metres device_id from_ts to_ts center_lat
      center_lon radius_m limit
    downsample_by_interval events sample_interval_s

section Specification

variable (sample_interval_s : ℤ)

/-- The time bucket of an event. -/
def timeBucket (event : LocationEvent) : ℤ := event_time_ms event / (1000 * sample_interval_s)

/-- The first points, up to a limit, of the sampling of a list: one for each time bucket. -/
def sample (limit : ℤ) (all : List LocationEvent) : List LocationEvent :=
  (firsts (timeBucket sample_interval_s) [] all).take limit.toNat

/-- Neighbours have different buckets in the code where their time buckets are different. -/
def BucketsAgree (l : List LocationEvent) : Prop :=
  l.IsChain fun a b =>
    bucket sample_interval_s a = bucket sample_interval_s b ↔
      timeBucket sample_interval_s a = timeBucket sample_interval_s b

/-- The number of time buckets of some events. -/
def bucketCount (l : List LocationEvent) : ℕ := (l.map (timeBucket sample_interval_s)).toFinset.card

/-- The points of `back` are in the bucket of the last of `front`. -/
def Continues (bucket : LocationEvent → ℤ) (front back : List LocationEvent) : Prop :=
  ∀ event ∈ back, front.getLast?.map bucket = some (bucket event)

/-- When sampling what the store's cut leaves of a list is to sample the list: the points up to the
limit have buckets that agree, and they fill as many time buckets as the limit says or no later point
starts another. Where the store does not cut the list, it has to start like this. -/
def Sampled (limit : ℤ) (all : List LocationEvent) : Prop :=
  if all.length ≤ limit ∨ limit < castInt all.length then
    BucketsAgree sample_interval_s (all.take limit.toNat) ∧
      (bucketCount sample_interval_s (all.take limit.toNat) = limit ∨
        Continues (timeBucket sample_interval_s) (all.take limit.toNat) (all.drop limit.toNat))
  else ∃ front back, all = front ++ back ∧ BucketsAgree sample_interval_s front ∧
    (bucketCount sample_interval_s front ≤ limit ∧ back = [] ∨
      bucketCount sample_interval_s front = limit ∧ Continues (bucket sample_interval_s) front back)

end Specification

section Sampling

variable {sample_interval_s limit : ℤ} {events : Set LocationEvent} {all : List LocationEvent}

/-- The bucket of the event kept last. -/
def Sampling.last (s : Sampling) : Option ℤ := if s.has_kept then some s.last_kept_bucket else none

/-- An event is kept where a bucket starts. -/
theorem next_eq (s : Sampling) (event : LocationEvent) :
    s.next sample_interval_s event =
      if s.last = some (bucket sample_interval_s event) then s
      else { sampled := s.sampled ++ [event], last_kept_bucket := bucket sample_interval_s event,
             has_kept := true } := by
  unfold Sampling.next Sampling.last
  cases s.has_kept with
  | false => rfl
  | true =>
    by_cases h : bucket sample_interval_s event = s.last_kept_bucket
    · simp [h]
    · simp [h, Ne.symm h]

/-- The loop keeps the events where a bucket starts. -/
theorem loop_eq (s : Sampling) (l : List LocationEvent) :
    (l.foldl (Sampling.next sample_interval_s) s).sampled =
      s.sampled ++ starts (bucket sample_interval_s) s.last l := by
  induction l generalizing s with
  | nil => exact (List.append_nil _).symm
  | cons event l ih =>
    rw [List.foldl_cons, ih, next_eq]
    by_cases h : s.last = some (bucket sample_interval_s event)
    · rw [if_pos h, Store.starts_cons_same h]
    · rw [if_neg h, Store.starts_cons_other h, List.append_assoc]
      rfl

theorem downsample_eq_starts (hinterval : 0 < sample_interval_s) (l : List LocationEvent) :
    downsample_by_interval l sample_interval_s = starts (bucket sample_interval_s) none l := by
  unfold downsample_by_interval
  by_cases hshort : l.length ≤ 1
  · rw [if_pos (.inr hshort)]
    cases l with
    | nil => rfl
    | cons event l =>
      obtain rfl : l = [] := List.length_eq_zero_iff.mp (by simpa using hshort)
      rfl
  · rw [if_neg (by omega)]
    exact loop_eq {} l

/-- A sampling keeps the order, and adds nothing. -/
theorem downsample_sublist (l : List LocationEvent) : (downsample_by_interval l sample_interval_s).Sublist l := by
  by_cases hinterval : 0 < sample_interval_s
  · rw [downsample_eq_starts hinterval]
    exact Store.starts_sublist
  · unfold downsample_by_interval
    rw [if_pos (.inl (not_lt.mp hinterval))]

/-- The times of a list in order do not decrease, so their buckets do not. -/
theorem timeBucket_mono (hinterval : 0 < sample_interval_s) (h : InOrder events all) :
    all.Pairwise fun a b => timeBucket sample_interval_s a ≤ timeBucket sample_interval_s b := by
  refine h.ascending.imp fun {a b} hab => Int.ediv_le_ediv (by omega) ?_
  rcases hab with hlt | ⟨heq, -⟩
  · exact hlt.le
  · exact heq.le

/-- Sampling what the cut leaves is to sample the list and cut it then, exactly if the points are
`Sampled`. -/
theorem downsample_cut_eq_iff (hinterval : 0 < sample_interval_s) (hlimit : 0 < limit)
    (h : InOrder events all) :
    downsample_by_interval (cut all limit) sample_interval_s = sample sample_interval_s limit all ↔
      Sampled sample_interval_s limit all := by
  have hmono := timeBucket_mono hinterval h
  have hfirsts : sample sample_interval_s limit all =
      (starts (timeBucket sample_interval_s) none all).take limit.toNat := by
    unfold sample
    rw [Store.starts_eq_firsts [] hmono (fun b hb => by cases hb) (fun b hb => by cases hb)
      fun _ => rfl]
  rw [downsample_eq_starts hinterval, hfirsts]
  unfold Sampled BucketsAgree bucketCount Continues
  have hcut := PostgresClient.cut_eq_take_iff all hlimit
  split
  · rename_i hfits
    rw [hcut.mpr hfits, Store.starts_take_eq_iff h.nodup (le_refl _), Store.alike_none_iff,
      Store.length_starts (hmono.sublist (List.take_sublist _ _)), Store.starts_eq_nil_iff,
      Store.lastBucket_none]
    refine and_congr_right fun _ => or_congr ?_ Iff.rfl
    omega
  · rename_i hfits
    have hwhole : cut all limit = all := by
      unfold cut
      exact if_neg fun hcast => hfits (.inr hcast)
    rw [hwhole, Store.starts_eq_take_iff h.nodup]
    refine exists_congr fun front => exists_congr fun back => and_congr_right fun heq => ?_
    have hfront : front.Pairwise fun a b =>
        timeBucket sample_interval_s a ≤ timeBucket sample_interval_s b := by
      rw [heq] at hmono
      exact hmono.sublist (List.sublist_append_left _ _)
    rw [Store.alike_none_iff, Store.length_starts hfront, Store.starts_eq_nil_iff, Store.lastBucket_none]
    refine and_congr_right fun _ => or_congr (and_congr_left fun _ => ?_) (and_congr_left fun _ => ?_)
    · omega
    · omega

end Sampling

section Handler

variable {pg : PostgresClient} {device_id : String} {from_ts to_ts sample_interval_s limit : ℤ}

/-- When the handler answers as specified: the points are `Sampled`; for the empty device id, which it
does not serve, there are none. -/
def Answered (device_id : String) (sample_interval_s limit : ℤ) (all : List LocationEvent) : Prop :=
  (device_id = "" → all = []) ∧ (device_id ≠ "" → Sampled sample_interval_s limit all)

theorem sample_eq_nil_iff (hlimit : 0 < limit) (all : List LocationEvent) :
    [] = sample sample_interval_s limit all ↔ all = [] := by
  obtain ⟨n, hn⟩ : ∃ n, limit.toNat = n + 1 := ⟨limit.toNat - 1, by omega⟩
  unfold sample
  rw [hn]
  cases all with
  | nil => exact iff_of_true rfl rfl
  | cons event all =>
    unfold firsts
    rw [if_neg List.not_mem_nil]
    exact iff_of_false (fun h => by cases h) (List.cons_ne_nil _ _)

/-- The handler samples the store's answer, which is a cut list in order. -/
theorem answered_iff {events : Set LocationEvent} {answer : List LocationEvent}
    (hinterval : 0 < sample_interval_s) (hlimit : 0 < limit)
    (hanswer : ∃ all, InOrder events all ∧
      answer = if device_id = "" then []
        else downsample_by_interval (cut all limit) sample_interval_s) :
    (∃ all, InOrder events all ∧ answer = sample sample_interval_s limit all) ↔
      ∃ all, InOrder events all ∧ Answered device_id sample_interval_s limit all := by
  obtain ⟨all, hall, rfl⟩ := hanswer
  refine exists_congr fun all' => and_congr_right fun hall' => ?_
  rw [hall.unique hall']
  unfold Answered
  by_cases hdevice : device_id = ""
  · rw [if_pos hdevice, sample_eq_nil_iff hlimit]
    exact ⟨fun h => ⟨fun _ => h, fun hne => absurd hdevice hne⟩, fun h => h.1 hdevice⟩
  · rw [if_neg hdevice, downsample_cut_eq_iff hinterval hlimit hall']
    exact ⟨fun h => ⟨fun heq => absurd heq hdevice, fun _ => h⟩, fun h => h.2 hdevice⟩

theorem downsample_nil : downsample_by_interval [] sample_interval_s = [] := ite_self _

/-- What `handle` answers. -/
theorem handle_eq (device_id : String) (from_ts to_ts sample_interval_s limit : ℤ) (h : pg.Keyed)
    (hlimit : 0 < limit) :
    ∃ all, InOrder (asked {event | event ∈ pg.trip_points} device_id from_ts to_ts) all ∧
      handle pg device_id from_ts to_ts sample_interval_s limit = if device_id = "" then []
        else downsample_by_interval (cut all limit) sample_interval_s := by
  obtain ⟨all, hall, hcut⟩ := h.query_trip_eq device_id from_ts to_ts hlimit
  refine ⟨all, hall, ?_⟩
  rw [← hcut]
  unfold handle
  by_cases hdevice : device_id = ""
  · rw [if_pos (.inl hdevice), if_pos hdevice]
  · rw [if_neg hdevice]
    split
    · rename_i hrefused
      unfold PostgresClient.query_trip
      rw [if_pos (by tauto), downsample_nil]
    · rfl

/-- What `handle_spatial` answers for a circle. -/
theorem handle_spatial_eq {D : Type} [LinearOrder D] (haversine : ℚ → ℚ → ℚ → ℚ → D)
    (metres : ℚ → D) (h : pg.Keyed) (hlimit : 0 < limit) {center_lat center_lon radius_m : Double}
    (hcenter : valid_lat_lon center_lat center_lon = true) (hfinite : radius_m.isfinite = true)
    (hradius : .finite 0 ≤ radius_m) :
    ∃ all, InOrder (askedWithin haversine metres {event | event ∈ pg.trip_points} device_id from_ts
        to_ts center_lat center_lon radius_m) all ∧
      handle_spatial haversine metres pg device_id from_ts to_ts center_lat center_lon radius_m
        sample_interval_s limit = if device_id = "" then []
        else downsample_by_interval (cut all limit) sample_interval_s := by
  obtain ⟨lat, lon, rfl, rfl, hlat, hlat', hlon, hlon'⟩ := (valid_lat_lon_iff _ _).mp hcenter
  obtain ⟨r, rfl⟩ := radius_m.isfinite_iff.mp hfinite
  have hpos : ¬Double.finite r < .finite 0 := by simpa using hradius
  obtain ⟨all, hall, hcut⟩ := h.query_trip_spatial_eq haversine metres device_id from_ts to_ts hlimit
    (.finite lat) (.finite lon) hpos
  refine ⟨all, hall, ?_⟩
  rw [← hcut]
  unfold handle_spatial
  by_cases hdevice : device_id = ""
  · simp [hdevice]
  · rw [if_neg hdevice]
    split
    · rename_i hrefused
      -- The circle passes every check, so the range is empty.
      have hrange : from_ts > to_ts := by
        simp [hdevice] at hrefused hradius
        grind
      unfold PostgresClient.query_trip_spatial
      rw [if_pos (.inr (.inr hrange)), downsample_nil]
    · rfl

end Handler

/-- The limit is applied to the sample: `handle` gives the first of the sampling of all points of the
device in the range, and `handle_spatial` the first of the sampling of those in the circle. Each holds
exactly if those points are `Answered`. -/
theorem trips_sampled_iff {D : Type} [LinearOrder D] (haversine : ℚ → ℚ → ℚ → ℚ → D) (metres : ℚ → D)
    (batches : List (List LocationEvent)) (device_id : String)
    (from_ts to_ts sample_interval_s limit : ℤ) (hinterval : 0 < sample_interval_s)
    (hlimit : 0 < limit) (center_lat center_lon radius_m : Double)
    (hcenter : valid_lat_lon center_lat center_lon = true) (hfinite : radius_m.isfinite = true)
    (hradius : .finite 0 ≤ radius_m) :
    ((∃ all, InOrder (asked {event | event ∈ (stored batches).trip_points} device_id from_ts to_ts)
          all ∧
        handle (stored batches) device_id from_ts to_ts sample_interval_s limit =
          sample sample_interval_s limit all) ↔
      ∃ all, InOrder (asked {event | event ∈ (stored batches).trip_points} device_id from_ts to_ts)
          all ∧
        Answered device_id sample_interval_s limit all) ∧
    ((∃ all, InOrder (askedWithin haversine metres {event | event ∈ (stored batches).trip_points}
          device_id from_ts to_ts center_lat center_lon radius_m) all ∧
        handle_spatial haversine metres (stored batches) device_id from_ts to_ts center_lat center_lon
          radius_m sample_interval_s limit = sample sample_interval_s limit all) ↔
      ∃ all, InOrder (askedWithin haversine metres {event | event ∈ (stored batches).trip_points}
          device_id from_ts to_ts center_lat center_lon radius_m) all ∧
        Answered device_id sample_interval_s limit all) :=
  have hkeyed := PostgresClient.keyed_stored batches
  ⟨answered_iff hinterval hlimit (handle_eq _ _ _ _ _ hkeyed hlimit),
    answered_iff hinterval hlimit
      (handle_spatial_eq haversine metres hkeyed hlimit hcenter hfinite hradius)⟩

/-- A point of a trip, at the origin. -/
def pointAt (timestamp_ms : ℤ) (seq : ℕ) : LocationEvent :=
  { device_id := "d", timestamp_ms := timestamp_ms, seq := seq }

/-- A trip that is stored in its order. -/
theorem inOrder_trip (trip : List LocationEvent)
    (hkeys : (trip.map PostgresClient.trip_point_key).Nodup)
    (hrange : ∀ event ∈ trip, event.device_id = "d" ∧ 0 ≤ event_time_ms event ∧
      event_time_ms event ≤ 3000)
    (hascending : trip.Pairwise fun a b =>
      event_time_ms a < event_time_ms b ∨ event_time_ms a = event_time_ms b ∧ a.seq < b.seq) :
    InOrder (asked {event | event ∈ (stored [trip]).trip_points} "d" 0 3000) trip := by
  have hpoints : (stored [trip]).trip_points = trip :=
    @PostgresClient.batch_insert_of_fresh {} _ hkeys fun _ _ => Finset.notMem_empty _
  rw [hpoints]
  exact ⟨fun event => ⟨fun h => ⟨h, hrange event h⟩, fun h => h.1⟩, hascending⟩

/-- For two points in two seconds, both at the circle's center. -/
theorem trips_sampled_iff_two :
    (∃ all, InOrder (asked {event | event ∈ (stored [[pointAt 1000 1, pointAt 2000 2]]).trip_points}
        "d" 0 3000) all ∧
      handle (stored [[pointAt 1000 1, pointAt 2000 2]]) "d" 0 3000 1 2 = sample 1 2 all) ∧
    ∃ all, InOrder (askedWithin (fun a b c d => |a - c| + |b - d|) id
        {event | event ∈ (stored [[pointAt 1000 1, pointAt 2000 2]]).trip_points} "d" 0 3000 0 0 0)
        all ∧
      handle_spatial (fun a b c d => |a - c| + |b - d|) id
        (stored [[pointAt 1000 1, pointAt 2000 2]]) "d" 0 3000 0 0 0 1 2 = sample 1 2 all := by
  have htrip := inOrder_trip [pointAt 1000 1, pointAt 2000 2] (by decide) (by decide) (by decide)
  have hanswered : Answered "d" 1 2 [pointAt 1000 1, pointAt 2000 2] := by
    refine ⟨fun h => absurd h (by decide), fun _ => ?_⟩
    unfold Sampled
    rw [if_pos (.inl (by decide))]
    refine ⟨?_, .inl (by decide)⟩
    unfold BucketsAgree
    decide
  have hcircle : InOrder (askedWithin (fun a b c d => |a - c| + |b - d|) id
      {event | event ∈ (stored [[pointAt 1000 1, pointAt 2000 2]]).trip_points} "d" 0 3000 0 0 0)
      [pointAt 1000 1, pointAt 2000 2] := by
    refine ⟨fun event => ⟨fun h => ⟨(htrip.mem_iff event).mp h, ?_⟩,
      fun h => (htrip.mem_iff event).mpr h.1⟩, htrip.ascending⟩
    rcases List.mem_cons.mp h with rfl | h
    · decide +kernel
    · rw [List.mem_singleton.mp h]
      decide +kernel
  have hiff := trips_sampled_iff (fun a b c d => |a - c| + |b - d|) id
    [[pointAt 1000 1, pointAt 2000 2]] "d" 0 3000 1 2 (by decide) (by decide) 0 0 0 (by decide)
    (by decide) (by decide)
  exact ⟨hiff.1.mpr ⟨_, htrip, hanswered⟩, hiff.2.mpr ⟨_, hcircle, hanswered⟩⟩

/-- Two points in the first second and one in the next, with the limit two: only the first point is
returned. -/
theorem limit_hides_bucket :
    ¬∃ all, InOrder (asked {event | event ∈
        (stored [[pointAt 1000 1, pointAt 1500 2, pointAt 2000 3]]).trip_points} "d" 0 3000) all ∧
      handle (stored [[pointAt 1000 1, pointAt 1500 2, pointAt 2000 3]]) "d" 0 3000 1 2 =
        sample 1 2 all := by
  rintro ⟨all, hall, heq⟩
  have htrip := inOrder_trip [pointAt 1000 1, pointAt 1500 2, pointAt 2000 3] (by decide)
    (by decide) (by decide)
  obtain ⟨all', hall', hanswer⟩ := handle_eq "d" 0 3000 1 2
    (PostgresClient.keyed_stored [[pointAt 1000 1, pointAt 1500 2, pointAt 2000 3]]) (by decide)
  rw [hanswer, hall.unique htrip, hall'.unique htrip] at heq
  revert heq
  decide

end TripHandler

end SignalRoute
