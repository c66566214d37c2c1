import SignalRoute.Clients.Postgres
import Mathlib.Data.Prod.Lex
import Mathlib.Data.Set.Card
import Mathlib.Data.String.Basic

/-!
# Reading the trip points

The queries of `src/common/clients/postgres_client.cpp` over the trip points (in-memory build). The
store is specified as a set of events (`asked`), read in the order of event time and sequence number
(`InOrder`).

Inserting keeps the key set true to the points (`Keyed`), so the points are a set, and those of one
device have one order (`InOrder.unique`). A query sorts them in this order and then cuts the list at
the limit by comparing the limit with the length as an `int`, which is the cut that the limit asks for
except where that number is not the length (`cut_eq_take_iff`).
-/

namespace SignalRoute

open Numeric (Double)

/-- `event_time_ms`. -/
def event_time_ms (event : LocationEvent) : ℤ :=
  if event.timestamp_ms ≠ 0 then event.timestamp_ms else event.server_recv_ms

/-- `in_time_range`. -/
def in_time_range (event : LocationEvent) (from_ts to_ts : ℤ) : Bool :=
  let ts := event_time_ms event
  ts ≥ from_ts && ts ≤ to_ts

namespace PostgresClient

/-- The comparison of `sort_trip_points`. -/
def trip_before (lhs rhs : LocationEvent) : Bool :=
  let lhs_time := event_time_ms lhs
  let rhs_time := event_time_ms rhs
  if lhs_time ≠ rhs_time then lhs_time < rhs_time
  else if lhs.device_id ≠ rhs.device_id then lhs.device_id < rhs.device_id
  else lhs.seq < rhs.seq

/-- `sort_trip_points`. -/
def sort_trip_points (events : List LocationEvent) : List LocationEvent :=
  events.mergeSort fun a b => !trip_before b a

/-- The end of both queries: the result is resized where its size, as an `int`, is over the limit. -/
def cut (result : List LocationEvent) (limit : ℤ) : List LocationEvent :=
  if castInt result.length > limit then result.take limit.toNat else result

/-- `query_trip`. -/
def query_trip (pg : PostgresClient) (device_id : String) (from_ts to_ts limit : ℤ) :
    List LocationEvent :=
  if limit ≤ 0 ∨ from_ts > to_ts then []
  else
    let result := pg.trip_points.filter fun event =>
      event.device_id = device_id && in_time_range event from_ts to_ts
    cut (sort_trip_points result) limit

section Spatial

variable {D : Type} [LinearOrder D] (haversine : ℚ → ℚ → ℚ → ℚ → D) (metres : ℚ → D)

/-- Whether a distance is at most the radius. A coordinate that is no number makes the distance none. -/
def within (center_lat center_lon radius_m : Double) (event : LocationEvent) : Bool :=
  center_lat.isfinite && center_lon.isfinite && event.lat.isfinite && event.lon.isfinite &&
    match radius_m with
    | .finite r =>
      haversine center_lat.toRat center_lon.toRat event.lat.toRat event.lon.toRat ≤ metres r
    | .infinite negative => !negative
    | .nan => false

/-- `query_trip_spatial`. -/
def query_trip_spatial (pg : PostgresClient) (device_id : String) (from_ts to_ts : ℤ)
    (center_lat center_lon radius_m : Double) (limit : ℤ) : List LocationEvent :=
  if limit ≤ 0 ∨ radius_m < .finite 0 ∨ from_ts > to_ts then []
  else
    let result := pg.trip_points.filter fun event =>
      event.device_id = device_id && in_time_range event from_ts to_ts &&
        within haversine metres center_lat center_lon radius_m event
    cut (sort_trip_points result) limit

end Spatial

/-- `trip_point_count`. -/
def trip_point_count (pg : PostgresClient) : ℕ := pg.trip_points.length

section Specification

/-- The events of some batches. -/
def inserted (batches : List (List LocationEvent)) : Set LocationEvent :=
  {event | ∃ batch ∈ batches, event ∈ batch}

/-- The client after inserting some batches. -/
def stored (batches : List (List LocationEvent)) : PostgresClient :=
  batches.foldl batch_insert_trip_points {}

/-- The events of a device whose time is in a closed range. -/
def asked (events : Set LocationEvent) (device_id : String) (from_ts to_ts : ℤ) :
    Set LocationEvent :=
  {event ∈ events | event.device_id = device_id ∧ from_ts ≤ event_time_ms event ∧
    event_time_ms event ≤ to_ts}

/-- Those that are in a circle. -/
def askedWithin {D : Type} [LinearOrder D] (haversine : ℚ → ℚ → ℚ → ℚ → D) (metres : ℚ → D)
    (events : Set LocationEvent) (device_id : String) (from_ts to_ts : ℤ)
    (center_lat center_lon radius_m : Double) : Set LocationEvent :=
  {event ∈ asked events device_id from_ts to_ts |
    within haversine metres center_lat center_lon radius_m event = true}

/-- A list of a set of events in the ascending order of event time and sequence number. -/
structure InOrder (events : Set LocationEvent) (all : List LocationEvent) : Prop where
  mem_iff : ∀ event, event ∈ all ↔ event ∈ events
  ascending : all.Pairwise fun a b =>
    event_time_ms a < event_time_ms b ∨ event_time_ms a = event_time_ms b ∧ a.seq < b.seq

end Specification

section Order

variable {events : Set LocationEvent} {all all' : List LocationEvent}

/-- What the sort compares. -/
def sortKey (event : LocationEvent) : ℤ ×ₗ String ×ₗ ℕ :=
  toLex (event_time_ms event, toLex (event.device_id, event.seq))

/-- The comparison is that of the sort keys. -/
theorem trip_before_iff (a b : LocationEvent) : trip_before a b = true ↔ sortKey a < sortKey b := by
  unfold trip_before sortKey
  simp only [Prod.Lex.toLex_lt_toLex]
  by_cases htime : event_time_ms a = event_time_ms b
  · by_cases hdevice : a.device_id = b.device_id
    · simp [htime, hdevice]
    · simp [htime, hdevice]
  · simp [htime]

/-- The sort compares keys. -/
theorem sort_trip_points_eq (l : List LocationEvent) :
    sort_trip_points l = l.mergeSort fun a b => decide (sortKey a ≤ sortKey b) := by
  unfold sort_trip_points
  congr 1
  funext a b
  rw [Bool.eq_iff_iff, Bool.not_eq_true', ← Bool.not_eq_true, trip_before_iff, not_lt,
    decide_eq_true_eq]

/-- Points of one device with different sequence numbers are sorted in their order. -/
theorem sort_ascending {device_id : String} {l : List LocationEvent}
    (hdevice : ∀ event ∈ l, event.device_id = device_id)
    (hseq : l.Pairwise fun a b => a.seq ≠ b.seq) :
    (sort_trip_points l).Pairwise fun a b =>
      event_time_ms a < event_time_ms b ∨ event_time_ms a = event_time_ms b ∧ a.seq < b.seq := by
  have hperm : (sort_trip_points l).Perm l := List.mergeSort_perm l _
  have hsorted : (sort_trip_points l).Pairwise fun a b => decide (sortKey a ≤ sortKey b) = true := by
    rw [sort_trip_points_eq]
    refine List.pairwise_mergeSort (fun a b c hab hbc => ?_) (fun a b => ?_) l
    · rw [decide_eq_true_eq] at hab hbc ⊢
      exact hab.trans hbc
    · rw [Bool.or_eq_true, decide_eq_true_eq, decide_eq_true_eq]
      exact le_total _ _
  have hne := (hperm.pairwise_iff fun h => Ne.symm h).mpr hseq
  refine (hsorted.and hne).imp_of_mem fun {a b} ha hb h => ?_
  have hsame : a.device_id = b.device_id :=
    (hdevice a (hperm.mem_iff.mp ha)).trans (hdevice b (hperm.mem_iff.mp hb)).symm
  have hle := of_decide_eq_true h.1
  unfold sortKey at hle
  rw [Prod.Lex.toLex_le_toLex, Prod.Lex.toLex_le_toLex] at hle
  refine hle.imp_right fun htime => ⟨htime.1, lt_of_le_of_ne ?_ h.2⟩
  rcases htime.2 with hlt | hseq
  · exact absurd hsame hlt.ne
  · exact hseq.2

theorem InOrder.nodup (h : InOrder events all) : all.Nodup := by
  refine h.ascending.imp fun {a b} hab heq => ?_
  rw [heq] at hab
  exact hab.elim (lt_irrefl _) fun hab => lt_irrefl _ hab.2

/-- A set has one order. -/
theorem InOrder.unique (h : InOrder events all) (h' : InOrder events all') : all = all' := by
  have hperm : all.Perm all' := (List.perm_ext_iff_of_nodup h.nodup h'.nodup).mpr fun event =>
    (h.mem_iff event).trans (h'.mem_iff event).symm
  refine List.Perm.eq_of_pairwise (fun a b _ _ hab hba => ?_) h.ascending h'.ascending hperm
  rcases hab with hab | ⟨hab, hab'⟩ <;> rcases hba with hba | ⟨hba, hba'⟩ <;> omega

/-- The order of a set has that of a part of it. -/
theorem InOrder.sublist {events' : Set LocationEvent} (h : InOrder events all) (h' : InOrder events' all')
    (hsub : events' ⊆ events) : all'.Sublist all := by
  classical
  have hpart : InOrder events' (all.filter (· ∈ all')) := by
    refine ⟨fun event => ?_, h.ascending.filter _⟩
    rw [List.mem_filter, decide_eq_true_eq, h.mem_iff, h'.mem_iff]
    exact and_iff_right_of_imp fun hevent => hsub hevent
  rw [h'.unique hpart]
  exact List.filter_sublist

/-- The number of a set of events that have an order. -/
theorem InOrder.length_eq (h : InOrder events all) : all.length = events.ncard := by
  have hset : events = (all.toFinset : Set LocationEvent) := by
    ext event
    rw [Finset.mem_coe, List.mem_toFinset, h.mem_iff]
  rw [hset, Set.ncard_coe_finset, List.toFinset_card_of_nodup h.nodup]

end Order

section Keys

variable {pg : PostgresClient}

/-- The key set is that of the points, and no two points have one key. -/
structure Keyed (pg : PostgresClient) : Prop where
  mem_keys_iff : ∀ key, key ∈ pg.trip_point_keys ↔ ∃ event ∈ pg.trip_points, trip_point_key event = key
  nodup : (pg.trip_points.map trip_point_key).Nodup

theorem keyed_empty : Keyed {} := ⟨fun _ => by simp, List.nodup_nil⟩

/-- The insertion of one event keeps the key set true. -/
theorem Keyed.insert_one (h : Keyed pg) (event : LocationEvent) :
    Keyed (pg.batch_insert_trip_points [event]) := by
  unfold batch_insert_trip_points
  rw [List.foldl_cons, List.foldl_nil]
  split
  · exact h
  · rename_i hnew
    refine ⟨fun key => ?_, ?_⟩
    · rw [Finset.mem_insert, h.mem_keys_iff]
      simp only [List.mem_append, List.mem_singleton]
      constructor
      · rintro (rfl | ⟨e, he, hkey⟩)
        · exact ⟨event, .inr rfl, rfl⟩
        · exact ⟨e, .inl he, hkey⟩
      · rintro ⟨e, he | rfl, hkey⟩
        · exact .inr ⟨e, he, hkey⟩
        · exact .inl hkey.symm
    · rw [List.map_append, List.nodup_append]
      refine ⟨h.nodup, List.nodup_singleton _, fun key hkey other hother heq => hnew ?_⟩
      rw [List.map_singleton, List.mem_singleton] at hother
      obtain ⟨e, he, hekey⟩ := List.mem_map.mp hkey
      exact (h.mem_keys_iff _).mpr ⟨e, he, hekey.trans (heq.trans hother)⟩

/-- An insertion keeps the key set true. -/
theorem Keyed.insert (h : Keyed pg) (events : List LocationEvent) :
    Keyed (pg.batch_insert_trip_points events) := by
  induction events generalizing pg with
  | nil => exact h
  | cons event events ih => exact ih (h.insert_one event)

/-- How the events are divided into batches makes no difference. -/
theorem stored_eq (batches : List (List LocationEvent)) :
    stored batches = ({} : PostgresClient).batch_insert_trip_points batches.flatten := by
  unfold stored batch_insert_trip_points
  rw [List.foldl_flatten]

theorem keyed_stored (batches : List (List LocationEvent)) : Keyed (stored batches) := by
  rw [stored_eq]
  exact keyed_empty.insert _

/-- An insertion leaves no key out. -/
theorem key_mem_insert {event : LocationEvent} {events : List LocationEvent}
    (h : event ∈ events ∨ trip_point_key event ∈ pg.trip_point_keys) :
    trip_point_key event ∈ (pg.batch_insert_trip_points events).trip_point_keys := by
  induction events generalizing pg with
  | nil => exact h.resolve_left List.not_mem_nil
  | cons first events ih =>
    change trip_point_key event ∈ ((pg.batch_insert_trip_points [first]).batch_insert_trip_points
      events).trip_point_keys
    refine ih ?_
    rw [mem_keys_batch_insert_singleton]
    rcases h with h | h
    · rcases List.mem_cons.mp h with rfl | h
      · exact .inr (.inl rfl)
      · exact .inl h
    · exact .inr (.inr h)

variable {batches : List (List LocationEvent)}

theorem mem_inserted_iff {event : LocationEvent} : event ∈ inserted batches ↔ event ∈ batches.flatten :=
  List.mem_flatten.symm

/-- Where equal keys mean equal events, the store has exactly the events inserted. -/
theorem mem_stored_iff (hkeys : ∀ a ∈ inserted batches, ∀ b ∈ inserted batches,
    trip_point_key a = trip_point_key b → a = b) (event : LocationEvent) :
    event ∈ (stored batches).trip_points ↔ event ∈ inserted batches := by
  have hfrom : ∀ e ∈ (stored batches).trip_points, e ∈ inserted batches := by
    intro e he
    rw [stored_eq] at he
    exact mem_inserted_iff.mpr ((mem_or_mem_of_mem_batch_insert he).resolve_left List.not_mem_nil)
  refine ⟨hfrom event, fun hevent => ?_⟩
  have hkey : trip_point_key event ∈ (stored batches).trip_point_keys := by
    rw [stored_eq]
    exact key_mem_insert (.inl (mem_inserted_iff.mp hevent))
  obtain ⟨e, he, heq⟩ := ((keyed_stored batches).mem_keys_iff _).mp hkey
  exact hkeys e (hfrom e he) event hevent heq ▸ he

end Keys

section Queries

variable {pg : PostgresClient} {device_id : String} {from_ts to_ts limit : ℤ}

/-- Cutting a list at a limit takes the limit from it, unless the list is longer and its length as an
`int` is not. -/
theorem cut_eq_take_iff (l : List LocationEvent) (hlimit : 0 < limit) :
    cut l limit = l.take limit.toNat ↔ l.length ≤ limit ∨ limit < castInt l.length := by
  unfold cut
  split
  · exact iff_of_true rfl (.inr ‹_›)
  · rename_i hcast
    rw [or_iff_left hcast, eq_comm, List.take_eq_self_iff]
    omega

/-- Points of one device, sorted, are in order. -/
theorem Keyed.inOrder (h : Keyed pg) (keep : LocationEvent → Bool) (device_id : String)
    (hdevice : ∀ event, keep event = true → event.device_id = device_id) :
    InOrder {event | event ∈ pg.trip_points ∧ keep event = true}
      (sort_trip_points (pg.trip_points.filter keep)) := by
  refine ⟨fun event => (List.mergeSort_perm _ _).mem_iff.trans List.mem_filter, ?_⟩
  have hkept : ∀ event ∈ pg.trip_points.filter keep, event.device_id = device_id :=
    fun event he => hdevice event (List.mem_filter.mp he).2
  have hnodup : (pg.trip_points.filter keep).Pairwise fun a b => trip_point_key a ≠ trip_point_key b :=
    (List.pairwise_map.mp h.nodup).sublist List.filter_sublist
  refine sort_ascending hkept (hnodup.imp_of_mem fun {a b} ha hb hne heq => hne (Prod.ext ?_ heq))
  exact (hkept a ha).trans (hkept b hb).symm

/-- No event is in an empty range. -/
theorem asked_eq_empty {events : Set LocationEvent} (h : to_ts < from_ts) :
    asked events device_id from_ts to_ts = ∅ := by
  ext event
  unfold asked
  simp only [Set.mem_ofPred_eq, Set.mem_empty_iff_false, iff_false, not_and, not_le]
  intros
  omega

theorem inOrder_nil : InOrder ∅ [] := ⟨fun _ => iff_of_false List.not_mem_nil id, .nil⟩

/-- `query_trip` sorts the points asked for and cuts them. -/
theorem Keyed.query_trip_eq (h : Keyed pg) (device_id : String) (from_ts to_ts : ℤ) (hlimit : 0 < limit) :
    ∃ all, InOrder (asked {event | event ∈ pg.trip_points} device_id from_ts to_ts) all ∧
      pg.query_trip device_id from_ts to_ts limit = cut all limit := by
  unfold query_trip
  by_cases hrange : to_ts < from_ts
  · refine ⟨[], ?_, ?_⟩
    · rw [asked_eq_empty hrange]
      exact inOrder_nil
    · rw [if_pos (.inr hrange)]
      unfold cut
      rw [List.take_nil, ite_self]
  · refine ⟨_, ?_, if_neg (by omega)⟩
    have horder := h.inOrder (fun event => event.device_id = device_id &&
      in_time_range event from_ts to_ts) device_id fun event hkeep => by
        rw [Bool.and_eq_true] at hkeep
        exact of_decide_eq_true hkeep.1
    convert horder using 1
    ext event
    simp [asked, in_time_range]

/-- `query_trip_spatial` sorts the points asked for that are in the circle and cuts them. -/
theorem Keyed.query_trip_spatial_eq {D : Type} [LinearOrder D] (haversine : ℚ → ℚ → ℚ → ℚ → D)
    (metres : ℚ → D) (h : Keyed pg) (device_id : String) (from_ts to_ts : ℤ) (hlimit : 0 < limit)
    (center_lat center_lon : Double) {radius_m : Double} (hradius : ¬radius_m < .finite 0) :
    ∃ all, InOrder (askedWithin haversine metres {event | event ∈ pg.trip_points} device_id from_ts
        to_ts center_lat center_lon radius_m) all ∧
      pg.query_trip_spatial haversine metres device_id from_ts to_ts center_lat center_lon radius_m
        limit = cut all limit := by
  unfold query_trip_spatial askedWithin
  by_cases hrange : to_ts < from_ts
  · refine ⟨[], ?_, ?_⟩
    · rw [asked_eq_empty hrange, Set.sep_empty]
      exact inOrder_nil
    · rw [if_pos (.inr (.inr hrange))]
      unfold cut
      rw [List.take_nil, ite_self]
  · have hserved : ¬(limit ≤ 0 ∨ radius_m < .finite 0 ∨ from_ts > to_ts) := by
      rintro (hneg | hneg | hneg)
      · omega
      · exact hradius hneg
      · exact hrange hneg
    refine ⟨_, ?_, if_neg hserved⟩
    have horder := h.inOrder (fun event => event.device_id = device_id &&
      in_time_range event from_ts to_ts &&
        within haversine metres center_lat center_lon radius_m event) device_id
      fun event hkeep => by
        rw [Bool.and_eq_true, Bool.and_eq_true] at hkeep
        exact of_decide_eq_true hkeep.1.1
    convert horder using 1
    ext event
    simp [asked, in_time_range, and_assoc]

/-- `query_trip` returns the first of the points asked for if the limit is over their number or under
its value as an `int`. -/
theorem Keyed.query_trip_eq_take_iff (h : Keyed pg) (hlimit : 0 < limit) :
    (∃ all, InOrder (asked {event | event ∈ pg.trip_points} device_id from_ts to_ts) all ∧
        pg.query_trip device_id from_ts to_ts limit = all.take limit.toNat) ↔
      (asked {event | event ∈ pg.trip_points} device_id from_ts to_ts).ncard ≤ limit ∨
        limit < castInt (asked {event | event ∈ pg.trip_points} device_id from_ts to_ts).ncard := by
  obtain ⟨all, hall, hcut⟩ := h.query_trip_eq device_id from_ts to_ts hlimit
  rw [← hall.length_eq, ← cut_eq_take_iff all hlimit, hcut]
  constructor
  · rintro ⟨all', hall', htake⟩
    rw [hall.unique hall']
    rwa [hall.unique hall'] at htake
  · exact fun htake => ⟨all, hall, htake⟩

end Queries

/-- The store is a set with a fixed read order: a query returns the first events, in the ascending
order of event time and sequence number, of the set of the device's events inserted in the range, so
that other batches of the same events, repeated or not, make no difference, and the store counts the
different keys. This holds if the limit is over the number of these events or under its value as an
`int`. -/
theorem trip_store_is_set_iff (batches : List (List LocationEvent))
    (hkeys : ∀ a ∈ inserted batches, ∀ b ∈ inserted batches,
      trip_point_key a = trip_point_key b → a = b) (device_id : String) (from_ts to_ts limit : ℤ)
    (hlimit : 0 < limit) :
    ((∃ all, InOrder (asked (inserted batches) device_id from_ts to_ts) all ∧
        (stored batches).query_trip device_id from_ts to_ts limit = all.take limit.toNat) ∧
      (∀ batches', inserted batches' = inserted batches →
        (stored batches').query_trip device_id from_ts to_ts limit =
          (stored batches).query_trip device_id from_ts to_ts limit) ∧
      (stored batches).trip_point_count = (Set.image trip_point_key (inserted batches)).ncard) ↔
    (asked (inserted batches) device_id from_ts to_ts).ncard ≤ limit ∨
      limit < castInt (asked (inserted batches) device_id from_ts to_ts).ncard := by
  have hset : ∀ batches', inserted batches' = inserted batches →
      {event | event ∈ (stored batches').trip_points} = inserted batches := by
    intro batches' heq
    rw [← heq] at hkeys ⊢
    exact Set.ext (mem_stored_iff hkeys)
  have hsame : ∀ batches', inserted batches' = inserted batches →
      (stored batches').query_trip device_id from_ts to_ts limit =
        (stored batches).query_trip device_id from_ts to_ts limit := by
    intro batches' heq
    obtain ⟨all, hall, hcut⟩ := (keyed_stored batches).query_trip_eq device_id from_ts to_ts hlimit
    obtain ⟨all', hall', hcut'⟩ := (keyed_stored batches').query_trip_eq device_id from_ts to_ts hlimit
    rw [hset _ rfl] at hall
    rw [hset _ heq] at hall'
    rw [hcut, hcut', hall.unique hall']
  have hcount : (stored batches).trip_point_count =
      (Set.image trip_point_key (inserted batches)).ncard := by
    have himage : Set.image trip_point_key (inserted batches) =
        (((stored batches).trip_points.map trip_point_key).toFinset : Set (String × ℕ)) := by
      ext key
      simp only [Set.mem_image, Finset.mem_coe, List.mem_toFinset, List.mem_map, mem_stored_iff hkeys]
    rw [himage, Set.ncard_coe_finset, List.toFinset_card_of_nodup (keyed_stored batches).nodup,
      List.length_map]
    rfl
  rw [and_iff_left ⟨hsame, hcount⟩, ← hset _ rfl]
  exact (keyed_stored batches).query_trip_eq_take_iff hlimit

/-- A number of points of one device at one time. -/
def flood (n : ℕ) : List LocationEvent :=
  (List.range n).map fun i => { device_id := "d", timestamp_ms := 1, seq := i }

theorem mem_flood {n : ℕ} {event : LocationEvent} :
    event ∈ flood n ↔ ∃ i < n, { device_id := "d", timestamp_ms := 1, seq := i } = event := by
  unfold flood
  simp only [List.mem_map, List.mem_range]

theorem mem_inserted_flood {n : ℕ} {event : LocationEvent} :
    event ∈ inserted [flood n, flood n] ↔ event ∈ flood n := by
  rw [mem_inserted_iff, List.flatten_cons, List.flatten_singleton, List.mem_append, or_self]

theorem flood_keys (n : ℕ) : ∀ a ∈ inserted [flood n, flood n], ∀ b ∈ inserted [flood n, flood n],
    trip_point_key a = trip_point_key b → a = b := by
  intro a ha b hb heq
  obtain ⟨i, -, rfl⟩ := mem_flood.mp (mem_inserted_flood.mp ha)
  obtain ⟨j, -, rfl⟩ := mem_flood.mp (mem_inserted_flood.mp hb)
  obtain rfl : i = j := (Prod.ext_iff.mp heq).2
  rfl

/-- The points are in order, and as many as they are. -/
theorem ncard_asked_flood (n : ℕ) : (asked (inserted [flood n, flood n]) "d" 1 1).ncard = n := by
  have horder : InOrder (asked (inserted [flood n, flood n]) "d" 1 1) (flood n) := by
    refine ⟨fun event => ⟨fun h => ?_, fun h => mem_inserted_flood.mp h.1⟩,
      List.pairwise_map.mpr (List.pairwise_lt_range.imp fun h => .inr ⟨rfl, h⟩)⟩
    obtain ⟨i, -, rfl⟩ := mem_flood.mp h
    exact ⟨mem_inserted_flood.mpr h, rfl, le_refl _, le_refl _⟩
  rw [← horder.length_eq]
  unfold flood
  rw [List.length_map, List.length_range]

/-- For two points and their replay. -/
theorem trip_store_is_set_iff_replay :
    ∃ all, InOrder (asked (inserted [flood 2, flood 2]) "d" 1 1) all ∧
      (stored [flood 2, flood 2]).query_trip "d" 1 1 1 = all.take 1 := by
  refine ((trip_store_is_set_iff [flood 2, flood 2] (flood_keys 2) "d" 1 1 1 one_pos).mpr
    (.inr ?_)).1
  rw [ncard_asked_flood]
  decide

/-- A device with `2^31` points in the range, twice inserted: the limit of one is not applied. -/
theorem flood_not_cut :
    (∀ a ∈ inserted [flood (2^31), flood (2^31)], ∀ b ∈ inserted [flood (2^31), flood (2^31)],
      trip_point_key a = trip_point_key b → a = b) ∧
    ¬∃ all, InOrder (asked (inserted [flood (2^31), flood (2^31)]) "d" 1 1) all ∧
      (stored [flood (2^31), flood (2^31)]).query_trip "d" 1 1 1 = all.take 1 := by
  refine ⟨flood_keys _, fun h => ?_⟩
  generalize hn : 2^31 = n at h
  have hset : {event | event ∈ (stored [flood n, flood n]).trip_points} =
      inserted [flood n, flood n] := Set.ext (mem_stored_iff (flood_keys n))
  rw [← hset] at h
  have hbound := ((keyed_stored [flood n, flood n]).query_trip_eq_take_iff one_pos).mp h
  rw [hset, ncard_asked_flood, ← hn] at hbound
  norm_num [castInt, Int.bmod] at hbound

end PostgresClient

end SignalRoute
