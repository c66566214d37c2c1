import SignalRoute.Processor.StateWriter
import SignalRoute.Spatial.Haversine
import SignalRoute.Store.Sorted
import Mathlib.Data.List.ReduceOption
import Mathlib.Data.Set.Card

/-!
# The nearby query

`src/query/nearby_handler.cpp`: the cells of a disk around the query point give candidates, and the
distance to each candidate decides. Its specification is the brute-force answer, which looks at
every stored device.

The query finds a device within the radius exactly when the device's cell lies in the disk and its age, a
difference that wraps around, is not too large (`mem_found`). So its answer is the brute-force answer exactly
when it finds the devices that match and no others, or the limit hides what it is wrong about
(`handle_isBruteForce_iff`). The sort makes equal answers equal as lists because device ids make the order of
`nearer` total.
-/

namespace SignalRoute

open Numeric (Double)
open Store (HashOrder)

/-- The limits that `config.h` has for the default. -/
def SpatialConfig.default : SpatialConfig := {}

/-- `NearbyResult`, with distances of type `D`. -/
structure NearbyResult (D : Type) where
  devices : List (DeviceState × D) := []
  total_candidates : ℤ := 0
  total_in_radius : ℤ := 0

namespace NearbyHandler

/-- The radius that a request asks for, cut to what the configuration allows. -/
def effective_radius (cfg : SpatialConfig) (radius_m : Double) : Double :=
  if cfg.nearby_max_radius_m < radius_m then cfg.nearby_max_radius_m else radius_m

/-- The limit that a request asks for, cut to what the configuration allows. -/
def effective_limit (cfg : SpatialConfig) (limit : ℤ) : ℤ :=
  if limit ≤ 0 ∨ cfg.nearby_max_results < limit then cfg.nearby_max_results else limit

/-- The freshness filter; zero turns it off. The age wraps around where it is no `int64_t`. -/
def fresh (now_ms last_seen_s : ℤ) (state : DeviceState) : Bool :=
  !(last_seen_s > 0 && subInt64 now_ms state.updated_at > last_seen_s * 1000)

section Handler

variable {D : Type} [LinearOrder D] (haversine : ℚ → ℚ → ℚ → ℚ → D) (metres : ℚ → D)

/-- The order of the answer: by distance, and by device id at equal distance. -/
def nearer (a b : DeviceState × D) : Bool :=
  if a.2 ≠ b.2 then a.2 < b.2 else a.1.device_id < b.1.device_id

/-- `std::sort` by `nearer`. -/
def sort (devices : List (DeviceState × D)) : List (DeviceState × D) :=
  devices.mergeSort fun a b => !nearer b a

/-- The loop over the candidates' states: those that are fresh and within the radius, with their
distances. -/
def select (now_ms : ℤ) (lat lon radius_m : Double) (last_seen_s : ℤ)
    (states : List DeviceState) : List (DeviceState × D) :=
  states.filterMap fun state =>
    let dist := haversine lat.toRat lon.toRat state.lat.toRat state.lon.toRat
    if fresh now_ms last_seen_s state ∧ dist ≤ metres radius_m.toRat then some (state, dist)
    else none

/-- `handle`, with the system clock at `now_ms`. -/
def handle (h3 : H3Index) (cfg : SpatialConfig) (order : HashOrder) (redis : RedisClient)
    (now_ms : ℤ) (lat lon radius_m : Double) (limit last_seen_s : ℤ) :
    Except Exception (NearbyResult D) := do
  if !lat.isfinite || !lon.isfinite || !radius_m.isfinite || lat < .finite (-90) ||
      .finite 90 < lat || lon < .finite (-180) || .finite 180 < lon || radius_m ≤ .finite 0 ||
      last_seen_s < 0 then
    return {}
  let radius_m := effective_radius cfg radius_m
  if radius_m ≤ .finite 0 then
    return {}
  let limit := effective_limit cfg limit
  if limit ≤ 0 then
    return {}
  let center_cell ← h3.lat_lng_to_cell lat lon
  let k ← h3.radius_to_k radius_m
  let cells := H3Index.grid_disk center_cell k
  let device_ids := redis.get_devices_in_cells order cells
  let states := redis.get_device_states_batch device_ids
  let devices := select haversine metres now_ms lat lon radius_m last_seen_s states.reduceOption
  let sorted := sort devices
  return {
    devices := if castInt sorted.length > limit then sorted.take limit.toNat else sorted
    total_candidates := castInt device_ids.length
    total_in_radius := castInt devices.length }

end Handler

section Specification

variable {D : Type} [LinearOrder D] (haversine : ℚ → ℚ → ℚ → ℚ → D) (metres : ℚ → D)

/-- The distance from a query point to a device. -/
def distance (lat lon : Double) (state : DeviceState) : D :=
  haversine lat.toRat lon.toRat state.lat.toRat state.lon.toRat

/-- A device has been seen recently enough. -/
def Recent (now_ms last_seen_s : ℤ) (state : DeviceState) : Prop :=
  0 < last_seen_s → now_ms - state.updated_at ≤ last_seen_s * 1000

/-- The stored devices within the radius that a request asks for, cut to what the configuration allows. -/
def near (cfg : SpatialConfig) (redis : RedisClient) (lat lon radius_m : Double) : Set DeviceState :=
  {state | (∃ id, redis.get_device_state id = some state) ∧
    distance haversine lat lon state ≤ metres (radius_m.min cfg.nearby_max_radius_m).toRat}

/-- The stored devices that a request asks for: those within the radius, and seen recently enough. -/
def matching (cfg : SpatialConfig) (redis : RedisClient) (now_ms : ℤ) (lat lon radius_m : Double)
    (last_seen_s : ℤ) : Set DeviceState :=
  {state ∈ near haversine metres cfg redis lat lon radius_m | Recent now_ms last_seen_s state}

/-- The brute-force answer: the matching devices by distance and device id, cut to the limit, and
their number before the cut. -/
def IsBruteForce (cfg : SpatialConfig) (redis : RedisClient) (now_ms : ℤ)
    (lat lon radius_m : Double) (limit last_seen_s : ℤ) (result : NearbyResult D) : Prop :=
  ∃ all : List (DeviceState × D),
    (∀ state dist, (state, dist) ∈ all ↔
      state ∈ matching haversine metres cfg redis now_ms lat lon radius_m last_seen_s ∧
        dist = distance haversine lat lon state) ∧
    all.Pairwise (fun a b => a.2 < b.2 ∨ a.2 = b.2 ∧ a.1.device_id < b.1.device_id) ∧
    result.devices = all.take (effective_limit cfg limit).toNat ∧
    result.total_in_radius = all.length

end Specification

section Ages

variable {now_ms last_seen_s : ℤ} {state : DeviceState}

/-- Where the age fits an `int64_t`, the filter is right. -/
theorem fresh_iff_recent (h : -2^63 ≤ now_ms - state.updated_at) (h' : now_ms - state.updated_at < 2^63) :
    fresh now_ms last_seen_s state = true ↔ Recent now_ms last_seen_s state := by
  unfold fresh Recent
  rw [subInt64_eq h h', Bool.not_eq_true', Bool.and_eq_false_iff, decide_eq_false_iff_not,
    decide_eq_false_iff_not]
  omega

end Ages

section Sorting

variable {D : Type} [LinearOrder D]

/-- `nearer` is the strict lexicographic order of distance and device id. -/
theorem nearer_iff (a b : DeviceState × D) :
    nearer a b = true ↔ a.2 < b.2 ∨ a.2 = b.2 ∧ a.1.device_id < b.1.device_id := by
  unfold nearer
  by_cases h : a.2 = b.2
  · simp [h]
  · simp [h]

/-- Of two devices that are not nearer than one another, the ids agree. -/
theorem device_id_eq_of_not_nearer {a b : DeviceState × D} (hab : nearer a b = false)
    (hba : nearer b a = false) : a.1.device_id = b.1.device_id := by
  rw [← Bool.not_eq_true, nearer_iff, not_or, not_and, not_lt] at hab hba
  have hdist : a.2 = b.2 := le_antisymm hba.1 hab.1
  exact le_antisymm (not_lt.mp (hba.2 hdist.symm)) (not_lt.mp (hab.2 hdist))

/-- The order is strict. -/
instance : IsStrictOrder (DeviceState × D) fun a b => nearer a b = true where
  irrefl a h := by
    rcases (nearer_iff a a).mp h with h | h
    · exact lt_irrefl _ h
    · exact lt_irrefl _ h.2
  trans a b c hab hbc := by
    rw [nearer_iff] at *
    rcases hab with hab | ⟨hab, hid⟩ <;> rcases hbc with hbc | ⟨hbc, hid'⟩
    · exact .inl (hab.trans hbc)
    · exact .inl (hbc ▸ hab)
    · exact .inl (hab ▸ hbc)
    · exact .inr ⟨hab.trans hbc, hid.trans hid'⟩

/-- Sorting puts the devices in the strict order of `nearer`, where no two share an id. -/
theorem pairwise_sort {l : List (DeviceState × D)}
    (hid : l.Pairwise fun a b => a.1.device_id ≠ b.1.device_id) :
    (sort l).Pairwise fun a b => nearer a b = true := by
  have htrans : ∀ a b c : DeviceState × D, (!nearer b a) = true → (!nearer c b) = true →
      (!nearer c a) = true := by
    intro a b c hab hbc
    simp only [Bool.not_eq_true', ← Bool.not_eq_true, nearer_iff, not_or, not_and, not_lt] at *
    refine ⟨hab.1.trans hbc.1, fun hca => ?_⟩
    have hba : b.2 = a.2 := le_antisymm (hca ▸ hbc.1) hab.1
    exact (hab.2 hba).trans (hbc.2 (hca.trans hba.symm))
  have htotal : ∀ a b : DeviceState × D, ((!nearer b a) || (!nearer a b)) = true := by
    intro a b
    simp only [Bool.or_eq_true, Bool.not_eq_true', ← Bool.not_eq_true, nearer_iff, not_or, not_and,
      not_lt]
    rcases lt_trichotomy a.2 b.2 with h | h | h
    · exact .inl ⟨h.le, fun he => absurd he h.ne'⟩
    · rcases le_total a.1.device_id b.1.device_id with hd | hd
      · exact .inl ⟨h.le, fun _ => hd⟩
      · exact .inr ⟨h.ge, fun _ => hd⟩
    · exact .inr ⟨h.le, fun he => absurd he h.ne'⟩
  have hsorted : (sort l).Pairwise fun a b => (!nearer b a) = true :=
    List.pairwise_mergeSort htrans htotal l
  have hid' : (sort l).Pairwise fun a b => a.1.device_id ≠ b.1.device_id :=
    ((List.mergeSort_perm l _).pairwise_iff fun h => Ne.symm h).mpr hid
  refine (hsorted.and hid').imp fun {a b} h => ?_
  by_contra hnear
  rw [Bool.not_eq_true] at hnear
  exact h.2 (device_id_eq_of_not_nearer hnear (by simpa using h.1))

/-- The order of the devices before the sort makes no difference, where no two share an id. -/
theorem sort_eq_of_perm {l l' : List (DeviceState × D)} (hperm : l.Perm l')
    (hid : l.Pairwise fun a b => a.1.device_id ≠ b.1.device_id) : sort l = sort l' := by
  have hid' := (hperm.pairwise_iff fun h => Ne.symm h).mp hid
  refine Store.eq_of_sorted (pairwise_sort hid) (pairwise_sort hid') fun device => ?_
  unfold sort
  rw [List.mem_mergeSort, List.mem_mergeSort, hperm.mem_iff]

end Sorting

section Candidates

variable {D : Type} [LinearOrder D] (haversine : ℚ → ℚ → ℚ → ℚ → D) (metres : ℚ → D)
  {h3 : H3Index} {redis : RedisClient} (order : HashOrder) (cells : List ℤ)

/-- The states of the devices in some cells. -/
def candidates (redis : RedisClient) : List DeviceState :=
  (redis.get_device_states_batch (redis.get_devices_in_cells order cells)).reduceOption

/-- With a true index, the candidates are the stored devices whose cell is one of the cells. -/
theorem mem_candidates (h : redis.Indexed) (state : DeviceState) :
    state ∈ candidates order cells redis ↔
      (∃ id, redis.get_device_state id = some state) ∧ state.h3_cell ∈ cells := by
  unfold candidates RedisClient.get_device_states_batch
  simp only [List.reduceOption_mem_iff, List.mem_map, RedisClient.mem_get_devices_in_cells, h.mem_iff]
  constructor
  · rintro ⟨d, ⟨cell, hcell, st, hst, rfl⟩, hd⟩
    rw [RedisClient.get_device_state, hst] at hd
    cases hd
    exact ⟨⟨d, hst⟩, hcell⟩
  · rintro ⟨⟨d, hd⟩, hcell⟩
    exact ⟨d, ⟨state.h3_cell, hcell, state, hd, rfl⟩, hd⟩

/-- No two candidates have the same device id. -/
theorem candidates_pairwise (h : redis.Indexed) :
    (candidates order cells redis).Pairwise fun a b => a.device_id ≠ b.device_id := by
  unfold candidates RedisClient.get_device_states_batch List.reduceOption
  rw [List.filterMap_map, List.pairwise_filterMap]
  refine (order.nodup_elements _).imp fun {d d'} hne st hst st' hst' heq => hne ?_
  rw [← h.device_id_eq d st hst, ← h.device_id_eq d' st' hst', heq]

/-- What the loop over the candidates selects. -/
theorem mem_select (now_ms : ℤ) (lat lon radius_m : Double) (last_seen_s : ℤ)
    (states : List DeviceState) (state : DeviceState) (dist : D) :
    (state, dist) ∈ select haversine metres now_ms lat lon radius_m last_seen_s states ↔
      state ∈ states ∧ fresh now_ms last_seen_s state = true ∧
        distance haversine lat lon state ≤ metres radius_m.toRat ∧
        dist = distance haversine lat lon state := by
  unfold select distance
  simp only [List.mem_filterMap, Option.ite_none_right_eq_some, Option.some.injEq, Prod.mk.injEq]
  constructor
  · rintro ⟨st, hst, ⟨hfresh, hdist⟩, rfl, rfl⟩
    exact ⟨hst, hfresh, hdist, rfl⟩
  · rintro ⟨hst, hfresh, hdist, rfl⟩
    exact ⟨state, hst, ⟨hfresh, hdist⟩, rfl, rfl⟩

variable {now_ms : ℤ} {lat lon radius_m : Double} {limit last_seen_s : ℤ} {result : NearbyResult D}

/-- The devices of an answer are selected from the candidates of some cells. -/
theorem devices_sublist (cfg : SpatialConfig) (order : HashOrder)
    (hresult : handle haversine metres h3 cfg order redis now_ms lat lon radius_m limit last_seen_s =
      .ok result) :
    ∃ cells radius_m, result.devices.Sublist (sort (select haversine metres now_ms lat lon radius_m
      last_seen_s (candidates order cells redis))) := by
  unfold handle at hresult
  dsimp only at hresult
  -- The three early returns answer with no devices.
  split at hresult
  · cases hresult
    exact ⟨[], radius_m, List.nil_sublist _⟩
  split at hresult
  · cases hresult
    exact ⟨[], radius_m, List.nil_sublist _⟩
  split at hresult
  · cases hresult
    exact ⟨[], radius_m, List.nil_sublist _⟩
  cases hcell : h3.lat_lng_to_cell lat lon with
  | error e =>
    rw [hcell] at hresult
    cases hresult
  | ok cell =>
    rw [hcell] at hresult
    cases hk : h3.radius_to_k (effective_radius cfg radius_m) with
    | error e =>
      rw [hk] at hresult
      cases hresult
    | ok k =>
      rw [hk] at hresult
      rw [← Except.ok.inj hresult]
      refine ⟨H3Index.grid_disk cell k, effective_radius cfg radius_m, ?_⟩
      dsimp only
      split
      · exact List.take_sublist _ _
      · exact List.Sublist.refl _

/-- A device of an answer is stored, and fresh. -/
theorem of_mem_devices {cfg : SpatialConfig} {order : HashOrder}
    (hresult : handle haversine metres h3 cfg order redis now_ms lat lon radius_m limit last_seen_s =
      .ok result) {state : DeviceState} {dist : D} (hmem : (state, dist) ∈ result.devices) :
    (∃ id, redis.get_device_state id = some state) ∧ fresh now_ms last_seen_s state = true := by
  obtain ⟨cells, radius_m, hsublist⟩ := devices_sublist haversine metres cfg order hresult
  have hselected := (List.mergeSort_perm _ _).mem_iff.mp (hsublist.subset hmem)
  rw [mem_select] at hselected
  obtain ⟨hcandidate, hfresh, -⟩ := hselected
  refine ⟨?_, hfresh⟩
  unfold candidates RedisClient.get_device_states_batch at hcandidate
  rw [List.reduceOption_mem_iff, List.mem_map] at hcandidate
  obtain ⟨id, -, hid⟩ := hcandidate
  exact ⟨id, hid⟩

/-- An answer has each device id once. -/
theorem nodup_device_ids (h3 : H3Index) (cfg : SpatialConfig) (h : redis.Indexed) (now_ms : ℤ)
    (lat lon radius_m : Double) (limit last_seen_s : ℤ) {result : NearbyResult D}
    (hresult : handle haversine metres h3 cfg order redis now_ms lat lon radius_m limit last_seen_s =
      .ok result) : (result.devices.map fun device => device.1.device_id).Nodup := by
  obtain ⟨cells, radius_m, hsublist⟩ := devices_sublist haversine metres cfg order hresult
  refine List.Nodup.sublist (hsublist.map _) ?_
  rw [List.Nodup, List.pairwise_map]
  refine ((List.mergeSort_perm _ _).pairwise_iff fun h => Ne.symm h).mpr ?_
  unfold select
  rw [List.pairwise_filterMap]
  -- The candidates have different ids, and `select` only drops some.
  refine (candidates_pairwise order cells h).imp fun {a b} hne x hx y hy => ?_
  rw [Option.ite_none_right_eq_some, Option.some.injEq] at hx hy
  rw [← hx.2, ← hy.2]
  exact hne

end Candidates

section Request

/-- A request that the handler serves: valid coordinates, a finite positive radius and a
`last_seen_s` that is not negative, with a disk of radius `k` that fits its vector. -/
structure Request (h3 : H3Index) (cfg : SpatialConfig) (lat lon radius_m : Double)
    (last_seen_s k : ℤ) : Prop where
  position : valid_lat_lon lat lon = true
  radius_finite : radius_m.isfinite = true
  radius_pos : .finite 0 < radius_m
  last_seen : 0 ≤ last_seen_s
  rings : h3.radius_to_k (radius_m.min cfg.nearby_max_radius_m) = .ok k
  disk_fits : 3 * k * (k + 1) + 1 ≤ 2^31 - 1

variable {D : Type} [LinearOrder D] {haversine : ℚ → ℚ → ℚ → ℚ → D} {metres : ℚ → D}
  {h3 : H3Index} {cfg : SpatialConfig} {order : HashOrder} {redis : RedisClient} {now_ms : ℤ}
  {lat lon radius_m : Double} {limit last_seen_s k : ℤ}

/-- The radius of a request, cut to the maximum, is a positive number. -/
theorem min_max_radius_pos (hfinite : radius_m.isfinite = true) (hpos : .finite 0 < radius_m) :
    ∃ r : ℚ, 0 < r ∧ radius_m.min cfg.nearby_max_radius_m = .finite r := by
  obtain ⟨q, rfl⟩ := radius_m.isfinite_iff.mp hfinite
  have hq : 0 < q := by simpa using hpos
  have hmax := cfg.max_radius_pos
  unfold Double.min
  split
  · rename_i hlt
    generalize cfg.nearby_max_radius_m = m at hlt hmax
    cases m with
    | finite p => exact ⟨p, by simpa using hmax, rfl⟩
    | infinite negative =>
      cases negative with
      | false => cases hlt
      | true => exact absurd rfl hmax
    | nan => cases hlt
  · exact ⟨q, hq, rfl⟩

/-- The radius that a served request is answered for is a positive number. -/
theorem Request.effective_radius_pos (hreq : Request h3 cfg lat lon radius_m last_seen_s k) :
    ∃ r : ℚ, 0 < r ∧ radius_m.min cfg.nearby_max_radius_m = .finite r :=
  min_max_radius_pos hreq.radius_finite hreq.radius_pos

/-- The number of rings is not negative. -/
theorem Request.rings_nonneg (hreq : Request h3 cfg lat lon radius_m last_seen_s k) : 0 ≤ k := by
  obtain ⟨r, hr, heq⟩ := hreq.effective_radius_pos
  have hk := hreq.rings
  rw [heq, h3.radius_to_k_finite hr.le] at hk
  rw [← Except.ok.inj hk]
  exact Int.ceil_nonneg (h3.edges_nonneg hr.le)

/-- The limit that a request is answered with is positive. -/
theorem effective_limit_pos : 0 < effective_limit cfg limit := by
  have hmax := cfg.max_results_pos
  unfold effective_limit
  split <;> omega

/-- The devices that the handler finds before it sorts them. -/
def found (haversine : ℚ → ℚ → ℚ → ℚ → D) (metres : ℚ → D) (h3 : H3Index) (cfg : SpatialConfig)
    (order : HashOrder) (redis : RedisClient) (now_ms : ℤ) (lat lon radius_m : Double)
    (last_seen_s k : ℤ) : List (DeviceState × D) :=
  select haversine metres now_ms lat lon (radius_m.min cfg.nearby_max_radius_m) last_seen_s
    (candidates order (H3Index.grid_disk
      (pack_cell h3.resolution (h3.lat_idx lat.toRat) (h3.lon_idx lon.toRat)) k) redis)

/-- What the handler computes for a request that it serves. -/
theorem handle_eq (haversine : ℚ → ℚ → ℚ → ℚ → D) (metres : ℚ → D) (order : HashOrder)
    (redis : RedisClient) (now_ms limit : ℤ) (hreq : Request h3 cfg lat lon radius_m last_seen_s k) :
    ∃ total, handle haversine metres h3 cfg order redis now_ms lat lon radius_m limit
        last_seen_s =
      let devices := found haversine metres h3 cfg order redis now_ms lat lon radius_m last_seen_s k
      .ok {
        devices :=
          if castInt (sort devices).length > effective_limit cfg limit then
            (sort devices).take (effective_limit cfg limit).toNat
          else sort devices
        total_candidates := total
        total_in_radius := castInt devices.length } := by
  obtain ⟨r, hr, heq⟩ := hreq.effective_radius_pos
  have hcell := h3.lat_lng_to_cell_ok_iff.mpr ⟨hreq.position, rfl⟩
  have hk := hreq.rings
  obtain ⟨a, b, rfl, rfl, ha, ha', hb, hb'⟩ := (valid_lat_lon_iff lat lon).mp hreq.position
  obtain ⟨q, rfl⟩ := radius_m.isfinite_iff.mp hreq.radius_finite
  have hq : 0 < q := by simpa using hreq.radius_pos
  have heff : effective_radius cfg (.finite q) = (Double.finite q).min cfg.nearby_max_radius_m := rfl
  have hlimit : ¬effective_limit cfg limit ≤ 0 := not_le.mpr effective_limit_pos
  have hlast : ¬last_seen_s < 0 := not_lt.mpr hreq.last_seen
  -- No early return is taken, and neither resolution throws.
  unfold handle found
  rw [heq] at heff hk ⊢
  rw [if_neg (by simp [ha, ha', hb, hb', hq, hlast])]
  dsimp only
  rw [heff, if_neg (by simpa using hr), if_neg hlimit, hcell, hk]
  exact ⟨_, rfl⟩

/-- The disk around the query point has the cell of `state`: in rows and columns of the grid, the
cell lies in the hexagon of radius `k`. -/
def Covered (h3 : H3Index) (k : ℤ) (lat lon : Double) (state : DeviceState) : Prop :=
  H3Index.InHexagon k (h3.lat_idx state.lat.toRat - h3.lat_idx lat.toRat)
    (h3.lon_idx state.lon.toRat - h3.lon_idx lon.toRat)

/-- The stored devices that a search reaches: those within the radius that the disk covers, and whose age
passes the filter. -/
def reached (haversine : ℚ → ℚ → ℚ → ℚ → D) (metres : ℚ → D) (h3 : H3Index) (cfg : SpatialConfig)
    (redis : RedisClient) (now_ms : ℤ) (lat lon radius_m : Double) (last_seen_s k : ℤ) : Set DeviceState :=
  {state ∈ near haversine metres cfg redis lat lon radius_m |
    Covered h3 k lat lon state ∧ fresh now_ms last_seen_s state = true}

/-- The handler finds what it reaches. -/
theorem mem_found (hreq : Request h3 cfg lat lon radius_m last_seen_s k) (hredis : Written h3 redis)
    (state : DeviceState) (dist : D) :
    (state, dist) ∈ found haversine metres h3 cfg order redis now_ms lat lon radius_m last_seen_s k ↔
      state ∈ reached haversine metres h3 cfg redis now_ms lat lon radius_m last_seen_s k ∧
        dist = distance haversine lat lon state := by
  unfold found
  rw [mem_select, mem_candidates _ _ hredis.indexed]
  -- A stored device is in the cell of its coordinates, so the disk is about rows and columns.
  have hcell : ∀ id, redis.get_device_state id = some state →
      (state.h3_cell ∈ H3Index.grid_disk
        (pack_cell h3.resolution (h3.lat_idx lat.toRat) (h3.lon_idx lon.toRat)) k ↔
        Covered h3 k lat lon state) := by
    intro id hid
    obtain ⟨hv, hc⟩ := h3.lat_lng_to_cell_ok_iff.mp (hredis.stored hid)
    obtain ⟨hlat, hlon⟩ := h3.idx_bounds hreq.position
    obtain ⟨hlat', hlon'⟩ := h3.idx_bounds hv
    have hres := h3.valid
    rw [hc]
    exact H3Index.mem_grid_disk_iff ⟨by omega, by omega⟩ hlat hlon hlat' hlon' hreq.rings_nonneg
      hreq.disk_fits
  constructor
  · rintro ⟨⟨⟨id, hid⟩, hmem⟩, hfresh, hdist, rfl⟩
    exact ⟨⟨⟨⟨id, hid⟩, hdist⟩, (hcell id hid).mp hmem, hfresh⟩, rfl⟩
  · rintro ⟨⟨⟨⟨id, hid⟩, hdist⟩, hcov, hfresh⟩, rfl⟩
    exact ⟨⟨⟨id, hid⟩, (hcell id hid).mpr hcov⟩, hfresh, hdist, rfl⟩

/-- No two devices that the handler finds have the same id. -/
theorem found_pairwise (hredis : Written h3 redis) :
    (found haversine metres h3 cfg order redis now_ms lat lon radius_m last_seen_s k).Pairwise
      fun a b => a.1.device_id ≠ b.1.device_id := by
  unfold found select
  rw [List.pairwise_filterMap]
  refine (candidates_pairwise _ _ hredis.indexed).imp fun {a b} hne x hx y hy => ?_
  simp only [Option.ite_none_right_eq_some, Option.some.injEq] at hx hy
  rw [← hx.2, ← hy.2]
  exact hne

omit [LinearOrder D] in
/-- A list has some of the stored devices, each with what `f` says of it, in the order of an answer. -/
structure Arranges (redis : RedisClient) (s : Set DeviceState) (f : DeviceState → D)
    (l : List (DeviceState × D)) : Prop where
  stored : ∀ state ∈ s, ∃ id, redis.get_device_state id = some state
  mem_iff : ∀ state dist, (state, dist) ∈ l ↔ state ∈ s ∧ dist = f state
  sorted : l.Pairwise fun a b => nearer a b = true

section Arrangements

variable {s s' : Set DeviceState} {f : DeviceState → D} {l l' : List (DeviceState × D)}

/-- One state is stored under an id. -/
theorem eq_of_device_id_eq (hredis : Written h3 redis) {state state' : DeviceState}
    (h : ∃ id, redis.get_device_state id = some state) (h' : ∃ id, redis.get_device_state id = some state')
    (heq : state.device_id = state'.device_id) : state = state' := by
  obtain ⟨id, hid⟩ := h
  obtain ⟨id', hid'⟩ := h'
  rw [hredis.indexed.device_id_eq id state hid, hredis.indexed.device_id_eq id' state' hid'] at heq
  subst heq
  exact Option.some.inj (hid.symm.trans hid')

/-- A device is in the list, with what is said of it. -/
theorem Arranges.mem_self_iff (h : Arranges redis s f l) (state : DeviceState) : (state, f state) ∈ l ↔ state ∈ s :=
  (h.mem_iff state _).trans (and_iff_left rfl)

/-- Some of the stored devices can be arranged. -/
theorem exists_arranges (hredis : Written h3 redis)
    (hs : ∀ state ∈ s, ∃ id, redis.get_device_state id = some state) (f : DeviceState → D) :
    ∃ l, Arranges redis s f l := by
  classical
  have hid : ((redis.device_states.keys.filterMap redis.get_device_state).filter (· ∈ s)).Pairwise
      fun a b => a.device_id ≠ b.device_id := by
    refine List.Pairwise.filter _ ?_
    rw [List.pairwise_filterMap]
    refine redis.device_states.keys_nodup.imp fun {id id'} hne state hstate state' hstate' heq => hne ?_
    rw [← hredis.indexed.device_id_eq id state hstate, ← hredis.indexed.device_id_eq id' state' hstate', heq]
  refine ⟨sort (((redis.device_states.keys.filterMap redis.get_device_state).filter (· ∈ s)).map
    fun state => (state, f state)), hs, fun state dist => ?_, pairwise_sort (List.pairwise_map.mpr hid)⟩
  have hmem : state ∈ redis.device_states.keys.filterMap redis.get_device_state ↔
      ∃ id, redis.get_device_state id = some state := by
    rw [List.mem_filterMap]
    refine ⟨fun ⟨id, _, hid⟩ => ⟨id, hid⟩, fun ⟨id, hid⟩ => ⟨id, ?_, hid⟩⟩
    exact AList.mem_keys.mpr (AList.lookup_isSome.mp (Option.isSome_of_eq_some hid))
  unfold sort
  rw [List.mem_mergeSort, List.mem_map]
  constructor
  · rintro ⟨state', hstate', heq⟩
    cases heq
    exact ⟨of_decide_eq_true (List.mem_filter.mp hstate').2, rfl⟩
  · rintro ⟨hstate, rfl⟩
    exact ⟨state, List.mem_filter.mpr ⟨hmem.mpr (hs state hstate), decide_eq_true hstate⟩, rfl⟩

omit [LinearOrder D] in
/-- A list without repetition that has the devices of a set has as many. -/
theorem ncard_eq_length (hnodup : l.Nodup) (hmem : ∀ state dist, (state, dist) ∈ l ↔ state ∈ s ∧ dist = f state) :
    s.ncard = l.length := by
  have hmap : (l.map Prod.fst).Nodup := by
    refine (List.nodup_map_iff_inj_on hnodup).mpr ?_
    rintro ⟨state, dist⟩ h ⟨state', dist'⟩ h' heq
    obtain rfl : state = state' := heq
    rw [((hmem state dist).mp h).2, ((hmem state dist').mp h').2]
  have hs : s = ((l.map Prod.fst).toFinset : Set DeviceState) := by
    ext state
    simp [hmem]
  rw [hs, Set.ncard_coe_finset, List.toFinset_card_of_nodup hmap, List.length_map]

/-- There are as many devices as the list is long. -/
theorem Arranges.ncard_eq (h : Arranges redis s f l) : s.ncard = l.length :=
  ncard_eq_length (Store.nodup_of_sorted h.sorted) h.mem_iff

/-- Of two lists, the devices are in one order. -/
theorem Arranges.total (h : Arranges redis s f l) (h' : Arranges redis s' f l') (hredis : Written h3 redis) :
    ∀ a ∈ l, ∀ b ∈ l', nearer a b = true ∨ a = b ∨ nearer b a = true := by
  rintro ⟨state, dist⟩ ha ⟨state', dist'⟩ hb
  obtain ⟨hstate, rfl⟩ := (h.mem_iff state dist).mp ha
  obtain ⟨hstate', rfl⟩ := (h'.mem_iff state' dist').mp hb
  cases hab : nearer (state, f state) (state', f state') with
  | true => exact .inl rfl
  | false =>
    cases hba : nearer (state', f state') (state, f state) with
    | true => exact .inr (.inr rfl)
    | false =>
      -- Neither comes first, so the ids agree.
      have hsame : state.device_id = state'.device_id := device_id_eq_of_not_nearer hab hba
      obtain rfl := eq_of_device_id_eq hredis (h.stored state hstate) (h'.stored state' hstate') hsame
      exact .inr (.inl rfl)

end Arrangements

/-- The devices of a set that come before a device in an answer. -/
def before (haversine : ℚ → ℚ → ℚ → ℚ → D) (lat lon : Double) (s : Set DeviceState) (state : DeviceState) :
    Set DeviceState :=
  {other ∈ s | distance haversine lat lon other < distance haversine lat lon state ∨
    distance haversine lat lon other = distance haversine lat lon state ∧ other.device_id < state.device_id}

/-- The answer of a search that reaches some devices is right about the devices that match: it reaches them
and no others, and their number fits an `int`; or the numbers agree after the cast, the limit cuts the answer,
and each device that the search is wrong about comes after enough others to be cut off. -/
def Agrees (haversine : ℚ → ℚ → ℚ → ℚ → D) (lat lon : Double) (limit : ℤ) (matching reached : Set DeviceState) :
    Prop :=
  castInt reached.ncard = matching.ncard ∧ ∀ state, ¬(state ∈ matching ↔ state ∈ reached) →
    limit < matching.ncard ∧ limit ≤ (before haversine lat lon (matching ∩ reached) state).ncard

/-- A search that reaches the devices that match is right, where their number fits an `int`. -/
theorem agrees_of_eq {s : Set DeviceState} (hcount : s.ncard < 2^31) : Agrees haversine lat lon limit s s :=
  ⟨(castInt_natCast_eq_iff _).mpr hcount, fun _ hne => absurd Iff.rfl hne⟩

/-- A search that reaches some of the devices that match is right exactly if it reaches all, and their number
fits an `int`. -/
theorem agrees_iff_of_subset {s s' : Set DeviceState} (hsub : s' ⊆ s) (hfinite : s.Finite) :
    Agrees haversine lat lon limit s s' ↔ s' = s ∧ s.ncard < 2^31 := by
  constructor
  · rintro ⟨hcount, -⟩
    have hcast := castInt_natCast_le s'.ncard
    obtain rfl : s' = s := Set.eq_of_subset_of_ncard_le hsub (by omega) hfinite
    exact ⟨rfl, (castInt_natCast_eq_iff _).mp hcount⟩
  · rintro ⟨rfl, hcount⟩
    exact agrees_of_eq hcount

section Cuts

variable {s s' : Set DeviceState} {all sorted : List (DeviceState × D)}

/-- What comes before a device in both lists. -/
theorem Arranges.countBefore_eq (h : Arranges redis s (distance haversine lat lon) all)
    (h' : Arranges redis s' (distance haversine lat lon) sorted) (state : DeviceState) :
    Store.countBefore (fun a b => nearer a b = true) all sorted (state, distance haversine lat lon state) =
      (before haversine lat lon (s ∩ s') state).ncard := by
  unfold Store.countBefore
  rw [List.countP_eq_length_filter]
  refine (ncard_eq_length (f := distance haversine lat lon) ((Store.nodup_of_sorted h.sorted).filter _)
    fun other dist => ?_).symm
  unfold before
  simp only [List.mem_filter, h.mem_iff, decide_eq_true_eq, h'.mem_iff, nearer_iff, Set.mem_ofPred_eq,
    Set.mem_inter_iff]
  constructor
  · rintro ⟨⟨hother, rfl⟩, ⟨hother', -⟩, hnearer⟩
    exact ⟨⟨⟨hother, hother'⟩, hnearer⟩, rfl⟩
  · rintro ⟨⟨⟨hother, hother'⟩, hnearer⟩, rfl⟩
    exact ⟨⟨hother, rfl⟩, ⟨hother', rfl⟩, hnearer⟩

/-- The lists have the same first devices exactly if each device that only one of them has comes after as many
that both have. -/
theorem Arranges.take_eq_take_iff (h : Arranges redis s (distance haversine lat lon) all)
    (h' : Arranges redis s' (distance haversine lat lon) sorted) (hredis : Written h3 redis) (n : ℕ) :
    all.take n = sorted.take n ↔ ∀ state, ¬(state ∈ s ↔ state ∈ s') →
      n ≤ (before haversine lat lon (s ∩ s') state).ncard := by
  rw [Store.take_eq_take_iff h.sorted h'.sorted (h.total h' hredis) n]
  constructor
  · intro hlists state hwrong
    rw [← h.countBefore_eq h' state]
    exact hlists _ (by rwa [h.mem_self_iff, h'.mem_self_iff])
  · rintro hsets ⟨state, dist⟩ hwrong
    obtain rfl : dist = distance haversine lat lon state := by
      by_contra hne
      rw [h.mem_iff, h'.mem_iff] at hwrong
      exact hwrong (iff_of_false (fun hmem => hne hmem.2) fun hmem => hne hmem.2)
    rw [h.countBefore_eq h' state]
    exact hsets state (by rwa [h.mem_self_iff, h'.mem_self_iff] at hwrong)

/-- Cutting what was found is cutting what matches, exactly if the search is right. -/
theorem Arranges.cut_eq_iff_agrees (h : Arranges redis s (distance haversine lat lon) all)
    (h' : Arranges redis s' (distance haversine lat lon) sorted) (hredis : Written h3 redis) (hlimit : 0 < limit) :
    (if castInt sorted.length > limit then sorted.take limit.toNat else sorted) = all.take limit.toNat ∧
        castInt sorted.length = all.length ↔ Agrees haversine lat lon limit s s' := by
  have htake := h.take_eq_take_iff h' hredis limit.toNat
  unfold Agrees
  rw [h.ncard_eq, h'.ncard_eq, and_comm]
  refine and_congr_right fun hcast => ?_
  constructor
  · intro hdevices state hwrong
    by_cases hcut : castInt sorted.length > limit
    · rw [if_pos hcut, eq_comm] at hdevices
      have hbefore := htake.mp hdevices state hwrong
      omega
    · -- Nothing is cut, so the two are the same.
      rw [if_neg hcut, List.take_of_length_le (by omega)] at hdevices
      refine absurd ?_ hwrong
      rw [← h.mem_self_iff, ← h'.mem_self_iff, hdevices]
  · intro hwrong
    by_cases hsame : ∀ state, state ∈ s ↔ state ∈ s'
    · obtain rfl : all = sorted := Store.eq_of_sorted h.sorted h'.sorted fun device => by
        rw [h.mem_iff device.1 device.2, h'.mem_iff device.1 device.2, hsame]
      split
      · rfl
      · rw [List.take_of_length_le (by omega)]
    · obtain ⟨state, hstate⟩ := not_forall.mp hsame
      have hmany := (hwrong state hstate).1
      rw [if_pos (by omega), eq_comm, htake]
      intro other hother
      have hbefore := (hwrong other hother).2
      omega

end Cuts

/-- What the handler sorts arranges what it reaches. -/
theorem arranges_sort_found (hreq : Request h3 cfg lat lon radius_m last_seen_s k) (hredis : Written h3 redis) :
    Arranges redis (reached haversine metres h3 cfg redis now_ms lat lon radius_m last_seen_s k)
      (distance haversine lat lon)
      (sort (found haversine metres h3 cfg order redis now_ms lat lon radius_m last_seen_s k)) where
  stored _ hstate := hstate.1.1
  mem_iff state dist := List.mem_mergeSort.trans (mem_found hreq hredis state dist)
  sorted := pairwise_sort (found_pairwise hredis)

/-- The answer is the brute-force answer exactly if the search is right about the devices that match. -/
theorem isBruteForce_iff (hreq : Request h3 cfg lat lon radius_m last_seen_s k) (hredis : Written h3 redis) :
    (∃ result, handle haversine metres h3 cfg order redis now_ms lat lon radius_m limit
        last_seen_s = .ok result ∧
      IsBruteForce haversine metres cfg redis now_ms lat lon radius_m limit last_seen_s result) ↔
    Agrees haversine lat lon (effective_limit cfg limit)
      (matching haversine metres cfg redis now_ms lat lon radius_m last_seen_s)
      (reached haversine metres h3 cfg redis now_ms lat lon radius_m last_seen_s k) := by
  obtain ⟨total, hrun⟩ := handle_eq haversine metres order redis now_ms limit hreq
  have hstored : ∀ state ∈ matching haversine metres cfg redis now_ms lat lon radius_m last_seen_s,
      ∃ id, redis.get_device_state id = some state := fun state hstate => hstate.1.1
  obtain ⟨all, hall⟩ := exists_arranges hredis hstored (distance haversine lat lon)
  have hsort : (sort (found haversine metres h3 cfg order redis now_ms lat lon radius_m last_seen_s k)).length =
      (found haversine metres h3 cfg order redis now_ms lat lon radius_m last_seen_s k).length :=
    (List.mergeSort_perm _ _).length_eq
  rw [← hall.cut_eq_iff_agrees (arranges_sort_found hreq hredis) hredis effective_limit_pos, hrun]
  constructor
  · rintro ⟨result, hresult, all', hmem, hpairs, hdevices, htotal⟩
    obtain rfl := Except.ok.inj hresult
    -- The list that the specification speaks of is the sorted one.
    obtain rfl : all = all' := Store.eq_of_sorted hall.sorted (hpairs.imp fun h => (nearer_iff _ _).mpr h)
      fun device => (hall.mem_iff device.1 device.2).trans (hmem device.1 device.2).symm
    dsimp only at hdevices htotal
    rw [hsort] at hdevices ⊢
    exact ⟨hdevices, htotal⟩
  · rintro ⟨hdevices, htotal⟩
    refine ⟨_, rfl, all, hall.mem_iff, hall.sorted.imp fun h => (nearer_iff _ _).mp h, ?_, ?_⟩
    · dsimp only
      exact hdevices
    · dsimp only
      rw [← hsort]
      exact htotal

/-- Where the ages of the stored devices fit an `int64_t`, or are not asked for, the search is right exactly if
the disk covers every device that matches, and their number fits an `int`. -/
theorem isBruteForce_iff_of_ages (hreq : Request h3 cfg lat lon radius_m last_seen_s k)
    (hredis : Written h3 redis) (hages : 0 < last_seen_s → ∀ id state, redis.get_device_state id = some state →
      -2^63 ≤ now_ms - state.updated_at ∧ now_ms - state.updated_at < 2^63) :
    (∃ result, handle haversine metres h3 cfg order redis now_ms lat lon radius_m limit
        last_seen_s = .ok result ∧
      IsBruteForce haversine metres cfg redis now_ms lat lon radius_m limit last_seen_s result) ↔
    (∀ state ∈ matching haversine metres cfg redis now_ms lat lon radius_m last_seen_s,
        Covered h3 k lat lon state) ∧
      (matching haversine metres cfg redis now_ms lat lon radius_m last_seen_s).ncard < 2^31 := by
  have hfresh : ∀ state ∈ near haversine metres cfg redis lat lon radius_m,
      (fresh now_ms last_seen_s state = true ↔ Recent now_ms last_seen_s state) := by
    rintro state ⟨⟨id, hid⟩, -⟩
    by_cases hpos : 0 < last_seen_s
    · obtain ⟨hlo, hhi⟩ := hages hpos id state hid
      exact fresh_iff_recent hlo hhi
    · exact iff_of_true (by simp [fresh, hpos]) fun h => absurd h hpos
  have hsub : reached haversine metres h3 cfg redis now_ms lat lon radius_m last_seen_s k ⊆
      matching haversine metres cfg redis now_ms lat lon radius_m last_seen_s :=
    fun state hstate => ⟨hstate.1, (hfresh state hstate.1).mp hstate.2.2⟩
  have hstored : ∀ state ∈ matching haversine metres cfg redis now_ms lat lon radius_m last_seen_s,
      ∃ id, redis.get_device_state id = some state := fun state hstate => hstate.1.1
  obtain ⟨all, hall⟩ := exists_arranges hredis hstored (distance haversine lat lon)
  have hfinite : (matching haversine metres cfg redis now_ms lat lon radius_m last_seen_s).Finite :=
    (List.finite_toSet (all.map Prod.fst)).subset fun state hstate =>
      List.mem_map.mpr ⟨_, (hall.mem_self_iff state).mpr hstate, rfl⟩
  rw [isBruteForce_iff hreq hredis, agrees_iff_of_subset hsub hfinite]
  refine and_congr_left' ⟨fun heq state hstate => ?_, fun hcov => hsub.antisymm fun state hstate => ?_⟩
  · rw [← heq] at hstate
    exact hstate.2.1
  · exact ⟨hstate.1, hcov state hstate, (hfresh state hstate.1).mpr hstate.2⟩

end Request

section GreatCircle

/-- The great-circle distance in metres, between coordinates that doubles denote. -/
noncomputable def great_circle (lat1 lon1 lat2 lon2 : ℚ) : ℝ := geo.haversine lat1 lon1 lat2 lon2

/-- The nearby query against brute force, with exact great-circle distances. On every store that
writes can reach and for every request that the handler serves, its answer is the brute-force answer
if and only if the search is right about the devices that match: it reaches exactly these, which are the
devices within the radius whose cell lies in the hexagon of radius `k` around the cell of the query point and
whose age, a difference that wraps around, passes the filter, and their number fits an `int`; or the limit
hides what it is wrong about. -/
theorem handle_isBruteForce_iff (h3 : H3Index) (cfg : SpatialConfig) (order : HashOrder)
    {redis : RedisClient} (hredis : Written h3 redis) (now_ms : ℤ) {lat lon radius_m : Double}
    (limit : ℤ) {last_seen_s k : ℤ} (hreq : Request h3 cfg lat lon radius_m last_seen_s k) :
    (∃ result, handle great_circle (fun r => (r : ℝ)) h3 cfg order redis now_ms lat lon radius_m
        limit last_seen_s = .ok result ∧
      IsBruteForce great_circle (fun r => (r : ℝ)) cfg redis now_ms lat lon radius_m limit
        last_seen_s result) ↔
    Agrees great_circle lat lon (effective_limit cfg limit)
      (matching great_circle (fun r => (r : ℝ)) cfg redis now_ms lat lon radius_m last_seen_s)
      (reached great_circle (fun r => (r : ℝ)) h3 cfg redis now_ms lat lon radius_m last_seen_s k) :=
  isBruteForce_iff hreq hredis

/-- A device reports from the antimeridian, with longitude -180. -/
def seam_event : LocationEvent :=
  { device_id := "d", lat := .finite 0, lon := .finite (-180), server_recv_ms := 1, seq := 1 }

/-- The store after that report. -/
def seam_store : RedisClient := (StateWriter.write H3Index.default seam_event 0 {}).2

/-- The report is a write from the empty store. -/
theorem seam_store_written : Written H3Index.default seam_store :=
  Written.empty.write seam_event 0 (by decide +kernel)

/-- A query from the same point, with longitude 180 and a radius of one kilometre, is served with a
disk of radius 1. -/
theorem seam_request :
    Request H3Index.default {} (.finite 0) (.finite 180) (.finite 1000) 0 1 where
  position := by decide +kernel
  radius_finite := rfl
  radius_pos := by decide +kernel
  last_seen := le_refl 0
  rings := by decide +kernel
  disk_fits := by decide

/-- The witness at the query across the antimeridian. -/
theorem handle_isBruteForce_iff_seam :
    (∃ result, handle great_circle (fun r => (r : ℝ)) H3Index.default {} .insertion seam_store 2
        (.finite 0) (.finite 180) (.finite 1000) 10 0 = .ok result ∧
      IsBruteForce great_circle (fun r => (r : ℝ)) {} seam_store 2 (.finite 0) (.finite 180)
        (.finite 1000) 10 0 result) ↔
    Agrees great_circle (.finite 0) (.finite 180) (effective_limit {} 10)
      (matching great_circle (fun r => (r : ℝ)) {} seam_store 2 (.finite 0) (.finite 180) (.finite 1000) 0)
      (reached great_circle (fun r => (r : ℝ)) H3Index.default {} seam_store 2 (.finite 0) (.finite 180)
        (.finite 1000) 0 1) :=
  handle_isBruteForce_iff H3Index.default {} .insertion seam_store_written 2 10 seam_request

/-- The query from the very point that the device reported does not return the brute-force answer:
the device is at distance zero, and its column is at the other end of the grid. -/
theorem seam_query_misses : Written H3Index.default seam_store ∧
    Request H3Index.default {} (.finite 0) (.finite 180) (.finite 1000) 0 1 ∧
    ¬∃ result, handle great_circle (fun r => (r : ℝ)) H3Index.default {} .insertion seam_store 2
        (.finite 0) (.finite 180) (.finite 1000) 10 0 = .ok result ∧
      IsBruteForce great_circle (fun r => (r : ℝ)) {} seam_store 2 (.finite 0) (.finite 180)
        (.finite 1000) 10 0 result := by
  refine ⟨seam_store_written, seam_request, ?_⟩
  rw [isBruteForce_iff_of_ages seam_request seam_store_written fun h => absurd h (lt_irrefl 0)]
  rintro ⟨hcov, -⟩
  -- The device matches, so the disk would have to cover it.
  obtain ⟨cell, -, hw⟩ := StateWriter.write_with_result_valid H3Index.default seam_event
    0 {} (by decide +kernel)
  have hstored : seam_store.get_device_state "d" =
      some (StateWriter.state_of seam_event cell 0) := by
    unfold seam_store StateWriter.write
    rw [hw]
    exact RedisClient.lookup_update_device_state_cas _ rfl "d"
  have hmatch : StateWriter.state_of seam_event cell 0 ∈ matching great_circle (fun r => (r : ℝ)) {}
      seam_store 2 (.finite 0) (.finite 180) (.finite 1000) 0 := by
    refine ⟨⟨⟨"d", hstored⟩, ?_⟩, fun h => absurd h (lt_irrefl 0)⟩
    have hmin : (Double.finite 1000).min (.finite 50000) = .finite 1000 := by decide +kernel
    show great_circle 0 180 0 (-180) ≤ (((Double.finite 1000).min (.finite 50000)).toRat : ℝ)
    unfold great_circle
    rw [hmin]
    push_cast
    rw [geo.haversine_antimeridian, Double.toRat_finite]
    norm_num
  -- But its column is the first one, and that of the query is the last.
  have hcol := (hcov _ hmatch).2.1
  change |H3Index.default.lon_idx (-180) - H3Index.default.lon_idx 180| ≤ 1 at hcol
  exact absurd hcol (by decide +kernel)

end GreatCircle

end NearbyHandler

end SignalRoute
