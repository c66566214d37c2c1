import SignalRoute.Clients.RedisServer
import SignalRoute.Clients.Redis
import SignalRoute.Numeric.Reread
import SignalRoute.Spatial.H3Index

/-!
# Device states in the Redis build and back

An accepted write of `RedisServer.lean` stores every field of a state as text, and a read converts the
texts back (`ends_get_device_state_of_accepted`). The integers come back. Doubles and floats are printed by
`std::to_string` with six decimals, so they come back exactly if they are nearest to a multiple of `10^-6`:
this is the condition for the Redis build to return what was stored, and what the in-memory build returns
(`device_hash_iff`).
-/

namespace SignalRoute

open Numeric
open Store (UnorderedMap)
open Interaction (Prog)

namespace RedisServer

open RedisProgram

variable {config : RedisConfig} {device_id : String} {server server' : RedisServer} {state : DeviceState}

/-- What is read of a device is what its hash decodes to, if it has fields. -/
theorem ends_get_device_state (server : RedisServer) :
    (get_device_state config device_id).ends handler server =
      (if (server.fields (device_key config device_id)).entries.isEmpty then .ok none
        else (device_state_from_hash (server.fields (device_key config device_id))).map some, server) := by
  have hrun : handler.run (.HGETALL (device_key config device_id)) server =
      (server.fields (device_key config device_id), server) := rfl
  unfold get_device_state
  rw [Prog.bind_eq, Prog.ends_bind_perform]
  simp only [hrun]
  generalize server.fields (device_key config device_id) = fields
  split
  · rfl
  · cases device_state_from_hash fields <;> rfl

/-- A write stores the fields of the state. The other commands leave the hashes as they are. -/
theorem ends_write_device_state (config : RedisConfig) (device_id : String) (state : DeviceState) (ttl_s : ℤ)
    (current : Option DeviceState) (server : RedisServer) :
    ∃ server', (write_device_state config device_id state ttl_s current).ends handler server =
        (.ok true, server') ∧
      server'.fields (device_key config device_id) = (hash_fields { state with device_id }).foldl
        (fun hash f => hash.insert f.1 f.2) (server.fields (device_key config device_id)) := by
  have hlookup : ∀ (hashes : UnorderedMap String (UnorderedMap String String))
      (updated : UnorderedMap String String),
      ((hashes.insert (device_key config device_id) updated).lookup
        (device_key config device_id)).getD ∅ = updated := by
    intro hashes updated
    rw [AList.lookup_insert, Option.getD_some]
  unfold write_device_state
  cases current with
  | none =>
    by_cases httl : ttl_s > 0
    · simp only [if_pos httl]
      exact ⟨_, rfl, hlookup _ _⟩
    · simp only [if_neg httl]
      exact ⟨_, rfl, hlookup _ _⟩
  | some current =>
    by_cases hcell : current.h3_cell ≠ state.h3_cell
    · by_cases httl : ttl_s > 0
      · simp only [if_pos hcell, if_pos httl]
        exact ⟨_, rfl, hlookup _ _⟩
      · simp only [if_pos hcell, if_neg httl]
        exact ⟨_, rfl, hlookup _ _⟩
    · by_cases httl : ttl_s > 0
      · simp only [if_neg hcell, if_pos httl]
        exact ⟨_, rfl, hlookup _ _⟩
      · simp only [if_neg hcell, if_neg httl]
        exact ⟨_, rfl, hlookup _ _⟩

/-- So an accepted update stores the fields of the state. -/
theorem fields_of_accepted {ttl_s : ℤ}
    (h : (update_device_state_cas config device_id state ttl_s).ends handler server = (.ok true, server')) :
    server'.fields (device_key config device_id) = (hash_fields { state with device_id }).foldl
      (fun hash f => hash.insert f.1 f.2) (server.fields (device_key config device_id)) := by
  unfold update_device_state_cas at h
  split at h
  · cases h
  rw [Prog.bind_eq] at h
  obtain ⟨current, hread⟩ | ⟨e, hread⟩ :
      (∃ current, (get_device_state config device_id).ends handler server = (.ok current, server)) ∨
        ∃ e, (get_device_state config device_id).ends handler server = (.error e, server) := by
    rw [ends_get_device_state]
    split
    · exact .inl ⟨none, rfl⟩
    · cases device_state_from_hash (server.fields (device_key config device_id)) with
      | ok current => exact .inl ⟨some current, rfl⟩
      | error e => exact .inr ⟨e, rfl⟩
  · rw [Prog.ends_bind_ok hread] at h
    split at h
    · cases h
    · obtain ⟨written, hwrite, hfields⟩ := ends_write_device_state config device_id state ttl_s
        current server
      rw [hwrite] at h
      cases h
      exact hfields
  · rw [Prog.ends_bind_error hread] at h
    cases h

end RedisServer

/-- The values that the fields of a state can have: the numbers of their types. -/
structure DeviceState.InRange (state : DeviceState) : Prop where
  lat : ∀ q, state.lat = .finite q → |q| ≤ Format.double.largest
  lon : ∀ q, state.lon = .finite q → |q| ≤ Format.double.largest
  altitude_m : ∀ q, state.altitude_m = .finite q → |q| ≤ Format.float.largest
  accuracy_m : ∀ q, state.accuracy_m = .finite q → |q| ≤ Format.float.largest
  speed_ms : ∀ q, state.speed_ms = .finite q → |q| ≤ Format.float.largest
  heading_deg : ∀ q, state.heading_deg = .finite q → |q| ≤ Format.float.largest
  h3_cell : -2^63 ≤ state.h3_cell ∧ state.h3_cell < 2^63
  seq : state.seq < 2^64
  updated_at : -2^63 ≤ state.updated_at ∧ state.updated_at < 2^63

/-- The state whose doubles and floats are nearest to multiples of `10^-6`. -/
structure DeviceState.SixDecimals (state : DeviceState) : Prop where
  lat : ∀ q, state.lat = .finite q → SixDecimal .double q
  lon : ∀ q, state.lon = .finite q → SixDecimal .double q
  altitude_m : ∀ q, state.altitude_m = .finite q → SixDecimal .float q
  accuracy_m : ∀ q, state.accuracy_m = .finite q → SixDecimal .float q
  speed_ms : ∀ q, state.speed_ms = .finite q → SixDecimal .float q
  heading_deg : ∀ q, state.heading_deg = .finite q → SixDecimal .float q

/-- The state that is read of the texts of a state. -/
def DeviceState.reread (state : DeviceState) : DeviceState :=
  { state with
    lat := rereadFixed .double state.lat
    lon := rereadFixed .double state.lon
    altitude_m := rereadFixed .float state.altitude_m
    accuracy_m := rereadFixed .float state.accuracy_m
    speed_ms := rereadFixed .float state.speed_ms
    heading_deg := rereadFixed .float state.heading_deg }

/-- It is the state itself exactly if every number comes back. -/
theorem DeviceState.reread_eq_iff {state : DeviceState} : state.reread = state ↔ state.SixDecimals := by
  have hdouble := fun x => rereadFixed_eq_iff Format.fine_double (x := x)
  have hfloat := fun x => rereadFixed_eq_iff Format.fine_float (x := x)
  constructor
  · intro h
    unfold DeviceState.reread at h
    exact ⟨(hdouble _).mp (congrArg DeviceState.lat h), (hdouble _).mp (congrArg DeviceState.lon h),
      (hfloat _).mp (congrArg DeviceState.altitude_m h), (hfloat _).mp (congrArg DeviceState.accuracy_m h),
      (hfloat _).mp (congrArg DeviceState.speed_ms h), (hfloat _).mp (congrArg DeviceState.heading_deg h)⟩
  · intro h
    unfold DeviceState.reread
    rw [(hdouble _).mpr h.lat, (hdouble _).mpr h.lon, (hfloat _).mpr h.altitude_m,
      (hfloat _).mpr h.accuracy_m, (hfloat _).mpr h.speed_ms, (hfloat _).mpr h.heading_deg]

/-- The fields of a state decode to the state that is read of its texts, whatever the hash had before. -/
theorem device_state_from_hash_fields (hash : UnorderedMap String String) {state : DeviceState}
    (h : state.InRange) :
    device_state_from_hash ((hash_fields state).foldl (fun hash f => hash.insert f.1 f.2) hash) =
      .ok state.reread := by
  have hfield : ∀ f ∈ hash_fields state, field ((hash_fields state).foldl
      (fun hash f => hash.insert f.1 f.2) hash) f.1 = f.2 := fun f hf => RedisServer.field_hash_fields hf hash
  generalize (hash_fields state).foldl (fun hash f => hash.insert f.1 f.2) hash = fields at *
  unfold hash_fields at hfield
  simp only [List.forall_mem_cons] at hfield
  obtain ⟨hdevice_id, hlat, hlon, haltitude_m, haccuracy_m, hspeed_ms, hheading_deg, hh3_cell, hseq,
    hupdated_at, -⟩ := hfield
  unfold device_state_from_hash
  rw [hdevice_id, hlat, hlon, haltitude_m, haccuracy_m, hspeed_ms, hheading_deg, hh3_cell, hseq, hupdated_at]
  unfold stod stof
  rw [readFloating_to_string Format.fine_double h.lat, readFloating_to_string Format.fine_double h.lon,
    readFloating_to_string Format.fine_float h.altitude_m, readFloating_to_string Format.fine_float h.accuracy_m,
    readFloating_to_string Format.fine_float h.speed_ms, readFloating_to_string Format.fine_float h.heading_deg,
    stoll_toString h.h3_cell, stoull_toString h.seq, stoll_toString h.updated_at]
  rfl

namespace RedisServer

open RedisProgram

variable {config : RedisConfig} {device_id : String} {server server' : RedisServer} {state : DeviceState}

/-- After an accepted update the state is read that its texts have. -/
theorem ends_get_device_state_of_accepted {ttl_s : ℤ} (hrange : state.InRange)
    (h : (update_device_state_cas config device_id state ttl_s).ends handler server = (.ok true, server')) :
    (get_device_state config device_id).ends handler server' =
      (.ok (some { state with device_id }.reread), server') := by
  have hstored : { state with device_id }.InRange :=
    ⟨hrange.lat, hrange.lon, hrange.altitude_m, hrange.accuracy_m, hrange.speed_ms, hrange.heading_deg,
      hrange.h3_cell, hrange.seq, hrange.updated_at⟩
  have hdecode := device_state_from_hash_fields (server.fields (device_key config device_id)) hstored
  rw [ends_get_device_state, fields_of_accepted h, hdecode, if_neg]
  · rfl
  · intro hempty
    have hnil := AList.ext (List.isEmpty_iff.mp hempty) (t := ∅)
    rw [hnil] at hdecode
    cases hdecode

/-- In the Redis build an accepted state is read as it was stored, in the cell of its position, and as the
in-memory build returns it, exactly if all its doubles and floats are nearest to multiples of `10^-6`. -/
theorem device_hash_iff {ttl_s : ℤ} (hrange : state.InRange)
    (h : (update_device_state_cas config device_id state ttl_s).ends handler server = (.ok true, server')) :
    (∃ returned, (get_device_state config device_id).ends handler server' = (.ok (some returned), server') ∧
      returned = { state with device_id } ∧
      (∀ h3 : H3Index, h3.lat_lng_to_cell state.lat state.lon = .ok state.h3_cell →
        h3.lat_lng_to_cell returned.lat returned.lon = .ok returned.h3_cell) ∧
      ∀ redis redis' : RedisClient, redis.update_device_state_cas device_id state = (true, redis') →
        redis'.get_device_state device_id = some returned) ↔ state.SixDecimals := by
  have hget := ends_get_device_state_of_accepted hrange h
  have hstored : { state with device_id }.SixDecimals ↔ state.SixDecimals :=
    ⟨fun h => ⟨h.lat, h.lon, h.altitude_m, h.accuracy_m, h.speed_ms, h.heading_deg⟩,
      fun h => ⟨h.lat, h.lon, h.altitude_m, h.accuracy_m, h.speed_ms, h.heading_deg⟩⟩
  rw [← hstored, ← DeviceState.reread_eq_iff]
  constructor
  · rintro ⟨returned, hreturned, heq, -⟩
    rw [hget] at hreturned
    cases hreturned
    exact heq
  · intro hsame
    rw [hsame] at hget
    refine ⟨_, hget, rfl, fun h3 hcell => hcell, fun redis redis' hupdate => ?_⟩
    have haccepted := congrArg Prod.fst hupdate
    have hlookup := RedisClient.lookup_update_device_state_cas redis haccepted device_id
    rw [hupdate, if_pos rfl] at hlookup
    exact hlookup

/-- A bound on the value is one on the finite value. -/
theorem of_toRat {P : ℚ → Prop} {x : Double} (h : P x.toRat) : ∀ q, x = .finite q → P q := by
  rintro q rfl
  exact h

/-- A device on the move, at a position with two decimals. -/
def movingDevice : DeviceState where
  device_id := "d"
  lat := .finite (1 / 2)
  lon := .finite (-3 / 4)
  speed_ms := .finite (27 / 2)
  seq := 1
  updated_at := 1000

/-- It is read as it was stored. -/
theorem device_hash_iff_moving : ∃ server', (update_device_state_cas {} "d" movingDevice 60).ends handler {} =
      (.ok true, server') ∧
    (get_device_state {} "d").ends handler server' = (.ok (some movingDevice), server') := by
  have hrange : movingDevice.InRange := by
    constructor <;> first | exact of_toRat (by decide +kernel) | decide
  have hsix : movingDevice.SixDecimals := DeviceState.reread_eq_iff.mp (by decide +kernel)
  obtain ⟨returned, hget, rfl, -⟩ := (@device_hash_iff {} "d" {} _ _ 60 hrange rfl).mpr hsix
  exact ⟨_, rfl, hget⟩

/-- A device a tenth of a millimetre south of the equator. -/
def southernDevice : DeviceState where
  device_id := "d"
  lat := .finite (-1 / 2^30)
  lon := .finite 20
  h3_cell := 2017617029497898776
  seq := 1
  updated_at := 1000

/-- It is read as a device on the equator, which is in another cell. -/
theorem southern_device_moved : H3Index.default.lat_lng_to_cell southernDevice.lat southernDevice.lon =
      .ok southernDevice.h3_cell ∧
    ∃ server', (update_device_state_cas {} "d" southernDevice 60).ends handler {} = (.ok true, server') ∧
      (get_device_state {} "d").ends handler server' = (.ok (some { southernDevice with lat := 0 }), server') ∧
      H3Index.default.lat_lng_to_cell 0 southernDevice.lon ≠ .ok southernDevice.h3_cell ∧
      (({} : RedisClient).update_device_state_cas "d" southernDevice).2.get_device_state "d" =
        some southernDevice := by
  have hrange : southernDevice.InRange := by
    constructor <;> first | exact of_toRat (by decide +kernel) | decide
  have hread : southernDevice.reread = { southernDevice with lat := 0 } := by decide +kernel
  have hget := @ends_get_device_state_of_accepted {} "d" {} _ _ 60 hrange rfl
  have hid : { southernDevice with device_id := "d" } = southernDevice := rfl
  rw [hid, hread] at hget
  exact ⟨by decide +kernel, _, rfl, hget, by decide +kernel, by decide +kernel⟩

end RedisServer

end SignalRoute
