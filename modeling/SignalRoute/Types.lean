import SignalRoute.Numeric.Double
import Mathlib.Data.Finset.Basic

/-!
# Domain types

The records of `src/common/types` and the configuration sections that the modelled functions read.
A `float` field is carried as the double that it converts to, and a byte string as a `String` whose
characters stand for its bytes.
-/

namespace SignalRoute

open Numeric (Double)

/-- A C++ exception: one derived from `std::exception` with its `what()`, or anything else. -/
inductive Exception where
  | std (what : String)
  | other
  deriving DecidableEq

/-- `LocationEvent` (`location_event.h`). -/
structure LocationEvent where
  device_id : String
  lat : Double := 0
  lon : Double := 0
  altitude_m : Double := 0
  accuracy_m : Double := 0
  speed_ms : Double := 0
  heading_deg : Double := 0
  timestamp_ms : ℤ := 0
  server_recv_ms : ℤ := 0
  seq : ℕ := 0
  metadata : List (String × String) := []
  deriving DecidableEq

/-- `DeviceState` (`device_state.h`). -/
structure DeviceState where
  device_id : String
  lat : Double := 0
  lon : Double := 0
  altitude_m : Double := 0
  accuracy_m : Double := 0
  speed_ms : Double := 0
  heading_deg : Double := 0
  h3_cell : ℤ := 0
  seq : ℕ := 0
  updated_at : ℤ := 0
  deriving DecidableEq

/-- `FenceState` (`geofence_types.h`). -/
inductive FenceState where
  | OUTSIDE
  | INSIDE
  | DWELL
  deriving DecidableEq

/-- `GeofenceEventType` (`geofence_types.h`). -/
inductive GeofenceEventType where
  | ENTER
  | EXIT
  | DWELL
  deriving DecidableEq

/-- `FenceStateRecord` (`geofence_types.h`). -/
structure FenceStateRecord where
  device_id : String
  fence_id : String
  state : FenceState := .OUTSIDE
  entered_at_ms : ℤ := 0
  updated_at_ms : ℤ := 0
  deriving DecidableEq

/-- `GeofenceRule` (`geofence_types.h`); `complex_geometry`, which nothing reads, is left out. -/
structure GeofenceRule where
  fence_id : String
  name : String := ""
  polygon_vertices : List (Double × Double) := []
  h3_cells : Finset ℤ := ∅
  dwell_threshold_s : ℤ := 300
  active : Bool := true
  deriving DecidableEq

/-- `GeofenceEventRecord` (`geofence_types.h`). -/
structure GeofenceEventRecord where
  device_id : String
  fence_id : String
  fence_name : String
  event_type : GeofenceEventType
  lat : Double := 0
  lon : Double := 0
  event_ts_ms : ℤ := 0
  inside_duration_s : ℤ := 0
  deriving DecidableEq

/-- `MatchStatus` (`matching_types.h`). -/
inductive MatchStatus where
  | MATCHED
  | FAILED
  | EXPIRED
  deriving DecidableEq

/-- `MatchRequest` (`matching_types.h`). -/
structure MatchRequest where
  request_id : String
  requester_id : String := ""
  lat : Double := 0
  lon : Double := 0
  radius_m : Double := 0
  max_agents : ℤ := 1
  deadline_ms : ℤ := 0
  strategy : String := ""
  deriving DecidableEq

/-- `MatchCandidate` (`matching_types.h`). The distance is of the type that distances are measured
in. -/
structure MatchCandidate (D : Type) where
  agent_id : String
  lat : Double := 0
  lon : Double := 0
  distance_m : D
  available : Bool := true

/-- `MatchResult` (`matching_types.h`). -/
structure MatchResult where
  request_id : String
  status : MatchStatus := .FAILED
  assigned_agent_ids : List String := []
  reason : String := ""
  latency_ms : ℤ := 0
  deriving DecidableEq

/-- `KafkaMessage` (`kafka_consumer.h`). -/
structure KafkaMessage where
  topic : String
  partition : ℤ := 0
  offset : ℕ
  key : String
  payload : String
  timestamp_ms : ℤ := 0
  deriving DecidableEq

/-- The fields of `ProcessorConfig` (`config.h`) that the processor reads. -/
structure ProcessorConfig where
  history_batch_size : ℤ := 500
  history_flush_interval_ms : ℤ := 500

/-- The fields of `SpatialConfig` (`config.h`) that the nearby query reads, with what
`validate_config` checks of them before a service starts. -/
structure SpatialConfig where
  nearby_max_results : ℤ := 1000
  nearby_max_radius_m : Double := .finite 50000
  max_results_pos : 0 < nearby_max_results := by decide
  max_radius_pos : ¬ nearby_max_radius_m ≤ .finite 0 := by decide +kernel

/-- The fields of `GeofenceConfig` (`config.h`) that the dwell checker reads. -/
structure GeofenceConfig where
  dwell_threshold_s : ℤ := 300

/-- The fields of `GatewayConfig` (`config.h`) that the validator reads. -/
structure GatewayConfig where
  timestamp_skew_tolerance_s : ℤ := 30

/-- `static_cast<int>` of an integer: the low 32 bits, as a signed number. -/
def castInt (z : ℤ) : ℤ := z.bmod (2^32)

/-- The difference of two `int64_t`s, which wraps around. -/
def subInt64 (a b : ℤ) : ℤ := (a - b).bmod (2^64)

/-- A difference that fits an `int64_t` is exact. -/
theorem subInt64_eq {a b : ℤ} (h : -2^63 ≤ a - b) (h' : a - b < 2^63) : subInt64 a b = a - b := by
  unfold subInt64
  exact Int.bmod_eq_of_le (by omega) (by omega)

/-- The cast changes no number that fits an `int`. -/
theorem castInt_eq {z : ℤ} (h : -2^31 ≤ z) (h' : z < 2^31) : castInt z = z := by
  unfold castInt
  exact Int.bmod_eq_of_le (by omega) (by omega)

/-- The cast never makes a size larger. -/
theorem castInt_natCast_le (n : ℕ) : castInt n ≤ n := by
  unfold castInt
  rw [Int.bmod_def]
  split <;> omega

/-- The cast changes a size exactly when it does not fit an `int`. -/
theorem castInt_natCast_eq_iff (n : ℕ) : castInt n = n ↔ n < 2^31 := by
  unfold castInt
  rw [Int.bmod_def]
  split <;> omega

end SignalRoute
