import SignalRoute.Clients.Redis
import SignalRoute.Spatial.H3Index

/-!
# The state writer

`src/processor/state_writer.cpp` and `sequence_guard.cpp`. A write reads the previous state, encodes
the position and makes one compare-and-set; that is its only effect on the store, so it is modelled
as one step. `Written` are the stores that writes from the empty one can reach, and
`Written.stored` says what every device state in them looks like.
-/

namespace SignalRoute

open Numeric (Double)

/-- `StateWriteOutcome`. -/
structure StateWriteOutcome where
  accepted : Bool := false
  state : DeviceState
  previous_h3_cell : ℤ := 0
  deriving DecidableEq

namespace SequenceGuard

/-- `should_accept`. -/
def should_accept (redis : RedisClient) (device_id : String) (seq : ℕ) : Bool :=
  match redis.get_device_state device_id with
  | none => true
  | some state => state.seq < seq

/-- `current_seq`. -/
def current_seq (redis : RedisClient) (device_id : String) : ℕ :=
  match redis.get_device_state device_id with
  | none => 0
  | some state => state.seq

end SequenceGuard

namespace StateWriter

/-- The device state that an event in cell `h3_cell` writes, with the system clock at `now_ms`. -/
def state_of (event : LocationEvent) (h3_cell now_ms : ℤ) : DeviceState where
  device_id := event.device_id
  lat := event.lat
  lon := event.lon
  altitude_m := event.altitude_m
  accuracy_m := event.accuracy_m
  speed_ms := event.speed_ms
  heading_deg := event.heading_deg
  h3_cell := h3_cell
  seq := event.seq
  updated_at := if event.server_recv_ms = 0 then now_ms else event.server_recv_ms

/-- `write_with_result`, with the system clock at `now_ms`. -/
def write_with_result (h3 : H3Index) (event : LocationEvent) (now_ms : ℤ) (redis : RedisClient) :
    Except Exception StateWriteOutcome × RedisClient :=
  let previous := redis.get_device_state event.device_id
  match h3.lat_lng_to_cell event.lat event.lon with
  | .error e => (.error e, redis)
  | .ok h3_cell =>
    let state := state_of event h3_cell now_ms
    let (accepted, redis) := redis.update_device_state_cas event.device_id state
    (.ok ⟨accepted, state, (previous.map DeviceState.h3_cell).getD 0⟩, redis)

/-- `write`. -/
def write (h3 : H3Index) (event : LocationEvent) (now_ms : ℤ) (redis : RedisClient) :
    Except Exception Bool × RedisClient :=
  let (outcome, redis) := write_with_result h3 event now_ms redis
  (outcome.map StateWriteOutcome.accepted, redis)

variable {h3 : H3Index} {event : LocationEvent} {now_ms : ℤ} {redis : RedisClient}

/-- A write with valid coordinates is one compare-and-set. -/
theorem write_with_result_valid (h3 : H3Index) (event : LocationEvent) (now_ms : ℤ)
    (redis : RedisClient) (hv : valid_lat_lon event.lat event.lon = true) :
    ∃ h3_cell, h3.lat_lng_to_cell event.lat event.lon = .ok h3_cell ∧
      write_with_result h3 event now_ms redis =
        let cas := redis.update_device_state_cas event.device_id (state_of event h3_cell now_ms)
        (.ok ⟨cas.1, state_of event h3_cell now_ms,
          ((redis.get_device_state event.device_id).map DeviceState.h3_cell).getD 0⟩, cas.2) := by
  have hcell := h3.lat_lng_to_cell_ok_iff.mpr ⟨hv, rfl⟩
  refine ⟨_, hcell, ?_⟩
  unfold write_with_result
  rw [hcell]

/-- A write with invalid coordinates throws before it changes anything. -/
theorem write_with_result_invalid (hv : valid_lat_lon event.lat event.lon = false) :
    write_with_result h3 event now_ms redis =
      (.error (.std "coordinate out of range"), redis) := by
  unfold write_with_result
  rw [h3.lat_lng_to_cell_of_invalid hv]

end StateWriter

/-- The stores that writes of events with valid coordinates reach from the empty store. -/
inductive Written (h3 : H3Index) : RedisClient → Prop
  | empty : Written h3 {}
  | write {redis : RedisClient} (event : LocationEvent) (now_ms : ℤ) :
      Written h3 redis → valid_lat_lon event.lat event.lon = true →
      Written h3 (StateWriter.write h3 event now_ms redis).2

namespace Written

variable {h3 : H3Index} {redis : RedisClient}

/-- The index of a written store says where every device is. -/
theorem indexed (h : Written h3 redis) : redis.Indexed := by
  induction h with
  | empty => exact RedisClient.Indexed.empty
  | write event now_ms _ hv ih =>
    obtain ⟨cell, -, hw⟩ := StateWriter.write_with_result_valid h3 event now_ms _ hv
    unfold StateWriter.write
    rw [hw]
    exact ih.update_device_state_cas _ _

/-- Every state of a written store has valid coordinates, and the cell that they encode to. -/
theorem stored (h : Written h3 redis) {d : String} {st : DeviceState}
    (hst : redis.device_states.lookup d = some st) :
    h3.lat_lng_to_cell st.lat st.lon = .ok st.h3_cell := by
  induction h generalizing d st with
  | empty => cases hst
  | @write redis event now_ms _ hv ih =>
    obtain ⟨cell, hcell, hw⟩ := StateWriter.write_with_result_valid h3 event now_ms redis hv
    unfold StateWriter.write at hst
    rw [hw] at hst
    dsimp only at hst
    cases hacc : (redis.update_device_state_cas event.device_id
        (StateWriter.state_of event cell now_ms)).1 with
    | false =>
      rw [redis.update_device_state_cas_rejected hacc] at hst
      exact ih hst
    | true =>
      rw [redis.lookup_update_device_state_cas hacc] at hst
      split at hst
      · rw [← Option.some.inj hst]
        exact hcell
      · exact ih hst

end Written

end SignalRoute
