import SignalRoute.Processor.StateWriter

/-!
# The wiring of the location pipeline

The events of `src/common/events` that carry a device's new state from the processor to the geofence
engine, and the subscription of `src/common/composition/composition_root.cpp` that turns the one
into the other.
-/

namespace SignalRoute

open Numeric (Double)

namespace events

/-- `StateWriteSucceeded`. -/
structure StateWriteSucceeded where
  event : LocationEvent
  state : DeviceState
  previous_h3_cell : ℤ := 0

/-- `GeofenceEvaluationRequested`. -/
structure GeofenceEvaluationRequested where
  device_id : String
  old_h3_cell : ℤ := 0
  new_h3_cell : ℤ := 0
  lat : Double := 0
  lon : Double := 0
  timestamp_ms : ℤ := 0

end events

/-- What `CompositionRoot` publishes when a state write has succeeded. -/
def geofence_evaluation_requested (event : events.StateWriteSucceeded) :
    events.GeofenceEvaluationRequested where
  device_id := event.state.device_id
  old_h3_cell := event.previous_h3_cell
  new_h3_cell := event.state.h3_cell
  lat := event.state.lat
  lon := event.state.lon
  timestamp_ms := event.state.updated_at

/-- What `ProcessorEventHandlers` publishes for the outcome of a state write, when it is accepted. -/
def state_write_succeeded (event : LocationEvent) (outcome : StateWriteOutcome) :
    events.StateWriteSucceeded :=
  ⟨event, outcome.state, outcome.previous_h3_cell⟩

end SignalRoute
