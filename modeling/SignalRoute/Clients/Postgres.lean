import SignalRoute.Types

/-!
# The PostgreSQL client (in-memory build)

The parts of `src/common/clients/postgres_client.cpp` that the processor and the geofence engine
use. Inserting trip points skips those whose device and sequence number are already there, as
`ON CONFLICT DO NOTHING` does.
-/

namespace SignalRoute

/-- `PostgresClient`. -/
structure PostgresClient where
  trip_points : List LocationEvent := []
  trip_point_keys : Finset (String × ℕ) := ∅
  geofence_events : List GeofenceEventRecord := []
  active_fences : List GeofenceRule := []

namespace PostgresClient

/-- The key of a trip point. -/
def trip_point_key (event : LocationEvent) : String × ℕ := (event.device_id, event.seq)

/-- `batch_insert_trip_points`. -/
def batch_insert_trip_points (pg : PostgresClient) (events : List LocationEvent) :
    PostgresClient :=
  events.foldl (fun pg event =>
    if trip_point_key event ∈ pg.trip_point_keys then pg
    else { pg with
      trip_points := pg.trip_points ++ [event]
      trip_point_keys := insert (trip_point_key event) pg.trip_point_keys }) pg

/-- `insert_geofence_event`. -/
def insert_geofence_event (pg : PostgresClient) (event : GeofenceEventRecord) : PostgresClient :=
  { pg with geofence_events := pg.geofence_events ++ [event] }

/-- `load_active_fences`. -/
def load_active_fences (pg : PostgresClient) : List GeofenceRule :=
  pg.active_fences.filter fun fence => fence.active

/-- `set_active_fences`. -/
def set_active_fences (pg : PostgresClient) (fences : List GeofenceRule) : PostgresClient :=
  { pg with active_fences := fences }

/-- An insertion keeps what is stored. -/
theorem mem_batch_insert_of_mem {pg : PostgresClient} {e : LocationEvent} (h : e ∈ pg.trip_points)
    (events : List LocationEvent) : e ∈ (pg.batch_insert_trip_points events).trip_points := by
  unfold batch_insert_trip_points
  induction events generalizing pg with
  | nil => exact h
  | cons event events ih =>
    rw [List.foldl_cons]
    apply ih
    split
    · exact h
    · exact List.mem_append_left _ h

/-- It adds to it at its end. -/
theorem prefix_batch_insert {pg : PostgresClient} (events : List LocationEvent) :
    pg.trip_points <+: (pg.batch_insert_trip_points events).trip_points := by
  unfold batch_insert_trip_points
  induction events generalizing pg with
  | nil => exact List.prefix_rfl
  | cons event events ih =>
    rw [List.foldl_cons]
    refine List.IsPrefix.trans ?_ ih
    split
    · exact List.prefix_rfl
    · exact List.prefix_append _ _

/-- An insertion stores only what it is given. -/
theorem mem_or_mem_of_mem_batch_insert {pg : PostgresClient} {e : LocationEvent}
    {events : List LocationEvent} (h : e ∈ (pg.batch_insert_trip_points events).trip_points) :
    e ∈ pg.trip_points ∨ e ∈ events := by
  unfold batch_insert_trip_points at h
  induction events generalizing pg with
  | nil => exact .inl h
  | cons event events ih =>
    rw [List.foldl_cons] at h
    rcases ih h with hold | hnew
    · split at hold
      · exact .inl hold
      · refine (List.mem_append.mp hold).imp id fun he => ?_
        rw [List.mem_singleton.mp he]
        exact List.mem_cons_self
    · exact .inr (List.mem_cons_of_mem _ hnew)

/-- An event whose key is new is stored. -/
theorem mem_batch_insert_singleton {pg : PostgresClient} {e : LocationEvent}
    (h : trip_point_key e ∉ pg.trip_point_keys) :
    e ∈ (pg.batch_insert_trip_points [e]).trip_points := by
  unfold batch_insert_trip_points
  rw [List.foldl_cons, List.foldl_nil, if_neg h]
  exact List.mem_append_right _ (List.mem_singleton.mpr rfl)

/-- The keys after inserting one event. -/
theorem mem_keys_batch_insert_singleton {pg : PostgresClient} {e : LocationEvent}
    {key : String × ℕ} :
    key ∈ (pg.batch_insert_trip_points [e]).trip_point_keys ↔
      key = trip_point_key e ∨ key ∈ pg.trip_point_keys := by
  unfold batch_insert_trip_points
  rw [List.foldl_cons, List.foldl_nil]
  split
  · exact ⟨.inr, fun h => h.elim (fun h => h ▸ ‹_›) id⟩
  · exact Finset.mem_insert

/-- Events whose keys are new and distinct are all stored, in order. -/
theorem batch_insert_of_fresh {pg : PostgresClient} {events : List LocationEvent}
    (hnodup : (events.map trip_point_key).Nodup)
    (hnew : ∀ e ∈ events, trip_point_key e ∉ pg.trip_point_keys) :
    (pg.batch_insert_trip_points events).trip_points = pg.trip_points ++ events := by
  induction events generalizing pg with
  | nil => exact (List.append_nil _).symm
  | cons event events ih =>
    rw [List.map_cons, List.nodup_cons] at hnodup
    have hsplit : pg.batch_insert_trip_points (event :: events) =
        (pg.batch_insert_trip_points [event]).batch_insert_trip_points events := rfl
    have hfirst : (pg.batch_insert_trip_points [event]).trip_points = pg.trip_points ++ [event] := by
      unfold batch_insert_trip_points
      rw [List.foldl_cons, List.foldl_nil, if_neg (hnew event List.mem_cons_self)]
    rw [hsplit, ih hnodup.2, hfirst, List.append_assoc]
    · rfl
    · intro e he hkey
      rcases mem_keys_batch_insert_singleton.mp hkey with heq | hold
      · exact hnodup.1 (heq ▸ List.mem_map_of_mem he)
      · exact hnew e (List.mem_cons_of_mem _ he) hold

end PostgresClient

end SignalRoute
