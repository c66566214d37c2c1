import SignalRoute.Clients.FenceKeys
import SignalRoute.Geofence.Evaluator

/-!
# Dwelling devices in the Redis build

The dwell checker over the fence states of `Clients/FenceKeys.lean`. It works through the listing of the
states inside, so it emits the dwell of a device exactly where that listing has the record that was last
set: under its own ids, not left out, and not twice (`fence_keys_iff`).
-/

namespace SignalRoute

open Interaction (Prog Handler)

/-- The stores of the geofence engine in the Redis build. -/
structure RedisGeofenceStore where
  server : RedisServer := {}
  pg : PostgresClient := {}
  produced : List ProducedMessage := []

namespace RedisGeofenceStore

/-- The stores perform a call, where a scan of the server gets these replies. Reading a hash that the
client has not written could throw, which the calls of the engine do not say. -/
def perform (config : RedisConfig) (replies : RedisServer → List (List String)) {β : Type} :
    FenceCall β → RedisGeofenceStore → β × RedisGeofenceStore
  | .list_fence_states state, store =>
    let (records, server) := (RedisProgram.list_fence_states config (replies store.server) state).ends
      RedisServer.handler store.server
    (records.toOption.getD [], { store with server })
  | .get_fence_state device_id fence_id, store =>
    let (record, server) := (RedisProgram.get_fence_state_record config device_id fence_id).ends
      RedisServer.handler store.server
    (record.toOption.join.map FenceStateRecord.state, { store with server })
  | .set_fence_state device_id fence_id state timestamp_ms, store =>
    let (_, server) := (RedisProgram.set_fence_state config device_id fence_id state timestamp_ms).ends
      RedisServer.handler store.server
    ((), { store with server })
  | .insert_geofence_event event, store =>
    (.ok (), { store with pg := store.pg.insert_geofence_event event })
  | .produce topic key payload, store =>
    let (result, produced) := SignalRoute.produce topic key payload store.produced
    (result, { store with produced })

/-- The stores as the handler of the calls. -/
def handler (config : RedisConfig) (replies : RedisServer → List (List String)) :
    Handler FenceCall RedisGeofenceStore :=
  ⟨perform config replies⟩

section Dwells

variable {config : RedisConfig} {replies : RedisServer → List (List String)} {event_topic : String}

/-- The events that are emitted for listed states: a dwell for each that is due. -/
def dwells (registry : FenceRegistry) (geofence : GeofenceConfig) (now_ms : ℤ)
    (states : List FenceStateRecord) : List GeofenceEventRecord :=
  states.filterMap fun state => (DwellChecker.due registry geofence now_ms state).map fun fence =>
    DwellChecker.make_dwell_record state fence now_ms

/-- A state that is checked emits its dwell, if it is due. -/
theorem ends_check_state (ht : event_topic ≠ "") (registry : FenceRegistry) (geofence : GeofenceConfig)
    (now_ms transitioned : ℤ) (state : FenceStateRecord) (store : RedisGeofenceStore) :
    ∃ transitioned' store', (DwellChecker.check_state registry geofence event_topic now_ms transitioned
        state).ends (handler config replies) store = (.ok transitioned', store') ∧
      store'.pg.geofence_events = store.pg.geofence_events ++ dwells registry geofence now_ms [state] := by
  unfold DwellChecker.check_state dwells
  cases hdue : DwellChecker.due registry geofence now_ms state with
  | none => exact ⟨transitioned, store, rfl, by simp [hdue]⟩
  | some fence =>
    have hproduce : ∀ key payload produced, SignalRoute.produce event_topic key payload produced =
        (.ok (), produced ++ [⟨event_topic, key, payload⟩]) := fun _ _ _ => if_neg ht
    let record := DwellChecker.make_dwell_record state fence now_ms
    refine ⟨transitioned + 1, { store with
      server := ((RedisProgram.set_fence_state config state.device_id state.fence_id .DWELL now_ms).ends
        RedisServer.handler store.server).2
      pg := store.pg.insert_geofence_event record
      produced := store.produced ++ [⟨event_topic, record.device_id, encode_geofence_event_payload record⟩] },
        ?_, by simp [hdue, PostgresClient.insert_geofence_event, record]⟩
    unfold publish_event
    simp only [Prog.bind_eq, Prog.bind_assoc, Prog.ends_bind_perform, handler, perform, Prog.ofExcept,
      Prog.pure_bind, hproduce]
    rfl

/-- A scan for dwelling devices emits the dwells of the states that are listed inside. -/
theorem ends_check_once (ht : event_topic ≠ "") (registry : FenceRegistry) (geofence : GeofenceConfig)
    (now_ms : ℤ) (store : RedisGeofenceStore) {records : List FenceStateRecord}
    (hlist : (RedisProgram.list_fence_states config (replies store.server) .INSIDE).ends RedisServer.handler
      store.server = (.ok records, store.server)) :
    ∃ transitioned store', (DwellChecker.check_once registry geofence event_topic now_ms).ends
        (handler config replies) store = (.ok transitioned, store') ∧
      store'.pg.geofence_events = store.pg.geofence_events ++ dwells registry geofence now_ms records := by
  have hfold : ∀ states transitioned (s : RedisGeofenceStore), ∃ transitioned' s',
      (Prog.foldEach states transitioned (DwellChecker.check_state registry geofence event_topic now_ms)).ends
        (handler config replies) s = (.ok transitioned', s') ∧
      s'.pg.geofence_events = s.pg.geofence_events ++ dwells registry geofence now_ms states := by
    intro states
    induction states with
    | nil => exact fun transitioned s => ⟨transitioned, s, rfl, (List.append_nil _).symm⟩
    | cons state states ih =>
      intro transitioned s
      obtain ⟨t₁, s₁, hstate, hevents⟩ := ends_check_state ht registry geofence now_ms transitioned state s
      obtain ⟨t', s', hrest, hevents'⟩ := ih t₁ s₁
      refine ⟨t', s', ?_, ?_⟩
      · rw [Prog.foldEach, Prog.ends_bind_ok hstate, hrest]
      · rw [hevents', hevents, List.append_assoc]
        unfold dwells
        rw [← List.filterMap_append, List.singleton_append]
  have hlisted : (handler config replies).run (.list_fence_states .INSIDE) store = (records, store) := by
    unfold handler perform
    dsimp only
    rw [hlist]
    rfl
  unfold DwellChecker.check_once
  rw [Prog.bind_eq, Prog.ends_bind_perform, hlisted]
  exact hfold records 0 store

end Dwells

/-- A scan for dwelling devices, after some calls, emits one dwell for each pair that was last set inside and is
due, under its own ids. -/
def DwellsExactly (config : RedisConfig) (replies : RedisServer → List (List String)) (server : RedisServer)
    (calls : List FenceStateCall) : Prop :=
  ∀ registry geofence event_topic now_ms (pg : PostgresClient) (produced : List ProducedMessage),
    event_topic ≠ "" → ∃ transitioned store',
      (DwellChecker.check_once registry geofence event_topic now_ms).ends (handler config replies)
        ⟨server, pg, produced⟩ = (.ok transitioned, store') ∧
      ∃ dwelling : List (FenceStateRecord × GeofenceRule), dwelling.Nodup ∧
        (∀ record fence, (record, fence) ∈ dwelling ↔ (∃ pair, last_record calls pair = some record) ∧
          record.state = .INSIDE ∧ DwellChecker.due registry geofence now_ms record = some fence) ∧
        store'.pg.geofence_events = pg.geofence_events ++
          dwelling.map fun dwell => DwellChecker.make_dwell_record dwell.1 dwell.2 now_ms

/-- It does if the listing is exact. -/
theorem dwellsExactly_of_listsExactly {config : RedisConfig} {replies : RedisServer → List (List String)}
    {server : RedisServer} {calls : List FenceStateCall}
    (h : RedisServer.ListsExactly config (replies server) server calls) :
    DwellsExactly config replies server calls := by
  intro registry geofence event_topic now_ms pg produced ht
  obtain ⟨records, hlist, hnodup, hmem⟩ := h .INSIDE
  obtain ⟨transitioned, store', hends, hevents⟩ := ends_check_once ht registry geofence now_ms
    ⟨server, pg, produced⟩ hlist
  let dwell : FenceStateRecord → Option (FenceStateRecord × GeofenceRule) := fun record =>
    (DwellChecker.due registry geofence now_ms record).map fun fence => (record, fence)
  have hdwell : ∀ record pair, dwell record = some pair → record = pair.1 := by
    intro record pair hpair
    obtain ⟨fence, -, rfl⟩ := Option.map_eq_some_iff.mp hpair
    rfl
  refine ⟨transitioned, store', hends, records.filterMap dwell, ?_, fun record fence => ?_, ?_⟩
  · refine hnodup.filterMap fun record record' pair hpair hpair' => ?_
    rw [hdwell record pair hpair, hdwell record' pair hpair']
  · rw [List.mem_filterMap]
    constructor
    · rintro ⟨record', hin, hpair⟩
      obtain rfl := hdwell record' _ hpair
      obtain ⟨fence', hdue, heq⟩ := Option.map_eq_some_iff.mp hpair
      obtain ⟨hstate, hlast⟩ := (hmem record').mp hin
      exact ⟨hlast, hstate, hdue.trans (congrArg some (Prod.mk.inj heq).2)⟩
    · rintro ⟨hlast, hstate, hdue⟩
      exact ⟨record, (hmem record).mpr ⟨hstate, hlast⟩, Option.map_eq_some_iff.mpr ⟨fence, hdue, rfl⟩⟩
  · rw [hevents, List.map_filterMap]
    unfold dwells dwell
    simp only [Option.map_map]
    rfl

end RedisGeofenceStore

open RedisServer (ListsExactly Separable NamedOnce)
open RedisGeofenceStore (DwellsExactly)

/-- After a run of calls from a server, every listing for the replies is exact, and so is every scan for dwelling
devices. -/
def FenceStatesExact (config : RedisConfig) (replies : List (List String)) (start : RedisServer)
    (calls : List FenceStateCall) : Prop :=
  ∃ server, (RedisProgram.set_fence_states config calls).ends RedisServer.handler start = (.ok (), server) ∧
    ListsExactly config replies server calls ∧ DwellsExactly config (fun _ => replies) server calls

/-- A pair comes back from its key exactly if its device id has no separator, and what is listed and
emitted after a run of calls is exact exactly if no device id of the run has one, the server takes every
key of the run for a match of the scan pattern, and its replies name none twice. -/
theorem fence_keys_iff (glob : String → String → Bool) (config : RedisConfig) (start : RedisServer)
    (calls : List FenceStateCall) (replies : List (List String)) (hfree : start.FreeOfFences config)
    (hnamed : ∀ call ∈ calls, call.Named) (hrange : ∀ call ∈ calls, call.InRange)
    (hscans : ((RedisProgram.set_fence_states config calls).ends RedisServer.handler start).2.Scans glob
      (fence_scan_pattern config) replies) :
    (∀ d f, parse_fence_ids config (fence_redis_key config d f) = (d, f) ↔ ':' ∉ d.toList) ∧
      (FenceStatesExact config replies start calls ↔
        Separable glob config calls ∧ NamedOnce config replies calls) := by
  refine ⟨parse_fence_ids_fence_redis_key_iff config, ?_⟩
  obtain ⟨server, hrun, hholds⟩ := hfree.holds.set_fence_states (by simp) hrange
  rw [List.nil_append] at hholds
  rw [hrun] at hscans
  constructor
  · rintro ⟨server', hrun', hlists, -⟩
    rw [hrun] at hrun'
    cases hrun'
    exact hholds.separable hrange hscans hlists
  · rintro ⟨hseparable, honce⟩
    have hlists := hholds.listsExactly hrange hnamed hseparable hscans honce
    exact ⟨server, hrun, hlists, RedisGeofenceStore.dwellsExactly_of_listsExactly hlists⟩

/-- The matching of patterns without special characters but for a star at the end. -/
def starGlob (pattern key : String) : Bool := pattern.toList.dropLast.isPrefixOf key.toList

/-- A device that enters a fence. -/
def enters (device_id : String) : FenceStateCall where
  device_id
  fence_id := "f"
  state := .INSIDE
  timestamp_ms := 1000

/-- Under the default prefix, a device without a separator in its id is listed and found dwelling. -/
theorem fence_keys_iff_plain : parse_fence_ids {} (fence_redis_key {} "d" "f") = ("d", "f") ∧
    FenceStatesExact {} [[fence_redis_key {} "d" "f"]] {} [enters "d"] := by
  have hfree : RedisServer.FreeOfFences {} {} := fun key hkey => absurd hkey (Finset.notMem_empty key)
  have hkeys : ((RedisProgram.set_fence_states {} [enters "d"]).ends RedisServer.handler {}).2.keys =
      {fence_redis_key {} "d" "f"} := by decide +kernel
  have hscans : ((RedisProgram.set_fence_states {} [enters "d"]).ends RedisServer.handler {}).2.Scans starGlob
      (fence_scan_pattern {}) [[fence_redis_key {} "d" "f"]] := by
    intro key
    rw [hkeys, Finset.mem_singleton]
    refine List.mem_singleton.trans (iff_self_and.mpr ?_)
    rintro rfl
    decide +kernel
  obtain ⟨hparse, hexact⟩ := fence_keys_iff starGlob {} {} [enters "d"] [[fence_redis_key {} "d" "f"]] hfree
    (by simp [FenceStateCall.Named, enters]) (by simp [FenceStateCall.InRange, enters]) hscans
  refine ⟨(hparse "d" "f").mpr (by decide), hexact.mpr ⟨fun call hcall => ?_, fun call hcall => ?_⟩⟩
  · obtain rfl := List.mem_singleton.mp hcall
    exact ⟨by decide, by decide +kernel⟩
  · obtain rfl := List.mem_singleton.mp hcall
    decide +kernel

/-- A device whose id is a hardware address is listed as another device in another fence. -/
theorem hardware_address_misattributed :
    parse_fence_ids {} (fence_redis_key {} "aa:bb" "f") = ("aa", "bb:f") ∧
      ((RedisProgram.list_fence_states {} [[fence_redis_key {} "aa:bb" "f"]] .INSIDE).ends RedisServer.handler
        ((RedisProgram.set_fence_states {} [enters "aa:bb"]).ends RedisServer.handler {}).2).1.toOption =
      some [{ device_id := "aa", fence_id := "bb:f", state := .INSIDE, entered_at_ms := 1000,
              updated_at_ms := 1000 }] := by
  refine ⟨by decide +kernel, ?_⟩
  decide +kernel

end SignalRoute
