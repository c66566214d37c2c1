import SignalRoute.Query.Latest

/-!
# The devices around a point

A nearby request is answered from the cell index and the device states that a group of processors writes,
while it writes them. Every device of an answer is where an accepted event has put it, and where the group has
committed everything no device is passed over that the disk of the request covers (`accepted_is_nearby`): it is
in the answer, or the limit leaves it out for nearer ones.
-/

namespace SignalRoute

open Interaction
open Store (HashOrder)
open NearbyHandler (Request nearer sort effective_limit distance)
open QueryService (foundFor)

variable {D : Type} [LinearOrder D] (haversine : ℚ → ℚ → ℚ → ℚ → D) (metres : ℚ → D)

/-- A device state is one that a request with a disk of radius `k` asks for: within the radius, seen recently
enough as a difference of 64 bits tells, and covered by the disk. -/
def NearbyDevicesRequest.Wants (h3 : H3Index) (cfg : SpatialConfig) (now_ms : ℤ) (request : NearbyDevicesRequest)
    (k : ℤ) (state : DeviceState) : Prop :=
  distance haversine request.lat request.lon state ≤ metres (request.radius_m.min cfg.nearby_max_radius_m).toRat ∧
  NearbyHandler.fresh now_ms request.last_seen_s state = true ∧
  NearbyHandler.Covered h3 k request.lat request.lon state

namespace QueryService

variable {haversine metres} {service : QueryService} {order : HashOrder} {now_ms : ℤ}
  {request : NearbyDevicesRequest} {k : ℤ} {state : DeviceState} {dist : D}

/-- A service finds what is stored and wanted. -/
theorem mem_foundFor (hredis : Written service.h3 service.redis)
    (hreq : Request service.h3 service.spatial request.lat request.lon request.radius_m request.last_seen_s k) :
    (state, dist) ∈ foundFor haversine metres order now_ms service request k ↔
      (∃ id, service.redis.get_device_state id = some state) ∧
        request.Wants haversine metres service.h3 service.spatial now_ms k state ∧
        dist = distance haversine request.lat request.lon state := by
  unfold foundFor NearbyDevicesRequest.Wants
  rw [NearbyHandler.mem_found hreq hredis]
  constructor
  · rintro ⟨⟨⟨hstored, hdist⟩, hcov, hfresh⟩, heq⟩
    exact ⟨hstored, ⟨hdist, hfresh, hcov⟩, heq⟩
  · rintro ⟨hstored, ⟨hdist, hfresh, hcov⟩, heq⟩
    exact ⟨⟨⟨hstored, hdist⟩, hcov, hfresh⟩, heq⟩

/-- A device that is found is answered, or the answer is full of devices that are no farther. -/
theorem answered_or_full (hredis : Written service.h3 service.redis)
    (hmem : (state, dist) ∈ foundFor haversine metres order now_ms service request k) :
    (state, dist) ∈ (sort (foundFor haversine metres order now_ms service request k)).take
        (effective_limit service.spatial request.limit).toNat ∨
      (((sort (foundFor haversine metres order now_ms service request k)).take
          (effective_limit service.spatial request.limit).toNat).length : ℤ) =
          effective_limit service.spatial request.limit ∧
        ∀ other ∈ (sort (foundFor haversine metres order now_ms service request k)).take
          (effective_limit service.spatial request.limit).toNat, nearer other (state, dist) = true := by
  have hpos : 0 < effective_limit service.spatial request.limit := NearbyHandler.effective_limit_pos
  refine or_iff_not_imp_left.mpr fun hmissing => ?_
  obtain ⟨hlen, hnearer⟩ := Store.full_of_notMem_take
    (NearbyHandler.pairwise_sort (NearbyHandler.found_pairwise hredis)) (List.mem_mergeSort.mpr hmem) hmissing
  exact ⟨(congrArg Nat.cast hlen).trans (Int.toNat_of_nonneg hpos.le), hnearer⟩

end QueryService

/-- What the gateways have accepted is what is found around a point. In every state that the group reaches, a
device of an answer is at its distance from the point, within what was asked for, and is what an accepted event
of it tells. Where the group has committed all messages, every device of an accepted event that is readable has
a newest one, and if what that tells is within what was asked for, the device is answered or the answer is full
of devices that come before it. -/
theorem accepted_is_nearby {κ ι π G : Type} [DecidableEq ι] [DecidableEq π] (deployment : Deployment κ ι π)
    (hjoined : deployment.Joined) (geofence : ι → G)
    (P : Pool ι (Atomic (GroupState ι π G)) (GroupState ι π G) Exception Bool)
    (hP : deployment.group.Reaches (ProcessorGroup.start geofence) P) (service : QueryService)
    (hrunning : service.running = true) (hredis : service.redis = P.state.redis)
    (hh3 : service.h3 = deployment.group.h3) (hcount : service.redis.device_states.keys.length < 2^31)
    (order : HashOrder) (now_ms : ℤ) (request : NearbyDevicesRequest) (k : ℤ)
    (hreq : Request service.h3 service.spatial request.lat request.lon request.radius_m request.last_seen_s k) :
    ∃ response, service.handle_nearby haversine metres order now_ms request = .ok response ∧ response.ok = true ∧
      (∀ device ∈ response.result.devices,
        device.2 = distance haversine request.lat request.lon device.1 ∧
        request.Wants haversine metres service.h3 service.spatial now_ms k device.1 ∧
        ∃ event ∈ deployment.accepted, event.device_id = device.1.device_id ∧ ¬event.Unreadable ∧
          device.1 = settled_state service.h3 event.told) ∧
      ((∀ j, (deployment.group.partitions j).length ≤ P.state.committed j) →
        ∀ event ∈ deployment.accepted, ¬event.Unreadable →
          ∃ newest ∈ deployment.accepted, newest.device_id = event.device_id ∧ ¬newest.Unreadable ∧
            (∀ other ∈ deployment.accepted, other.device_id = event.device_id → ¬other.Unreadable →
              other.seq ≤ newest.seq) ∧
            ∀ state, state = settled_state service.h3 newest.told →
              request.Wants haversine metres service.h3 service.spatial now_ms k state →
                (state, distance haversine request.lat request.lon state) ∈ response.result.devices ∨
                response.result.devices.length = effective_limit service.spatial request.limit ∧
                  ∀ other ∈ response.result.devices,
                    nearer other (state, distance haversine request.lat request.lon state) = true) := by
  obtain ⟨hsound, -⟩ := ProcessorGroup.reaches_sound hjoined.stamped hP .refl
  have hwritten : Written service.h3 service.redis := by
    rw [hh3, hredis]
    exact hsound.written
  obtain ⟨total, heq⟩ := QueryService.handle_nearby_eq haversine metres order now_ms hrunning hwritten hcount hreq
  refine ⟨_, heq, rfl, fun device hdevice => ?_, fun hall event hevent hreadable => ?_⟩
  · obtain ⟨⟨id, hid⟩, hwants, hdist⟩ := (QueryService.mem_foundFor hwritten hreq).mp
      (List.mem_mergeSort.mp (List.mem_of_mem_take hdevice))
    rw [hredis] at hid
    obtain ⟨event, hevent, hsame, hreadable, hstate⟩ := hjoined.of_stored hsound hid
    have hdevice_id : device.1.device_id = id := hsound.written.indexed.device_id_eq id device.1 hid
    exact ⟨hdist, hwants, event, hevent, hsame.trans hdevice_id.symm, hreadable, hh3 ▸ hstate⟩
  · obtain ⟨newest, hnewest, hsame, hreadable', hlatest, hstored⟩ := hjoined.newest hsound hall hevent hreadable
    rw [← hh3, ← hredis] at hstored
    refine ⟨newest, hnewest, hsame, hreadable', hlatest, fun state hstate hwants => ?_⟩
    exact QueryService.answered_or_full hwritten
      ((QueryService.mem_foundFor hwritten hreq).mpr ⟨⟨_, hstate ▸ hstored⟩, hwants, rfl⟩)

/-- A kilometre around the origin takes one ring, as it does elsewhere. -/
theorem origin_request : Request H3Index.default .default (.finite 0) (.finite 0) (.finite 1000) 0 1 :=
  { NearbyHandler.seam_request with position := by decide +kernel }

/-- For the one event, from there. -/
theorem accepted_is_nearby_single : ∃ response,
    single_service.handle_nearby (fun a b c d => |a - c| + |b - d|) id .insertion 2
      { lat := .finite 0, lon := .finite 0, radius_m := .finite 1000 } = .ok response ∧ response.ok = true ∧
    ∃ newest ∈ single_deployment.accepted, newest.device_id = "d" ∧ 7 ≤ newest.seq := by
  obtain ⟨response, heq, hok, -, hall⟩ := accepted_is_nearby (fun a b c d => |a - c| + |b - d|) id single_deployment
    single_joined (fun _ => ()) single_pool single_reaches single_service rfl rfl rfl (by decide +kernel) .insertion 2
    { lat := .finite 0, lon := .finite 0, radius_m := .finite 1000 } 1 origin_request
  obtain ⟨newest, hnewest, hid, -, hlatest, -⟩ := hall (by decide +kernel) single_event single_accepts single_readable
  exact ⟨response, heq, hok, newest, hnewest, hid, hlatest single_event single_accepts rfl single_readable⟩

end SignalRoute
