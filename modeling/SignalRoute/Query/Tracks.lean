import SignalRoute.Processor.History
import SignalRoute.Query.Latest

/-!
# The tracks of devices

A trip request is answered from the trip points that a group of processors has flushed. Each point of an answer
is what some accepted event says, no two of them are of one sequence number, and an answer that is not cut only
grows (`accepted_is_trip`). A processor that stops in the middle takes its buffer with it; one whose run has
ended has put everything that it accepted into the answer or on the dead-letter topic.
-/

namespace SignalRoute

open Interaction
open PostgresClient (asked cut InOrder)

namespace QueryService

variable {service : QueryService} {request : TripQueryRequest}

/-- A running service answers from the points asked for, in their order. -/
theorem handle_trip_eq (hrunning : service.running = true) (hdevice : request.device_id ≠ "")
    (hlimit : 0 < request.limit) (hkeyed : service.pg.Keyed) :
    ∃ all, InOrder (asked {event | event ∈ service.pg.trip_points} request.device_id request.from_ts request.to_ts)
        all ∧
      (service.handle_trip request).events =
        TripHandler.downsample_by_interval (cut all request.limit) request.sample_interval_s := by
  obtain ⟨all, hall, heq⟩ := TripHandler.handle_eq request.device_id request.from_ts request.to_ts
    request.sample_interval_s request.limit hkeyed hlimit
  rw [if_neg hdevice] at heq
  exact ⟨all, hall, (handle_trip_events hrunning request hdevice hlimit).trans heq⟩

/-- Cutting adds nothing. -/
theorem cut_sublist (all : List LocationEvent) (limit : ℤ) : (cut all limit).Sublist all := by
  unfold cut
  split
  · exact List.take_sublist _ _
  · exact List.Sublist.refl _

/-- Nothing is left out where no sampling is asked for and the limit is not exceeded. -/
theorem handle_trip_whole (hrunning : service.running = true) (hdevice : request.device_id ≠ "")
    (hlimit : 0 < request.limit) (hkeyed : service.pg.Keyed) (hinterval : request.sample_interval_s ≤ 0)
    (hcount : (asked {event | event ∈ service.pg.trip_points} request.device_id request.from_ts
      request.to_ts).ncard ≤ request.limit) :
    InOrder (asked {event | event ∈ service.pg.trip_points} request.device_id request.from_ts request.to_ts)
      (service.handle_trip request).events := by
  obtain ⟨all, hall, heq⟩ := handle_trip_eq hrunning hdevice hlimit hkeyed
  rw [← hall.length_eq] at hcount
  have hcut : cut all request.limit = all := by
    rw [(PostgresClient.cut_eq_take_iff all hlimit).mpr (.inl hcount), List.take_of_length_le (by omega)]
  rw [heq, hcut]
  unfold TripHandler.downsample_by_interval
  rwa [if_pos (.inl hinterval)]

end QueryService

/-- What the gateways have accepted is what trips are made of. In every state that the group reaches, a point
of an answer is what an accepted event of the device tells, within the range, and the points ascend by time and
sequence number. Where no sampling is asked for and the limit is not exceeded, later answers have all of these
points; and if there is one event for each sequence number of a device, everything in the range that a processor
whose run has ended has accepted is in the answer or on the dead-letter topic. -/
theorem accepted_is_trip {κ ι π G : Type} [DecidableEq ι] [DecidableEq π] (deployment : Deployment κ ι π)
    (hjoined : deployment.Joined) (geofence : ι → G)
    (P : Pool ι (Atomic (GroupState ι π G)) (GroupState ι π G) Exception Bool)
    (hP : deployment.group.Reaches (ProcessorGroup.start geofence) P) (service : QueryService)
    (hrunning : service.running = true) (hpg : service.pg = P.state.pg) (request : TripQueryRequest)
    (hdevice : request.device_id ≠ "") (hlimit : 0 < request.limit) :
    (∀ point ∈ (service.handle_trip request).events,
      request.from_ts ≤ event_time_ms point ∧ event_time_ms point ≤ request.to_ts ∧
      ∃ event ∈ deployment.accepted, event.device_id = request.device_id ∧ ¬event.Unreadable ∧
        point = event.told) ∧
    (service.handle_trip request).events.Pairwise (fun a b =>
      event_time_ms a < event_time_ms b ∨ event_time_ms a = event_time_ms b ∧ a.seq < b.seq) ∧
    (request.sample_interval_s ≤ 0 →
      (∀ Q (later : QueryService), deployment.group.Reaches P Q → later.running = true → later.pg = Q.state.pg →
        (asked {event | event ∈ later.pg.trip_points} request.device_id request.from_ts
          request.to_ts).ncard ≤ request.limit →
        (service.handle_trip request).events.Sublist (later.handle_trip request).events) ∧
      ((asked {event | event ∈ service.pg.trip_points} request.device_id request.from_ts
          request.to_ts).ncard ≤ request.limit →
        (∀ a ∈ deployment.group.events, ∀ b ∈ deployment.group.events, a.device_id = b.device_id → a.seq = b.seq →
          a = b) →
        ∀ i, P.threads i = .pure true → ∀ x ∈ (P.state.worlds i).accepted, x.2.device_id = request.device_id →
          request.from_ts ≤ event_time_ms x.2 → event_time_ms x.2 ≤ request.to_ts →
          x.2 ∈ (service.handle_trip request).events ∨ dlq_message x.2 ∈ P.state.produced)) := by
  obtain ⟨⟨hhistoric, -, -⟩, hended⟩ := ProcessorGroup.reaches_historic hP .refl
  have hkeyed : service.pg.Keyed := hpg ▸ hhistoric.keyed
  obtain ⟨all, hall, heq⟩ := QueryService.handle_trip_eq hrunning hdevice hlimit hkeyed
  have hsub : (service.handle_trip request).events.Sublist all := by
    rw [heq]
    exact (TripHandler.downsample_sublist _).trans (QueryService.cut_sublist _ _)
  refine ⟨fun point hpoint => ?_, hall.ascending.sublist hsub, fun hinterval => ⟨?_, ?_⟩⟩
  · obtain ⟨hstored, hid, hfrom, hto⟩ := (hall.mem_iff point).mp (hsub.subset hpoint)
    rw [Set.mem_ofPred_eq, hpg] at hstored
    obtain ⟨event, hevent, hreadable, rfl⟩ := hjoined.of_mem_events (hhistoric.points point hstored)
    exact ⟨hfrom, hto, event, hevent, hid, hreadable, rfl⟩
  · intro Q later hQ hlater hpg' hcount
    obtain ⟨⟨hhistoric', hstart, -⟩, -⟩ := ProcessorGroup.reaches_historic hP hQ
    have hwhole := QueryService.handle_trip_whole hlater hdevice hlimit (hpg' ▸ hhistoric'.keyed) hinterval hcount
    refine hsub.trans (hwhole.sublist hall fun event hevent => ⟨?_, hevent.2⟩)
    have hstored := hevent.1
    rw [Set.mem_ofPred_eq, hpg] at hstored
    rw [Set.mem_ofPred_eq, hpg']
    exact hstart.subset hstored
  · intro hcount hdetermined i hi x hx hid hfrom hto
    obtain ⟨hevent, hkey | hletter⟩ := hended i hi x hx
    · obtain ⟨point, hpoint, hsame⟩ := (hhistoric.keyed.mem_keys_iff _).mp hkey
      have hpoint_eq : point = x.2 := hdetermined point (hhistoric.points point hpoint) x.2 hevent
        (congrArg Prod.fst hsame) (congrArg Prod.snd hsame)
      refine .inl (((QueryService.handle_trip_whole hrunning hdevice hlimit hkeyed hinterval hcount).mem_iff x.2).mpr
        ⟨?_, hid, hfrom, hto⟩)
      rw [Set.mem_ofPred_eq, hpg, ← hpoint_eq]
      exact hpoint
    · exact .inr hletter

/-- The one processor of the deployment, asked to stop once it has read its message. -/
def stopping_program : Prog (Atomic (GroupState Unit Unit Unit)) Exception Bool :=
  (ProcessingLoop.run { Environment.attentive (single_deployment.group.partitions ()) with
    should_stop := fun tick => 8 ≤ tick } ⟨.default, {}, none⟩ 10).hoist (single_deployment.group.on ())

/-- The group once its run has ended. -/
def stopped_pool : Pool Unit (Atomic (GroupState Unit Unit Unit)) (GroupState Unit Unit Unit) Exception Bool :=
  ((ProcessorGroup.start fun _ => ()).restart () stopping_program
    { worlds := Function.update (fun _ => World.fresh 0 0 ()) () (ProcessorGroup.starting 0 10 60 ()) }).run .atomic
      (List.replicate 20 ())

/-- No more points are asked for than there are. -/
theorem ncard_asked_le (pg : PostgresClient) (device_id : String) (from_ts to_ts : ℤ) :
    (asked {event | event ∈ pg.trip_points} device_id from_ts to_ts).ncard ≤ pg.trip_points.length := by
  classical
  calc (asked {event | event ∈ pg.trip_points} device_id from_ts to_ts).ncard
      ≤ (pg.trip_points.toFinset : Set LocationEvent).ncard :=
        Set.ncard_le_ncard (fun _ h => List.mem_toFinset.mpr h.1) (Finset.finite_toSet _)
    _ = pg.trip_points.toFinset.card := Set.ncard_coe_finset _
    _ ≤ pg.trip_points.length := List.toFinset_card_le _

/-- The event is a point of the trip. -/
theorem accepted_is_trip_single : ∃ point ∈ (QueryService.handle_trip { pg := stopped_pool.state.pg }
    { device_id := "d", to_ts := 3000, limit := 5 }).events, point.seq = 7 := by
  have hreaches : single_deployment.group.Reaches (ProcessorGroup.start fun _ => ()) stopped_pool :=
    .head (.restart ⟨_, ⟨.default, {}, none⟩, 10, 0, 10, 60, (), rfl, rfl, Nat.zero_le _, rfl, rfl⟩)
      (Pool.moves_run _ _ _)
  have hdetermined : ∀ a ∈ single_deployment.group.events, ∀ b ∈ single_deployment.group.events,
      a.device_id = b.device_id → a.seq = b.seq → a = b := by
    rintro a ⟨_, m, hm, ha⟩ b ⟨_, m', hm', hb⟩ - -
    rw [List.mem_singleton.mp hm] at ha
    rw [List.mem_singleton.mp hm'] at hb
    exact Except.ok.inj (ha.symm.trans hb)
  have hended : stopped_pool.returned () = some true := by decide +kernel
  have hcount : stopped_pool.state.pg.trip_points.length = 1 := by decide +kernel
  have hproduced : stopped_pool.state.produced = [] := by decide +kernel
  -- The processor has accepted the event as the payload has it.
  obtain ⟨x, hx, hid, htime, hseq⟩ : ∃ x ∈ (stopped_pool.state.worlds ()).accepted, x.2.device_id = "d" ∧
      event_time_ms x.2 = 1000 ∧ x.2.seq = 7 :=
    ⟨(0, { device_id := "d", seq := 7, timestamp_ms := 1000, server_recv_ms := 1000 }), by decide +kernel, rfl,
      by decide, rfl⟩
  have hpoint := ((accepted_is_trip single_deployment single_joined (fun _ => ()) stopped_pool hreaches
    { pg := stopped_pool.state.pg } rfl rfl { device_id := "d", to_ts := 3000, limit := 5 } (by decide)
    (by decide)).2.2 le_rfl).2 (by
      have := ncard_asked_le stopped_pool.state.pg "d" 0 3000
      rw [hcount] at this
      dsimp only
      omega) hdetermined () (Pool.returned_eq_some.mp hended) x hx hid (by rw [htime]; decide) (by rw [htime]; decide)
  rw [hproduced] at hpoint
  exact ⟨x.2, hpoint.resolve_right List.not_mem_nil, hseq⟩

end SignalRoute
