import SignalRoute.Gateway.Accepted
import SignalRoute.Processor.Group
import SignalRoute.Query.Service

/-!
# From the gateways to the query service

Any number of gateways produce to the ingest topic, a group of processors consumes it, and a query service
reads the store that the group writes. What has been accepted is what is answered (`accepted_is_latest`):
an answer about a device is always of an event that some gateway has reported as published, and where the
group has committed everything it is of the newest of them: what is answered is the state of what the payload
of the event tells (`LocationEvent.told`), with the exact times and sequence number and the position as it is
read of six digits. An event whose payload is not readable is passed over.
-/

namespace SignalRoute

open Interaction

/-- Gateways, with the calls that each of them gets, and the processors that consume their topic. -/
structure Deployment (κ ι π : Type) where
  env : κ → GatewayEnvironment
  config : κ → GatewayServiceConfig
  calls : κ → List GatewayService.Call
  group : ProcessorGroup ι π

namespace Deployment

variable {κ ι π : Type} (deployment : Deployment κ ι π)

/-- A gateway after its calls. -/
def gateway (k : κ) : Gateway :=
  GatewayService.run (deployment.env k) (deployment.config k) (deployment.calls k) (Gateway.start (deployment.config k))

/-- The events that some gateway has reported as published. -/
def accepted : Set LocationEvent := {event | ∃ k, event ∈ (deployment.gateway k).accepted}

/-- What joins the gateways to the processors: the integers of the events and the clocks are in the ranges of
their types, the clocks have started, and the partitions have the messages that the gateways have produced,
each at least once and in any order. -/
structure Joined : Prop where
  events : ∀ k, ∀ call ∈ deployment.calls k, ∀ event ∈ call.events, event.InRange
  clocks : ∀ k tick, 0 < (deployment.env k).system_ms tick ∧ (deployment.env k).system_ms tick < 2^63
  carried : ∀ payload, (∃ j, ∃ message ∈ deployment.group.partitions j, message.payload = payload) ↔
    ∃ k, ∃ message ∈ messages_of (deployment.config k).ingest_topic (deployment.gateway k).produced,
      message.payload = payload

variable {deployment} {event decoded : LocationEvent} {G : Type} {state : GroupState ι π G}

/-- A gateway's topic is that of its accepted events, which were submitted to it. -/
theorem faithful (deployment : Deployment κ ι π) (k : κ) :
    GatewayService.Faithful (deployment.env k) (deployment.config k)
      {event | ∃ call ∈ deployment.calls k, event ∈ call.events} (deployment.gateway k) :=
  GatewayService.run_faithful fun call hcall _ hevent => ⟨call, hcall, hevent⟩

/-- Stamping an event reads the clock where it has no time of receipt. -/
theorem stamped_cases (env : GatewayEnvironment) (tick : ℕ) (event : LocationEvent) :
    (GatewayService.stamped env tick event).1 = { event with server_recv_ms := env.system_ms tick } ∨
      (GatewayService.stamped env tick event).1 = event ∧ event.server_recv_ms ≠ 0 := by
  unfold GatewayService.stamped
  by_cases hzero : event.server_recv_ms = 0
  · rw [if_pos hzero]
    exact .inl rfl
  · rw [if_neg hzero]
    exact .inr ⟨rfl, hzero⟩

/-- An accepted event is valid and has a time of receipt, and its integers are in range. -/
theorem Joined.of_accepted (h : deployment.Joined) (hevent : event ∈ deployment.accepted) :
    (∃ config now_ms, event.Valid config now_ms) ∧ event.server_recv_ms ≠ 0 ∧ event.InRange := by
  obtain ⟨k, hk⟩ := hevent
  obtain ⟨⟨original, ⟨call, hcall, horiginal⟩, tick, hstamped⟩, tick', hvalid⟩ :=
    (deployment.faithful k).admitted event hk
  have hrange := h.events k call hcall original horiginal
  refine ⟨⟨_, _, validate_eq_ok_iff.mp hvalid⟩, ?_⟩
  rcases stamped_cases (deployment.env k) tick original with hclock | ⟨hsame, hne⟩
  · obtain ⟨hpos, hlt⟩ := h.clocks k tick
    rw [hstamped, hclock]
    exact ⟨hpos.ne', hrange.seq, hrange.timestamp_ms, by dsimp only; omega, hlt⟩
  · rw [hstamped, hsame]
    exact ⟨hne, hrange⟩

/-- The messages of a gateway are those of its accepted events. -/
theorem messages_gateway_iff (deployment : Deployment κ ι π) (k : κ) (payload : String) :
    (∃ message ∈ messages_of (deployment.config k).ingest_topic (deployment.gateway k).produced,
      message.payload = payload) ↔
    ∃ event ∈ (deployment.gateway k).accepted, encode_location_payload event = payload := by
  unfold messages_of
  rw [(deployment.faithful k).produced]
  simp [GatewayService.location_message]

/-- The events that the processors decode are the readable ones. -/
theorem Joined.mem_events_iff (h : deployment.Joined) :
    decoded ∈ deployment.group.events ↔ ∃ event ∈ deployment.accepted,
      decode_location_payload (encode_location_payload event) = .ok decoded := by
  constructor
  · rintro ⟨j, message, hmessage, hdecode⟩
    obtain ⟨k, hk⟩ := (h.carried message.payload).mp ⟨j, message, hmessage, rfl⟩
    obtain ⟨event, hevent, hpayload⟩ := (messages_gateway_iff deployment k _).mp hk
    exact ⟨event, ⟨k, hevent⟩, hpayload ▸ hdecode⟩
  · rintro ⟨event, ⟨k, hevent⟩, hdecode⟩
    obtain ⟨j, message, hmessage, hpayload⟩ :=
      (h.carried _).mpr ⟨k, (messages_gateway_iff deployment k _).mpr ⟨event, hevent, rfl⟩⟩
    exact ⟨j, message, hmessage, hpayload ▸ hdecode⟩

/-- The readable events are decoded to what they tell. -/
theorem Joined.decode_cases (h : deployment.Joined) (hevent : event ∈ deployment.accepted) :
    event.Unreadable ∧ (∀ decoded, decode_location_payload (encode_location_payload event) ≠ .ok decoded) ∨
      ¬event.Unreadable ∧ decode_location_payload (encode_location_payload event) = .ok event.told := by
  obtain ⟨⟨config, now_ms, hvalid⟩, -, hrange⟩ := h.of_accepted hevent
  rcases decode_encode_cases hvalid hrange with ⟨hunreadable, hdecode⟩ | hreadable
  · refine .inl ⟨hunreadable, fun decoded hdecoded => ?_⟩
    rw [hdecode] at hdecoded
    cases hdecoded
  · exact .inr hreadable

/-- What is decoded is what an accepted event tells that is readable. -/
theorem Joined.of_mem_events (h : deployment.Joined) (hdecoded : decoded ∈ deployment.group.events) :
    ∃ event ∈ deployment.accepted, ¬event.Unreadable ∧ decoded = event.told := by
  obtain ⟨event, hevent, hdecode⟩ := h.mem_events_iff.mp hdecoded
  rcases h.decode_cases hevent with ⟨-, hnone⟩ | ⟨hreadable, htold⟩
  · exact absurd hdecode (hnone decoded)
  · exact ⟨event, hevent, hreadable, Except.ok.inj (hdecode.symm.trans htold)⟩

/-- Where everything is committed, the store covers what was accepted and is readable. -/
theorem Joined.covered (h : deployment.Joined)
    (hsound : deployment.group.Sound state) (hall : ∀ j, (deployment.group.partitions j).length ≤ state.committed j)
    (hevent : event ∈ deployment.accepted) (hreadable : ¬event.Unreadable) :
    state.redis.Covers event.device_id event.seq := by
  rcases h.decode_cases hevent with ⟨hunreadable, -⟩ | ⟨-, hdecode⟩
  · exact absurd hunreadable hreadable
  · obtain ⟨j, hj⟩ := h.mem_events_iff.mpr ⟨event, hevent, hdecode⟩
    have htaken := hsound.committed j event.told
    rw [List.take_of_length_le (hall j)] at htaken
    exact htaken hj

/-- What is stored is the state of what an accepted event tells that is readable. -/
theorem Joined.of_stored (h : deployment.Joined) (hsound : deployment.group.Sound state) {device_id : String}
    {stored : DeviceState} (hstored : state.redis.get_device_state device_id = some stored) :
    ∃ event ∈ deployment.accepted, event.device_id = device_id ∧ ¬event.Unreadable ∧
      stored = settled_state deployment.group.h3 event.told := by
  obtain ⟨decoded, hdecoded, hid, rfl⟩ := hsound.stored _ _ hstored
  obtain ⟨event, hevent, hreadable, rfl⟩ := h.of_mem_events hdecoded
  exact ⟨event, hevent, hid, hreadable, rfl⟩

/-- Where everything is committed, the newest event of a device that was accepted and is readable is stored. -/
theorem Joined.newest (h : deployment.Joined) (hsound : deployment.group.Sound state)
    (hall : ∀ j, (deployment.group.partitions j).length ≤ state.committed j) (hevent : event ∈ deployment.accepted)
    (hreadable : ¬event.Unreadable) :
    ∃ newest ∈ deployment.accepted, newest.device_id = event.device_id ∧ ¬newest.Unreadable ∧
      (∀ other ∈ deployment.accepted, other.device_id = event.device_id → ¬other.Unreadable →
        other.seq ≤ newest.seq) ∧
      state.redis.get_device_state event.device_id = some (settled_state deployment.group.h3 newest.told) := by
  obtain ⟨stored, hstored, -⟩ := h.covered hsound hall hevent hreadable
  obtain ⟨newest, hnewest, hid, hreadable', rfl⟩ := h.of_stored hsound hstored
  refine ⟨newest, hnewest, hid, hreadable', fun other hother hsame hreadable => ?_, hstored⟩
  obtain ⟨stored', hstored', hle⟩ := h.covered hsound hall hother hreadable
  rw [hsame, hstored, Option.some.injEq] at hstored'
  rwa [← hstored'] at hle

/-- The events of the partitions are stamped. -/
theorem Joined.stamped (h : deployment.Joined) : ∀ event ∈ deployment.group.events, event.server_recv_ms ≠ 0 := by
  intro decoded hdecoded
  obtain ⟨event, hevent, -, rfl⟩ := h.of_mem_events hdecoded
  exact (h.of_accepted hevent).2.1

end Deployment

/-- What the gateways have accepted is what the query service answers. In every state that the group reaches,
an answer about a device is what an event of the device tells that a gateway has accepted and whose payload is
readable, and later answers are of events that are no older. Where the group has committed all messages, a
device has an answer if there is such an event, and it is of the newest. -/
theorem accepted_is_latest {κ ι π G : Type} [DecidableEq ι] [DecidableEq π] (deployment : Deployment κ ι π)
    (hjoined : deployment.Joined) (geofence : ι → G)
    (P : Pool ι (Atomic (GroupState ι π G)) (GroupState ι π G) Exception Bool)
    (hP : deployment.group.Reaches (ProcessorGroup.start geofence) P) (service : QueryService)
    (hrunning : service.running = true) (hredis : service.redis = P.state.redis) (device_id : String)
    (hdevice : device_id ≠ "") :
    ((service.handle_latest ⟨device_id⟩).found = true →
      ∃ event ∈ deployment.accepted, event.device_id = device_id ∧ ¬event.Unreadable ∧
        (service.handle_latest ⟨device_id⟩).state = settled_state deployment.group.h3 event.told) ∧
    (∀ Q (later : QueryService), deployment.group.Reaches P Q → later.running = true → later.redis = Q.state.redis →
      (service.handle_latest ⟨device_id⟩).found = true → (later.handle_latest ⟨device_id⟩).found = true ∧
        (service.handle_latest ⟨device_id⟩).state.seq ≤ (later.handle_latest ⟨device_id⟩).state.seq) ∧
    ((∀ j, (deployment.group.partitions j).length ≤ P.state.committed j) →
      ∀ event ∈ deployment.accepted, event.device_id = device_id → ¬event.Unreadable →
        (service.handle_latest ⟨device_id⟩).found = true ∧
          event.seq ≤ (service.handle_latest ⟨device_id⟩).state.seq) := by
  obtain ⟨hsound, -⟩ := ProcessorGroup.reaches_sound hjoined.stamped hP .refl
  refine ⟨fun hfound => ?_, fun Q later hQ hlater hredis' hfound => ?_, fun hall event hevent hid hreadable => ?_⟩
  · have hstate := QueryService.get_device_state_of_found hrunning hdevice hfound
    exact hjoined.of_stored hsound (hredis ▸ hstate)
  · have hstate := QueryService.get_device_state_of_found hrunning hdevice hfound
    rw [hredis] at hstate
    obtain ⟨state, hstate', hle⟩ := (ProcessorGroup.reaches_sound hjoined.stamped hP hQ).2 _ _ ⟨_, hstate, le_rfl⟩
    rw [QueryService.handle_latest_some hlater hdevice (hredis' ▸ hstate')]
    exact ⟨rfl, hle⟩
  · obtain ⟨state, hstate, hle⟩ := hjoined.covered hsound hall hevent hreadable
    rw [hid, ← hredis] at hstate
    rw [QueryService.handle_latest_some hrunning hdevice hstate]
    exact ⟨rfl, hle⟩

/-- One gateway that gets one event, and one processor of its topic. -/
def single_deployment : Deployment Unit Unit Unit where
  env _ := GatewayService.quiet
  config _ := {}
  calls _ := [.ingest_one { device_id := "d", timestamp_ms := 1000, seq := 7 }]
  group :=
    { h3 := .default
      partitions := fun _ => [⟨"d", "d,7,1000,1000,0,0", 0⟩]
      assigned := fun _ => () }

/-- The processor, with a turn ahead. -/
def single_program : Prog (Atomic (GroupState Unit Unit Unit)) Exception Bool :=
  (ProcessingLoop.run (.attentive (single_deployment.group.partitions ())) ⟨.default, {}, none⟩ 1).hoist
    (single_deployment.group.on ())

/-- The group once it has run. -/
def single_pool : Pool Unit (Atomic (GroupState Unit Unit Unit)) (GroupState Unit Unit Unit) Exception Bool :=
  ((ProcessorGroup.start fun _ => ()).restart () single_program
    { worlds := Function.update (fun _ => World.fresh 0 0 ()) () (ProcessorGroup.starting 0 10 60 ()) }).run .atomic
      (List.replicate 20 ())

/-- The store of the group is read. -/
def single_service : QueryService := { redis := single_pool.state.redis }

/-- The event as the gateway has accepted it. -/
def single_event : LocationEvent :=
  { device_id := "d", timestamp_ms := 1000, server_recv_ms := 1000, seq := 7 }

theorem single_accepted : (single_deployment.gateway ()).accepted = [single_event] := by decide +kernel

theorem single_messages :
    messages_of (single_deployment.config ()).ingest_topic (single_deployment.gateway ()).produced =
    single_deployment.group.partitions () := by decide +kernel

theorem single_joined : single_deployment.Joined where
  events _ call hcall event hevent := by
    obtain rfl := List.mem_singleton.mp hcall
    obtain rfl := List.mem_singleton.mp hevent
    exact ⟨by decide, by decide, by decide⟩
  clocks _ _ := ⟨by show (0 : ℤ) < 1000; decide, by show (1000 : ℤ) < 2^63; decide⟩
  carried payload := by
    have hmessages := single_messages
    constructor
    · rintro ⟨_, message, hmessage, hpayload⟩
      exact ⟨(), message, hmessages ▸ hmessage, hpayload⟩
    · rintro ⟨_, message, hmessage, hpayload⟩
      exact ⟨(), message, hmessages ▸ hmessage, hpayload⟩

theorem single_accepts : single_event ∈ single_deployment.accepted :=
  ⟨(), single_accepted ▸ List.mem_singleton_self single_event⟩

theorem single_readable : ¬single_event.Unreadable := by
  rintro (hcomma | htiny | htiny)
  · exact absurd hcomma (by decide)
  · exact htiny.1 rfl
  · exact htiny.1 rfl

theorem single_reaches : single_deployment.group.Reaches (ProcessorGroup.start fun _ => ()) single_pool :=
  .head (.restart ⟨_, ⟨.default, {}, none⟩, 1, 0, 10, 60, (), rfl, rfl, Nat.zero_le _, rfl, rfl⟩)
    (Pool.moves_run _ _ _)

/-- The event is answered. -/
theorem accepted_is_latest_single : (single_service.handle_latest ⟨"d"⟩).found = true ∧
    7 ≤ (single_service.handle_latest ⟨"d"⟩).state.seq :=
  (accepted_is_latest single_deployment single_joined (fun _ => ()) single_pool single_reaches single_service rfl rfl
    "d" (by decide)).2.2 (by decide +kernel) single_event single_accepts rfl single_readable

end SignalRoute
