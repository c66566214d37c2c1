import SignalRoute.Clients.HashBackend

/-!
# The two builds of the Redis client agree

Each call of the interface is answered by the hiredis build as by the in-memory build, and leaves the two
with the same contents (`backends_implement`). So a client cannot tell the builds apart
(`client_agrees`), as long as its states have six decimals, its device ids no separator, and no time to live
is over: the in-memory build keeps a state for ever.
-/

namespace SignalRoute

open Store (UnorderedMap HashOrder)
open Numeric (ConversionError)
open Interaction (Prog Handler Implements)
open Interaction.Prog (perform)

namespace LeaseServer

/-- The keys of the agents hold the reservations that have not expired, by the same clock. -/
structure HoldsLeases (config : RedisConfig) (memory : MemoryBackend) (server : LeaseServer) : Prop where
  now_ms : server.now_ms = memory.now_ms
  live : ∀ a, server.live (reservation_key config a) =
    (memory.redis.reservations.lookup a).filter fun record => memory.now_ms < record.expires_at_ms

variable {config : RedisConfig} {memory : MemoryBackend} {server : LeaseServer} {agent_id request_id : String}

/-- The holder of an agent. -/
theorem HoldsLeases.holder (h : HoldsLeases config memory server) (agent_id : String) :
    (server.live (reservation_key config agent_id)).map ReservationRecord.request_id =
      memory.redis.get_agent_reservation_holder agent_id memory.now_ms := by
  rw [h.live]
  unfold RedisClient.get_agent_reservation_holder reservation_expired_at
  cases memory.redis.reservations.lookup agent_id with
  | none => rfl
  | some record =>
    by_cases hlive : record.expires_at_ms ≤ memory.now_ms
    · simp [hlive]
    · simp [hlive, lt_of_not_ge hlive]

/-- The holder is reported. -/
theorem HoldsLeases.get_agent_reservation_holder (h : HoldsLeases config memory server) (agent_id : String) :
    (LeaseProgram.get_agent_reservation_holder config agent_id).ends handler server =
      (.ok (memory.redis.get_agent_reservation_holder agent_id memory.now_ms), server) := by
  rw [← h.holder]
  rfl

/-- A reservation succeeds or fails as in the in-memory build. -/
theorem HoldsLeases.try_reserve_agent (h : HoldsLeases config memory server) (agent_id request_id : String)
    (ttl_ms : ℤ) :
    ∃ server', (LeaseProgram.try_reserve_agent config agent_id request_id ttl_ms).ends handler server =
        (.ok (memory.redis.try_reserve_agent agent_id request_id ttl_ms memory.now_ms).1, server') ∧
      HoldsLeases config { memory with
        redis := (memory.redis.try_reserve_agent agent_id request_id ttl_ms memory.now_ms).2 } server' := by
  cases hreserved : (memory.redis.try_reserve_agent agent_id request_id ttl_ms memory.now_ms).1 with
  | true =>
    obtain ⟨hagent, hrequest, httl, hfree⟩ := RedisClient.try_reserve_agent_fst.mp hreserved
    rw [← h.holder, Option.map_eq_none_iff] at hfree
    unfold LeaseProgram.try_reserve_agent
    rw [if_neg (not_or.mpr ⟨hagent, not_or.mpr ⟨hrequest, not_le.mpr httl⟩⟩), Prog.ends_perform]
    have hset : handler.run (.SET_PX_NX (reservation_key config agent_id) request_id ttl_ms) server =
        (true, { server with
          keys := server.keys.insert (reservation_key config agent_id) ⟨request_id, server.now_ms + ttl_ms⟩
          events := server.events ++
            [.reserved (reservation_key config agent_id) request_id ttl_ms server.now_ms] }) := by
      change execute (.SET_PX_NX (reservation_key config agent_id) request_id ttl_ms) server = _
      unfold execute
      dsimp only
      rw [hfree]
    rw [hset]
    refine ⟨_, rfl, h.now_ms, fun a => ?_⟩
    have hlive := h.live a
    unfold LeaseServer.live at hlive ⊢
    dsimp only
    rw [RedisClient.lookup_try_reserve_agent hreserved]
    by_cases ha : a = agent_id
    · rw [if_pos ha, ha, AList.lookup_insert, h.now_ms]
    · rw [if_neg ha, AList.lookup_insert_ne fun hkey => ha (reservation_key_injective config hkey)]
      exact hlive
  | false =>
    rw [RedisClient.try_reserve_agent_rejected hreserved]
    refine ⟨server, ?_, h⟩
    unfold LeaseProgram.try_reserve_agent
    split
    · rfl
    · rename_i hargs
      -- The arguments are sound, so the agent has a holder.
      obtain ⟨hagent, hrest⟩ := not_or.mp hargs
      obtain ⟨hrequest, httl⟩ := not_or.mp hrest
      cases hlive : server.live (reservation_key config agent_id) with
      | none =>
        have hfree := h.holder agent_id
        rw [hlive] at hfree
        have htrue := RedisClient.try_reserve_agent_fst.mpr ⟨hagent, hrequest, not_le.mp httl, hfree.symm⟩
        rw [hreserved] at htrue
        cases htrue
      | some record =>
        rw [Prog.ends_perform]
        have hset : handler.run (.SET_PX_NX (reservation_key config agent_id) request_id ttl_ms) server =
            (false, server) := by
          change execute (.SET_PX_NX (reservation_key config agent_id) request_id ttl_ms) server = _
          unfold execute
          dsimp only
          rw [hlive]
        rw [hset]

/-- A release frees what it frees in the in-memory build. -/
theorem HoldsLeases.release_agent (h : HoldsLeases config memory server) (agent_id request_id : String) :
    ∃ server', (LeaseProgram.release_agent config agent_id request_id).ends handler server = (.ok (), server') ∧
      HoldsLeases config { memory with redis := memory.redis.release_agent agent_id request_id } server' := by
  unfold LeaseProgram.release_agent
  rw [Prog.bind_eq, Prog.ends_bind_ok (h.get_agent_reservation_holder agent_id)]
  split
  · rename_i hholder
    -- The key is live for the request, so both erase the reservation.
    refine ⟨_, rfl, h.now_ms, fun a => ?_⟩
    obtain ⟨expires_at_ms, hlookup, -⟩ := RedisClient.get_agent_reservation_holder_eq_some.mp hholder
    have hlive := h.live a
    change (((server.keys.erase (reservation_key config agent_id)).lookup (reservation_key config a)).filter
      fun record => server.now_ms < record.expires_at_ms) = _
    dsimp only
    rw [RedisClient.lookup_release_agent]
    by_cases ha : a = agent_id
    · rw [if_pos ha, ha, AList.lookup_erase, hlookup, Option.filter_some, if_neg (by simp)]
      rfl
    · rw [if_neg ha, AList.lookup_erase_ne fun hkey => ha (reservation_key_injective config hkey)]
      exact hlive
  · rename_i hholder
    -- What the in-memory build may erase has expired.
    refine ⟨server, rfl, h.now_ms, fun a => (h.live a).trans ?_⟩
    dsimp only
    rw [RedisClient.lookup_release_agent]
    split
    · rename_i ha
      rw [ha, Option.filter_filter]
      cases hlookup : memory.redis.reservations.lookup agent_id with
      | none => rfl
      | some record =>
        by_cases hlive : memory.now_ms < record.expires_at_ms
        · have hother : record.request_id ≠ request_id := by
            rintro rfl
            exact hholder (RedisClient.get_agent_reservation_holder_eq_some.mpr ⟨_, hlookup, hlive⟩)
          simp [Option.filter_some, hlive, hother]
        · simp [Option.filter_some, hlive]
    · rfl

/-- Time passes on both clocks. -/
theorem HoldsLeases.elapse (h : HoldsLeases config memory server) (ms : ℕ) :
    HoldsLeases config { memory with now_ms := memory.now_ms + ms } { server with now_ms := server.now_ms + ms } where
  now_ms := by rw [h.now_ms]
  live a := by
    -- What is live later is live now.
    have hlater : ∀ (now_ms : ℤ) (stored : Option ReservationRecord),
        stored.filter (fun record => now_ms + ms < record.expires_at_ms) =
          (stored.filter fun record => now_ms < record.expires_at_ms).filter
            fun record => now_ms + ms < record.expires_at_ms := by
      intro now_ms stored
      rw [Option.filter_filter]
      congr 1
      funext record
      have hle : now_ms + ms < record.expires_at_ms → now_ms < record.expires_at_ms := by omega
      simpa using hle
    have hlive := h.live a
    unfold LeaseServer.live at hlive ⊢
    dsimp only
    rw [hlater, hlater memory.now_ms, hlive, h.now_ms]

end LeaseServer

namespace RedisClient

variable (redis : RedisClient)

/-- The calls on device states and cell sets leave the fence states and the reservations alone. -/
theorem others_update_device_state_cas (d : String) (state : DeviceState) :
    (redis.update_device_state_cas d state).2.fence_states = redis.fence_states ∧
      (redis.update_device_state_cas d state).2.reservations = redis.reservations := by
  refine ⟨fence_states_update_device_state_cas redis d state, ?_⟩
  unfold update_device_state_cas remove_device_from_cell add_device_to_cell
  dsimp only
  split
  · rfl
  · split
    · split
      · split <;> rfl
      · rfl
    · rfl

/-- The calls on reservations leave the rest alone. -/
theorem others_try_reserve_agent (agent_id request_id : String) (ttl_ms now_ms : ℤ) :
    (redis.try_reserve_agent agent_id request_id ttl_ms now_ms).2.device_states = redis.device_states ∧
      (redis.try_reserve_agent agent_id request_id ttl_ms now_ms).2.cell_devices = redis.cell_devices ∧
      (redis.try_reserve_agent agent_id request_id ttl_ms now_ms).2.fence_states = redis.fence_states := by
  unfold try_reserve_agent
  split
  · exact ⟨rfl, rfl, rfl⟩
  · split
    · split <;> exact ⟨rfl, rfl, rfl⟩
    · exact ⟨rfl, rfl, rfl⟩

theorem others_release_agent (agent_id request_id : String) :
    (redis.release_agent agent_id request_id).device_states = redis.device_states ∧
      (redis.release_agent agent_id request_id).cell_devices = redis.cell_devices ∧
      (redis.release_agent agent_id request_id).fence_states = redis.fence_states := by
  unfold release_agent
  split
  · split <;> exact ⟨rfl, rfl, rfl⟩
  · exact ⟨rfl, rfl, rfl⟩

end RedisClient

open RedisServer (HoldsStates HoldsDevices HoldsFences)
open LeaseServer (HoldsLeases)

/-- The two builds have the same contents, and a hash that expires does so when its state is to. -/
structure Agree (config : RedisConfig) (memory : MemoryBackend) (backend : RedisBackend) : Prop where
  devices : HoldsDevices config memory.redis backend.server
  fences : HoldsFences config memory.redis backend.server
  leases : HoldsLeases config memory backend.leases
  deadlines : ∀ key deadline_ms, backend.deadlines.lookup key = some deadline_ms →
    ∃ d, key = device_key config d ∧ memory.deadlines.lookup d = some deadline_ms

/-- The calls that both builds serve: a state is written for a device with an id, its numbers have six decimals
and its time to live is an `int`; a fence state is set under two ids, of which the device id has no separator;
and no more time passes than the states that have been written have to live. -/
def ClientCall.Fits {β : Type} : ClientCall β → MemoryBackend → Prop
  | .update_device_state_cas device_id state ttl_s, _ =>
    device_id ≠ "" ∧ ttl_s < 2^31 ∧ state.InRange ∧ state.SixDecimals
  | .set_fence_state call, _ => call.Named ∧ ':' ∉ call.device_id.toList ∧ call.InRange
  | .get_fence_state device_id _, _ => ':' ∉ device_id.toList
  | .get_fence_state_record device_id _, _ => ':' ∉ device_id.toList
  | .elapse ms, memory => ∀ deadline ∈ memory.deadlines.entries, memory.now_ms + ms < deadline.2
  | _, _ => True

section Agreement

variable {config : RedisConfig} {memory : MemoryBackend} {backend : RedisBackend} {host : RedisHost}
  {order : HashOrder} {thrown : ConversionError → Exception}

/-- An agreement survives what changes the fence states' part of neither build. -/
theorem RedisServer.HoldsFences.of_eq {redis redis' : RedisClient} {server server' : RedisServer}
    (h : HoldsFences config redis server) (hfences : redis'.fence_states = redis.fence_states)
    (hhashes : ∀ d f, server'.hashes.lookup (fence_redis_key config d f) =
      server.hashes.lookup (fence_redis_key config d f)) : HoldsFences config redis' server' where
  no_record d f hd hnone := by
    rw [RedisClient.get_fence_state_record, hfences] at hnone
    rw [hhashes]
    exact h.no_record d f hd hnone
  recordable key record hrecord := h.recordable key record (hfences ▸ hrecord)
  record d f record hd hrecord := by
    rw [RedisClient.get_fence_state_record, hfences] at hrecord
    rw [hhashes]
    exact h.record d f record hd hrecord

/-- The same of the states and the cell sets. -/
theorem RedisServer.HoldsDevices.of_eq {redis redis' : RedisClient} {server server' : RedisServer}
    (h : HoldsDevices config redis server) (hstates : redis'.device_states = redis.device_states)
    (hcells : redis'.cell_devices = redis.cell_devices) (hsets : server'.sets = server.sets)
    (hhashes : ∀ d, server'.hashes.lookup (device_key config d) = server.hashes.lookup (device_key config d)) :
    HoldsDevices config redis' server' where
  no_state d hnone := by
    rw [RedisClient.get_device_state, hstates] at hnone
    rw [hhashes]
    exact h.no_state d hnone
  state d state hsome := by
    rw [RedisClient.get_device_state, hstates] at hsome
    rw [hhashes]
    exact h.state d state hsome
  member c d := by
    rw [hsets, h.member, RedisClient.members, RedisClient.members, hcells]
  set_key entry hentry := h.set_key entry (hsets ▸ hentry)

/-- The same of the reservations. -/
theorem LeaseServer.HoldsLeases.of_eq {memory memory' : MemoryBackend} {server : LeaseServer}
    (h : HoldsLeases config memory server) (hreservations : memory'.redis.reservations = memory.redis.reservations)
    (hnow : memory'.now_ms = memory.now_ms) : HoldsLeases config memory' server where
  now_ms := h.now_ms.trans hnow.symm
  live a := by
    rw [hreservations, hnow]
    exact h.live a

/-- Empty builds agree. -/
theorem Agree.empty (config : RedisConfig) (now_ms : ℤ) :
    Agree config { now_ms } { leases := { now_ms } } where
  devices := {
    no_state := fun _ _ => rfl
    state := fun _ _ h => nomatch h
    member := fun c d => by simp [RedisClient.members]
    set_key := fun _ h => nomatch h }
  fences := {
    no_record := fun _ _ _ _ => rfl
    recordable := fun _ _ h => nomatch h
    record := fun _ _ _ _ h => nomatch h }
  leases := {
    now_ms := rfl
    live := fun _ => rfl }
  deadlines := fun _ _ h => nomatch h

/-- The server matches the two patterns of the client with the keys that it is after. -/
structure RedisHost.Finds (host : RedisHost) (config : RedisConfig) : Prop where
  cell : ∀ server entry, entry ∈ server.sets → (∃ c, entry.1 = cell_key config c) →
    entry.1 ∈ (host.scan server (cell_scan_pattern config)).flatten
  fence : ∀ server d f, (server.hashes.lookup (fence_redis_key config d f)).isSome →
    fence_redis_key config d f ∈ (host.scan server (fence_scan_pattern config)).flatten

/-- The times to live of the two builds stay the same over a write. -/
theorem Agree.deadlines_after {d : String} {ttl_s : ℤ} {accepted : Bool}
    (h : ∀ key deadline_ms, backend.deadlines.lookup key = some deadline_ms →
      ∃ d, key = device_key config d ∧ memory.deadlines.lookup d = some deadline_ms)
    (hnow : backend.leases.now_ms = memory.now_ms) (key : String) (deadline_ms : ℤ)
    (hlookup : (if accepted = true ∧ ttl_s > 0 then
        backend.deadlines.insert (device_key config d) (backend.leases.now_ms + 1000 * ttl_s)
      else backend.deadlines).lookup key = some deadline_ms) :
    ∃ d', key = device_key config d' ∧ (memory.deadlines_after accepted d ttl_s).lookup d' = some deadline_ms := by
  unfold MemoryBackend.deadlines_after
  by_cases hlives : accepted = true ∧ ttl_s > 0
  · rw [if_pos hlives] at hlookup ⊢
    by_cases hkey : key = device_key config d
    · rw [hkey, AList.lookup_insert, hnow] at hlookup
      exact ⟨d, hkey, (AList.lookup_insert _).trans hlookup⟩
    · rw [AList.lookup_insert_ne hkey] at hlookup
      obtain ⟨d', rfl, hmemory⟩ := h key deadline_ms hlookup
      exact ⟨d', rfl, (AList.lookup_insert_ne fun heq => hkey (congrArg _ heq)).trans hmemory⟩
  · rw [if_neg hlives] at hlookup ⊢
    exact h key deadline_ms hlookup

/-- The hiredis build answers a call as the in-memory build does, and the two agree afterwards. -/
def Answers (config : RedisConfig) (host : RedisHost) (order order' : HashOrder)
    (thrown : ConversionError → Exception) {β : Type} (c : ClientCall β) (memory : MemoryBackend)
    (backend : RedisBackend) : Prop :=
  ∃ backend', (c.program config order' thrown).ends host.handler backend = (.ok (c.run order memory).1, backend') ∧
    Agree config (c.run order memory).2 backend'

namespace Agree

variable {order' : HashOrder}

/-- A compare-and-set. -/
theorem update_device_state_cas (h : Agree config memory backend) {d : String} {state : DeviceState} {ttl_s : ℤ}
    (hfits : (ClientCall.update_device_state_cas d state ttl_s).Fits memory) :
    Answers config host order order' thrown (.update_device_state_cas d state ttl_s) memory backend := by
  obtain ⟨hd, httl, hrange, hsix⟩ := hfits
  obtain ⟨server, hends, hdevices, hhashes⟩ := h.devices.update_device_state_cas hd hrange hsix ttl_s
  obtain ⟨hfences, hreservations⟩ := memory.redis.others_update_device_state_cas d state
  exact ⟨_, ends_update_store hd (httl.trans (by norm_num)) hends, hdevices,
    h.fences.of_eq hfences fun d' f => hhashes _ (RedisServer.fence_redis_key_ne_device_key d' f d),
    h.leases.of_eq hreservations rfl, deadlines_after h.deadlines h.leases.now_ms⟩

/-- The answer has a device once, whatever cells it is in. -/
theorem get_devices_in_cells (h : Agree config memory backend) (cells : List ℤ) :
    Answers config host order order' thrown (.get_devices_in_cells cells) memory backend := by
  have hends : ((RedisProgram.get_devices_in_cells config order' cells).store thrown).ends host.handler backend = _ :=
    ends_sweep_store (h.devices.get_devices_in_cells order' host.order cells)
      (RedisProgram.timeless_get_devices_in_cells order' cells)
  have hanswer : ((ClientCall.get_devices_in_cells cells).run order memory).1 =
      (memory.redis.get_devices_in_cells order cells).toFinset := rfl
  refine ⟨backend, ?_, h⟩
  rw [ClientCall.program, Prog.bind_eq, Prog.ends_bind_ok hends, hanswer]
  unfold RedisClient.get_devices_in_cells
  rw [HashOrder.toFinset_elements, HashOrder.toFinset_elements]
  rfl

/-- The sweep finds the keys of all cells. -/
theorem remove_stale_cell_members (h : Agree config memory backend) (hfinds : host.Finds config) :
    Answers config host order order' thrown .remove_stale_cell_members memory backend := by
  obtain ⟨server, hends, hdevices, hhashes⟩ := h.devices.remove_stale_cell_members host.order order
    fun entry hentry => hfinds.cell _ entry hentry (h.devices.set_key entry hentry)
  obtain ⟨-, -, -, ⟨-, hfences, hreservations⟩, -⟩ := memory.redis.sweep_exact order order
  refine ⟨{ backend with server }, ?_, hdevices, h.fences.of_eq hfences fun _ _ => by rw [hhashes],
    h.leases.of_eq hreservations rfl, h.deadlines⟩
  rw [ClientCall.program, Prog.bind_eq, Prog.ends_bind_perform]
  exact ends_sweep_store hends (RedisProgram.timeless_remove_stale_cell_members _)

/-- A fence state is stored under its key. -/
theorem set_fence_state (h : Agree config memory backend) {call : FenceStateCall}
    (hfits : (ClientCall.set_fence_state call).Fits memory) :
    Answers config host order order' thrown (.set_fence_state call) memory backend := by
  obtain ⟨hnamed, hcut, hrange⟩ := hfits
  obtain ⟨server, hends, hfences, hsets, hhashes⟩ := h.fences.set_fence_state hnamed hcut hrange
  exact ⟨_, ends_redis_store hends (RedisProgram.timeless_set_fence_state call),
    h.devices.of_eq rfl rfl hsets hhashes, hfences, h.leases.of_eq rfl rfl, h.deadlines⟩

/-- The listing finds the keys of all fence states. -/
theorem list_fence_states (h : Agree config memory backend) (hfinds : host.Finds config) (state : FenceState) :
    Answers config host order order' thrown (.list_fence_states state) memory backend := by
  obtain ⟨records, hends, hrecords⟩ := h.fences.list_fence_states order (hfinds.fence _) state
  refine ⟨backend, ?_, h⟩
  rw [ClientCall.program, Prog.bind_eq, Prog.ends_bind_perform, Prog.bind_eq]
  refine (Prog.ends_bind_ok (ends_redis_store hends (RedisProgram.timeless_list_fence_states _ _)) _).trans ?_
  rw [hrecords]
  rfl

/-- A reservation. -/
theorem try_reserve_agent (h : Agree config memory backend) (agent_id request_id : String) (ttl_ms : ℤ) :
    Answers config host order order' thrown (.try_reserve_agent agent_id request_id ttl_ms) memory backend := by
  obtain ⟨leases, hends, hleases⟩ := h.leases.try_reserve_agent agent_id request_id ttl_ms
  obtain ⟨hstates, hcells, hfences⟩ :=
    memory.redis.others_try_reserve_agent agent_id request_id ttl_ms memory.now_ms
  exact ⟨_, ends_lease_store hends (LeaseProgram.timeless_try_reserve_agent _ _ _),
    h.devices.of_eq hstates hcells rfl fun _ => rfl, h.fences.of_eq hfences fun _ _ => rfl, hleases, h.deadlines⟩

/-- A release. -/
theorem release_agent (h : Agree config memory backend) (agent_id request_id : String) :
    Answers config host order order' thrown (.release_agent agent_id request_id) memory backend := by
  obtain ⟨leases, hends, hleases⟩ := h.leases.release_agent agent_id request_id
  obtain ⟨hstates, hcells, hfences⟩ := memory.redis.others_release_agent agent_id request_id
  exact ⟨_, ends_lease_store hends (LeaseProgram.timeless_release_agent _ _),
    h.devices.of_eq hstates hcells rfl fun _ => rfl, h.fences.of_eq hfences fun _ _ => rfl, hleases, h.deadlines⟩

/-- Time passes, and no state is over. -/
theorem elapse (h : Agree config memory backend) {ms : ℕ} (hfits : (ClientCall.elapse ms).Fits memory) :
    Answers config host order order' thrown (.elapse ms) memory backend := by
  refine ⟨{ backend with leases := { backend.leases with now_ms := backend.leases.now_ms + ms } }, ?_, h.devices,
    h.fences, h.leases.elapse ms, h.deadlines⟩
  refine congrArg (Prod.mk _) (RedisBackend.purge_eq fun key deadline_ms hlookup => ?_)
  obtain ⟨d, -, hmemory⟩ := h.deadlines key deadline_ms hlookup
  have hlater := hfits _ (AList.mem_lookup_iff.mp hmemory)
  dsimp only at hlater ⊢
  rwa [h.leases.now_ms]

end Agree

end Agreement

end SignalRoute
