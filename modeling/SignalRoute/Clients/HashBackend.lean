import SignalRoute.Clients.Backends

/-!
# The hashes and sets hold the maps

What the hiredis build stores for the device states, the cell sets and the fence states of the in-memory
build (`HoldsDevices`, `HoldsFences`), and one lemma for each function of the client: it answers as the maps
do, and what is held afterwards is what the maps are afterwards.

A text is read back as what it was printed from where that has six decimals, and a key of a fence is cut
where it was joined where the device id has no separator; a sweep visits the keys that `SCAN` replies with,
some of them more than once, and finds nothing the second time (`disjoint_strays`).
-/

namespace SignalRoute

open Store (UnorderedMap HashOrder)
open Numeric (ConversionError)
open Interaction (Prog Handler Implements)
open Interaction.Prog (perform foldEach)

section Timeless

/-- A command that gives no time to live. -/
def RedisCommand.Timeless {β : Type} : RedisCommand β → Prop
  | .EXPIRE _ _ => False
  | _ => True

/-- A command on the reservations that is no passing of time. -/
def LeaseCommand.Timeless {β : Type} : LeaseCommand β → Prop
  | .elapse _ => False
  | _ => True

/-- A program that gives no time to live. -/
def RedisProgram.Timeless {α : Type} (p : RedisProgram α) : Prop := p.Only RedisCommand.Timeless

/-- The same of one that may send sweep commands. -/
def SweepProgram.Timeless {α : Type} (p : SweepProgram α) : Prop :=
  p.Only fun {_} c => Sum.elim RedisCommand.Timeless (fun _ => True) c

variable {config : RedisConfig} {α : Type}

/-- A program that sends no sweep command, among those that may. -/
theorem RedisProgram.Timeless.sweep {p : RedisProgram α} (hp : p.Timeless) :
    SweepProgram.Timeless (p.hoist .inl) := Prog.Only.hoist hp fun _ hc => hc

namespace RedisProgram

/-- Reads give no time to live. -/
theorem timeless_get_device_state (d : String) : (get_device_state config d).Timeless := by
  refine ⟨trivial, fun fields => ?_⟩
  dsimp only [Prog.pure_eq, Prog.bind_eq, Prog.pure_bind]
  split
  · trivial
  · exact (Prog.only_ofExcept _).bind fun _ => trivial

theorem timeless_get_devices_in_cells (order : HashOrder) (cells : List ℤ) :
    SweepProgram.Timeless (get_devices_in_cells config order cells) := by
  refine Prog.Only.bind (Prog.Only.foldEach ?_ cells ∅) fun _ => trivial
  exact fun unique cell => ⟨trivial, fun _ => trivial⟩

theorem timeless_get_fence_state_record (d f : String) : (get_fence_state_record config d f).Timeless := by
  refine ⟨trivial, fun fields => ?_⟩
  dsimp only [Prog.pure_eq, Prog.bind_eq, Prog.pure_bind]
  split
  · trivial
  · exact (Prog.only_ofExcept _).bind fun _ => trivial

theorem timeless_list_fence_states (replies : List (List String)) (state : FenceState) :
    (list_fence_states config replies state).Timeless := by
  refine Prog.Only.foldEach (fun records key => ?_) replies.flatten []
  unfold list_key
  dsimp only
  split
  · trivial
  · exact (timeless_get_fence_state_record _ _).bind fun _ => trivial

/-- So does a sweep. -/
theorem timeless_remove_stale_cell_members (scanned : List (List String)) :
    SweepProgram.Timeless (remove_stale_cell_members config scanned) := by
  unfold remove_stale_cell_members
  refine Prog.Only.foldEach ?_ scanned.flatten (0, 0)
  intro counts key
  refine ⟨trivial, fun devices => ?_⟩
  dsimp only [Prog.pure_bind, Prog.bind_eq]
  refine (Prog.Only.foldEach ?_ devices 0).bind fun _ => trivial
  intro removed d
  refine Prog.Only.bind (timeless_get_device_state d).sweep fun state => ?_
  cases state with
  | none => exact ⟨trivial, fun _ => trivial⟩
  | some state => trivial

/-- A fence state has no time to live. -/
theorem timeless_set_fence_state (call : FenceStateCall) :
    (set_fence_state config call.device_id call.fence_id call.state call.timestamp_ms).Timeless := by
  refine Prog.Only.bind ?_ fun _ => (Prog.only_perform _).mpr trivial
  unfold entered_at_ms
  cases call.state with
  | OUTSIDE => trivial
  | INSIDE => trivial
  | DWELL => exact (timeless_get_fence_state_record _ _).bind fun _ => trivial

end RedisProgram

namespace LeaseProgram

theorem timeless_try_reserve_agent (agent_id request_id : String) (ttl_ms : ℤ) :
    (try_reserve_agent config agent_id request_id ttl_ms).Only LeaseCommand.Timeless := by
  unfold try_reserve_agent
  split
  · trivial
  · exact (Prog.only_perform _).mpr trivial

theorem timeless_get_agent_reservation_holder (agent_id : String) :
    (get_agent_reservation_holder config agent_id).Only LeaseCommand.Timeless := (Prog.only_perform _).mpr trivial

theorem timeless_release_agent (agent_id request_id : String) :
    (release_agent config agent_id request_id).Only LeaseCommand.Timeless := by
  refine (timeless_get_agent_reservation_holder agent_id).bind fun holder => ?_
  split
  · exact (Prog.only_perform _).mpr trivial
  · trivial

end LeaseProgram

end Timeless

section Store

variable {host : RedisHost} {thrown : ConversionError → Exception} {backend : RedisBackend} {α : Type}

/-- A program over the hashes and sets that gives no time to live leaves the rest of the server as it is. -/
theorem ends_hoist_store {p : SweepProgram α} (hp : p.Timeless) :
    (p.hoist .inl : Prog StoreCommand ConversionError α).ends host.handler backend =
      ((p.ends (RedisServer.sweep_handler host.order) backend.server).1,
        { backend with server := (p.ends (RedisServer.sweep_handler host.order) backend.server).2 }) := by
  have hrun : ∀ {β : Type} (c : RedisCommand β ⊕ SweepCommand β) (backend : RedisBackend),
      Sum.elim RedisCommand.Timeless (fun _ => True) c →
      host.handler.run (.inl c) backend = (((RedisServer.sweep_handler host.order).run c backend.server).1,
        { backend with server := ((RedisServer.sweep_handler host.order).run c backend.server).2 }) := by
    intro β c backend hc
    cases c with
    | inl c =>
      cases c with
      | EXPIRE => exact hc.elim
      | _ => rfl
    | inr c => rfl
  exact Prog.ends_hoist (RedisServer.sweep_handler host.order) host.handler (fun c => .inl c)
    RedisBackend.server (fun backend server => { backend with server }) hrun (fun _ _ => rfl)
    (fun _ _ _ => rfl) (fun _ => rfl) hp backend

/-- Such a program, where it returns. -/
theorem ends_sweep_store {p : SweepProgram α} {a : α} {server : RedisServer}
    (h : p.ends (RedisServer.sweep_handler host.order) backend.server = (.ok a, server)) (hp : p.Timeless) :
    (SweepProgram.store thrown p).ends host.handler backend = (.ok a, { backend with server }) := by
  refine Prog.ends_tryCatch_ok ((ends_hoist_store hp).trans ?_) _
  rw [h]

/-- A program that sends no sweep command, among those that may. -/
theorem ends_hoist_sweep (p : RedisProgram α) (order : HashOrder) (server : RedisServer) :
    (p.hoist .inl : SweepProgram α).ends (RedisServer.sweep_handler order) server =
      p.ends RedisServer.handler server :=
  Prog.ends_hoist RedisServer.handler (RedisServer.sweep_handler order) (fun c => .inl c) id
    (fun _ server => server) (fun _ _ _ => rfl) (fun _ _ => rfl) (fun _ _ _ => rfl) (fun _ => rfl)
    (Prog.only_of_forall (fun {β} (_ : RedisCommand β) => trivial) p : p.Only fun _ => True) server

/-- The same of a program that sends no sweep command. -/
theorem ends_redis_store {p : RedisProgram α} {a : α} {server : RedisServer}
    (h : p.ends RedisServer.handler backend.server = (.ok a, server)) (hp : p.Timeless) :
    (RedisProgram.store thrown p).ends host.handler backend = (.ok a, { backend with server }) :=
  ends_sweep_store ((ends_hoist_sweep p _ _).trans h) hp.sweep

/-- The same of a program over the reservations. -/
theorem ends_lease_store {p : LeaseProgram α} {a : α} {leases : LeaseServer}
    (h : p.ends LeaseServer.handler backend.leases = (.ok a, leases)) (hp : p.Only LeaseCommand.Timeless) :
    p.store.ends host.handler backend = (.ok a, { backend with leases }) := by
  have hrun : ∀ {β : Type} (c : LeaseCommand β) (backend : RedisBackend), c.Timeless →
      host.handler.run (.inr (.inr c)) backend = ((LeaseServer.handler.run c backend.leases).1,
        { backend with leases := (LeaseServer.handler.run c backend.leases).2 }) := by
    intro β c backend hc
    cases c with
    | elapse => exact hc.elim
    | _ => rfl
  have hhoist := Prog.ends_hoist LeaseServer.handler host.handler (fun c => .inr (.inr c)) RedisBackend.leases
    (fun backend leases => { backend with leases }) hrun (fun _ _ => rfl) (fun _ _ _ => rfl)
    (fun _ => rfl) hp backend
  rw [h] at hhoist
  exact hhoist

/-- A write gives the hash of the device the time to live that it is asked for. -/
theorem ends_write_store {config : RedisConfig} {d : String} {state : DeviceState} {ttl_s : ℤ} (httl : ttl_s < 2^63)
    (current : Option DeviceState) :
    (((RedisProgram.write_device_state config d state ttl_s current).hoist .inl : SweepProgram Bool).hoist
        .inl).ends host.handler backend =
      (.ok true, { backend with
        server := ((RedisProgram.write_device_state config d state ttl_s current).ends RedisServer.handler
          backend.server).2
        deadlines := if ttl_s > 0 then
            backend.deadlines.insert (device_key config d) (backend.leases.now_ms + 1000 * ttl_s)
          else backend.deadlines }) := by
  -- The hash is there when its time to live is set, because it has just been written.
  have hexpire : ∀ server : RedisServer, ttl_s > 0 → (server.hashes.lookup (device_key config d)).isSome →
      ({ backend with server } : RedisBackend).deadlines_after
          (.inl (.EXPIRE (device_key config d) (toString ttl_s)) : RedisCommand Unit ⊕ SweepCommand Unit) =
        backend.deadlines.insert (device_key config d) (backend.leases.now_ms + 1000 * ttl_s) := by
    intro server hpos hsome
    unfold RedisBackend.deadlines_after
    dsimp only
    rw [Numeric.stoll_toString ⟨by omega, httl⟩]
    exact if_pos hsome
  have hwritten : ∀ server : RedisServer, ((RedisServer.execute (.HSET (device_key config d)
      (hash_fields { state with device_id := d })) server).2.hashes.lookup (device_key config d)).isSome := fun server =>
    Option.isSome_iff_exists.mpr ⟨_, AList.lookup_insert _⟩
  unfold RedisProgram.write_device_state
  by_cases hpos : ttl_s > 0
  · simp only [if_pos hpos]
    cases current with
    | none =>
      exact congrArg (fun deadlines => ((Except.ok true : Except ConversionError Bool),
        ({ backend with server := _, deadlines } : RedisBackend))) (hexpire _ hpos (hwritten _))
    | some current =>
      by_cases hcell : current.h3_cell ≠ state.h3_cell
      · simp only [if_pos hcell]
        exact congrArg (fun deadlines => ((Except.ok true : Except ConversionError Bool),
          ({ backend with server := _, deadlines } : RedisBackend))) (hexpire _ hpos (hwritten _))
      · simp only [if_neg hcell]
        exact congrArg (fun deadlines => ((Except.ok true : Except ConversionError Bool),
          ({ backend with server := _, deadlines } : RedisBackend))) (hexpire _ hpos (hwritten _))
  · simp only [if_neg hpos]
    cases current with
    | none => rfl
    | some current =>
      by_cases hcell : current.h3_cell ≠ state.h3_cell
      · simp only [if_pos hcell]
        rfl
      · simp only [if_neg hcell]
        rfl

/-- So does a compare-and-set that is accepted. -/
theorem ends_update_store {config : RedisConfig} {d : String} (hd : d ≠ "") {state : DeviceState} {ttl_s : ℤ}
    (httl : ttl_s < 2^63) {accepted : Bool} {server : RedisServer}
    (h : (RedisProgram.update_device_state_cas config d state ttl_s).ends RedisServer.handler backend.server =
      (.ok accepted, server)) :
    (RedisProgram.store thrown (RedisProgram.update_device_state_cas config d state ttl_s)).ends host.handler backend =
      (.ok accepted, { backend with
        server
        deadlines := if accepted = true ∧ ttl_s > 0 then
            backend.deadlines.insert (device_key config d) (backend.leases.now_ms + 1000 * ttl_s)
          else backend.deadlines }) := by
  refine Prog.ends_tryCatch_ok ?_ _
  unfold RedisProgram.update_device_state_cas at h ⊢
  rw [if_neg hd, Prog.bind_eq] at h ⊢
  rw [Prog.hoist_bind, Prog.hoist_bind]
  -- Reading the state changes nothing.
  obtain ⟨outcome, houtcome⟩ : ∃ outcome, (RedisProgram.get_device_state config d).ends RedisServer.handler
      backend.server = (outcome, backend.server) := ⟨_, RedisServer.ends_get_device_state _⟩
  have htimeless : (RedisProgram.get_device_state config d).Timeless := RedisProgram.timeless_get_device_state d
  have hread := @ends_hoist_store host backend _ _ htimeless.sweep
  rw [ends_hoist_sweep, houtcome] at hread
  cases outcome with
  | error e =>
    rw [Prog.ends_bind_error houtcome] at h
    cases h
  | ok current =>
    rw [Prog.ends_bind_ok houtcome] at h
    rw [Prog.ends_bind_ok hread]
    split at h
    · rename_i hnewer
      cases h
      rw [if_pos hnewer]
      rfl
    · rename_i hnewer
      obtain ⟨server', hends, -⟩ := RedisServer.ends_write_device_state config d state ttl_s current backend.server
      have hwrite := @ends_write_store host backend config d state ttl_s httl current
      rw [hends] at h hwrite
      cases h
      rw [if_neg hnewer]
      simpa using hwrite

/-- Nothing goes while no time is over. -/
theorem RedisBackend.purge_eq
    (h : ∀ key deadline_ms, backend.deadlines.lookup key = some deadline_ms → backend.leases.now_ms < deadline_ms) :
    backend.purge = backend := by
  have hnone : (backend.deadlines.keys.filter fun key =>
      (backend.deadlines.lookup key).any (· ≤ backend.leases.now_ms)) = [] := by
    refine List.filter_eq_nil_iff.mpr fun key _ hover => ?_
    obtain ⟨deadline_ms, hlookup, hle⟩ := (Option.any_eq_true _ _).mp hover
    exact absurd (h key deadline_ms hlookup) (not_lt.mpr (of_decide_eq_true hle))
  unfold RedisBackend.purge
  rw [hnone]
  rfl

end Store

namespace RedisServer

open RedisProgram

/-- The hashes of the devices hold their states. -/
structure HoldsStates (config : RedisConfig) (redis : RedisClient) (server : RedisServer) : Prop where
  no_state : ∀ d, redis.get_device_state d = none → server.hashes.lookup (device_key config d) = none
  state : ∀ d state, redis.get_device_state d = some state →
    ∃ hash, server.hashes.lookup (device_key config d) = some hash ∧ device_state_from_hash hash = .ok state

/-- So they do, and the sets hold the members of the cells. -/
structure HoldsDevices (config : RedisConfig) (redis : RedisClient) (server : RedisServer) : Prop extends
    HoldsStates config redis server where
  member : ∀ c d, (cell_key config c, d) ∈ server.sets ↔ d ∈ redis.members c
  set_key : ∀ entry ∈ server.sets, ∃ c, entry.1 = cell_key config c

variable {config : RedisConfig} {redis redis' : RedisClient} {server server' : RedisServer} {d : String}

/-- A hash that decodes has fields. -/
theorem not_isEmpty_of_decode {hash : UnorderedMap String String} {state : DeviceState}
    (h : device_state_from_hash hash = .ok state) : hash.entries.isEmpty = false := by
  cases hempty : hash.entries.isEmpty with
  | false => rfl
  | true =>
    have hnil : hash = ∅ := AList.ext (List.isEmpty_iff.mp hempty)
    rw [hnil] at h
    cases h

/-- A state is read as it is stored. -/
theorem HoldsStates.get_device_state (h : HoldsStates config redis server) (d : String) :
    (get_device_state config d).ends handler server = (.ok (redis.get_device_state d), server) := by
  rw [ends_get_device_state]
  unfold fields
  cases hstate : redis.get_device_state d with
  | none =>
    rw [h.no_state d hstate]
    rfl
  | some state =>
    obtain ⟨hash, hhash, hdecode⟩ := h.state d state hstate
    rw [hhash, Option.getD_some, not_isEmpty_of_decode hdecode, hdecode]
    rfl

/-- So are some states. -/
theorem HoldsStates.get_device_states_batch (h : HoldsStates config redis server) (ids : List String) :
    (get_device_states_batch config ids).ends handler server = (.ok (redis.get_device_states_batch ids), server) := by
  have hloop : ∀ (ids : List String) (states : List (Option DeviceState)),
      (foldEach ids states fun states device_id => do
        let state ← RedisProgram.get_device_state config device_id
        return states ++ [state]).ends handler server =
          (.ok (states ++ ids.map redis.get_device_state), server) := by
    intro ids
    induction ids with
    | nil =>
      intro states
      rw [List.map_nil, List.append_nil]
      rfl
    | cons id ids ih =>
      intro states
      rw [foldEach, Prog.bind_eq, Prog.bind_assoc, Prog.ends_bind_ok (h.get_device_state id)]
      refine (ih _).trans ?_
      rw [List.map_cons, List.append_assoc, List.singleton_append]
  exact hloop ids []

/-- The members of a cell are listed. -/
theorem HoldsDevices.set_members (h : HoldsDevices config redis server) (c : ℤ) :
    server.set_members (cell_key config c) = redis.members c := by
  ext d
  unfold RedisServer.set_members
  rw [Finset.mem_image, ← h.member]
  constructor
  · rintro ⟨⟨key, d'⟩, hentry, rfl⟩
    obtain ⟨hmem, rfl⟩ := Finset.mem_filter.mp hentry
    exact hmem
  · exact fun hmem => ⟨_, Finset.mem_filter.mpr ⟨hmem, rfl⟩, rfl⟩

/-- In whatever order the server lists them. -/
theorem HoldsDevices.get_devices_in_cell (h : HoldsDevices config redis server) (order : HashOrder) (c : ℤ) :
    (RedisProgram.get_devices_in_cell config c).ends (sweep_handler order) server =
      (.ok (order.elements (redis.members c)), server) := by
  rw [← h.set_members c]
  rfl

/-- So are those of some cells, each once. -/
theorem HoldsDevices.get_devices_in_cells (h : HoldsDevices config redis server) (order order' : HashOrder)
    (cells : List ℤ) : (RedisProgram.get_devices_in_cells config order cells).ends (sweep_handler order') server =
      (.ok (redis.get_devices_in_cells order cells), server) := by
  have hloop : ∀ (cells : List ℤ) (unique : Finset String),
      (foldEach cells unique fun unique cell => do
        let devices ← RedisProgram.get_devices_in_cell config cell
        return unique ∪ devices.toFinset).ends (sweep_handler order') server =
          (.ok (cells.foldl (fun unique cell => unique ∪ redis.members cell) unique), server) := by
    intro cells
    induction cells with
    | nil => exact fun _ => rfl
    | cons c cells ih =>
      intro unique
      rw [foldEach, Prog.bind_eq, Prog.bind_assoc, Prog.ends_bind_ok (h.get_devices_in_cell order' c)]
      refine (ih _).trans ?_
      rw [HashOrder.toFinset_elements, List.foldl_cons]
  unfold RedisProgram.get_devices_in_cells
  rw [Prog.bind_eq, Prog.ends_bind_ok (hloop cells ∅)]
  rfl

/-- The members after a device has come to a cell, and gone from the one that it was in. -/
def Comes (config : RedisConfig) (d : String) (to_cell : ℤ) (from_cell : Option ℤ)
    (sets sets' : Finset (String × String)) : Prop :=
  ∀ entry, entry ∈ sets' ↔ entry = (cell_key config to_cell, d) ∨
    entry ∈ sets ∧ ∀ cell, from_cell = some cell → cell ≠ to_cell → entry ≠ (cell_key config cell, d)

/-- What a write leaves: the hash of the device is set, and the device comes to its cell. -/
theorem ends_write_comes (config : RedisConfig) (d : String) (state : DeviceState) (ttl_s : ℤ)
    (current : Option DeviceState) (server : RedisServer) :
    ∃ server', (write_device_state config d state ttl_s current).ends handler server = (.ok true, server') ∧
      server'.hashes = server.hashes.insert (device_key config d) ((hash_fields { state with device_id := d }).foldl
        (fun hash f => hash.insert f.1 f.2) (server.fields (device_key config d))) ∧
      Comes config d state.h3_cell (current.map DeviceState.h3_cell) server.sets server'.sets := by
  unfold write_device_state
  cases current with
  | none =>
    have hcomes : Comes config d state.h3_cell none server.sets
        (insert (cell_key config state.h3_cell, d) server.sets) := fun entry => by simp
    by_cases httl : ttl_s > 0
    · simp only [if_pos httl]
      exact ⟨_, rfl, rfl, hcomes⟩
    · simp only [if_neg httl]
      exact ⟨_, rfl, rfl, hcomes⟩
  | some current =>
    by_cases hcell : current.h3_cell ≠ state.h3_cell
    · have hcomes : Comes config d state.h3_cell (some current.h3_cell) server.sets
          (insert (cell_key config state.h3_cell, d) (server.sets.erase (cell_key config current.h3_cell, d))) :=
        fun entry => by simp [hcell, and_comm]
      by_cases httl : ttl_s > 0
      · simp only [if_pos hcell, if_pos httl]
        exact ⟨_, rfl, rfl, hcomes⟩
      · simp only [if_pos hcell, if_neg httl]
        exact ⟨_, rfl, rfl, hcomes⟩
    · have hcomes : Comes config d state.h3_cell (some current.h3_cell) server.sets
          (insert (cell_key config state.h3_cell, d) server.sets) := fun entry => by simp [not_not.mp hcell]
      by_cases httl : ttl_s > 0
      · simp only [if_neg hcell, if_pos httl]
        exact ⟨_, rfl, rfl, hcomes⟩
      · simp only [if_neg hcell, if_neg httl]
        exact ⟨_, rfl, rfl, hcomes⟩

/-- A compare-and-set is accepted or rejected as in the in-memory build, and stores the same. -/
theorem HoldsDevices.update_device_state_cas (h : HoldsDevices config redis server) (hd : d ≠ "")
    {state : DeviceState} (hrange : state.InRange) (hsix : state.SixDecimals) (ttl_s : ℤ) :
    ∃ server', (update_device_state_cas config d state ttl_s).ends handler server =
        (.ok (redis.update_device_state_cas d state).1, server') ∧
      HoldsDevices config (redis.update_device_state_cas d state).2 server' ∧
      ∀ key, key ≠ device_key config d → server'.hashes.lookup key = server.hashes.lookup key := by
  unfold RedisProgram.update_device_state_cas
  rw [if_neg hd, Prog.bind_eq, Prog.ends_bind_ok (h.get_device_state d)]
  have hguard : ((redis.get_device_state d).any fun current => decide (state.seq ≤ current.seq)) =
      !(redis.update_device_state_cas d state).1 := by
    unfold RedisClient.update_device_state_cas RedisClient.get_device_state
    dsimp only
    split
    · rename_i hany
      rw [hany]
      rfl
    · rename_i hany
      exact Bool.eq_false_of_not_eq_true hany
  rw [hguard]
  cases haccepted : (redis.update_device_state_cas d state).1 with
  | false =>
    rw [redis.update_device_state_cas_rejected haccepted]
    exact ⟨server, rfl, h, fun _ _ => rfl⟩
  | true =>
    rw [if_neg (by decide)]
    obtain ⟨server', hends, hhashes, hcomes⟩ := ends_write_comes config d state ttl_s (redis.get_device_state d) server
    refine ⟨server', hends, ?_, fun key hkey => by rw [hhashes, AList.lookup_insert_ne hkey]⟩
    have hstored := redis.lookup_update_device_state_cas haccepted
    have hmembers := redis.members_update_device_state_cas haccepted
    -- The text of the state is read back as the state itself.
    have hin : { state with device_id := d }.InRange :=
      ⟨hrange.lat, hrange.lon, hrange.altitude_m, hrange.accuracy_m, hrange.speed_ms, hrange.heading_deg,
        hrange.h3_cell, hrange.seq, hrange.updated_at⟩
    have hreread : { state with device_id := d }.reread = { state with device_id := d } :=
      DeviceState.reread_eq_iff.mpr ⟨hsix.lat, hsix.lon, hsix.altitude_m, hsix.accuracy_m, hsix.speed_ms,
        hsix.heading_deg⟩
    have hdecode := device_state_from_hash_fields (server.fields (device_key config d)) hin
    rw [hreread] at hdecode
    refine ⟨⟨fun d' hnone => ?_, fun d' state' hsome => ?_⟩, fun c d' => ?_, fun entry hentry => ?_⟩
    · rw [RedisClient.get_device_state, hstored] at hnone
      split at hnone
      · cases hnone
      · rename_i hne
        rw [hhashes, AList.lookup_insert_ne fun hkey => hne (device_key_injective config hkey)]
        exact h.no_state d' hnone
    · rw [RedisClient.get_device_state, hstored] at hsome
      split at hsome
      · rename_i heq
        cases hsome
        rw [heq, hhashes]
        exact ⟨_, AList.lookup_insert _, hdecode⟩
      · rename_i hne
        rw [hhashes, AList.lookup_insert_ne fun hkey => hne (device_key_injective config hkey)]
        exact h.state d' state' hsome
    · -- The member of the new cell comes, and that of the old one goes.
      rw [hcomes, hmembers, h.member]
      simp only [ne_eq, Prod.mk.injEq, (cell_key_injective config).eq_iff]
      unfold RedisClient.get_device_state
      by_cases hc : c = state.h3_cell
      · rw [if_pos hc, Finset.mem_insert, and_iff_right hc]
        refine or_congr_right (and_iff_left fun cell _ hne heq => hne ?_)
        rw [← heq.1, hc]
      · rw [if_neg hc, or_iff_right fun heq => hc heq.1]
        cases redis.device_states.lookup d with
        | none => simp
        | some current =>
          by_cases hcc : current.h3_cell = c
          · simp [hcc, hc, and_comm]
          · simp [hcc, Ne.symm hcc]
    · rcases (hcomes entry).mp hentry with rfl | ⟨hmem, -⟩
      · exact ⟨_, rfl⟩
      · exact h.set_key entry hmem

/-- A device added to a cell. -/
theorem HoldsDevices.add_device_to_cell (h : HoldsDevices config redis server) (c : ℤ) (d : String) :
    HoldsDevices config (redis.add_device_to_cell c d)
      { server with sets := insert (cell_key config c, d) server.sets } where
  no_state := h.no_state
  state := h.state
  member c' d' := by
    rw [RedisClient.members_add, Finset.mem_insert, Prod.mk.injEq, (cell_key_injective config).eq_iff, h.member]
    by_cases hc : c' = c
    · rw [if_pos hc, Finset.mem_insert, and_iff_right hc, hc]
    · rw [if_neg hc, or_iff_right fun heq => hc heq.1]
  set_key entry hentry := by
    rcases Finset.mem_insert.mp hentry with rfl | hmem
    · exact ⟨c, rfl⟩
    · exact h.set_key entry hmem

/-- A device removed from a cell. -/
theorem HoldsDevices.remove_device_from_cell (h : HoldsDevices config redis server) (c : ℤ) (d : String) :
    HoldsDevices config (redis.remove_device_from_cell c d)
      { server with sets := server.sets.erase (cell_key config c, d) } where
  no_state d' hnone := h.no_state d' (by
    rwa [RedisClient.get_device_state, RedisClient.device_states_remove] at hnone)
  state d' state hsome := h.state d' state (by
    rwa [RedisClient.get_device_state, RedisClient.device_states_remove] at hsome)
  member c' d' := by
    rw [RedisClient.members_remove, Finset.mem_erase, ne_eq, Prod.mk.injEq, (cell_key_injective config).eq_iff,
      h.member]
    by_cases hc : c' = c
    · rw [if_pos hc, Finset.mem_erase, and_iff_right hc, hc]
    · rw [if_neg hc, and_iff_right fun heq => hc heq.1]
  set_key entry hentry := h.set_key entry (Finset.mem_of_mem_erase hentry)

section Sweep

variable (order : HashOrder)

/-- The members of some sets that have no state. -/
def strays (redis : RedisClient) (keys : List String) (server : RedisServer) : Finset (String × String) :=
  server.sets.filter fun entry => entry.1 ∈ keys ∧ redis.get_device_state entry.2 = none

/-- The server without them. -/
def without (server : RedisServer) (entries : Finset (String × String)) : RedisServer :=
  { server with sets := server.sets \ entries }

/-- The states are those of the hashes, whatever the sets are. -/
theorem HoldsStates.without (h : HoldsStates config redis server) (entries : Finset (String × String)) :
    HoldsStates config redis (server.without entries) := ⟨h.no_state, h.state⟩

@[simp] theorem without_without (server : RedisServer) (entries entries' : Finset (String × String)) :
    (server.without entries).without entries' = server.without (entries ∪ entries') := by
  unfold RedisServer.without
  rw [Finset.sdiff_sdiff_left']
  simp [Finset.sdiff_union_distrib]

/-- A member without a state is removed, and counted. -/
theorem HoldsStates.sweep_member (h : HoldsStates config redis server) {key d : String}
    (hmem : (key, d) ∈ server.sets) (removed : ℕ) :
    (RedisProgram.sweep_member config key removed d).ends (sweep_handler order) server =
      if redis.get_device_state d = none then (.ok (removed + 1), server.without {(key, d)})
      else (.ok removed, server) := by
  unfold RedisProgram.sweep_member
  rw [Prog.bind_eq, Prog.ends_bind_ok ((ends_hoist_sweep _ _ _).trans (h.get_device_state d))]
  cases redis.get_device_state d with
  | some state => rfl
  | none =>
    rw [if_pos rfl, if_pos (by rfl), Prog.bind_eq, Prog.ends_bind_perform]
    have hreply : (sweep_handler order).run (.inr (.SREM key d)) server =
        ((1 : ℕ), server.without {(key, d)}) := by
      unfold RedisServer.without
      rw [Finset.sdiff_singleton_eq_erase]
      exact Prod.ext (if_pos hmem) rfl
    rw [hreply]
    rfl

/-- The loop over some members of a set removes those without a state. -/
theorem HoldsStates.sweep_members (h : HoldsStates config redis server) (key : String) (devices : List String)
    (hnodup : devices.Nodup) (hmem : ∀ d ∈ devices, (key, d) ∈ server.sets) (removed : ℕ) :
    (foldEach devices removed (RedisProgram.sweep_member config key)).ends (sweep_handler order) server =
      (.ok (removed + (devices.filter fun d => redis.get_device_state d = none).length),
        server.without ((devices.filter fun d => redis.get_device_state d = none).toFinset.map
          ⟨fun d => (key, d), fun _ _ h => (Prod.mk.inj h).2⟩)) := by
  induction devices generalizing server removed with
  | nil =>
    unfold RedisServer.without
    simp only [List.filter_nil, List.length_nil, Nat.add_zero, List.toFinset_nil, Finset.map_empty,
      Finset.sdiff_empty]
    rfl
  | cons d devices ih =>
    obtain ⟨hnotin, hnodup⟩ := List.nodup_cons.mp hnodup
    obtain ⟨hfirst, hrest⟩ := List.forall_mem_cons.mp hmem
    by_cases hnone : redis.get_device_state d = none
    · have hturn := h.sweep_member order hfirst removed
      rw [if_pos hnone] at hturn
      have hkept : ∀ d' ∈ devices, (key, d') ∈ (server.without {(key, d)}).sets := by
        intro d' hd'
        refine Finset.mem_sdiff.mpr ⟨hrest d' hd', fun heq => hnotin ?_⟩
        rwa [(Prod.mk.inj (Finset.mem_singleton.mp heq)).2] at hd'
      rw [foldEach, Prog.ends_bind_ok hturn, ih (h.without _) hnodup hkept, without_without,
        List.filter_cons_of_pos (by simpa using hnone), List.length_cons, List.toFinset_cons, Finset.map_insert,
        Finset.insert_eq, Nat.add_assoc, Nat.add_comm 1]
      rfl
    · have hturn := h.sweep_member order hfirst removed
      rw [if_neg hnone] at hturn
      rw [foldEach, Prog.ends_bind_ok hturn, ih h hnodup hrest, List.filter_cons_of_neg (by simpa using hnone)]

/-- The turn of a set removes its members without a state, and counts them and the set. -/
theorem HoldsStates.sweep_key (h : HoldsStates config redis server) (counts : ℕ × ℕ) (key : String) :
    (RedisProgram.sweep_key config counts key).ends (sweep_handler order) server =
      (.ok (counts.1 + (strays redis [key] server).card,
        counts.2 + ((strays redis [key] server).image Prod.fst).card),
        server.without (strays redis [key] server)) := by
  let devices := order.elements (server.set_members key)
  have hdevices : ∀ d, d ∈ devices ↔ (key, d) ∈ server.sets := by
    intro d
    rw [HashOrder.mem_elements]
    simp [RedisServer.set_members]
  have hnodup : (devices.filter fun d => redis.get_device_state d = none).Nodup :=
    (order.nodup_elements _).filter _
  have hstrays : (devices.filter fun d => redis.get_device_state d = none).toFinset.map
      ⟨fun d => (key, d), fun _ _ h => (Prod.mk.inj h).2⟩ = strays redis [key] server := by
    ext ⟨key', d⟩
    unfold strays
    simp only [Finset.mem_map, List.mem_toFinset, List.mem_filter, hdevices, Finset.mem_filter,
      List.mem_singleton, decide_eq_true_eq]
    constructor
    · rintro ⟨d', ⟨hmem, hnone⟩, heq⟩
      obtain ⟨rfl, rfl⟩ := Prod.mk.inj heq
      exact ⟨hmem, rfl, hnone⟩
    · rintro ⟨hmem, rfl, hnone⟩
      exact ⟨d, ⟨hmem, hnone⟩, rfl⟩
  have hlength : (devices.filter fun d => redis.get_device_state d = none).length =
      (strays redis [key] server).card := by
    rw [← hstrays, Finset.card_map, List.toFinset_card_of_nodup hnodup]
  have hloop := h.sweep_members order key devices (order.nodup_elements _) (fun d => (hdevices d).mp) 0
  rw [hstrays, hlength, Nat.zero_add] at hloop
  unfold RedisProgram.sweep_key
  rw [Prog.bind_eq, Prog.ends_bind_perform, Prog.bind_eq]
  refine (Prog.ends_bind_ok hloop _).trans ?_
  have htouched : ∀ entry ∈ strays redis [key] server, entry.1 = key := by
    intro entry hentry
    simpa using (Finset.mem_filter.mp hentry).2.1
  rcases Finset.eq_empty_or_nonempty (strays redis [key] server) with hempty | hne
  · rw [hempty]
    rfl
  · have himage : (strays redis [key] server).image Prod.fst = {key} := by
      refine Finset.eq_singleton_iff_unique_mem.mpr ⟨?_, ?_⟩
      · obtain ⟨entry, hentry⟩ := hne
        exact Finset.mem_image.mpr ⟨entry, hentry, htouched entry hentry⟩
      · intro key' hkey'
        obtain ⟨entry, hentry, rfl⟩ := Finset.mem_image.mp hkey'
        exact htouched entry hentry
    rw [if_pos (Finset.card_pos.mpr hne), himage, Finset.card_singleton]
    rfl

/-- What has no state in some sets is what has none in the first, and then what has none in the others. -/
theorem strays_cons (key : String) (keys : List String) (server : RedisServer) :
    strays redis (key :: keys) server = strays redis [key] server ∪
      strays redis keys (server.without (strays redis [key] server)) := by
  ext entry
  simp only [strays, RedisServer.without, Finset.mem_union, Finset.mem_filter, Finset.mem_sdiff, List.mem_cons,
    List.not_mem_nil, or_false]
  tauto

/-- The first set has nothing left without a state. -/
theorem disjoint_strays (key : String) (keys : List String) (server : RedisServer) :
    ∀ entry ∈ strays redis [key] server, ∀ other ∈ strays redis keys
      (server.without (strays redis [key] server)), entry.1 ≠ other.1 := by
  intro entry hentry other hother heq
  simp only [strays, RedisServer.without, Finset.mem_filter, Finset.mem_sdiff, List.mem_cons, List.not_mem_nil,
    or_false] at hentry hother
  refine hother.1.2 ⟨hother.1.1, ?_, hother.2.2⟩
  rw [← heq, hentry.2.1]

/-- A sweep removes all members without a state of the sets whose keys it has scanned, and counts them and
the sets that had any, however often a key is scanned. -/
theorem HoldsStates.remove_stale_cell_members (h : HoldsStates config redis server) (scanned : List (List String)) :
    (RedisProgram.remove_stale_cell_members config scanned).ends (sweep_handler order) server =
      (.ok ((strays redis scanned.flatten server).card,
        ((strays redis scanned.flatten server).image Prod.fst).card),
        server.without (strays redis scanned.flatten server)) := by
  have hloop : ∀ (keys : List String) (counts : ℕ × ℕ) (server : RedisServer), HoldsStates config redis server →
      (foldEach keys counts (RedisProgram.sweep_key config)).ends (sweep_handler order) server =
        (.ok (counts.1 + (strays redis keys server).card,
          counts.2 + ((strays redis keys server).image Prod.fst).card),
          server.without (strays redis keys server)) := by
    intro keys
    induction keys with
    | nil =>
      intro counts server _
      have hnone : strays redis [] server = ∅ := Finset.filter_false_of_mem fun _ _ h => nomatch h.1
      rw [hnone]
      unfold RedisServer.without
      rw [Finset.sdiff_empty]
      rfl
    | cons key keys ih =>
      intro counts server h
      have hapart := @disjoint_strays redis key keys server
      rw [foldEach, Prog.ends_bind_ok (h.sweep_key order counts key), ih _ _ (h.without _), without_without,
        ← strays_cons, strays_cons key keys, Finset.image_union, Finset.card_union_of_disjoint,
        Finset.card_union_of_disjoint, Nat.add_assoc, Nat.add_assoc]
      · refine Finset.disjoint_left.mpr fun k hk hk' => ?_
        obtain ⟨entry, hentry, rfl⟩ := Finset.mem_image.mp hk
        obtain ⟨other, hother, heq⟩ := Finset.mem_image.mp hk'
        exact hapart entry hentry other hother heq.symm
      · exact Finset.disjoint_left.mpr fun entry hentry hother => hapart entry hentry entry hother rfl
  have hall := hloop scanned.flatten (0, 0) server h
  rwa [Nat.zero_add, Nat.zero_add] at hall

/-- The members without a state are the stale ones of the in-memory build. -/
theorem HoldsDevices.strays_eq (h : HoldsDevices config redis server) {keys : List String}
    (hkeys : ∀ entry ∈ server.sets, entry.1 ∈ keys) : strays redis keys server =
      (redis.cell_devices.keys.toFinset.sigma redis.stale).image fun m => (cell_key config m.1, m.2) := by
  ext ⟨key, d⟩
  simp only [strays, RedisClient.stale, Finset.mem_filter, Finset.mem_image, Finset.mem_sigma, Sigma.exists]
  constructor
  · rintro ⟨hmem, -, hnone⟩
    obtain ⟨c, hc⟩ := h.set_key _ hmem
    obtain rfl : key = cell_key config c := hc
    have hmember := (h.member c d).mp hmem
    have hcell := (Finset.mem_sigma.mp (RedisClient.mem_memberships.mpr hmember :
      (⟨c, d⟩ : Σ _ : ℤ, String) ∈ redis.memberships)).1
    exact ⟨c, d, ⟨hcell, hmember, Option.isSome_eq_false_iff.mpr (Option.isNone_iff_eq_none.mpr hnone)⟩, rfl⟩
  · rintro ⟨c, d', ⟨-, hmember, hnone⟩, heq⟩
    obtain ⟨rfl, rfl⟩ := Prod.mk.inj heq
    have hmem := (h.member c d').mpr hmember
    exact ⟨hmem, hkeys _ hmem, Option.isNone_iff_eq_none.mp (Option.isSome_eq_false_iff.mp hnone)⟩

/-- So it removes and counts what the in-memory build does, if every key of a cell is scanned. -/
theorem HoldsDevices.remove_stale_cell_members (h : HoldsDevices config redis server) (order' : HashOrder)
    {scanned : List (List String)} (hscanned : ∀ entry ∈ server.sets, entry.1 ∈ scanned.flatten) :
    ∃ server', (RedisProgram.remove_stale_cell_members config scanned).ends (sweep_handler order) server =
        (.ok (redis.remove_stale_cell_members order').1, server') ∧
      HoldsDevices config (redis.remove_stale_cell_members order').2 server' ∧
      server'.hashes = server.hashes := by
  have hstrays := h.strays_eq hscanned
  obtain ⟨-, -, -, ⟨hstates, -, -⟩, -⟩ := redis.sweep_exact order' order'
  have hinjective : Function.Injective fun m : Σ _ : ℤ, String => (cell_key config m.1, m.2) := by
    rintro ⟨c, d⟩ ⟨c', d'⟩ heq
    obtain ⟨hc, hd⟩ := Prod.mk.inj heq
    obtain rfl : c = c' := cell_key_injective config hc
    obtain rfl : d = d' := hd
    rfl
  have htouched : ((redis.cell_devices.keys.toFinset.sigma redis.stale).image
      fun m => (cell_key config m.1, m.2)).image Prod.fst =
        ((redis.cell_devices.keys.toFinset.sigma redis.stale).image Sigma.fst).image (cell_key config) := by
    rw [Finset.image_image, Finset.image_image]
    rfl
  have hends := h.toHoldsStates.remove_stale_cell_members order scanned
  rw [hstrays, htouched, Finset.card_image_of_injective _ hinjective,
    Finset.card_image_of_injective _ (cell_key_injective config), ← redis.counts_remove_stale order'] at hends
  refine ⟨_, hends, ⟨⟨fun d hnone => ?_, fun d state hsome => ?_⟩, fun c d => ?_, fun entry hentry => ?_⟩, rfl⟩
  · rw [RedisClient.get_device_state, hstates] at hnone
    exact h.no_state d hnone
  · rw [RedisClient.get_device_state, hstates] at hsome
    exact h.state d state hsome
  · rw [← hstrays, RedisClient.members_remove_stale, Finset.mem_filter, ← h.member]
    refine Finset.mem_sdiff.trans (and_congr_right fun hmem => ?_)
    rw [strays, Finset.mem_filter, and_iff_right hmem, and_iff_right (hscanned _ hmem)]
    exact Option.ne_none_iff_isSome
  · exact h.set_key entry (Finset.mem_sdiff.mp hentry).1

end Sweep

/-- What the two builds can both do with a record of a fence state: it has both ids, its device id has no
separator in it, and its times are `int64_t`s. -/
structure Recordable (record : FenceStateRecord) : Prop where
  device_id : record.device_id ≠ ""
  fence_id : record.fence_id ≠ ""
  cut : ':' ∉ record.device_id.toList
  entered_at_ms : -2^63 ≤ record.entered_at_ms ∧ record.entered_at_ms < 2^63
  updated_at_ms : -2^63 ≤ record.updated_at_ms ∧ record.updated_at_ms < 2^63

/-- The hashes of the fences hold the fence states. -/
structure HoldsFences (config : RedisConfig) (redis : RedisClient) (server : RedisServer) : Prop where
  no_record : ∀ d f, ':' ∉ d.toList → redis.get_fence_state_record d f = none →
    server.hashes.lookup (fence_redis_key config d f) = none
  recordable : ∀ key record, redis.fence_states.lookup key = some record →
    key = fence_key record.device_id record.fence_id ∧ Recordable record
  record : ∀ d f record, ':' ∉ d.toList → redis.get_fence_state_record d f = some record →
    ∃ hash, server.hashes.lookup (fence_redis_key config d f) = some hash ∧ Says hash record

/-- Device ids without a separator give a key to one pair only. -/
theorem fence_key_inj {d f d' f' : String} (hd : ':' ∉ d.toList) (hd' : ':' ∉ d'.toList) :
    fence_key d f = fence_key d' f' ↔ d = d' ∧ f = f' := by
  rw [fence_key_eq_iff, or_iff_left]
  rintro ⟨s, ⟨rfl, -⟩ | ⟨rfl, -⟩⟩
  · exact hd' (by simp)
  · exact hd (by simp)

/-- A record has the ids under which it is found. -/
theorem HoldsFences.ids (h : HoldsFences config redis server) {d f : String} {record : FenceStateRecord}
    (hd : ':' ∉ d.toList) (hrecord : redis.get_fence_state_record d f = some record) :
    record.device_id = d ∧ record.fence_id = f ∧ Recordable record := by
  obtain ⟨hkey, hrecordable⟩ := h.recordable _ record hrecord
  obtain ⟨hdevice, hfence⟩ := (fence_key_inj hd hrecordable.cut).mp hkey
  exact ⟨hdevice.symm, hfence.symm, hrecordable⟩

/-- A record is read as it is stored. -/
theorem HoldsFences.get_fence_state_record (h : HoldsFences config redis server) {d f : String}
    (hd : ':' ∉ d.toList) : (RedisProgram.get_fence_state_record config d f).ends handler server =
      (.ok (redis.get_fence_state_record d f), server) := by
  rw [ends_get_fence_state_record]
  unfold fields
  cases hrecord : redis.get_fence_state_record d f with
  | none =>
    rw [h.no_record d f hd hrecord]
    rfl
  | some record =>
    obtain ⟨hash, hhash, hdata⟩ := h.record d f record hd hrecord
    obtain ⟨rfl, rfl, hrecordable⟩ := h.ids hd hrecord
    have hdecode : fence_state_from_hash record.device_id record.fence_id hash = .ok record := by
      unfold fence_state_from_hash
      rw [hdata.state, hdata.entered_at_ms, hdata.updated_at_ms, Numeric.stoll_toString hrecordable.entered_at_ms,
        Numeric.stoll_toString hrecordable.updated_at_ms, fence_state_from_string_to_string]
      rfl
    rw [hhash, Option.getD_some, hdata.ne_empty, hdecode]
    rfl

/-- The entry time that is stored is that of the in-memory build. -/
theorem HoldsFences.entered_at_ms (h : HoldsFences config redis server) {d f : String} (hd : ':' ∉ d.toList)
    (state : FenceState) (timestamp_ms : ℤ) :
    (RedisProgram.entered_at_ms config d f state timestamp_ms).ends handler server =
      (.ok (redis.entered_at_after d f state timestamp_ms), server) := by
  unfold RedisProgram.entered_at_ms RedisClient.entered_at_after
  cases state with
  | OUTSIDE => rfl
  | INSIDE => rfl
  | DWELL =>
    dsimp only
    rw [Prog.bind_eq, Prog.ends_bind_ok (h.get_fence_state_record hd)]
    cases redis.get_fence_state_record d f <;> rfl

/-- The keys of fences and those of devices differ. -/
theorem fence_redis_key_ne_device_key (d f d' : String) : fence_redis_key config d f ≠ device_key config d' := by
  intro hkey
  unfold fence_redis_key device_key at hkey
  have hsuffix : "fence:" ++ d ++ ":" ++ f = "dev:" ++ d' := by
    unfold key_prefix at hkey
    split at hkey
    · exact hkey
    · exact (String.append_right_inj _).mp hkey
  have hchars := congrArg (fun s : String => s.toList.head?) hsuffix
  simp at hchars

/-- Different pairs have different keys in the Redis build, where the device ids have no separator. -/
theorem fence_redis_key_inj {d f d' f' : String} (hd : ':' ∉ d.toList) (hd' : ':' ∉ d'.toList)
    (hkey : fence_redis_key config d f = fence_redis_key config d' f') : d = d' ∧ f = f' := by
  have hparse := @parse_fence_ids_of_notMem config _ hd f
  rw [hkey, parse_fence_ids_of_notMem hd'] at hparse
  exact ⟨(Prod.mk.inj hparse).1.symm, (Prod.mk.inj hparse).2.symm⟩

/-- A fence state is set as in the in-memory build. -/
theorem HoldsFences.set_fence_state (h : HoldsFences config redis server) {call : FenceStateCall}
    (hnamed : call.Named) (hcut : ':' ∉ call.device_id.toList) (hrange : call.InRange) :
    ∃ server', (RedisProgram.set_fence_state config call.device_id call.fence_id call.state
        call.timestamp_ms).ends handler server = (.ok (), server') ∧
      HoldsFences config (redis.set_fence_state call.device_id call.fence_id call.state call.timestamp_ms) server' ∧
      server'.sets = server.sets ∧
      ∀ d, server'.hashes.lookup (device_key config d) = server.hashes.lookup (device_key config d) := by
  obtain ⟨hdevice, hfence⟩ := hnamed
  unfold RedisProgram.set_fence_state
  rw [Prog.bind_eq, Prog.ends_bind_ok (h.entered_at_ms hcut _ _), Prog.ends_perform]
  -- The entry time is that of an earlier call, of this call, or zero.
  have hentered : -2^63 ≤ redis.entered_at_after call.device_id call.fence_id call.state call.timestamp_ms ∧
      redis.entered_at_after call.device_id call.fence_id call.state call.timestamp_ms < 2^63 := by
    unfold RedisClient.entered_at_after
    cases call.state with
    | OUTSIDE => exact ⟨by norm_num, by norm_num⟩
    | INSIDE => exact hrange
    | DWELL =>
      dsimp only
      split
      · rename_i previous hprevious
        split
        · exact (h.ids hcut hprevious).2.2.entered_at_ms
        · exact hrange
      · exact hrange
  have hget : ∀ d f, ':' ∉ d.toList →
      (redis.set_fence_state call.device_id call.fence_id call.state call.timestamp_ms).get_fence_state_record d f =
        if d = call.device_id ∧ f = call.fence_id then some ⟨call.device_id, call.fence_id, call.state,
          redis.entered_at_after call.device_id call.fence_id call.state call.timestamp_ms, call.timestamp_ms⟩
        else redis.get_fence_state_record d f := by
    intro d f hd
    unfold RedisClient.get_fence_state_record
    rw [RedisClient.lookup_set_fence_state]
    exact if_congr (fence_key_inj hd hcut) rfl rfl
  refine ⟨_, rfl, ⟨fun d f hd hnone => ?_, fun key record hrecord => ?_, fun d f record hd hrecord => ?_⟩, rfl,
    fun d => AList.lookup_insert_ne (fence_redis_key_ne_device_key _ _ d).symm⟩
  · rw [hget d f hd] at hnone
    split at hnone
    · cases hnone
    · rename_i hne
      exact (AList.lookup_insert_ne fun hkey => hne (fence_redis_key_inj hd hcut hkey)).trans (h.no_record d f hd hnone)
  · rw [RedisClient.lookup_set_fence_state] at hrecord
    split at hrecord
    · rename_i hkey
      cases hrecord
      exact ⟨hkey, hdevice, hfence, hcut, hentered, hrange⟩
    · exact h.recordable key record hrecord
  · rw [hget d f hd] at hrecord
    split at hrecord
    · rename_i heq
      cases hrecord
      rw [heq.1, heq.2]
      exact ⟨_, AList.lookup_insert _, says_hash_fields _ ⟨call.device_id, call.fence_id, call.state,
        redis.entered_at_after call.device_id call.fence_id call.state call.timestamp_ms, call.timestamp_ms⟩⟩
    · rename_i hne
      obtain ⟨hash, hhash, hdata⟩ := h.record d f record hd hrecord
      exact ⟨hash, (AList.lookup_insert_ne fun hkey => hne (fence_redis_key_inj hd hcut hkey)).trans hhash, hdata⟩

/-- What a scanned key contributes to a listing. -/
def contribution (config : RedisConfig) (redis : RedisClient) (state : FenceState) (key : String) :
    Option FenceStateRecord :=
  let (d, f) := parse_fence_ids config key
  if d = "" ∨ f = "" then none
  else (redis.get_fence_state_record d f).filter fun record => record.state = state

/-- A listing is what the scanned keys contribute. -/
theorem HoldsFences.ends_list_fence_states (h : HoldsFences config redis server) (replies : List (List String))
    (state : FenceState) : (RedisProgram.list_fence_states config replies state).ends handler server =
      (.ok (replies.flatten.filterMap (contribution config redis state)), server) := by
  have hkey : ∀ records key, (RedisProgram.list_key config state records key).ends handler server =
      (.ok (records ++ (contribution config redis state key).toList), server) := by
    intro records key
    unfold RedisProgram.list_key contribution
    rcases hids : parse_fence_ids config key with ⟨d, f⟩
    dsimp only
    split
    · rw [Option.toList_none, List.append_nil]
      rfl
    · rename_i hne
      have hcut := (of_parse_fence_ids hids (not_or.mp hne).1).1
      rw [Prog.bind_eq, Prog.ends_bind_ok (h.get_fence_state_record hcut)]
      rfl
  have hloop : ∀ keys records, (foldEach keys records (RedisProgram.list_key config state)).ends handler server =
      (.ok (records ++ keys.filterMap (contribution config redis state)), server) := by
    intro keys
    induction keys with
    | nil =>
      intro records
      rw [List.filterMap_nil, List.append_nil]
      rfl
    | cons key keys ih =>
      intro records
      rw [foldEach, Prog.ends_bind_ok (hkey records key), ih, List.append_assoc, List.filterMap_cons]
      cases contribution config redis state key <;> rfl
  exact hloop replies.flatten []

/-- So the records of the in-memory build are listed, if every key of a fence is scanned. -/
theorem HoldsFences.list_fence_states (h : HoldsFences config redis server) (order : HashOrder)
    {replies : List (List String)}
    (hreplies : ∀ d f, (server.hashes.lookup (fence_redis_key config d f)).isSome →
      fence_redis_key config d f ∈ replies.flatten) (state : FenceState) :
    ∃ records, (RedisProgram.list_fence_states config replies state).ends handler server = (.ok records, server) ∧
      records.toFinset = (redis.list_fence_states order state).toFinset := by
  refine ⟨_, h.ends_list_fence_states replies state, ?_⟩
  ext record
  rw [List.mem_toFinset, List.mem_toFinset, List.mem_filterMap, RedisClient.list_fence_states, List.mem_filter,
    HashOrder.mem_values, decide_eq_true_iff]
  unfold contribution
  constructor
  · rintro ⟨key, -, hlisted⟩
    rcases hids : parse_fence_ids config key with ⟨d, f⟩
    rw [hids] at hlisted
    dsimp only at hlisted
    split at hlisted
    · cases hlisted
    · obtain ⟨hrecord, hstate⟩ := Option.filter_eq_some_iff.mp hlisted
      exact ⟨⟨_, hrecord⟩, of_decide_eq_true hstate⟩
  · rintro ⟨⟨key, hlookup⟩, rfl⟩
    -- The record is found under its own ids, and so is its hash.
    obtain ⟨rfl, hrecordable⟩ := h.recordable key record hlookup
    obtain ⟨hash, hhash, -⟩ := h.record _ _ record hrecordable.cut hlookup
    refine ⟨_, hreplies record.device_id record.fence_id (by rw [hhash]; rfl), ?_⟩
    rw [parse_fence_ids_of_notMem hrecordable.cut]
    dsimp only
    rw [if_neg (not_or.mpr ⟨hrecordable.device_id, hrecordable.fence_id⟩)]
    refine (congrArg (Option.filter _) hlookup).trans ?_
    rw [Option.filter_some, if_pos (decide_eq_true rfl)]

end RedisServer

end SignalRoute
