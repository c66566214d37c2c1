import SignalRoute.Clients.CellSweep
import SignalRoute.Clients.CellExpiry
import SignalRoute.Clients.FenceKeys
import SignalRoute.Clients.DeviceHash
import SignalRoute.Matching.RedisReservations
import SignalRoute.Interaction.Simulation

/-!
# The two builds of the Redis client

`RedisClient` (`src/common/clients/redis_client.h`) has two bodies: four maps behind a mutex, and commands
to a Redis server. Here its functions are the calls of one interface (`ClientCall`), which the maps answer
directly (`ClientCall.in_memory`) and the hiredis build by its programs (`ClientCall.program`).

Time passes between the calls, on the steady clock of the one build and on the clock of the server in the
other, and a hash to which an `EXPIRE` has given a time to live is gone when that is over
(`RedisBackend.purge`). What is up to the server, the order of the members of a set and the replies to an
iteration of `SCAN`, is a `RedisHost`. The order of a listing, and how often it names a record, is not part of
an answer: unordered sets have it from the order in which they grew.
-/

namespace SignalRoute

open Store (UnorderedMap HashOrder)
open Numeric (ConversionError stoll)
open Interaction (Prog Handler)
open Interaction.Prog (perform foldEach)

/-- The functions of `RedisClient`, and the passing of time between them. -/
inductive ClientCall : Type → Type where
  | update_device_state_cas (device_id : String) (state : DeviceState) (ttl_s : ℤ) : ClientCall Bool
  | get_device_state (device_id : String) : ClientCall (Option DeviceState)
  | get_device_states_batch (device_ids : List String) : ClientCall (List (Option DeviceState))
  | add_device_to_cell (cell_id : ℤ) (device_id : String) : ClientCall Unit
  | remove_device_from_cell (cell_id : ℤ) (device_id : String) : ClientCall Unit
  | get_devices_in_cell (cell_id : ℤ) : ClientCall (Finset String)
  | get_devices_in_cells (cells : List ℤ) : ClientCall (Finset String)
  | remove_stale_cell_members : ClientCall (ℕ × ℕ)
  | set_fence_state (call : FenceStateCall) : ClientCall Unit
  | get_fence_state (device_id fence_id : String) : ClientCall (Option FenceState)
  | get_fence_state_record (device_id fence_id : String) : ClientCall (Option FenceStateRecord)
  | list_fence_states (state : FenceState) : ClientCall (Finset FenceStateRecord)
  | try_reserve_agent (agent_id request_id : String) (ttl_ms : ℤ) : ClientCall Bool
  | release_agent (agent_id request_id : String) : ClientCall Unit
  | is_agent_reserved (agent_id : String) : ClientCall Bool
  | get_agent_reservation_holder (agent_id : String) : ClientCall (Option String)
  | elapse (ms : ℕ) : ClientCall Unit

/-- The in-memory build: the maps, and the steady clock. It takes no notice of the time to live of a state;
the end of it is kept beside the maps, where nothing reads it, so as to say that it is not reached. -/
structure MemoryBackend where
  redis : RedisClient := {}
  now_ms : ℤ
  deadlines : UnorderedMap String ℤ := ∅

/-- The end of the time to live of an accepted write, if it has one; another write leaves it as it is. -/
def MemoryBackend.deadlines_after (memory : MemoryBackend) (accepted : Bool) (device_id : String) (ttl_s : ℤ) :
    UnorderedMap String ℤ :=
  if accepted = true ∧ ttl_s > 0 then memory.deadlines.insert device_id (memory.now_ms + 1000 * ttl_s)
  else memory.deadlines

/-- A change of the maps that has an answer. -/
def MemoryBackend.answer {β : Type} (memory : MemoryBackend) (result : β × RedisClient) : β × MemoryBackend :=
  (result.1, { memory with redis := result.2 })

/-- The in-memory build answers a call. -/
def ClientCall.run (order : HashOrder) {β : Type} : ClientCall β → MemoryBackend → β × MemoryBackend
  | .update_device_state_cas device_id state ttl_s, memory =>
    let (accepted, redis) := memory.redis.update_device_state_cas device_id state
    (accepted, { memory with redis, deadlines := memory.deadlines_after accepted device_id ttl_s })
  | .get_device_state device_id, memory => (memory.redis.get_device_state device_id, memory)
  | .get_device_states_batch device_ids, memory => (memory.redis.get_device_states_batch device_ids, memory)
  | .add_device_to_cell cell_id device_id, memory =>
    memory.answer ((), memory.redis.add_device_to_cell cell_id device_id)
  | .remove_device_from_cell cell_id device_id, memory =>
    memory.answer ((), memory.redis.remove_device_from_cell cell_id device_id)
  | .get_devices_in_cell cell_id, memory => (memory.redis.members cell_id, memory)
  | .get_devices_in_cells cells, memory => ((memory.redis.get_devices_in_cells order cells).toFinset, memory)
  | .remove_stale_cell_members, memory => memory.answer (memory.redis.remove_stale_cell_members order)
  | .set_fence_state call, memory =>
    memory.answer ((), memory.redis.set_fence_state call.device_id call.fence_id call.state call.timestamp_ms)
  | .get_fence_state device_id fence_id, memory => (memory.redis.get_fence_state device_id fence_id, memory)
  | .get_fence_state_record device_id fence_id, memory =>
    (memory.redis.get_fence_state_record device_id fence_id, memory)
  | .list_fence_states state, memory => ((memory.redis.list_fence_states order state).toFinset, memory)
  | .try_reserve_agent agent_id request_id ttl_ms, memory =>
    memory.answer (memory.redis.try_reserve_agent agent_id request_id ttl_ms memory.now_ms)
  | .release_agent agent_id request_id, memory =>
    memory.answer ((), memory.redis.release_agent agent_id request_id)
  | .is_agent_reserved agent_id, memory => (memory.redis.is_agent_reserved agent_id memory.now_ms, memory)
  | .get_agent_reservation_holder agent_id, memory =>
    (memory.redis.get_agent_reservation_holder agent_id memory.now_ms, memory)
  | .elapse ms, memory => ((), { memory with now_ms := memory.now_ms + ms })

/-- One iteration of `SCAN`, with all its replies. -/
inductive ScanCommand : Type → Type where
  | SCAN (pattern : String) : ScanCommand (List (List String))

/-- The commands of the hiredis build. -/
abbrev StoreCommand (β : Type) : Type :=
  (RedisCommand β ⊕ SweepCommand β) ⊕ (ScanCommand β ⊕ LeaseCommand β)

/-- A Redis server: the hashes and sets, the reservations with the clock by which they expire, and the times
at which hashes do. -/
structure RedisBackend where
  server : RedisServer := {}
  leases : LeaseServer
  deadlines : UnorderedMap String ℤ := ∅

/-- The times to live after a command: `EXPIRE` gives one to a hash that exists, and no other command of the
client changes them. -/
def RedisBackend.deadlines_after (backend : RedisBackend) {β : Type} :
    RedisCommand β ⊕ SweepCommand β → UnorderedMap String ℤ
  | .inl (.EXPIRE key seconds) =>
    match stoll seconds with
    | .ok seconds =>
      if (backend.server.hashes.lookup key).isSome then
        backend.deadlines.insert key (backend.leases.now_ms + 1000 * seconds)
      else backend.deadlines
    | .error _ => backend.deadlines
  | _ => backend.deadlines

/-- The hashes whose time is over are gone. -/
def RedisBackend.purge (backend : RedisBackend) : RedisBackend :=
  let ended := backend.deadlines.keys.filter fun key =>
    (backend.deadlines.lookup key).any (· ≤ backend.leases.now_ms)
  { backend with
    server := { backend.server with
      hashes := ended.foldl (fun hashes key => hashes.erase key) backend.server.hashes }
    deadlines := ended.foldl (fun deadlines key => deadlines.erase key) backend.deadlines }

/-- What is up to the server: the order in which it lists a set, and its replies to an iteration of `SCAN`. -/
structure RedisHost where
  order : HashOrder
  scan : RedisServer → String → List (List String)

/-- The server executes a command. -/
def RedisHost.execute (host : RedisHost) {β : Type} : StoreCommand β → RedisBackend → β × RedisBackend
  | .inl c, backend =>
    let (reply, server) := (RedisServer.sweep_handler host.order).run c backend.server
    (reply, { backend with server, deadlines := backend.deadlines_after c })
  | .inr (.inl (.SCAN pattern)), backend => (host.scan backend.server pattern, backend)
  | .inr (.inr (.elapse ms)), backend =>
    ((), ({ backend with leases := { backend.leases with now_ms := backend.leases.now_ms + ms } }).purge)
  | .inr (.inr c), backend =>
    let (reply, leases) := LeaseServer.execute c backend.leases
    (reply, { backend with leases })

/-- The server as the handler of the commands. -/
def RedisHost.handler (host : RedisHost) : Handler StoreCommand RedisBackend := ⟨host.execute⟩

/-- A program of the client. -/
abbrev StoreProgram (α : Type) : Type 1 := Prog StoreCommand Exception α

section Programs

variable (thrown : ConversionError → Exception)

/-- A program over the hashes and sets; a failed conversion throws. -/
def SweepProgram.store {α : Type} (p : SweepProgram α) : StoreProgram α :=
  (p.hoist .inl).tryCatch fun e => .throw (thrown e)

/-- A program over the hashes and sets that sends no sweep command. -/
def RedisProgram.store {α : Type} (p : RedisProgram α) : StoreProgram α :=
  SweepProgram.store thrown (p.hoist .inl)

/-- A program over the reservations. -/
def LeaseProgram.store {α : Type} (p : LeaseProgram α) : StoreProgram α := p.hoist fun c => .inr (.inr c)

end Programs

/-- `cell_scan_pattern`. -/
def cell_scan_pattern (config : RedisConfig) : String := key_prefix config "h3:*"

namespace RedisProgram

variable (config : RedisConfig)

/-- `get_device_states_batch`. -/
def get_device_states_batch (device_ids : List String) : RedisProgram (List (Option DeviceState)) :=
  foldEach device_ids [] fun states device_id => do
    let state ← get_device_state config device_id
    return states ++ [state]

/-- `add_device_to_cell`. -/
def add_device_to_cell (cell_id : ℤ) (device_id : String) : RedisProgram Unit :=
  perform (.SADD (cell_key config cell_id) device_id)

/-- `remove_device_from_cell`. -/
def remove_device_from_cell (cell_id : ℤ) (device_id : String) : RedisProgram Unit :=
  perform (.SREM (cell_key config cell_id) device_id)

/-- `get_devices_in_cell`. -/
def get_devices_in_cell (cell_id : ℤ) : SweepProgram (List String) :=
  perform (.inr (.SMEMBERS (cell_key config cell_id)))

/-- `get_devices_in_cells`: the set of all of them, in the order that the client's set has. -/
def get_devices_in_cells (order : HashOrder) (cells : List ℤ) : SweepProgram (List String) := do
  let unique ← foldEach cells ∅ fun unique cell => do
    let devices ← get_devices_in_cell config cell
    return unique ∪ devices.toFinset
  return order.elements unique

/-- `get_fence_state`. -/
def get_fence_state (device_id fence_id : String) : RedisProgram (Option FenceState) := do
  let record ← get_fence_state_record config device_id fence_id
  return record.map FenceStateRecord.state

end RedisProgram

/-- `is_agent_reserved`. -/
def LeaseProgram.is_agent_reserved (config : RedisConfig) (agent_id : String) : LeaseProgram Bool := do
  let holder ← LeaseProgram.get_agent_reservation_holder config agent_id
  return holder.isSome

/-- The hiredis build answers a call. -/
def ClientCall.program (config : RedisConfig) (order : HashOrder) (thrown : ConversionError → Exception)
    {β : Type} : ClientCall β → StoreProgram β
  | .update_device_state_cas device_id state ttl_s =>
    (RedisProgram.update_device_state_cas config device_id state ttl_s).store thrown
  | .get_device_state device_id => (RedisProgram.get_device_state config device_id).store thrown
  | .get_device_states_batch device_ids => (RedisProgram.get_device_states_batch config device_ids).store thrown
  | .add_device_to_cell cell_id device_id =>
    (RedisProgram.add_device_to_cell config cell_id device_id).store thrown
  | .remove_device_from_cell cell_id device_id =>
    (RedisProgram.remove_device_from_cell config cell_id device_id).store thrown
  | .get_devices_in_cell cell_id => do
    let devices ← (RedisProgram.get_devices_in_cell config cell_id).store thrown
    return devices.toFinset
  | .get_devices_in_cells cells => do
    let devices ← (RedisProgram.get_devices_in_cells config order cells).store thrown
    return devices.toFinset
  | .remove_stale_cell_members => do
    let scanned ← perform (.inr (.inl (.SCAN (cell_scan_pattern config))))
    (RedisProgram.remove_stale_cell_members config scanned).store thrown
  | .set_fence_state call =>
    (RedisProgram.set_fence_state config call.device_id call.fence_id call.state call.timestamp_ms).store thrown
  | .get_fence_state device_id fence_id => (RedisProgram.get_fence_state config device_id fence_id).store thrown
  | .get_fence_state_record device_id fence_id =>
    (RedisProgram.get_fence_state_record config device_id fence_id).store thrown
  | .list_fence_states state => do
    let replies ← perform (.inr (.inl (.SCAN (fence_scan_pattern config))))
    let records ← (RedisProgram.list_fence_states config replies state).store thrown
    return records.toFinset
  | .try_reserve_agent agent_id request_id ttl_ms =>
    (LeaseProgram.try_reserve_agent config agent_id request_id ttl_ms).store
  | .release_agent agent_id request_id => (LeaseProgram.release_agent config agent_id request_id).store
  | .is_agent_reserved agent_id => (LeaseProgram.is_agent_reserved config agent_id).store
  | .get_agent_reservation_holder agent_id =>
    (LeaseProgram.get_agent_reservation_holder config agent_id).store
  | .elapse ms => perform (.inr (.inr (.elapse ms)))

end SignalRoute
