import SignalRoute.Types
import SignalRoute.Store.Unordered
import SignalRoute.Numeric.Text
import SignalRoute.Interaction.Prog

/-!
# The Redis client (hiredis build)

`src/common/clients/redis_client.cpp` with hiredis: every member function sends commands to a Redis
server, and the server executes each command as one atomic step. The server has the device hashes
and the cell sets, under keys of different forms, so that neither kind of command meets a key of the
other kind; a set without members does not exist. No command makes a hash expire: its time to live
runs by a clock that is not part of the hashes and sets (`RedisBackend.purge`, `RedisServer.expire`).

A device state is written as text and read back (`stored_HSET`), so what the server knows of a
device is the sequence number and the cell that its hash names (`RedisServer.stored`) and the cell
sets it is a member of (`RedisServer.member`). The specification of each command is what it does to
these two.
-/

namespace SignalRoute

open Store (UnorderedMap)
open Numeric (ConversionError stod stof stoll stoull)
open Interaction (Prog Handler)

/-- The field of `RedisConfig` (`config.h`) that forms the keys. -/
structure RedisConfig where
  key_prefix : String := "sr"

/-- `key_prefix`. -/
def key_prefix (config : RedisConfig) (suffix : String) : String :=
  if config.key_prefix = "" then suffix else config.key_prefix ++ ":" ++ suffix

/-- `device_key`. -/
def device_key (config : RedisConfig) (device_id : String) : String :=
  key_prefix config ("dev:" ++ device_id)

/-- `cell_key`. -/
def cell_key (config : RedisConfig) (cell_id : ℤ) : String :=
  key_prefix config ("h3:" ++ toString cell_id)

/-- The commands that `update_device_state_cas` sends, with the type of the reply that it reads. -/
inductive RedisCommand : Type → Type where
  | HGETALL (key : String) : RedisCommand (UnorderedMap String String)
  | SREM (key member : String) : RedisCommand Unit
  | HSET (key : String) (fields : List (String × String)) : RedisCommand Unit
  | EXPIRE (key seconds : String) : RedisCommand Unit
  | SADD (key member : String) : RedisCommand Unit

/-- The words of a command, as `redis_command` sends them. -/
def RedisCommand.args {β : Type} : RedisCommand β → List String
  | .HGETALL key => ["HGETALL", key]
  | .SREM key member => ["SREM", key, member]
  | .HSET key fields => "HSET" :: key :: fields.flatMap fun f => [f.1, f.2]
  | .EXPIRE key seconds => ["EXPIRE", key, seconds]
  | .SADD key member => ["SADD", key, member]

/-- What the server stores: the hashes, and the sets as pairs of a key and a member. -/
structure RedisServer where
  hashes : UnorderedMap String (UnorderedMap String String) := ∅
  sets : Finset (String × String) := ∅

/-- The fields of a hash; a key that does not exist has none. -/
def RedisServer.fields (server : RedisServer) (key : String) : UnorderedMap String String :=
  (server.hashes.lookup key).getD ∅

/-- The server executes a command. -/
def RedisServer.execute {β : Type} : RedisCommand β → RedisServer → β × RedisServer
  | .HGETALL key, server => (server.fields key, server)
  | .SREM key member, server => ((), { server with sets := server.sets.erase (key, member) })
  | .HSET key fields, server =>
    let updated := fields.foldl (fun hash f => hash.insert f.1 f.2) (server.fields key)
    ((), { server with hashes := server.hashes.insert key updated })
  | .EXPIRE _ _, server => ((), server)
  | .SADD key member, server => ((), { server with sets := insert (key, member) server.sets })

/-- The server as the handler of the commands. -/
def RedisServer.handler : Handler RedisCommand RedisServer := ⟨RedisServer.execute⟩

/-- The text of a field; a missing one is empty. -/
def field (fields : UnorderedMap String String) (name : String) : String :=
  (fields.lookup name).getD ""

/-- `device_state_from_hash`. -/
def device_state_from_hash (fields : UnorderedMap String String) :
    Except ConversionError DeviceState := do
  let device_id := field fields "device_id"
  let lat ← stod (field fields "lat")
  let lon ← stod (field fields "lon")
  let altitude_m ← stof (field fields "altitude_m")
  let accuracy_m ← stof (field fields "accuracy_m")
  let speed_ms ← stof (field fields "speed_ms")
  let heading_deg ← stof (field fields "heading_deg")
  let h3_cell ← stoll (field fields "h3_cell")
  let seq ← stoull (field fields "seq")
  let updated_at ← stoll (field fields "updated_at")
  return { device_id, lat, lon, altitude_m, accuracy_m, speed_ms, heading_deg, h3_cell, seq,
           updated_at }

/-- The fields of the `HSET` that stores a state. -/
def hash_fields (stored : DeviceState) : List (String × String) :=
  [("device_id", stored.device_id),
   ("lat", Numeric.to_string stored.lat),
   ("lon", Numeric.to_string stored.lon),
   ("altitude_m", Numeric.to_string stored.altitude_m),
   ("accuracy_m", Numeric.to_string stored.accuracy_m),
   ("speed_ms", Numeric.to_string stored.speed_ms),
   ("heading_deg", Numeric.to_string stored.heading_deg),
   ("h3_cell", toString stored.h3_cell),
   ("seq", toString stored.seq),
   ("updated_at", toString stored.updated_at)]

/-- A program of the client. -/
abbrev RedisProgram (α : Type) : Type 1 := Prog RedisCommand ConversionError α

namespace RedisProgram

open Interaction.Prog (perform ofExcept)

variable (config : RedisConfig)

/-- `get_device_state`. -/
def get_device_state (device_id : String) : RedisProgram (Option DeviceState) := do
  let fields ← perform (.HGETALL (device_key config device_id))
  if fields.entries.isEmpty then
    return none
  let state ← ofExcept (device_state_from_hash fields)
  return some state

/-- What `update_device_state_cas` does after its check, given what `get_device_state` returned. -/
def write_device_state (device_id : String) (state : DeviceState) (ttl_s : ℤ)
    (current : Option DeviceState) : RedisProgram Bool := do
  let key := device_key config device_id
  match current with
  | some current =>
    if current.h3_cell ≠ state.h3_cell then
      perform (.SREM (cell_key config current.h3_cell) device_id)
    else pure ()
  | none => pure ()
  let stored := { state with device_id }
  perform (.HSET key (hash_fields stored))
  if ttl_s > 0 then
    perform (.EXPIRE key (toString ttl_s))
  perform (.SADD (cell_key config stored.h3_cell) device_id)
  return true

/-- `update_device_state_cas`. -/
def update_device_state_cas (device_id : String) (state : DeviceState) (ttl_s : ℤ) :
    RedisProgram Bool := do
  if device_id = "" then
    return false
  let current ← get_device_state config device_id
  if current.any fun current => decide (state.seq ≤ current.seq) then
    return false
  write_device_state config device_id state ttl_s current

end RedisProgram

namespace RedisServer

variable (config : RedisConfig) (device_id : String) (server : RedisServer)

/-- What the hash of a device says: its sequence number and its cell. -/
def stored : Option (ℕ × ℤ) := do
  let fields ← server.hashes.lookup (device_key config device_id)
  let seq ← (stoull (field fields "seq")).toOption
  let cell ← (stoll (field fields "h3_cell")).toOption
  return (seq, cell)

/-- Whether the device is in the set of a cell. -/
def member (cell : ℤ) : Prop := (cell_key config cell, device_id) ∈ server.sets

instance (cell : ℤ) : Decidable (member config device_id server cell) :=
  inferInstanceAs (Decidable (_ ∈ _))

/-- Either the device has no hash, or its hash can be read. -/
def Readable : Prop :=
  server.hashes.lookup (device_key config device_id) = none ∨
    (server.stored config device_id).isSome

end RedisServer

/-- Different cells have different keys. -/
theorem cell_key_injective (config : RedisConfig) : Function.Injective (cell_key config) := by
  intro c c' h
  unfold cell_key key_prefix at h
  have h3 : "h3:" ++ toString c = "h3:" ++ toString c' := by
    split at h
    · exact h
    · exact (String.append_right_inj _).mp h
  exact Numeric.toString_int_injective ((String.append_right_inj _).mp h3)

namespace RedisServer

variable {config : RedisConfig} {device_id : String} {server : RedisServer}

/-- The two fields of a decoded hash that the compare-and-set reads. -/
theorem of_device_state_from_hash {fields : UnorderedMap String String} {state : DeviceState}
    (h : device_state_from_hash fields = .ok state) :
    stoull (field fields "seq") = .ok state.seq ∧
      stoll (field fields "h3_cell") = .ok state.h3_cell := by
  unfold device_state_from_hash at h
  obtain ⟨lat, -, h⟩ := Numeric.exists_of_bind_eq_ok h
  obtain ⟨lon, -, h⟩ := Numeric.exists_of_bind_eq_ok h
  obtain ⟨altitude, -, h⟩ := Numeric.exists_of_bind_eq_ok h
  obtain ⟨accuracy, -, h⟩ := Numeric.exists_of_bind_eq_ok h
  obtain ⟨speed, -, h⟩ := Numeric.exists_of_bind_eq_ok h
  obtain ⟨heading, -, h⟩ := Numeric.exists_of_bind_eq_ok h
  obtain ⟨cell, hcell, h⟩ := Numeric.exists_of_bind_eq_ok h
  obtain ⟨seq, hseq, h⟩ := Numeric.exists_of_bind_eq_ok h
  obtain ⟨updated, -, h⟩ := Numeric.exists_of_bind_eq_ok h
  cases h
  exact ⟨hseq, hcell⟩

/-- A hash says what its two fields convert to. -/
theorem stored_eq_some {fields : UnorderedMap String String} {seq : ℕ} {cell : ℤ}
    (hfields : server.hashes.lookup (device_key config device_id) = some fields)
    (hseq : stoull (field fields "seq") = .ok seq)
    (hcell : stoll (field fields "h3_cell") = .ok cell) :
    server.stored config device_id = some (seq, cell) := by
  unfold stored
  rw [hfields, Option.bind_eq_bind, Option.bind_some, hseq, hcell]
  rfl

/-- A device without fields says nothing. -/
theorem stored_eq_none (hempty : (server.fields (device_key config device_id)).entries.isEmpty = true) :
    server.stored config device_id = none := by
  unfold fields at hempty
  unfold stored
  cases hl : server.hashes.lookup (device_key config device_id) with
  | none => rfl
  | some fields =>
    rw [hl] at hempty
    have hnil : fields = ∅ := AList.ext (List.isEmpty_iff.mp hempty)
    subst hnil
    rfl

/-- A readable hash that has no fields is not there. -/
theorem Readable.lookup_eq_none (h : server.Readable config device_id)
    (hempty : (server.fields (device_key config device_id)).entries.isEmpty = true) :
    server.hashes.lookup (device_key config device_id) = none := by
  refine h.resolve_right fun hsome => ?_
  rw [stored_eq_none hempty] at hsome
  cases hsome

/-- A hash with fields says what they decode to. -/
theorem stored_of_device_state_from_hash {state : DeviceState}
    (hne : (server.fields (device_key config device_id)).entries.isEmpty = false)
    (hstate : device_state_from_hash (server.fields (device_key config device_id)) = .ok state) :
    server.stored config device_id = some (state.seq, state.h3_cell) := by
  obtain ⟨hseq, hcell⟩ := of_device_state_from_hash hstate
  unfold fields at hne hseq hcell
  cases hl : server.hashes.lookup (device_key config device_id) with
  | none =>
    rw [hl] at hne
    cases hne
  | some fields =>
    rw [hl] at hseq hcell
    exact stored_eq_some hl hseq hcell

/-- `HSET` of a state's fields sets each of them, whatever the hash had before. -/
theorem field_hash_fields {state : DeviceState} {f : String × String} (hf : f ∈ hash_fields state)
    (hash : UnorderedMap String String) :
    field ((hash_fields state).foldl (fun hash f => hash.insert f.1 f.2) hash) f.1 = f.2 := by
  have hnodup : ((hash_fields state).map Prod.fst).Nodup := by
    unfold hash_fields
    simp only [List.map_cons, List.map_nil]
    decide
  unfold field
  rw [Store.lookup_foldl_insert hnodup hf, Option.getD_some]

/-- After `HSET` of a state's fields the hash says the state's sequence number and its cell. -/
theorem stored_HSET (state : DeviceState) (hseq : state.seq < 2^64)
    (hcell : -2^63 ≤ state.h3_cell ∧ state.h3_cell < 2^63) :
    (execute (.HSET (device_key config device_id) (hash_fields state)) server).2.stored config
      device_id = some (state.seq, state.h3_cell) := by
  have hfields {f : String × String} (hf : f ∈ hash_fields state) :=
    field_hash_fields hf (server.fields (device_key config device_id))
  refine stored_eq_some (AList.lookup_insert _) ?_ ?_
  · exact (congrArg stoull (hfields (f := ("seq", _)) (by simp [hash_fields]))).trans
      (Numeric.stoull_toString hseq)
  · exact (congrArg stoll (hfields (f := ("h3_cell", _)) (by simp [hash_fields]))).trans
      (Numeric.stoll_toString hcell)

/-- `SREM` takes the device out of the one cell. -/
theorem member_SREM (removed cell : ℤ) :
    (execute (.SREM (cell_key config removed) device_id) server).2.member config device_id cell ↔
      cell ≠ removed ∧ server.member config device_id cell := by
  unfold member execute
  simp [(cell_key_injective config).eq_iff]

/-- `SADD` puts the device into the one cell. -/
theorem member_SADD (added cell : ℤ) :
    (execute (.SADD (cell_key config added) device_id) server).2.member config device_id cell ↔
      cell = added ∨ server.member config device_id cell := by
  unfold member execute
  simp [(cell_key_injective config).eq_iff]

end RedisServer

end SignalRoute
