import SignalRoute.Types
import SignalRoute.Store.Unordered

/-!
# The Redis client (in-memory build)

`src/common/clients/redis_client.cpp` without hiredis: four maps behind one mutex, so every member
function is one atomic step. A function that reads a clock takes the reading as an argument, and the
TTL of a device state, which this build ignores, is left out.

The cell index is a second copy of what the device states say. `Indexed` is the law between the two,
and `Indexed.update_device_state_cas` says that every accepted or rejected write keeps it; the order
of the writes never shows, since the index is determined by the states (`Indexed.ext`).
-/

namespace SignalRoute

open Store (UnorderedMap HashOrder)

/-- `RedisClient::ReservationRecord`. -/
structure ReservationRecord where
  request_id : String
  expires_at_ms : ℤ
  deriving DecidableEq

/-- `RedisClient`: the maps of the in-memory build. -/
structure RedisClient where
  device_states : UnorderedMap String DeviceState := ∅
  cell_devices : UnorderedMap ℤ (Finset String) := ∅
  fence_states : UnorderedMap String FenceStateRecord := ∅
  reservations : UnorderedMap String ReservationRecord := ∅

/-- `fence_key`. -/
def fence_key (device_id fence_id : String) : String := device_id ++ ":" ++ fence_id

/-- `reservation_expired_at`. -/
def reservation_expired_at (expires_at_ms now_ms : ℤ) : Bool := expires_at_ms ≤ now_ms

/-- The fences of one device have different keys. -/
theorem fence_key_right_inj {device_id f f' : String} :
    fence_key device_id f = fence_key device_id f' ↔ f = f' := by
  unfold fence_key
  exact String.append_right_inj _

namespace RedisClient

/-- `get_device_state`. -/
def get_device_state (redis : RedisClient) (device_id : String) : Option DeviceState :=
  redis.device_states.lookup device_id

/-- `get_device_states_batch`. -/
def get_device_states_batch (redis : RedisClient) (device_ids : List String) :
    List (Option DeviceState) :=
  device_ids.map redis.get_device_state

/-- The set of devices in a cell; a cell that is not in the map has none. -/
def members (redis : RedisClient) (cell_id : ℤ) : Finset String :=
  (redis.cell_devices.lookup cell_id).getD ∅

/-- `add_device_to_cell`. -/
def add_device_to_cell (redis : RedisClient) (cell_id : ℤ) (device_id : String) : RedisClient :=
  { redis with
    cell_devices := redis.cell_devices.insert cell_id (insert device_id (redis.members cell_id)) }

/-- `remove_device_from_cell`: a set that becomes empty goes away. -/
def remove_device_from_cell (redis : RedisClient) (cell_id : ℤ) (device_id : String) :
    RedisClient :=
  match redis.cell_devices.lookup cell_id with
  | none => redis
  | some devices =>
    { redis with
      cell_devices :=
        if devices.erase device_id = ∅ then redis.cell_devices.erase cell_id
        else redis.cell_devices.insert cell_id (devices.erase device_id) }

/-- `update_device_state_cas`. -/
def update_device_state_cas (redis : RedisClient) (device_id : String) (state : DeviceState) :
    Bool × RedisClient :=
  let it := redis.device_states.lookup device_id
  if it.any fun current => decide (state.seq ≤ current.seq) then (false, redis)
  else
    let redis :=
      match it with
      | some current =>
        if current.h3_cell ≠ state.h3_cell then
          redis.remove_device_from_cell current.h3_cell device_id
        else redis
      | none => redis
    let stored := { state with device_id }
    let redis := { redis with device_states := redis.device_states.insert device_id stored }
    (true, redis.add_device_to_cell stored.h3_cell device_id)

/-- `get_devices_in_cells`: the devices of all the cells, each once. -/
def get_devices_in_cells (redis : RedisClient) (order : HashOrder) (cells : List ℤ) :
    List String :=
  order.elements (cells.foldl (fun unique cell => unique ∪ redis.members cell) ∅)

/-- `set_fence_state`: entering stamps the entry time, dwelling keeps it. -/
def set_fence_state (redis : RedisClient) (device_id fence_id : String) (state : FenceState)
    (timestamp_ms : ℤ) : RedisClient :=
  let key := fence_key device_id fence_id
  let entered_at_ms :=
    match state with
    | .INSIDE => timestamp_ms
    | .DWELL =>
      match redis.fence_states.lookup key with
      | some previous => if previous.entered_at_ms > 0 then previous.entered_at_ms else timestamp_ms
      | none => timestamp_ms
    | .OUTSIDE => 0
  let record : FenceStateRecord :=
    { device_id, fence_id, state, entered_at_ms, updated_at_ms := timestamp_ms }
  { redis with fence_states := redis.fence_states.insert key record }

/-- `get_fence_state_record`. -/
def get_fence_state_record (redis : RedisClient) (device_id fence_id : String) :
    Option FenceStateRecord :=
  redis.fence_states.lookup (fence_key device_id fence_id)

/-- `get_fence_state`. -/
def get_fence_state (redis : RedisClient) (device_id fence_id : String) : Option FenceState :=
  (redis.get_fence_state_record device_id fence_id).map FenceStateRecord.state

/-- `list_fence_states`. -/
def list_fence_states (redis : RedisClient) (order : HashOrder) (state : FenceState) :
    List FenceStateRecord :=
  (order.values redis.fence_states).filter fun record => record.state = state

/-- `try_reserve_agent`, with the monotonic clock at `now_ms`. -/
def try_reserve_agent (redis : RedisClient) (agent_id request_id : String) (ttl_ms now_ms : ℤ) :
    Bool × RedisClient :=
  if agent_id = "" ∨ request_id = "" ∨ ttl_ms ≤ 0 then (false, redis)
  else
    match redis.reservations.lookup agent_id with
    | some record =>
      if !reservation_expired_at record.expires_at_ms now_ms then (false, redis)
      else (true, { redis with
        reservations := redis.reservations.insert agent_id ⟨request_id, now_ms + ttl_ms⟩ })
    | none => (true, { redis with
        reservations := redis.reservations.insert agent_id ⟨request_id, now_ms + ttl_ms⟩ })

/-- `release_agent`: only the holder's own reservation. -/
def release_agent (redis : RedisClient) (agent_id request_id : String) : RedisClient :=
  match redis.reservations.lookup agent_id with
  | some record =>
    if record.request_id = request_id then
      { redis with reservations := redis.reservations.erase agent_id }
    else redis
  | none => redis

/-- `get_agent_reservation_holder`, with the monotonic clock at `now_ms`. -/
def get_agent_reservation_holder (redis : RedisClient) (agent_id : String) (now_ms : ℤ) :
    Option String :=
  match redis.reservations.lookup agent_id with
  | some record =>
    if reservation_expired_at record.expires_at_ms now_ms then none else some record.request_id
  | none => none

/-- `is_agent_reserved`, with the monotonic clock at `now_ms`. -/
def is_agent_reserved (redis : RedisClient) (agent_id : String) (now_ms : ℤ) : Bool :=
  match redis.reservations.lookup agent_id with
  | some record => !reservation_expired_at record.expires_at_ms now_ms
  | none => false

section DeviceStates

variable (redis : RedisClient)

@[simp] theorem device_states_remove (c : ℤ) (d : String) :
    (redis.remove_device_from_cell c d).device_states = redis.device_states := by
  unfold remove_device_from_cell
  split <;> rfl

/-- Removing a device takes it out of the one set. -/
theorem members_remove (c : ℤ) (d : String) (c' : ℤ) :
    (redis.remove_device_from_cell c d).members c' =
      if c' = c then (redis.members c).erase d else redis.members c' := by
  unfold remove_device_from_cell members
  cases hl : redis.cell_devices.lookup c with
  | none =>
    by_cases hc : c' = c
    · subst hc
      simp [hl]
    · simp [hc]
  | some devices =>
    by_cases hc : c' = c
    · subst hc
      by_cases he : devices.erase d = ∅
      · simp [he]
      · simp [he]
    · by_cases he : devices.erase d = ∅
      · simp [he, hc]
      · simp [he, hc]

/-- Adding a device puts it into the one set. -/
theorem members_add (c : ℤ) (d : String) (c' : ℤ) :
    (redis.add_device_to_cell c d).members c' =
      if c' = c then insert d (redis.members c) else redis.members c' := by
  unfold add_device_to_cell members
  by_cases hc : c' = c
  · subst hc
    simp
  · simp [hc]

/-- A write is accepted exactly when it is newer than what is stored. -/
theorem update_device_state_cas_fst (d : String) (st : DeviceState) :
    (redis.update_device_state_cas d st).1 = true ↔
      ∀ current, redis.device_states.lookup d = some current → current.seq < st.seq := by
  unfold update_device_state_cas
  cases hl : redis.device_states.lookup d with
  | none => simp
  | some current =>
    by_cases hle : st.seq ≤ current.seq
    · simp [hle]
    · simp [hle]
      omega

/-- A rejected write changes nothing. -/
theorem update_device_state_cas_rejected {d : String} {st : DeviceState}
    (h : (redis.update_device_state_cas d st).1 = false) :
    (redis.update_device_state_cas d st).2 = redis := by
  unfold update_device_state_cas at h ⊢
  dsimp only at h ⊢
  split at h
  · rw [if_pos ‹_›]
  · cases h

/-- An accepted write is what is stored for its device, and the other devices keep theirs. -/
theorem lookup_update_device_state_cas {d : String} {st : DeviceState}
    (h : (redis.update_device_state_cas d st).1 = true) (d' : String) :
    (redis.update_device_state_cas d st).2.device_states.lookup d' =
      if d' = d then some { st with device_id := d } else redis.device_states.lookup d' := by
  unfold update_device_state_cas at h ⊢
  dsimp only at h ⊢
  split at h
  · cases h
  · rw [if_neg ‹_›]
    -- Moving the device between the cells leaves the states to the last insertion.
    have hinsert : ∀ r : RedisClient, r.device_states = redis.device_states →
        (r.device_states.insert d { st with device_id := d }).lookup d' =
          if d' = d then some { st with device_id := d } else redis.device_states.lookup d' := by
      intro r hr
      by_cases hd : d' = d
      · subst hd
        simp
      · simp [hd, hr]
    cases redis.device_states.lookup d with
    | none => exact hinsert redis rfl
    | some current =>
      refine hinsert _ ?_
      dsimp only
      split
      · exact redis.device_states_remove _ _
      · rfl

/-- A compare-and-set leaves the fence states alone. -/
@[simp] theorem fence_states_update_device_state_cas (d : String) (st : DeviceState) :
    (redis.update_device_state_cas d st).2.fence_states = redis.fence_states := by
  unfold update_device_state_cas remove_device_from_cell add_device_to_cell
  dsimp only
  split
  · rfl
  · split
    · split
      · split <;> rfl
      · rfl
    · rfl

/-- The cell sets do not depend on the device states. -/
@[simp] theorem members_device_states (states : UnorderedMap String DeviceState) (c : ℤ) :
    { redis with device_states := states }.members c = redis.members c := rfl

/-- An accepted write moves its device from the cell of its old state to the cell of its new one. -/
theorem members_update_device_state_cas {d : String} {st : DeviceState}
    (h : (redis.update_device_state_cas d st).1 = true) (c : ℤ) :
    (redis.update_device_state_cas d st).2.members c =
      if c = st.h3_cell then insert d (redis.members c)
      else if (redis.device_states.lookup d).any fun current => decide (current.h3_cell = c) then
        (redis.members c).erase d
      else redis.members c := by
  unfold update_device_state_cas at h ⊢
  dsimp only at h ⊢
  split at h
  · cases h
  clear h
  rw [if_neg ‹_›, members_add]
  -- The set of the new cell first, then that of any other cell.
  by_cases hc : c = st.h3_cell
  · subst hc
    rw [if_pos rfl, if_pos rfl, members_device_states]
    cases redis.device_states.lookup d with
    | none => rfl
    | some current =>
      by_cases hcur : current.h3_cell = st.h3_cell
      · simp [hcur]
      · simp [hcur, members_remove, Ne.symm hcur]
  · rw [if_neg hc, if_neg hc, members_device_states]
    cases redis.device_states.lookup d with
    | none => rfl
    | some current =>
      by_cases hcc : current.h3_cell = c
      · subst hcc
        simp [hc, members_remove]
      · by_cases hcur : current.h3_cell = st.h3_cell
        · simp [hcur, Ne.symm hc]
        · simp [hcur, hcc, members_remove, Ne.symm hcc]

/-- The union of cell sets, as the loop over the cells builds it. -/
theorem mem_foldl_members (cells : List ℤ) (unique : Finset String) (d : String) :
    d ∈ cells.foldl (fun unique cell => unique ∪ redis.members cell) unique ↔
      d ∈ unique ∨ ∃ cell ∈ cells, d ∈ redis.members cell := by
  induction cells generalizing unique with
  | nil => simp
  | cons cell cells ih =>
    rw [List.foldl_cons, ih, Finset.mem_union, List.exists_mem_cons_iff, or_assoc]

/-- The devices of some cells are the members of one of them. -/
theorem mem_get_devices_in_cells (order : HashOrder) (cells : List ℤ) (d : String) :
    d ∈ redis.get_devices_in_cells order cells ↔ ∃ cell ∈ cells, d ∈ redis.members cell := by
  unfold get_devices_in_cells
  rw [HashOrder.mem_elements, mem_foldl_members, or_iff_right (Finset.notMem_empty d)]

/-- No set of the index is empty. -/
def NoEmptyCell : Prop := ∀ c, redis.cell_devices.lookup c ≠ some ∅

/-- The cell index says where every device is, and nothing else. -/
structure Indexed : Prop where
  /-- A state is stored under its own device. -/
  device_id_eq : ∀ d st, redis.device_states.lookup d = some st → st.device_id = d
  /-- A device is a member of the cell of its state, and of no other. -/
  mem_iff : ∀ c d, d ∈ redis.members c ↔
    ∃ st, redis.device_states.lookup d = some st ∧ st.h3_cell = c
  no_empty : redis.NoEmptyCell

variable {redis}

/-- Adding a device leaves no set empty. -/
theorem NoEmptyCell.add (h : redis.NoEmptyCell) (c : ℤ) (d : String) :
    (redis.add_device_to_cell c d).NoEmptyCell := by
  intro c'
  unfold add_device_to_cell
  by_cases hc : c' = c
  · subst hc
    simp
  · simpa [hc] using h c'

/-- Removing a device leaves no set empty. -/
theorem NoEmptyCell.remove (h : redis.NoEmptyCell) (c : ℤ) (d : String) :
    (redis.remove_device_from_cell c d).NoEmptyCell := by
  intro c'
  unfold remove_device_from_cell
  split
  · exact h c'
  · by_cases hc : c' = c
    · subst hc
      dsimp only
      split
      · simp
      · simpa using ‹_›
    · dsimp only
      split
      · simpa [hc] using h c'
      · simpa [hc] using h c'

/-- A compare-and-set leaves no set empty. -/
theorem NoEmptyCell.update_device_state_cas (h : redis.NoEmptyCell) (d : String)
    (st : DeviceState) : (redis.update_device_state_cas d st).2.NoEmptyCell := by
  unfold RedisClient.update_device_state_cas
  dsimp only
  split
  · exact h
  refine NoEmptyCell.add ?_ _ _
  cases redis.device_states.lookup d with
  | none => exact h
  | some current =>
    dsimp only
    split
    · exact h.remove _ _
    · exact h

/-- The empty client is indexed. -/
theorem Indexed.empty : ({} : RedisClient).Indexed where
  device_id_eq _ _ h := by cases h
  mem_iff c d := by simp [members]
  no_empty c := by simp

/-- Every compare-and-set keeps the index true to the states. -/
theorem Indexed.update_device_state_cas (h : redis.Indexed) (d : String) (st : DeviceState) :
    (redis.update_device_state_cas d st).2.Indexed := by
  cases hacc : (redis.update_device_state_cas d st).1 with
  | false => rwa [redis.update_device_state_cas_rejected hacc]
  | true =>
    refine ⟨fun d' st' hl => ?_, fun c d' => ?_, h.no_empty.update_device_state_cas d st⟩
    · rw [redis.lookup_update_device_state_cas hacc] at hl
      split at hl
      · rw [← Option.some.inj hl, ‹d' = d›]
      · exact h.device_id_eq d' st' hl
    · rw [redis.members_update_device_state_cas hacc, redis.lookup_update_device_state_cas hacc]
      have hmem := h.mem_iff c d'
      by_cases hd : d' = d
      · subst hd
        rw [if_pos rfl]
        by_cases hc : c = st.h3_cell
        · simp [hc]
        · rw [if_neg hc]
          -- The device left the cell of its old state, the only one it was in.
          have hout : ¬∃ st', some { st with device_id := d' } = some st' ∧ st'.h3_cell = c := by
            rintro ⟨st', hst', rfl⟩
            exact hc (by rw [← Option.some.inj hst'])
          refine iff_of_false ?_ hout
          split
          · simp
          · rename_i hany
            rw [hmem]
            rintro ⟨current, hcur, hcc⟩
            exact hany (by simp [hcur, hcc])
      · -- The other devices stay in their sets.
        rw [if_neg hd]
        split
        · rw [Finset.mem_insert, or_iff_right hd, hmem]
        · split
          · rw [Finset.mem_erase, and_iff_right hd, hmem]
          · exact hmem

/-- The states determine the index. -/
theorem Indexed.ext {redis' : RedisClient} (h : redis.Indexed) (h' : redis'.Indexed)
    (hstates : ∀ d, redis.device_states.lookup d = redis'.device_states.lookup d) (c : ℤ) :
    redis.cell_devices.lookup c = redis'.cell_devices.lookup c := by
  have hmem : redis.members c = redis'.members c := by
    ext d
    rw [h.mem_iff, h'.mem_iff, hstates]
  have hne := h.no_empty c
  have hne' := h'.no_empty c
  unfold members at hmem
  revert hmem hne hne'
  cases redis.cell_devices.lookup c <;> cases redis'.cell_devices.lookup c <;>
    simp +contextual [eq_comm]

end DeviceStates

section FenceStates

variable (redis : RedisClient) (device_id fence_id : String)

/-- The entry time that `set_fence_state` stores. -/
def entered_at_after (state : FenceState) (timestamp_ms : ℤ) : ℤ :=
  match state with
  | .INSIDE => timestamp_ms
  | .DWELL =>
    match redis.get_fence_state_record device_id fence_id with
    | some previous => if previous.entered_at_ms > 0 then previous.entered_at_ms else timestamp_ms
    | none => timestamp_ms
  | .OUTSIDE => 0

/-- What is stored under a key after a fence state is set. -/
theorem lookup_set_fence_state (state : FenceState) (timestamp_ms : ℤ) (key : String) :
    (redis.set_fence_state device_id fence_id state timestamp_ms).fence_states.lookup key =
      if key = fence_key device_id fence_id then
        some ⟨device_id, fence_id, state,
          redis.entered_at_after device_id fence_id state timestamp_ms, timestamp_ms⟩
      else redis.fence_states.lookup key := by
  unfold set_fence_state
  by_cases hk : key = fence_key device_id fence_id
  · rw [if_pos hk, hk, AList.lookup_insert]
    rfl
  · rw [if_neg hk, AList.lookup_insert_ne hk]

/-- The fence states of a device after one of them is set. -/
theorem get_fence_state_record_set (state : FenceState) (timestamp_ms : ℤ) (f : String) :
    (redis.set_fence_state device_id fence_id state timestamp_ms).get_fence_state_record
        device_id f =
      if f = fence_id then
        some ⟨device_id, fence_id, state,
          redis.entered_at_after device_id fence_id state timestamp_ms, timestamp_ms⟩
      else redis.get_fence_state_record device_id f := by
  unfold get_fence_state_record
  rw [lookup_set_fence_state]
  by_cases hf : f = fence_id
  · rw [if_pos hf, if_pos (fence_key_right_inj.mpr hf)]
  · rw [if_neg hf, if_neg (mt fence_key_right_inj.mp hf)]

end FenceStates

section Reservations

variable {redis : RedisClient} {agent_id request_id : String} {ttl_ms now_ms : ℤ}

/-- The holder of an agent is the request of the stored reservation, until that expires. -/
theorem get_agent_reservation_holder_eq_some {r : String} :
    redis.get_agent_reservation_holder agent_id now_ms = some r ↔
      ∃ expires_at_ms, redis.reservations.lookup agent_id = some ⟨r, expires_at_ms⟩ ∧
        now_ms < expires_at_ms := by
  unfold get_agent_reservation_holder reservation_expired_at
  cases redis.reservations.lookup agent_id with
  | none => simp
  | some record =>
    obtain ⟨holder, expires_at_ms⟩ := record
    by_cases hlive : expires_at_ms ≤ now_ms
    · simp [hlive]
    · simp [hlive, lt_of_not_ge hlive]

/-- An agent is reserved when it has a holder. -/
theorem is_agent_reserved_eq : redis.is_agent_reserved agent_id now_ms =
    (redis.get_agent_reservation_holder agent_id now_ms).isSome := by
  unfold is_agent_reserved get_agent_reservation_holder
  cases redis.reservations.lookup agent_id with
  | none => rfl
  | some record =>
    dsimp only
    cases reservation_expired_at record.expires_at_ms now_ms <;> rfl

/-- A reservation succeeds exactly where its arguments are sound and the agent has no holder. -/
theorem try_reserve_agent_fst :
    (redis.try_reserve_agent agent_id request_id ttl_ms now_ms).1 = true ↔
      agent_id ≠ "" ∧ request_id ≠ "" ∧ 0 < ttl_ms ∧
        redis.get_agent_reservation_holder agent_id now_ms = none := by
  unfold try_reserve_agent get_agent_reservation_holder
  -- The arguments are checked before the record is looked up, and an expired record is no holder.
  by_cases hargs : agent_id = "" ∨ request_id = "" ∨ ttl_ms ≤ 0
  · rw [if_pos hargs]
    refine iff_of_false Bool.noConfusion ?_
    rintro ⟨ha, hr, httl, -⟩
    rcases hargs with h | h | h
    · exact ha h
    · exact hr h
    · omega
  · rw [if_neg hargs]
    rw [not_or, not_or, not_le] at hargs
    cases redis.reservations.lookup agent_id with
    | none => simpa using hargs
    | some record =>
      dsimp only
      cases reservation_expired_at record.expires_at_ms now_ms with
      | false => simp
      | true => simpa using hargs

/-- A reservation that fails changes nothing. -/
theorem try_reserve_agent_rejected
    (h : (redis.try_reserve_agent agent_id request_id ttl_ms now_ms).1 = false) :
    (redis.try_reserve_agent agent_id request_id ttl_ms now_ms).2 = redis := by
  unfold try_reserve_agent at h ⊢
  by_cases hargs : agent_id = "" ∨ request_id = "" ∨ ttl_ms ≤ 0
  · rw [if_pos hargs]
  · rw [if_neg hargs] at h ⊢
    cases hl : redis.reservations.lookup agent_id with
    | none =>
      rw [hl] at h
      cases h
    | some record =>
      rw [hl] at h
      cases hexpired : reservation_expired_at record.expires_at_ms now_ms with
      | false => simp [hexpired]
      | true => simp [hexpired] at h

/-- What is reserved after a reservation that succeeds. -/
theorem lookup_try_reserve_agent
    (h : (redis.try_reserve_agent agent_id request_id ttl_ms now_ms).1 = true) (a : String) :
    (redis.try_reserve_agent agent_id request_id ttl_ms now_ms).2.reservations.lookup a =
      if a = agent_id then some ⟨request_id, now_ms + ttl_ms⟩ else redis.reservations.lookup a := by
  have hstored : (redis.try_reserve_agent agent_id request_id ttl_ms now_ms).2.reservations =
      redis.reservations.insert agent_id ⟨request_id, now_ms + ttl_ms⟩ := by
    unfold try_reserve_agent at h ⊢
    by_cases hargs : agent_id = "" ∨ request_id = "" ∨ ttl_ms ≤ 0
    · rw [if_pos hargs] at h
      cases h
    · rw [if_neg hargs] at h ⊢
      cases hl : redis.reservations.lookup agent_id with
      | none => rfl
      | some record =>
        rw [hl] at h
        cases hexpired : reservation_expired_at record.expires_at_ms now_ms with
        | false => simp [hexpired] at h
        | true => simp [hexpired]
  rw [hstored]
  by_cases ha : a = agent_id
  · rw [if_pos ha, ha, AList.lookup_insert]
  · rw [if_neg ha, AList.lookup_insert_ne ha]

/-- What is reserved after a release: the agent no longer, if the request held it. -/
theorem lookup_release_agent (a : String) :
    (redis.release_agent agent_id request_id).reservations.lookup a =
      if a = agent_id then (redis.reservations.lookup a).filter fun record =>
        record.request_id ≠ request_id
      else redis.reservations.lookup a := by
  unfold release_agent
  by_cases ha : a = agent_id
  · subst ha
    rw [if_pos rfl]
    cases hl : redis.reservations.lookup a with
    | none =>
      dsimp only
      rw [hl]
      rfl
    | some record =>
      dsimp only
      -- `release_agent` compares the holder, and erases its own.
      by_cases hr : record.request_id = request_id
      · rw [if_pos hr, AList.lookup_erase, Option.filter_some, if_neg (by simpa using hr)]
      · rw [if_neg hr, hl, Option.filter_some, if_pos (by simpa using hr)]
  · rw [if_neg ha]
    cases redis.reservations.lookup agent_id with
    | none => rfl
    | some record =>
      dsimp only
      split
      · exact AList.lookup_erase_ne ha
      · rfl

end Reservations

end RedisClient

end SignalRoute
