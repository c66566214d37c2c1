import SignalRoute.Clients.RedisServer
import SignalRoute.Clients.FenceStates

/-!
# The fence states of the Redis build

The fence states of `src/common/clients/redis_client.cpp` with hiredis: a hash for each pair, under a key
that joins the prefix and the ids with `:`, and a listing that scans for the keys and cuts the ids out of
them again. The cut is at the first separator after the prefix, so a pair is listed under its own ids
exactly if its device id has no separator (`parse_fence_ids_fence_redis_key_iff`), and it is listed at all
only if the server takes its key for a match of the scan pattern, in which the prefix may have characters
that are special there. A scan may also name a key more than once, and the pair is then listed as often.
-/

namespace SignalRoute

open Numeric (ConversionError stoll)
open Store (UnorderedMap)
open Interaction (Prog)

/-- `fence_redis_key`. -/
def fence_redis_key (config : RedisConfig) (device_id fence_id : String) : String :=
  key_prefix config ("fence:" ++ device_id ++ ":" ++ fence_id)

/-- `fence_scan_pattern`. -/
def fence_scan_pattern (config : RedisConfig) : String := key_prefix config "fence:*"

/-- `parse_fence_ids`. -/
def parse_fence_ids (config : RedisConfig) (key : String) : String × String :=
  let start := ( key_prefix config "fence:").toList
  if start.isPrefixOf key.toList then
    let rest := key.toList.drop start.length
    match rest.dropWhile (· ≠ ':') with
    | [] => ("", "")
    | _ :: fence_id => (String.ofList (rest.takeWhile (· ≠ ':')), String.ofList fence_id)
  else ("", "")

/-- `fence_state_to_string`. -/
def fence_state_to_string : FenceState → String
  | .OUTSIDE => "OUTSIDE"
  | .INSIDE => "INSIDE"
  | .DWELL => "DWELL"

/-- `fence_state_from_string`. -/
def fence_state_from_string (s : String) : FenceState :=
  if s = "INSIDE" then .INSIDE
  else if s = "DWELL" then .DWELL
  else .OUTSIDE

/-- `fence_state_from_hash`. -/
def fence_state_from_hash (device_id fence_id : String) (fields : UnorderedMap String String) :
    Except ConversionError FenceStateRecord := do
  let entered_at_ms ← stoll (field fields "entered_at_ms")
  let updated_at_ms ← stoll (field fields "updated_at_ms")
  return { device_id, fence_id, state := fence_state_from_string (field fields "state"), entered_at_ms,
           updated_at_ms }

/-- When a device that dwells has entered: the time that is stored, if there is one. -/
def entry_time (previous : Option FenceStateRecord) (timestamp_ms : ℤ) : ℤ :=
  match previous with
  | some previous => if previous.entered_at_ms > 0 then previous.entered_at_ms else timestamp_ms
  | none => timestamp_ms

namespace RedisProgram

open Interaction.Prog (perform ofExcept forEach foldEach)

variable (config : RedisConfig)

/-- `get_fence_state_record`. -/
def get_fence_state_record (device_id fence_id : String) : RedisProgram (Option FenceStateRecord) := do
  let fields ← perform (.HGETALL (fence_redis_key config device_id fence_id))
  if fields.entries.isEmpty then
    return none
  let record ← ofExcept (fence_state_from_hash device_id fence_id fields)
  return some record

/-- The entry time that `set_fence_state` stores. -/
def entered_at_ms (device_id fence_id : String) (state : FenceState) (timestamp_ms : ℤ) : RedisProgram ℤ :=
  match state with
  | .INSIDE => return timestamp_ms
  | .DWELL => do
    let previous ← get_fence_state_record config device_id fence_id
    return entry_time previous timestamp_ms
  | .OUTSIDE => return 0

/-- The fields of the `HSET` that stores a fence state. -/
def fence_hash_fields (state : FenceState) (entered_at_ms timestamp_ms : ℤ) : List (String × String) :=
  [("state", fence_state_to_string state),
   ("entered_at_ms", toString entered_at_ms),
   ("updated_at_ms", toString timestamp_ms)]

/-- `set_fence_state`. -/
def set_fence_state (device_id fence_id : String) (state : FenceState) (timestamp_ms : ℤ) :
    RedisProgram Unit := do
  let entered_at_ms ← entered_at_ms config device_id fence_id state timestamp_ms
  perform (.HSET (fence_redis_key config device_id fence_id)
    (fence_hash_fields state entered_at_ms timestamp_ms))

/-- What `list_fence_states` does with a key that a reply names. -/
def list_key (state : FenceState) (records : List FenceStateRecord) (key : String) :
    RedisProgram (List FenceStateRecord) :=
  let (device_id, fence_id) := parse_fence_ids config key
  if device_id = "" ∨ fence_id = "" then return records
  else do
    let record ← get_fence_state_record config device_id fence_id
    return records ++ (record.filter fun record => record.state = state).toList

/-- `list_fence_states`, for the replies to its `SCAN`s. The cursor means nothing to the client, which goes
on until it is zero again. -/
def list_fence_states (replies : List (List String)) (state : FenceState) :
    RedisProgram (List FenceStateRecord) :=
  foldEach replies.flatten [] (list_key config state)

/-- A run of calls. -/
def set_fence_states (calls : List FenceStateCall) : RedisProgram Unit :=
  forEach calls fun call => set_fence_state config call.device_id call.fence_id call.state call.timestamp_ms

end RedisProgram

/-- The keys of the server. -/
def RedisServer.keys (server : RedisServer) : Finset String :=
  server.hashes.keys.toFinset ∪ server.sets.image Prod.fst

/-- The replies of one iteration of `SCAN` while nothing is written: every key that matches the pattern is
in one of them, and may be in more. How the server matches is up to it. -/
def RedisServer.Scans (glob : String → String → Bool) (server : RedisServer) (pattern : String)
    (replies : List (List String)) : Prop :=
  ∀ key, key ∈ replies.flatten ↔ key ∈ server.keys ∧ glob pattern key = true

section Keys

variable {config : RedisConfig} {d f : String}

/-- The prefix comes before everything else. -/
theorem key_prefix_append (config : RedisConfig) (a b : String) :
    key_prefix config (a ++ b) = key_prefix config a ++ b := by
  unfold key_prefix
  split
  · rfl
  · exact String.append_assoc.symm

/-- A key is the prefix of all keys of fences, the device id, a separator, and the fence id. -/
theorem toList_fence_redis_key (config : RedisConfig) (d f : String) : (fence_redis_key config d f).toList =
    ( key_prefix config "fence:").toList ++ (d.toList ++ ':' :: f.toList) := by
  have happend : "fence:" ++ d ++ ":" ++ f = "fence:" ++ (d ++ ":" ++ f) := by
    rw [String.append_assoc, String.append_assoc, String.append_assoc]
  unfold fence_redis_key
  rw [happend, key_prefix_append]
  simp

/-- What is cut out of a key. -/
theorem parse_fence_ids_fence_redis_key (config : RedisConfig) (d f : String) :
    parse_fence_ids config (fence_redis_key config d f) =
      match (d.toList ++ ':' :: f.toList).dropWhile (· ≠ ':') with
      | [] => ("", "")
      | _ :: fence_id => (String.ofList ((d.toList ++ ':' :: f.toList).takeWhile (· ≠ ':')),
          String.ofList fence_id) := by
  unfold parse_fence_ids
  dsimp only
  rw [toList_fence_redis_key, if_pos (List.isPrefixOf_iff_prefix.mpr (List.prefix_append _ _)),
    List.drop_left]

/-- A device id without a separator comes back with its fence id. -/
theorem parse_fence_ids_of_notMem (hd : ':' ∉ d.toList) (f : String) :
    parse_fence_ids config (fence_redis_key config d f) = (d, f) := by
  have hpos : ∀ c ∈ d.toList, decide (c ≠ ':') = true := fun c hc =>
    decide_eq_true fun heq => hd (heq ▸ hc)
  rw [parse_fence_ids_fence_redis_key, List.dropWhile_append_of_pos hpos, List.takeWhile_append_of_pos hpos,
    List.dropWhile_cons_of_neg (by decide), List.takeWhile_cons_of_neg (by decide), List.append_nil]
  dsimp only
  rw [String.ofList_toList, String.ofList_toList]

/-- A device id that is cut out of a key has no separator in it, and the key is that of the pair. -/
theorem of_parse_fence_ids {key : String} (h : parse_fence_ids config key = (d, f)) (hd : d ≠ "") :
    ':' ∉ d.toList ∧ key = fence_redis_key config d f := by
  unfold parse_fence_ids at h
  dsimp only at h
  split at h
  · rename_i hstart
    obtain ⟨rest, hrest⟩ := List.isPrefixOf_iff_prefix.mp hstart
    rw [← hrest, List.drop_left] at h
    have hsplit : rest.takeWhile (fun c => decide (c ≠ ':')) ++ rest.dropWhile (fun c => decide (c ≠ ':')) =
        rest := List.takeWhile_append_dropWhile
    split at h
    · cases h
      exact absurd rfl hd
    · rename_i c fence_id hcut
      cases h
      have hc : c = ':' := by
        have hne : rest.dropWhile (fun c => decide (c ≠ ':')) ≠ [] := hcut ▸ List.cons_ne_nil c fence_id
        have hhead := List.head_dropWhile_not (fun c => decide (c ≠ ':')) hne
        simp only [hcut, List.head_cons] at hhead
        simpa using hhead
      refine ⟨fun hmem => ?_, ?_⟩
      · rw [String.toList_ofList] at hmem
        simpa using List.mem_takeWhile_imp hmem
      · rw [← String.toList_inj, toList_fence_redis_key, ← hrest, String.toList_ofList, String.toList_ofList]
        conv_lhs => rw [← hsplit, hcut, hc]
  · cases h
    exact absurd rfl hd

/-- A pair comes back from its key exactly if its device id has no separator. -/
theorem parse_fence_ids_fence_redis_key_iff (config : RedisConfig) (d f : String) :
    parse_fence_ids config (fence_redis_key config d f) = (d, f) ↔ ':' ∉ d.toList := by
  refine ⟨fun h => ?_, fun hd => parse_fence_ids_of_notMem hd f⟩
  by_cases hd : d = ""
  · rw [hd]
    exact List.not_mem_nil
  · exact (of_parse_fence_ids h hd).1

end Keys

/-- The key of the pair whose state is set. -/
def FenceStateCall.key (config : RedisConfig) (call : FenceStateCall) : String :=
  fence_redis_key config call.device_id call.fence_id

/-- Both ids of a call are there. -/
def FenceStateCall.Named (call : FenceStateCall) : Prop := call.device_id ≠ "" ∧ call.fence_id ≠ ""

/-- The record that a call sets, after the one that was set before. -/
def FenceStateCall.record (call : FenceStateCall) (previous : Option FenceStateRecord) : FenceStateRecord where
  device_id := call.device_id
  fence_id := call.fence_id
  state := call.state
  entered_at_ms :=
    match call.state with
    | .INSIDE => call.timestamp_ms
    | .DWELL => entry_time previous call.timestamp_ms
    | .OUTSIDE => 0
  updated_at_ms := call.timestamp_ms

/-- The record that the last of some calls has set, if there was one. -/
def recorded (some_calls : FenceStateCall → Prop) [DecidablePred some_calls] (calls : List FenceStateCall) :
    Option FenceStateRecord :=
  calls.foldl (fun previous call => if some_calls call then some (call.record previous) else previous) none

/-- The record that was last set for a pair. -/
def last_record (calls : List FenceStateCall) (pair : String × String) : Option FenceStateRecord :=
  recorded (fun call => call.pair = pair) calls

section Records

variable {some_calls other_calls : FenceStateCall → Prop} [DecidablePred some_calls] [DecidablePred other_calls]
  {calls : List FenceStateCall} {record : FenceStateRecord}

/-- One more call. -/
theorem recorded_concat (calls : List FenceStateCall) (call : FenceStateCall) :
    recorded some_calls (calls ++ [call]) =
      if some_calls call then some (call.record (recorded some_calls calls)) else recorded some_calls calls := by
  unfold recorded
  rw [List.foldl_append]
  rfl

/-- It is the same record if the calls are the same. -/
theorem recorded_congr (h : ∀ call ∈ calls, some_calls call ↔ other_calls call) :
    recorded some_calls calls = recorded other_calls calls := by
  induction calls using List.reverseRecOn with
  | nil => rfl
  | append_singleton calls call ih =>
    rw [recorded_concat, recorded_concat, ih fun c hc => h c (List.mem_append_left _ hc)]
    simp only [h call (List.mem_append_right _ (List.mem_singleton.mpr rfl))]

/-- There is a record if there was such a call. -/
theorem recorded_isSome_iff : (recorded some_calls calls).isSome ↔ ∃ call ∈ calls, some_calls call := by
  induction calls using List.reverseRecOn with
  | nil => simp [recorded]
  | append_singleton calls call ih =>
    rw [recorded_concat]
    by_cases hcall : some_calls call
    · rw [if_pos hcall]
      exact iff_of_true rfl ⟨call, List.mem_append_right _ (List.mem_singleton.mpr rfl), hcall⟩
    · rw [if_neg hcall, ih]
      constructor
      · rintro ⟨c, hc, hsome⟩
        exact ⟨c, List.mem_append_left _ hc, hsome⟩
      · rintro ⟨c, hc, hsome⟩
        refine ⟨c, (List.mem_append.mp hc).resolve_right fun hlast => hcall ?_, hsome⟩
        rwa [← List.mem_singleton.mp hlast]

/-- The ids of the record that was last set for a pair are the pair. -/
theorem ids_of_last_record {pair : String × String} (h : last_record calls pair = some record) :
    (record.device_id, record.fence_id) = pair := by
  induction calls using List.reverseRecOn with
  | nil => cases h
  | append_singleton calls call ih =>
    unfold last_record at h ih
    rw [recorded_concat] at h
    split at h
    · cases h
      exact ‹call.pair = pair›
    · exact ih h

/-- The time of a call is an `int64_t`. -/
def FenceStateCall.InRange (call : FenceStateCall) : Prop :=
  -2^63 ≤ call.timestamp_ms ∧ call.timestamp_ms < 2^63

theorem range_of_entry_time {previous : Option FenceStateRecord} {timestamp_ms : ℤ}
    (hprevious : ∀ p, previous = some p → -2^63 ≤ p.entered_at_ms ∧ p.entered_at_ms < 2^63)
    (htime : -2^63 ≤ timestamp_ms ∧ timestamp_ms < 2^63) :
    -2^63 ≤ entry_time previous timestamp_ms ∧ entry_time previous timestamp_ms < 2^63 := by
  unfold entry_time
  split
  · split
    · exact hprevious _ rfl
    · exact htime
  · exact htime

/-- So are the times of a record. -/
theorem range_of_recorded (hrange : ∀ call ∈ calls, call.InRange) (h : recorded some_calls calls = some record) :
    (-2^63 ≤ record.entered_at_ms ∧ record.entered_at_ms < 2^63) ∧
      (-2^63 ≤ record.updated_at_ms ∧ record.updated_at_ms < 2^63) := by
  induction calls using List.reverseRecOn generalizing record with
  | nil => cases h
  | append_singleton calls call ih =>
    have hearlier := fun r => @ih r fun c hc => hrange c (List.mem_append_left _ hc)
    have hcall : call.InRange := hrange call (List.mem_append_right _ (List.mem_singleton.mpr rfl))
    rw [recorded_concat] at h
    split at h
    · cases h
      refine ⟨?_, hcall⟩
      unfold FenceStateCall.record
      dsimp only
      cases call.state with
      | OUTSIDE => exact ⟨by norm_num, by norm_num⟩
      | INSIDE => exact hcall
      | DWELL => exact range_of_entry_time (fun p hp => (hearlier p hp).1) hcall
    · exact hearlier record h

end Records

namespace RedisServer

open RedisProgram

variable {config : RedisConfig} {start server : RedisServer} {calls : List FenceStateCall}

/-- A hash has the fields of a record. -/
structure Says (hash : UnorderedMap String String) (record : FenceStateRecord) : Prop where
  state : field hash "state" = fence_state_to_string record.state
  entered_at_ms : field hash "entered_at_ms" = toString record.entered_at_ms
  updated_at_ms : field hash "updated_at_ms" = toString record.updated_at_ms

/-- The name of a state is read back. -/
theorem fence_state_from_string_to_string (state : FenceState) :
    fence_state_from_string (fence_state_to_string state) = state := by
  cases state <;> rfl

/-- A hash that says something has fields. -/
theorem Says.ne_empty {hash : UnorderedMap String String} {record : FenceStateRecord} (h : Says hash record) :
    hash.entries.isEmpty = false := by
  rw [Bool.eq_false_iff]
  intro hempty
  obtain rfl : hash = ∅ := AList.ext (List.isEmpty_iff.mp hempty)
  have hstate := h.state
  revert hstate
  cases record.state <;> decide

/-- `HSET` of a record's fields makes the hash say it, whatever it said before. -/
theorem says_hash_fields (hash : UnorderedMap String String) (record : FenceStateRecord) :
    Says ((fence_hash_fields record.state record.entered_at_ms record.updated_at_ms).foldl
      (fun hash f => hash.insert f.1 f.2) hash) record where
  state := by simp [fence_hash_fields, field]
  entered_at_ms := by simp [fence_hash_fields, field]
  updated_at_ms := by simp [fence_hash_fields, field]

/-- The record that the hash of a pair says, after some calls: the last one that was set under its key. -/
def said (config : RedisConfig) (calls : List FenceStateCall) (d f : String) : Option FenceStateRecord :=
  recorded (fun call => call.key config = fence_redis_key config d f) calls

/-- The server has no key of a fence. -/
def FreeOfFences (config : RedisConfig) (server : RedisServer) : Prop :=
  ∀ key ∈ server.keys, ¬( key_prefix config "fence:").toList <+: key.toList

/-- What the server has after some calls, if it had no key of a fence: the hashes say the records, and the
keys are those from before and those of the calls. -/
structure Holds (config : RedisConfig) (start server : RedisServer) (calls : List FenceStateCall) : Prop where
  absent : ∀ d f, said config calls d f = none → server.hashes.lookup (fence_redis_key config d f) = none
  present : ∀ d f record, said config calls d f = some record →
    ∃ hash, server.hashes.lookup (fence_redis_key config d f) = some hash ∧ Says hash record
  mem_keys : ∀ key, key ∈ server.keys ↔ key ∈ start.keys ∨ ∃ call ∈ calls, key = call.key config

/-- Before the calls. -/
theorem FreeOfFences.holds (h : start.FreeOfFences config) : Holds config start start [] where
  absent d f _ := by
    by_contra hsome
    obtain ⟨hash, hhash⟩ := Option.ne_none_iff_exists'.mp hsome
    have hkey : fence_redis_key config d f ∈ start.keys := by
      refine Finset.mem_union_left _ (List.mem_toFinset.mpr ?_)
      exact AList.lookup_isSome.mp (hhash ▸ rfl)
    refine h _ hkey ?_
    rw [toList_fence_redis_key]
    exact List.prefix_append _ _
  present d f record hsaid := by cases hsaid
  mem_keys key := by simp

/-- What is read of a pair is what its hash decodes to, if it has fields. -/
theorem ends_get_fence_state_record (server : RedisServer) (d f : String) :
    (get_fence_state_record config d f).ends handler server =
      (if (server.fields (fence_redis_key config d f)).entries.isEmpty then .ok none
        else (fence_state_from_hash d f (server.fields (fence_redis_key config d f))).map some, server) := by
  have hrun : handler.run (.HGETALL (fence_redis_key config d f)) server =
      (server.fields (fence_redis_key config d f), server) := rfl
  unfold get_fence_state_record
  rw [Prog.bind_eq, Prog.ends_bind_perform]
  simp only [hrun]
  generalize server.fields (fence_redis_key config d f) = fields
  split
  · rfl
  · cases fence_state_from_hash d f fields <;> rfl

/-- So it is the record that the hash says, under the ids of the pair. -/
theorem Holds.get_fence_state_record (h : Holds config start server calls)
    (hrange : ∀ call ∈ calls, call.InRange) (d f : String) :
    (get_fence_state_record config d f).ends handler server =
      (.ok ((said config calls d f).map fun record => { record with device_id := d, fence_id := f }), server) := by
  rw [ends_get_fence_state_record]
  unfold fields
  cases hsaid : said config calls d f with
  | none =>
    rw [h.absent d f hsaid]
    rfl
  | some record =>
    obtain ⟨hash, hhash, hfields⟩ := h.present d f record hsaid
    obtain ⟨hentered, hupdated⟩ := range_of_recorded hrange hsaid
    have hdecode : fence_state_from_hash d f hash = .ok { record with device_id := d, fence_id := f } := by
      unfold fence_state_from_hash
      rw [hfields.state, hfields.entered_at_ms, hfields.updated_at_ms, Numeric.stoll_toString hentered,
        Numeric.stoll_toString hupdated, fence_state_from_string_to_string]
      rfl
    rw [hhash, Option.getD_some, hfields.ne_empty, hdecode]
    rfl

/-- The keys after an `HSET`. -/
theorem mem_keys_HSET {key k : String} {fields : List (String × String)} :
    k ∈ (execute (.HSET key fields) server).2.keys ↔ k = key ∨ k ∈ server.keys := by
  unfold keys execute
  dsimp only
  rw [Finset.mem_union, Finset.mem_union, List.mem_toFinset, List.mem_toFinset, AList.mem_keys.symm,
    AList.mem_keys.symm, AList.mem_insert, or_assoc]

/-- The entry time that a call stores is that of its record. -/
theorem Holds.entered_at_ms (h : Holds config start server calls) (hrange : ∀ call ∈ calls, call.InRange)
    (call : FenceStateCall) :
    (entered_at_ms config call.device_id call.fence_id call.state call.timestamp_ms).ends handler server =
      (.ok (call.record (said config calls call.device_id call.fence_id)).entered_at_ms, server) := by
  unfold RedisProgram.entered_at_ms FenceStateCall.record
  cases call.state with
  | OUTSIDE => rfl
  | INSIDE => rfl
  | DWELL =>
    dsimp only
    rw [Prog.bind_eq, Prog.ends_bind_ok (h.get_fence_state_record hrange _ _)]
    cases said config calls call.device_id call.fence_id <;> rfl

/-- A call adds its record, under its key. -/
theorem Holds.set_fence_state (h : Holds config start server calls) (hrange : ∀ call ∈ calls, call.InRange)
    (call : FenceStateCall) :
    ∃ server', (set_fence_state config call.device_id call.fence_id call.state call.timestamp_ms).ends handler
        server = (.ok (), server') ∧ Holds config start server' (calls ++ [call]) := by
  unfold RedisProgram.set_fence_state
  rw [Prog.bind_eq, Prog.ends_bind_ok (h.entered_at_ms hrange call), Prog.ends_perform]
  refine ⟨_, rfl, fun d f hsaid => ?_, fun d f record hsaid => ?_, fun key => ?_⟩
  · unfold said at hsaid
    rw [recorded_concat] at hsaid
    split at hsaid
    · cases hsaid
    · rename_i hkey
      exact (AList.lookup_insert_ne (Ne.symm hkey)).trans (h.absent d f hsaid)
  · unfold said at hsaid
    rw [recorded_concat] at hsaid
    split at hsaid
    · -- The hash is that of the call, and the records before are those under its key.
      rename_i hkey
      cases hsaid
      rw [← hkey]
      exact ⟨_, AList.lookup_insert _, says_hash_fields _ _⟩
    · rename_i hkey
      obtain ⟨hash, hhash, hfields⟩ := h.present d f record hsaid
      exact ⟨hash, (AList.lookup_insert_ne (Ne.symm hkey)).trans hhash, hfields⟩
  · refine mem_keys_HSET.trans ?_
    rw [h.mem_keys, or_left_comm]
    refine or_congr_right ?_
    simp only [List.mem_append, List.mem_singleton, or_and_right, exists_or, exists_eq_left]
    exact or_comm

/-- So does a run of calls. -/
theorem Holds.set_fence_states (h : Holds config start server calls) (hrange : ∀ call ∈ calls, call.InRange)
    {more : List FenceStateCall} (hmore : ∀ call ∈ more, call.InRange) :
    ∃ server', (set_fence_states config more).ends handler server = (.ok (), server') ∧
      Holds config start server' (calls ++ more) := by
  unfold RedisProgram.set_fence_states
  induction more generalizing server calls with
  | nil => exact ⟨server, rfl, by rwa [List.append_nil]⟩
  | cons call more ih =>
    obtain ⟨hcall, hmore⟩ := List.forall_mem_cons.mp hmore
    obtain ⟨server₁, hset, h₁⟩ := h.set_fence_state hrange call
    obtain ⟨server', hrest, h'⟩ := ih h₁ (List.forall_mem_append.mpr ⟨hrange, by simpa using hcall⟩) hmore
    refine ⟨server', ?_, by rwa [List.append_assoc, List.singleton_append] at h'⟩
    rw [Prog.forEach, Prog.ends_bind_ok hset]
    exact hrest

/-- What a key contributes to a listing. -/
def listed (config : RedisConfig) (calls : List FenceStateCall) (state : FenceState) (key : String) :
    Option FenceStateRecord :=
  let (d, f) := parse_fence_ids config key
  if d = "" ∨ f = "" then none
  else ((said config calls d f).map fun record => { record with device_id := d, fence_id := f }).filter
    fun record => record.state = state

/-- A listing is what its keys contribute. -/
theorem Holds.list_fence_states (h : Holds config start server calls) (hrange : ∀ call ∈ calls, call.InRange)
    (replies : List (List String)) (state : FenceState) :
    (list_fence_states config replies state).ends handler server =
      (.ok (replies.flatten.filterMap (listed config calls state)), server) := by
  have hkey : ∀ records key, (list_key config state records key).ends handler server =
      (.ok (records ++ (listed config calls state key).toList), server) := by
    intro records key
    unfold list_key listed
    dsimp only
    split
    · rw [Option.toList_none, List.append_nil]
      rfl
    · rw [Prog.bind_eq, Prog.ends_bind_ok (h.get_fence_state_record hrange _ _)]
      rfl
  have hfold : ∀ keys records, (Prog.foldEach keys records (list_key config state)).ends handler server =
      (.ok (records ++ keys.filterMap (listed config calls state)), server) := by
    intro keys
    induction keys with
    | nil =>
      intro records
      rw [List.filterMap_nil, List.append_nil]
      rfl
    | cons key keys ih =>
      intro records
      rw [Prog.foldEach, Prog.ends_bind_ok (hkey records key), ih, List.append_assoc, List.filterMap_cons]
      cases listed config calls state key <;> rfl
  exact hfold replies.flatten []

/-- What a key contributes has the ids that are cut out of it, and the key is that of these ids. -/
theorem of_listed {state : FenceState} {key : String} {record : FenceStateRecord}
    (h : listed config calls state key = some record) :
    record.state = state ∧ ':' ∉ record.device_id.toList ∧
      key = fence_redis_key config record.device_id record.fence_id ∧
      ∃ said_record, said config calls record.device_id record.fence_id = some said_record ∧
        record = { said_record with device_id := record.device_id, fence_id := record.fence_id } := by
  unfold listed at h
  rcases hids : parse_fence_ids config key with ⟨d, f⟩
  rw [hids] at h
  dsimp only at h
  split at h
  · cases h
  · rename_i hne
    obtain ⟨hcut, hkey⟩ := of_parse_fence_ids hids (not_or.mp hne).1
    rw [Option.filter_eq_some_iff, Option.map_eq_some_iff] at h
    obtain ⟨⟨said_record, hsaid, rfl⟩, hstate⟩ := h
    exact ⟨of_decide_eq_true hstate, hcut, hkey, said_record, hsaid, rfl⟩

/-- A pair whose device id has no separator, and that has both ids, contributes its record. -/
theorem listed_fence_redis_key {d f : String} (hcut : ':' ∉ d.toList) (hd : d ≠ "") (hf : f ≠ "")
    {record : FenceStateRecord} (hsaid : said config calls d f = some record) :
    listed config calls record.state (fence_redis_key config d f) =
      some { record with device_id := d, fence_id := f } := by
  unfold listed
  rw [parse_fence_ids_of_notMem hcut]
  dsimp only
  rw [if_neg (not_or.mpr ⟨hd, hf⟩), hsaid, Option.map_some, Option.filter_some, if_pos (decide_eq_true rfl)]

/-- A listing of the server, after some calls, has the records that were last set with the state, each once. -/
def ListsExactly (config : RedisConfig) (replies : List (List String)) (server : RedisServer)
    (calls : List FenceStateCall) : Prop :=
  ∀ state, ∃ records, (list_fence_states config replies state).ends handler server = (.ok records, server) ∧
    records.Nodup ∧
    ∀ record, record ∈ records ↔ record.state = state ∧ ∃ pair, last_record calls pair = some record

/-- Every key of the calls is cut where it was joined, and the server takes it for a match. -/
def Separable (glob : String → String → Bool) (config : RedisConfig) (calls : List FenceStateCall) : Prop :=
  ∀ call ∈ calls, ':' ∉ call.device_id.toList ∧ glob (fence_scan_pattern config) (call.key config) = true

/-- The replies name the key of no call twice. -/
def NamedOnce (config : RedisConfig) (replies : List (List String)) (calls : List FenceStateCall) : Prop :=
  ∀ call ∈ calls, replies.flatten.count (call.key config) ≤ 1

/-- Each record is listed at most as often as its key is named. -/
theorem nodup_listed {replies : List (List String)} (honce : NamedOnce config replies calls) (state : FenceState) :
    (replies.flatten.filterMap (listed config calls state)).Nodup := by
  rw [List.nodup_iff_count_le_one]
  intro record
  rw [List.count_filterMap]
  by_cases hsome : ∃ key, listed config calls state key = some record
  · obtain ⟨key, hlisted⟩ := hsome
    obtain ⟨-, -, rfl, said_record, hsaid, -⟩ := of_listed hlisted
    obtain ⟨call, hcall, hkey⟩ := recorded_isSome_iff.mp (Option.isSome_iff_exists.mpr ⟨said_record, hsaid⟩)
    refine le_trans (List.countP_mono_left fun other _ hother => ?_) (hkey ▸ honce call hcall)
    obtain ⟨-, -, hsame, -⟩ := of_listed (beq_iff_eq.mp hother)
    exact beq_iff_eq.mpr hsame
  · refine le_trans (le_of_eq (List.countP_eq_zero.mpr fun key _ hkey => hsome ⟨key, ?_⟩)) zero_le_one
    exact beq_iff_eq.mp hkey

/-- Where keys are cut where they were joined, the record that a hash says is that of the pair. -/
theorem said_eq_last_record (hcalls : ∀ call ∈ calls, ':' ∉ call.device_id.toList) {d f : String}
    (hd : ':' ∉ d.toList) : said config calls d f = last_record calls (d, f) := by
  refine recorded_congr fun call hcall => ⟨fun hkey => ?_, fun hpair => ?_⟩
  · have hparse := @parse_fence_ids_of_notMem config _ (hcalls call hcall) call.fence_id
    rw [show fence_redis_key config call.device_id call.fence_id = fence_redis_key config d f from hkey,
      parse_fence_ids_of_notMem hd] at hparse
    exact hparse.symm
  · obtain ⟨hd, hf⟩ := Prod.mk.inj hpair
    unfold FenceStateCall.key
    rw [hd, hf]

/-- A listing is exact if the keys are separable and named once. -/
theorem Holds.listsExactly {glob : String → String → Bool} (h : Holds config start server calls)
    (hrange : ∀ call ∈ calls, call.InRange)
    (hnamed : ∀ call ∈ calls, call.Named) (hseparable : Separable glob config calls)
    {replies : List (List String)} (hscans : server.Scans glob (fence_scan_pattern config) replies)
    (honce : NamedOnce config replies calls) : ListsExactly config replies server calls := by
  intro state
  refine ⟨_, h.list_fence_states hrange replies state, nodup_listed honce state, fun record => ?_⟩
  rw [List.mem_filterMap]
  constructor
  · rintro ⟨key, -, hlisted⟩
    obtain ⟨hstate, hcut, -, said_record, hsaid, hids⟩ := of_listed hlisted
    rw [said_eq_last_record (fun call hcall => (hseparable call hcall).1) hcut] at hsaid
    obtain ⟨hd, hf⟩ := Prod.mk.inj (ids_of_last_record hsaid)
    have hsame : record = said_record := hids.trans (by rw [← hd, ← hf])
    exact ⟨hstate, _, hsaid.trans (congrArg some hsame.symm)⟩
  · rintro ⟨rfl, pair, hlast⟩
    obtain ⟨call, hcall, rfl⟩ := recorded_isSome_iff.mp (Option.isSome_iff_exists.mpr ⟨record, hlast⟩)
    obtain ⟨hcut, hmatch⟩ := hseparable call hcall
    obtain ⟨hd, hf⟩ := Prod.mk.inj (ids_of_last_record hlast)
    refine ⟨call.key config, (hscans _).mpr ⟨(h.mem_keys _).mpr (.inr ⟨call, hcall, rfl⟩), hmatch⟩, ?_⟩
    refine (listed_fence_redis_key hcut (hnamed call hcall).1 (hnamed call hcall).2
      ((said_eq_last_record (fun call hcall => (hseparable call hcall).1) hcut).trans hlast)).trans ?_
    rw [← hd, ← hf]

/-- If a listing is exact, the keys are separable and named once: a pair is listed from no other key than its own,
and as often as that is named. -/
theorem Holds.separable {glob : String → String → Bool} (h : Holds config start server calls)
    (hrange : ∀ call ∈ calls, call.InRange) {replies : List (List String)}
    (hscans : server.Scans glob (fence_scan_pattern config) replies)
    (hlists : ListsExactly config replies server calls) :
    Separable glob config calls ∧ NamedOnce config replies calls := by
  rw [Separable, NamedOnce, ← forall₂_and]
  intro call hcall
  obtain ⟨record, hlast⟩ := Option.isSome_iff_exists.mp
    (recorded_isSome_iff.mpr ⟨call, hcall, rfl⟩ : (last_record calls call.pair).isSome)
  obtain ⟨records, hends, hnodup, hmem⟩ := hlists record.state
  rw [h.list_fence_states hrange] at hends
  obtain rfl := Except.ok.inj (Prod.mk.inj hends).1
  obtain ⟨key, hkey, hlisted⟩ := List.mem_filterMap.mp ((hmem record).mpr ⟨rfl, call.pair, hlast⟩)
  obtain ⟨-, hcut, hjoined, -⟩ := of_listed hlisted
  obtain ⟨hd, hf⟩ := Prod.mk.inj (ids_of_last_record hlast)
  rw [hd, hf] at hjoined
  rw [hd] at hcut
  subst hjoined
  refine ⟨⟨hcut, ((hscans _).mp hkey).2⟩, ?_⟩
  have hcount := List.nodup_iff_count_le_one.mp hnodup record
  rw [List.count_filterMap] at hcount
  refine le_trans (List.countP_mono_left fun other _ hother => ?_) hcount
  rw [beq_iff_eq.mp hother]
  exact beq_iff_eq.mpr hlisted

/-- A pattern of characters that stand for themselves, and a star, matches what starts with them. -/
def TakesPlain (glob : String → String → Bool) : Prop :=
  ∀ literal rest : String, (∀ c ∈ literal.toList, c ∉ ['*', '?', '[', ']', '^', '-', '\\']) →
    glob (literal ++ "*") (literal ++ rest) = true

/-- With such characters in the prefix, only the device ids matter. -/
theorem separable_iff_of_plain {glob : String → String → Bool} (hglob : TakesPlain glob)
    (hstart : ∀ c ∈ config.key_prefix.toList, c ∉ ['*', '?', '[', ']', '^', '-', '\\']) :
    Separable glob config calls ↔ ∀ call ∈ calls, ':' ∉ call.device_id.toList := by
  have hplain : ∀ c ∈ ( key_prefix config "fence:").toList, c ∉ ['*', '?', '[', ']', '^', '-', '\\'] := by
    have hliteral : ∀ c ∈ ":fence:".toList, c ∉ ['*', '?', '[', ']', '^', '-', '\\'] := by simp
    intro c hc
    unfold key_prefix at hc
    split at hc
    · exact hliteral c (List.mem_cons_of_mem _ hc)
    · rw [String.append_assoc, String.toList_append] at hc
      exact (List.mem_append.mp hc).elim (hstart c) (hliteral c)
  refine forall₂_congr fun call _ => and_iff_left ?_
  have hpattern : fence_scan_pattern config = key_prefix config "fence:" ++ "*" :=
    key_prefix_append config "fence:" "*"
  have hkey : call.key config = key_prefix config "fence:" ++ (call.device_id ++ ":" ++ call.fence_id) := by
    unfold FenceStateCall.key
    rw [← String.toList_inj, toList_fence_redis_key]
    simp
  rw [hpattern, hkey]
  exact hglob _ _ hplain

end RedisServer

end SignalRoute
