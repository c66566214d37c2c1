import SignalRoute.Clients.Redis

/-!
# The fence states of different pairs (in-memory build)

All fence states are in one map, under the key `device_id:fence_id`. Either id may have the
separator in it, and two pairs whose ids overlap around one (`Overlaps`) have the same key: the
state of the one is then the state of the other. Pairs that do not overlap are independent, over one
call and over a run of calls (`fence_states_independent_iff`).
-/

namespace SignalRoute

open Store (HashOrder)

/-- The one device id ends in the middle of the other, and the fence ids make up for it. -/
def Overlaps (d f d' f' : String) : Prop :=
  ∃ s, (d' = d ++ ":" ++ s ∧ f = s ++ ":" ++ f') ∨ (d = d' ++ ":" ++ s ∧ f' = s ++ ":" ++ f)

/-- A text that is cut at two separators. -/
theorem cut_eq_cut_iff {x : Char} (a b a' b' : List Char) :
    a ++ x :: b = a' ++ x :: b' ↔
      (a = a' ∧ b = b') ∨
        ∃ s, (a' = a ++ x :: s ∧ b = s ++ x :: b') ∨ (a = a' ++ x :: s ∧ b' = s ++ x :: b) := by
  rw [List.append_eq_append_iff]
  constructor
  · rintro (⟨s, ha, hb⟩ | ⟨s, ha, hb⟩)
    · cases s with
      | nil => exact .inl ⟨by simpa using ha.symm, by simpa using hb⟩
      | cons y s =>
        obtain ⟨hx, htail⟩ := List.cons.inj hb
        exact .inr ⟨s, .inl ⟨hx ▸ ha, htail⟩⟩
    · cases s with
      | nil => exact .inl ⟨by simpa using ha, by simpa using hb.symm⟩
      | cons y s =>
        obtain ⟨hx, htail⟩ := List.cons.inj hb
        exact .inr ⟨s, .inr ⟨hx ▸ ha, htail⟩⟩
  · rintro (⟨rfl, rfl⟩ | ⟨s, ⟨rfl, rfl⟩ | ⟨rfl, rfl⟩⟩)
    · exact .inl ⟨[], by simp, by simp⟩
    · exact .inl ⟨x :: s, rfl, rfl⟩
    · exact .inr ⟨x :: s, rfl, rfl⟩

/-- Two pairs have the same key if they are the same or overlap. -/
theorem fence_key_eq_iff (d f d' f' : String) :
    fence_key d f = fence_key d' f' ↔ (d = d' ∧ f = f') ∨ Overlaps d f d' f' := by
  have hcut (a b : String) : (a ++ ":" ++ b).toList = a.toList ++ ':' :: b.toList := by simp
  have hstring (s : List Char) : ∃ t : String, t.toList = s := ⟨String.ofList s, String.toList_ofList⟩
  unfold fence_key Overlaps
  rw [← String.toList_inj, hcut, hcut, cut_eq_cut_iff, String.toList_inj, String.toList_inj]
  refine or_congr_right ⟨?_, ?_⟩
  · rintro ⟨s, hs⟩
    obtain ⟨t, rfl⟩ := hstring s
    refine ⟨t, ?_⟩
    rwa [← hcut, ← hcut, ← hcut, ← hcut, String.toList_inj, String.toList_inj, String.toList_inj,
      String.toList_inj] at hs
  · rintro ⟨t, ht⟩
    refine ⟨t.toList, ?_⟩
    rwa [← hcut, ← hcut, ← hcut, ← hcut, String.toList_inj, String.toList_inj, String.toList_inj,
      String.toList_inj]

/-- A call of `set_fence_state`. -/
structure FenceStateCall where
  device_id : String
  fence_id : String
  state : FenceState
  timestamp_ms : ℤ

/-- The pair whose state is set. -/
def FenceStateCall.pair (call : FenceStateCall) : String × String := (call.device_id, call.fence_id)

/-- The state that the last call on a pair has set, if there was one. -/
def last_set (calls : List FenceStateCall) (pair : String × String) : Option FenceState :=
  calls.foldl (fun last call => if call.pair = pair then some call.state else last) none

/-- One more call. -/
theorem last_set_concat (calls : List FenceStateCall) (call : FenceStateCall) (pair : String × String) :
    last_set (calls ++ [call]) pair = if call.pair = pair then some call.state else last_set calls pair := by
  unfold last_set
  rw [List.foldl_append]
  rfl

/-- A pair has a state if it has been set. -/
theorem last_set_isSome_iff (calls : List FenceStateCall) (pair : String × String) :
    (last_set calls pair).isSome ↔ pair ∈ calls.map FenceStateCall.pair := by
  induction calls using List.reverseRecOn with
  | nil => exact iff_of_false Bool.false_ne_true List.not_mem_nil
  | append_singleton calls call ih =>
    rw [last_set_concat, List.map_append, List.mem_append, List.map_singleton, List.mem_singleton]
    by_cases hpair : call.pair = pair
    · rw [if_pos hpair]
      exact iff_of_true rfl (.inr hpair.symm)
    · rw [if_neg hpair, ih, or_iff_left (Ne.symm hpair)]

namespace RedisClient

/-- A run of calls. -/
def set_fence_states (redis : RedisClient) (calls : List FenceStateCall) : RedisClient :=
  calls.foldl (fun redis call => redis.set_fence_state call.device_id call.fence_id call.state
    call.timestamp_ms) redis

/-- The pairs that are listed with a state. -/
def listed_pairs (redis : RedisClient) (order : HashOrder) (state : FenceState) : List (String × String) :=
  (redis.list_fence_states order state).map fun record => (record.device_id, record.fence_id)

/-- A call leaves the state of another pair as it was. -/
def Unaffected (d f d' f' : String) : Prop :=
  ∀ (redis : RedisClient) (state : FenceState) (timestamp_ms : ℤ),
    (redis.set_fence_state d f state timestamp_ms).get_fence_state d' f' = redis.get_fence_state d' f' ∧
      (redis.set_fence_state d f state timestamp_ms).get_fence_state_record d' f' =
        redis.get_fence_state_record d' f'

/-- After a run of calls, each pair that has been set is listed once, with its own ids and under the
state that was set last. -/
def ListsOwn (calls : List FenceStateCall) : Prop :=
  ∀ order state, ((({} : RedisClient).set_fence_states calls).listed_pairs order state).Nodup ∧
    ∀ pair, pair ∈ (({} : RedisClient).set_fence_states calls).listed_pairs order state ↔
      last_set calls pair = some state

/-- What is set is what is read. -/
theorem get_fence_state_set_self (redis : RedisClient) (d f : String) (state : FenceState) (timestamp_ms : ℤ) :
    (redis.set_fence_state d f state timestamp_ms).get_fence_state d f = some state := by
  unfold get_fence_state
  rw [get_fence_state_record_set, if_pos rfl]
  rfl

/-- A call leaves the pairs with another key as they were, and no others. -/
theorem unaffected_iff (d f d' f' : String) : Unaffected d f d' f' ↔ fence_key d f ≠ fence_key d' f' := by
  constructor
  · intro h heq
    have hset := (h {} .INSIDE 0).2
    unfold get_fence_state_record at hset
    rw [lookup_set_fence_state, if_pos heq.symm] at hset
    cases hset
  · intro hne redis state timestamp_ms
    have hrecord : (redis.set_fence_state d f state timestamp_ms).get_fence_state_record d' f' =
        redis.get_fence_state_record d' f' := by
      unfold get_fence_state_record
      rw [lookup_set_fence_state, if_neg hne.symm]
    exact ⟨congrArg (Option.map FenceStateRecord.state) hrecord, hrecord⟩

/-- Every record is under the key of its own ids. -/
theorem fence_key_of_lookup (calls : List FenceStateCall) {key : String} {record : FenceStateRecord}
    (h : (({} : RedisClient).set_fence_states calls).fence_states.lookup key = some record) :
    fence_key record.device_id record.fence_id = key := by
  induction calls using List.reverseRecOn generalizing key with
  | nil => cases h
  | append_singleton calls call ih =>
    unfold set_fence_states at h ih
    rw [List.foldl_append, List.foldl_cons, List.foldl_nil, lookup_set_fence_state] at h
    split at h
    · cases h
      exact ‹key = _›.symm
    · exact ih h

/-- A pair that has been set has a record under its key. -/
theorem exists_record (calls : List FenceStateCall) {call : FenceStateCall} (hcall : call ∈ calls) :
    ∃ record, (({} : RedisClient).set_fence_states calls).fence_states.lookup
      (fence_key call.device_id call.fence_id) = some record := by
  induction calls using List.reverseRecOn with
  | nil => cases hcall
  | append_singleton calls last ih =>
    unfold set_fence_states at ih ⊢
    rw [List.foldl_append, List.foldl_cons, List.foldl_nil, lookup_set_fence_state]
    split
    · exact ⟨_, rfl⟩
    · rename_i hne
      refine ih ((List.mem_append.mp hcall).resolve_right fun hlast => hne ?_)
      rw [List.mem_singleton.mp hlast]

/-- A pair is listed where its key has a record with its ids and the state. -/
theorem mem_listed_pairs (redis : RedisClient) (order : HashOrder) (state : FenceState)
    (pair : String × String) : pair ∈ redis.listed_pairs order state ↔
      ∃ key record, redis.fence_states.lookup key = some record ∧
        (record.device_id, record.fence_id) = pair ∧ record.state = state := by
  unfold listed_pairs list_fence_states
  simp only [List.mem_map, List.mem_filter, HashOrder.mem_values, decide_eq_true_eq]
  constructor
  · rintro ⟨record, ⟨⟨key, hkey⟩, hstate⟩, hpair⟩
    exact ⟨key, record, hkey, hpair, hstate⟩
  · rintro ⟨key, record, hkey, hpair, hstate⟩
    exact ⟨record, ⟨⟨key, hkey⟩, hstate⟩, hpair⟩

/-- No pair is listed twice. -/
theorem nodup_listed_pairs (calls : List FenceStateCall) (order : HashOrder) (state : FenceState) :
    ((({} : RedisClient).set_fence_states calls).listed_pairs order state).Nodup := by
  unfold listed_pairs list_fence_states
  refine List.Nodup.sublist (List.Sublist.map _ (List.filter_sublist ..)) ?_
  exact order.nodup_map_values (fun record => (record.device_id, record.fence_id))
    (fun pair => fence_key pair.1 pair.2) fun key record h => fence_key_of_lookup calls h

/-- Where no two pairs that have been set have the same key, a record has the ids and the last state
of the pair whose key it is under. -/
theorem record_iff_last_set (calls : List FenceStateCall)
    (hinj : ∀ call ∈ calls, ∀ call' ∈ calls, fence_key call.device_id call.fence_id =
      fence_key call'.device_id call'.fence_id → call.pair = call'.pair)
    (pair : String × String) (state : FenceState) :
    (∃ record, (({} : RedisClient).set_fence_states calls).fence_states.lookup
        (fence_key pair.1 pair.2) = some record ∧
      (record.device_id, record.fence_id) = pair ∧ record.state = state) ↔
      last_set calls pair = some state := by
  induction calls using List.reverseRecOn with
  | nil =>
    refine iff_of_false ?_ nofun
    rintro ⟨record, hrecord, -⟩
    cases hrecord
  | append_singleton calls call ih =>
    have hearlier := ih fun c hc c' hc' => hinj c (List.mem_append_left _ hc) c' (List.mem_append_left _ hc')
    unfold set_fence_states at hearlier ⊢
    rw [List.foldl_append, List.foldl_cons, List.foldl_nil, lookup_set_fence_state, last_set_concat]
    -- The last call sets the pair, or another pair under the same key, or another key.
    by_cases hpair : call.pair = pair
    · subst hpair
      rw [if_pos rfl]
      unfold FenceStateCall.pair
      simp
    · rw [if_neg hpair]
      by_cases hkey : fence_key pair.1 pair.2 = fence_key call.device_id call.fence_id
      · -- The pair has not been set, or it would be that of the last call.
        have hunset : last_set calls pair = none := by
          rw [← Option.not_isSome_iff_eq_none, last_set_isSome_iff, List.mem_map]
          rintro ⟨earlier, hmem, rfl⟩
          exact hpair (hinj earlier (List.mem_append_left _ hmem) call
            (List.mem_append_right _ (List.mem_singleton.mpr rfl)) hkey).symm
        rw [if_pos hkey, hunset]
        refine iff_of_false ?_ nofun
        rintro ⟨record, hrecord, hids, -⟩
        rw [← Option.some.inj hrecord] at hids
        exact hpair hids
      · rw [if_neg hkey]
        exact hearlier

/-- The records of a run are listed under their own pairs if no two pairs of the run have the same
key. -/
theorem listsOwn_iff (calls : List FenceStateCall) : ListsOwn calls ↔
    ∀ call ∈ calls, ∀ call' ∈ calls, fence_key call.device_id call.fence_id =
      fence_key call'.device_id call'.fence_id → call.pair = call'.pair := by
  constructor
  · intro hlists
    -- The record under the key of a pair that has been set is its own.
    have hown : ∀ call ∈ calls, ∀ record, (({} : RedisClient).set_fence_states calls).fence_states.lookup
        (fence_key call.device_id call.fence_id) = some record →
          (record.device_id, record.fence_id) = call.pair := by
      intro call hcall record hrecord
      obtain ⟨state, hstate⟩ := Option.isSome_iff_exists.mp
        ((last_set_isSome_iff calls call.pair).mpr (List.mem_map_of_mem hcall))
      obtain ⟨key, own, hlookup, hids, -⟩ := (mem_listed_pairs _ .insertion state call.pair).mp
        (((hlists .insertion state).2 call.pair).mpr hstate)
      have hkey := fence_key_of_lookup calls hlookup
      obtain ⟨hd, hf⟩ := Prod.mk.inj hids
      rw [hd, hf] at hkey
      rw [hkey, hlookup] at hrecord
      rw [← Option.some.inj hrecord, hids]
    intro call hcall call' hcall' hkey
    obtain ⟨record, hrecord⟩ := exists_record calls hcall
    exact (hown call hcall record hrecord).symm.trans (hown call' hcall' record (hkey ▸ hrecord))
  · -- With one pair to a key, what is listed is what was set last.
    intro hinj order state
    refine ⟨nodup_listed_pairs calls order state, fun pair => ?_⟩
    rw [mem_listed_pairs, ← record_iff_last_set calls hinj]
    constructor
    · rintro ⟨key, record, hrecord, rfl, hstate⟩
      exact ⟨record, (fence_key_of_lookup calls hrecord).symm ▸ hrecord, rfl, hstate⟩
    · rintro ⟨record, hrecord, hids, hstate⟩
      exact ⟨_, record, hrecord, hids, hstate⟩

/-- A call leaves the state of another pair as it was exactly if the ids of the two do not overlap,
and what it sets is what is read of its own pair. The records of a run of calls are listed under
their own pairs exactly if no two pairs of the run overlap. -/
theorem fence_states_independent_iff (redis : RedisClient) (d f d' f' : String) (state : FenceState)
    (timestamp_ms : ℤ) (calls : List FenceStateCall) :
    ((d', f') ≠ (d, f) → (Unaffected d f d' f' ↔ ¬Overlaps d f d' f')) ∧
      (redis.set_fence_state d f state timestamp_ms).get_fence_state d f = some state ∧
      (ListsOwn calls ↔ ∀ call ∈ calls, ∀ call' ∈ calls, call.pair ≠ call'.pair →
        ¬Overlaps call.device_id call.fence_id call'.device_id call'.fence_id) := by
  refine ⟨fun hne => ?_, get_fence_state_set_self redis d f state timestamp_ms, ?_⟩
  · have hpair : ¬(d = d' ∧ f = f') := fun h => hne (by rw [h.1, h.2])
    rw [unaffected_iff, ne_eq, fence_key_eq_iff, or_iff_right hpair]
  · -- Two keys are the same for the same pair, or if the pairs overlap.
    rw [listsOwn_iff]
    refine forall₂_congr fun call _ => forall₂_congr fun call' _ => ?_
    have hkey : fence_key call.device_id call.fence_id = fence_key call'.device_id call'.fence_id ↔
        call.pair = call'.pair ∨ Overlaps call.device_id call.fence_id call'.device_id call'.fence_id := by
      rw [fence_key_eq_iff, FenceStateCall.pair, FenceStateCall.pair, Prod.mk.injEq]
    constructor
    · exact fun h hne hover => hne (h (hkey.mpr (.inr hover)))
    · exact fun h heq => by_contra fun hne => (hkey.mp heq).elim hne (h hne)

/-- Setting the state of the device `a:b` at the fence `c` sets that of `a` at `b:c`. -/
theorem namespaced_ids_share_state : ¬ ∀ d f d' f' : String, d ≠ "" → f ≠ "" → d' ≠ "" → f' ≠ "" →
    (d', f') ≠ (d, f) → Unaffected d f d' f' := by
  intro hall
  have hunaffected := hall "a:b" "c" "a" "b:c" (by decide) (by decide) (by decide) (by decide) (by decide)
  have hset := (hunaffected {} .INSIDE 0).1
  revert hset
  decide +kernel

end RedisClient

end SignalRoute
