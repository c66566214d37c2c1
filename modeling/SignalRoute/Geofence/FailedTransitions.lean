import SignalRoute.Geofence.Prefilter
import SignalRoute.Geofence.Race
import SignalRoute.Clients.FenceStates

/-!
# Transitions that fail

The evaluator and the dwell checker make the same three calls for each event that is owed: they set
the fence state, insert the record, and produce its message. An exception of the second or the third
call ends the whole evaluation or scan. `Attempts` says what a list of such transitions leaves of
the stores, for every way in which insertions and productions can fail.

A state that is set is not set back, so an insertion that throws leaves a fence whose state does not
agree with its records (`Attempts.consistent_iff`). And since what is owed is decided by the state
alone, no later call emits the event of a transition that threw (`Attempts.recovers_iff`).
`failure_atomic_iff` says both of the evaluator and of the dwell checker.
-/

namespace SignalRoute

open Store (UnorderedMap HashOrder)
open Numeric (Double)
open Interaction (Prog)
open Interaction.Prog (perform ofExcept forEach foldEach always_bind)

/-- The key of the fence state that a record is about. -/
def GeofenceEventRecord.key (record : GeofenceEventRecord) : String :=
  fence_key record.device_id record.fence_id

/-- The calls for an event that is owed. -/
def publish_transition (event_topic : String) (record : GeofenceEventRecord) : GeofenceProgram Unit := do
  perform (.set_fence_state record.device_id record.fence_id (stateAfter (some record.event_type))
    record.event_ts_ms)
  publish_event event_topic record

namespace GeofenceStore

/-- The message of a record. -/
def message (event_topic : String) (record : GeofenceEventRecord) : ProducedMessage :=
  ⟨event_topic, record.device_id, encode_geofence_event_payload record⟩

/-- The stores after the first call of a transition. -/
def put (record : GeofenceEventRecord) (store : GeofenceStore) : GeofenceStore :=
  let redis := store.redis.set_fence_state record.device_id record.fence_id
    (stateAfter (some record.event_type)) record.event_ts_ms
  { store with redis }

/-- The stores after the first two. -/
def put_insert (record : GeofenceEventRecord) (store : GeofenceStore) : GeofenceStore :=
  { store.put record with pg := store.pg.insert_geofence_event record }

/-- The stores after all of them. -/
def publish (event_topic : String) (record : GeofenceEventRecord) (store : GeofenceStore) :
    GeofenceStore :=
  { store.put_insert record with produced := store.produced ++ [message event_topic record] }

/-- The fence states agree with the records: the state of a pair is the one that its last record leads
to. -/
def Consistent (store : GeofenceStore) (device_id fence_id : String) : Prop :=
  store.state device_id fence_id = stateAfter (typesOf device_id fence_id store.events).getLast?

end GeofenceStore

/-- Every fence state is stored under the key of its own pair. -/
def RedisClient.KeyedFences (redis : RedisClient) : Prop :=
  ∀ key record, redis.fence_states.lookup key = some record →
    fence_key record.device_id record.fence_id = key

/-- So are the states that are set. -/
theorem RedisClient.KeyedFences.set_fence_state {redis : RedisClient} (h : redis.KeyedFences)
    (device_id fence_id : String) (state : FenceState) (timestamp_ms : ℤ) :
    (redis.set_fence_state device_id fence_id state timestamp_ms).KeyedFences := by
  intro key record hlookup
  rw [RedisClient.lookup_set_fence_state] at hlookup
  split at hlookup
  · cases hlookup
    exact ‹key = _›.symm
  · exact h key record hlookup

/-- What a list of transitions leaves of the stores, up to the first call that throws. -/
inductive Attempts (faults : GeofenceFaults) (event_topic : String) :
    List GeofenceEventRecord → FaultyStore → GeofenceStore → Prop
  | done (s : FaultyStore) : Attempts faults event_topic [] s s.store
  | insert_throws {record : GeofenceEventRecord} {rest : List GeofenceEventRecord} {s : FaultyStore} :
      faults.insert_error s.tick ≠ none →
      Attempts faults event_topic (record :: rest) s (s.store.put record)
  | produce_throws {record : GeofenceEventRecord} {rest : List GeofenceEventRecord} {s : FaultyStore} :
      faults.insert_error s.tick = none →
      ¬(faults.produce_error (s.tick + 1) = none ∧ event_topic ≠ "") →
      Attempts faults event_topic (record :: rest) s (s.store.put_insert record)
  | publish {record : GeofenceEventRecord} {rest : List GeofenceEventRecord} {s : FaultyStore}
      {after : GeofenceStore} :
      faults.insert_error s.tick = none → faults.produce_error (s.tick + 1) = none → event_topic ≠ "" →
      Attempts faults event_topic rest ⟨s.tick + 2, s.store.publish event_topic record⟩ after →
      Attempts faults event_topic (record :: rest) s after

/-- No call of the transitions throws, from this tick on. -/
def Untroubled (faults : GeofenceFaults) (event_topic : String) : ℕ → List GeofenceEventRecord → Prop
  | _, [] => True
  | tick, _ :: rest => faults.insert_error tick = none ∧ faults.produce_error (tick + 1) = none ∧
      event_topic ≠ "" ∧ Untroubled faults event_topic (tick + 2) rest

/-- Of the transitions up to the first call that throws, the one under the key of a pair, if there
is one, is of this pair and its insertion does not throw. -/
def Spared (faults : GeofenceFaults) (event_topic device_id fence_id : String) :
    ℕ → List GeofenceEventRecord → Prop
  | _, [] => True
  | tick, record :: rest =>
    (record.key = fence_key device_id fence_id →
      record.device_id = device_id ∧ record.fence_id = fence_id ∧ faults.insert_error tick = none) ∧
    (faults.insert_error tick = none → faults.produce_error (tick + 1) = none → event_topic ≠ "" →
      Spared faults event_topic device_id fence_id (tick + 2) rest)

namespace GeofenceStore

variable {store : GeofenceStore} {record : GeofenceEventRecord} {d f : String}

/-- The state of the pairs under the key of the record is the one that its event leads to. -/
theorem state_put (record : GeofenceEventRecord) (store : GeofenceStore) (d f : String) :
    (store.put record).state d f =
      if fence_key d f = record.key then stateAfter (some record.event_type) else store.state d f := by
  unfold state RedisClient.get_fence_state RedisClient.get_fence_state_record put GeofenceEventRecord.key
  dsimp only
  rw [RedisClient.lookup_set_fence_state]
  split <;> rfl

/-- That of the pair itself is. -/
theorem state_put_self (record : GeofenceEventRecord) (store : GeofenceStore) :
    (store.put record).state record.device_id record.fence_id = stateAfter (some record.event_type) :=
  (state_put record store record.device_id record.fence_id).trans (if_pos rfl)

/-- Nothing is stored under another key. -/
theorem lookup_put_of_ne {key : String} (hne : key ≠ record.key) :
    (store.put record).redis.fence_states.lookup key = store.redis.fence_states.lookup key :=
  (RedisClient.lookup_set_fence_state store.redis _ _ _ _ key).trans (if_neg hne)

/-- Pairs with the same key have the same state. -/
theorem state_eq_of_key_eq {d' f' : String} (h : fence_key d f = fence_key d' f') :
    store.state d f = store.state d' f' := by
  unfold state RedisClient.get_fence_state RedisClient.get_fence_state_record
  rw [h]

/-- A record is one of the pair, or the pair's records stay as they were. -/
theorem typesOf_put_insert : typesOf d f (store.put_insert record).events =
    if record.device_id = d ∧ record.fence_id = f then typesOf d f store.events ++ [record.event_type]
    else typesOf d f store.events := by
  change typesOf d f (store.events ++ [record]) = _
  unfold typesOf
  split
  · rename_i h
    rw [recordsOf_append_self h.1 h.2, List.map_append, List.map_singleton]
  · rename_i h
    rw [recordsOf_append_of_ne h]

/-- A state that is set without a record does not agree with the records. -/
theorem consistent_put_iff (h : store.Consistent d f)
    (hchanges : store.state record.device_id record.fence_id ≠ stateAfter (some record.event_type)) :
    (store.put record).Consistent d f ↔ record.key ≠ fence_key d f := by
  unfold Consistent at h ⊢
  change (store.put record).state d f = stateAfter (typesOf d f store.events).getLast? ↔ _
  rw [← h, state_put]
  by_cases hkey : fence_key d f = record.key
  · rw [if_pos hkey, state_eq_of_key_eq hkey]
    exact iff_of_false hchanges.symm fun hne => hne hkey.symm
  · rw [if_neg hkey]
    exact iff_of_true rfl fun heq => hkey heq.symm

/-- With its record, it agrees for the pair of the record. -/
theorem consistent_put_insert_iff (h : store.Consistent d f)
    (hchanges : store.state record.device_id record.fence_id ≠ stateAfter (some record.event_type)) :
    (store.put_insert record).Consistent d f ↔
      (record.key = fence_key d f → record.device_id = d ∧ record.fence_id = f) := by
  by_cases hpair : record.device_id = d ∧ record.fence_id = f
  · refine iff_of_true ?_ fun _ => hpair
    have hkey : fence_key d f = record.key := by rw [← hpair.1, ← hpair.2]; rfl
    unfold Consistent
    rw [typesOf_put_insert, if_pos hpair, List.getLast?_concat]
    exact (state_put record store d f).trans (if_pos hkey)
  · have hput := consistent_put_iff h hchanges
    unfold Consistent at hput ⊢
    rw [typesOf_put_insert, if_neg hpair]
    refine hput.trans ⟨fun hne heq => absurd heq hne, fun himp heq => hpair (himp heq)⟩

end GeofenceStore

/-- Transitions that a store calls for: no two under one key, and each to another state. -/
structure Owed (store : GeofenceStore) (records : List GeofenceEventRecord) : Prop where
  nodup : (records.map GeofenceEventRecord.key).Nodup
  changes : ∀ record ∈ records,
    store.state record.device_id record.fence_id ≠ stateAfter (some record.event_type)

/-- The ones that follow are still called for after the first. -/
theorem Owed.tail {store : GeofenceStore} {record : GeofenceEventRecord} {rest : List GeofenceEventRecord}
    (h : Owed store (record :: rest)) (event_topic : String) :
    Owed (store.publish event_topic record) rest := by
  obtain ⟨hfirst, hnodup⟩ := List.nodup_cons.mp h.nodup
  refine ⟨hnodup, fun later hlater => ?_⟩
  have hne : fence_key later.device_id later.fence_id ≠ record.key := fun heq =>
    hfirst (heq ▸ List.mem_map_of_mem hlater)
  change (store.put record).state later.device_id later.fence_id ≠ _
  rw [GeofenceStore.state_put, if_neg hne]
  exact h.changes later (List.mem_cons_of_mem _ hlater)

namespace Attempts

variable {faults : GeofenceFaults} {event_topic : String} {records : List GeofenceEventRecord}
  {s : FaultyStore} {after : GeofenceStore}

/-- A pair under whose key there is no transition has its state and its records as before. -/
theorem untouched (h : Attempts faults event_topic records s after) {d f : String}
    (hkey : ∀ record ∈ records, record.key ≠ fence_key d f) :
    after.Consistent d f ↔ s.store.Consistent d f := by
  -- Neither of the two writes of a transition is for this pair.
  have hput (record : GeofenceEventRecord) (store : GeofenceStore) (hne : record.key ≠ fence_key d f) :
      (store.put record).state d f = store.state d f := by
    rw [GeofenceStore.state_put, if_neg hne.symm]
  have hinsert (record : GeofenceEventRecord) (store : GeofenceStore) (hne : record.key ≠ fence_key d f) :
      typesOf d f (store.put_insert record).events = typesOf d f store.events := by
    rw [GeofenceStore.typesOf_put_insert, if_neg]
    rintro ⟨rfl, rfl⟩
    exact hne rfl
  induction h with
  | done s => exact Iff.rfl
  | @insert_throws record rest s _ =>
    unfold GeofenceStore.Consistent
    rw [hput record s.store (hkey record List.mem_cons_self)]
    rfl
  | @produce_throws record rest s _ _ =>
    have hne := hkey record List.mem_cons_self
    unfold GeofenceStore.Consistent
    rw [hinsert record s.store hne]
    exact Iff.of_eq (congrArg (· = _) (hput record s.store hne))
  | @publish record rest s after _ _ _ _ ih =>
    have hne := hkey record List.mem_cons_self
    refine (ih fun later hlater => hkey later (List.mem_cons_of_mem _ hlater)).trans ?_
    change (s.store.put record).state d f =
      stateAfter (typesOf d f (s.store.put_insert record).events).getLast? ↔ _
    rw [hput record s.store hne, hinsert record s.store hne]
    rfl

/-- A pair that was consistent before is consistent after exactly if it is spared. -/
theorem consistent_iff (h : Attempts faults event_topic records s after) (howed : Owed s.store records)
    {d f : String} (hbefore : s.store.Consistent d f) :
    after.Consistent d f ↔ Spared faults event_topic d f s.tick records := by
  induction h with
  | done s => exact iff_of_true hbefore trivial
  | @insert_throws record rest s hthrows =>
    -- The state is set and the record is missing, unless the pair has another key.
    rw [GeofenceStore.consistent_put_iff hbefore (howed.changes record List.mem_cons_self)]
    refine ⟨fun hne => ⟨fun heq => absurd heq hne, fun hnone => absurd hnone hthrows⟩, ?_⟩
    exact fun hspared heq => hthrows (hspared.1 heq).2.2
  | @produce_throws record rest s hinsert hthrows =>
    -- State and record are there, under the ids that have this key.
    rw [GeofenceStore.consistent_put_insert_iff hbefore (howed.changes record List.mem_cons_self)]
    refine ⟨fun hown => ⟨fun heq => ⟨(hown heq).1, (hown heq).2, hinsert⟩, ?_⟩, ?_⟩
    · exact fun _ hproduce htopic => absurd ⟨hproduce, htopic⟩ hthrows
    · exact fun hspared heq => ⟨(hspared.1 heq).1, (hspared.1 heq).2.1⟩
  | @publish record rest s after hinsert hproduce htopic hrest ih =>
    have hfirst := GeofenceStore.consistent_put_insert_iff hbefore
      (howed.changes record List.mem_cons_self)
    -- A pair that its own transition leaves consistent goes on to the rest.
    by_cases hown : record.key = fence_key d f → record.device_id = d ∧ record.fence_id = f
    · rw [ih (howed.tail event_topic) (hfirst.mpr hown)]
      refine ⟨fun hspared => ⟨fun heq => ⟨(hown heq).1, (hown heq).2, hinsert⟩, fun _ _ _ => hspared⟩, ?_⟩
      exact fun hspared => hspared.2 hinsert hproduce htopic
    · -- The state of the pair is now that of another one, and nothing that follows is under its key.
      obtain ⟨hkey, -⟩ := Classical.not_imp.mp hown
      have hlater : ∀ later ∈ rest, later.key ≠ fence_key d f := fun later hlater heq =>
        (List.nodup_cons.mp howed.nodup).1 (hkey.trans heq.symm ▸ List.mem_map_of_mem hlater)
      refine iff_of_false (fun hafter => hown (hfirst.mp ?_)) fun hspared => hown fun heq => ?_
      · exact (hrest.untouched hlater).mp hafter
      · exact ⟨(hspared.1 heq).1, (hspared.1 heq).2.1⟩

/-- The fence states stay under the keys of their pairs. -/
theorem keyedFences (h : Attempts faults event_topic records s after)
    (hkeyed : s.store.redis.KeyedFences) : after.redis.KeyedFences := by
  induction h with
  | done s => exact hkeyed
  | insert_throws _ => exact hkeyed.set_fence_state _ _ _ _
  | produce_throws _ _ => exact hkeyed.set_fence_state _ _ _ _
  | publish _ _ _ _ ih => exact ih (hkeyed.set_fence_state _ _ _ _)

/-- Nothing is taken back, and each transition produces at most one message. -/
theorem grows (h : Attempts faults event_topic records s after) :
    s.store.events <+: after.events ∧ s.store.produced <+: after.produced ∧
      after.produced.length ≤ s.store.produced.length + records.length := by
  induction h with
  | done s => exact ⟨List.prefix_rfl, List.prefix_rfl, le_rfl⟩
  | insert_throws _ => exact ⟨List.prefix_rfl, List.prefix_rfl, Nat.le_add_right _ _⟩
  | produce_throws _ _ => exact ⟨List.prefix_append _ _, List.prefix_rfl, Nat.le_add_right _ _⟩
  -- One record and one message, and then what the rest adds.
  | @publish record rest s after _ _ _ _ ih =>
    obtain ⟨hevents, hproduced, hlength⟩ := ih
    refine ⟨(List.prefix_append s.store.events [record]).trans hevents,
      (List.prefix_append s.store.produced [_]).trans hproduced, hlength.trans_eq ?_⟩
    unfold GeofenceStore.publish
    rw [List.length_append, List.length_singleton, List.length_cons]
    omega

/-- Where no call throws, every transition has its record and its message. -/
theorem of_untroubled (h : Attempts faults event_topic records s after)
    (huntroubled : Untroubled faults event_topic s.tick records) :
    after.events = s.store.events ++ records ∧
      after.produced = s.store.produced ++ records.map (GeofenceStore.message event_topic) := by
  induction h with
  | done s => exact ⟨(List.append_nil _).symm, (List.append_nil _).symm⟩
  | insert_throws hthrows => exact absurd huntroubled.1 hthrows
  | produce_throws _ hthrows => exact absurd ⟨huntroubled.2.1, huntroubled.2.2.1⟩ hthrows
  | @publish record rest s after _ _ _ _ ih =>
    obtain ⟨hevents, hproduced⟩ := ih huntroubled.2.2.2
    rw [hevents, hproduced]
    exact ⟨List.append_assoc s.store.events [record] rest, List.append_assoc s.store.produced [_] _⟩

/-- Where a call throws, the transitions before it have their messages. Their states and that of the
transition that threw are set, and nothing else in Redis has changed. -/
theorem of_troubled (h : Attempts faults event_topic records s after)
    (hnodup : (records.map GeofenceEventRecord.key).Nodup)
    (htroubled : ¬Untroubled faults event_topic s.tick records) :
    ∃ before thrown rest, records = before ++ thrown :: rest ∧
      after.produced = s.store.produced ++ before.map (GeofenceStore.message event_topic) ∧
      (∀ record ∈ before ++ [thrown],
        after.state record.device_id record.fence_id = stateAfter (some record.event_type)) ∧
      ∀ key ∉ (before ++ [thrown]).map GeofenceEventRecord.key,
        after.redis.fence_states.lookup key = s.store.redis.fence_states.lookup key := by
  induction h with
  | done s => exact absurd trivial htroubled
  | @insert_throws record rest s _ =>
    -- The transition that throws has set its state before.
    refine ⟨[], record, rest, rfl, (List.append_nil _).symm, ?_, fun key hkey => ?_⟩
    · exact List.forall_mem_singleton.mpr (GeofenceStore.state_put_self record s.store)
    · exact GeofenceStore.lookup_put_of_ne fun heq => hkey (List.mem_singleton.mpr heq)
  | @produce_throws record rest s _ _ =>
    refine ⟨[], record, rest, rfl, (List.append_nil _).symm, ?_, fun key hkey => ?_⟩
    · exact List.forall_mem_singleton.mpr (GeofenceStore.state_put_self record s.store)
    · exact GeofenceStore.lookup_put_of_ne fun heq => hkey (List.mem_singleton.mpr heq)
  | @publish record rest s after hinsert hproduce htopic _ ih =>
    obtain ⟨hfirst, hrest⟩ := List.nodup_cons.mp hnodup
    obtain ⟨before, thrown, undone, rfl, hmessages, hstates, hothers⟩ :=
      ih hrest fun huntroubled => htroubled ⟨hinsert, hproduce, htopic, huntroubled⟩
    have hnot : record.key ∉ (before ++ [thrown]).map GeofenceEventRecord.key := fun hmem => by
      rw [List.append_cons, List.map_append] at hfirst
      exact hfirst (List.mem_append_left _ hmem)
    refine ⟨record :: before, thrown, undone, rfl, ?_, ?_, fun key hkey => ?_⟩
    · rw [hmessages]
      exact List.append_assoc s.store.produced [_] _
    · refine List.forall_mem_cons.mpr ⟨?_, hstates⟩
      -- No later transition is under the key of the first.
      have hkept := hothers record.key hnot
      refine Eq.trans ?_ (GeofenceStore.state_put_self record s.store)
      unfold GeofenceStore.state RedisClient.get_fence_state RedisClient.get_fence_state_record
      exact congrArg (fun stored => (Option.map FenceStateRecord.state stored).getD .OUTSIDE) hkept
    · obtain ⟨hne, hlater⟩ := List.ne_and_not_mem_of_not_mem_cons hkey
      exact (hothers key hlater).trans (GeofenceStore.lookup_put_of_ne hne)

end Attempts

/-- Over and above what the stores had, each of these transitions has a record and a message. -/
def Recovers (event_topic : String) (records : List GeofenceEventRecord) (before after : GeofenceStore) :
    Prop :=
  (before.events ++ records).Subperm after.events ∧
    (before.produced ++ records.map (GeofenceStore.message event_topic)).Subperm after.produced

/-- A call and then, without exceptions, one that owes what the call has left: together they emit
everything exactly if no call of the first has thrown. What the second owes of the transitions under
one key is what the first owed, and it owes them only if the first has not set the state. -/
theorem Attempts.recovers_iff {faults : GeofenceFaults} {event_topic : String}
    {records later : List GeofenceEventRecord} {s t : FaultyStore} {after rerun : GeofenceStore}
    (h : Attempts faults event_topic records s after) (howed : Owed s.store records)
    (ht : t.store = { after with listings := t.store.listings })
    (hrerun : Attempts {} event_topic later t rerun) (hlater : Owed after later)
    (hsame : ∀ record ∈ later, ∀ earlier ∈ records, record.key = earlier.key →
      record.event_type = earlier.event_type)
    (hkept : ∀ record ∈ later, after.redis.fence_states.lookup record.key =
      s.store.redis.fence_states.lookup record.key → record ∈ records) :
    Recovers event_topic records s.store rerun ↔ Untroubled faults event_topic s.tick records := by
  obtain ⟨hevents, hproduced, hlength⟩ := hrerun.grows
  rw [ht] at hevents hproduced hlength
  constructor
  · intro hrecovers
    -- What the second call owes is not yet set, so it comes after the transition that threw.
    by_contra htroubled
    obtain ⟨before, thrown, undone, rfl, hmessages, hstates, hothers⟩ := h.of_troubled howed.nodup htroubled
    have hsubset : later ⊆ undone := by
      intro record hrecord
      have hnot : record.key ∉ (before ++ [thrown]).map GeofenceEventRecord.key := by
        intro hmem
        obtain ⟨earlier, hearlier, hkey⟩ := List.mem_map.mp hmem
        refine hlater.changes record hrecord ?_
        rw [GeofenceStore.state_eq_of_key_eq hkey.symm, hstates earlier hearlier,
          hsame record hrecord earlier ?_ hkey.symm]
        rw [List.append_cons]
        exact List.mem_append_left _ hearlier
      have hmem := hkept record hrecord (hothers _ hnot)
      rw [List.append_cons] at hmem
      exact (List.mem_append.mp hmem).resolve_left fun hdone => hnot (List.mem_map_of_mem hdone)
    -- The message of that transition is then missing, by counting.
    have hcount := (List.subperm_of_subset (List.Nodup.of_map _ hlater.nodup) hsubset).length_le
    have htotal := hrecovers.2.length_le
    dsimp only at hlength
    rw [hmessages] at hlength
    simp only [List.length_append, List.length_map, List.length_cons] at hlength htotal
    omega
  · intro huntroubled
    -- The first call has emitted everything, and nothing is taken back.
    obtain ⟨hrecords, hmessages⟩ := h.of_untroubled huntroubled
    exact ⟨hrecords ▸ hevents.sublist.subperm, hmessages ▸ hproduced.sublist.subperm⟩

/-- A part of the elements that are found keeps its values apart. -/
theorem nodup_map_filterMap {α β γ : Type} {l : List α} {find : α → Option β} {part : β → γ} {key : α → γ}
    (hnodup : (l.map key).Nodup) (hkey : ∀ a b, find a = some b → part b = key a) :
    ((l.filterMap find).map part).Nodup := by
  unfold List.Nodup at hnodup ⊢
  rw [List.pairwise_map] at hnodup ⊢
  refine List.pairwise_filterMap.mpr (hnodup.imp fun hne b hb b' hb' => ?_)
  rw [hkey _ b hb, hkey _ b' hb']
  exact hne

namespace Evaluator

variable {inside : Bool} {previous : FenceState} {event : GeofenceEventType}

/-- A crossing leads to another state. -/
theorem ne_stateAfter_of_crossing (h : crossing inside previous = some event) :
    previous ≠ stateAfter (some event) := by
  cases inside <;> cases previous <;> cases h <;> decide

/-- Whether the device is inside decides which crossing it can be. -/
theorem eq_of_crossing {previous' : FenceState} {event' : GeofenceEventType}
    (h : crossing inside previous = some event) (h' : crossing inside previous' = some event') :
    event = event' := by
  cases inside <;> cases previous <;> cases h <;> cases previous' <;> cases h' <;> rfl

/-- A record of each candidate that is crossed. -/
def crossings (device_id : String) (lat lon : Double) (timestamp_ms : ℤ) (store : GeofenceStore)
    (fences : List GeofenceRule) : List GeofenceEventRecord :=
  fences.filterMap fun fence =>
    (crossing (geo.point_in_polygon lat lon fence.polygon_vertices)
        (store.state device_id fence.fence_id)).map fun event =>
      make_event_record device_id fence event lat lon timestamp_ms

/-- What `evaluate` owes at a store. -/
def owed (registry : FenceRegistry) (order : HashOrder) (device_id : String) (old_h3 new_h3 : ℤ)
    (lat lon : Double) (timestamp_ms : ℤ) (store : GeofenceStore) : List GeofenceEventRecord :=
  if device_id = "" then []
  else crossings device_id lat lon timestamp_ms store (order.values (candidates registry old_h3 new_h3))

end Evaluator

namespace DwellChecker

/-- A record of each state that is due. -/
def dwells (registry : FenceRegistry) (config : GeofenceConfig) (now_ms : ℤ)
    (states : List FenceStateRecord) : List GeofenceEventRecord :=
  states.filterMap fun state =>
    (due registry config now_ms state).map fun fence => make_dwell_record state fence now_ms

/-- What `check_once` owes at a store. -/
def owed (registry : FenceRegistry) (config : GeofenceConfig) (now_ms : ℤ) (orders : ℕ → HashOrder)
    (store : GeofenceStore) : List GeofenceEventRecord :=
  dwells registry config now_ms (store.redis.list_fence_states (orders store.listings) .INSIDE)

end DwellChecker

/-- The stores after a program, where insertions and productions may fail. -/
def FaultyStore.after {α : Type} (faults : GeofenceFaults) (orders : ℕ → HashOrder) (p : GeofenceProgram α)
    (s : FaultyStore) : GeofenceStore :=
  (p.exec (FaultyStore.handler faults orders) s).final.store

section Programs

variable {faults : GeofenceFaults} {orders : ℕ → HashOrder} {event_topic : String} {s : FaultyStore}

/-- The calls of one transition, where `after` is what the ones that follow leave. -/
theorem always_publish_transition {rest : List GeofenceEventRecord} (record : GeofenceEventRecord) :
    (publish_transition event_topic record).Always (FaultyStore.handler faults orders) (fun _ => True)
      (fun _ t => t.store = s.store.publish event_topic record ∧ ∀ after,
        Attempts faults event_topic rest t after → Attempts faults event_topic (record :: rest) s after)
      (fun _ t => Attempts faults event_topic (record :: rest) s t.store) s := by
  unfold publish_transition publish_event
  simp only [Prog.bind_eq, always_bind, Prog.always_perform, Prog.always_ofExcept]
  refine ⟨trivial, trivial, ?_⟩
  simp only [FaultyStore.handler, FaultyStore.perform, GeofenceStore.perform]
  -- The state is set; the insertion may throw, then the production, or the topic is empty.
  cases hinsert : faults.insert_error s.tick with
  | some e => exact .insert_throws (hinsert ▸ Option.some_ne_none e)
  | none =>
    refine ⟨trivial, ?_⟩
    dsimp only
    cases hproduce : faults.produce_error (s.tick + 1) with
    | some e => exact .produce_throws hinsert fun h => Option.some_ne_none e (hproduce.symm.trans h.1)
    | none =>
      by_cases ht : event_topic = ""
      · simp only [produce, if_pos ht]
        exact .produce_throws hinsert fun h => h.2 ht
      · simp only [produce, if_neg ht]
        exact ⟨rfl, fun after hafter => .publish hinsert hproduce ht hafter⟩

/-- The loop of the evaluator attempts what is owed for its candidates. -/
theorem always_evaluate_attempts (device_id : String) (lat lon : Double) (timestamp_ms : ℤ)
    (fences : List GeofenceRule) (hnodup : (fences.map GeofenceRule.fence_id).Nodup) (s : FaultyStore) :
    (forEach fences (Evaluator.evaluate_fence event_topic device_id lat lon timestamp_ms)).Always
      (FaultyStore.handler faults orders) (fun _ => True)
      (fun _ t => Attempts faults event_topic
        (Evaluator.crossings device_id lat lon timestamp_ms s.store fences) s t.store)
      (fun _ t => Attempts faults event_topic
        (Evaluator.crossings device_id lat lon timestamp_ms s.store fences) s t.store) s := by
  induction fences generalizing s with
  | nil => exact .done s
  | cons fence rest ih =>
    obtain ⟨hfirst, hrest⟩ := List.nodup_cons.mp hnodup
    rw [forEach, always_bind, Evaluator.evaluate_fence_eq, always_bind, Prog.always_perform]
    refine ⟨trivial, ?_⟩
    have hstored : ((FaultyStore.handler faults orders).run
        (.get_fence_state device_id fence.fence_id) s).1.getD .OUTSIDE =
          s.store.state device_id fence.fence_id := rfl
    unfold Evaluator.crossings
    rw [List.filterMap_cons, hstored]
    -- A candidate that is not crossed makes no other call.
    cases Evaluator.crossing (geo.point_in_polygon lat lon fence.polygon_vertices)
        (s.store.state device_id fence.fence_id) with
    | none => exact ih hrest s
    | some event =>
      refine (always_publish_transition (Evaluator.make_event_record device_id fence event lat lon
        timestamp_ms)).imp (fun _ => id) (fun _ t ht => ?_) fun _ _ => id
      obtain ⟨hstore, hattempts⟩ := ht
      -- The transition does not change what is owed for the other candidates.
      have howed : Evaluator.crossings device_id lat lon timestamp_ms t.store rest =
          Evaluator.crossings device_id lat lon timestamp_ms s.store rest := by
        refine List.filterMap_congr fun later hlater => ?_
        have hne : later.fence_id ≠ fence.fence_id := fun heq =>
          hfirst (heq ▸ List.mem_map_of_mem hlater)
        have hstate : t.store.state device_id later.fence_id = s.store.state device_id later.fence_id := by
          rw [hstore]
          exact (GeofenceStore.state_put _ s.store device_id later.fence_id).trans
            (if_neg fun hkey => hne (fence_key_right_inj.mp hkey))
        rw [hstate]
      have hloop := ih hrest t
      rw [howed] at hloop
      exact hloop.imp (fun _ => id) (fun _ _ => hattempts _) fun _ _ => hattempts _

/-- The loop of the dwell checker attempts what is owed for the states. -/
theorem always_check_attempts {registry : FenceRegistry} (hr : registry.Loaded) (config : GeofenceConfig)
    (now_ms transitioned : ℤ) (states : List FenceStateRecord) (s : FaultyStore) :
    (foldEach states transitioned (DwellChecker.check_state registry config event_topic now_ms)).Always
      (FaultyStore.handler faults orders) (fun _ => True)
      (fun _ t => Attempts faults event_topic (DwellChecker.dwells registry config now_ms states) s t.store)
      (fun _ t => Attempts faults event_topic (DwellChecker.dwells registry config now_ms states) s t.store)
      s := by
  induction states generalizing transitioned s with
  | nil => exact .done s
  | cons state rest ih =>
    rw [foldEach, always_bind]
    unfold DwellChecker.check_state DwellChecker.dwells
    rw [List.filterMap_cons]
    cases hdue : DwellChecker.due registry config now_ms state with
    | none => exact ih transitioned s
    | some fence =>
      obtain ⟨-, hid, -⟩ := DwellChecker.of_due hr hdue
      -- The checker makes the same two calls as the evaluator, and counts.
      have hprogram : (do
          perform (.set_fence_state state.device_id state.fence_id .DWELL now_ms)
          publish_event event_topic (DwellChecker.make_dwell_record state fence now_ms)
          return transitioned + 1 : GeofenceProgram ℤ) =
          (publish_transition event_topic (DwellChecker.make_dwell_record state fence now_ms)).bind
            fun _ => .pure (transitioned + 1) := by
        rw [← hid]
        rfl
      dsimp only
      rw [hprogram, always_bind]
      refine (always_publish_transition (DwellChecker.make_dwell_record state fence now_ms)).imp
        (fun _ => id) (fun _ t ht => ?_) fun _ _ => id
      exact (ih (transitioned + 1) t).imp (fun _ => id) (fun _ _ => ht.2 _) fun _ _ => ht.2 _

/-- An evaluation attempts what it owes. -/
theorem evaluate_attempts {registry : FenceRegistry} (hr : registry.Loaded) (faults : GeofenceFaults)
    (orders : ℕ → HashOrder) (order : HashOrder) (event_topic device_id : String) (old_h3 new_h3 : ℤ)
    (lat lon : Double) (timestamp_ms : ℤ) (s : FaultyStore) :
    Attempts faults event_topic
      (Evaluator.owed registry order device_id old_h3 new_h3 lat lon timestamp_ms s.store) s
      (s.after faults orders (Evaluator.evaluate registry order event_topic device_id old_h3 new_h3 lat lon
        timestamp_ms)) := by
  unfold Evaluator.owed Evaluator.evaluate
  by_cases hd : device_id = ""
  · rw [if_pos hd, if_pos hd]
    exact .done s
  · rw [if_neg hd, if_neg hd]
    exact Prog.Always.final (always_evaluate_attempts device_id lat lon timestamp_ms _
      (Evaluator.nodup_candidates hr order) s)

/-- A dwell scan attempts what it owes. -/
theorem check_once_attempts {registry : FenceRegistry} (hr : registry.Loaded) (faults : GeofenceFaults)
    (orders : ℕ → HashOrder) (event_topic : String) (config : GeofenceConfig) (now_ms : ℤ)
    (s : FaultyStore) :
    let listed : FaultyStore := ⟨s.tick, { s.store with listings := s.store.listings + 1 }⟩
    Attempts faults event_topic (DwellChecker.owed registry config now_ms orders s.store) listed
      (s.after faults orders (DwellChecker.check_once registry config event_topic now_ms)) := by
  intro listed
  have hscan : (DwellChecker.check_once registry config event_topic now_ms).Always
      (FaultyStore.handler faults orders) (fun _ => True)
      (fun _ t => Attempts faults event_topic
        (DwellChecker.owed registry config now_ms orders s.store) listed t.store)
      (fun _ t => Attempts faults event_topic
        (DwellChecker.owed registry config now_ms orders s.store) listed t.store) s := by
    unfold DwellChecker.check_once
    rw [Prog.bind_eq, always_bind, Prog.always_perform]
    exact ⟨trivial, always_check_attempts hr config now_ms 0 _ listed⟩
  exact hscan.final

end Programs

section Calls

variable {registry : FenceRegistry} {store : GeofenceStore} {order : HashOrder} {orders : ℕ → HashOrder}
  {device_id : String} {old_h3 new_h3 timestamp_ms now_ms : ℤ} {lat lon : Double} {config : GeofenceConfig}
  {record : GeofenceEventRecord}

/-- A record that an evaluation owes is that of a candidate that is crossed. -/
theorem Evaluator.mem_owed (hr : registry.Loaded) : record ∈ Evaluator.owed registry order device_id old_h3
      new_h3 lat lon timestamp_ms store ↔
    device_id ≠ "" ∧ ∃ fence event, registry.fences.lookup fence.fence_id = some fence ∧
      Considered old_h3 new_h3 fence ∧
      crossing (geo.point_in_polygon lat lon fence.polygon_vertices)
        (store.state device_id fence.fence_id) = some event ∧
      make_event_record device_id fence event lat lon timestamp_ms = record := by
  unfold owed crossings
  split
  · rename_i hd
    exact iff_of_false List.not_mem_nil fun h => h.1 hd
  · rename_i hd
    simp only [List.mem_filterMap, Option.map_eq_some_iff, mem_candidates hr, ne_eq, hd, not_false_eq_true,
      true_and, and_assoc, exists_and_left]

/-- What an evaluation owes is owed. -/
theorem owed_evaluate (hr : registry.Loaded) : Owed store (Evaluator.owed registry order device_id old_h3
    new_h3 lat lon timestamp_ms store) where
  nodup := by
    unfold Evaluator.owed
    split
    · exact List.nodup_nil
    · have hids : ((order.values (Evaluator.candidates registry old_h3 new_h3)).map
          fun fence => fence_key device_id fence.fence_id).Nodup := by
        have hcandidates : ((order.values (Evaluator.candidates registry old_h3 new_h3)).map
            GeofenceRule.fence_id).Nodup := Evaluator.nodup_candidates hr order
        have hkeys := hcandidates.map
          (f := fence_key device_id) fun _ _ heq => fence_key_right_inj.mp heq
        rwa [List.map_map] at hkeys
      refine nodup_map_filterMap hids fun fence record hrecord => ?_
      obtain ⟨event, -, rfl⟩ := Option.map_eq_some_iff.mp hrecord
      rfl
  changes record hrecord := by
    obtain ⟨-, fence, event, -, -, hcrossing, rfl⟩ := (Evaluator.mem_owed hr).mp hrecord
    exact Evaluator.ne_stateAfter_of_crossing hcrossing

/-- A record that a scan owes is that of a stored state that is due. -/
theorem DwellChecker.mem_owed : record ∈ DwellChecker.owed registry config now_ms orders store ↔
    ∃ key state fence, store.redis.fence_states.lookup key = some state ∧ state.state = .INSIDE ∧
      due registry config now_ms state = some fence ∧ make_dwell_record state fence now_ms = record := by
  unfold owed dwells RedisClient.list_fence_states
  simp only [List.mem_filterMap, Option.map_eq_some_iff, List.mem_filter, HashOrder.mem_values,
    decide_eq_true_eq]
  constructor
  · rintro ⟨state, ⟨⟨key, hkey⟩, hinside⟩, fence, hdue, hrecord⟩
    exact ⟨key, state, fence, hkey, hinside, hdue, hrecord⟩
  · rintro ⟨key, state, fence, hkey, hinside, hdue, hrecord⟩
    exact ⟨state, ⟨⟨key, hkey⟩, hinside⟩, fence, hdue, hrecord⟩

/-- The record of a state that is due is under the key of the state. -/
theorem DwellChecker.key_of_due (hr : registry.Loaded) {state : FenceStateRecord} {fence : GeofenceRule}
    (hdue : due registry config now_ms state = some fence) :
    (make_dwell_record state fence now_ms).key = fence_key state.device_id state.fence_id := by
  rw [← (of_due hr hdue).2.1]
  rfl

/-- What a scan owes is owed. -/
theorem owed_check_once (hr : registry.Loaded) (hkeyed : store.redis.KeyedFences) :
    Owed store (DwellChecker.owed registry config now_ms orders store) where
  nodup := by
    have hstates : ((store.redis.list_fence_states (orders store.listings) .INSIDE).map
        fun state => fence_key state.device_id state.fence_id).Nodup :=
      ((orders store.listings).nodup_map_values
        (fun state : FenceStateRecord => fence_key state.device_id state.fence_id) id hkeyed).sublist
          (List.filter_sublist.map _)
    refine nodup_map_filterMap hstates fun state record hrecord => ?_
    obtain ⟨fence, hdue, rfl⟩ := Option.map_eq_some_iff.mp hrecord
    exact DwellChecker.key_of_due hr hdue
  changes record hrecord := by
    obtain ⟨key, state, fence, hkey, hinside, hdue, rfl⟩ := DwellChecker.mem_owed.mp hrecord
    have hstored : store.state state.device_id fence.fence_id = .INSIDE := by
      unfold GeofenceStore.state RedisClient.get_fence_state RedisClient.get_fence_state_record
      rw [(DwellChecker.of_due hr hdue).2.1, hkeyed key state hkey, hkey, ← hinside]
      rfl
    exact fun hdwell => FenceState.noConfusion (hstored.symm.trans hdwell)

/-- A call that owes these records keeps the consistency of the pairs that are spared and of no
others, and the rerun emits what is still owed exactly if no call of it has thrown. -/
def ExactlyAtomic (faults : GeofenceFaults) (event_topic : String) (s : FaultyStore)
    (owed : List GeofenceEventRecord) (after rerun : GeofenceStore) : Prop :=
  (∀ d f, s.store.Consistent d f → (after.Consistent d f ↔ Spared faults event_topic d f s.tick owed)) ∧
    (Recovers event_topic owed s.store rerun ↔ Untroubled faults event_topic s.tick owed)

/-- So does an evaluation, and it is run again for the same event. -/
theorem evaluate_exactlyAtomic (hr : registry.Loaded) (faults : GeofenceFaults)
    (orders orders' : ℕ → HashOrder) (order order' : HashOrder) (event_topic device_id : String)
    (old_h3 new_h3 : ℤ) (lat lon : Double) (timestamp_ms : ℤ) (s : FaultyStore) (tick : ℕ) :
    let owed := Evaluator.owed registry order device_id old_h3 new_h3 lat lon timestamp_ms s.store
    let evaluate order := Evaluator.evaluate registry order event_topic device_id old_h3 new_h3 lat lon
      timestamp_ms
    let after := s.after faults orders (evaluate order)
    ExactlyAtomic faults event_topic s owed after
      (FaultyStore.after {} orders' (evaluate order') ⟨tick, after⟩) := by
  intro owed evaluate after
  have hattempts : Attempts faults event_topic owed s after :=
    evaluate_attempts hr faults orders order event_topic device_id old_h3 new_h3 lat lon timestamp_ms s
  have howed : Owed s.store owed := owed_evaluate hr
  refine ⟨fun d f => hattempts.consistent_iff howed, hattempts.recovers_iff (t := ⟨tick, after⟩) howed rfl
    (evaluate_attempts hr {} orders' order' event_topic device_id old_h3 new_h3 lat lon timestamp_ms
      ⟨tick, after⟩) (owed_evaluate hr) ?_ ?_⟩
  · intro record hrecord earlier hearlier hkey
    obtain ⟨-, fence, event, hl, -, hcrossing, rfl⟩ := (Evaluator.mem_owed hr).mp hrecord
    obtain ⟨-, fence', event', hl', -, hcrossing', rfl⟩ := (Evaluator.mem_owed hr).mp hearlier
    have hid : fence.fence_id = fence'.fence_id := fence_key_right_inj.mp hkey
    rw [hid, hl'] at hl
    cases hl
    exact Evaluator.eq_of_crossing hcrossing hcrossing'
  · intro record hrecord hkept
    obtain ⟨hd, fence, event, hl, hconsidered, hcrossing, rfl⟩ := (Evaluator.mem_owed hr).mp hrecord
    refine (Evaluator.mem_owed hr).mpr ⟨hd, fence, event, hl, hconsidered, ?_, rfl⟩
    have hstate : after.state device_id fence.fence_id = s.store.state device_id fence.fence_id :=
      congrArg (fun stored => (Option.map FenceStateRecord.state stored).getD .OUTSIDE) hkept
    rwa [← hstate]

/-- So does a dwell scan, and it is run again at the same time. -/
theorem check_once_exactlyAtomic (hr : registry.Loaded) (faults : GeofenceFaults)
    (orders orders' : ℕ → HashOrder) (event_topic : String) (config : GeofenceConfig) (now_ms : ℤ)
    {s : FaultyStore} (hkeyed : s.store.redis.KeyedFences) (tick : ℕ) :
    let owed := DwellChecker.owed registry config now_ms orders s.store
    let check_once := DwellChecker.check_once registry config event_topic now_ms
    let after := s.after faults orders check_once
    ExactlyAtomic faults event_topic s owed after
      (FaultyStore.after {} orders' check_once ⟨tick, after⟩) := by
  intro owed check_once after
  let listed : FaultyStore := ⟨s.tick, { s.store with listings := s.store.listings + 1 }⟩
  have hattempts : Attempts faults event_topic owed listed after :=
    check_once_attempts hr faults orders event_topic config now_ms s
  have hstores : Owed s.store owed := owed_check_once hr hkeyed
  have howed : Owed listed.store owed := ⟨hstores.nodup, hstores.changes⟩
  refine ⟨fun d f => hattempts.consistent_iff howed, ?_⟩
  let relisted : FaultyStore := ⟨tick, { after with listings := after.listings + 1 }⟩
  refine hattempts.recovers_iff (t := relisted) howed rfl
    (check_once_attempts hr {} orders' event_topic config now_ms ⟨tick, after⟩)
    (owed_check_once hr (hattempts.keyedFences hkeyed)) ?_ ?_
  · intro record hrecord earlier hearlier _
    obtain ⟨-, -, -, -, -, -, rfl⟩ := DwellChecker.mem_owed.mp hrecord
    obtain ⟨-, -, -, -, -, -, rfl⟩ := DwellChecker.mem_owed.mp hearlier
    rfl
  · intro record hrecord hkept
    obtain ⟨key, state, fence, hkey, hinside, hdue, rfl⟩ := DwellChecker.mem_owed.mp hrecord
    rw [DwellChecker.key_of_due hr hdue, hattempts.keyedFences hkeyed key state hkey] at hkept
    exact DwellChecker.mem_owed.mpr ⟨key, state, fence, hkept.symm.trans hkey, hinside, hdue, rfl⟩

/-- Evaluations and dwell scans are failure-atomic exactly for the pairs that are spared and where
no call throws: whatever the registry and the stores, whichever insertions and productions throw,
and in whatever orders the hash tables are traversed. -/
theorem failure_atomic_iff (hr : registry.Loaded) (faults : GeofenceFaults) (orders orders' : ℕ → HashOrder)
    (event_topic : String) {s : FaultyStore} (hkeyed : s.store.redis.KeyedFences) (tick : ℕ) :
    (∀ order order' device_id old_h3 new_h3 lat lon timestamp_ms,
      let evaluate order := Evaluator.evaluate registry order event_topic device_id old_h3 new_h3 lat lon
        timestamp_ms
      let after := s.after faults orders (evaluate order)
      ExactlyAtomic faults event_topic s
        (Evaluator.owed registry order device_id old_h3 new_h3 lat lon timestamp_ms s.store) after
        (FaultyStore.after {} orders' (evaluate order') ⟨tick, after⟩)) ∧
    ∀ config now_ms,
      let check_once := DwellChecker.check_once registry config event_topic now_ms
      let after := s.after faults orders check_once
      ExactlyAtomic faults event_topic s (DwellChecker.owed registry config now_ms orders s.store) after
        (FaultyStore.after {} orders' check_once ⟨tick, after⟩) :=
  ⟨fun order order' device_id old_h3 new_h3 lat lon timestamp_ms => evaluate_exactlyAtomic hr faults orders
      orders' order order' event_topic device_id old_h3 new_h3 lat lon timestamp_ms s tick,
    fun config now_ms => check_once_exactlyAtomic hr faults orders orders' event_topic config now_ms hkeyed
      tick⟩

end Calls

/-- The registry with the fence over the unit square. -/
def unitRegistry : FenceRegistry :=
  FenceRegistry.load .insertion (PostgresClient.set_active_fences {} [unitFence])

/-- The first insertion throws. -/
def failingInsert : GeofenceFaults where
  insert_error tick := if tick = 0 then some (.std "insert geofence event failed") else none

/-- The evaluation of a device that enters the unit square. -/
def enterUnit : GeofenceProgram Unit :=
  Evaluator.evaluate unitRegistry .insertion "tm.geofence.events" "d" 0 1 (.finite (1 / 2)) (.finite (1 / 2))
    1000

/-- The stores after it, where the insertion throws. -/
def afterFailingInsert : GeofenceStore :=
  FaultyStore.after failingInsert (fun _ => .insertion) enterUnit {}

/-- Its insertion throws: the fence is not spared, and the rerun recovers nothing. -/
theorem failure_atomic_iff_enter :
    ¬afterFailingInsert.Consistent "d" "f" ∧ ¬Recovers "tm.geofence.events"
      (Evaluator.owed unitRegistry .insertion "d" 0 1 (.finite (1 / 2)) (.finite (1 / 2)) 1000 {}) {}
      (FaultyStore.after {} (fun _ => .insertion) enterUnit ⟨0, afterFailingInsert⟩) := by
  obtain ⟨hconsistent, hrecovers⟩ := (failure_atomic_iff (FenceRegistry.loaded_load .insertion
    (PostgresClient.set_active_fences {} [unitFence])) failingInsert (fun _ => .insertion)
    (fun _ => .insertion) "tm.geofence.events" (s := {}) (fun _ _ h => by cases h) 0).1 .insertion .insertion
    "d" 0 1 (.finite (1 / 2)) (.finite (1 / 2)) 1000
  have howed : Evaluator.owed unitRegistry .insertion "d" 0 1 (.finite (1 / 2)) (.finite (1 / 2)) 1000 {} =
      [Evaluator.make_event_record "d" unitFence .ENTER (.finite (1 / 2)) (.finite (1 / 2)) 1000] := by
    decide +kernel
  unfold unitRegistry at howed
  rw [howed] at hconsistent hrecovers
  have hthrows : failingInsert.insert_error 0 ≠ none := by decide
  refine ⟨fun hafter => ?_, fun hafter => ?_⟩
  · exact hthrows (((hconsistent "d" "f" rfl).mp hafter).1 rfl).2.2
  · unfold unitRegistry at hafter
    rw [howed] at hafter
    exact hthrows (hrecovers.mp hafter).1

/-- The device is stored inside without a record, and the same evaluation once more has nothing to do. -/
theorem lost_enter : (¬∀ (faults : GeofenceFaults) (s : FaultyStore),
    let after := s.after faults (fun _ => .insertion) enterUnit
    (∀ d f, s.store.Consistent d f → after.Consistent d f) ∧
      Recovers "tm.geofence.events" (Evaluator.owed unitRegistry .insertion "d" 0 1 (.finite (1 / 2))
        (.finite (1 / 2)) 1000 s.store) s.store
        (FaultyStore.after {} (fun _ => .insertion) enterUnit ⟨0, after⟩)) ∧
    afterFailingInsert.state "d" "f" = .INSIDE ∧
      (FaultyStore.after {} (fun _ => .insertion) enterUnit ⟨0, afterFailingInsert⟩).events = [] := by
  refine ⟨fun h => ?_, by decide +kernel, by decide +kernel⟩
  have hconsistent := (h failingInsert {}).1 "d" "f" rfl
  revert hconsistent
  unfold GeofenceStore.Consistent
  decide +kernel

end SignalRoute
