import SignalRoute.Clients.RedisServer

/-!
# Expiry and the cell index (hiredis build)

A sequential run over one Redis server: device states are written, their hashes expire, and
`remove_stale_cell_members` sweeps the cell sets. A write takes its device out of the cell that the
hash names, and a sweep takes out the devices without a hash; a device that expires in one cell and
is written in another one meets neither, and stays a member of both.

`cells_exact_after_sweep` is about the runs in which no device is written in another cell than the
one that still has it (`Resumes`). There each live device is a member of its cell and of no other
(`Located`), and a sweep leaves nothing else.
-/

namespace SignalRoute

open Store (HashOrder)
open Numeric (ConversionError stoull stoll)
open Interaction (Prog Handler)
open Interaction.Prog (perform foldEach always_bind always_foldEach)

/-- The commands that only `remove_stale_cell_members` sends, or whose reply only it reads. -/
inductive SweepCommand : Type → Type where
  | SMEMBERS (key : String) : SweepCommand (List String)
  | SREM (key member : String) : SweepCommand ℕ

/-- A program that also sends these. -/
abbrev SweepProgram (α : Type) : Type 1 := Prog (fun β => RedisCommand β ⊕ SweepCommand β) ConversionError α

namespace RedisServer

/-- The members of a set. -/
def set_members (server : RedisServer) (key : String) : Finset String :=
  (server.sets.filter fun entry => entry.1 = key).image Prod.snd

/-- The server executes one of these commands. A set is listed in any order, and `SREM` replies how
many members it has removed. -/
def execute_sweep (order : HashOrder) {β : Type} : SweepCommand β → RedisServer → β × RedisServer
  | .SMEMBERS key, server => (order.elements (server.set_members key), server)
  | .SREM key member, server =>
    (if (key, member) ∈ server.sets then 1 else 0,
      { server with sets := server.sets.erase (key, member) })

/-- The server as the handler of all commands. -/
def sweep_handler (order : HashOrder) : Handler (fun β => RedisCommand β ⊕ SweepCommand β) RedisServer :=
  ⟨fun c server =>
    match c with
    | .inl c => execute c server
    | .inr c => execute_sweep order c server⟩

/-- The hash of a device expires. -/
def expire (config : RedisConfig) (device_id : String) (server : RedisServer) : RedisServer :=
  { server with hashes := server.hashes.erase (device_key config device_id) }

end RedisServer

namespace RedisProgram

variable (config : RedisConfig)

/-- The body of the loop over the members of a set. -/
def sweep_member (key : String) (removed_from_cell : ℕ) (device_id : String) : SweepProgram ℕ := do
  let state ← (get_device_state config device_id).hoist .inl
  if state.isNone then
    let removed ← perform (.inr (.SREM key device_id))
    return removed_from_cell + removed
  else
    return removed_from_cell

/-- The body of the loop over the keys of a reply to `SCAN`. -/
def sweep_key (counts : ℕ × ℕ) (key : String) : SweepProgram (ℕ × ℕ) := do
  let devices ← perform (.inr (.SMEMBERS key))
  let removed_from_cell ← foldEach devices 0 (sweep_member config key)
  return if removed_from_cell > 0 then (counts.1 + removed_from_cell, counts.2 + 1) else counts

/-- `remove_stale_cell_members`, where `scanned` are the keys of the replies to `SCAN`, up to the
one with cursor 0. -/
def remove_stale_cell_members (scanned : List (List String)) : SweepProgram (ℕ × ℕ) :=
  foldEach scanned.flatten (0, 0) (sweep_key config)

end RedisProgram

/-- Different devices have different keys. -/
theorem device_key_injective (config : RedisConfig) : Function.Injective (device_key config) := by
  intro d d' h
  unfold device_key key_prefix at h
  split at h
  · exact (String.append_right_inj _).mp h
  · exact (String.append_right_inj _).mp ((String.append_right_inj _).mp h)

namespace RedisServer

variable {config : RedisConfig} {server server' : RedisServer}

/-- What `get_device_state` returns is what the hash says, and nothing changes. -/
theorem always_get_device_state (config : RedisConfig) (d : String) (server : RedisServer) :
    (RedisProgram.get_device_state config d).Always handler (· = server)
      (fun current t => t = server ∧
        current.map (fun state => (state.seq, state.h3_cell)) = server.stored config d)
      (fun _ t => t = server) server := by
  unfold RedisProgram.get_device_state
  refine ⟨rfl, ?_⟩
  change Prog.Always _ _ _ _
    (if (server.fields (device_key config d)).entries.isEmpty = true then _ else _) server
  cases hempty : (server.fields (device_key config d)).entries.isEmpty with
  | true =>
    rw [if_pos rfl]
    exact ⟨rfl, (stored_eq_none hempty).symm⟩
  | false =>
    have hreply : (handler.run (.HGETALL (device_key config d)) server).1 =
        server.fields (device_key config d) := rfl
    rw [if_neg Bool.false_ne_true, Prog.bind_eq, always_bind, Prog.always_ofExcept, hreply]
    cases hstate : device_state_from_hash (server.fields (device_key config d)) with
    | error e => exact rfl
    | ok state => exact ⟨rfl, (stored_of_device_state_from_hash hempty hstate).symm⟩

/-- What an accepted write does: the hash of the device says the new state, and the device leaves
the cell that the hash named and enters the new one. -/
structure Moves (config : RedisConfig) (d : String) (state : DeviceState) (server server' : RedisServer) :
    Prop where
  stored : ∀ d', server'.stored config d' =
    if d' = d then some (state.seq, state.h3_cell) else server.stored config d'
  member : ∀ d' c, server'.member config d' c ↔
    if d' = d then c = state.h3_cell ∨
      server.member config d c ∧ ∀ seq, server.stored config d ≠ some (seq, c)
    else server.member config d' c

/-- `HSET` of another device changes nothing of what a hash says. -/
theorem stored_HSET_of_ne {d d' : String} (hne : d' ≠ d) (fields : List (String × String)) :
    (execute (.HSET (device_key config d) fields) server).2.stored config d' = server.stored config d' := by
  unfold stored execute
  rw [AList.lookup_insert_ne fun h => hne (device_key_injective config h)]

/-- `SREM` of another device changes nothing of where a device is. -/
theorem member_SREM_of_ne {d d' : String} (hne : d' ≠ d) (key : String) (c : ℤ) :
    (execute (.SREM key d) server).2.member config d' c ↔ server.member config d' c := by
  unfold member execute
  simp [hne]

/-- `SADD` of another device changes nothing of where a device is. -/
theorem member_SADD_of_ne {d d' : String} (hne : d' ≠ d) (key : String) (c : ℤ) :
    (execute (.SADD key d) server).2.member config d' c ↔ server.member config d' c := by
  unfold member execute
  simp [hne]

/-- A device has left the cell that its hash names, unless that is the one it is about to enter. -/
structure Leaves (config : RedisConfig) (d : String) (state : DeviceState) (server server' : RedisServer) :
    Prop where
  stored : ∀ d', server'.stored config d' = server.stored config d'
  own : ∀ c, c ≠ state.h3_cell → (server'.member config d c ↔
    server.member config d c ∧ ∀ seq, server.stored config d ≠ some (seq, c))
  others : ∀ d', d' ≠ d → ∀ c, server'.member config d' c ↔ server.member config d' c

/-- After that, `HSET` and `SADD` make the move. -/
theorem Leaves.moves {d : String} {state : DeviceState} (h : Leaves config d state server server')
    (hseq : state.seq < 2^64) (hcell : -2^63 ≤ state.h3_cell ∧ state.h3_cell < 2^63) :
    Moves config d state server
      (execute (.SADD (cell_key config state.h3_cell) d)
        (execute (.HSET (device_key config d) (hash_fields { state with device_id := d })) server').2).2 where
  stored d' := by
    change (execute (.HSET (device_key config d) (hash_fields { state with device_id := d }))
      server').2.stored config d' = _
    by_cases hd : d' = d
    · rw [if_pos hd, hd]
      exact stored_HSET { state with device_id := d } hseq hcell
    · rw [if_neg hd, stored_HSET_of_ne hd, h.stored]
  member d' c := by
    by_cases hd : d' = d
    · rw [if_pos hd, hd, member_SADD]
      refine or_congr_right' fun hc => ?_
      exact h.own c hc
    · rw [if_neg hd, member_SADD_of_ne hd]
      exact h.others d' hd c

/-- What a write does after its check: the device moves. -/
theorem always_write_device_state {d : String} {state : DeviceState} (hseq : state.seq < 2^64)
    (hcell : -2^63 ≤ state.h3_cell ∧ state.h3_cell < 2^63) (ttl_s : ℤ) {current : Option DeviceState}
    (hcurrent : current.map (fun state => (state.seq, state.h3_cell)) = server.stored config d) :
    (RedisProgram.write_device_state config d state ttl_s current).Always handler (fun _ => True)
      (fun _ t => Moves config d state server t) (fun _ _ => False) server := by
  -- What is left after the device has left its cell.
  have hrest : ∀ server', Leaves config d state server server' →
      Prog.Always handler (fun _ => True) (fun _ t => Moves config d state server t) (fun _ _ => False)
        (do
          perform (.HSET (device_key config d) (hash_fields { state with device_id := d }))
          if ttl_s > 0 then
            perform (.EXPIRE (device_key config d) (toString ttl_s))
          perform (.SADD (cell_key config state.h3_cell) d)
          return true : RedisProgram Bool) server' := by
    intro server' hleaves
    refine ⟨trivial, ?_⟩
    dsimp only [Prog.pure_bind]
    by_cases httl : ttl_s > 0
    · rw [if_pos httl]
      exact ⟨trivial, trivial, hleaves.moves hseq hcell⟩
    · rw [if_neg httl]
      exact ⟨trivial, hleaves.moves hseq hcell⟩
  -- The cases are those of `if (current && current->h3_cell != state.h3_cell)`.
  unfold RedisProgram.write_device_state
  cases current with
  | none =>
    have hnone : ∀ seq c, server.stored config d ≠ some (seq, c) := by
      intro seq c
      rw [← hcurrent]
      exact nofun
    exact hrest server ⟨fun _ => rfl, fun c _ => (and_iff_left fun seq => hnone seq c).symm,
      fun _ _ _ => Iff.rfl⟩
  | some current =>
    have hstored : ∀ seq c, server.stored config d = some (seq, c) → c = current.h3_cell := by
      intro seq c hc
      rw [← hcurrent] at hc
      cases hc
      rfl
    dsimp only
    -- A move removes the old member; a write in the same cell removes nothing.
    by_cases hsame : current.h3_cell = state.h3_cell
    · rw [if_neg (not_not.mpr hsame)]
      refine hrest server ⟨fun _ => rfl, fun c hc => (and_iff_left fun seq hs => hc ?_).symm,
        fun _ _ _ => Iff.rfl⟩
      rw [hstored seq c hs, hsame]
    · rw [if_pos hsame]
      refine ⟨trivial, hrest _ ⟨fun _ => rfl, fun c hc => ?_, fun d' hd c => member_SREM_of_ne hd _ c⟩⟩
      change (execute (.SREM (cell_key config current.h3_cell) d) server).2.member config d c ↔ _
      rw [member_SREM, and_comm]
      refine and_congr_right fun _ => ⟨fun hne seq hs => hne (hstored seq c hs), fun hne heq => ?_⟩
      exact hne current.seq (by rw [← hcurrent, heq]; rfl)

/-- A write moves its device or changes nothing. -/
theorem always_update_device_state_cas (d : String) {state : DeviceState} (hseq : state.seq < 2^64)
    (hcell : -2^63 ≤ state.h3_cell ∧ state.h3_cell < 2^63) (ttl_s : ℤ) :
    (RedisProgram.update_device_state_cas config d state ttl_s).Always handler (fun _ => True)
      (fun _ t => t = server ∨ Moves config d state server t) (fun _ t => t = server) server := by
  unfold RedisProgram.update_device_state_cas
  -- An empty id and a sequence number that is not newer end the call without a write.
  split
  · exact .inl rfl
  · rw [Prog.bind_eq, always_bind]
    refine (always_get_device_state config d server).imp (fun _ _ => trivial) ?_ fun _ _ => id
    rintro current t ⟨rfl, hcurrent⟩
    split
    · exact .inl rfl
    · exact (always_write_device_state hseq hcell ttl_s hcurrent).imp (fun _ => id) (fun _ _ => .inr)
        fun _ _ => False.elim

/-- What a sweep keeps: the hashes, and the members with a hash. -/
structure Kept (config : RedisConfig) (server server' : RedisServer) : Prop where
  hashes : server'.hashes = server.hashes
  subset : server'.sets ⊆ server.sets
  gone : ∀ key d, (key, d) ∈ server.sets → (key, d) ∉ server'.sets → server.stored config d = none

/-- What the hashes say is kept. -/
theorem Kept.stored (h : Kept config server server') (d : String) :
    server'.stored config d = server.stored config d := by
  unfold RedisServer.stored
  rw [h.hashes]

variable {order : HashOrder} {t : RedisServer}

/-- The turn of a member: it is removed if it has no hash. -/
theorem always_sweep_member (key : String) (removed : ℕ) (d : String) (h : Kept config server t) :
    (RedisProgram.sweep_member config key removed d).Always (sweep_handler order) (Kept config server)
      (fun _ t' => Kept config server t' ∧ t'.sets ⊆ t.sets ∧
        (server.stored config d = none → (key, d) ∉ t'.sets))
      (fun _ t' => Kept config server t') t := by
  unfold RedisProgram.sweep_member
  rw [Prog.bind_eq, always_bind]
  refine (Prog.always_hoist_iff (h := handler) (fun {_} => Sum.inl) (fun _ _ => rfl) _ _).mpr ?_
  refine (always_get_device_state config d t).imp (fun _ ht => ht ▸ h) ?_ fun _ _ ht => ht ▸ h
  rintro current t' ⟨rfl, hcurrent⟩
  rw [h.stored] at hcurrent
  cases current with
  | none =>
    -- The member has no hash, so removing it takes nothing from a live device.
    have hremoved : Kept config server { t' with sets := t'.sets.erase (key, d) } := by
      refine ⟨h.hashes, (Finset.erase_subset _ _).trans h.subset, fun key' d' hmem hgone => ?_⟩
      by_cases heq : (key', d') = (key, d)
      · rw [(Prod.mk.inj heq).2]
        exact hcurrent.symm
      · exact h.gone key' d' hmem fun ht => hgone (Finset.mem_erase.mpr ⟨heq, ht⟩)
    exact ⟨hremoved, hremoved, Finset.erase_subset _ _, fun _ => Finset.notMem_erase _ _⟩
  | some state =>
    -- A member with a hash stays.
    refine ⟨h, subset_rfl, fun hnone => ?_⟩
    rw [hnone] at hcurrent
    cases hcurrent

/-- The turn of a key: of the members of its set, those with a hash are left. -/
theorem always_sweep_key (counts : ℕ × ℕ) (key : String) (h : Kept config server t) :
    (RedisProgram.sweep_key config counts key).Always (sweep_handler order) (Kept config server)
      (fun _ t' => Kept config server t' ∧ t'.sets ⊆ t.sets ∧
        ∀ d, (key, d) ∈ t'.sets → server.stored config d ≠ none)
      (fun _ t' => Kept config server t') t := by
  unfold RedisProgram.sweep_key
  refine ⟨h, ?_⟩
  dsimp only [Prog.pure_bind]
  rw [Prog.bind_eq, always_bind]
  have hdevices : ∀ d, (key, d) ∈ t.sets → d ∈ order.elements (t.set_members key) := by
    intro d hd
    rw [HashOrder.mem_elements]
    exact Finset.mem_image.mpr ⟨(key, d), Finset.mem_filter.mpr ⟨hd, rfl⟩, rfl⟩
  -- The members without a hash that are still there are still to come.
  refine (always_foldEach (fun rest _ t' => Kept config server t' ∧ t'.sets ⊆ t.sets ∧
    ∀ d, (key, d) ∈ t'.sets → d ∈ rest ∨ server.stored config d ≠ none) _ ?_ _ _ _
    ⟨h, subset_rfl, fun d hd => .inl (hdevices d hd)⟩).imp (fun _ => id) ?_ fun _ _ => id
  · rintro d rest removed t' ⟨ht', hsubset, hlater⟩
    -- A member without a hash goes at its turn, and no turn brings one back.
    refine (always_sweep_member key removed d ht').imp (fun _ => id) ?_ fun _ _ => id
    rintro _ t'' ⟨ht'', hsubset', hgone⟩
    refine ⟨ht'', hsubset'.trans hsubset, fun d' hd' => ?_⟩
    rcases hlater d' (hsubset' hd') with hrest | hlive
    · rcases List.mem_cons.mp hrest with rfl | hrest
      · exact .inr fun hnone => hgone hnone hd'
      · exact .inl hrest
    · exact .inr hlive
  · rintro _ t' ⟨ht', hsubset, hlater⟩
    exact ⟨ht', hsubset, fun d hd => (hlater d hd).resolve_left List.not_mem_nil⟩

/-- A sweep leaves the members with a hash in the sets whose keys it has scanned. -/
theorem always_remove_stale_cell_members (config : RedisConfig) (order : HashOrder)
    (scanned : List (List String)) (server : RedisServer) :
    (RedisProgram.remove_stale_cell_members config scanned).Always (sweep_handler order)
      (Kept config server)
      (fun _ t => Kept config server t ∧
        ∀ key ∈ scanned.flatten, ∀ d, (key, d) ∈ t.sets → server.stored config d ≠ none)
      (fun _ t => Kept config server t) server := by
  unfold RedisProgram.remove_stale_cell_members
  -- The same over the keys: those that were swept have live members only.
  refine (always_foldEach (fun rest _ t => Kept config server t ∧
    ∀ key ∈ scanned.flatten, key ∈ rest ∨ ∀ d, (key, d) ∈ t.sets → server.stored config d ≠ none)
    _ ?_ _ _ _ ⟨⟨rfl, subset_rfl, fun _ _ hmem hgone => absurd hmem hgone⟩, fun _ hkey => .inl hkey⟩).imp
      (fun _ => id) ?_ fun _ _ => id
  · rintro key rest counts t ⟨ht, hlater⟩
    refine (always_sweep_key counts key ht).imp (fun _ => id) ?_ fun _ _ => id
    rintro _ t' ⟨ht', hsubset, hlive⟩
    refine ⟨ht', fun key' hkey' => ?_⟩
    rcases hlater key' hkey' with hrest | hdone
    · rcases List.mem_cons.mp hrest with rfl | hrest
      · exact .inr hlive
      · exact .inl hrest
    · exact .inr fun d hd => hdone d (hsubset hd)
  · rintro _ t ⟨ht, hlater⟩
    exact ⟨ht, fun key hkey => (hlater key hkey).resolve_left List.not_mem_nil⟩

/-- Each live device is a member of the cell that its hash names, and of no other. -/
structure Located (config : RedisConfig) (server : RedisServer) : Prop where
  present : ∀ d seq c, server.stored config d = some (seq, c) → server.member config d c
  only : ∀ d seq c c', server.stored config d = some (seq, c) → server.member config d c' → c' = c

/-- Every cell set contains exactly the devices whose live hash names the cell. -/
def CellsExact (config : RedisConfig) (server : RedisServer) : Prop :=
  ∀ d c, server.member config d c ↔ ∃ seq, server.stored config d = some (seq, c)

/-- A device without a hash is a member of no other cell than the one it is written in. -/
def Resumes (config : RedisConfig) (server : RedisServer) (d : String) (state : DeviceState) : Prop :=
  server.stored config d = none → ∀ c, server.member config d c → c = state.h3_cell

/-- The empty server has no devices. -/
theorem Located.empty : Located config {} where
  present d seq c h := by cases h
  only d seq c c' h := by cases h

/-- A device that moves is in its new cell only. -/
theorem Located.move {d : String} {state : DeviceState} (h : Located config server)
    (hresumes : Resumes config server d state) (hmoves : Moves config d state server server') :
    Located config server' where
  present d' seq c hs := by
    rw [hmoves.stored] at hs
    rw [hmoves.member]
    by_cases hd : d' = d
    · rw [if_pos hd] at hs ⊢
      cases hs
      exact .inl rfl
    · rw [if_neg hd] at hs ⊢
      exact h.present d' seq c hs
  only d' seq c c' hs hmem := by
    rw [hmoves.stored] at hs
    rw [hmoves.member] at hmem
    by_cases hd : d' = d
    · rw [if_pos hd] at hs hmem
      -- The device is in its new cell, and in another only if it was there and did not leave it.
      cases hs
      rcases hmem with hnew | ⟨hold, hne⟩
      · exact hnew
      · -- The device was in no other cell than the one it has left.
        cases hstored : server.stored config d with
        | none => exact hresumes hstored c' hold
        | some current =>
          obtain ⟨seq, cell⟩ := current
          rw [h.only d seq cell c' hstored hold] at hne
          exact absurd hstored (hne seq)
    · rw [if_neg hd] at hs hmem
      exact h.only d' seq c c' hs hmem

/-- A device that expires is no longer live, and the others are where they were. -/
theorem Located.expire (h : Located config server) (d : String) : Located config (server.expire config d) := by
  have hstored : ∀ d' s, (server.expire config d).stored config d' = some s →
      server.stored config d' = some s := by
    intro d' s hs
    unfold RedisServer.expire RedisServer.stored at hs
    unfold RedisServer.stored
    dsimp only at hs
    by_cases hd : d' = d
    · -- The hash of the device is gone.
      rw [hd, AList.lookup_erase] at hs
      cases hs
    · rwa [AList.lookup_erase_ne fun heq => hd (device_key_injective config heq)] at hs
  exact ⟨fun d' seq c hs => h.present d' seq c (hstored d' _ hs),
    fun d' seq c c' hs => h.only d' seq c c' (hstored d' _ hs)⟩

/-- What a sweep keeps is enough for the live devices. -/
theorem Located.kept (h : Located config server) (hkept : Kept config server server') :
    Located config server' where
  present d seq c hs := by
    rw [hkept.stored] at hs
    -- A sweep only removes members without a hash.
    by_contra hgone
    rw [hkept.gone _ d (h.present d seq c hs) hgone] at hs
    cases hs
  only d seq c c' hs hmem := by
    rw [hkept.stored] at hs
    exact h.only d seq c c' hs (hkept.subset hmem)

/-- The servers that sequential runs reach in which the writes meet a condition. A sweep may scan
any keys. -/
inductive CellRun (config : RedisConfig) (allowed : RedisServer → String → DeviceState → Prop) :
    RedisServer → Prop
  | start : CellRun config allowed {}
  | update_device_state_cas {server : RedisServer} (d : String) (state : DeviceState) (ttl_s : ℤ) :
      state.seq < 2^64 → -2^63 ≤ state.h3_cell ∧ state.h3_cell < 2^63 → allowed server d state →
      CellRun config allowed server →
      CellRun config allowed
        ((RedisProgram.update_device_state_cas config d state ttl_s).exec handler server).final
  | expire {server : RedisServer} (d : String) : CellRun config allowed server →
      CellRun config allowed (server.expire config d)
  | remove_stale_cell_members {server : RedisServer} (order : HashOrder) (scanned : List (List String)) :
      CellRun config allowed server →
      CellRun config allowed
        ((RedisProgram.remove_stale_cell_members config scanned).exec (sweep_handler order) server).final

/-- In a run in which devices without a hash are written where they still are, each live device is
in its cell only. -/
theorem CellRun.located (h : CellRun config (Resumes config) server) : Located config server := by
  induction h with
  | start => exact .empty
  | @update_device_state_cas server d state ttl_s hseq hcell hresumes _ ih =>
    have hwrite : ((RedisProgram.update_device_state_cas config d state ttl_s).exec handler server).final =
        server ∨ Moves config d state server
          ((RedisProgram.update_device_state_cas config d state ttl_s).exec handler server).final :=
      Prog.Always.final (Q := fun t => t = server ∨ Moves config d state server t)
        ((always_update_device_state_cas d hseq hcell ttl_s).imp (fun _ => id) (fun _ _ => id)
          fun _ _ => .inl)
    rcases hwrite with hsame | hmoves
    · rw [hsame]
      exact ih
    · exact ih.move hresumes hmoves
  | expire d _ ih => exact ih.expire d
  | @remove_stale_cell_members server order scanned _ ih =>
    have hsweep := (always_remove_stale_cell_members config order scanned server).imp (fun _ => id)
      (fun _ _ ht => ht.1) fun _ _ => id
    exact ih.kept hsweep.final

/-- In a run in which no device without a hash is written in another cell than the one it is still a
member of, every sweep that scans all cells leaves in each cell set exactly the devices whose live
hash names the cell. -/
theorem cells_exact_after_sweep (h : CellRun config (Resumes config) server) (order : HashOrder)
    (scanned : List (List String))
    (hcomplete : ∀ d c, server.member config d c → cell_key config c ∈ scanned.flatten) {counts : ℕ × ℕ}
    (hok : ((RedisProgram.remove_stale_cell_members config scanned).exec (sweep_handler order)
      server).result = .ok counts) :
    CellsExact config
      ((RedisProgram.remove_stale_cell_members config scanned).exec (sweep_handler order) server).final := by
  obtain ⟨-, hsweep, -⟩ := (Prog.always_iff_exec _ _).mp
    (always_remove_stale_cell_members config order scanned server)
  obtain ⟨hkept, hlive⟩ := hsweep counts hok
  generalize ((RedisProgram.remove_stale_cell_members config scanned).exec (sweep_handler order)
    server).final = swept at hkept hlive
  have hlocated := h.located.kept hkept
  intro d c
  constructor
  · intro hmem
    -- Every cell with a member was scanned, so its members have hashes.
    have hstored := hlive _ (hcomplete d c (hkept.subset hmem)) d hmem
    rw [← hkept.stored] at hstored
    obtain ⟨⟨seq, cell⟩, hcell⟩ := Option.ne_none_iff_exists'.mp hstored
    exact ⟨seq, by rw [hcell, hlocated.only d seq cell c hcell hmem]⟩
  · rintro ⟨seq, hstored⟩
    exact hlocated.present d seq c hstored

/-- A device is written in cell 5 and expires. -/
def expired_in_5 : RedisServer :=
  ((RedisProgram.update_device_state_cas {} "d" { device_id := "d", seq := 1, h3_cell := 5 } 60).exec handler
    {}).final.expire {} "d"

/-- A sweep of its cell. -/
def swept_5 : RedisServer :=
  ((RedisProgram.remove_stale_cell_members {} [[cell_key {} 5]]).exec (sweep_handler .insertion)
    expired_in_5).final

/-- It is written in cell 7. -/
def written_in_7 (server : RedisServer) : RedisServer :=
  ((RedisProgram.update_device_state_cas {} "d" { device_id := "d", seq := 1, h3_cell := 7 } 60).exec handler
    server).final

/-- A sweep of both cells. -/
def sweep_both (server : RedisServer) : Interaction.Run RedisServer ConversionError (ℕ × ℕ) :=
  (RedisProgram.remove_stale_cell_members {} [[cell_key {} 5], [cell_key {} 7]]).exec
    (sweep_handler .insertion) server

/-- After a sweep the device can be written in another cell. -/
theorem cells_exact_after_sweep_in_between : CellsExact {} (sweep_both (written_in_7 swept_5)).final := by
  have hexpired : CellRun {} (Resumes {}) expired_in_5 :=
    .expire "d" (.update_device_state_cas "d" _ 60 (by decide) (by decide)
      (fun _ c hmem => absurd hmem (Finset.notMem_empty _)) .start)
  have hswept : CellRun {} (Resumes {}) swept_5 := .remove_stale_cell_members .insertion _ hexpired
  have hnone : swept_5.sets = ∅ := by decide +kernel
  have hresumes : Resumes {} swept_5 "d" { device_id := "d", seq := 1, h3_cell := 7 } := by
    intro _ c hmem
    unfold member at hmem
    rw [hnone] at hmem
    exact absurd hmem (Finset.notMem_empty _)
  have hsets : (written_in_7 swept_5).sets = {(cell_key {} 7, "d")} := by decide +kernel
  have hok : (sweep_both (written_in_7 swept_5)).result = .ok (0, 0) := by decide +kernel
  refine cells_exact_after_sweep
    (.update_device_state_cas "d" _ 60 (by decide) (by decide) hresumes hswept) .insertion
    [[cell_key {} 5], [cell_key {} 7]] (fun d c hmem => ?_) hok
  -- The device is a member of cell 7 alone, which is scanned.
  have hseven : cell_key {} c = cell_key {} 7 := by
    change (cell_key {} c, d) ∈ (written_in_7 swept_5).sets at hmem
    rw [hsets] at hmem
    exact (Prod.mk.inj (Finset.mem_singleton.mp hmem)).1
  rw [hseven]
  decide +kernel

/-- Without one, it stays a member of the first cell. -/
theorem reappeared_device_in_two_cells : ¬ ∀ (config : RedisConfig) (server : RedisServer),
    CellRun config (fun _ _ _ => True) server → ∀ (order : HashOrder) (scanned : List (List String)),
      (∀ d c, server.member config d c → cell_key config c ∈ scanned.flatten) → ∀ counts : ℕ × ℕ,
        ((RedisProgram.remove_stale_cell_members config scanned).exec (sweep_handler order)
          server).result = .ok counts →
        CellsExact config
          ((RedisProgram.remove_stale_cell_members config scanned).exec (sweep_handler order) server).final := by
  intro hall
  have hrun : CellRun {} (fun _ _ _ => True) (written_in_7 expired_in_5) :=
    .update_device_state_cas "d" _ 60 (by decide) (by decide) trivial
      (.expire "d" (.update_device_state_cas "d" _ 60 (by decide) (by decide) trivial .start))
  have hsets : (written_in_7 expired_in_5).sets = {(cell_key {} 7, "d"), (cell_key {} 5, "d")} := by
    decide +kernel
  have hcomplete : ∀ d c, (written_in_7 expired_in_5).member {} d c →
      cell_key {} c ∈ [[cell_key {} 5], [cell_key {} 7]].flatten := by
    intro d c hmem
    unfold member at hmem
    rw [hsets] at hmem
    rcases Finset.mem_insert.mp hmem with h | h
    · rw [(Prod.mk.inj h).1]
      decide +kernel
    · rw [(Prod.mk.inj (Finset.mem_singleton.mp h)).1]
      decide +kernel
  -- The sweep keeps the device in cell 5, as it has a hash, and the hash names cell 7.
  have hexact := hall {} _ hrun .insertion _ hcomplete (0, 0) (by decide +kernel)
  have hmember : (sweep_both (written_in_7 expired_in_5)).final.member {} "d" 5 := by decide +kernel
  obtain ⟨seq, hstored⟩ := (hexact "d" 5).mp hmember
  have hcell : ((sweep_both (written_in_7 expired_in_5)).final.stored {} "d").map Prod.snd = some 7 := by
    decide +kernel
  change (sweep_both (written_in_7 expired_in_5)).final.stored {} "d" = some (seq, 5) at hstored
  rw [hstored] at hcell
  cases hcell

end RedisServer

end SignalRoute
