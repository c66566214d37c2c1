import SignalRoute.Clients.RedisServer
import SignalRoute.Interaction.Pool

/-!
# Concurrent compare-and-sets on one device

Any number of calls of `update_device_state_cas` on one device run as a pool over one Redis server,
command by command. `Linearizable` is what an atomic compare-and-set would give in every reached
pool. The code checks in one command and writes in later ones, and `racing_not_linearizable` is the
schedule in which an older state overwrites a newer one and the device ends in two cells.

`undisturbed_linearizable` is the positive result, for the runs in which no `HSET` and no `SADD`
disturbs a call that is between its check and its last command (`Undisturbed`). Between the commands
a call is in a `Phase`, and `Phase.Holds` is what it may count on there, whatever the others do:
that its check still stands, and that the cell it is leaving, or entering, is still the one that the
hash names. These facts, with three about the index as a whole, are the invariant `Sound`.
-/

namespace SignalRoute

open Store (UnorderedMap)
open Numeric (ConversionError)
open Interaction (Prog Pool Protocol)

/-- The arguments of one call, besides the device: a state with 64-bit fields, and a TTL. -/
structure CasCall where
  state : DeviceState
  ttl_s : ℤ := 0
  seq_lt : state.seq < 2^64 := by decide
  cell_bounds : -2^63 ≤ state.h3_cell ∧ state.h3_cell < 2^63 := by decide

/-- A pool of calls over a server. -/
abbrev CasPool (ι : Type) : Type 1 := Pool ι RedisCommand RedisServer ConversionError Bool

namespace CasPool

variable {ι : Type} (config : RedisConfig) (device_id : String) (calls : ι → CasCall)

/-- The pool in which every call is at its start. -/
def start (server : RedisServer) : CasPool ι :=
  ⟨fun i => RedisProgram.update_device_state_cas config device_id (calls i).state (calls i).ttl_s,
    server⟩

/-- The words of the next command of a call; none where it has ended. -/
def next (P : CasPool ι) (i : ι) : List String :=
  match P.threads i with
  | .call c _ => c.args
  | _ => []

/-- Whether the next command of a call is the one of this name. -/
def NextIs (P : CasPool ι) (i : ι) (name : String) : Prop := (P.next i).head? = some name

instance (P : CasPool ι) (i : ι) (name : String) : Decidable (P.NextIs i name) :=
  inferInstanceAs (Decidable (_ = _))

/-- The next step of `i` disturbs no other call. A call that is still to write has passed its check:
an `HSET` keeps its number below that call's number, and is for the same cell or for the one that
the call is about to leave. A call that is still to add its cell has that cell in the hash, where an
`HSET` keeps it. And an `SADD` adds no cell that a call has just left. -/
structure Undisturbed (P : CasPool ι) (i : ι) : Prop where
  seq_lt : P.NextIs i "HSET" → ∀ j ≠ i, P.NextIs j "SREM" ∨ P.NextIs j "HSET" →
    (calls i).state.seq < (calls j).state.seq
  leaving : P.NextIs i "HSET" → ∀ j ≠ i, P.NextIs j "SREM" →
    (calls j).state.h3_cell = (calls i).state.h3_cell ∨
      P.next j = ["SREM", cell_key config (calls i).state.h3_cell, device_id]
  same_cell : P.NextIs i "HSET" → ∀ j ≠ i,
    P.NextIs j "HSET" ∨ P.NextIs j "EXPIRE" ∨ P.NextIs j "SADD" →
    (calls j).state.h3_cell = (calls i).state.h3_cell
  adding : P.NextIs i "SADD" → ∀ j ≠ i, P.NextIs j "HSET" →
    (calls j).state.h3_cell = (calls i).state.h3_cell

end CasPool

/-- The hash and the cell sets agree on where a device is. -/
structure Consistent (config : RedisConfig) (device_id : String) (server : RedisServer) : Prop where
  readable : server.Readable config device_id
  member_iff : ∀ cell, server.member config device_id cell ↔
    ∃ seq, server.stored config device_id = some (seq, cell)

section

variable {ι : Type} [DecidableEq ι] (config : RedisConfig) (device_id : String)
  (calls : ι → CasCall)

/-- Every pool that the guarded runs reach from the start of the calls. -/
def CasPool.Reached (G : CasPool ι → ι → Prop) (server : RedisServer) : CasPool ι → Prop :=
  Pool.Reaches RedisServer.handler G (CasPool.start config device_id calls server)

/-- What an atomic compare-and-set gives in every pool that the guarded runs reach: the stored
sequence number never decreases, no two calls are accepted with one number, and once all calls have
ended the device is in exactly the cell set that its hash names. -/
structure Linearizable (G : CasPool ι → ι → Prop) (server : RedisServer) : Prop where
  seq_le : ∀ P Q, CasPool.Reached config device_id calls G server P →
    Pool.Reaches RedisServer.handler G P Q → ∀ s, P.state.stored config device_id = some s →
      ∃ t, Q.state.stored config device_id = some t ∧ s.1 ≤ t.1
  accepted_unique : ∀ P, CasPool.Reached config device_id calls G server P →
    ∀ i j, P.threads i = .pure true → P.threads j = .pure true →
      (calls i).state.seq = (calls j).state.seq → i = j
  one_cell : ∀ P, CasPool.Reached config device_id calls G server P → (∀ i, P.Finished i) →
    Consistent config device_id P.state
  stored : ∀ P, CasPool.Reached config device_id calls G server P → (∀ i, P.Finished i) →
    device_id ≠ "" → Nonempty ι → (P.state.stored config device_id).isSome

end

/-- How far a call has come: before its check, about to leave the cell that its check found, about
to write the hash, to set the TTL, to add its cell, and ended. -/
inductive Phase where
  | start
  | leaving (old : ℤ)
  | writing
  | expiring
  | adding
  | accepted
  | rejected

namespace CasCall

variable (config : RedisConfig) (device_id : String) (call : CasCall)

/-- The phase after the check of a state, or of none. -/
def phaseAfter : Option DeviceState → Phase
  | none => .writing
  | some current =>
    if call.state.seq ≤ current.seq then .rejected
    else if current.h3_cell ≠ call.state.h3_cell then .leaving current.h3_cell
    else .writing

/-- The phase after the reply to `HGETALL`. -/
def afterReply (fields : UnorderedMap String String) : Phase :=
  if fields.entries.isEmpty then call.phaseAfter none
  else match device_state_from_hash fields with
    | .error _ => .rejected
    | .ok current => call.phaseAfter (some current)

/-- The order of the commands of one call. -/
def protocol : Protocol RedisCommand Phase where
  allowed φ c :=
    match φ, c with
    | .start, .HGETALL key => key = device_key config device_id
    | .leaving old, .SREM key member => key = cell_key config old ∧ member = device_id
    | .writing, .HSET key fields =>
      key = device_key config device_id ∧ fields = hash_fields { call.state with device_id }
    | .expiring, .EXPIRE _ _ => True
    | .adding, .SADD key member =>
      key = cell_key config call.state.h3_cell ∧ member = device_id
    | _, _ => False
  next _ c reply :=
    match c, reply with
    | .HGETALL _, fields => call.afterReply fields
    | .SREM _ _, _ => .writing
    | .HSET _ _, _ => if call.ttl_s > 0 then .expiring else .adding
    | .EXPIRE _ _, _ => .adding
    | .SADD _ _, _ => .accepted

/-- The phase in which a call returns; on an empty id it returns where it starts. -/
def Returns (accepted : Bool) (φ : Phase) : Prop :=
  match accepted with
  | true => φ = .accepted
  | false => φ = .rejected ∨ device_id = "" ∧ φ = .start

/-- The phase in which a call throws. -/
def Throws (_ : ConversionError) (φ : Phase) : Prop := φ = .rejected

/-- What a call does after a check that it passed keeps to the order. -/
theorem write_device_state_follows {current : Option DeviceState}
    (hcheck : (current.any fun current => decide (call.state.seq ≤ current.seq)) = false) :
    (RedisProgram.write_device_state config device_id call.state call.ttl_s current).Follows
      (call.protocol config device_id) (Returns device_id) Throws (call.phaseAfter current) := by
  unfold RedisProgram.write_device_state
  cases current with
  | none => by_cases httl : call.ttl_s > 0 <;> simp [httl, phaseAfter, protocol, Prog.perform, Returns]
  | some current =>
    have hle : ¬ call.state.seq ≤ current.seq := by simpa using hcheck
    by_cases hc : current.h3_cell = call.state.h3_cell <;> by_cases httl : call.ttl_s > 0 <;>
      simp [hle, hc, httl, phaseAfter, protocol, Prog.perform, Returns]

/-- Reading the state keeps to the order, and what it returns determines the next phase. -/
theorem get_device_state_follows :
    (RedisProgram.get_device_state config device_id).Follows (call.protocol config device_id)
      (fun current φ => φ = call.phaseAfter current) Throws .start := by
  unfold RedisProgram.get_device_state
  refine ⟨rfl, fun fields => ?_⟩
  show Prog.Follows _ _ _ _ (call.afterReply fields)
  unfold afterReply
  simp only [Prog.pure_bind]
  by_cases hempty : fields.entries.isEmpty = true
  · rw [if_pos hempty, if_pos hempty]
    rfl
  · rw [if_neg hempty, if_neg hempty]
    cases device_state_from_hash fields with
    | error e => exact rfl
    | ok current => exact rfl

/-- A call keeps to the order. -/
theorem update_device_state_cas_follows :
    (RedisProgram.update_device_state_cas config device_id call.state call.ttl_s).Follows
      (call.protocol config device_id) (Returns device_id) Throws .start := by
  unfold RedisProgram.update_device_state_cas
  by_cases hd : device_id = ""
  · rw [if_pos hd]
    exact .inr ⟨hd, rfl⟩
  · rw [if_neg hd, Prog.bind_eq, Prog.follows_bind]
    refine (call.get_device_state_follows config device_id).imp ?_ fun _ _ => id
    rintro current φ rfl
    cases hcheck : current.any fun current => decide (call.state.seq ≤ current.seq) with
    | false => exact call.write_device_state_follows config device_id hcheck
    | true =>
      cases current with
      | none => cases hcheck
      | some current =>
        have hle : call.state.seq ≤ current.seq := by simpa using hcheck
        simp [phaseAfter, Returns, hle]

end CasCall

/-- What the server knows of one device: the number and the cell that its hash says, and the cells
whose set it is in. -/
structure DeviceView where
  stored : Option (ℕ × ℤ)
  member : ℤ → Prop

/-- What the server knows of a device. -/
def RedisServer.view (config : RedisConfig) (device_id : String) (server : RedisServer) :
    DeviceView :=
  ⟨server.stored config device_id, server.member config device_id⟩

namespace RedisServer

variable (config : RedisConfig) (device_id : String) (server : RedisServer)

/-- `SREM` in the view. -/
theorem view_SREM (old : ℤ) :
    (execute (.SREM (cell_key config old) device_id) server).2.view config device_id =
      ⟨server.stored config device_id,
        fun cell => cell ≠ old ∧ server.member config device_id cell⟩ := by
  unfold view
  congr 1
  funext cell
  exact propext (member_SREM old cell)

/-- `SADD` in the view. -/
theorem view_SADD (new : ℤ) :
    (execute (.SADD (cell_key config new) device_id) server).2.view config device_id =
      ⟨server.stored config device_id,
        fun cell => cell = new ∨ server.member config device_id cell⟩ := by
  unfold view
  congr 1
  funext cell
  exact propext (member_SADD new cell)

/-- The `HSET` of a call in the view. -/
theorem view_HSET (call : CasCall) :
    (execute (.HSET (device_key config device_id) (hash_fields { call.state with device_id }))
        server).2.view config device_id =
      ⟨some (call.state.seq, call.state.h3_cell), server.member config device_id⟩ := by
  unfold view
  congr 1
  exact stored_HSET { call.state with device_id } call.seq_lt call.cell_bounds

end RedisServer

/-- What a call may count on in a phase, whatever the other calls do: before its `HSET`, that its
check stands, and that the device is in no other cell than the one it is leaving or its own; after
its `HSET`, that its number has not been overwritten by a smaller one, and until its `SADD`, that
the hash names its cell. -/
def Phase.Holds (call : CasCall) (v : DeviceView) : Phase → Prop
  | .start => True
  | .leaving old => ∃ seq cell, v.stored = some (seq, cell) ∧ seq < call.state.seq ∧
      (cell = old ∨ cell = call.state.h3_cell)
  | .writing => ∀ seq cell, v.stored = some (seq, cell) → seq < call.state.seq ∧
      (cell = call.state.h3_cell ∨ ¬ v.member cell)
  | .expiring | .adding => ∃ seq, v.stored = some (seq, call.state.h3_cell) ∧ call.state.seq ≤ seq
  | .accepted => ∃ seq cell, v.stored = some (seq, cell) ∧ call.state.seq ≤ seq
  | .rejected => v.stored.isSome

/-- The call has left its old cell and has not added its own. -/
def Phase.Between : Phase → Prop
  | .writing | .expiring | .adding => True
  | _ => False

/-- The call has written the hash. -/
def Phase.Written : Phase → Prop
  | .expiring | .adding | .accepted => True
  | _ => False

section Invariant

variable {ι : Type} [DecidableEq ι] (calls : ι → CasCall)

/-- The invariant of the undisturbed runs. -/
structure Sound (φ : ι → Phase) (v : DeviceView) : Prop where
  holds : ∀ j, (φ j).Holds (calls j) v
  member : ∀ cell, v.member cell → ∃ seq, v.stored = some (seq, cell)
  present : ∀ seq cell, v.stored = some (seq, cell) → v.member cell ∨ ∃ j, (φ j).Between
  distinct : ∀ i j, (φ i).Written → (φ j).Written →
    (calls i).state.seq = (calls j).state.seq → i = j

variable {calls} {φ : ι → Phase} {v : DeviceView}

/-- A call that has not written yet, or that had written before, adds no writer. -/
theorem written_of_update {i j : ι} {ψ : Phase} (hψ : ψ.Written → (φ i).Written)
    (hj : (Function.update φ i ψ j).Written) : (φ j).Written := by
  by_cases hji : j = i
  · subst hji
    rw [Function.update_self] at hj
    exact hψ hj
  · rwa [Function.update_of_ne hji] at hj

/-- A call checks: the view stays, and what the phase after the check counts on holds. -/
theorem Sound.check (h : Sound calls φ v) {i : ι} {ψ : Phase} (hi : φ i = .start)
    (hψ : ψ.Holds (calls i) v) (hnew : ¬ ψ.Written) :
    Sound calls (Function.update φ i ψ) v where
  holds j := by
    by_cases hj : j = i
    · subst hj
      rwa [Function.update_self]
    · rw [Function.update_of_ne hj]
      exact h.holds j
  member := h.member
  present seq cell hs := by
    refine (h.present seq cell hs).imp_right ?_
    rintro ⟨j, hj⟩
    have hne : j ≠ i := by
      rintro rfl
      rw [hi] at hj
      exact hj
    exact ⟨j, by rwa [Function.update_of_ne hne]⟩
  distinct j k hj hk := h.distinct j k (written_of_update (absurd · hnew) hj)
    (written_of_update (absurd · hnew) hk)

/-- A call leaves the cell that its check found. -/
theorem Sound.leave (h : Sound calls φ v) {i : ι} {old : ℤ} (hi : φ i = .leaving old) :
    Sound calls (Function.update φ i .writing)
      ⟨v.stored, fun cell => cell ≠ old ∧ v.member cell⟩ where
  holds j := by
    by_cases hj : j = i
    · subst hj
      -- Past the `SREM` the call needs its old cell gone, unless the hash names it for its own.
      have hleaving := h.holds j
      rw [hi] at hleaving
      obtain ⟨seq, cell, hs, hlt, hcell⟩ := hleaving
      rw [Function.update_self]
      intro seq' cell' hs'
      rw [hs] at hs'
      cases hs'
      exact ⟨hlt, hcell.symm.imp_right fun heq hm => hm.1 heq⟩
    · rw [Function.update_of_ne hj]
      have hother := h.holds j
      cases hφ : φ j with
      | writing =>
        rw [hφ] at hother
        -- Removing a member takes nothing from what a writer counts on.
        intro seq cell hs
        exact (hother seq cell hs).imp_right (Or.imp_right fun hm hm' => hm hm'.2)
      | _ =>
        rw [hφ] at hother
        exact hother
  member cell hm := h.member cell hm.2
  present seq cell hs := .inr ⟨i, by rw [Function.update_self]; trivial⟩
  distinct j k hj hk := h.distinct j k (written_of_update False.elim hj)
    (written_of_update False.elim hk)

/-- A call writes the hash. -/
theorem Sound.write (h : Sound calls φ v) {i : ι} {ψ : Phase} (hi : φ i = .writing)
    (hψ : ψ = .expiring ∨ ψ = .adding)
    (hseq : ∀ j ≠ i, φ j = .writing ∨ (∃ old, φ j = .leaving old) →
      (calls i).state.seq < (calls j).state.seq)
    (hleaving : ∀ j ≠ i, ∀ old, φ j = .leaving old →
      (calls j).state.h3_cell = (calls i).state.h3_cell ∨ old = (calls i).state.h3_cell)
    (hcell : ∀ j ≠ i, (φ j).Between → (calls j).state.h3_cell = (calls i).state.h3_cell) :
    Sound calls (Function.update φ i ψ)
      ⟨some ((calls i).state.seq, (calls i).state.h3_cell), v.member⟩ := by
  have hwriting := h.holds i
  rw [hi] at hwriting
  -- The number that is overwritten is smaller, so no earlier writer had this one.
  have hle : ∀ j, (φ j).Written → (calls j).state.seq < (calls i).state.seq := by
    intro j hj
    have hholds := h.holds j
    cases hφ : φ j with
    | expiring | adding =>
      rw [hφ] at hholds
      obtain ⟨seq, hs, hseq⟩ := hholds
      have := (hwriting seq _ hs).1
      omega
    | accepted =>
      rw [hφ] at hholds
      obtain ⟨seq, cell, hs, hseq⟩ := hholds
      have := (hwriting seq cell hs).1
      omega
    | _ =>
      rw [hφ] at hj
      exact hj.elim
  -- Each call's phase, the members, the cell of the hash, and the numbers written.
  refine ⟨fun j => ?_, fun cell hm => ?_, fun seq cell hs => ?_, fun j k hj hk heq => ?_⟩
  · by_cases hj : j = i
    · subst hj
      rw [Function.update_self]
      rcases hψ with rfl | rfl <;> exact ⟨_, rfl, le_rfl⟩
    · rw [Function.update_of_ne hj]
      have hother := h.holds j
      cases hφ : φ j with
      | start => trivial
      | leaving old =>
        have := hleaving j hj old hφ
        exact ⟨_, _, rfl, hseq j hj (.inr ⟨old, hφ⟩), by omega⟩
      | writing =>
        intro seq cell hs
        -- The writer that comes after this one has a larger number, as the run is undisturbed.
        cases hs
        exact ⟨hseq j hj (.inl hφ), .inl (hcell j hj (by rw [hφ]; trivial)).symm⟩
      | expiring | adding =>
        -- A call between its writes adds the cell that the hash now names.
        have hlt := hle j (by rw [hφ]; trivial)
        have hc := hcell j hj (by rw [hφ]; trivial)
        exact ⟨_, by rw [hc], hlt.le⟩
      | accepted => exact ⟨_, _, rfl, (hle j (by rw [hφ]; trivial)).le⟩
      | rejected => rfl
  · obtain ⟨seq, hs⟩ := h.member cell hm
    -- Whatever is still a member is in the cell that is written.
    have hc := (hwriting seq cell hs).2.resolve_right (not_not.mpr hm)
    exact ⟨_, by rw [hc]⟩
  · refine .inr ⟨i, ?_⟩
    rw [Function.update_self]
    rcases hψ with rfl | rfl <;> trivial
  · by_cases hji : j = i <;> by_cases hki : k = i
    · rw [hji, hki]
    · -- An earlier writer has a smaller number, so no two have the same.
      rw [Function.update_of_ne hki] at hk
      have := hle k hk
      rw [← heq, hji] at this
      omega
    · rw [Function.update_of_ne hji] at hj
      have := hle j hj
      rw [heq, hki] at this
      omega
    · rw [Function.update_of_ne hji] at hj
      rw [Function.update_of_ne hki] at hk
      exact h.distinct j k hj hk heq

/-- A call sets the TTL. -/
theorem Sound.expire (h : Sound calls φ v) {i : ι} (hi : φ i = .expiring) :
    Sound calls (Function.update φ i .adding) v where
  holds j := by
    by_cases hj : j = i
    · subst hj
      have hexpiring := h.holds j
      rw [hi] at hexpiring
      rw [Function.update_self]
      exact hexpiring
    · rw [Function.update_of_ne hj]
      exact h.holds j
  member := h.member
  present seq cell hs := by
    refine (h.present seq cell hs).imp_right ?_
    rintro ⟨j, hj⟩
    by_cases hji : j = i
    · -- A call that is to add its cell is still to add it.
      exact ⟨i, by rw [Function.update_self]; trivial⟩
    · exact ⟨j, by rwa [Function.update_of_ne hji]⟩
  distinct j k hj hk := by
    have hwritten : (φ i).Written := by
      rw [hi]
      trivial
    exact h.distinct j k (written_of_update (fun _ => hwritten) hj)
      (written_of_update (fun _ => hwritten) hk)

/-- A call adds its cell. -/
theorem Sound.add (h : Sound calls φ v) {i : ι} (hi : φ i = .adding)
    (hcell : ∀ j ≠ i, φ j = .writing → (calls j).state.h3_cell = (calls i).state.h3_cell) :
    Sound calls (Function.update φ i .accepted)
      ⟨v.stored, fun cell => cell = (calls i).state.h3_cell ∨ v.member cell⟩ := by
  have hadding := h.holds i
  rw [hi] at hadding
  obtain ⟨seq, hs, hle⟩ := hadding
  have hwritten : (φ i).Written := by
    rw [hi]
    trivial
  refine ⟨fun j => ?_, fun cell hm => ?_, fun seq' cell hs' => ?_, fun j k hj hk => ?_⟩
  · by_cases hj : j = i
    · subst hj
      rw [Function.update_self]
      exact ⟨seq, _, hs, hle⟩
    · rw [Function.update_of_ne hj]
      have hother := h.holds j
      cases hφ : φ j with
      | writing =>
        -- The hash names the cell that is added, which is the writer's own.
        rw [hφ] at hother
        intro seq' cell hs'
        refine ⟨(hother seq' cell hs').1, .inl ?_⟩
        change v.stored = _ at hs'
        rw [hs] at hs'
        cases hs'
        exact (hcell j hj hφ).symm
      | _ =>
        rw [hφ] at hother
        exact hother
  · rcases hm with rfl | hm
    · exact ⟨seq, hs⟩
    · exact h.member cell hm
  · change v.stored = _ at hs'
    rw [hs] at hs'
    -- The hash names a cell, and the device is a member of it now.
    cases hs'
    exact .inl (.inl rfl)
  · exact h.distinct j k (written_of_update (fun _ => hwritten) hj)
      (written_of_update (fun _ => hwritten) hk)

end Invariant

section Pools

variable {ι : Type} {config : RedisConfig} {device_id : String} {calls : ι → CasCall}
  {φ : ι → Phase} {P Q : CasPool ι}

/-- What the next command of a call is in each phase between its check and its end. -/
theorem CasPool.next_of_follows {j : ι}
    (hf : (P.threads j).Follows ((calls j).protocol config device_id)
      (CasCall.Returns device_id) CasCall.Throws (φ j)) :
    match φ j with
    | .leaving old => P.next j = ["SREM", cell_key config old, device_id]
    | .writing => P.NextIs j "HSET"
    | .expiring => P.NextIs j "EXPIRE"
    | .adding => P.NextIs j "SADD"
    | _ => True := by
  unfold CasPool.NextIs CasPool.next
  generalize φ j = ψ at hf ⊢
  generalize P.threads j = p at hf ⊢
  cases p with
  | pure accepted =>
    cases accepted with
    | true =>
      obtain rfl : ψ = .accepted := hf
      trivial
    | false => rcases hf with rfl | ⟨-, rfl⟩ <;> trivial
  | throw e =>
    cases hf
    trivial
  | call c k =>
    obtain ⟨hc, -⟩ := hf
    cases c <;> cases ψ <;> first | exact hc.elim | trivial | rfl | skip
    obtain ⟨rfl, rfl⟩ := hc
    rfl

/-- The invariant of a pool over a server, above a number that is stored from some point on. -/
structure Safe (config : RedisConfig) (device_id : String) (calls : ι → CasCall) (floor : Option ℕ)
    (φ : ι → Phase) (server : RedisServer) : Prop where
  readable : server.Readable config device_id
  sound : Sound calls φ (server.view config device_id)
  floor_le : ∀ b, floor = some b → ∃ s, server.stored config device_id = some s ∧ b ≤ s.1

/-- What the phase after the reply to `HGETALL` counts on holds. -/
theorem CasCall.afterReply_holds (call : CasCall) {server : RedisServer}
    (hr : server.Readable config device_id) :
    (call.afterReply (server.fields (device_key config device_id))).Holds call
      (server.view config device_id) ∧
      ¬ (call.afterReply (server.fields (device_key config device_id))).Written := by
  unfold afterReply
  -- The check sees no hash, one that does not read, or a state of some number.
  by_cases hempty : (server.fields (device_key config device_id)).entries.isEmpty = true
  · rw [if_pos hempty]
    refine ⟨fun seq cell hs => ?_, id⟩
    change server.stored config device_id = _ at hs
    unfold RedisServer.stored at hs
    rw [hr.lookup_eq_none hempty] at hs
    cases hs
  · -- A hash that is there reads, in this invariant, so the error does not come up.
    rw [if_neg hempty]
    cases hstate : device_state_from_hash (server.fields (device_key config device_id)) with
    | error e =>
      refine ⟨hr.resolve_left fun hnone => hempty ?_, id⟩
      unfold RedisServer.fields
      rw [hnone]
      rfl
    | ok current =>
      have hs := RedisServer.stored_of_device_state_from_hash (eq_false_of_ne_true hempty) hstate
      simp only [phaseAfter]
      by_cases hle : call.state.seq ≤ current.seq
      · rw [if_pos hle]
        exact ⟨by rw [Phase.Holds, RedisServer.view, hs]; rfl, id⟩
      · rw [if_neg hle]
        by_cases hcell : current.h3_cell ≠ call.state.h3_cell
        · rw [if_pos hcell]
          exact ⟨⟨_, _, hs, by omega, .inl rfl⟩, id⟩
        · rw [if_neg hcell]
          refine ⟨fun seq cell hs' => ?_, id⟩
          change server.stored config device_id = _ at hs'
          rw [hs] at hs'
          cases hs'
          exact ⟨by omega, .inl (not_not.mp hcell)⟩

variable {floor : Option ℕ}

/-- The invariant of a pool. -/
def CasPool.Inv (config : RedisConfig) (device_id : String) (calls : ι → CasCall)
    (floor : Option ℕ) : CasPool ι → Prop :=
  Pool.Inv (fun j => (calls j).protocol config device_id) (fun _ => CasCall.Returns device_id)
    (fun _ => CasCall.Throws) (Safe config device_id calls floor)

/-- Calls over a consistent server start in the invariant. -/
theorem CasPool.inv_start {server : RedisServer} (h : Consistent config device_id server) :
    CasPool.Inv config device_id calls none (CasPool.start config device_id calls server) := by
  refine ⟨fun _ => .start, fun j => (calls j).update_device_state_cas_follows config device_id,
    h.readable, ?_, fun b hb => by cases hb⟩
  refine ⟨fun _ => trivial, fun cell => (h.member_iff cell).mp, fun seq cell hs => ?_,
    fun i _ hi => hi.elim⟩
  exact .inl ((h.member_iff cell).mpr ⟨seq, hs⟩)

/-- A number that is stored in a pool is a floor from then on. -/
theorem CasPool.Inv.raise (hP : CasPool.Inv config device_id calls floor P) {s : ℕ × ℤ}
    (hs : P.state.stored config device_id = some s) :
    CasPool.Inv config device_id calls (some s.1) P := by
  obtain ⟨φ, hf, hJ⟩ := hP
  refine ⟨φ, hf, hJ.readable, hJ.sound, fun b hb => ⟨s, hs, ?_⟩⟩
  cases hb
  exact le_rfl

/-- A call that has ended is in the last phase, or on the empty id in the first. -/
theorem CasPool.ended {j : ι} (hf : (P.threads j).Follows ((calls j).protocol config device_id)
      (CasCall.Returns device_id) CasCall.Throws (φ j)) (hj : P.Finished j) :
    φ j = .accepted ∨ φ j = .rejected ∨ device_id = "" ∧ φ j = .start := by
  rcases hj with ⟨accepted, ha⟩ | ⟨e, he⟩
  · rw [ha] at hf
    cases accepted with
    | true => exact .inl hf
    | false => exact .inr hf
  · rw [he] at hf
    exact .inr (.inl hf)

/-- A call that returned `true` has written the hash. -/
theorem CasPool.written {j : ι} (hf : (P.threads j).Follows ((calls j).protocol config device_id)
      (CasCall.Returns device_id) CasCall.Throws (φ j)) (hj : P.threads j = .pure true) :
    (φ j).Written := by
  rw [hj] at hf
  rw [show φ j = .accepted from hf]
  trivial

variable [DecidableEq ι]

/-- One command of an undisturbed run keeps the invariant. -/
theorem Safe.command (h : Safe config device_id calls floor φ P.state)
    (hf : ∀ j, (P.threads j).Follows ((calls j).protocol config device_id)
      (CasCall.Returns device_id) CasCall.Throws (φ j)) {i : ι}
    (hg : P.Undisturbed config device_id calls i) {β : Type} (c : RedisCommand β)
    (hc : ((calls i).protocol config device_id).allowed (φ i) c) :
    Safe config device_id calls floor
      (Function.update φ i (((calls i).protocol config device_id).next (φ i) c
        (RedisServer.execute c P.state).1))
      (RedisServer.execute c P.state).2 := by
  -- What the others do next is what the conditions on the run speak of.
  have hnext := fun j => CasPool.next_of_follows (hf j)
  cases c with
  | HGETALL key =>
    cases hφ : φ i <;> rw [hφ] at hc <;> try exact hc.elim
    obtain rfl : key = device_key config device_id := hc
    obtain ⟨hholds, hnew⟩ := (calls i).afterReply_holds h.readable
    exact ⟨h.readable, h.sound.check hφ hholds hnew, h.floor_le⟩
  | SREM key member =>
    cases hφ : φ i <;> rw [hφ] at hc <;> try exact hc.elim
    -- The call is leaving `old`, so the cell that it removes is that one.
    rename_i old
    obtain ⟨rfl, rfl⟩ : key = cell_key config old ∧ member = device_id := hc
    refine ⟨h.readable, ?_, h.floor_le⟩
    rw [RedisServer.view_SREM]
    exact h.sound.leave hφ
  | HSET key fields =>
    cases hφ : φ i <;> rw [hφ] at hc <;> try exact hc.elim
    obtain ⟨rfl, rfl⟩ := hc
    -- The write of the hash, where the conditions on the run are used.
    have hview := RedisServer.view_HSET config device_id P.state (calls i)
    have hi : P.NextIs i "HSET" := by simpa [hφ] using hnext i
    have hwriting := h.sound.holds i
    rw [hφ] at hwriting
    refine ⟨.inr ?_, ?_, fun b hb => ?_⟩
    · rw [show RedisServer.stored _ _ _ = _ from congrArg DeviceView.stored hview]
      rfl
    · rw [hview]
      refine h.sound.write hφ (by by_cases h : (calls i).ttl_s > 0 <;> simp [CasCall.protocol, h])
        (fun j hj hφj => ?_) (fun j hj old hφj => ?_) fun j hj hφj => ?_
      · refine hg.seq_lt hi j hj ?_
        rcases hφj with hφj | ⟨old, hφj⟩
        · exact .inr (by simpa [hφj] using hnext j)
        · have hj := hnext j
          rw [hφj] at hj
          exact .inl (by unfold CasPool.NextIs; rw [hj]; rfl)
      · have hj' := hnext j
        rw [hφj] at hj'
        refine (hg.leaving hi j hj (by unfold CasPool.NextIs; rw [hj']; rfl)).imp_right fun hw => ?_
        rw [hj'] at hw
        simpa [(cell_key_injective config).eq_iff] using hw
      · refine hg.same_cell hi j hj ?_
        have hj' := hnext j
        cases hφ' : φ j <;> rw [hφ'] at hφj hj' <;> try exact hφj.elim
        · exact .inl hj'
        · exact .inr (.inl hj')
        · exact .inr (.inr hj')
    · -- The number goes up, so a floor stays one.
      obtain ⟨s, hs, hle⟩ := h.floor_le b hb
      refine ⟨_, congrArg DeviceView.stored hview, ?_⟩
      have := (hwriting s.1 s.2 hs).1
      dsimp only
      omega
  | EXPIRE key seconds =>
    cases hφ : φ i <;> rw [hφ] at hc <;> try exact hc.elim
    exact ⟨h.readable, h.sound.expire hφ, h.floor_le⟩
  | SADD key member =>
    cases hφ : φ i <;> rw [hφ] at hc <;> try exact hc.elim
    obtain ⟨rfl, rfl⟩ : key = cell_key config (calls i).state.h3_cell ∧ member = device_id := hc
    refine ⟨h.readable, ?_, h.floor_le⟩
    rw [RedisServer.view_SADD]
    refine h.sound.add hφ fun j hj hφj => hg.adding ?_ j hj ?_
    · simpa [hφ] using hnext i
    · simpa [hφj] using hnext j

/-- Every undisturbed run keeps the invariant. -/
theorem CasPool.Inv.reaches (hP : CasPool.Inv config device_id calls floor P)
    (hQ : Pool.Reaches RedisServer.handler (CasPool.Undisturbed config device_id calls) P Q) :
    CasPool.Inv config device_id calls floor Q :=
  hQ.invariant hP fun _ i hP hg => Pool.Inv.step hP i fun _ _ c _ hf hJ _ hc =>
    hJ.command hf hg c hc

/-- Compare-and-sets that do not disturb each other are linearizable. -/
theorem undisturbed_linearizable (config : RedisConfig) (device_id : String)
    (calls : ι → CasCall) (server : RedisServer) (h : Consistent config device_id server) :
    Linearizable config device_id calls (CasPool.Undisturbed config device_id calls) server where
  seq_le P Q hP hQ s hs := by
    have hinv := (CasPool.inv_start h).reaches hP
    obtain ⟨φ, -, hJ⟩ := (hinv.raise hs).reaches hQ
    exact hJ.floor_le _ rfl
  accepted_unique P hP i j hi hj := by
    obtain ⟨φ, hf, hJ⟩ := (CasPool.inv_start h).reaches hP
    exact hJ.sound.distinct i j (CasPool.written (hf i) hi) (CasPool.written (hf j) hj)
  one_cell P hP hall := by
    obtain ⟨φ, hf, hJ⟩ := (CasPool.inv_start h).reaches hP
    -- With no call left to add its cell, the cell that the hash names has the device.
    refine ⟨hJ.readable, fun cell => ⟨hJ.sound.member cell, fun ⟨seq, hs⟩ => ?_⟩⟩
    refine (hJ.sound.present seq cell hs).resolve_right ?_
    rintro ⟨j, hj⟩
    rcases CasPool.ended (hf j) (hall j) with hφ | hφ | ⟨-, hφ⟩ <;> rw [hφ] at hj <;> exact hj
  stored P hP hall hd hι := by
    obtain ⟨φ, hf, hJ⟩ := (CasPool.inv_start h).reaches hP
    obtain ⟨j⟩ := hι
    have hholds := hJ.sound.holds j
    rcases CasPool.ended (hf j) (hall j) with hφ | hφ | ⟨hd', -⟩
    · rw [hφ] at hholds
      obtain ⟨seq, cell, hs, -⟩ := hholds
      exact Option.isSome_of_eq_some hs
    · rw [hφ] at hholds
      exact hholds
    · exact absurd hd' hd

end Pools

/-- Two calls with different cells; the one with index `true` is the newer. -/
def racing (i : Bool) : CasCall :=
  if i then { state := { device_id := "d", seq := 2, h3_cell := 2 } }
  else { state := { device_id := "d", seq := 1, h3_cell := 1 } }

/-- The empty server is consistent. -/
theorem consistent_empty : Consistent {} "d" {} := by
  refine ⟨.inl rfl, fun cell => iff_of_false (by simp [RedisServer.member]) ?_⟩
  rintro ⟨seq, hs⟩
  cases hs

/-- The pool after a schedule of the two calls on the empty server. -/
def raced (schedule : List Bool) : CasPool Bool :=
  Pool.run RedisServer.handler schedule (CasPool.start {} "d" racing {})

/-- One call after the other: the device ends in exactly the cell of the newer one. -/
theorem undisturbed_linearizable_in_turn :
    Consistent {} "d" (raced [false, false, false, true, true, true, true]).state ∧
      (raced [false, false, false, true, true, true, true]).state.stored {} "d" = some (2, 2) := by
  refine ⟨(undisturbed_linearizable {} "d" racing {} consistent_empty).one_cell _
    (Pool.reaches_run ?_) ?_, by decide +kernel⟩
  · refine ⟨?_, ?_, ?_, ?_, ?_, ?_, ?_, trivial⟩ <;> constructor <;> decide +kernel
  · decide +kernel

/-- The older call checks, the newer one runs to its end, and the older one writes: the stored number
decreases, and when both have ended the device is in two cells. -/
theorem racing_not_linearizable :
    ¬ Linearizable {} "d" racing (fun _ _ => True) {} ∧
      let P := raced [false, true, true, true, false, false]
      (∀ i, P.Finished i) ∧ P.state.member {} "d" 1 ∧ P.state.member {} "d" 2 := by
  refine ⟨fun h => ?_, by decide +kernel, by decide +kernel, by decide +kernel⟩
  obtain ⟨t, ht, hle⟩ := h.seq_le (raced [false, true, true, true])
    (raced [false, true, true, true, false, false]) (Pool.reaches_run_true _)
    (Pool.reaches_run_true [false, false]) (2, 2) (by decide +kernel)
  have ht' : (raced [false, true, true, true, false, false]).state.stored {} "d" = some (1, 1) := by
    decide +kernel
  rw [ht'] at ht
  cases ht
  omega

end SignalRoute
