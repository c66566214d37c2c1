import SignalRoute.Store.Unordered
import Mathlib.Logic.Function.Basic

/-!
# Admission leases

`src/gateway/admission_control.cpp` under concurrency: any number of threads call `try_acquire`, and
construct, assign, move and destroy leases, and each atomic access of `in_flight_` is a step of its
own. A call is named by the address of the lease that it is about to construct, or that it is called
on, and `LeaseSlot` is what stands at an address: a lease at rest, or a call on it and how far it has
come. As the language requires, nothing else touches an object while a call works on it.

A slot holds a place if its call has counted itself in and not yet out, or if its lease is to count
itself out later. Every step keeps `in_flight_` equal to the number of the slots that do
(`Counted.step`), and a compare-and-exchange that succeeds has just seen a value below the limit.
-/

namespace SignalRoute

open Store (UnorderedMap)

/-- What stands at the address of a lease, for controls `κ` and addresses `α`. -/
inductive LeaseSlot (κ α : Type) where
  /-- `try_acquire` has `current`, and is at the head of its loop. -/
  | trying (control : κ) (current : ℤ)
  /-- `try_acquire` has counted the lease that it is about to construct. -/
  | acquired (control : κ)
  /-- A lease and its `owner_`. -/
  | lease (owner : Option κ)
  /-- The destructor of an active lease is about to release it. -/
  | destroying (control : κ)
  /-- A move assignment from `other` is about to release the lease that it overwrites. -/
  | assigning (control : κ) (other : α)
  /-- A move assignment from `other` has released it. -/
  | released (other : α)
  /-- A lease that a running move assignment takes from, and its `owner_`. -/
  | lent (owner : Option κ)
  deriving DecidableEq

/-- Whether a slot holds a place of a control. -/
def LeaseSlot.holds {κ α : Type} [DecidableEq κ] (control : κ) : LeaseSlot κ α → Bool
  | .acquired c | .lease (some c) | .destroying c | .assigning c _ | .lent (some c) => c = control
  | _ => false

/-- Whether a lease is at rest there. -/
def LeaseSlot.isLease {κ α : Type} : LeaseSlot κ α → Bool
  | .lease _ => true
  | _ => false

/-- What the threads do: they start a call, or let the call at an address take its next step. -/
inductive LeaseAction (κ α : Type) where
  | default_construct (lease : α)
  | try_acquire (control : κ) (lease : α)
  | move_construct (lease other : α)
  | move_assign (lease other : α)
  | destroy (lease : α)
  | step (lease : α) (spurious : Bool)

/-- The counters of the controls, and the leases. -/
structure Admission (κ α : Type) where
  in_flight : κ → ℤ := fun _ => 0
  slots : UnorderedMap α (LeaseSlot κ α) := ∅

namespace Admission

section Model

variable {κ α : Type} [DecidableEq κ] [DecidableEq α] (limit : κ → ℤ)

/-- A counter with a new value. -/
def store (control : κ) (value : ℤ) (w : Admission κ α) : Admission κ α :=
  { w with in_flight := Function.update w.in_flight control value }

/-- `release`: `fetch_sub`. -/
def release (control : κ) (w : Admission κ α) : Admission κ α :=
  w.store control (w.in_flight control - 1)

/-- A slot with something new. -/
def put (lease : α) (slot : LeaseSlot κ α) (w : Admission κ α) : Admission κ α :=
  { w with slots := w.slots.insert lease slot }

/-- A slot that is free again. -/
def clear (lease : α) (w : Admission κ α) : Admission κ α :=
  { w with slots := w.slots.erase lease }

/-- `try_acquire`, as far as its load. -/
def try_acquire (control : κ) (lease : α) (w : Admission κ α) : Admission κ α :=
  if limit control ≤ 0 then w.put lease (.lease none)
  else w.put lease (.trying control (w.in_flight control))

/-- A turn of the loop of `try_acquire`. A `compare_exchange_weak` that fails, spuriously or not, reads
the counter again. -/
def compare_exchange (control : κ) (current : ℤ) (spurious : Bool) (lease : α) (w : Admission κ α) :
    Admission κ α :=
  if current < limit control then
    if w.in_flight control = current ∧ spurious = false then
      (w.store control (current + 1)).put lease (.acquired control)
    else w.put lease (.trying control (w.in_flight control))
  else w.clear lease

/-- The move of an `owner_`: `std::exchange`. -/
def exchange (lease other : α) (owner : Option κ) (w : Admission κ α) : Admission κ α :=
  (w.put lease (.lease owner)).put other (.lease none)

/-- The move constructor. -/
def move_construct (lease other : α) (w : Admission κ α) : Option (Admission κ α) :=
  match w.slots.lookup other with
  | some (.lease owner) => some (w.exchange lease other owner)
  | _ => none

/-- The move assignment, as far as its release. -/
def move_assign (lease other : α) (w : Admission κ α) : Option (Admission κ α) :=
  match w.slots.lookup lease, w.slots.lookup other with
  | some (.lease owner), some (.lease other_owner) =>
    if lease = other then some w
    else
      match owner with
      | some control =>
        some ((w.put lease (.assigning control other)).put other (.lent other_owner))
      | none => some (w.exchange lease other other_owner)
  | _, _ => none

/-- The destructor, as far as its release. -/
def destroy (lease : α) (w : Admission κ α) : Option (Admission κ α) :=
  match w.slots.lookup lease with
  | some (.lease (some control)) => some (w.put lease (.destroying control))
  | some (.lease none) => some (w.clear lease)
  | _ => none

/-- The next step of the call at an address. -/
def advance (lease : α) (spurious : Bool) (w : Admission κ α) : Option (Admission κ α) :=
  match w.slots.lookup lease with
  | some (.trying control current) => some (w.compare_exchange limit control current spurious lease)
  | some (.acquired control) => some (w.put lease (.lease (some control)))
  | some (.destroying control) => some ((w.release control).clear lease)
  | some (.assigning control other) => some ((w.release control).put lease (.released other))
  | some (.released other) =>
    match w.slots.lookup other with
    | some (.lent owner) => some (w.exchange lease other owner)
    | _ => none
  | _ => none

/-- An action, where it is possible: an object is constructed where there is none. -/
def perform (w : Admission κ α) : LeaseAction κ α → Option (Admission κ α)
  | .default_construct lease => if lease ∈ w.slots then none else some (w.put lease (.lease none))
  | .try_acquire control lease =>
    if lease ∈ w.slots then none else some (w.try_acquire limit control lease)
  | .move_construct lease other => if lease ∈ w.slots then none else w.move_construct lease other
  | .move_assign lease other => w.move_assign lease other
  | .destroy lease => w.destroy lease
  | .step lease spurious => w.advance limit lease spurious

/-- Actions one after the other, from the start; one that is not possible is none. -/
def run (actions : List (LeaseAction κ α)) : Admission κ α :=
  actions.foldl (fun w action => (w.perform limit action).getD w) {}

end Model

section Counting

variable {κ α : Type} [DecidableEq κ]

/-- No call is between its steps. -/
def AtRest (w : Admission κ α) : Prop := ∀ e ∈ w.slots.entries, e.snd.isLease = true

instance (w : Admission κ α) : Decidable w.AtRest := inferInstanceAs (Decidable (∀ e ∈ _, _))

/-- How many leases of a control are active. -/
def active_leases (w : Admission κ α) (control : κ) : ℕ :=
  Store.count (fun slot => slot.isLease && slot.holds control) w.slots

/-- How far the counter of a control is ahead of the slots that hold a place. -/
def excess (w : Admission κ α) (control : κ) : ℤ :=
  w.in_flight control - Store.count (LeaseSlot.holds control) w.slots

/-- The places of a control that an address holds. -/
def held (control : κ) (slot : Option (LeaseSlot κ α)) : ℤ :=
  slot.elim 0 fun slot => (slot.holds control).toNat

/-- The counters are those of the slots that hold a place, and within the limits. -/
structure Counted (limit : κ → ℤ) (w : Admission κ α) : Prop where
  excess_eq : ∀ control, w.excess control = 0
  le_limit : ∀ control, w.in_flight control ≤ max 0 (limit control)

variable {limit : κ → ℤ} {w : Admission κ α} {other : α} {control c : κ}

@[simp] theorem held_none : held c (none : Option (LeaseSlot κ α)) = 0 := rfl

@[simp] theorem held_trying (current : ℤ) :
    held c (some (.trying control current : LeaseSlot κ α)) = 0 := rfl

@[simp] theorem held_lease_none : held c (some (.lease none : LeaseSlot κ α)) = 0 := rfl

@[simp] theorem held_released : held c (some (.released other : LeaseSlot κ α)) = 0 := rfl

theorem held_acquired : held c (some (.acquired control : LeaseSlot κ α)) = if control = c then 1 else 0 := by
  by_cases h : control = c <;> simp [held, LeaseSlot.holds, h]

/-- A lease holds a place where the call on it will release one. -/
theorem held_lease_some : held c (some (.lease (some control) : LeaseSlot κ α)) =
    held c (some (.acquired control : LeaseSlot κ α)) := rfl

theorem held_destroying : held c (some (.destroying control : LeaseSlot κ α)) =
    held c (some (.acquired control : LeaseSlot κ α)) := rfl

theorem held_assigning : held c (some (.assigning control other : LeaseSlot κ α)) =
    held c (some (.acquired control : LeaseSlot κ α)) := rfl

/-- A lease that is lent still holds its place. -/
theorem held_lent (owner : Option κ) :
    held c (some (.lent owner : LeaseSlot κ α)) = held c (some (.lease owner : LeaseSlot κ α)) := by
  cases owner <;> rfl

theorem excess_store (value : ℤ) :
    (w.store control value).excess c =
      w.excess c + if control = c then value - w.in_flight control else 0 := by
  unfold excess store
  dsimp only
  by_cases h : control = c
  · subst h
    rw [Function.update_self, if_pos rfl]
    omega
  · rw [Function.update_of_ne (Ne.symm h), if_neg h, add_zero]

theorem excess_release :
    (w.release control).excess c = w.excess c - held c (some (.acquired control : LeaseSlot κ α)) := by
  unfold release
  rw [excess_store, held_acquired]
  split <;> omega

/-- What keeps the excess and raises no counter keeps the invariant. -/
theorem Counted.of_excess {w' : Admission κ α} (h : w.Counted limit)
    (hexcess : ∀ c, w'.excess c = w.excess c) (hle : ∀ c, w'.in_flight c ≤ w.in_flight c) :
    w'.Counted limit where
  excess_eq c := (hexcess c).trans (h.excess_eq c)
  le_limit c := (hle c).trans (h.le_limit c)

theorem in_flight_release_le (c : κ) : (w.release control).in_flight c ≤ w.in_flight c := by
  unfold release store
  dsimp only
  by_cases h : c = control
  · subst h
    rw [Function.update_self]
    omega
  · rw [Function.update_of_ne h]

/-- Where no call is between its steps, the active leases hold the places. -/
theorem AtRest.count_holds (h : w.AtRest) (control : κ) :
    Store.count (LeaseSlot.holds control) w.slots = w.active_leases control := by
  unfold active_leases Store.count
  refine List.countP_congr fun e he => ?_
  dsimp only
  rw [h e he, Bool.true_and]

end Counting

section Operations

variable {κ α : Type} [DecidableEq κ] [DecidableEq α] {limit : κ → ℤ} {w : Admission κ α} {lease other : α}
  {control c : κ}

theorem excess_put (slot : LeaseSlot κ α) :
    (w.put lease slot).excess c = w.excess c + held c (w.slots.lookup lease) - held c (some slot) := by
  have h := Store.count_insert (LeaseSlot.holds c) w.slots lease slot
  unfold excess put held
  cases hl : w.slots.lookup lease <;> rw [hl] at h <;> simp only [Option.elim] at h ⊢ <;> omega

theorem excess_clear :
    (w.clear lease).excess c = w.excess c + held c (w.slots.lookup lease) := by
  have h := Store.count_erase (LeaseSlot.holds c) w.slots lease
  unfold excess clear held
  cases hl : w.slots.lookup lease <;> rw [hl] at h <;> simp only [Option.elim] at h ⊢ <;> omega

/-- An `owner_` that moves takes its place along. -/
theorem excess_exchange (hne : other ≠ lease) (owner : Option κ) :
    (w.exchange lease other owner).excess c = w.excess c + held c (w.slots.lookup lease) +
      held c (w.slots.lookup other) - held c (some (.lease owner : LeaseSlot κ α)) := by
  unfold exchange
  rw [excess_put, excess_put, held_lease_none]
  have hother : (w.put lease (.lease owner)).slots.lookup other = w.slots.lookup other :=
    AList.lookup_insert_ne hne
  rw [hother]
  omega

/-- An acquisition starts without a place. -/
theorem Counted.try_acquire (h : w.Counted limit) (hfree : lease ∉ w.slots) :
    (w.try_acquire limit control lease).Counted limit := by
  have hnone : w.slots.lookup lease = none := AList.lookup_eq_none.mpr hfree
  unfold Admission.try_acquire
  split
  · exact h.of_excess (fun c => by rw [excess_put, hnone]; simp) fun _ => le_refl _
  · exact h.of_excess (fun c => by rw [excess_put, hnone]; simp) fun _ => le_refl _

/-- The exchange counts a place in only where it finds one below the limit. -/
theorem Counted.compare_exchange {current : ℤ} (h : w.Counted limit) (spurious : Bool)
    (hslot : w.slots.lookup lease = some (.trying control current)) :
    (w.compare_exchange limit control current spurious lease).Counted limit := by
  unfold Admission.compare_exchange
  split
  · rename_i hlimit
    split
    · rename_i hsame
      have hlookup : (w.store control (current + 1)).slots.lookup lease = some (.trying control current) :=
        hslot
      constructor
      · intro c
        rw [excess_put, excess_store, hlookup, held_trying, held_acquired, h.excess_eq, hsame.1]
        split <;> omega
      · intro c
        have hc := h.le_limit c
        show Function.update w.in_flight control (current + 1) c ≤ _
        by_cases heq : c = control
        · subst heq
          rw [Function.update_self]
          omega
        · rwa [Function.update_of_ne heq]
    · exact h.of_excess (fun c => by rw [excess_put, hslot]; simp) fun _ => le_refl _
  · exact h.of_excess (fun c => by rw [excess_clear, hslot]; simp) fun _ => le_refl _

/-- A construction takes over the place of the other lease. -/
theorem Counted.move_construct {w' : Admission κ α} (h : w.Counted limit) (hfree : lease ∉ w.slots)
    (hstep : w.move_construct lease other = some w') : w'.Counted limit := by
  have hnone : w.slots.lookup lease = none := AList.lookup_eq_none.mpr hfree
  unfold Admission.move_construct at hstep
  split at hstep
  · rename_i owner hother
    cases hstep
    have hne : other ≠ lease := by
      rintro rfl
      rw [hnone] at hother
      cases hother
    refine h.of_excess (fun c => ?_) fun _ => le_refl _
    rw [excess_exchange hne, hnone, hother, held_none]
    omega
  · cases hstep

/-- An assignment, as far as its release, moves no place, or one to a lease without any. -/
theorem Counted.move_assign {w' : Admission κ α} (h : w.Counted limit)
    (hstep : w.move_assign lease other = some w') : w'.Counted limit := by
  unfold Admission.move_assign at hstep
  split at hstep
  · rename_i owner other_owner hlease hother
    split at hstep
    · cases hstep
      exact h
    · rename_i hne
      split at hstep
      · rename_i control
        cases hstep
        refine h.of_excess (fun c => ?_) fun _ => le_refl _
        have hlookup : (w.put lease (.assigning control other)).slots.lookup other =
            w.slots.lookup other := AList.lookup_insert_ne (Ne.symm hne)
        rw [excess_put, excess_put, hlookup, hlease, hother, held_assigning, held_lease_some, held_lent]
        omega
      · cases hstep
        refine h.of_excess (fun c => ?_) fun _ => le_refl _
        rw [excess_exchange (Ne.symm hne), hlease, hother, held_lease_none]
        omega
  · cases hstep

/-- A destruction, as far as its release, moves no place. -/
theorem Counted.destroy {w' : Admission κ α} (h : w.Counted limit)
    (hstep : w.destroy lease = some w') : w'.Counted limit := by
  unfold Admission.destroy at hstep
  split at hstep
  · rename_i control hlease
    cases hstep
    refine h.of_excess (fun c => ?_) fun _ => le_refl _
    rw [excess_put, hlease, held_lease_some, held_destroying]
    omega
  · rename_i hlease
    cases hstep
    refine h.of_excess (fun c => ?_) fun _ => le_refl _
    rw [excess_clear, hlease, held_lease_none, add_zero]
  · cases hstep

/-- Each further step of a call keeps the counters right. -/
theorem Counted.advance {w' : Admission κ α} {spurious : Bool} (h : w.Counted limit)
    (hstep : w.advance limit lease spurious = some w') : w'.Counted limit := by
  unfold Admission.advance at hstep
  split at hstep
  · -- `try_acquire` at its loop.
    rename_i hlease
    cases hstep
    exact h.compare_exchange spurious hlease
  · -- `try_acquire` at its return.
    rename_i control hlease
    cases hstep
    refine h.of_excess (fun c => ?_) fun _ => le_refl _
    rw [excess_put, hlease, held_lease_some]
    omega
  · -- The destructor releases the lease.
    rename_i control hlease
    cases hstep
    refine h.of_excess (fun c => ?_) in_flight_release_le
    have hlookup : (w.release control).slots.lookup lease = _ := hlease
    rw [excess_clear, excess_release, hlookup, held_destroying]
    omega
  · -- The assignment releases the lease that it overwrites.
    rename_i control other hlease
    cases hstep
    refine h.of_excess (fun c => ?_) in_flight_release_le
    have hlookup : (w.release control).slots.lookup lease = _ := hlease
    rw [excess_put, excess_release, hlookup, held_assigning, held_released]
    omega
  · -- The assignment takes over the other lease.
    rename_i other hlease
    split at hstep
    · rename_i owner hother
      cases hstep
      have hne : other ≠ lease := by
        rintro rfl
        rw [hlease] at hother
        cases hother
      refine h.of_excess (fun c => ?_) fun _ => le_refl _
      rw [excess_exchange hne, hlease, hother, held_released, held_lent]
      omega
    · cases hstep
  · cases hstep

/-- Every action keeps the counters right. -/
theorem Counted.perform {w' : Admission κ α} {action : LeaseAction κ α} (h : w.Counted limit)
    (hstep : w.perform limit action = some w') : w'.Counted limit := by
  cases action with
  | default_construct lease =>
    obtain ⟨hfree, hput⟩ := Option.ite_none_left_eq_some.mp hstep
    cases hput
    refine h.of_excess (fun c => ?_) fun _ => le_refl _
    rw [excess_put, AList.lookup_eq_none.mpr hfree]
    simp
  | try_acquire control lease =>
    obtain ⟨hfree, hacquire⟩ := Option.ite_none_left_eq_some.mp hstep
    cases hacquire
    exact h.try_acquire hfree
  | move_construct lease other =>
    obtain ⟨hfree, hmove⟩ := Option.ite_none_left_eq_some.mp hstep
    exact h.move_construct hfree hmove
  | move_assign lease other => exact h.move_assign hstep
  | destroy lease => exact h.destroy hstep
  | step lease spurious => exact h.advance hstep

/-- In every run the counters are right. -/
theorem counted_run (limit : κ → ℤ) (actions : List (LeaseAction κ α)) :
    (run limit actions).Counted limit := by
  induction actions using List.reverseRecOn with
  | nil => exact ⟨fun _ => rfl, fun _ => le_max_left _ _⟩
  | append_singleton actions action ih =>
    unfold run at ih ⊢
    rw [List.foldl_append, List.foldl_cons, List.foldl_nil]
    cases hstep : (actions.foldl (fun w action => (w.perform limit action).getD w)
      ({} : Admission κ α)).perform limit action with
    | none => exact ih
    | some w' => exact ih.perform hstep

/-- In every order of the atomic steps of acquisitions, moves and destructions, the counter of a limited
control stays between zero and its limit, and whenever no call is between its steps it is the number
of the control's active leases. -/
theorem leases_counted (limit : κ → ℤ) (actions : List (LeaseAction κ α)) (control : κ)
    (hlimit : 0 < limit control) :
    0 ≤ (run limit actions).in_flight control ∧
      (run limit actions).in_flight control ≤ limit control ∧
      ((run limit actions).AtRest →
        (run limit actions).in_flight control = (run limit actions).active_leases control) := by
  have h := counted_run limit actions
  have hexcess := h.excess_eq control
  have hle := h.le_limit control
  unfold excess at hexcess
  refine ⟨by omega, by omega, fun hrest => ?_⟩
  rw [← hrest.count_holds control]
  omega

/-- Two requests race for the last place: both load the counter, the one fails spuriously and the other
takes the place; the lease then moves over an inactive one, and onto itself. -/
def racing : List (LeaseAction Unit ℕ) :=
  [.try_acquire () 0, .try_acquire () 1, .step 0 true, .step 1 false, .step 0 false, .step 1 false,
    .step 0 false, .default_construct 2, .move_assign 2 1, .move_assign 2 2]

theorem leases_counted_racing :
    0 < (1 : ℤ) ∧ (run (fun _ => 1) racing).active_leases () = 1 ∧
      (run (fun _ => 1) racing).in_flight () = 1 := by
  have hrest : (run (fun _ => 1) racing).AtRest := by decide
  have hactive : (run (fun _ => 1) racing).active_leases () = 1 := by decide
  have hcount := (leases_counted (fun _ => 1) racing () one_pos).2.2 hrest
  exact ⟨one_pos, hactive, by rw [hcount, hactive, Nat.cast_one]⟩

end Operations

end Admission

end SignalRoute
