import SignalRoute.Events.Deliveries
import Mathlib.Algebra.BigOperators.Group.List.Basic
import Mathlib.Tactic.Abel

/-!
# What deliveries bring

Handlers change the memory that they share with the program that uses the bus, also while they publish events
themselves. Let `f` measure the memory, and let every handler add to `f` an amount that depends on the handler and its
event only. Then a program that has ended has gained what the invocations of handlers brought (`Reaches.gained`),
however deliveries nest, the subscriptions change and exceptions leave publishes.

The invariant is on the programs that are still to run: the one that runs owes what is left of its amount, and so does
each that waits for a publish, whether the publish returns or throws.
-/

namespace SignalRoute

namespace BusMachine

variable {T C P M E A : Type} [DecidableEq T] [Inhabited T] [AddCommGroup A]

/-- The program itself adds `a` to `f`, whatever it is answered and whatever happens meanwhile. -/
def Gains (f : M → A) : BusProgram T C P M E → A → Prop
  | .pure _, a => a = 0
  | .throw _, a => a = 0
  | .call (.inl _) k, a => ∀ b, Gains f (k b) a
  | .call (.inr c) k, a => ∀ memory, Gains f (k (c memory).1) (a - (f (c memory).2 - f memory))

/-- What an event of the log brings: an invocation brings the amount of its handler. -/
def brought (gain : C → P → A) : BusEvent T C P E → A
  | .invoked _ entry event => gain entry.callback event
  | _ => 0

variable {f : M → A} {gain : C → P → A} {start : A} {captured : C → List ℕ} {invoke : C → P → BusProgram T C P M E}
  {m m' : BusMachine T C P M E}

/-- What has been added and what is owed is what was there and what was brought. -/
structure Balanced (f : M → A) (gain : C → P → A) (start : A) (m : BusMachine T C P M E) : Prop where
  balanced : ∃ amount amounts, Gains f m.program amount ∧
    List.Forall₂ (fun d a => ∀ answer, Gains f (d.2 answer) a) m.waiting amounts ∧
    f m.memory + amount + amounts.sum = start + (m.log.map (brought gain)).sum

/-- A call of the bus brings nothing. -/
theorem brought_noted {β : Type} (w : BusWorld T C) (c : BusCall T C P E β) :
    ((BusEvent.noted w c).map (brought gain)).sum = 0 := by
  cases c with
  | publish type event => exact add_zero _
  | subscribe type callback => exact add_zero _
  | construct => rfl
  | move_construct other => rfl
  | move_assign this other => rfl
  | reset this => rfl
  | destroy this => rfl
  | active this => rfl
  | subscriber_count type => rfl

/-- A caller owes what it owed, also while it waits for a publish. -/
theorem owes_continued {β : Type} (m : BusMachine T C P M E) (c : BusCall T C P E β) {k : β → BusProgram T C P M E}
    (answer : β) {amount : A} {amounts : List A} (howes : ∀ b, Gains f (k b) amount)
    (hwaiting : List.Forall₂ (fun d a => ∀ answer, Gains f (d.2 answer) a) m.waiting amounts) :
    ∃ amount' amounts', Gains f (m.continued c k answer).1 amount' ∧
      List.Forall₂ (fun d a => ∀ answer, Gains f (d.2 answer) a) (m.continued c k answer).2 amounts' ∧
      amount' + amounts'.sum = amount + amounts.sum := by
  cases c with
  | publish type event => exact ⟨0, amount :: amounts, rfl, .cons howes hwaiting, by rw [List.sum_cons, zero_add]⟩
  | construct => exact ⟨amount, amounts, howes answer, hwaiting, rfl⟩
  | subscribe type callback => exact ⟨amount, amounts, howes answer, hwaiting, rfl⟩
  | move_construct other => exact ⟨amount, amounts, howes answer, hwaiting, rfl⟩
  | move_assign this other => exact ⟨amount, amounts, howes answer, hwaiting, rfl⟩
  | reset this => exact ⟨amount, amounts, howes answer, hwaiting, rfl⟩
  | destroy this => exact ⟨amount, amounts, howes answer, hwaiting, rfl⟩
  | active this => exact ⟨amount, amounts, howes answer, hwaiting, rfl⟩
  | subscriber_count type => exact ⟨amount, amounts, howes answer, hwaiting, rfl⟩

/-- The sum over a log with one more event. -/
theorem sum_brought_concat (log : List (BusEvent T C P E)) (e : BusEvent T C P E) :
    ((log ++ [e]).map (brought gain)).sum = (log.map (brought gain)).sum + brought gain e := by
  rw [List.map_append, List.sum_append, List.map_singleton, List.sum_singleton]

/-- One step keeps the balance. -/
theorem Balanced.step (hinvoke : ∀ callback event, Gains f (invoke callback event) (gain callback event))
    (h : Balanced f gain start m) (hstep : BusMachine.step captured invoke m = some m') :
    Balanced f gain start m' := by
  obtain ⟨⟨bus, subscriptions, released, dying⟩, memory, program, waiting, log⟩ := m
  obtain ⟨amount, amounts, howe, howes, hsum⟩ := h.balanced
  obtain _ | ⟨place, dying⟩ := dying
  · obtain _ | e | ⟨c | action, k⟩ := program
    · obtain rfl : amount = 0 := howe
      obtain _ | ⟨⟨⟨n, event, called, _ | ⟨entry, callbacks⟩⟩, k⟩, waiting⟩ := waiting
      · cases hstep
      · -- The publish returns, and what its caller owes is owed by the program.
        cases hstep
        obtain _ | ⟨howe, howes⟩ := howes
        rename_i amount amounts
        refine ⟨amount, amounts, howe _, howes, ?_⟩
        dsimp only [leave] at hsum ⊢
        rw [sum_brought_concat, ← add_assoc, ← hsum, List.sum_cons]
        change _ = _ + (0 : A)
        abel
      · cases hstep
        obtain _ | ⟨howe, howes⟩ := howes
        refine ⟨gain entry.callback event, _, hinvoke entry.callback event, .cons howe howes, ?_⟩
        dsimp only at hsum ⊢
        rw [sum_brought_concat, ← add_assoc, ← hsum]
        change _ = _ + gain entry.callback event
        abel
    · obtain rfl : amount = 0 := howe
      obtain _ | ⟨⟨d, k⟩, waiting⟩ := waiting
      · cases hstep
      · cases hstep
        obtain _ | ⟨howe, howes⟩ := howes
        rename_i amount amounts
        refine ⟨amount, amounts, howe _, howes, ?_⟩
        dsimp only [leave] at hsum ⊢
        rw [sum_brought_concat, ← add_assoc, ← hsum, List.sum_cons]
        change _ = _ + (0 : A)
        abel
    · obtain ⟨r, -, rfl⟩ := Option.map_eq_some_iff.mp hstep
      obtain ⟨amount', amounts', howe', howes', hsum'⟩ := owes_continued _ c r.1 howe howes
      refine ⟨amount', amounts', howe', howes', ?_⟩
      dsimp only at hsum ⊢
      rw [List.map_append, List.sum_append, brought_noted, add_zero, ← hsum, add_assoc, hsum', add_assoc]
    · cases hstep
      refine ⟨_, amounts, howe memory, howes, ?_⟩
      dsimp only at hsum ⊢
      rw [← hsum]
      abel
  · obtain ⟨w, -, rfl⟩ := Option.map_eq_some_iff.mp hstep
    exact ⟨amount, amounts, howe, howes, hsum⟩

/-- The balance of every machine that is reached. -/
theorem Reaches.balanced (hinvoke : ∀ callback event, Gains f (invoke callback event) (gain callback event))
    {memory : M} {program : BusProgram T C P M E} {amount : A} (hprogram : Gains f program amount)
    (h : Reaches captured invoke memory program m) : Balanced f gain (f memory + amount) m := by
  induction h with
  | refl => exact ⟨amount, [], hprogram, .nil, rfl⟩
  | tail _ hstep ih => exact ih.step hinvoke hstep

/-- A program that has ended, by a return or an exception, has gained its own amount and what the invocations of
handlers brought. -/
theorem Reaches.gained (hinvoke : ∀ callback event, Gains f (invoke callback event) (gain callback event))
    {memory : M} {program : BusProgram T C P M E} {amount : A} (hprogram : Gains f program amount)
    (h : Reaches captured invoke memory program m) (hend : m.Ended) :
    f m.memory = f memory + amount + (m.log.map (brought gain)).sum := by
  obtain ⟨owed, amounts, howe, howes, hsum⟩ := (h.balanced hinvoke hprogram).balanced
  obtain ⟨-, hwaiting, hdone⟩ := hend
  rw [hwaiting] at howes
  cases howes
  have hnothing : owed = 0 := by
    cases hp : m.program with
    | pure a =>
      rw [hp] at howe
      exact howe
    | throw e =>
      rw [hp] at howe
      exact howe
    | call c k => exact absurd hp (hdone c k)
  rwa [hnothing, List.sum_nil, add_zero, add_zero] at hsum

end BusMachine

end SignalRoute
