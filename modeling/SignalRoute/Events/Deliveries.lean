import SignalRoute.Events.EventBus

/-!
# Nested deliveries

A handler is a program too, so `publish` cannot be one step: `BusMachine` has the program that runs and the
publishes that wait for it, each with the callbacks that it copied, those that it has called and those that it
has not, and with what its caller does then. A step of the machine is one call of the program; or the program
has ended, and the last publish invokes its next callback or returns, or is left by the program's exception; or
an object loses an owner.

`Delivering` is the invariant. A waiting publish has invoked a part of the handlers that were subscribed
at its start, and the rest is what it still has; so where it returns it has invoked all of them, however often
the table has changed meanwhile. What can go wrong is that the machine stops before: `event_bus_delivers_iff`
says when.
-/

namespace SignalRoute

open Interaction (Prog Atomic)

/-- A `publish` that waits: its place in the log, its event, and the callbacks that it has copied: those that
it has called, and those that it has not. -/
structure Delivery (C P : Type) where
  publish : ℕ
  event : P
  called : List (HandlerEntry C)
  callbacks : List (HandlerEntry C)

/-- The bus while a program uses it. A waiting publish answers its caller. -/
structure BusMachine (T C P M E : Type) [DecidableEq T] [Inhabited T] where
  world : BusWorld T C
  memory : M
  program : BusProgram T C P M E
  waiting : List (Delivery C P × (Except E Unit → BusProgram T C P M E))
  log : List (BusEvent T C P E)

namespace Delivery

/-- The copies of callbacks, which live until the publish ends. -/
def copies {C P : Type} (d : Delivery C P) : List C := (d.called ++ d.callbacks).map HandlerEntry.callback

end Delivery

namespace BusMachine

variable {T C P M E : Type} [DecidableEq T] [Inhabited T]

/-- The publishes that wait. -/
def deliveries (m : BusMachine T C P M E) : List (Delivery C P) := m.waiting.map Prod.fst

/-- The callbacks that they have copied. -/
def copies (m : BusMachine T C P M E) : List C := m.deliveries.flatMap Delivery.copies

/-- The publish that a call starts; `n` is the place of the call in the log. -/
def pending {β : Type} (w : BusWorld T C) (n : ℕ) : BusCall T C P E β → List (Delivery C P)
  | .publish type event => [⟨n, event, [], w.bus.entries type⟩]
  | _ => []

/-- The program and the publishes after a call: a publish runs before its caller goes on. -/
def continued {β : Type} (m : BusMachine T C P M E) : BusCall T C P E β → (β → BusProgram T C P M E) → β →
    BusProgram T C P M E × List (Delivery C P × (Except E Unit → BusProgram T C P M E))
  | .publish type event, k, _ => (.pure (), (⟨m.log.length, event, [], m.world.bus.entries type⟩, k) :: m.waiting)
  | _, k, answer => (k answer, m.waiting)

section Steps

-- The objects that a callback captures, and the program of a callback with its event.
variable (captured : C → List ℕ) (invoke : C → P → BusProgram T C P M E)

/-- The end of the last publish: its copies of the callbacks are destroyed, and its caller goes on. -/
def leave (m : BusMachine T C P M E) (d : Delivery C P) (program : BusProgram T C P M E)
    (waiting : List (Delivery C P × (Except E Unit → BusProgram T C P M E))) (event : BusEvent T C P E) :
    BusMachine T C P M E :=
  { m with
    world := { m.world with dying := d.copies.flatMap captured }
    program, waiting
    log := m.log ++ [event] }

/-- One step. There is none from the end of the program, and where the thread waits for the mutex that it
holds. -/
def step (m : BusMachine T C P M E) : Option (BusMachine T C P M E) :=
  match m.world.dying with
  | place :: dying =>
    ({ m.world with dying }.drop captured m.copies place).map fun world => { m with world }
  | [] =>
    match m.program, m.waiting with
    | .call (.inl c) k, _ =>
      (BusWorld.perform captured m.copies c m.world).map fun r =>
        let (program, waiting) := m.continued c k r.1
        { m with world := r.2, program, waiting, log := m.log ++ BusEvent.noted m.world c }
    | .call (.inr f) k, _ =>
      let r := f m.memory
      some { m with memory := r.2, program := k r.1 }
    | .pure _, (⟨n, event, called, entry :: callbacks⟩, k) :: waiting =>
      some { m with
        program := invoke entry.callback event
        waiting := (⟨n, event, called ++ [entry], callbacks⟩, k) :: waiting
        log := m.log ++ [.invoked n entry event] }
    | .pure _, (⟨n, event, called, []⟩, k) :: waiting =>
      some (m.leave captured ⟨n, event, called, []⟩ (k (.ok ())) waiting (.returned n))
    | .throw e, (d, k) :: waiting =>
      some (m.leave captured d (k (.error e)) waiting (.left d.publish e))
    | .pure _, [] => none
    | .throw _, [] => none

/-- The machine before the program. -/
def start (memory : M) (program : BusProgram T C P M E) : BusMachine T C P M E :=
  ⟨{}, memory, program, [], []⟩

/-- The machines that a program reaches. -/
def Reaches (memory : M) (program : BusProgram T C P M E) (m : BusMachine T C P M E) : Prop :=
  Relation.ReflTransGen (fun m m' => step captured invoke m = some m') (start memory program) m

/-- The machine after at most `n` steps. -/
def run : ℕ → BusMachine T C P M E → BusMachine T C P M E
  | 0, m => m
  | n + 1, m =>
    match step captured invoke m with
    | none => m
    | some m' => run n m'

/-- A program reaches what it runs to. -/
theorem reaches_run (n : ℕ) (m : BusMachine T C P M E) :
    Relation.ReflTransGen (fun m m' => step captured invoke m = some m') m (run captured invoke n m) := by
  induction n generalizing m with
  | zero => exact .refl
  | succ n ih =>
    unfold run
    cases hstep : step captured invoke m with
    | none => exact .refl
    | some m' => exact .head hstep (ih m')

end Steps

/-- The program has ended, with all its publishes. -/
def Ended (m : BusMachine T C P M E) : Prop :=
  m.world.dying = [] ∧ m.waiting = [] ∧ ∀ {β : Type} (c : BusCall T C P E β ⊕ Atomic M β) k, m.program ≠ .call c k

/-- A program that has returned. -/
theorem ended_of_pure {m : BusMachine T C P M E} (hdying : m.world.dying = []) (hwaiting : m.waiting = [])
    (hprogram : m.program = .pure ()) : m.Ended := by
  refine ⟨hdying, hwaiting, fun c k heq => ?_⟩
  rw [hprogram] at heq
  cases heq

/-- What the next step takes from the table of the bus. -/
def takes (captured : C → List ℕ) (m : BusMachine T C P M E) : Option (T × ℕ) :=
  match m.world.dying, m.program with
  | place :: dying, _ => { m.world with dying }.takes_drop captured m.copies place
  | [], .call (.inl c) _ => BusWorld.takes c m.world
  | [], _ => none

/-- The next step unsubscribes no handler that keeps an active object which nothing else keeps. -/
def Harmless (captured : C → List ℕ) (m : BusMachine T C P M E) : Prop :=
  ∀ t, m.takes captured = some t →
    { m.world with dying := m.world.dying.tail }.Erasable captured m.copies t.1 t.2

/-- A program that has ended takes nothing. -/
theorem Ended.takes {m : BusMachine T C P M E} (h : m.Ended) (captured : C → List ℕ) : m.takes captured = none := by
  obtain ⟨hdying, -, hprogram⟩ := h
  unfold BusMachine.takes
  rw [hdying]
  cases hp : m.program with
  | pure a => rfl
  | throw e => rfl
  | call c k => exact absurd hp (hprogram c k)

/-- A program that has not ended goes on exactly if its next step is harmless. -/
theorem isSome_step {captured : C → List ℕ} {invoke : C → P → BusProgram T C P M E} {m : BusMachine T C P M E}
    (h : ¬m.Ended) : (step captured invoke m).isSome = true ↔ m.Harmless captured := by
  obtain ⟨⟨bus, subscriptions, released, dying⟩, memory, program, waiting, log⟩ := m
  obtain _ | ⟨place, dying⟩ := dying
  · obtain _ | e | ⟨c | f, k⟩ := program
    · obtain _ | ⟨⟨⟨n, event, called, _ | ⟨entry, callbacks⟩⟩, k⟩, waiting⟩ := waiting
      · exact absurd ⟨rfl, rfl, nofun⟩ h
      · exact iff_of_true rfl nofun
      · exact iff_of_true rfl nofun
    · obtain _ | ⟨⟨d, k⟩, waiting⟩ := waiting
      · exact absurd ⟨rfl, rfl, nofun⟩ h
      · exact iff_of_true rfl nofun
    · exact Option.isSome_map.symm ▸ BusWorld.isSome_perform
    · exact iff_of_true rfl nofun
  · exact Option.isSome_map.symm ▸ BusWorld.isSome_drop

end BusMachine

namespace BusEvent

variable {T C P E : Type} [DecidableEq T] [Inhabited T]
  {log : List (BusEvent T C P E)} {w : BusWorld T C} {ds : List (Delivery C P)}

/-- At the place `n` of the log is a publish of `event`, and `target` are the handlers of its type that
are subscribed there. -/
def Published (log : List (BusEvent T C P E)) (n : ℕ) (event : P) (target : List (HandlerEntry C)) : Prop :=
  ∃ type w, log[n]? = some (.published type event w) ∧ target = subscribed_at (log.take n) w type

/-- A log only grows. -/
theorem published_append {n : ℕ} (hn : n < log.length) (events : List (BusEvent T C P E)) (event : P)
    (target : List (HandlerEntry C)) :
    Published (log ++ events) n event target ↔ Published log n event target := by
  unfold Published
  rw [List.getElem?_append_left hn, List.take_append_of_le_length hn.le]

/-- A publish is in the log. -/
theorem Published.lt {n : ℕ} {event : P} {target : List (HandlerEntry C)} (h : Published log n event target) :
    n < log.length := by
  obtain ⟨type, w, hlog, -⟩ := h
  exact (List.getElem?_eq_some_iff.mp hlog).1

/-- The publishes of a log with one more event. -/
theorem published_concat {n : ℕ} {e : BusEvent T C P E} {event : P} {target : List (HandlerEntry C)} :
    Published (log ++ [e]) n event target ↔ Published log n event target ∨
      n = log.length ∧ ∃ type w, e = .published type event w ∧ target = subscribed_at log w type := by
  constructor
  · intro h
    have hlt := h.lt
    rw [List.length_append, List.length_singleton] at hlt
    obtain hold | rfl := Nat.lt_succ_iff_lt_or_eq.mp hlt
    · exact .inl ((published_append hold _ _ _).mp h)
    · obtain ⟨type, w, hlog, htarget⟩ := h
      rw [List.getElem?_concat_length] at hlog
      rw [List.take_left' rfl] at htarget
      exact .inr ⟨rfl, type, w, Option.some.inj hlog, htarget⟩
  · rintro (h | ⟨rfl, type, w, rfl, rfl⟩)
    · exact (published_append h.lt _ _ _).mpr h
    · exact ⟨type, w, List.getElem?_concat_length, by rw [List.take_left' rfl]⟩

/-- A place of the log has one publish. -/
theorem Published.unique {n : ℕ} {event event' : P} {target target' : List (HandlerEntry C)}
    (h : Published log n event target) (h' : Published log n event' target') : event = event' ∧ target = target' := by
  obtain ⟨type, w, hlog, rfl⟩ := h
  obtain ⟨type', w', hlog', rfl⟩ := h'
  cases Option.some.inj (hlog.symm.trans hlog')
  exact ⟨rfl, rfl⟩

/-- What one more event says. -/
theorem history_concat (n : ℕ) (e : BusEvent T C P E) :
    history (log ++ [e]) n = history log n ++ (about n e).toList := by
  unfold history
  rw [List.filterMap_append, List.filterMap_cons, List.filterMap_nil]
  cases about n e <;> rfl

/-- The invocations of handlers with an event. -/
def invocations (event : P) (entries : List (HandlerEntry C)) : List (Option (HandlerEntry C × P)) :=
  entries.map fun entry => some (entry, event)

/-- No invocation is a return. -/
theorem none_notMem_invocations {event : P} {entries : List (HandlerEntry C)} :
    none ∉ invocations event entries := by
  intro hin
  obtain ⟨_, -, hnone⟩ := List.mem_map.mp hin
  cases hnone

/-- How far the publish at the place `n` has come, where `ds` are the publishes that wait: there is none;
or it waits, and has invoked a part of its target; or it has invoked its target and returned; or an exception
has left it after a part of its target. -/
inductive Status (log : List (BusEvent T C P E)) (ds : List (Delivery C P)) (n : ℕ) : Prop where
  | absent (hlog : ∀ event target, ¬Published log n event target) (hhistory : history log n = [])
      (hds : ds.filter (fun d => d.publish = n) = [])
  | waiting (event : P) (called callbacks : List (HandlerEntry C))
      (hlog : Published log n event (called ++ callbacks)) (hhistory : history log n = invocations event called)
      (hds : ds.filter (fun d => d.publish = n) = [⟨n, event, called, callbacks⟩])
  | returned (event : P) (target : List (HandlerEntry C)) (hlog : Published log n event target)
      (hhistory : history log n = invocations event target ++ [none])
      (hds : ds.filter (fun d => d.publish = n) = [])
  | left (event : P) (called callbacks : List (HandlerEntry C))
      (hlog : Published log n event (called ++ callbacks)) (hhistory : history log n = invocations event called)
      (exception : E) (hleft : .left n exception ∈ log) (hds : ds.filter (fun d => d.publish = n) = [])

/-- An event that says nothing of a publish leaves it where it is. -/
theorem Status.concat {n : ℕ} (h : Status log ds n) {e : BusEvent T C P E} {ds' : List (Delivery C P)}
    (habout : about n e = none) (he : ∀ type event w, e = .published type event w → n ≠ log.length)
    (hds' : ds'.filter (fun d => d.publish = n) = ds.filter (fun d => d.publish = n)) :
    Status (log ++ [e]) ds' n := by
  have hsame : history (log ++ [e]) n = history log n := by
    rw [history_concat, habout]
    exact List.append_nil _
  cases h with
  | absent hlog hhistory hds =>
    refine .absent (fun event target hpub => ?_) (hsame.trans hhistory) (hds'.trans hds)
    obtain hold | ⟨rfl, type, w, rfl, -⟩ := published_concat.mp hpub
    · exact hlog event target hold
    · exact he type event w rfl rfl
  | waiting event called callbacks hlog hhistory hds =>
    exact .waiting event called callbacks (published_concat.mpr (.inl hlog)) (hsame.trans hhistory)
      (hds'.trans hds)
  | returned event target hlog hhistory hds =>
    exact .returned event target (published_concat.mpr (.inl hlog)) (hsame.trans hhistory)
      (hds'.trans hds)
  | left event called callbacks hlog hhistory exception hleft hds =>
    exact .left event called callbacks (published_concat.mpr (.inl hlog)) (hsame.trans hhistory) exception
      (List.mem_append_left _ hleft) (hds'.trans hds)

/-- The topmost publish waits under its own number. -/
theorem filter_cons_self (d : Delivery C P) :
    (d :: ds).filter (fun d' => d'.publish = d.publish) = d :: ds.filter fun d' => d'.publish = d.publish :=
  List.filter_cons_of_pos (decide_eq_true rfl)

/-- The publishes of another number do not change with the topmost one. -/
theorem filter_cons_ne {n : ℕ} {d : Delivery C P} (h : n ≠ d.publish) :
    (d :: ds).filter (fun d => d.publish = n) = ds.filter (fun d => d.publish = n) :=
  List.filter_cons_of_neg fun heq => h (of_decide_eq_true heq).symm

/-- The last publish that has not ended. -/
theorem Status.top {d : Delivery C P} (h : Status log (d :: ds) d.publish) :
    Published log d.publish d.event (d.called ++ d.callbacks) ∧
      history log d.publish = invocations d.event d.called ∧ ds.filter (fun d' => d'.publish = d.publish) = [] := by
  have htop := @filter_cons_self C P ds d
  cases h with
  | absent hlog hhistory hds => cases htop.symm.trans hds
  | waiting event called callbacks hlog hhistory hds =>
    obtain ⟨heq, hrest⟩ := List.cons.inj (htop.symm.trans hds)
    rw [heq]
    rw [heq] at hrest
    exact ⟨hlog, hhistory, hrest⟩
  | returned event target hlog hhistory hds => cases htop.symm.trans hds
  | left event called callbacks hlog hhistory exception hleft hds => cases htop.symm.trans hds

/-- A publish that is yet to come. -/
theorem Status.future (h : Status log ds log.length) :
    history log log.length = [] ∧ ds.filter (fun d => d.publish = log.length) = [] := by
  cases h with
  | absent hlog hhistory hds => exact ⟨hhistory, hds⟩
  | waiting event called callbacks hlog hhistory hds => exact absurd hlog.lt (lt_irrefl _)
  | returned event target hlog hhistory hds => exact absurd hlog.lt (lt_irrefl _)
  | left event called callbacks hlog hhistory exception hleft hds => exact absurd hlog.lt (lt_irrefl _)

/-- An invocation by the last publish. -/
theorem status_invoked {publish : ℕ} {event : P} {entry : HandlerEntry C} {called callbacks : List (HandlerEntry C)}
    (h : ∀ n, Status log (⟨publish, event, called, entry :: callbacks⟩ :: ds) n) (n : ℕ) :
    Status (log ++ [.invoked publish entry event]) (⟨publish, event, called ++ [entry], callbacks⟩ :: ds) n := by
  by_cases hn : n = publish
  · subst hn
    obtain ⟨hlog, hhistory, hds⟩ := (h n).top
    refine .waiting event (called ++ [entry]) callbacks ?_ ?_ ?_
    · rw [List.append_assoc]
      exact published_concat.mpr (.inl hlog)
    · rw [history_concat, hhistory, about, if_pos rfl, invocations, invocations, List.map_append]
      rfl
    · exact (filter_cons_self _).trans (congrArg _ hds)
  · refine (h n).concat ?_ (fun _ _ _ he => by cases he) ?_
    · rw [about, if_neg (Ne.symm hn)]
    · rw [filter_cons_ne hn, filter_cons_ne hn]

/-- The return of the last publish. -/
theorem status_returned {publish : ℕ} {event : P} {called : List (HandlerEntry C)}
    (h : ∀ n, Status log (⟨publish, event, called, []⟩ :: ds) n) (n : ℕ) :
    Status (log ++ [.returned publish]) ds n := by
  by_cases hn : n = publish
  · subst hn
    obtain ⟨hlog, hhistory, hds⟩ := (h n).top
    rw [List.append_nil] at hlog
    refine .returned event called (published_concat.mpr (.inl hlog)) ?_ hds
    rw [history_concat, hhistory, about, if_pos rfl]
    rfl
  · refine (h n).concat ?_ (fun _ _ _ he => by cases he) (filter_cons_ne hn).symm
    rw [about, if_neg (Ne.symm hn)]

/-- An exception leaves the last publish. -/
theorem status_left {d : Delivery C P} {exception : E} (h : ∀ n, Status log (d :: ds) n) (n : ℕ) :
    Status (log ++ [.left d.publish exception]) ds n := by
  by_cases hn : n = d.publish
  · subst hn
    obtain ⟨hlog, hhistory, hds⟩ := (h d.publish).top
    refine .left d.event d.called d.callbacks (published_concat.mpr (.inl hlog)) ?_ exception
      (List.mem_append_right _ List.mem_cons_self) hds
    rw [history_concat, hhistory]
    exact List.append_nil _
  · exact (h n).concat rfl (fun _ _ _ he => by cases he) (filter_cons_ne hn).symm

/-- A new publish copies the callbacks that are subscribed. -/
theorem status_published {w : BusWorld T C} (h : ∀ n, Status log ds n) (hw : Consistent log w)
    (type : T) (event : P) (n : ℕ) :
    Status (log ++ [.published type event w]) (⟨log.length, event, [], w.bus.entries type⟩ :: ds) n := by
  by_cases hn : n = log.length
  · subst hn
    obtain ⟨hhistory, hds⟩ := (h log.length).future
    refine .waiting event [] (w.bus.entries type) ?_ ?_ ?_
    · exact published_concat.mpr (.inr ⟨rfl, type, w, rfl, hw.entries type⟩)
    · rw [history_concat, hhistory]
      rfl
    · exact (filter_cons_self _).trans (congrArg _ hds)
  · exact (h n).concat rfl (fun _ _ _ _ => hn) (filter_cons_ne hn)

/-- A call of the program. -/
theorem status_noted {w : BusWorld T C} (h : ∀ n, Status log ds n) (hw : Consistent log w) {β : Type}
    (c : BusCall T C P E β) (n : ℕ) :
    Status (log ++ noted w c) (BusMachine.pending w log.length c ++ ds) n := by
  have hnothing : Status (log ++ []) ([] ++ ds) n := by
    rw [List.append_nil]
    exact h n
  cases c with
  | publish type event => exact status_published h hw type event n
  | subscribe type callback => exact (h n).concat rfl (fun _ _ _ he => by cases he) rfl
  | construct => exact hnothing
  | move_construct other => exact hnothing
  | move_assign this other => exact hnothing
  | reset this => exact hnothing
  | destroy this => exact hnothing
  | active this => exact hnothing
  | subscriber_count type => exact hnothing

/-- What a publish has done is a beginning of what it has to do, and all of it where it has returned, or has
ended and no exception has left it. -/
theorem Status.history_start {n : ℕ} {event : P} {target : List (HandlerEntry C)}
    (h : Status log ds n) (hlog : Published log n event target) :
    history log n <+: invocations event target ++ [none] ∧
      (none ∈ history log n ∨ ds = [] ∧ (∀ exception, .left n exception ∉ log) →
        history log n = invocations event target ++ [none]) := by
  cases h with
  | absent hnone hhistory hds => exact absurd hlog (hnone event target)
  | waiting event' called callbacks hlog' hhistory hds =>
    obtain ⟨rfl, rfl⟩ := hlog.unique hlog'
    rw [hhistory, invocations, invocations, List.map_append, List.append_assoc]
    refine ⟨List.prefix_append _ _, ?_⟩
    rintro (hin | ⟨rfl, -⟩)
    · exact absurd hin none_notMem_invocations
    · cases hds
  | returned event' target' hlog' hhistory hds =>
    obtain ⟨rfl, rfl⟩ := hlog.unique hlog'
    rw [hhistory]
    exact ⟨List.prefix_refl _, fun _ => rfl⟩
  | left event' called callbacks hlog' hhistory exception hleft hds =>
    obtain ⟨rfl, rfl⟩ := hlog.unique hlog'
    rw [hhistory, invocations, invocations, List.map_append, List.append_assoc]
    refine ⟨List.prefix_append _ _, ?_⟩
    rintro (hin | ⟨-, hnone⟩)
    · exact absurd hin none_notMem_invocations
    · exact absurd hleft (hnone exception)

/-- Only publishes invoke handlers. -/
theorem Status.published {n : ℕ} (h : Status log ds n) (hhistory : history log n ≠ []) :
    ∃ event target, Published log n event target := by
  cases h with
  | absent hlog hnone hds => exact absurd hnone hhistory
  | waiting event called callbacks hlog _ hds => exact ⟨event, _, hlog⟩
  | returned event target hlog _ hds => exact ⟨event, target, hlog⟩
  | left event called callbacks hlog _ exception hleft hds => exact ⟨event, _, hlog⟩

/-- Where a publish is noted, the table is as the log says before it. -/
def Recorded (log : List (BusEvent T C P E)) : Prop :=
  ∀ n type event w, log[n]? = some (.published type event w) → Consistent (log.take n) w

/-- One more event. -/
theorem Recorded.concat (h : Recorded log) {e : BusEvent T C P E}
    (he : ∀ type event w, e = .published type event w → Consistent log w) : Recorded (log ++ [e]) := by
  intro n type event w hn
  obtain hlt | hge := lt_or_ge n log.length
  · rw [List.getElem?_append_left hlt] at hn
    rw [List.take_append_of_le_length hlt.le]
    exact h n type event w hn
  · obtain rfl : n = log.length := by
      have hlt := (List.getElem?_eq_some_iff.mp hn).1
      rw [List.length_append, List.length_singleton] at hlt
      omega
    rw [List.getElem?_concat_length] at hn
    rw [List.take_left' rfl]
    exact he type event w (Option.some.inj hn)

/-- What a call notes. -/
theorem Recorded.noted (h : Recorded log) (hw : Consistent log w) {β : Type} (c : BusCall T C P E β) :
    Recorded (log ++ BusEvent.noted w c) := by
  have hnothing : Recorded (log ++ []) := by
    rw [List.append_nil]
    exact h
  cases c with
  | publish type event =>
    refine h.concat fun type' event' w' heq => ?_
    cases heq
    exact hw
  | subscribe type callback => exact h.concat fun _ _ _ heq => by cases heq
  | construct => exact hnothing
  | move_construct other => exact hnothing
  | move_assign this other => exact hnothing
  | reset this => exact hnothing
  | destroy this => exact hnothing
  | active this => exact hnothing
  | subscriber_count type => exact hnothing

/-- What is dying does not matter to the table. -/
theorem Consistent.dying (h : Consistent log w) (dying : List ℕ) : Consistent log { w with dying } :=
  ⟨h.entries, h.owned_once, h.made, h.ids_once, h.fresh⟩

end BusEvent

namespace BusMachine

variable {T C P M E : Type} [DecidableEq T] [Inhabited T] {captured : C → List ℕ}
  {invoke : C → P → BusProgram T C P M E} {m m' : BusMachine T C P M E}

/-- What holds between steps: the table is as the log says, also where a publish has started, and every publish is
somewhere between its start and its end. -/
structure Delivering (m : BusMachine T C P M E) : Prop where
  consistent : BusEvent.Consistent m.log m.world
  recorded : BusEvent.Recorded m.log
  status : ∀ n, BusEvent.Status m.log m.deliveries n

/-- The publishes after a call. -/
theorem deliveries_continued {β : Type} (m : BusMachine T C P M E) (c : BusCall T C P E β)
    (k : β → BusProgram T C P M E) (answer : β) :
    (m.continued c k answer).2.map Prod.fst = pending m.world m.log.length c ++ m.deliveries := by
  cases c <;> rfl

/-- One step keeps the invariant. -/
theorem Delivering.step (h : Delivering m) (hstep : BusMachine.step captured invoke m = some m') :
    Delivering m' := by
  obtain ⟨⟨bus, subscriptions, released, dying⟩, memory, program, waiting, log⟩ := m
  obtain ⟨hcons, hrecorded, hstatus⟩ := h
  obtain _ | ⟨place, dying⟩ := dying
  · obtain _ | e | ⟨c | f, k⟩ := program
    · obtain _ | ⟨⟨⟨n, event, called, _ | ⟨entry, callbacks⟩⟩, k⟩, waiting⟩ := waiting
      · cases hstep
      · cases hstep
        exact ⟨(hcons.frees (BusWorld.frees_refl _) rfl).dying _, hrecorded.concat nofun,
          BusEvent.status_returned hstatus⟩
      · cases hstep
        exact ⟨hcons.frees (BusWorld.frees_refl _) rfl, hrecorded.concat nofun, BusEvent.status_invoked hstatus⟩
    · obtain _ | ⟨⟨d, k⟩, waiting⟩ := waiting
      · cases hstep
      · cases hstep
        exact ⟨(hcons.frees (BusWorld.frees_refl _) rfl).dying _, hrecorded.concat nofun,
          BusEvent.status_left hstatus⟩
    · obtain ⟨r, hr, rfl⟩ := Option.map_eq_some_iff.mp hstep
      refine ⟨hcons.perform hr, hrecorded.noted hcons c, fun n => ?_⟩
      unfold deliveries
      rw [deliveries_continued]
      exact BusEvent.status_noted hstatus hcons c n
    · cases hstep
      exact ⟨hcons, hrecorded, hstatus⟩
  · obtain ⟨w, hw, rfl⟩ := Option.map_eq_some_iff.mp hstep
    refine ⟨?_, hrecorded, hstatus⟩
    have hfrees := @BusEvent.Consistent.frees _ _ _ _ _ _ _ _ _ (hcons.dying dying) (BusWorld.frees_drop hw) [] rfl
    rwa [List.append_nil] at hfrees

/-- Every machine that is reached satisfies the invariant. -/
theorem Reaches.delivering {memory : M} {program : BusProgram T C P M E}
    (h : Reaches captured invoke memory program m) : Delivering m := by
  induction h with
  | refl =>
    refine ⟨BusEvent.consistent_start, nofun, fun n => .absent (fun event target hlog => ?_) rfl rfl⟩
    exact absurd hlog.lt (Nat.not_lt_zero n)
  | tail _ hstep ih => exact ih.step hstep

/-- A publish that has returned, or that has ended and that no exception has left, has invoked the handlers that
were subscribed at its start. -/
theorem Delivering.complete (h : Delivering m) {n : ℕ} {type : T} {event : P} {w : BusWorld T C}
    (hlog : m.log[n]? = some (.published type event w))
    (hend : .returned n ∈ m.log ∨ m.Ended ∧ ∀ exception, .left n exception ∉ m.log) : BusEvent.history m.log n =
      BusEvent.invocations event (BusEvent.subscribed_at (m.log.take n) w type) ++ [none] := by
  have hstatus := (h.status n).history_start ⟨type, w, hlog, rfl⟩
  refine hstatus.2 (hend.imp (fun hreturned => ?_) fun ⟨hend, hleft⟩ => ⟨?_, hleft⟩)
  · exact List.mem_filterMap.mpr ⟨_, hreturned, by rw [BusEvent.about, if_pos rfl]⟩
  · unfold deliveries
    rw [hend.2.1]
    rfl

/-- What the bus promises a program, in a state between two steps. `exactly` and `complete`: a publish
invokes the handlers that were subscribed to its type when it started, in subscription order and with its
event, and then returns; what it has done so far is a beginning of this, and all of it where it has
returned, or where the program has ended and no exception of a handler has left it. `once`: no handler is among
them twice. `no_other`: nothing else invokes handlers. `count`: `subscriber_count` is the number of live active
objects. `kept`: the handler of an active object is in the table. `goes_on`: a program that has not ended has a
next step, so each publish comes to its end where the handlers do. -/
structure Delivers (captured : C → List ℕ) (invoke : C → P → BusProgram T C P M E) (m : BusMachine T C P M E) :
    Prop where
  exactly : ∀ n type event w, m.log[n]? = some (.published type event w) →
    BusEvent.history m.log n <+:
      BusEvent.invocations event (BusEvent.subscribed_at (m.log.take n) w type) ++ [none]
  complete : ∀ n type event w, m.log[n]? = some (.published type event w) →
    .returned n ∈ m.log ∨ m.Ended ∧ (∀ exception, .left n exception ∉ m.log) → BusEvent.history m.log n =
      BusEvent.invocations event (BusEvent.subscribed_at (m.log.take n) w type) ++ [none]
  once : ∀ n w type, ((BusEvent.subscribed_at (m.log.take n) w type).map HandlerEntry.id).Nodup
  no_other : ∀ n entry event, .invoked n entry event ∈ m.log →
    ∃ type w, m.log[n]? = some (.published type event w)
  count : ∀ type, m.world.bus.subscriber_count type = m.world.active_count type
  kept : ∀ (place : ℕ) sub, m.world.subscriptions[place]? = some (some sub) → sub.bus = true →
    ∃ callback, .subscribed sub.type ⟨sub.id, callback⟩ ∈ m.log ∧
      ⟨sub.id, callback⟩ ∈ m.world.bus.entries sub.type
  goes_on : m.Ended ∨ (step captured invoke m).isSome = true

/-- The promise is kept in a state of a program, however its handlers use the bus, exactly if the next step
unsubscribes no handler that keeps an active object which nothing else keeps. -/
theorem event_bus_delivers_iff (captured : C → List ℕ) (invoke : C → P → BusProgram T C P M E) (memory : M)
    (program : BusProgram T C P M E) (h : Reaches captured invoke memory program m) :
    Delivers captured invoke m ↔ m.Harmless captured := by
  have hdelivering := h.delivering
  have hcons := hdelivering.consistent
  have hstart : ∀ n type event w, m.log[n]? = some (.published type event w) → BusEvent.history m.log n <+:
      BusEvent.invocations event (BusEvent.subscribed_at (m.log.take n) w type) ++ [none] :=
    fun n type event w hlog => ((hdelivering.status n).history_start ⟨type, w, hlog, rfl⟩).1
  constructor
  · intro hdelivers
    obtain hend | hgoes := hdelivers.goes_on
    · intro t ht
      rw [hend.takes] at ht
      cases ht
    · by_cases hend : m.Ended
      · intro t ht
        rw [hend.takes] at ht
        cases ht
      · exact (isSome_step hend).mp hgoes
  · intro hharmless
    constructor
    case exactly => exact hstart
    case complete => exact fun n type event w hlog hend => hdelivering.complete hlog hend
    case once =>
      intro n w type
      exact BusEvent.nodup_subscribed_at (hcons.ids_once.sublist ((List.take_sublist n m.log).filterMap _)) w type
    case no_other =>
      intro n entry event hinvoked
      have hin : some (entry, event) ∈ BusEvent.history m.log n :=
        List.mem_filterMap.mpr ⟨_, hinvoked, by rw [BusEvent.about, if_pos rfl]⟩
      obtain ⟨event', target, type, w, hlog, rfl⟩ := (hdelivering.status n).published (List.ne_nil_of_mem hin)
      obtain htarget | hnone := List.mem_append.mp ((hstart n type event' w hlog).subset hin)
      · obtain ⟨entry', -, heq⟩ := List.mem_map.mp htarget
        cases heq
        exact ⟨type, w, hlog⟩
      · cases List.mem_singleton.mp hnone
    case count => exact hcons.subscriber_count
    case kept => exact fun place sub hplace hactive => hcons.mem_entries hplace hactive
    case goes_on => exact or_iff_not_imp_left.mpr fun hend => (isSome_step hend).mpr hharmless

section Nested

/-- A callback with its number, and the places of the objects that it captures. -/
abbrev Numbered : Type := ℕ × List ℕ

/-- Two handlers, and one event. -/
def publish_once : BusProgram ℕ Numbered ℕ Unit Empty :=
  .call (.inl (.subscribe 1 (0, []))) fun _ => .call (.inl (.subscribe 1 (1, []))) fun _ =>
    .call (.inl (.publish 1 7)) fun _ => .pure ()

/-- The callback 0 resets the object at the place 1 and subscribes another handler, as
`test_publish_uses_snapshot_when_subscriptions_change` has it. -/
def first_handler (callback : Numbered) (_event : ℕ) : BusProgram ℕ Numbered ℕ Unit Empty :=
  if callback.1 = 0 then
    .call (.inl (.reset 1)) fun _ => .call (.inl (.subscribe 1 (2, []))) fun _ => .pure ()
  else .pure ()

/-- The second handler is invoked though the first one has removed it, and the third one is not. -/
theorem event_bus_delivers_iff_nested :
    let m := run Prod.snd first_handler 20 (start () publish_once)
    m.program = .pure () ∧ m.waiting = [] ∧
      BusEvent.history m.log 2 = [some (⟨1, 0, []⟩, 7), some (⟨2, 1, []⟩, 7), none] ∧
      Delivers Prod.snd first_handler m := by
  refine ⟨rfl, rfl, rfl, ?_⟩
  refine (event_bus_delivers_iff Prod.snd first_handler () publish_once (reaches_run Prod.snd first_handler 20 _)).mpr ?_
  rintro t ⟨⟩

/-- The object at the place 0 is moved into the callback of the one at the place 1. Then two handlers are
subscribed to events of another type, and one is published. -/
def publish_to_two : BusProgram ℕ Numbered ℕ Unit Empty :=
  .call (.inl (.subscribe 1 (2, []))) fun _ => .call (.inl (.subscribe 2 (3, [0]))) fun _ =>
    .call (.inl (.destroy 0)) fun _ => .call (.inl (.subscribe 3 (0, []))) fun _ =>
      .call (.inl (.subscribe 3 (1, []))) fun _ => .call (.inl (.publish 3 7)) fun _ => .pure ()

/-- The callback 0 resets the object at the place 1. -/
def reset_handler (callback : Numbered) (_event : ℕ) : BusProgram ℕ Numbered ℕ Unit Empty :=
  if callback.1 = 0 then .call (.inl (.reset 1)) fun _ => .pure () else .pure ()

/-- The reset erases a callback that keeps an active object, so the thread waits for itself, and the second of the
two handlers is not invoked. -/
theorem reset_waits_for_itself :
    let m := run Prod.snd reset_handler 20 (start () publish_to_two)
    Reaches Prod.snd reset_handler () publish_to_two m ∧ step Prod.snd reset_handler m = none ∧
      (m.world.bus.entries 3).map HandlerEntry.id = [3, 4] ∧
      BusEvent.history m.log 4 = [some (⟨3, 0, []⟩, 7)] ∧ ¬Delivers Prod.snd reset_handler m := by
  refine ⟨reaches_run Prod.snd reset_handler 20 _, rfl, rfl, rfl, fun hdelivers => ?_⟩
  obtain ⟨-, hwaiting, -⟩ | hgoes := hdelivers.goes_on
  · cases hwaiting
  · cases hgoes

end Nested

end BusMachine
end SignalRoute
