import SignalRoute.Store.Unordered
import SignalRoute.Interaction.Prog
import Mathlib.Data.Multiset.Filter

/-!
# The event bus

`src/common/events/event_bus.h`: handlers in the order in which they subscribed, by the type of the
event, and `Subscription` objects that own them and can be moved. A program uses the bus through
`BusCall`; what it does next may depend on every answer and on its own memory.

A callback may capture objects, by shared pointers since a callback is copied. `unsubscribe` destroys the
callback that it erases while it holds `mu_`, and with it the objects that nothing else keeps. If one of them
is active, its destructor calls `unsubscribe` again, and the thread waits for the mutex that it holds
(`BusWorld.unsubscribe`).

Which handlers are subscribed is also said without the table of the bus: a run keeps a log, and
`subscribed_at` are the handlers of the `subscribe` calls in it whose id a live `Subscription` still
owns. Every call keeps the table equal to this list (`Consistent.perform`). The ids are natural numbers:
a program does not subscribe `2 ^ 64` times.
-/

namespace SignalRoute

open Store (UnorderedMap)
open Interaction (Prog Atomic)

/-- `EventBus::HandlerEntry`. -/
structure HandlerEntry (C : Type) where
  id : ℕ
  callback : C

/-- `EventBus`. -/
structure EventBus (T C : Type) [DecidableEq T] where
  next_id : ℕ := 1
  handlers : UnorderedMap T (List (HandlerEntry C)) := ∅

/-- `EventBus::Subscription`; `bus` is whether `bus_` is set, and the default type is `typeid(void)`. -/
structure Subscription (T : Type) [Inhabited T] where
  bus : Bool := false
  type : T := default
  id : ℕ := 0

namespace EventBus

variable {T C : Type} [DecidableEq T] (bus : EventBus T C)

/-- The entries of a type; a type that is not in the map has none. -/
def entries (type : T) : List (HandlerEntry C) := (bus.handlers.lookup type).getD []

/-- What `subscribe` does to the bus. -/
def add (type : T) (callback : C) : EventBus T C :=
  { next_id := bus.next_id + 1
    handlers := bus.handlers.insert type (bus.entries type ++ [⟨bus.next_id, callback⟩]) }

/-- `unsubscribe`. -/
def unsubscribe (type : T) (id : ℕ) : EventBus T C :=
  match bus.handlers.lookup type with
  | none => bus
  | some entries =>
    let kept := entries.filter fun entry => entry.id ≠ id
    { bus with
      handlers := if kept = [] then bus.handlers.erase type else bus.handlers.insert type kept }

/-- The callbacks in the table. -/
def callbacks : List C := bus.handlers.entries.flatMap fun e => e.2.map HandlerEntry.callback

/-- `subscriber_count`. -/
def subscriber_count (type : T) : ℕ :=
  match bus.handlers.lookup type with
  | none => 0
  | some entries => entries.length

end EventBus

/-- The bus with the `Subscription` objects in the order of their construction, where a destroyed one is
`none`. An object lives until the program has `released` it and no callback is left that captures it;
`dying` are the places of the objects that have just lost an owner. -/
structure BusWorld (T C : Type) [DecidableEq T] [Inhabited T] where
  bus : EventBus T C := {}
  subscriptions : List (Option (Subscription T)) := []
  released : List ℕ := []
  dying : List ℕ := []

/-- The calls of a program: of the objects, which are named by their place, and of the bus. With `destroy`
the program gives up an object. A `publish` is left by the exception of a handler, if it throws one. -/
inductive BusCall (T C P E : Type) : Type → Type where
  | construct : BusCall T C P E ℕ
  | subscribe (type : T) (callback : C) : BusCall T C P E ℕ
  | move_construct (other : ℕ) : BusCall T C P E ℕ
  | move_assign (this other : ℕ) : BusCall T C P E Unit
  | reset (this : ℕ) : BusCall T C P E Unit
  | destroy (this : ℕ) : BusCall T C P E Unit
  | active (this : ℕ) : BusCall T C P E Bool
  | subscriber_count (type : T) : BusCall T C P E ℕ
  | publish (type : T) (event : P) : BusCall T C P E (Except E Unit)

/-- A program that uses the bus and a memory of its own, which all handlers share, and that may throw. -/
abbrev BusProgram (T C P M E : Type) : Type 1 :=
  Prog (fun β => BusCall T C P E β ⊕ Atomic M β) E Unit

namespace BusWorld

variable {T C P E : Type} [DecidableEq T] [Inhabited T]

section Destruction

-- The objects that a callback captures, and the callbacks that the waiting publishes have copied.
variable (captured : C → List ℕ) (copies : List C) (w : BusWorld T C)

/-- The object at a place; a place without one is like an object that owns nothing. -/
def subscription (place : ℕ) : Subscription T := (w.subscriptions[place]?.join).getD {}

/-- Whether something keeps the object at a place: the program, an owner that is still to be given up, or a
callback in the table or its copy. -/
def held (place : ℕ) : Bool :=
  place ∉ w.released || place ∈ w.dying || (w.bus.callbacks ++ copies).any fun callback => place ∈ captured callback

/-- The objects that nothing keeps but the callback that `unsubscribe` erases. -/
def orphans (type : T) (id : ℕ) : List ℕ :=
  (((w.bus.entries type).filter fun entry => entry.id = id).flatMap fun entry => captured entry.callback).filter
    fun place => !{ w with bus := w.bus.unsubscribe type id }.held captured copies place

/-- `unsubscribe`, and the destruction of the erased callback while `mu_` is held. It is `none` where the
destructor of an active object locks `mu_` again: the thread then waits for itself. -/
def unsubscribe (type : T) (id : ℕ) : Option (BusWorld T C) :=
  let orphans := w.orphans captured copies type id
  if orphans.any fun place => (w.subscription place).bus then none
  else
    some { w with
      bus := w.bus.unsubscribe type id
      subscriptions := w.subscriptions.mapIdx fun place sub => if place ∈ orphans then none else sub }

/-- `Subscription::reset`. -/
def reset (this : ℕ) : Option (BusWorld T C) :=
  let sub := w.subscription this
  if sub.bus = false then some w
  else
    (w.unsubscribe captured copies sub.type sub.id).map fun w =>
      { w with subscriptions := w.subscriptions.set this (some { sub with bus := false }) }

/-- What a move from `other` leaves there: `bus_` is null, and the rest is as before. -/
def exchange (other : ℕ) : BusWorld T C :=
  let sub := w.subscription other
  if sub.bus = false then w
  else { w with subscriptions := w.subscriptions.set other (some { sub with bus := false }) }

/-- The constructor from `Subscription&&`. -/
def move_construct (other : ℕ) : BusWorld T C :=
  let moved := w.exchange other
  { moved with subscriptions := moved.subscriptions ++ [some (w.subscription other)] }

/-- The assignment of `Subscription&&`. No program assigns to an object that does not exist, so such a
call does nothing. -/
def move_assign (this other : ℕ) : Option (BusWorld T C) :=
  if this = other ∨ w.subscriptions[this]?.join = none then some w
  else
    (w.reset captured copies this).map fun w =>
      let moved := w.exchange other
      { moved with subscriptions := moved.subscriptions.set this (some (w.subscription other)) }

/-- The program gives up an object that it has. -/
def destroy (this : ℕ) : BusWorld T C :=
  if this ∈ w.released ∨ w.subscriptions[this]?.join = none then w
  else { w with released := this :: w.released, dying := this :: w.dying }

/-- An object has lost an owner. Where that was the last one, this is the destructor. -/
def drop (place : ℕ) : Option (BusWorld T C) :=
  if w.held captured copies place then some w
  else
    (w.reset captured copies place).map fun w => { w with subscriptions := w.subscriptions.set place none }

/-- The calls that are one step: all but `publish`, which only comes to the machine. -/
def perform {β : Type} : BusCall T C P E β → BusWorld T C → Option (β × BusWorld T C)
  | .construct, w => some (w.subscriptions.length, { w with subscriptions := w.subscriptions ++ [some {}] })
  | .subscribe type callback, w =>
    some (w.subscriptions.length,
      { w with
        bus := w.bus.add type callback
        subscriptions := w.subscriptions ++ [some { bus := true, type, id := w.bus.next_id }] })
  | .move_construct other, w => some (w.subscriptions.length, w.move_construct other)
  | .move_assign this other, w => (w.move_assign captured copies this other).map ((), ·)
  | .reset this, w => (w.reset captured copies this).map ((), ·)
  | .destroy this, w => some ((), w.destroy this)
  | .active this, w => some ((w.subscription this).bus, w)
  | .subscriber_count type, w => some (w.bus.subscriber_count type, w)
  | .publish _ _, w => some (.ok (), w)

/-- Something other than the entry with the type and the id keeps the object at a place: the program, an
owner that is still to be given up, the copy of a callback, or another entry. -/
def KeptBeside (type : T) (id place : ℕ) : Prop :=
  place ∉ w.released ∨ place ∈ w.dying ∨ (∃ callback ∈ copies, place ∈ captured callback) ∨
    ∃ type', ∃ entry ∈ w.bus.entries type', ¬(type = type' ∧ entry.id = id) ∧ place ∈ captured entry.callback

/-- The callback of an entry does not end the life of an active object. -/
def Erasable (type : T) (id : ℕ) : Prop :=
  ∀ entry ∈ w.bus.entries type, entry.id = id → ∀ place ∈ captured entry.callback,
    (w.subscription place).bus = true → w.KeptBeside captured copies type id place

end Destruction

variable (w : BusWorld T C)

/-- The `type_` and `id_` of an object that is alive and active. -/
def token : Option (Subscription T) → Option (T × ℕ)
  | none => none
  | some sub => if sub.bus then some (sub.type, sub.id) else none

/-- What a call takes from the table. -/
def takes {β : Type} : BusCall T C P E β → BusWorld T C → Option (T × ℕ)
  | .reset this, w => token (some (w.subscription this))
  | .move_assign this other, w =>
    if this = other ∨ w.subscriptions[this]?.join = none then none else token (some (w.subscription this))
  | _, _ => none

/-- What the end of an owner takes from the table. -/
def takes_drop (captured : C → List ℕ) (copies : List C) (place : ℕ) : Option (T × ℕ) :=
  if w.held captured copies place then none else token (some (w.subscription place))

/-- What the active objects own. -/
def tokens : List (T × ℕ) := w.subscriptions.filterMap token

/-- How many live objects are active and of a type. -/
def active_count (type : T) : ℕ :=
  w.subscriptions.countP fun place => place.any fun sub => sub.bus && sub.type = type

end BusWorld

/-- What a run notes: a `subscribe` with the entry it made, a `publish` with the world at its start, a
handler that is invoked for the `publish` noted at a place of the log, and that `publish`'s end: it returns,
or the exception of a handler leaves it. -/
inductive BusEvent (T C P E : Type) [DecidableEq T] [Inhabited T] where
  | subscribed (type : T) (entry : HandlerEntry C)
  | published (type : T) (event : P) (world : BusWorld T C)
  | invoked (publish : ℕ) (entry : HandlerEntry C) (event : P)
  | returned (publish : ℕ)
  | left (publish : ℕ) (exception : E)

namespace BusEvent

variable {T C P E : Type} [DecidableEq T] [Inhabited T]

/-- What a call adds to the log. -/
def noted {β : Type} (w : BusWorld T C) : BusCall T C P E β → List (BusEvent T C P E)
  | .subscribe type callback => [.subscribed type ⟨w.bus.next_id, callback⟩]
  | .publish type event => [.published type event w]
  | _ => []

/-- The handler that the event subscribed, if it is of the type and owned in the world `w`. -/
def subscribed_in (w : BusWorld T C) (type : T) : BusEvent T C P E → Option (HandlerEntry C)
  | .subscribed made entry =>
    if made = type ∧ (type, entry.id) ∈ w.tokens then some entry else none
  | _ => none

/-- What the event says of the publish `n`: which handler it invokes with what, or that it returns. -/
def about (n : ℕ) : BusEvent T C P E → Option (Option (HandlerEntry C × P))
  | .invoked publish entry event => if publish = n then some (some (entry, event)) else none
  | .returned publish => if publish = n then some none else none
  | _ => none

/-- The handlers of a type that are subscribed after the events of a log, in subscription order: those
of the `subscribe` calls whose entry a live `Subscription` still owns. -/
def subscribed_at (log : List (BusEvent T C P E)) (w : BusWorld T C) (type : T) : List (HandlerEntry C) :=
  log.filterMap (subscribed_in w type)

/-- The id of the entry that the event made. -/
def made_id : BusEvent T C P E → Option ℕ
  | .subscribed _ entry => some entry.id
  | _ => none

/-- What the publish `n` has done: its invocations in order, and `none` for its return. -/
def history (log : List (BusEvent T C P E)) (n : ℕ) : List (Option (HandlerEntry C × P)) :=
  log.filterMap (about n)

end BusEvent

namespace EventBus

variable {T C : Type} [DecidableEq T] (bus : EventBus T C)

/-- `subscribe` appends to the entries of its type. -/
theorem entries_add (type type' : T) (callback : C) :
    (bus.add type callback).entries type' =
      bus.entries type' ++ if type = type' then [⟨bus.next_id, callback⟩] else [] := by
  unfold add
  by_cases h : type = type'
  · subst h
    rw [entries, AList.lookup_insert, Option.getD_some, if_pos rfl]
  · rw [entries, AList.lookup_insert_ne (Ne.symm h), if_neg h, List.append_nil]
    rfl

/-- `unsubscribe` takes the id from the entries of its type. -/
theorem entries_unsubscribe (type type' : T) (id : ℕ) :
    (bus.unsubscribe type id).entries type' =
      (bus.entries type').filter fun entry => ¬(type = type' ∧ entry.id = id) := by
  unfold unsubscribe
  by_cases h : type = type'
  · subst h
    cases hl : bus.handlers.lookup type with
    | none => simp [entries, hl]
    | some entries =>
      have hkept : bus.entries type = entries := by rw [EventBus.entries, hl, Option.getD_some]
      simp only [hkept, true_and]
      split
      · next hnil =>
        rw [EventBus.entries, AList.lookup_erase, Option.getD_none]
        simpa using hnil.symm
      · rw [EventBus.entries, AList.lookup_insert, Option.getD_some]
  · have hother : (bus.entries type').filter (fun entry => ¬(type = type' ∧ entry.id = id)) =
        bus.entries type' := by simp [h]
    rw [hother]
    split
    · rfl
    · dsimp only
      split
      · rw [entries, AList.lookup_erase_ne (Ne.symm h)]
        rfl
      · rw [entries, AList.lookup_insert_ne (Ne.symm h)]
        rfl

/-- Ids do not come back. -/
@[simp] theorem next_id_unsubscribe (type : T) (id : ℕ) : (bus.unsubscribe type id).next_id = bus.next_id := by
  unfold unsubscribe
  split <;> rfl

/-- The callbacks in the table are those of the entries. -/
theorem mem_callbacks {callback : C} :
    callback ∈ bus.callbacks ↔ ∃ type, ∃ entry ∈ bus.entries type, entry.callback = callback := by
  unfold callbacks
  rw [List.mem_flatMap]
  constructor
  · rintro ⟨⟨type, entries⟩, he, hcallback⟩
    obtain ⟨entry, hentry, rfl⟩ := List.mem_map.mp hcallback
    refine ⟨type, entry, ?_, rfl⟩
    rw [EventBus.entries, AList.mem_lookup_iff.mpr he, Option.getD_some]
    exact hentry
  · rintro ⟨type, entry, hentry, rfl⟩
    cases hlookup : bus.handlers.lookup type with
    | none =>
      rw [EventBus.entries, hlookup, Option.getD_none] at hentry
      cases hentry
    | some entries =>
      rw [EventBus.entries, hlookup, Option.getD_some] at hentry
      exact ⟨⟨type, entries⟩, AList.mem_lookup_iff.mp hlookup, List.mem_map.mpr ⟨entry, hentry, rfl⟩⟩

/-- The count is the length of the entries, with or without a list in the map. -/
theorem subscriber_count_eq (type : T) : bus.subscriber_count type = (bus.entries type).length := by
  unfold subscriber_count entries
  cases bus.handlers.lookup type <;> rfl

end EventBus

/-- Replacing one element of a list replaces what it contributes. -/
theorem filterMap_set_perm {α β : Type} (f : α → Option β) (l : List α) (i : ℕ) (h : i < l.length) (a : α) :
    ((f l[i]).toList ++ (l.set i a).filterMap f).Perm ((f a).toList ++ l.filterMap f) := by
  have hold : ((f l[i]).toList ++ (l.eraseIdx i).filterMap f).Perm (l.filterMap f) := by
    have hperm := (List.getElem_cons_eraseIdx_perm h).filterMap f
    rw [List.filterMap_cons] at hperm
    cases hf : f l[i] <;> rw [hf] at hperm <;> exact hperm
  have hnew : ((l.set i a).filterMap f).Perm ((f a).toList ++ (l.eraseIdx i).filterMap f) := by
    have hperm := (List.set_perm_cons_eraseIdx h a).filterMap f
    rw [List.filterMap_cons] at hperm
    cases hf : f a <;> rw [hf] at hperm <;> exact hperm
  calc ((f l[i]).toList ++ (l.set i a).filterMap f).Perm
        ((f l[i]).toList ++ ((f a).toList ++ (l.eraseIdx i).filterMap f)) := hnew.append_left _
    List.Perm _ ((f a).toList ++ ((f l[i]).toList ++ (l.eraseIdx i).filterMap f)) :=
        List.perm_append_comm_assoc ..
    List.Perm _ ((f a).toList ++ l.filterMap f) := hold.append_left _

namespace BusWorld

variable {T C P E : Type} [DecidableEq T] [Inhabited T] (w : BusWorld T C)

/-- What is read at a place with an object. -/
theorem token_getElem {place : ℕ} (h : place < w.subscriptions.length) :
    token w.subscriptions[place] = token (some (w.subscription place)) := by
  unfold subscription
  rw [List.getElem?_eq_getElem h, Option.join_some]
  cases w.subscriptions[place] <;> rfl

omit [DecidableEq T] in
/-- An object that is not active owns nothing. -/
theorem token_of_off {sub : Subscription T} (h : sub.bus = false) : token (some sub) = none := by
  rw [token, if_neg (by rw [h]; exact Bool.false_ne_true)]

/-- An active object is in its place. -/
theorem lt_of_active {place : ℕ} (h : (w.subscription place).bus = true) :
    place < w.subscriptions.length := by
  by_contra hout
  rw [subscription, List.getElem?_eq_none (not_lt.mp hout)] at h
  cases h

/-- What an active object owns. -/
theorem getElem?_map_token {place : ℕ} (h : (w.subscription place).bus = true) :
    (w.subscriptions.map token)[place]? = some (some ((w.subscription place).type, (w.subscription place).id)) := by
  have hplace := w.lt_of_active h
  rw [List.getElem?_map, List.getElem?_eq_getElem hplace, Option.map_some, token_getElem, token, if_pos h]

/-- The tokens are what the objects own. -/
theorem tokens_eq : w.tokens = (w.subscriptions.map token).filterMap id := by
  rw [List.filterMap_map, Function.id_comp]
  rfl

/-- An object that gives up its entry. -/
theorem tokens_clear {place : ℕ} {t : T × ℕ} {sub : Option (Subscription T)}
    (h : (w.subscriptions.map token)[place]? = some (some t)) (hsub : token sub = none) :
    (t :: (w.subscriptions.set place sub).filterMap token).Perm w.tokens := by
  obtain ⟨hplace, htoken⟩ := List.getElem?_eq_some_iff.mp h
  rw [List.length_map] at hplace
  rw [List.getElem_map] at htoken
  have hset := filterMap_set_perm token w.subscriptions place hplace sub
  rw [htoken, hsub] at hset
  exact hset

/-- An object that owned nothing takes what the new one has. -/
theorem tokens_fill {place : ℕ} (hplace : place < w.subscriptions.length)
    (h : (w.subscription place).bus = false) (sub : Option (Subscription T)) :
    ((w.subscriptions.set place sub).filterMap token).Perm ((token sub).toList ++ w.tokens) := by
  have hset := filterMap_set_perm token w.subscriptions place hplace sub
  rw [token_getElem, token_of_off h] at hset
  exact hset

/-- What another place reads after an assignment. -/
theorem subscription_set_ne {place other : ℕ} (h : place ≠ other) (sub : Option (Subscription T)) :
    { w with subscriptions := w.subscriptions.set place sub }.subscription other = w.subscription other := by
  unfold subscription
  rw [List.getElem?_set_ne h]

@[simp] theorem bus_exchange (other : ℕ) : (w.exchange other).bus = w.bus := by
  unfold exchange
  dsimp only
  split <;> rfl

@[simp] theorem length_exchange (other : ℕ) :
    (w.exchange other).subscriptions.length = w.subscriptions.length := by
  unfold exchange
  dsimp only
  split
  · rfl
  · exact List.length_set

/-- A move takes from the objects what its new owner gets. -/
theorem tokens_exchange (other : ℕ) :
    ((token (some (w.subscription other))).toList ++ (w.exchange other).tokens).Perm w.tokens := by
  unfold exchange
  dsimp only
  split
  · next h =>
    rw [token_of_off h]
    exact List.Perm.refl _
  · next h =>
    have hbus : (w.subscription other).bus = true := Bool.not_eq_false _ ▸ h
    rw [token, if_pos hbus]
    exact w.tokens_clear (w.getElem?_map_token hbus) (token_of_off rfl)

/-- A move does not change the other objects. -/
theorem subscription_exchange_ne {this other : ℕ} (h : this ≠ other) :
    (w.exchange other).subscription this = w.subscription this := by
  unfold exchange
  dsimp only
  split
  · rfl
  · exact w.subscription_set_ne (Ne.symm h) _

/-- The tokens change at most their owners, or one is given up, by its object and in the table. -/
def Frees (w w' : BusWorld T C) : Prop :=
  w'.bus = w.bus ∧ w'.tokens.Perm w.tokens ∨
    ∃ type id, w'.bus = w.bus.unsubscribe type id ∧ w.tokens.Perm ((type, id) :: w'.tokens)

/-- Nothing has changed. -/
theorem frees_refl : Frees w w := .inl ⟨rfl, List.Perm.refl _⟩

/-- Moves between objects may follow. -/
theorem Frees.moved {w w' w'' : BusWorld T C} (h : Frees w w') (hbus : w''.bus = w'.bus)
    (htokens : w''.tokens.Perm w'.tokens) : Frees w w'' := by
  obtain ⟨hbus', htokens'⟩ | ⟨type, id, hbus', htokens'⟩ := h
  · exact .inl ⟨hbus.trans hbus', htokens.trans htokens'⟩
  · exact .inr ⟨type, id, hbus.trans hbus', htokens'.trans (htokens.symm.cons _)⟩

omit [DecidableEq T] in
/-- A new object adds its token. -/
theorem tokens_push (subscriptions : List (Option (Subscription T))) (sub : Option (Subscription T)) :
    (subscriptions ++ [sub]).filterMap token = subscriptions.filterMap token ++ (token sub).toList := by
  rw [List.filterMap_append, List.filterMap_cons, List.filterMap_nil]
  cases token sub <;> rfl

/-- A constructed object takes what the other one gives. -/
theorem frees_move_construct (other : ℕ) : Frees w (w.move_construct other) := by
  refine w.frees_refl.moved (w.bus_exchange other) ?_
  unfold move_construct tokens
  dsimp only
  rw [tokens_push]
  exact List.perm_append_comm.trans (w.tokens_exchange other)

/-- What the program gives up is not destroyed yet. -/
theorem frees_destroy (this : ℕ) : Frees w (w.destroy this) := by
  unfold destroy
  split
  · exact w.frees_refl
  · exact .inl ⟨rfl, List.Perm.refl _⟩

section Destruction

variable {captured : C → List ℕ} {copies : List C} {w} {w' : BusWorld T C}

/-- What `unsubscribe` leaves where it comes to its end: the objects that are destroyed owned nothing. -/
theorem unsubscribe_eq_some {type : T} {id : ℕ} (h : w.unsubscribe captured copies type id = some w') :
    w'.bus = w.bus.unsubscribe type id ∧ w'.subscriptions.map token = w.subscriptions.map token := by
  unfold unsubscribe at h
  dsimp only at h
  split at h
  · cases h
  · next hall =>
    obtain rfl := Option.some.inj h
    refine ⟨rfl, List.ext_getElem? fun place => ?_⟩
    rw [List.getElem?_map, List.getElem?_map, List.getElem?_mapIdx, Option.map_map]
    obtain hplace | hplace := lt_or_ge place w.subscriptions.length
    · rw [List.getElem?_eq_getElem hplace, Option.map_some, Option.map_some, Function.comp_apply]
      split
      · next horphan =>
        have hoff : (w.subscription place).bus = false := by
          by_contra hon
          exact hall (List.any_eq_true.mpr ⟨place, horphan, Bool.not_eq_false _ ▸ hon⟩)
        rw [token_getElem, token_of_off hoff, token]
      · rfl
    · rw [List.getElem?_eq_none hplace]
      rfl

/-- What keeps an object once an entry has been erased. -/
theorem held_unsubscribe {type : T} {id place : ℕ} :
    { w with bus := w.bus.unsubscribe type id }.held captured copies place = true ↔
      w.KeptBeside captured copies type id place := by
  unfold held KeptBeside
  rw [Bool.or_eq_true, Bool.or_eq_true, decide_eq_true_eq, decide_eq_true_eq, or_assoc, List.any_eq_true]
  refine or_congr_right (or_congr_right ?_)
  simp only [List.mem_append, EventBus.mem_callbacks, EventBus.entries_unsubscribe, List.mem_filter,
    decide_eq_true_eq]
  constructor
  · rintro ⟨callback, ⟨type', entry, ⟨hentry, hother⟩, rfl⟩ | hcopy, hplace⟩
    · exact .inr ⟨type', entry, hentry, hother, hplace⟩
    · exact .inl ⟨callback, hcopy, hplace⟩
  · rintro (⟨callback, hcopy, hplace⟩ | ⟨type', entry, hentry, hother, hplace⟩)
    · exact ⟨callback, .inr hcopy, hplace⟩
    · exact ⟨entry.callback, .inl ⟨type', entry, ⟨hentry, hother⟩, rfl⟩, hplace⟩

/-- `unsubscribe` comes to its end exactly if no active object dies with the callback. -/
theorem isSome_unsubscribe {type : T} {id : ℕ} :
    (w.unsubscribe captured copies type id).isSome = true ↔ w.Erasable captured copies type id := by
  have horphans : ∀ place, place ∈ w.orphans captured copies type id ↔
      (∃ entry ∈ w.bus.entries type, entry.id = id ∧ place ∈ captured entry.callback) ∧
        ¬w.KeptBeside captured copies type id place := by
    intro place
    unfold orphans
    rw [List.mem_filter, List.mem_flatMap, Bool.not_eq_true', ← held_unsubscribe, Bool.not_eq_true]
    refine and_congr_left fun _ => exists_congr fun entry => ?_
    rw [List.mem_filter, decide_eq_true_eq, and_assoc]
  have hany : (w.orphans captured copies type id).any (fun place => (w.subscription place).bus) = true ↔
      ¬w.Erasable captured copies type id := by
    rw [List.any_eq_true]
    unfold Erasable
    push Not
    constructor
    · rintro ⟨place, horphan, hon⟩
      obtain ⟨⟨entry, hentry, hid, hplace⟩, hlast⟩ := (horphans place).mp horphan
      exact ⟨entry, hentry, hid, place, hplace, hon, hlast⟩
    · rintro ⟨entry, hentry, hid, place, hplace, hon, hlast⟩
      exact ⟨place, (horphans place).mpr ⟨⟨entry, hentry, hid, hplace⟩, hlast⟩, hon⟩
  unfold unsubscribe
  dsimp only
  split
  · next hall => exact iff_of_false Bool.false_ne_true (hany.mp hall)
  · next hall => exact iff_of_true rfl (not_not.mp fun hnot => hall (hany.mpr hnot))

/-- So does `reset`. -/
theorem isSome_reset {this : ℕ} : (w.reset captured copies this).isSome = true ↔
    ∀ t, token (some (w.subscription this)) = some t → w.Erasable captured copies t.1 t.2 := by
  unfold reset
  dsimp only
  split
  · next hoff =>
    rw [token_of_off hoff]
    exact iff_of_true rfl nofun
  · next hon =>
    rw [token, if_pos (Bool.not_eq_false _ ▸ hon), Option.isSome_map, isSome_unsubscribe]
    constructor
    · rintro h t ht
      obtain rfl := Option.some.inj ht
      exact h
    · exact fun h => h _ rfl

/-- So does a call, with what it takes from the table. -/
theorem isSome_perform {β : Type} {c : BusCall T C P E β} : (perform captured copies c w).isSome = true ↔
    ∀ t, takes c w = some t → w.Erasable captured copies t.1 t.2 := by
  cases c with
  | reset this =>
    unfold perform
    rw [Option.isSome_map]
    exact isSome_reset
  | move_assign this other =>
    rw [perform, Option.isSome_map, move_assign, takes]
    by_cases hno : this = other ∨ w.subscriptions[this]?.join = none
    · rw [if_pos hno, if_pos hno]
      exact iff_of_true rfl nofun
    · rw [if_neg hno, if_neg hno, Option.isSome_map]
      exact isSome_reset
  | construct => exact iff_of_true rfl nofun
  | subscribe type callback => exact iff_of_true rfl nofun
  | move_construct other => exact iff_of_true rfl nofun
  | destroy this => exact iff_of_true rfl nofun
  | active this => exact iff_of_true rfl nofun
  | subscriber_count type => exact iff_of_true rfl nofun
  | publish type event => exact iff_of_true rfl nofun

/-- So does the end of an owner. -/
theorem isSome_drop {place : ℕ} : (w.drop captured copies place).isSome = true ↔
    ∀ t, w.takes_drop captured copies place = some t → w.Erasable captured copies t.1 t.2 := by
  unfold drop takes_drop
  split
  · exact iff_of_true rfl nofun
  · rw [Option.isSome_map]
    exact isSome_reset

/-- `reset` gives up what the object owns, once, and leaves it inactive. -/
theorem reset_eq_some {this : ℕ} (h : w.reset captured copies this = some w') :
    Frees w w' ∧ (w'.subscription this).bus = false ∧ w'.subscriptions.length = w.subscriptions.length := by
  unfold reset at h
  dsimp only at h
  split at h
  · next hoff =>
    obtain rfl := Option.some.inj h
    exact ⟨w.frees_refl, hoff, rfl⟩
  · next hon =>
    have hactive : (w.subscription this).bus = true := Bool.not_eq_false _ ▸ hon
    obtain ⟨w₁, hunsubscribe, rfl⟩ := Option.map_eq_some_iff.mp h
    obtain ⟨hbus, hmap⟩ := unsubscribe_eq_some hunsubscribe
    have hlength : w₁.subscriptions.length = w.subscriptions.length := by
      rw [← List.length_map (f := token), hmap, List.length_map]
    refine ⟨.inr ⟨_, _, hbus, ?_⟩, ?_, List.length_set.trans hlength⟩
    · have htoken := w.getElem?_map_token hactive
      rw [tokens_eq w, ← hmap, ← tokens_eq w₁]
      rw [← hmap] at htoken
      exact (w₁.tokens_clear htoken (token_of_off rfl)).symm
    · have hthis : this < w₁.subscriptions.length := hlength ▸ w.lt_of_active hactive
      rw [subscription, List.getElem?_set_self hthis]
      rfl

/-- An object that is assigned to gives up what it owned and takes what the other one gives. -/
theorem frees_move_assign {this other : ℕ} (h : w.move_assign captured copies this other = some w') :
    Frees w w' := by
  unfold move_assign at h
  split at h
  · obtain rfl := Option.some.inj h
    exact w.frees_refl
  · next hboth =>
    obtain ⟨hne, hlive⟩ := not_or.mp hboth
    obtain ⟨w₁, hreset, rfl⟩ := Option.map_eq_some_iff.mp h
    obtain ⟨hfrees, hoff, hlength⟩ := reset_eq_some hreset
    have hplace : this < (w₁.exchange other).subscriptions.length := by
      rw [length_exchange, hlength]
      by_contra hout
      exact hlive (by rw [List.getElem?_eq_none (not_lt.mp hout)]; rfl)
    refine hfrees.moved (w₁.bus_exchange other) ?_
    exact (tokens_fill _ hplace (by rwa [subscription_exchange_ne _ hne]) _).trans (w₁.tokens_exchange other)

/-- The destructor gives up what the object owns. -/
theorem frees_drop {place : ℕ} (h : w.drop captured copies place = some w') : Frees w w' := by
  unfold drop at h
  split at h
  · obtain rfl := Option.some.inj h
    exact w.frees_refl
  · obtain ⟨w₁, hreset, rfl⟩ := Option.map_eq_some_iff.mp h
    obtain ⟨hfrees, hoff, -⟩ := reset_eq_some hreset
    refine hfrees.moved rfl ?_
    by_cases hplace : place < w₁.subscriptions.length
    · exact w₁.tokens_fill hplace hoff none
    · unfold tokens
      dsimp only
      rw [List.set_eq_of_length_le (not_lt.mp hplace)]

/-- What a call does to the table and to the tokens: it subscribes, or it makes no entry. -/
theorem perform_cases {β : Type} {c : BusCall T C P E β} {r : β × BusWorld T C}
    (h : perform captured copies c w = some r) :
    (∃ type callback, BusEvent.noted w c = [.subscribed type ⟨w.bus.next_id, callback⟩] ∧
      r.2.bus = w.bus.add type callback ∧ r.2.tokens = w.tokens ++ [(type, w.bus.next_id)]) ∨
    (BusEvent.noted w c).filterMap BusEvent.made_id = [] ∧ Frees w r.2 := by
  cases c with
  | construct =>
    obtain rfl := Option.some.inj h
    refine .inr ⟨rfl, w.frees_refl.moved rfl (.of_eq ?_)⟩
    exact (tokens_push w.subscriptions (some {})).trans (List.append_nil w.tokens)
  | subscribe type callback =>
    obtain rfl := Option.some.inj h
    exact .inl ⟨type, callback, rfl, rfl, tokens_push _ _⟩
  | move_construct other =>
    obtain rfl := Option.some.inj h
    exact .inr ⟨rfl, w.frees_move_construct other⟩
  | move_assign this other =>
    obtain ⟨w', hw', rfl⟩ := Option.map_eq_some_iff.mp h
    exact .inr ⟨rfl, frees_move_assign hw'⟩
  | reset this =>
    obtain ⟨w', hw', rfl⟩ := Option.map_eq_some_iff.mp h
    exact .inr ⟨rfl, (reset_eq_some hw').1⟩
  | destroy this =>
    obtain rfl := Option.some.inj h
    exact .inr ⟨rfl, w.frees_destroy this⟩
  | active this =>
    obtain rfl := Option.some.inj h
    exact .inr ⟨rfl, w.frees_refl⟩
  | subscriber_count type =>
    obtain rfl := Option.some.inj h
    exact .inr ⟨rfl, w.frees_refl⟩
  | publish type event =>
    obtain rfl := Option.some.inj h
    exact .inr ⟨rfl, w.frees_refl⟩

end Destruction

/-- The live active objects of a type are their tokens. -/
theorem active_count_eq (type : T) : w.active_count type = w.tokens.countP fun t => t.1 = type := by
  unfold active_count tokens
  rw [List.countP_filterMap]
  congr 1
  funext place
  obtain _ | sub := place
  · rfl
  · cases h : sub.bus <;> simp [token, h]

end BusWorld

namespace BusEvent

variable {T C P E : Type} [DecidableEq T] [Inhabited T]
  {log : List (BusEvent T C P E)} {w w' : BusWorld T C}

/-- The table of the bus, and the tokens of the objects, as the log says: the entries of each type are
the handlers subscribed; every token is of an entry made, and no two objects share one; ids are new. -/
structure Consistent (log : List (BusEvent T C P E)) (w : BusWorld T C) : Prop where
  entries : ∀ type, w.bus.entries type = subscribed_at log w type
  owned_once : w.tokens.Nodup
  made : ∀ type id, (type, id) ∈ w.tokens → ∃ callback, .subscribed type ⟨id, callback⟩ ∈ log
  ids_once : (log.filterMap made_id).Nodup
  fresh : ∀ id ∈ log.filterMap made_id, id < w.bus.next_id

/-- A handler is subscribed iff it has been and an object owns its entry. -/
theorem mem_subscribed_at {type : T} {entry : HandlerEntry C} :
    entry ∈ subscribed_at log w type ↔
      .subscribed type entry ∈ log ∧ (type, entry.id) ∈ w.tokens := by
  unfold subscribed_at
  rw [List.mem_filterMap]
  constructor
  · rintro ⟨e, he, hsub⟩
    cases e with
    | subscribed made entry' =>
      rw [subscribed_in, Option.ite_none_right_eq_some] at hsub
      obtain ⟨⟨rfl, htoken⟩, hentry⟩ := hsub
      cases hentry
      exact ⟨he, htoken⟩
    | published type event world => cases hsub
    | invoked publish entry event => cases hsub
    | returned publish => cases hsub
    | left publish exception => cases hsub
  · rintro ⟨he, htoken⟩
    exact ⟨_, he, by rw [subscribed_in, if_pos ⟨rfl, htoken⟩]⟩

/-- Events that make no entry leave the handlers of every type as they are. -/
theorem subscribed_at_append {events : List (BusEvent T C P E)} (h : events.filterMap made_id = [])
    (type : T) : subscribed_at (log ++ events) w type = subscribed_at log w type := by
  have hnone : events.filterMap (subscribed_in w type) = [] := by
    rw [List.filterMap_eq_nil_iff] at h ⊢
    intro e he
    cases e with
    | subscribed made entry => cases h _ he
    | published type event world => rfl
    | invoked publish entry event => rfl
    | returned publish => rfl
    | left publish exception => rfl
  unfold subscribed_at
  rw [List.filterMap_append, hnone, List.append_nil]

/-- An entry made is noted with its id. -/
theorem mem_made_id {type : T} {entry : HandlerEntry C} (h : .subscribed type entry ∈ log) :
    entry.id ∈ log.filterMap made_id :=
  List.mem_filterMap.mpr ⟨_, h, rfl⟩

/-- Only the tokens of a world count. -/
theorem subscribed_at_congr (type : T)
    (h : ∀ entry, .subscribed type entry ∈ log → ((type, entry.id) ∈ w'.tokens ↔ (type, entry.id) ∈ w.tokens)) :
    subscribed_at log w' type = subscribed_at log w type := by
  unfold subscribed_at
  refine List.filterMap_congr fun e he => ?_
  cases e with
  | subscribed made entry =>
    unfold subscribed_in
    refine if_congr (and_congr_right ?_) rfl rfl
    rintro rfl
    exact h entry he
  | published type event world => rfl
  | invoked publish entry event => rfl
  | returned publish => rfl
  | left publish exception => rfl

/-- A token that is given up takes its handler from those of its type. -/
theorem subscribed_at_freed (type' : T) {type : T} {id : ℕ}
    (hkept : ∀ t, t ∈ w'.tokens ↔ t ∈ w.tokens ∧ t ≠ (type, id)) :
    ((subscribed_at log w type').filter fun entry => ¬(type = type' ∧ entry.id = id)) =
      subscribed_at log w' type' := by
  rw [subscribed_at, List.filter_filterMap]
  refine List.filterMap_congr fun e _ => ?_
  cases e with
  | subscribed made entry =>
    simp only [subscribed_in, hkept, ne_eq, Prod.mk.injEq]
    by_cases hin : made = type' ∧ (type', entry.id) ∈ w.tokens
    · obtain ⟨rfl, hin⟩ := hin
      rw [if_pos ⟨rfl, hin⟩, Option.filter_some]
      refine if_congr ?_ rfl rfl
      simp only [hin, true_and, decide_eq_true_eq]
      exact not_congr (and_congr_left fun _ => eq_comm)
    · rw [if_neg hin, if_neg fun hand => hin ⟨hand.1, hand.2.1⟩, Option.filter_none]
  | published type event world => rfl
  | invoked publish entry event => rfl
  | returned publish => rfl
  | left publish exception => rfl

/-- A `subscribe` keeps table and tokens together. -/
theorem Consistent.add (h : Consistent log w) {type : T} {callback : C} (hbus : w'.bus = w.bus.add type callback)
    (htokens : w'.tokens = w.tokens ++ [(type, w.bus.next_id)]) :
    Consistent (log ++ [.subscribed type ⟨w.bus.next_id, callback⟩]) w' := by
  have hnew : ∀ made entry, .subscribed made entry ∈ log → entry.id ≠ w.bus.next_id := fun made entry he =>
    (h.fresh entry.id (mem_made_id he)).ne
  have hmade : (log ++ [subscribed type ⟨w.bus.next_id, callback⟩]).filterMap made_id =
      log.filterMap made_id ++ [w.bus.next_id] := by
    rw [List.filterMap_append]
    rfl
  constructor
  case entries =>
    intro type'
    rw [hbus, EventBus.entries_add, h.entries]
    unfold subscribed_at
    rw [List.filterMap_append]
    congr 1
    · refine (subscribed_at_congr type' fun entry he => ?_).symm
      rw [htokens, List.mem_append, List.mem_singleton]
      exact or_iff_left fun heq => hnew type' entry he (Prod.mk.inj heq).2
    · rw [List.filterMap_cons, List.filterMap_nil, subscribed_in, htokens]
      by_cases htype : type = type'
      · subst htype
        rw [if_pos rfl, if_pos ⟨rfl, List.mem_append_right _ List.mem_cons_self⟩]
      · rw [if_neg htype, if_neg fun hand => htype hand.1]
  case owned_once =>
    rw [htokens, List.nodup_append_comm, List.singleton_append, List.nodup_cons]
    refine ⟨fun hin => ?_, h.owned_once⟩
    obtain ⟨callback', he⟩ := h.made _ _ hin
    exact hnew _ _ he rfl
  case made =>
    intro type' id hin
    rw [htokens, List.mem_append, List.mem_singleton] at hin
    obtain hold | heq := hin
    · obtain ⟨callback', he⟩ := h.made _ _ hold
      exact ⟨callback', List.mem_append_left _ he⟩
    · obtain ⟨rfl, rfl⟩ := Prod.mk.inj heq
      exact ⟨callback, List.mem_append_right _ List.mem_cons_self⟩
  case ids_once =>
    rw [hmade, List.nodup_append_comm, List.singleton_append, List.nodup_cons]
    exact ⟨fun hin => (h.fresh _ hin).false, h.ids_once⟩
  case fresh =>
    intro id hin
    rw [hmade, List.mem_append, List.mem_singleton] at hin
    rw [hbus]
    obtain hold | rfl := hin
    · exact Nat.lt_succ_of_lt (h.fresh id hold)
    · exact Nat.lt_succ_self _

/-- Moving tokens and giving one up keep table and tokens together. -/
theorem Consistent.frees (h : Consistent log w) (hw : BusWorld.Frees w w') {events : List (BusEvent T C P E)}
    (hevents : events.filterMap made_id = []) : Consistent (log ++ events) w' := by
  have hmade : (log ++ events).filterMap made_id = log.filterMap made_id := by
    rw [List.filterMap_append, hevents, List.append_nil]
  have hsub : w'.tokens.Subset w.tokens := by
    obtain ⟨-, hperm⟩ | ⟨type, id, -, hperm⟩ := hw
    · exact hperm.subset
    · exact fun t ht => hperm.symm.subset (List.mem_cons_of_mem _ ht)
  constructor
  case entries =>
    intro type'
    rw [subscribed_at_append hevents]
    obtain ⟨hbus, hperm⟩ | ⟨type, id, hbus, hperm⟩ := hw
    · rw [hbus, h.entries]
      exact (subscribed_at_congr type' fun entry _ => hperm.mem_iff).symm
    · have hnodup := hperm.nodup_iff.mp h.owned_once
      have hkept (t : T × ℕ) : t ∈ w'.tokens ↔ t ∈ w.tokens ∧ t ≠ (type, id) := by
        rw [hperm.mem_iff, List.mem_cons]
        constructor
        · intro ht
          exact ⟨.inr ht, fun heq => (List.nodup_cons.mp hnodup).1 (heq ▸ ht)⟩
        · rintro ⟨heq | ht, hne⟩
          · exact absurd heq hne
          · exact ht
      rw [hbus, EventBus.entries_unsubscribe, h.entries]
      exact subscribed_at_freed type' hkept
  case owned_once =>
    obtain ⟨-, hperm⟩ | ⟨type, id, -, hperm⟩ := hw
    · exact hperm.nodup_iff.mpr h.owned_once
    · exact (List.nodup_cons.mp (hperm.nodup_iff.mp h.owned_once)).2
  case made =>
    intro type id hin
    obtain ⟨callback, he⟩ := h.made type id (hsub hin)
    exact ⟨callback, List.mem_append_left _ he⟩
  case ids_once =>
    rw [hmade]
    exact h.ids_once
  case fresh =>
    rw [hmade]
    obtain ⟨hbus, -⟩ | ⟨type, id, hbus, -⟩ := hw
    · rw [hbus]
      exact h.fresh
    · rw [hbus, EventBus.next_id_unsubscribe]
      exact h.fresh

/-- Every call keeps table and tokens together. -/
theorem Consistent.perform (h : Consistent log w) {captured : C → List ℕ} {copies : List C} {β : Type}
    {c : BusCall T C P E β} {r : β × BusWorld T C} (hc : BusWorld.perform captured copies c w = some r) :
    Consistent (log ++ noted w c) r.2 := by
  obtain ⟨type, callback, hnoted, hbus, htokens⟩ | ⟨hnoted, hw⟩ := BusWorld.perform_cases hc
  · rw [hnoted]
    exact h.add hbus htokens
  · exact h.frees hw hnoted

/-- No handler is subscribed twice. -/
theorem nodup_subscribed_at (h : (log.filterMap made_id).Nodup) (w : BusWorld T C) (type : T) :
    ((subscribed_at log w type).map HandlerEntry.id).Nodup := by
  have hids := List.pairwise_filterMap.mp h
  unfold subscribed_at
  rw [List.Nodup, List.pairwise_map, List.pairwise_filterMap]
  have hmade : ∀ (e : BusEvent T C P E) entry, subscribed_in w type e = some entry →
      made_id e = some entry.id := by
    intro e entry he
    cases e with
    | subscribed made entry' =>
      rw [subscribed_in, Option.ite_none_right_eq_some] at he
      obtain ⟨-, heq⟩ := he
      cases heq
      rfl
    | published type event world => cases he
    | invoked publish entry event => cases he
    | returned publish => cases he
    | left publish exception => cases he
  refine hids.imp fun hne => ?_
  intro entry he entry' he'
  exact hne _ (hmade _ _ he) _ (hmade _ _ he')

/-- The table of a type is as long as there are active objects of the type. -/
theorem Consistent.subscriber_count (h : Consistent log w) (type : T) :
    w.bus.subscriber_count type = w.active_count type := by
  have hperm : ((subscribed_at log w type).map fun entry => (type, entry.id)).Perm
      (w.tokens.filter fun t => t.1 = type) := by
    refine (List.perm_ext_iff_of_nodup ?_ (h.owned_once.filter _)).mpr ?_
    · have hids := nodup_subscribed_at h.ids_once w type
      rw [List.Nodup, List.pairwise_map] at hids ⊢
      exact hids.imp fun hne heq => hne (Prod.mk.inj heq).2
    · rintro ⟨type', id⟩
      rw [List.mem_map, List.mem_filter, decide_eq_true_eq]
      constructor
      · rintro ⟨entry, hentry, heq⟩
        obtain ⟨rfl, rfl⟩ := Prod.mk.inj heq
        exact ⟨(mem_subscribed_at.mp hentry).2, rfl⟩
      · rintro ⟨htoken, rfl⟩
        obtain ⟨callback, he⟩ := h.made _ _ htoken
        exact ⟨⟨id, callback⟩, mem_subscribed_at.mpr ⟨he, htoken⟩, rfl⟩
  rw [EventBus.subscriber_count_eq, h.entries, BusWorld.active_count_eq, List.countP_eq_length_filter,
    ← hperm.length_eq, List.length_map]

/-- An active object's handler is in the table, with the callback that it was subscribed with. -/
theorem Consistent.mem_entries (h : Consistent log w) {place : ℕ} {sub : Subscription T}
    (hplace : w.subscriptions[place]? = some (some sub)) (hactive : sub.bus = true) :
    ∃ callback, .subscribed sub.type ⟨sub.id, callback⟩ ∈ log ∧ ⟨sub.id, callback⟩ ∈ w.bus.entries sub.type := by
  have htoken : (sub.type, sub.id) ∈ w.tokens :=
    List.mem_filterMap.mpr ⟨_, List.mem_of_getElem? hplace, by rw [BusWorld.token, if_pos hactive]⟩
  obtain ⟨callback, he⟩ := h.made _ _ htoken
  refine ⟨callback, he, ?_⟩
  rw [h.entries]
  exact mem_subscribed_at.mpr ⟨he, htoken⟩

/-- The bus before its first call. -/
theorem consistent_start : Consistent ([] : List (BusEvent T C P E)) ({} : BusWorld T C) where
  entries _ := rfl
  owned_once := List.nodup_nil
  made _ _ h := absurd h List.not_mem_nil
  ids_once := List.nodup_nil
  fresh _ h := absurd h List.not_mem_nil

end BusEvent
end SignalRoute
