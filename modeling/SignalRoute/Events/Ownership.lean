import SignalRoute.Events.EventBus

/-!
# Who owns the entries of a bus

The handler objects of the services keep the `Subscription`s that `subscribe` gives them, and give them up all
at once. Whatever the order in which they subscribe and give up, the bus has the entries of the ones that are
kept, and no others (`Owned.wire`, `Owned.clear`).
-/

namespace SignalRoute

variable {T C : Type} [DecidableEq T]

/-- A `Subscription` that is active: its type and its id. -/
abbrev Token (T : Type) : Type := T × ℕ

namespace EventBus

/-- `subscribe`, and the `Subscription` that it returns. -/
def subscribe (bus : EventBus T C) (type : T) (callback : C) : Token T × EventBus T C :=
  ((type, bus.next_id), bus.add type callback)

/-- `subscriptions_.push_back(bus_.subscribe(..))` for each type. -/
def wire (callback : C) : List T → EventBus T C → List (Token T) × EventBus T C
  | [], bus => ([], bus)
  | type :: types, bus =>
    let (token, bus) := bus.subscribe type callback
    let (tokens, bus) := wire callback types bus
    (token :: tokens, bus)

/-- `subscriptions_.clear()`: every `Subscription` is reset by its destructor. -/
def clear (tokens : List (Token T)) (bus : EventBus T C) : EventBus T C :=
  tokens.foldl (fun bus token => bus.unsubscribe token.1 token.2) bus

/-- The bus has the entries of these active `Subscription`s, and no others. -/
structure Owned (bus : EventBus T C) (tokens : Multiset (Token T)) : Prop where
  entries : ∀ type, ((bus.entries type).map fun entry => ((type, entry.id) : Token T) : Multiset (Token T)) =
    tokens.filter fun token => token.1 = type
  lt_next_id : ∀ token ∈ tokens, token.2 < bus.next_id
  nodup : (tokens.map Prod.snd).Nodup

namespace Owned

variable {bus : EventBus T C} {s : Multiset (Token T)}

/-- A bus that nothing has subscribed to. -/
theorem empty : Owned ({} : EventBus T C) 0 :=
  ⟨fun _ => rfl, fun _ h => absurd h (Multiset.notMem_zero _), Multiset.nodup_zero⟩

/-- The number of subscribers of a type. -/
theorem subscriber_count (h : Owned bus s) (type : T) :
    bus.subscriber_count type = (s.map Prod.fst).count type := by
  have hcard := congrArg Multiset.card (h.entries type)
  rw [Multiset.coe_card, List.length_map] at hcard
  rw [subscriber_count_eq, hcard, Multiset.count_map]
  simp only [eq_comm]

/-- `subscribe` adds an entry of its own. -/
theorem subscribe (h : Owned bus s) (type : T) (callback : C) :
    Owned (bus.subscribe type callback).2 ((bus.subscribe type callback).1 ::ₘ s) := by
  refine ⟨fun type' => ?_, ?_, ?_⟩
  · show (((bus.add type callback).entries type').map fun entry => ((type', entry.id) : Token T) : Multiset _) =
      ((type, bus.next_id) ::ₘ s).filter fun token => token.1 = type'
    rw [entries_add, List.map_append, ← Multiset.coe_add, h.entries type']
    by_cases htype : type = type'
    · subst htype
      rw [if_pos rfl, @Multiset.filter_cons_of_pos _ (fun token : Token T => token.1 = type) _ _ s rfl, add_comm]
      rfl
    · rw [if_neg htype, @Multiset.filter_cons_of_neg _ (fun token : Token T => token.1 = type') _ _ s htype]
      exact add_zero _
  · intro token htoken
    obtain rfl | htoken := Multiset.mem_cons.mp htoken
    · exact Nat.lt_succ_self bus.next_id
    · exact (h.lt_next_id token htoken).trans (Nat.lt_succ_self bus.next_id)
  · rw [Multiset.map_cons, Multiset.nodup_cons]
    refine ⟨fun hmem => ?_, h.nodup⟩
    obtain ⟨token, htoken, heq⟩ := Multiset.mem_map.mp hmem
    exact absurd (h.lt_next_id token htoken) (heq ▸ lt_irrefl _)

/-- A reset takes its own entry away. -/
theorem unsubscribe {token : Token T} (h : Owned bus (token ::ₘ s)) :
    Owned (bus.unsubscribe token.1 token.2) s := by
  obtain ⟨hnew, hnodup⟩ := Multiset.nodup_cons.mp (Multiset.map_cons Prod.snd token s ▸ h.nodup)
  have hother : ∀ token' ∈ s, token' ≠ token := by
    rintro _ htoken rfl
    exact hnew (Multiset.mem_map_of_mem Prod.snd htoken)
  refine ⟨fun type => ?_, fun token' htoken => ?_, hnodup⟩
  · -- The entry that goes is the one of the token, among the entries of a type as among the tokens.
    have hkeep : (fun entry : HandlerEntry C => decide (¬(token.1 = type ∧ entry.id = token.2))) =
        (fun token' : Token T => decide (token' ≠ token)) ∘ fun entry => (type, entry.id) := by
      funext entry
      obtain ⟨type', id⟩ := token
      simp only [Function.comp_apply, ne_eq, Prod.mk.injEq, eq_comm]
    rw [entries_unsubscribe, hkeep, ← List.filter_map, ← Multiset.filter_coe, h.entries type, Multiset.filter_filter,
      @Multiset.filter_cons_of_neg _ (fun token' : Token T => token' ≠ token ∧ token'.1 = type) _ _ s
        (fun hne => hne.1 rfl)]
    refine Multiset.filter_congr fun token' htoken => ?_
    exact and_iff_right (hother token' htoken)
  · rw [next_id_unsubscribe]
    exact h.lt_next_id token' (Multiset.mem_cons_of_mem htoken)

/-- Subscribing to several types. -/
theorem wire (h : Owned bus s) (callback : C) (types : List T) :
    Owned (EventBus.wire callback types bus).2 ((EventBus.wire callback types bus).1 + s) ∧
      (EventBus.wire callback types bus).1.map Prod.fst = types := by
  induction types generalizing bus s with
  | nil => exact ⟨(zero_add s).symm ▸ h, rfl⟩
  | cons type types ih =>
    obtain ⟨howned, htypes⟩ := ih (h.subscribe type callback)
    rw [Multiset.add_cons, ← Multiset.cons_add, Multiset.cons_coe] at howned
    exact ⟨howned, congrArg (type :: ·) htypes⟩

/-- Giving up all of them. -/
theorem clear {tokens : List (Token T)} (h : Owned bus (tokens + s)) : Owned (EventBus.clear tokens bus) s := by
  induction tokens generalizing bus with
  | nil =>
    rw [Multiset.coe_nil, zero_add] at h
    exact h
  | cons token tokens ih =>
    rw [← Multiset.cons_coe, Multiset.cons_add] at h
    exact ih h.unsubscribe

end Owned

end EventBus

end SignalRoute
