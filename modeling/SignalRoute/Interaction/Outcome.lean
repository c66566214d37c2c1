import SignalRoute.Interaction.Prog

/-!
# What comes of a program

`Prog.Settles` says of a program of actions on a state what its outcome is, and what holds of the last state
where it returns and where it throws. Outcomes are put together as their programs are (`Settles.bind`), so a
program of steps that may throw ends as the first of them that does, and what its steps keep is there when an
exception is handled (`Settles.tryCatch`).

A program on a part of a state is one on the whole (`Prog.zoom`), with the same outcome.

A program that tries several things one after the other has the outcome `firstError` of what it tries.
-/

namespace Interaction

section FirstError

variable {ε : Type}

/-- The first error of a list of outcomes, if there is one. -/
def firstError : List (Except ε Unit) → Except ε Unit
  | [] => .ok ()
  | r :: l => r.bind fun _ => firstError l

/-- No error comes first where there is none. -/
theorem firstError_eq_ok_iff (l : List (Except ε Unit)) : firstError l = .ok () ↔ ∀ r ∈ l, r = .ok () := by
  induction l with
  | nil => exact iff_of_true rfl nofun
  | cons r l ih =>
    rw [List.forall_mem_cons, ← ih]
    cases r with
    | ok a => exact (and_iff_right rfl).symm
    | error e => exact iff_of_false nofun fun h => nomatch h.1

/-- What is tried later is tried where nothing has failed yet. -/
theorem firstError_append (l l' : List (Except ε Unit)) :
    firstError (l ++ l') = (firstError l).bind fun _ => firstError l' := by
  induction l with
  | nil => rfl
  | cons r l ih =>
    cases r with
    | ok a => exact ih
    | error e => rfl

end FirstError

/-- The outcome of a handler, where there is an error to handle. -/
def handled {ε ε' α : Type} (r : Except ε α) (f : ε → Except ε' α) : Except ε' α :=
  match r with
  | .ok a => .ok a
  | .error e => f e

/-- A part of a state that can be read and replaced. -/
structure Part (σ τ : Type) where
  get : σ → τ
  put : σ → τ → σ
  get_put : ∀ s t, get (put s t) = t
  put_put : ∀ s t t', put (put s t) t' = put s t'
  put_get : ∀ s, put s (get s) = s

namespace Prog

variable {σ τ ε ε' α β : Type}

/-- The program on a part of the state. -/
def zoom (part : Part σ τ) (p : Prog (Atomic τ) ε α) : Prog (Atomic σ) ε α :=
  p.hoist fun f s => ((f (part.get s)).1, part.put s (f (part.get s)).2)

/-- The program where the condition holds, and nothing else. -/
def when (b : Bool) (p : Prog (Atomic σ) ε Unit) : Prog (Atomic σ) ε Unit := if b then p else .pure ()

/-- The outcome `r` of the program from `s`, with `P` for the last state if it returns and `E` if it throws. -/
structure Settles (p : Prog (Atomic σ) ε α) (s : σ) (r : Except ε α) (P E : σ → Prop) : Prop where
  result : (p.ends .atomic s).1 = r
  returned : ∀ a, r = .ok a → P (p.ends .atomic s).2
  thrown : ∀ e, r = .error e → E (p.ends .atomic s).2

section Rules

variable {s : σ} {P Q E E' : σ → Prop} {r : Except ε α}

theorem settles_pure {a : α} (h : P s) : (Prog.pure a : Prog (Atomic σ) ε α).Settles s (.ok a) P E :=
  ⟨rfl, fun _ _ => h, nofun⟩

theorem settles_throw {e : ε} (h : E s) : (Prog.throw e : Prog (Atomic σ) ε α).Settles s (.error e) P E :=
  ⟨rfl, nofun, fun _ _ => h⟩

theorem settles_modify {f : σ → σ} (h : P (f s)) : (modify f : Prog (Atomic σ) ε Unit).Settles s (.ok ()) P E :=
  ⟨rfl, fun _ _ => h, nofun⟩

/-- An outcome that does not depend on the state. -/
theorem settles_ofExcept (hP : ∀ a, r = .ok a → P s) (hE : ∀ e, r = .error e → E s) :
    (ofExcept r : Prog (Atomic σ) ε α).Settles s r P E := by
  cases r with
  | ok a => exact settles_pure (hP a rfl)
  | error e => exact settles_throw (hE e rfl)

/-- What follows an action starts in the state after it. -/
theorem settles_atomically_bind {f : σ → β × σ} {k : β → Prog (Atomic σ) ε α}
    (h : (k (f s).1).Settles (f s).2 r P E) : ((atomically f).bind k).Settles s r P E :=
  ⟨h.result, h.returned, h.thrown⟩

theorem settles_read_bind {f : σ → β} {k : β → Prog (Atomic σ) ε α} (h : (k (f s)).Settles s r P E) :
    ((read f).bind k).Settles s r P E := settles_atomically_bind h

theorem settles_modify_bind {f : σ → σ} {k : Unit → Prog (Atomic σ) ε α} (h : (k ()).Settles (f s) r P E) :
    ((modify f).bind k).Settles s r P E := settles_atomically_bind h

variable {p : Prog (Atomic σ) ε α}

/-- Weaker conditions. -/
theorem Settles.imp (h : p.Settles s r P E) (hP : ∀ a t, r = .ok a → P t → Q t)
    (hE : ∀ e t, r = .error e → E t → E' t) : p.Settles s r Q E' :=
  ⟨h.result, fun a ha => hP a _ ha (h.returned a ha), fun e he => hE e _ he (h.thrown e he)⟩

/-- A program that returns goes on, and one that throws does not. -/
theorem Settles.bind {k : α → Prog (Atomic σ) ε β} {r' : α → Except ε β} (hp : p.Settles s r P E)
    (hk : ∀ a t, r = .ok a → P t → (k a).Settles t (r' a) Q E) : (p.bind k).Settles s (r.bind r') Q E := by
  cases h : p.ends .atomic s with | mk result t =>
  have hresult : r = result := by rw [← hp.result, h]
  cases result with
  | ok a =>
    have hP := hp.returned a hresult
    have hends := ends_bind_ok h k
    rw [h] at hP
    have hk' := hk a t hresult hP
    subst hresult
    exact ⟨hends ▸ hk'.result, hends ▸ hk'.returned, hends ▸ hk'.thrown⟩
  | error e =>
    have hE := hp.thrown e hresult
    have hends := ends_bind_error h k
    rw [h] at hE
    subst hresult
    exact ⟨by rw [hends]; rfl, nofun, fun _ _ => by rw [hends]; exact hE⟩

/-- What follows a program that returns. -/
theorem Settles.bind_ok {a : α} {k : α → Prog (Atomic σ) ε β} {r : Except ε β} (hp : p.Settles s (.ok a) P E')
    (hk : ∀ t, P t → (k a).Settles t r Q E) : (p.bind k).Settles s r Q E := by
  have hends : (p.bind k).ends .atomic s = (k a).ends .atomic (p.ends .atomic s).2 :=
    ends_bind_ok (Prod.ext hp.result rfl) k
  have hk := hk _ (hp.returned a rfl)
  exact ⟨hends ▸ hk.result, hends ▸ hk.returned, hends ▸ hk.thrown⟩

/-- What follows an outcome starts in the same state, if it starts. -/
theorem settles_ofExcept_bind {r : Except ε β} {k : β → Prog (Atomic σ) ε α} {r' : β → Except ε α} (hE : E s)
    (hk : ∀ b, (k b).Settles s (r' b) P E) : ((ofExcept r).bind k).Settles s (r.bind r') P E := by
  cases r with
  | ok b => exact hk b
  | error e => exact settles_throw hE

/-- A handler goes on from the state of the exception. -/
theorem Settles.tryCatch {f : ε → Prog (Atomic σ) ε' α} {r' : ε → Except ε' α} (hp : p.Settles s r P E)
    (hf : ∀ e t, r = .error e → E t → (f e).Settles t (r' e) P E') :
    (p.tryCatch f).Settles s (handled r r') P E' := by
  cases h : p.ends .atomic s with | mk result t =>
  have hresult : r = result := by rw [← hp.result, h]
  cases result with
  | ok a =>
    have hP := hp.returned a hresult
    have hends := ends_tryCatch_ok h f
    rw [h] at hP
    subst hresult
    exact ⟨by rw [hends]; rfl, fun _ _ => by rw [hends]; exact hP, nofun⟩
  | error e =>
    have hE := hp.thrown e hresult
    have hends := ends_tryCatch_error h f
    rw [h] at hE
    have hf' := hf e t hresult hE
    subst hresult
    exact ⟨hends ▸ hf'.result, hends ▸ hf'.returned, hends ▸ hf'.thrown⟩

/-- A step that may be left out. -/
theorem Settles.when {b : Bool} {p : Prog (Atomic σ) ε Unit} {r : Except ε Unit}
    (hp : b = true → p.Settles s r P E) (hs : b = false → r = .ok () ∧ P s) : (p.when b).Settles s r P E := by
  cases b with
  | false =>
    obtain ⟨hr, hs⟩ := hs rfl
    exact hr ▸ settles_pure hs
  | true => exact hp rfl

/-- A program on a part settles as it does there. -/
theorem Settles.zoom (part : Part σ τ) {p : Prog (Atomic τ) ε α}
    (hp : p.Settles (part.get s) r (fun t => P (part.put s t)) fun t => E (part.put s t)) :
    (p.zoom part).Settles s r P E := by
  have hends : (p.zoom part).ends .atomic s =
      ((p.ends .atomic (part.get s)).1, part.put s (p.ends .atomic (part.get s)).2) := by
    clear hp
    induction p generalizing s with
    | pure a => exact Prod.ext rfl (part.put_get s).symm
    | throw e => exact Prod.ext rfl (part.put_get s).symm
    | call c k ih =>
      show ((k (c (part.get s)).1).zoom part).ends .atomic (part.put s (c (part.get s)).2) = _
      rw [ih, part.get_put, part.put_put]
      rfl
  exact ⟨by rw [hends]; exact hp.result, fun a ha => by rw [hends]; exact hp.returned a ha,
    fun e he => by rw [hends]; exact hp.thrown e he⟩

end Rules

end Prog

end Interaction
