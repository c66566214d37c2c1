import SignalRoute.Interaction.Prog

/-!
# Two implementations of one interface

The calls of a signature are an interface, and a `Handler` is one implementation of it: each call is one
step. Another implementation answers each call by a program over calls of its own (`Prog.implement`). The
second implements the first (`Implements`) if a relation between the two states is kept by every call that
a client may make there, with the same answer and without an exception.

Then no program can tell them apart (`Implements.ends`), whatever it does with the answers.
-/

namespace Interaction

variable {F G : Type → Type} {σ τ ε α β : Type}

namespace Prog

/-- The program in which a program over other calls stands for every call. -/
def implement (impl : ∀ {β : Type}, F β → Prog G ε β) : Prog F ε α → Prog G ε α
  | .pure a => .pure a
  | .throw e => .throw e
  | .call c k => (impl c).bind fun b => (k b).implement impl

/-- Every call of the execution from `s` is allowed in the state in which it is made. -/
def Asks (h : Handler F σ) (allowed : ∀ {β : Type}, F β → σ → Prop) (p : Prog F ε α) (s : σ) : Prop :=
  match p with
  | .pure _ => True
  | .throw _ => True
  | .call c k => allowed c s ∧ (k (h.run c s).1).Asks h allowed (h.run c s).2

section Asks

variable {h : Handler F σ} {allowed : ∀ {β : Type}, F β → σ → Prop}

@[simp] theorem asks_pure (a : α) (s : σ) : (Prog.pure a : Prog F ε α).Asks h allowed s := trivial

@[simp] theorem asks_throw (e : ε) (s : σ) : (Prog.throw e : Prog F ε α).Asks h allowed s := trivial

@[simp] theorem asks_perform (c : F α) (s : σ) :
    (perform c : Prog F ε α).Asks h allowed s ↔ allowed c s := and_iff_left trivial

@[simp] theorem asks_ofExcept (r : Except ε α) (s : σ) : (ofExcept r : Prog F ε α).Asks h allowed s := by
  cases r <;> trivial

end Asks

/-- Every call that the program can make, whatever it is answered, is allowed. -/
def Only (allowed : ∀ {β : Type}, F β → Prop) : Prog F ε α → Prop
  | .pure _ => True
  | .throw _ => True
  | .call c k => allowed c ∧ ∀ b, (k b).Only allowed

section Only

variable {allowed : ∀ {β : Type}, F β → Prop}

@[simp] theorem only_pure (a : α) : (Prog.pure a : Prog F ε α).Only allowed := trivial

@[simp] theorem only_throw (e : ε) : (Prog.throw e : Prog F ε α).Only allowed := trivial

@[simp] theorem only_perform (c : F α) : (perform c : Prog F ε α).Only allowed ↔ allowed c :=
  and_iff_left fun _ => trivial

@[simp] theorem only_ofExcept (r : Except ε α) : (ofExcept r : Prog F ε α).Only allowed := by
  cases r <;> trivial

/-- A program that allowed calls are followed by. -/
theorem Only.bind {p : Prog F ε α} {f : α → Prog F ε β} (hp : p.Only allowed) (hf : ∀ a, (f a).Only allowed) :
    (p.bind f).Only allowed := by
  induction p with
  | pure a => exact hf a
  | throw e => trivial
  | call c k ih => exact ⟨hp.1, fun b => ih b (hp.2 b)⟩

/-- A loop whose body makes allowed calls. -/
theorem Only.foldEach {body : τ → α → Prog F ε τ} (hbody : ∀ t a, (body t a).Only allowed) (l : List α) (t : τ) :
    (Prog.foldEach l t body).Only allowed := by
  induction l generalizing t with
  | nil => trivial
  | cons a l ih => exact (hbody t a).bind ih

/-- Calls that stand for allowed ones. -/
theorem Only.hoist {p : Prog F ε α} {f : ∀ {β : Type}, F β → G β} {allowed' : ∀ {β : Type}, G β → Prop}
    (hp : p.Only allowed) (hf : ∀ {β : Type} (c : F β), allowed c → allowed' (f c)) : (p.hoist f).Only allowed' := by
  induction p with
  | pure a => trivial
  | throw e => trivial
  | call c k ih => exact ⟨hf c hp.1, fun b => ih b (hp.2 b)⟩

/-- Where every call is allowed. -/
theorem only_of_forall (hall : ∀ {β : Type} (c : F β), allowed c) (p : Prog F ε α) : p.Only allowed := by
  induction p with
  | pure a => trivial
  | throw e => trivial
  | call c k ih => exact ⟨hall c, ih⟩

end Only

/-- A program whose calls act on a part of the state leaves the rest as it is. -/
theorem ends_hoist (h : Handler F σ) (hG : Handler G τ) (f : ∀ {β : Type}, F β → G β) (get : τ → σ)
    (put : τ → σ → τ) {allowed : ∀ {β : Type}, F β → Prop}
    (hrun : ∀ {β : Type} (c : F β) t, allowed c → hG.run (f c) t = ((h.run c (get t)).1, put t (h.run c (get t)).2))
    (hget : ∀ t s, get (put t s) = s) (hput : ∀ t s s', put (put t s) s' = put t s')
    (hself : ∀ t, put t (get t) = t) {p : Prog F ε α} (hp : p.Only allowed) (t : τ) :
    (p.hoist f).ends hG t = ((p.ends h (get t)).1, put t (p.ends h (get t)).2) := by
  induction p generalizing t with
  | pure a => exact Prod.ext rfl (hself t).symm
  | throw e => exact Prod.ext rfl (hself t).symm
  | call c k ih =>
    have hcall : ((Prog.call c k).hoist f).ends hG t =
        ((k (h.run c (get t)).1).hoist f).ends hG (put t (h.run c (get t)).2) := by
      change ((k (hG.run (f c) t).1).hoist f).ends hG (hG.run (f c) t).2 = _
      rw [hrun c t hp.1]
    rw [hcall, ih _ (hp.2 _), hget, hput]
    rfl

end Prog

/-- The programs `impl` implement the interface that has the meaning `h`, for the allowed calls, where `R`
relates what the two store. -/
structure Implements (h : Handler F σ) (hG : Handler G τ) (ε : Type)
    (impl : ∀ {β : Type}, F β → Prog G ε β) (allowed : ∀ {β : Type}, F β → σ → Prop) (R : σ → τ → Prop) :
    Prop where
  call : ∀ {β : Type} (c : F β) (s : σ) (t : τ), R s t → allowed c s →
    ∃ t', (impl c).ends hG t = (.ok (h.run c s).1, t') ∧ R (h.run c s).2 t'

/-- Over either implementation, a program ends with the same outcome, and related states. -/
theorem Implements.ends {h : Handler F σ} {hG : Handler G τ} {impl : ∀ {β : Type}, F β → Prog G ε β}
    {allowed : ∀ {β : Type}, F β → σ → Prop} {R : σ → τ → Prop} (himpl : Implements h hG ε impl allowed R)
    (p : Prog F ε α) {s : σ} {t : τ} (hR : R s t) (hasks : p.Asks h allowed s) :
    ∃ t', (p.implement impl).ends hG t = ((p.ends h s).1, t') ∧ R (p.ends h s).2 t' := by
  induction p generalizing s t with
  | pure a => exact ⟨t, rfl, hR⟩
  | throw e => exact ⟨t, rfl, hR⟩
  | call c k ih =>
    obtain ⟨hallowed, hrest⟩ := hasks
    obtain ⟨t₁, hends, hR₁⟩ := himpl.call c s t hR hallowed
    obtain ⟨t', hends', hR'⟩ := ih (h.run c s).1 hR₁ hrest
    refine ⟨t', ?_, hR'⟩
    rw [Prog.implement, Prog.ends_bind_ok hends]
    exact hends'

end Interaction
