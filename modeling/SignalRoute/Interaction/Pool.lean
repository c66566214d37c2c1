import SignalRoute.Interaction.Prog
import Mathlib.Logic.Function.Basic

/-!
# Interleaved programs

A pool is a family of programs over one state. A step lets one thread perform its next call, as one
atomic action; a schedule is any order of such steps. `Pool.Reaches` are the pools that the
schedules reach in which every step meets a guard, so that a statement about all interleavings is
one with the guard `True`.

What a thread does between its calls is invisible to the others, so an invariant of a pool speaks
about the state and about how far each thread has come. A `Protocol` says which call comes in which
phase and which phase follows, and `Prog.Follows` that a program keeps to it;
`Pool.Reaches.invariant` then needs one lemma: a call that the protocol allows keeps the invariant
on phases and state.
-/

namespace Interaction

/-- A family of programs over one state. -/
structure Pool (ι : Type) (F : Type → Type) (σ ε α : Type) where
  threads : ι → Prog F ε α
  state : σ

/-- The order of calls: what may be called in a phase, and the phase after the answer. -/
structure Protocol (F : Type → Type) (Φ : Type) where
  allowed : ∀ {β : Type}, Φ → F β → Prop
  next : ∀ {β : Type}, Φ → F β → β → Φ

variable {ι : Type} {F : Type → Type} {σ Φ ε ε' α β : Type}

namespace Prog

/-- `p` keeps to the protocol from phase `φ` on, whatever the answers, and ends in a phase with `Q`
where it returns and with `E` where it throws. -/
def Follows (pr : Protocol F Φ) (Q : α → Φ → Prop) (E : ε → Φ → Prop) (p : Prog F ε α) (φ : Φ) :
    Prop :=
  match p with
  | .pure a => Q a φ
  | .throw e => E e φ
  | .call c k => pr.allowed φ c ∧ ∀ b, (k b).Follows pr Q E (pr.next φ c b)

variable {pr : Protocol F Φ} {Q Q' : α → Φ → Prop} {E E' : ε → Φ → Prop} {φ : Φ}

@[simp] theorem follows_pure (a : α) : (Prog.pure a).Follows pr Q E φ ↔ Q a φ := Iff.rfl

@[simp] theorem follows_throw (e : ε) : (Prog.throw e).Follows pr Q E φ ↔ E e φ := Iff.rfl

@[simp] theorem follows_call (c : F β) (k : β → Prog F ε α) :
    (Prog.call c k).Follows pr Q E φ ↔
      pr.allowed φ c ∧ ∀ b, (k b).Follows pr Q E (pr.next φ c b) := Iff.rfl

@[simp] theorem follows_perform (c : F α) :
    (perform c).Follows pr Q E φ ↔ pr.allowed φ c ∧ ∀ b, Q b (pr.next φ c b) := Iff.rfl

/-- What follows a program goes on from each phase where it returns. -/
theorem follows_bind {Q : β → Φ → Prop} (p : Prog F ε α) (f : α → Prog F ε β) :
    (p.bind f).Follows pr Q E φ ↔
      p.Follows pr (fun a φ' => (f a).Follows pr Q E φ') E φ := by
  induction p generalizing φ with
  | pure a => rfl
  | throw e => rfl
  | call c k ih => simp only [call_bind, follows_call, ih]

/-- Weaker postconditions. -/
theorem Follows.imp {p : Prog F ε α} (h : p.Follows pr Q E φ) (hQ : ∀ a φ', Q a φ' → Q' a φ')
    (hE : ∀ e φ', E e φ' → E' e φ') : p.Follows pr Q' E' φ := by
  induction p generalizing φ with
  | pure a => exact hQ _ _ h
  | throw e => exact hE _ _ h
  | call c k ih => exact ⟨h.1, fun b => ih b (h.2 b)⟩

/-- The rule for a loop over a list: each body goes from a phase with `L (a :: rest)` to one with
`L rest`. -/
theorem follows_forEach {α : Type*} (L : List α → Φ → Prop) (body : α → Prog F ε Unit)
    (hbody : ∀ a rest φ, L (a :: rest) φ → (body a).Follows pr (fun _ => L rest) E φ)
    (l : List α) (hl : L l φ) : (forEach l body).Follows pr (fun _ => L []) E φ := by
  induction l generalizing φ with
  | nil => exact hl
  | cons a l ih =>
    rw [forEach, follows_bind]
    exact (hbody a l φ hl).imp (fun _ _ => ih) fun _ _ => id

/-- The rule for a loop that carries a value: as for `forEach`, with the value in `L`. -/
theorem follows_foldEach {τ : Type} (L : List α → τ → Φ → Prop) (body : τ → α → Prog F ε τ)
    (hbody : ∀ a rest t φ, L (a :: rest) t φ → (body t a).Follows pr (L rest) E φ)
    (l : List α) (t : τ) (hl : L l t φ) : (foldEach l t body).Follows pr (L []) E φ := by
  induction l generalizing t φ with
  | nil => exact hl
  | cons a l ih =>
    rw [foldEach, follows_bind]
    exact (hbody a l t φ hl).imp (fun t' _ => ih t') fun _ _ => id

end Prog

namespace Pool

variable [DecidableEq ι] (h : Handler F σ)

/-- Thread `i` performs its next call; a thread that has ended does nothing. -/
def step (i : ι) (P : Pool ι F σ ε α) : Pool ι F σ ε α :=
  match P.threads i with
  | .call c k => ⟨Function.update P.threads i (k (h.run c P.state).1), (h.run c P.state).2⟩
  | _ => P

/-- `Q` is reached from `P` by steps that each meet the guard in the pool before it. -/
def Reaches (G : Pool ι F σ ε α → ι → Prop) : Pool ι F σ ε α → Pool ι F σ ε α → Prop :=
  Relation.ReflTransGen fun P Q => ∃ i, G P i ∧ Q = P.step h i

/-- The steps of a schedule, in order. -/
def run (l : List ι) (P : Pool ι F σ ε α) : Pool ι F σ ε α := l.foldl (fun P i => P.step h i) P

/-- Every step of a schedule meets the guard in the pool before it. -/
def Meets (G : Pool ι F σ ε α → ι → Prop) : List ι → Pool ι F σ ε α → Prop
  | [], _ => True
  | i :: l, P => G P i ∧ Meets G l (P.step h i)

/-- Whether a thread has ended. -/
def Finished (P : Pool ι F σ ε α) (i : ι) : Prop :=
  (∃ a, P.threads i = .pure a) ∨ ∃ e, P.threads i = .throw e

instance (P : Pool ι F σ ε α) (i : ι) : Decidable (P.Finished i) :=
  match hi : P.threads i with
  | .pure a => isTrue (.inl ⟨a, hi⟩)
  | .throw e => isTrue (.inr ⟨e, hi⟩)
  | .call _ _ => isFalse (by
      rintro (⟨a, ha⟩ | ⟨e, he⟩)
      · rw [hi] at ha
        cases ha
      · rw [hi] at he
        cases he)

variable {h} {G : Pool ι F σ ε α → ι → Prop} {P Q : Pool ι F σ ε α}

/-- A step of a thread with a call left. -/
theorem step_of_call {i : ι} {c : F β} {k : β → Prog F ε α} (hc : P.threads i = .call c k) :
    P.step h i = ⟨Function.update P.threads i (k (h.run c P.state).1), (h.run c P.state).2⟩ := by
  unfold step
  rw [hc]

/-- What a thread has returned. -/
def returned (P : Pool ι F σ ε α) (i : ι) : Option α :=
  match P.threads i with
  | .pure a => some a
  | .throw _ | .call _ _ => none

omit [DecidableEq ι] in
theorem returned_eq_some {P : Pool ι F σ ε α} {i : ι} {a : α} : P.returned i = some a ↔ P.threads i = .pure a := by
  unfold returned
  cases P.threads i <;> simp

/-- A step of a thread that has ended. -/
theorem step_of_finished {i : ι} (hf : P.Finished i) : P.step h i = P := by
  unfold step
  rcases hf with ⟨a, ha⟩ | ⟨e, he⟩
  · rw [ha]
  · rw [he]

/-- A schedule whose steps meet the guard leads to a reached pool. -/
theorem reaches_run {l : List ι} (hl : Meets h G l P) : Reaches h G P (P.run h l) := by
  induction l generalizing P with
  | nil => exact .refl
  | cons i l ih => exact .head ⟨i, hl.1, rfl⟩ (ih hl.2)

/-- Without a guard every schedule does. -/
theorem reaches_run_true (l : List ι) : Reaches h (fun _ _ => True) P (P.run h l) := by
  refine reaches_run ?_
  induction l generalizing P with
  | nil => trivial
  | cons i l ih => exact ⟨trivial, ih⟩

/-- The threads keep to their protocols in the phases `φ`, and `J` holds of phases and state. -/
def Inv (pr : ι → Protocol F Φ) (R : ι → α → Φ → Prop) (E : ι → ε → Φ → Prop)
    (J : (ι → Φ) → σ → Prop) (P : Pool ι F σ ε α) : Prop :=
  ∃ φ : ι → Φ, (∀ i, (P.threads i).Follows (pr i) (R i) (E i) (φ i)) ∧ J φ P.state

variable {pr : ι → Protocol F Φ} {R : ι → α → Φ → Prop} {E : ι → ε → Φ → Prop}
  {J : (ι → Φ) → σ → Prop}

/-- One step keeps the invariant, if every call that a protocol allows does. -/
theorem Inv.step (hP : Inv pr R E J P) (i : ι)
    (hcall : ∀ φ {β : Type} (c : F β) (k : β → Prog F ε α),
      (∀ j, (P.threads j).Follows (pr j) (R j) (E j) (φ j)) → J φ P.state →
      P.threads i = .call c k → (pr i).allowed (φ i) c →
      J (Function.update φ i ((pr i).next (φ i) c (h.run c P.state).1)) (h.run c P.state).2) :
    Inv pr R E J (P.step h i) := by
  obtain ⟨φ, hf, hJ⟩ := hP
  cases hi : P.threads i with
  | pure a =>
    rw [step_of_finished (.inl ⟨a, hi⟩)]
    exact ⟨φ, hf, hJ⟩
  | throw e =>
    rw [step_of_finished (.inr ⟨e, hi⟩)]
    exact ⟨φ, hf, hJ⟩
  | call c k =>
    rw [step_of_call hi]
    have hfi := hf i
    rw [hi, Prog.follows_call] at hfi
    refine ⟨_, fun j => ?_, hcall φ c k hf hJ hi hfi.1⟩
    by_cases hj : j = i
    · subst hj
      simpa using hfi.2 _
    · simpa [hj] using hf j

/-- The invariant rule: what holds at the start and is kept by every guarded step holds of every pool
that guarded steps reach. -/
theorem Reaches.invariant {I : Pool ι F σ ε α → Prop} (hr : Reaches h G P Q) (h0 : I P)
    (hstep : ∀ P i, I P → G P i → I (P.step h i)) : I Q := by
  induction hr with
  | refl => exact h0
  | tail _ hlast ih =>
    obtain ⟨i, hg, rfl⟩ := hlast
    exact hstep _ i ih hg

end Pool

end Interaction
