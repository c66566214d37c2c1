import Mathlib.Data.List.Basic
import Mathlib.Logic.Relation

/-!
# Programs that talk to an environment

A program is a tree: it has finished with a value, it has stopped with an exception, or it performs
one call of the signature `F` and goes on with the answer. Because a program is data, the same text
can be executed from start to end (`Prog.exec`), stopped between any two of its calls
(`Run.visited`), interleaved with other programs (`Interaction/Pool.lean`), or given a new meaning
call by call (`Prog.translate`). Where the calls are just actions on the state, the signature is
`Atomic`.

`Prog.Always` is the logic that goes with it: an invariant that every state between two calls
satisfies, and a postcondition for the value or the exception at the end. `always_iff_exec` says
that it speaks about executions, and the rules for `bind`, `tryCatch`, `forEach` and `whileM` are
what proofs about programs use.
-/

namespace Interaction

/-- Programs over the calls `F`, where a call of type `F β` is answered by a `β`, that return an
`α` or stop with an exception `ε`. -/
inductive Prog (F : Type → Type) (ε α : Type) : Type 1 where
  | pure (a : α)
  | throw (e : ε)
  | call {β : Type} (c : F β) (k : β → Prog F ε α)

/-- The meaning of every call of a signature as one atomic action on a state. -/
structure Handler (F : Type → Type) (σ : Type) where
  /-- The answer to a call, and the state after it. -/
  run : ∀ {β : Type}, F β → σ → β × σ

/-- The signature whose calls are the actions on a state. -/
def Atomic (σ β : Type) : Type := σ → β × σ

/-- An action is its own meaning. -/
def Handler.atomic {σ : Type} : Handler (Atomic σ) σ := ⟨fun f s => f s⟩

/-- A handler that also keeps a log, with an entry for some calls: of the call, the state before it,
and the answer. -/
def Handler.logged {F : Type → Type} {σ E : Type} (h : Handler F σ)
    (entry : ∀ {β : Type}, F β → σ → β → Option E) : Handler F (σ × List E) :=
  ⟨fun c s => ((h.run c s.1).1, (h.run c s.1).2, s.2 ++ (entry c s.1 (h.run c s.1).1).toList)⟩

/-- An execution: the states after each call, the outcome, and the last state. -/
structure Run (σ ε α : Type) where
  visited : List σ
  result : Except ε α
  final : σ

namespace Prog

variable {F G : Type → Type} {σ τ ε ε' α β γ : Type}

/-- Sequencing: `f` goes on with the value of `p`, and an exception of `p` ends both. -/
def bind (p : Prog F ε α) (f : α → Prog F ε β) : Prog F ε β :=
  match p with
  | .pure a => f a
  | .throw e => .throw e
  | .call c k => .call c fun b => (k b).bind f

instance : Monad (Prog F ε) where
  pure := .pure
  bind := bind

/-- One call, whose answer is the value. -/
def perform (c : F β) : Prog F ε β := .call c .pure

/-- One action on the state. -/
def atomically (f : σ → β × σ) : Prog (Atomic σ) ε β := perform f

/-- One change of the state. -/
def modify (f : σ → σ) : Prog (Atomic σ) ε Unit := atomically fun s => ((), f s)

/-- The value of a function of the state. -/
def read (f : σ → β) : Prog (Atomic σ) ε β := atomically fun s => (f s, s)

/-- `try`: an exception of `p` is handed to `handler`. -/
def tryCatch (p : Prog F ε α) (handler : ε → Prog F ε' α) : Prog F ε' α :=
  match p with
  | .pure a => .pure a
  | .throw e => handler e
  | .call c k => .call c fun b => (k b).tryCatch handler

/-- The value of an outcome as a program: an error is thrown. -/
def ofExcept : Except ε α → Prog F ε α
  | .ok a => .pure a
  | .error e => .throw e

/-- Give every call a meaning as a program over other calls, with a state `τ` that is carried from
call to call and survives an exception. -/
def translate (h : ∀ {β : Type}, F β → τ → Prog G ε' (β × τ)) (p : Prog F ε α) (t : τ) :
    Prog G ε' (Except ε α × τ) :=
  match p with
  | .pure a => .pure (.ok a, t)
  | .throw e => .pure (.error e, t)
  | .call c k => (h c t).bind fun r => (k r.1).translate h r.2

/-- The same program, where each call is renamed to one of another signature. -/
def hoist (f : ∀ {β : Type}, F β → G β) : Prog F ε α → Prog G ε α
  | .pure a => .pure a
  | .throw e => .throw e
  | .call c k => .call (f c) fun b => (k b).hoist f

/-- The body for each element of a list, in order. -/
def forEach {α : Type*} (l : List α) (body : α → Prog F ε Unit) : Prog F ε Unit :=
  match l with
  | [] => .pure ()
  | a :: l => (body a).bind fun _ => forEach l body

/-- The body for each element of a list, in order, with a value that is carried along. -/
def foldEach (l : List α) (t : τ) (body : τ → α → Prog F ε τ) : Prog F ε τ :=
  match l with
  | [] => .pure t
  | a :: l => (body t a).bind fun t => foldEach l t body

/-- `while (cond) body`, for at most `n` turns of the loop; the value says whether the condition
ended it. -/
def whileM (cond : Prog F ε Bool) (body : Prog F ε Unit) : ℕ → Prog F ε Bool
  | 0 => .pure false
  | n + 1 => cond.bind fun go =>
      if go then body.bind fun _ => whileM cond body n else .pure true

/-- Execute a program from a state. -/
def exec (h : Handler F σ) (p : Prog F ε α) (s : σ) : Run σ ε α :=
  match p with
  | .pure a => ⟨[], .ok a, s⟩
  | .throw e => ⟨[], .error e, s⟩
  | .call c k =>
    let r := (k (h.run c s).1).exec h (h.run c s).2
    ⟨(h.run c s).2 :: r.visited, r.result, r.final⟩

/-- `p` from `s` keeps the invariant `I` after each of its calls, and ends with `P` where it returns
a value and with `E` where it throws. -/
def Always (h : Handler F σ) (I : σ → Prop) (P : α → σ → Prop) (E : ε → σ → Prop)
    (p : Prog F ε α) (s : σ) : Prop :=
  match p with
  | .pure a => P a s
  | .throw e => E e s
  | .call c k => I (h.run c s).2 ∧ (k (h.run c s).1).Always h I P E (h.run c s).2

/-- The monad's `bind` is `Prog.bind`. -/
@[simp] theorem bind_eq (p : Prog F ε α) (f : α → Prog F ε β) : p >>= f = p.bind f := rfl

/-- The monad's `pure` is a finished program. -/
@[simp] theorem pure_eq (a : α) : (Pure.pure a : Prog F ε α) = .pure a := rfl

/-- A finished program goes on with its value. -/
@[simp] theorem pure_bind (a : α) (f : α → Prog F ε β) : (Prog.pure a).bind f = f a := rfl

/-- An exception skips what follows. -/
@[simp] theorem throw_bind (e : ε) (f : α → Prog F ε β) : (Prog.throw e).bind f = .throw e := rfl

/-- The continuation of a call takes what follows. -/
@[simp] theorem call_bind (c : F γ) (k : γ → Prog F ε α) (f : α → Prog F ε β) :
    (Prog.call c k).bind f = .call c fun b => (k b).bind f := rfl

/-- Sequencing is associative. -/
theorem bind_assoc (p : Prog F ε α) (f : α → Prog F ε β) (g : β → Prog F ε γ) :
    (p.bind f).bind g = p.bind fun a => (f a).bind g := by
  induction p with
  | pure a => rfl
  | throw e => rfl
  | call c k ih =>
    simp only [call_bind]
    congr 1
    funext b
    exact ih b

section Hoist

variable (f : ∀ {β : Type}, F β → G β)

/-- Renaming a sequence. -/
theorem hoist_bind (p : Prog F ε α) (k : α → Prog F ε β) :
    (p.bind k).hoist f = (p.hoist f).bind fun a => (k a).hoist f := by
  induction p with
  | pure a => rfl
  | throw e => rfl
  | call c k' ih =>
    simp only [call_bind, hoist]
    congr 1
    funext b
    exact ih b

/-- Renaming a program with a handler for its exceptions. -/
theorem hoist_tryCatch (p : Prog F ε α) (k : ε → Prog F ε' α) :
    (p.tryCatch k).hoist f = (p.hoist f).tryCatch fun e => (k e).hoist f := by
  induction p with
  | pure a => rfl
  | throw e => rfl
  | call c k' ih =>
    simp only [tryCatch, hoist]
    congr 1
    funext b
    exact ih b

/-- The program of an outcome has no calls to rename. -/
theorem hoist_ofExcept (r : Except ε α) : (ofExcept r : Prog F ε α).hoist f = ofExcept r := by
  cases r <;> rfl

/-- Renaming a loop over a list. -/
theorem hoist_forEach {α : Type*} (l : List α) (body : α → Prog F ε Unit) :
    (forEach l body).hoist f = forEach l fun a => (body a).hoist f := by
  induction l with
  | nil => rfl
  | cons a l ih =>
    rw [forEach, hoist_bind, forEach]
    congr 1
    funext _
    exact ih

end Hoist

section Executions

variable {h : Handler F σ} {I J : σ → Prop} {P P' : α → σ → Prop} {E E' : ε → σ → Prop}

@[simp] theorem exec_pure (a : α) (s : σ) :
    (Prog.pure a : Prog F ε α).exec h s = ⟨[], .ok a, s⟩ := rfl

@[simp] theorem exec_throw (e : ε) (s : σ) :
    (Prog.throw e : Prog F ε α).exec h s = ⟨[], .error e, s⟩ := rfl

@[simp] theorem exec_call (c : F γ) (k : γ → Prog F ε α) (s : σ) :
    (Prog.call c k).exec h s =
      let r := (k (h.run c s).1).exec h (h.run c s).2
      ⟨(h.run c s).2 :: r.visited, r.result, r.final⟩ := rfl

@[simp] theorem always_pure (a : α) (s : σ) :
    (Prog.pure a).Always h I P E s ↔ P a s := Iff.rfl

@[simp] theorem always_throw (e : ε) (s : σ) :
    (Prog.throw e).Always h I P E s ↔ E e s := Iff.rfl

@[simp] theorem always_call (c : F γ) (k : γ → Prog F ε α) (s : σ) :
    (Prog.call c k).Always h I P E s ↔
      I (h.run c s).2 ∧ (k (h.run c s).1).Always h I P E (h.run c s).2 := Iff.rfl

@[simp] theorem always_perform (c : F α) (s : σ) :
    (perform c).Always h I P E s ↔ I (h.run c s).2 ∧ P (h.run c s).1 (h.run c s).2 := Iff.rfl

@[simp] theorem always_atomically (f : σ → α × σ) (s : σ) :
    (atomically f).Always .atomic I P E s ↔ I (f s).2 ∧ P (f s).1 (f s).2 := Iff.rfl

@[simp] theorem always_modify {P : Unit → σ → Prop} (f : σ → σ) (s : σ) :
    (modify f).Always .atomic I P E s ↔ I (f s) ∧ P () (f s) := Iff.rfl

@[simp] theorem always_read (f : σ → α) (s : σ) :
    (read f).Always .atomic I P E s ↔ I s ∧ P (f s) s := Iff.rfl

/-- What follows a program is executed from the state where it returns, and an exception ends both. -/
theorem exec_bind (p : Prog F ε α) (f : α → Prog F ε β) (s : σ) :
    (p.bind f).exec h s =
      match (p.exec h s).result with
      | .ok a =>
        let r := (f a).exec h (p.exec h s).final
        ⟨(p.exec h s).visited ++ r.visited, r.result, r.final⟩
      | .error e => ⟨(p.exec h s).visited, .error e, (p.exec h s).final⟩ := by
  induction p generalizing s with
  | pure a => rfl
  | throw e => rfl
  | call c k ih =>
    rw [call_bind, exec_call, exec_call]
    dsimp only
    rw [ih]
    cases ((k (h.run c s).1).exec h (h.run c s).2).result <;> rfl

/-- The logic speaks about executions: the invariant is about the states visited, and the
postconditions about the outcome and the last state. -/
theorem always_iff_exec (p : Prog F ε α) (s : σ) :
    p.Always h I P E s ↔
      (∀ t ∈ (p.exec h s).visited, I t) ∧
        (∀ a, (p.exec h s).result = .ok a → P a (p.exec h s).final) ∧
        (∀ e, (p.exec h s).result = .error e → E e (p.exec h s).final) := by
  induction p generalizing s with
  | pure a => simp
  | throw e => simp
  | call c k ih =>
    simp only [always_call, exec_call, List.forall_mem_cons, ih, and_assoc]

/-- The last state of an execution is the first one or a visited one. -/
theorem exec_final_mem (p : Prog F ε α) (s : σ) :
    (p.exec h s).final ∈ s :: (p.exec h s).visited := by
  induction p generalizing s with
  | pure a => exact List.mem_cons_self
  | throw e => exact List.mem_cons_self
  | call c k ih => exact List.mem_cons_of_mem _ (ih _ _)

/-- A postcondition that holds of every outcome holds of the last state. -/
theorem Always.final {Q : σ → Prop} {p : Prog F ε α} {s : σ}
    (hp : p.Always h I (fun _ => Q) (fun _ => Q) s) : Q (p.exec h s).final := by
  obtain ⟨-, hok, herr⟩ := (always_iff_exec p s).mp hp
  cases hr : (p.exec h s).result with
  | ok a => exact hok a hr
  | error e => exact herr e hr

/-- What follows a program is run from each state where it returns. -/
theorem always_bind {P : β → σ → Prop} (p : Prog F ε α) (f : α → Prog F ε β) (s : σ) :
    (p.bind f).Always h I P E s ↔
      p.Always h I (fun a t => (f a).Always h I P E t) E s := by
  induction p generalizing s with
  | pure a => rfl
  | throw e => rfl
  | call c k ih => simp only [call_bind, always_call, ih]

/-- The handler is run from each state where the program throws. -/
theorem always_tryCatch {E : ε' → σ → Prop} (p : Prog F ε α) (f : ε → Prog F ε' α) (s : σ) :
    (p.tryCatch f).Always h I P E s ↔
      p.Always h I P (fun e t => (f e).Always h I P E t) s := by
  induction p generalizing s with
  | pure a => rfl
  | throw e => rfl
  | call c k ih => simp only [tryCatch, always_call, ih]

/-- The program of an outcome ends with it. -/
@[simp] theorem always_ofExcept (r : Except ε α) (s : σ) :
    (ofExcept r).Always h I P E s ↔
      match r with
      | .ok a => P a s
      | .error e => E e s := by
  cases r <;> rfl

/-- Consequence: a weaker invariant and weaker postconditions. -/
theorem Always.imp {p : Prog F ε α} {s : σ} (hp : p.Always h I P E s) (hI : ∀ t, I t → J t)
    (hP : ∀ a t, P a t → P' a t) (hE : ∀ e t, E e t → E' e t) : p.Always h J P' E' s := by
  induction p generalizing s with
  | pure a => exact hP _ _ hp
  | throw e => exact hE _ _ hp
  | call c k ih => exact ⟨hI _ hp.1, ih _ hp.2⟩

/-- Two facts about one execution hold together. -/
theorem Always.and {p : Prog F ε α} {s : σ} (hp : p.Always h I P E s) (hq : p.Always h J P' E' s) :
    p.Always h (fun t => I t ∧ J t) (fun a t => P a t ∧ P' a t) (fun e t => E e t ∧ E' e t) s := by
  induction p generalizing s with
  | pure a => exact ⟨hp, hq⟩
  | throw e => exact ⟨hp, hq⟩
  | call c k ih => exact ⟨⟨hp.1, hq.1⟩, ih _ hp.2 hq.2⟩

/-- The rule for a loop over a list: `L rest` holds before the elements `rest`, and each body goes
from `L (a :: rest)` to `L rest`. -/
theorem always_forEach {α : Type*} (L : List α → σ → Prop) (body : α → Prog F ε Unit)
    (hbody : ∀ a rest s, L (a :: rest) s → (body a).Always h I (fun _ t => L rest t) E s)
    (l : List α) (s : σ) (hs : L l s) :
    (forEach l body).Always h I (fun _ t => L [] t) E s := by
  induction l generalizing s with
  | nil => exact hs
  | cons a l ih =>
    rw [forEach, always_bind]
    exact (hbody a l s hs).imp (fun _ => id) (fun _ t ht => ih t ht) fun _ _ => id

/-- The rule for a loop that carries a value: as for `forEach`, with the value in `L`. -/
theorem always_foldEach (L : List α → τ → σ → Prop) (body : τ → α → Prog F ε τ)
    (hbody : ∀ a rest t s, L (a :: rest) t s →
      (body t a).Always h I (fun t' s' => L rest t' s') E s)
    (l : List α) (t : τ) (s : σ) (hs : L l t s) :
    (foldEach l t body).Always h I (fun t' s' => L [] t' s') E s := by
  induction l generalizing t s with
  | nil => exact hs
  | cons a l ih =>
    rw [foldEach, always_bind]
    exact (hbody a l t s hs).imp (fun _ => id) (fun t' s' hs' => ih t' s' hs') fun _ _ => id

/-- The rule for `while`: `L` holds at the head of every turn. The postcondition gets `true` where
the condition ended the loop, and `false` where the turns ran out. -/
theorem always_whileM {P : Bool → σ → Prop} (L : σ → Prop) (cond : Prog F ε Bool)
    (body : Prog F ε Unit)
    (hturn : ∀ s, L s → cond.Always h I
      (fun go t => if go then body.Always h I (fun _ t' => L t') E t else P true t) E s)
    (hout : ∀ s, L s → P false s) (n : ℕ) (s : σ) (hs : L s) :
    (whileM cond body n).Always h I P E s := by
  induction n generalizing s with
  | zero => exact hout s hs
  | succ n ih =>
    rw [whileM, always_bind]
    refine (hturn s hs).imp (fun _ => id) (fun go t ht => ?_) fun _ _ => id
    cases go with
    | false => exact ht
    | true =>
      rw [if_pos rfl, always_bind]
      exact Always.imp ht (fun _ => id) (fun _ t' ht' => ih t' ht') fun _ _ => id

/-- What every call keeps, every program keeps. -/
theorem always_of_forall_call (hcall : ∀ {β : Type} (c : F β) s, I s → I (h.run c s).2)
    (p : Prog F ε α) (s : σ) (hs : I s) : p.Always h I (fun _ => I) (fun _ => I) s := by
  induction p generalizing s with
  | pure a => exact hs
  | throw e => exact hs
  | call c k ih => exact ⟨hcall c s hs, ih _ _ (hcall c s hs)⟩

/-- If each call is translated into a program that does what the call does, and that keeps a relation
between the carried state and the environment, then so is every program. -/
theorem always_translate {hG : Handler G σ} (R : τ → σ → Prop)
    (t : ∀ {β : Type}, F β → τ → Prog G ε' (β × τ))
    (hcall : ∀ {β : Type} (c : F β) r s, R r s → (t c r).Always hG (fun _ => True)
      (fun b s' => b.1 = (h.run c s).1 ∧ s' = (h.run c s).2 ∧ R b.2 s') (fun _ _ => False) s)
    (p : Prog F ε α) (r : τ) (s : σ) (hR : R r s) :
    (p.translate t r).Always hG (fun _ => True)
      (fun b s' => b.1 = (p.exec h s).result ∧ s' = (p.exec h s).final ∧ R b.2 s')
      (fun _ _ => False) s := by
  induction p generalizing r s with
  | pure a => exact ⟨rfl, rfl, hR⟩
  | throw e => exact ⟨rfl, rfl, hR⟩
  | call c k ih =>
    rw [translate, always_bind]
    refine (hcall c r s hR).imp (fun _ => id) ?_ fun _ _ => id
    rintro ⟨b, r'⟩ s' ⟨rfl, rfl, hR'⟩
    exact ih _ r' _ hR'

/-- Where the renamed calls have the meaning of the calls, so has the renamed program. -/
theorem always_hoist_iff {hG : Handler G σ} (f : ∀ {β : Type}, F β → G β)
    (hrun : ∀ {β : Type} (c : F β) s, hG.run (f c) s = h.run c s) (p : Prog F ε α) (s : σ) :
    (p.hoist f).Always hG I P E s ↔ p.Always h I P E s := by
  induction p generalizing s with
  | pure a => exact Iff.rfl
  | throw e => exact Iff.rfl
  | call c k ih => rw [hoist, always_call, always_call, hrun, ih]

/-- Where the renamed calls act on a part of the state as the calls do on theirs, the renamed program
does to that part what the program does, and nothing else. -/
theorem always_hoist {hG : Handler G τ} (f : ∀ {β : Type}, F β → G β) (get : τ → σ)
    (put : τ → σ → τ)
    (hrun : ∀ {β : Type} (c : F β) t,
      hG.run (f c) t = ((h.run c (get t)).1, put t (h.run c (get t)).2))
    (hget : ∀ t s, get (put t s) = s) (hput : ∀ t s s', put (put t s) s' = put t s')
    (hself : ∀ t, put t (get t) = t) (p : Prog F ε α) (t : τ) :
    (p.hoist f).Always hG (fun t' => ∃ s, t' = put t s)
      (fun a t' => (p.exec h (get t)).result = .ok a ∧ t' = put t (p.exec h (get t)).final)
      (fun e t' => (p.exec h (get t)).result = .error e ∧ t' = put t (p.exec h (get t)).final) t := by
  induction p generalizing t with
  | pure a => exact ⟨rfl, (hself t).symm⟩
  | throw e => exact ⟨rfl, (hself t).symm⟩
  | call c k ih =>
    rw [hoist, always_call, hrun]
    refine ⟨⟨_, rfl⟩, (ih _ (put t (h.run c (get t)).2)).imp ?_ ?_ ?_⟩
    · rintro t' ⟨s, rfl⟩
      exact ⟨s, hput t _ s⟩
    · rintro a t' ⟨hresult, rfl⟩
      rw [hget] at hresult ⊢
      exact ⟨hresult, hput t _ _⟩
    · rintro e t' ⟨hresult, rfl⟩
      rw [hget] at hresult ⊢
      exact ⟨hresult, hput t _ _⟩

end Executions

section Ends

variable {h : Handler F σ} {p : Prog F ε α} {s t : σ}

/-- How an execution ends: its outcome, and the last state. -/
def ends (h : Handler F σ) (p : Prog F ε α) (s : σ) : Except ε α × σ :=
  ((p.exec h s).result, (p.exec h s).final)

@[simp] theorem ends_pure (a : α) : (Prog.pure a : Prog F ε α).ends h s = (.ok a, s) := rfl

@[simp] theorem ends_throw (e : ε) : (Prog.throw e : Prog F ε α).ends h s = (.error e, s) := rfl

@[simp] theorem ends_perform (c : F α) :
    (perform c : Prog F ε α).ends h s = (.ok (h.run c s).1, (h.run c s).2) := rfl

@[simp] theorem ends_bind_perform (c : F α) (k : α → Prog F ε β) :
    ((perform c).bind k).ends h s = (k (h.run c s).1).ends h (h.run c s).2 := rfl

@[simp] theorem ends_bind_atomically (f : σ → α × σ) (k : α → Prog (Atomic σ) ε β) :
    ((atomically f).bind k).ends .atomic s = (k (f s).1).ends .atomic (f s).2 := rfl

@[simp] theorem ends_bind_modify (f : σ → σ) (k : Unit → Prog (Atomic σ) ε β) :
    ((modify f).bind k).ends .atomic s = (k ()).ends .atomic (f s) := rfl

@[simp] theorem ends_bind_read (f : σ → α) (k : α → Prog (Atomic σ) ε β) :
    ((read f).bind k).ends .atomic s = (k (f s)).ends .atomic s := rfl

/-- What follows a program that returns goes on from there. -/
theorem ends_bind_ok {a : α} (hp : p.ends h s = (.ok a, t)) (f : α → Prog F ε β) :
    (p.bind f).ends h s = (f a).ends h t := by
  obtain ⟨hresult, hfinal⟩ := Prod.mk.inj hp
  unfold ends
  rw [exec_bind, hresult, hfinal]

/-- A program that throws ends what follows it. -/
theorem ends_bind_error {e : ε} (hp : p.ends h s = (.error e, t)) (f : α → Prog F ε β) :
    (p.bind f).ends h s = (.error e, t) := by
  obtain ⟨hresult, hfinal⟩ := Prod.mk.inj hp
  unfold ends
  rw [exec_bind, hresult, hfinal]

/-- A handler is not run where the program returns. -/
theorem ends_tryCatch_ok {a : α} (hp : p.ends h s = (.ok a, t)) (f : ε → Prog F ε' α) :
    (p.tryCatch f).ends h s = (.ok a, t) := by
  induction p generalizing s with
  | pure b =>
    cases hp
    rfl
  | throw e => cases hp
  | call c k ih => exact ih (h.run c s).1 hp

/-- Where the program throws, the handler goes on. -/
theorem ends_tryCatch_error {e : ε} (hp : p.ends h s = (.error e, t)) (f : ε → Prog F ε' α) :
    (p.tryCatch f).ends h s = (f e).ends h t := by
  induction p generalizing s with
  | pure b => cases hp
  | throw e =>
    cases hp
    rfl
  | call c k ih => exact ih (h.run c s).1 hp

/-- The program of an outcome ends with it. -/
@[simp] theorem ends_ofExcept (r : Except ε α) : (ofExcept r : Prog F ε α).ends h s = (r, s) := by
  cases r <;> rfl

end Ends

end Prog

end Interaction
