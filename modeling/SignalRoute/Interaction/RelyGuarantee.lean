import SignalRoute.Interaction.Pool
import SignalRoute.Interaction.Calls

/-!
# Programs among others

Between two calls of a program the others may move the state. `Prog.Among` is the logic of `Prog.Always`
where they do: before each call the state is any that the relation `R` allows (what the program relies on),
each call moves it as the relation `M` allows (what the program guarantees), and the postconditions hold
where the last call has left it. The rules have the form of those of `Always`.

A pool is where the two relations meet. If what each thread guarantees is what the others rely on, every
thread of a pool keeps to its logic, under any schedule (`Pool.Accords.moves`). There a thread may also stop
between any two of its calls and start anew, as a process that crashes does.
-/

namespace Interaction

variable {ι : Type} {F G : Type → Type} {σ τ ε ε' α β : Type}

namespace Prog

/-- `p` has left the state `s`. From every state that the others make of it, its next call moves the state as
`M` allows, and so on; it ends with `P` where it returns a value and with `E` where it throws. -/
def Among (h : Handler F σ) (R M : σ → σ → Prop) (P : α → σ → Prop) (E : ε → σ → Prop) (p : Prog F ε α) (s : σ) :
    Prop :=
  match p with
  | .pure a => P a s
  | .throw e => E e s
  | .call c k => ∀ t, R s t → M t (h.run c t).2 ∧ (k (h.run c t).1).Among h R M P E (h.run c t).2

variable {h : Handler F σ} {R M : σ → σ → Prop} {P P' : α → σ → Prop} {E E' : ε → σ → Prop} {s t : σ}

@[simp] theorem among_pure (a : α) : (Prog.pure a).Among h R M P E s ↔ P a s := Iff.rfl

@[simp] theorem among_throw (e : ε) : (Prog.throw e).Among h R M P E s ↔ E e s := Iff.rfl

@[simp] theorem among_perform (c : F α) : (perform c).Among h R M P E s ↔
    ∀ t, R s t → M t (h.run c t).2 ∧ P (h.run c t).1 (h.run c t).2 := Iff.rfl

/-- The same of an atomic action. -/
@[simp] theorem among_atomically {R M : σ → σ → Prop} {P : α → σ → Prop} {E : ε → σ → Prop} (f : σ → α × σ) :
    (atomically f).Among .atomic R M P E s ↔ ∀ t, R s t → M t (f t).2 ∧ P (f t).1 (f t).2 := Iff.rfl

@[simp] theorem among_modify {R M : σ → σ → Prop} {P : Unit → σ → Prop} {E : ε → σ → Prop} (f : σ → σ) :
    (modify f).Among .atomic R M P E s ↔ ∀ t, R s t → M t (f t) ∧ P () (f t) := Iff.rfl

@[simp] theorem among_read {R M : σ → σ → Prop} {P : α → σ → Prop} {E : ε → σ → Prop} (f : σ → α) :
    (read f).Among .atomic R M P E s ↔ ∀ t, R s t → M t t ∧ P (f t) t := Iff.rfl

/-- What follows a program goes on from each state where it returns. -/
theorem among_bind {P : β → σ → Prop} (p : Prog F ε α) (f : α → Prog F ε β) :
    (p.bind f).Among h R M P E s ↔ p.Among h R M (fun a t => (f a).Among h R M P E t) E s := by
  induction p generalizing s with
  | pure a => rfl
  | throw e => rfl
  | call c k ih => simp only [call_bind, Among, ih]

/-- The handler goes on from each state where the program throws. -/
theorem among_tryCatch {E : ε' → σ → Prop} (p : Prog F ε α) (f : ε → Prog F ε' α) :
    (p.tryCatch f).Among h R M P E s ↔ p.Among h R M P (fun e t => (f e).Among h R M P E t) s := by
  induction p generalizing s with
  | pure a => rfl
  | throw e => rfl
  | call c k ih => simp only [tryCatch, Among, ih]

/-- The program of an outcome makes no call. -/
@[simp] theorem among_ofExcept (r : Except ε α) : (ofExcept r : Prog F ε α).Among h R M P E s ↔
    match r with
    | .ok a => P a s
    | .error e => E e s := by
  cases r <;> rfl

/-- Weaker postconditions. -/
theorem Among.imp {p : Prog F ε α} (hp : p.Among h R M P E s) (hP : ∀ a t, P a t → P' a t)
    (hE : ∀ e t, E e t → E' e t) : p.Among h R M P' E' s := by
  induction p generalizing s with
  | pure a => exact hP _ _ hp
  | throw e => exact hE _ _ hp
  | call c k ih => exact fun t ht => ⟨(hp t ht).1, ih _ (hp t ht).2⟩

/-- The rule for `while`: `L` holds at the head of every turn. -/
theorem among_whileM {P : Bool → σ → Prop} (L : σ → Prop) (cond : Prog F ε Bool) (body : Prog F ε Unit)
    (hturn : ∀ s, L s → cond.Among h R M
      (fun go t => if go then body.Among h R M (fun _ t' => L t') E t else P true t) E s)
    (hout : ∀ s, L s → P false s) (n : ℕ) (hs : L s) : (whileM cond body n).Among h R M P E s := by
  induction n generalizing s with
  | zero => exact hout s hs
  | succ n ih =>
    rw [whileM, among_bind]
    refine (hturn s hs).imp (fun go t ht => ?_) fun _ _ => id
    cases go with
    | false => exact ht
    | true =>
      rw [if_pos rfl, among_bind]
      exact Among.imp ht (fun _ t' ht' => ih ht') fun _ _ => id

/-- The rule for a loop over a list: `L` holds of what is left of the list. -/
theorem among_forEach (L : List α → σ → Prop) (body : α → Prog F ε Unit)
    (hbody : ∀ a l s, L (a :: l) s → (body a).Among h R M (fun _ => L l) E s) (l : List α) (hs : L l s) :
    (forEach l body).Among h R M (fun _ => L []) E s := by
  induction l generalizing s with
  | nil => exact hs
  | cons a l ih =>
    rw [forEach, among_bind]
    exact (hbody a l s hs).imp (fun _ t ht => ih ht) fun _ _ => id

/-- A program whose calls all keep what the others keep too. -/
theorem Calls.among {Φ : ∀ {β : Type}, F β → Prop} {p : Prog F ε α} (hp : p.Calls Φ) {I : σ → Prop}
    (hothers : ∀ s t, I s → R s t → I t)
    (hcall : ∀ {β : Type} (c : F β) t, Φ c → I t → M t (h.run c t).2 ∧ I (h.run c t).2) (hs : I s) :
    p.Among h R M (fun _ => I) (fun _ => I) s := by
  induction p generalizing s with
  | pure a => exact hs
  | throw e => exact hs
  | call c k ih =>
    intro t ht
    obtain ⟨hM, hI⟩ := hcall c t hp.1 (hothers s t hs ht)
    exact ⟨hM, ih _ (hp.2 _) hI⟩

/-- A program that acts on a part of the state does there what it does alone, among others whose moves, seen
from that part, are those that it relies on. -/
theorem Among.hoist {k : Handler G τ} {R' M' : τ → τ → Prop} (f : ∀ {β : Type}, F β → G β) (get : τ → σ)
    (put : τ → σ → τ)
    (hrun : ∀ {β : Type} (c : F β) t, k.run (f c) t = ((h.run c (get t)).1, put t (h.run c (get t)).2))
    (hget : ∀ t s, get (put t s) = s) (hR : ∀ t t', R' t t' → R (get t) (get t'))
    (hM : ∀ t s, M (get t) s → M' t (put t s)) {p : Prog F ε α} {t : τ}
    (hp : p.Among h R M P E (get t)) :
    (p.hoist f).Among k R' M' (fun a t => P a (get t)) (fun e t => E e (get t)) t := by
  induction p generalizing t with
  | pure a => exact hp
  | throw e => exact hp
  | call c k' ih =>
    intro t' ht'
    obtain ⟨hcall, hrest⟩ := hp _ (hR t t' ht')
    rw [hrun]
    refine ⟨hM _ _ hcall, ih _ ?_⟩
    rw [hget]
    exact hrest

end Prog

namespace Pool

variable [DecidableEq ι] (h : Handler F σ)

/-- Thread `i` stops, and starts anew as `p` from the state `s`. -/
def restart (P : Pool ι F σ ε α) (i : ι) (p : Prog F ε α) (s : σ) : Pool ι F σ ε α :=
  ⟨Function.update P.threads i p, s⟩

/-- A thread performs its next call, or starts anew as `boot` allows: the program and the state from which. -/
inductive Moves (boot : ι → σ → Prog F ε α → σ → Prop) (P : Pool ι F σ ε α) : Pool ι F σ ε α → Prop
  | step (i : ι) : Moves boot P (P.step h i)
  | restart {i : ι} {p : Prog F ε α} {s : σ} (hboot : boot i P.state p s) : Moves boot P (P.restart i p s)

/-- A schedule moves a pool. -/
theorem moves_run {boot : ι → σ → Prog F ε α → σ → Prop} (l : List ι) (P : Pool ι F σ ε α) :
    Relation.ReflTransGen (Moves h boot) P (P.run h l) := by
  induction l generalizing P with
  | nil => exact .refl
  | cons i l ih => exact .head (.step i) (ih (P.step h i))

variable {h} {R M : ι → σ → σ → Prop} {Q : ι → α → σ → Prop} {E : ι → ε → σ → Prop} {I : σ → Prop}

/-- Every thread is where its logic has left it, up to what the others did since, and `I` holds. -/
structure Accords (h : Handler F σ) (R M : ι → σ → σ → Prop) (Q : ι → α → σ → Prop) (E : ι → ε → σ → Prop)
    (I : σ → Prop) (P : Pool ι F σ ε α) : Prop where
  thread : ∀ i, ∃ s, R i s P.state ∧ (P.threads i).Among h (R i) (M i) (Q i) (E i) s
  inv : I P.state

/-- What the threads of a pool rely on is what the others guarantee, and all of them keep `I`. -/
structure Compatible (R M : ι → σ → σ → Prop) (I : σ → Prop) : Prop where
  refl : ∀ i s, R i s s
  trans : ∀ i s t u, R i s t → R i t u → R i s u
  others : ∀ i j s t, i ≠ j → I s → M i s t → R j s t
  inv : ∀ i s t, I s → M i s t → I t

/-- A step of a thread. -/
theorem Accords.step {P : Pool ι F σ ε α} (hP : Accords h R M Q E I P) (hcompatible : Compatible R M I) (i : ι) :
    Accords h R M Q E I (P.step h i) := by
  cases hi : P.threads i with
  | pure a => rwa [step_of_finished (.inl ⟨a, hi⟩)]
  | throw e => rwa [step_of_finished (.inr ⟨e, hi⟩)]
  | call c k =>
    rw [step_of_call hi]
    obtain ⟨s, hs, hamong⟩ := hP.thread i
    rw [hi] at hamong
    obtain ⟨hM, hrest⟩ := hamong _ hs
    refine ⟨fun j => ?_, hcompatible.inv i _ _ hP.inv hM⟩
    by_cases hj : j = i
    · subst hj
      refine ⟨_, hcompatible.refl j _, ?_⟩
      simpa using hrest
    · obtain ⟨u, hu, hj_among⟩ := hP.thread j
      refine ⟨u, hcompatible.trans j _ _ _ hu (hcompatible.others i j _ _ (Ne.symm hj) hP.inv hM), ?_⟩
      simpa [hj] using hj_among

/-- A thread that starts anew. -/
theorem Accords.restart {P : Pool ι F σ ε α} (hP : Accords h R M Q E I P) (hcompatible : Compatible R M I)
    {i : ι} {p : Prog F ε α} {s : σ} (hp : p.Among h (R i) (M i) (Q i) (E i) s)
    (hothers : ∀ j, i ≠ j → R j P.state s) (hI : I s) : Accords h R M Q E I (P.restart i p s) := by
  refine ⟨fun j => ?_, hI⟩
  by_cases hj : j = i
  · subst hj
    refine ⟨s, hcompatible.refl j s, ?_⟩
    simpa [Pool.restart] using hp
  · obtain ⟨u, hu, hj_among⟩ := hP.thread j
    refine ⟨u, hcompatible.trans j _ _ _ hu (hothers j (Ne.symm hj)), ?_⟩
    simpa [Pool.restart, hj] using hj_among

/-- Whatever the schedule, and wherever threads start anew. -/
theorem Accords.moves {boot : ι → σ → Prog F ε α → σ → Prop} {P P' : Pool ι F σ ε α}
    (hP : Accords h R M Q E I P) (hcompatible : Compatible R M I)
    (hboot : ∀ i s p s', boot i s p s' → I s →
      p.Among h (R i) (M i) (Q i) (E i) s' ∧ (∀ j, i ≠ j → R j s s') ∧ I s')
    (hmoves : Relation.ReflTransGen (Moves h boot) P P') : Accords h R M Q E I P' := by
  induction hmoves with
  | refl => exact hP
  | tail _ hlast ih =>
    cases hlast with
    | step i => exact ih.step hcompatible i
    | restart hboots =>
      obtain ⟨hp, hothers, hI⟩ := hboot _ _ _ _ hboots ih.inv
      exact ih.restart hcompatible hp hothers hI

end Pool

end Interaction
