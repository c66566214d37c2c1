import SignalRoute.Interaction.Pool

/-!
# Traces of programs

A trace is what a program has called so far, with the answers. `Prog.Passes` says that a program makes the
calls of a trace, gets its answers, and goes on as another program, wherever the answers come from: the
threads of a pool have traces too (`Pool.Traced`), although between two calls of a thread the others move
the state.

The answers of a trace can be given by a handler (`Handler.replay`). So what is known of a program under
every handler is known of all its traces (`Prog.Passes.of_always`), and a statement about executions
becomes one about pools.
-/

namespace Interaction

variable {ι : Type} {F G : Type → Type} {σ ε α E : Type}

/-- A call and its answer. -/
structure Reply (F : Type → Type) : Type 1 where
  {β : Type}
  c : F β
  answer : β

/-- The entries that a log has of a trace. -/
def entries (entry : ∀ {β : Type}, F β → β → Option E) (t : List (Reply F)) : List E :=
  t.flatMap fun r => (entry r.c r.answer).toList

theorem entries_snoc {entry : ∀ {β : Type}, F β → β → Option E} (t : List (Reply F)) (r : Reply F) :
    entries entry (t ++ [r]) = entries entry t ++ (entry r.c r.answer).toList := by
  unfold entries
  rw [List.flatMap_append, List.flatMap_singleton]

namespace Prog

/-- `p` makes the calls of a trace and goes on as `q`. -/
inductive Passes : Prog F ε α → List (Reply F) → Prog F ε α → Prop
  | refl (p : Prog F ε α) : Passes p [] p
  | call {β : Type} {c : F β} {k : β → Prog F ε α} {b : β} {t : List (Reply F)} {q : Prog F ε α} :
      Passes (k b) t q → Passes (.call c k) (⟨c, b⟩ :: t) q

variable {p q : Prog F ε α} {t : List (Reply F)}

/-- A program that has come to a call makes it. -/
theorem Passes.snoc {β : Type} {c : F β} {k : β → Prog F ε α} (h : p.Passes t (.call c k)) (b : β) :
    p.Passes (t ++ [⟨c, b⟩]) (k b) := by
  generalize hq : Prog.call c k = q at h
  induction h with
  | refl p =>
    subst hq
    exact .call (.refl _)
  | call _ ih => exact .call (ih hq)

end Prog

section Replay

variable (h : Handler F σ) (t : List (Reply F))

open Classical in
/-- The handler that gives the answers of a trace, call by call; where the trace says nothing it answers as
another handler. -/
noncomputable def Handler.replay : Handler F (σ × ℕ) :=
  ⟨fun c s =>
    if hb : ∃ b, t[s.2]? = some ⟨c, b⟩ then (hb.choose, s.1, s.2 + 1) else ((h.run c s.1).1, s)⟩

variable {h t}

theorem Handler.run_replay {β : Type} {c : F β} {b : β} {s : σ} {n : ℕ} (ht : t[n]? = some ⟨c, b⟩) :
    (h.replay t).run c (s, n) = (b, s, n + 1) := by
  have hb : ∃ b, t[n]? = some ⟨c, b⟩ := ⟨b, ht⟩
  have hchoose : hb.choose = b := by
    have hsome := Option.some.inj (ht.symm.trans hb.choose_spec)
    injection hsome with _ _ heq
    exact heq.symm
  unfold Handler.replay
  dsimp only
  rw [dif_pos hb, hchoose]

variable {entry : ∀ {β : Type}, F β → β → Option E} {I : (σ × ℕ) × List E → Prop}
  {P : α → (σ × ℕ) × List E → Prop} {X : ε → (σ × ℕ) × List E → Prop}

/-- A program under the handler that replays its trace. -/
theorem Prog.Passes.replay {p q : Prog F ε α} {before : List (Reply F)} {s : σ} {log : List E}
    (hp : p.Passes t q)
    (halways : p.Always ((h.replay (before ++ t)).logged fun c _ b => entry c b) I P X ((s, before.length), log)) :
    q.Always ((h.replay (before ++ t)).logged fun c _ b => entry c b) I P X
      ((s, (before ++ t).length), log ++ entries entry t) := by
  induction hp generalizing before log with
  | refl p =>
    simpa [entries] using halways
  | @call β c k b t q hp ih =>
    have hrun : (h.replay (before ++ ⟨c, b⟩ :: t)).run c (s, before.length) = (b, s, before.length + 1) :=
      Handler.run_replay (by simp)
    have hrest := halways.2
    change (k ((h.replay (before ++ ⟨c, b⟩ :: t)).run c (s, before.length)).1).Always _ _ _ _
      ((((h.replay (before ++ ⟨c, b⟩ :: t)).run c (s, before.length)).2,
        log ++ (entry c ((h.replay (before ++ ⟨c, b⟩ :: t)).run c (s, before.length)).1).toList)) at hrest
    rw [hrun] at hrest
    have hsnoc : before ++ ⟨c, b⟩ :: t = before ++ [⟨c, b⟩] ++ t := by simp
    rw [hsnoc] at hrest ⊢
    have hlength : before.length + 1 = (before ++ [(⟨c, b⟩ : Reply F)]).length := by simp
    rw [hlength] at hrest
    have hentries : entries entry ((⟨c, b⟩ : Reply F) :: t) = (entry c b).toList ++ entries entry t :=
      List.flatMap_cons
    rw [hentries, ← List.append_assoc]
    exact ih hrest

/-- What the logic proves of a program and its log under every handler holds of every trace. -/
theorem Prog.Passes.of_always {P : α → List E → Prop} {X : ε → List E → Prop} {p : Prog F ε α} (h : Handler F σ)
    (s : σ) (halways : ∀ {τ : Type} (h : Handler F τ) (s : τ), p.Always (h.logged fun c _ b => entry c b)
      (fun _ => True) (fun a s' => P a s'.2) (fun e s' => X e s'.2) (s, [])) :
    (∀ a, p.Passes t (.pure a) → P a (entries entry t)) ∧ ∀ e, p.Passes t (.throw e) → X e (entries entry t) := by
  have hreplay := halways (h.replay ([] ++ t)) (s, 0)
  exact ⟨fun a hp => hp.replay hreplay, fun e hp => hp.replay hreplay⟩

end Replay

namespace Pool

variable [DecidableEq ι] {h : Handler G σ} {p : ι → Prog F ε α} {f : ι → ∀ {β : Type}, F β → G β}
  {t : ι → List (Reply F)} {P : Pool ι G σ ε α}

/-- Each thread is what is left of a program, with its calls renamed, after a trace. -/
def Traced (p : ι → Prog F ε α) (f : ι → ∀ {β : Type}, F β → G β) (t : ι → List (Reply F))
    (P : Pool ι G σ ε α) : Prop :=
  ∀ i, ∃ q, P.threads i = q.hoist (f i) ∧ (p i).Passes (t i) q

/-- A thread that steps makes its next call, which its trace then has. -/
theorem Traced.step (hP : Traced p f t P) (i : ι) : P.step h i = P ∨ ∃ (β : Type) (c : F β),
    (P.step h i).state = (h.run (f i c) P.state).2 ∧
    Traced p f (Function.update t i (t i ++ [⟨c, (h.run (f i c) P.state).1⟩])) (P.step h i) := by
  obtain ⟨q, hq, hpasses⟩ := hP i
  cases q with
  | pure a => exact .inl (step_of_finished (.inl ⟨a, hq⟩))
  | throw e => exact .inl (step_of_finished (.inr ⟨e, hq⟩))
  | @call β c k =>
    have hstep := step_of_call (h := h) (P := P) hq
    refine .inr ⟨β, c, by rw [hstep], fun j => ?_⟩
    rw [hstep]
    dsimp only
    by_cases hj : j = i
    · subst hj
      rw [Function.update_self, Function.update_self]
      exact ⟨_, rfl, hpasses.snoc _⟩
    · rw [Function.update_of_ne hj, Function.update_of_ne hj]
      exact hP j

end Pool

end Interaction
