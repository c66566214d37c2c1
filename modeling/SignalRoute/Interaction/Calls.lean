import SignalRoute.Interaction.Prog

/-!
# The calls of a program

`Prog.Calls` says which calls a program can make at all, whatever it is answered. It is read off the text of
the program, one rule for each construct, and what all these calls keep the program keeps (`Calls.always`).
-/

namespace Interaction

namespace Prog

variable {F : Type → Type} {σ ε ε' α β : Type}

/-- Every call of `p`, whatever the answers to those before it, is one of `Φ`. -/
def Calls (Φ : ∀ {β : Type}, F β → Prop) (p : Prog F ε α) : Prop :=
  match p with
  | .pure _ => True
  | .throw _ => True
  | .call c k => Φ c ∧ ∀ b, (k b).Calls Φ

variable {Φ : ∀ {β : Type}, F β → Prop}

@[simp] theorem calls_pure (a : α) : (Prog.pure a : Prog F ε α).Calls Φ := trivial

@[simp] theorem calls_throw (e : ε) : (Prog.throw e : Prog F ε α).Calls Φ := trivial

@[simp] theorem calls_perform (c : F α) : (perform c : Prog F ε α).Calls Φ ↔ Φ c :=
  and_iff_left fun _ => trivial

@[simp] theorem calls_ofExcept (r : Except ε α) : (ofExcept r : Prog F ε α).Calls Φ := by
  cases r <;> trivial

/-- The calls of a sequence are those of its parts. -/
theorem Calls.bind {p : Prog F ε α} (hp : p.Calls Φ) {f : α → Prog F ε β} (hf : ∀ a, (f a).Calls Φ) :
    (p.bind f).Calls Φ := by
  induction p with
  | pure a => exact hf a
  | throw e => trivial
  | call c k ih => exact ⟨hp.1, fun b => ih b (hp.2 b)⟩

/-- The same of a handler. -/
theorem Calls.tryCatch {p : Prog F ε α} (hp : p.Calls Φ) {f : ε → Prog F ε' α} (hf : ∀ e, (f e).Calls Φ) :
    (p.tryCatch f).Calls Φ := by
  induction p with
  | pure a => trivial
  | throw e => exact hf e
  | call c k ih => exact ⟨hp.1, fun b => ih b (hp.2 b)⟩

/-- The same of a loop over a list. -/
theorem Calls.forEach {l : List α} {body : α → Prog F ε Unit} (hbody : ∀ a, (body a).Calls Φ) :
    (forEach l body).Calls Φ := by
  induction l with
  | nil => trivial
  | cons a l ih => exact (hbody a).bind fun _ => ih

/-- The same of a loop that carries a value. -/
theorem Calls.foldEach {l : List α} {b : β} {body : β → α → Prog F ε β} (hbody : ∀ b a, (body b a).Calls Φ) :
    (foldEach l b body).Calls Φ := by
  induction l generalizing b with
  | nil => trivial
  | cons a l ih => exact (hbody b a).bind fun _ => ih

/-- What all calls of a program keep holds wherever it ends. -/
theorem Calls.always {h : Handler F σ} {I : σ → Prop} {p : Prog F ε α} (hp : p.Calls Φ)
    (hcall : ∀ {β : Type} (c : F β) s, Φ c → I s → I (h.run c s).2) {s : σ} (hs : I s) :
    p.Always h I (fun _ => I) (fun _ => I) s := by
  induction p generalizing s with
  | pure a => exact hs
  | throw e => exact hs
  | call c k ih => exact ⟨hcall c s hp.1 hs, ih _ (hp.2 _) (hcall c s hp.1 hs)⟩

end Prog

end Interaction
