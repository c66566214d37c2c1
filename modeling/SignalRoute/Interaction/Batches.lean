import SignalRoute.Interaction.Prog
import SignalRoute.Store.CommitLog

/-!
# Programs that read a log in batches

A batch is a loop of turns (`Prog.untilStop`), and a run is one batch after another. A turn reads
some entries of a log and decides their fates; which ones is a function of the state before the
turn. When each turn keeps the state in step with the fates (`Keeps`), so does each batch, and the
states of a whole run are covered exactly when the fates of the run are orderly
(`covered_iff_orderly`).
-/

namespace Interaction

open CommitLog (Fate Orderly)

namespace Prog

variable {F : Type → Type} {ε α τ : Type}

/-- Turns of a loop, each of which says whether the loop goes on, for at most `n` turns; their values
are counted. -/
def untilStop (turn : Prog F ε (α × Bool)) (count : τ → α → τ) : τ → ℕ → Prog F ε τ
  | t, 0 => .pure t
  | t, n + 1 => turn.bind fun r =>
      if r.2 then untilStop turn count (count t r.1) n else .pure (count t r.1)

end Prog

section Batches

variable {F : Type → Type} {σ ε α τ ι : Type} {h : Handler F σ} {tracks : List Fate → σ → Prop}
  {covered : σ → Prop}

variable (h tracks covered) in
/-- A program keeps the state in step with the fates that it decides, and the states on the way are
covered if the fates are orderly. -/
def Keeps (p : Prog F ε α) (fates : σ → List Fate) : Prop :=
  ∀ before s, tracks before s →
    p.Always h (fun t => Orderly (before ++ fates s) → covered t)
      (fun _ t => tracks (before ++ fates s) t) (fun _ t => tracks (before ++ fates s) t) s

variable (h) in
/-- The fates that a batch of turns decides. -/
def batch_fates (turn : Prog F ε (α × Bool)) (fates : σ → List Fate) : ℕ → σ → List Fate
  | 0, _ => []
  | n + 1, s => fates s ++
      match (turn.exec h s).result with
      | .ok (_, true) => batch_fates turn fates n (turn.exec h s).final
      | _ => []

variable (h) in
/-- The states of a run of batches. -/
def visits (batch : ι → Prog F ε τ) : List ι → σ → List σ
  | [], s => [s]
  | i :: rest, s => s :: ((batch i).exec h s).visited ++ visits batch rest ((batch i).exec h s).final

variable (h) in
/-- The fates that a run of batches decides. -/
def run_fates (batch : ι → Prog F ε τ) (fates : ι → σ → List Fate) : List ι → σ → List Fate
  | [], _ => []
  | i :: rest, s => fates i s ++ run_fates batch fates rest ((batch i).exec h s).final

/-- The fates up to some entry are orderly if all are. -/
theorem orderly_of_append {before after : List Fate} (ho : Orderly (before ++ after)) :
    Orderly before :=
  (List.pairwise_append.mp ho).1

/-- An execution ends as it ends. -/
theorem always_exec (p : Prog F ε α) (s : σ) :
    p.Always h (fun _ => True) (fun a t => (p.exec h s).result = .ok a ∧ t = (p.exec h s).final)
      (fun e t => (p.exec h s).result = .error e ∧ t = (p.exec h s).final) s :=
  (Prog.always_iff_exec p s).mpr
    ⟨fun _ _ => trivial, fun _ ha => ⟨ha, rfl⟩, fun _ he => ⟨he, rfl⟩⟩

/-- A batch keeps the state in step if each turn does. -/
theorem Keeps.untilStop {turn : Prog F ε (α × Bool)} {fates : σ → List Fate}
    (hturn : Keeps h tracks covered turn fates) (count : τ → α → τ) (t : τ) (n : ℕ) :
    Keeps h tracks covered (turn.untilStop count t n) (batch_fates h turn fates n) := by
  induction n generalizing t with
  | zero =>
    intro before s hs
    rw [batch_fates, List.append_nil]
    exact hs
  | succ n ih =>
    intro before s hs
    rw [Prog.untilStop, Prog.always_bind, batch_fates]
    refine ((hturn before s hs).and (always_exec turn s)).imp ?_ ?_ ?_
    · rintro s' ⟨hcovered, -⟩ horderly
      rw [← List.append_assoc] at horderly
      exact hcovered (orderly_of_append horderly)
    · rintro ⟨a, go⟩ s' ⟨htracks, hresult, rfl⟩
      rw [hresult]
      -- A turn that stops ends the batch; after the others the rest of it follows.
      cases go with
      | false =>
        rw [if_neg Bool.noConfusion, Prog.always_pure, List.append_nil]
        exact htracks
      | true =>
        rw [if_pos rfl, ← List.append_assoc]
        exact ih (count t a) _ _ htracks
    · rintro e s' ⟨htracks, hresult, rfl⟩
      rw [hresult, List.append_nil]
      exact htracks

/-- The states of a run of batches are covered exactly when the fates that it decides are orderly. -/
theorem covered_iff_orderly (hcovered : ∀ before s, tracks before s → (covered s ↔ Orderly before))
    {batch : ι → Prog F ε τ} {fates : ι → σ → List Fate}
    (hbatch : ∀ i, Keeps h tracks covered (batch i) (fates i)) (calls : List ι) (before : List Fate)
    (s : σ) (hs : tracks before s) :
    (∀ t ∈ visits h batch calls s, covered t) ↔
      Orderly (before ++ run_fates h batch fates calls s) := by
  induction calls generalizing before s with
  | nil =>
    rw [visits, run_fates, List.append_nil, List.forall_mem_singleton]
    exact hcovered before s hs
  | cons i rest ih =>
    obtain ⟨hvisited, hok, herror⟩ := (Prog.always_iff_exec _ _).mp (hbatch i before s hs)
    have hfinal : tracks (before ++ fates i s) ((batch i).exec h s).final := by
      cases hresult : ((batch i).exec h s).result with
      | ok a => exact hok a hresult
      | error e => exact herror e hresult
    have hrest := ih _ _ hfinal
    rw [visits, run_fates, ← List.append_assoc, ← hrest]
    constructor
    · intro hall t ht
      exact hall t (List.mem_append_right _ ht)
    · intro hlater t ht
      have horderly := orderly_of_append (hrest.mp hlater)
      rcases List.mem_append.mp ht with hmem | hmem
      · rcases List.mem_cons.mp hmem with rfl | hmem
        · exact (hcovered before t hs).mpr (orderly_of_append horderly)
        · exact hvisited t hmem horderly
      · exact hlater t hmem

end Batches

end Interaction
