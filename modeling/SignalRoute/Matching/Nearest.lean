import SignalRoute.Matching.Service

/-!
# The nearest strategy against any context

`NearestStrategy::match` over a context whose answers are arbitrary: they may depend on everything that
has been asked before. The calls are logged with their answers (`ContextAnswer`), and `GreedyMatch` says
what a greedy match is in these terms: the candidates that have been tried are the closest ones in
order, and the ones returned are those whose reservation succeeded.

The loop tries a front of the sorted candidates (`ends_assign`), and `match_greedy` adds what the sort
says of fronts.
-/

namespace SignalRoute

open Interaction (Prog Handler)
open Interaction.Prog (perform)

/-- What a context answers to the calls of the strategy. -/
inductive ContextAnswer where
  | time_remaining_ms (remaining_ms : ℤ)
  | reserve (agent_id : String) (reserved : Bool)
  deriving DecidableEq

/-- The answers among the calls of a run. -/
def context_answer {D σ : Type} {β : Type} : MatchCall D β → σ → β → Option ContextAnswer
  | .time_remaining_ms, _, remaining_ms => some (.time_remaining_ms remaining_ms)
  | .reserve agent_id, _, reserved => some (.reserve agent_id reserved)
  | _, _, _ => none

/-- The reservations that were tried, in order, with their answers. -/
def reserve_answers (log : List ContextAnswer) : List (String × Bool) :=
  log.filterMap fun answer =>
    match answer with
    | .reserve agent_id reserved => some (agent_id, reserved)
    | .time_remaining_ms _ => none

namespace NearestStrategy

variable {D : Type}

/-- The candidates among those tried whose reservation succeeded. -/
def won (tried : List (MatchCandidate D × Bool)) : List (MatchCandidate D) :=
  (tried.filter Prod.snd).map Prod.fst

/-- A candidate that can be assigned. -/
def Eligible (candidate : MatchCandidate D) : Prop := candidate.available = true ∧ candidate.agent_id ≠ ""

/-- A greedy match of some candidates under the answers of a context: some of the candidates have been
tried, in order of their distance and id, and those that were won are returned. -/
structure GreedyMatch [LinearOrder D] (max_agents : ℤ) (candidates : List (MatchCandidate D))
    (log : List ContextAnswer) (ids : List String) (tried : List (MatchCandidate D × Bool)) : Prop where
  answers : reserve_answers log = tried.map fun t => (t.1.agent_id, t.2)
  candidates_tried : ∃ untried, (tried.map Prod.fst ++ untried).Perm
    (candidates.filter fun candidate => candidate.available && candidate.agent_id ≠ "")
  returned : ids = (won tried).map MatchCandidate.agent_id
  in_order : (won tried).Pairwise fun a b => closer b a = false
  at_most : ids.length ≤ max_agents.toNat
  refused : ∀ candidate ∈ candidates, Eligible candidate → ∀ last, (won tried).getLast? = some last →
    closer candidate last = true → candidate ∉ won tried → (candidate, false) ∈ tried
  exhausted : (ids.length : ℤ) < max_agents → (∀ candidate ∈ candidates, Eligible candidate →
    ∃ reserved, (candidate, reserved) ∈ tried) ∨ .time_remaining_ms 0 ∈ log

section Loop

variable {σ : Type} (h : Handler (MatchCall D) σ) {max_agents : ℤ} {assigned : List String}
  {log : List ContextAnswer}

/-- A run of the loop, after some ids and answers, has tried a front of its candidates and added those that
were won, until it had enough or no time was left. -/
def Tries (max_agents : ℤ) (rest : List (MatchCandidate D)) (assigned : List String) (log : List ContextAnswer)
    (run : Except Exception (List String) × σ × List ContextAnswer) : Prop :=
  ∃ tried untried more s', rest = tried.map Prod.fst ++ untried ∧
    run = (.ok (assigned ++ (won tried).map MatchCandidate.agent_id), s', log ++ more) ∧
    reserve_answers more = tried.map (fun t => (t.1.agent_id, t.2)) ∧
    (assigned.length + (won tried).length : ℤ) ≤ max_agents ∧
    ((assigned.length + (won tried).length : ℤ) < max_agents → untried = [] ∨ .time_remaining_ms 0 ∈ more)

/-- What is won of a candidate and others. -/
theorem won_cons (t : MatchCandidate D × Bool) (tried : List (MatchCandidate D × Bool)) :
    won (t :: tried) = won [t] ++ won tried := by
  unfold won
  rw [← List.map_append, ← List.filter_append, List.singleton_append]

/-- A run that stops before the next candidate. -/
theorem tries_nil {rest : List (MatchCandidate D)} {s' : σ} {more : List ContextAnswer}
    (hassigned : (assigned.length : ℤ) ≤ max_agents) (hmore : reserve_answers more = [])
    (hstop : (assigned.length : ℤ) < max_agents → rest = [] ∨ .time_remaining_ms 0 ∈ more) :
    Tries max_agents rest assigned log (.ok assigned, s', log ++ more) := by
  have hnone : won ([] : List (MatchCandidate D × Bool)) = [] := rfl
  refine ⟨[], rest, more, s', rfl, ?_, hmore, ?_, ?_⟩
  · rw [hnone, List.map_nil, List.append_nil]
  · rwa [hnone, List.length_nil, Nat.cast_zero, add_zero]
  · rwa [hnone, List.length_nil, Nat.cast_zero, add_zero]

/-- A run that tries a candidate, and then goes on or stops. -/
theorem Tries.cons (candidate : MatchCandidate D) (reserved : Bool) (remaining_ms : ℤ)
    {rest : List (MatchCandidate D)} {run : Except Exception (List String) × σ × List ContextAnswer}
    {assigned' : List String} (hwon : assigned' = assigned ++ (won [(candidate, reserved)]).map MatchCandidate.agent_id)
    (h : Tries max_agents rest assigned'
      (log ++ [.time_remaining_ms remaining_ms, .reserve candidate.agent_id reserved]) run) :
    Tries max_agents (candidate :: rest) assigned log run := by
  subst hwon
  obtain ⟨tried, untried, more, s', rfl, rfl, hanswers, hmost, hall⟩ := h
  have hlength : ((assigned ++ (won [(candidate, reserved)]).map MatchCandidate.agent_id).length +
      (won tried).length : ℤ) = assigned.length + (won ((candidate, reserved) :: tried)).length := by
    rw [won_cons _ tried, List.length_append, List.length_append, List.length_map]
    push_cast
    ring
  rw [hlength] at hmost hall
  refine ⟨(candidate, reserved) :: tried, untried,
    .time_remaining_ms remaining_ms :: .reserve candidate.agent_id reserved :: more, s', rfl, ?_, ?_, hmost, ?_⟩
  · rw [won_cons _ tried, List.map_append, List.append_assoc, List.append_assoc]
    rfl
  · unfold reserve_answers at hanswers ⊢
    simp [hanswers]
  · exact fun hless => (hall hless).imp_right fun hmem => List.mem_cons_of_mem _ (List.mem_cons_of_mem _ hmem)

/-- What the loop does with a candidate. -/
theorem ends_assign_cons (candidate : MatchCandidate D) (rest : List (MatchCandidate D)) (s : σ) :
    (assign max_agents (candidate :: rest) assigned).ends (h.logged context_answer) (s, log) =
      let time := h.run .time_remaining_ms s
      let reserve := h.run (.reserve candidate.agent_id) time.2
      let log' := log ++ [.time_remaining_ms time.1, .reserve candidate.agent_id reserve.1]
      if time.1 = 0 then (.ok assigned, time.2, log ++ [.time_remaining_ms time.1])
      else if reserve.1 = false then
        (assign max_agents rest assigned).ends (h.logged context_answer) (reserve.2, log')
      else if castInt (assigned ++ [candidate.agent_id]).length ≥ max_agents then
        (.ok (assigned ++ [candidate.agent_id]), reserve.2, log')
      else
        (assign max_agents rest (assigned ++ [candidate.agent_id])).ends (h.logged context_answer)
          (reserve.2, log') := by
  have htime : (h.logged context_answer).run .time_remaining_ms (s, log) = ((h.run .time_remaining_ms s).1,
      (h.run .time_remaining_ms s).2, log ++ [.time_remaining_ms (h.run .time_remaining_ms s).1]) := rfl
  rw [assign, Prog.bind_eq, Prog.ends_bind_perform, htime]
  generalize h.run .time_remaining_ms s = time
  obtain ⟨remaining_ms, s₁⟩ := time
  dsimp only
  have hreserve : (h.logged context_answer).run (.reserve candidate.agent_id)
      (s₁, log ++ [.time_remaining_ms remaining_ms]) =
      ((h.run (.reserve candidate.agent_id) s₁).1, (h.run (.reserve candidate.agent_id) s₁).2,
        (log ++ [.time_remaining_ms remaining_ms]) ++
          [.reserve candidate.agent_id (h.run (.reserve candidate.agent_id) s₁).1]) := rfl
  by_cases hzero : remaining_ms = 0
  · rw [if_pos hzero, if_pos hzero]
    rfl
  · rw [if_neg hzero, if_neg hzero, Prog.bind_eq, Prog.ends_bind_perform, hreserve, List.append_assoc]
    generalize h.run (.reserve candidate.agent_id) s₁ = reserve
    obtain ⟨reserved, s₂⟩ := reserve
    dsimp only
    cases reserved with
    | false =>
      rw [if_pos rfl, if_pos rfl]
      rfl
    | true =>
      have hreserved : ¬true = false := by decide
      rw [if_neg hreserved, if_neg hreserved]
      split
      · rfl
      · rfl

/-- The loop tries a front of its candidates and adds those that are won, until it has enough or no time
is left. -/
theorem ends_assign (hmax : max_agents < 2^31) (rest : List (MatchCandidate D))
    (hassigned : (assigned.length : ℤ) < max_agents) (s : σ) :
    Tries max_agents rest assigned log
      ((assign max_agents rest assigned).ends (h.logged context_answer) (s, log)) := by
  induction rest generalizing assigned s log with
  | nil =>
    have hrun : (assign max_agents ([] : List (MatchCandidate D)) assigned).ends (h.logged context_answer) (s, log) =
        (.ok assigned, s, log ++ []) := by
      rw [List.append_nil]
      rfl
    rw [hrun]
    exact tries_nil hassigned.le rfl fun _ => .inl rfl
  | cons candidate rest ih =>
    rw [ends_assign_cons]
    dsimp only
    generalize h.run .time_remaining_ms s = time
    generalize h.run (.reserve candidate.agent_id) time.2 = reserve
    obtain ⟨remaining_ms, s₁⟩ := time
    obtain ⟨reserved, s₂⟩ := reserve
    dsimp only
    by_cases hzero : remaining_ms = 0
    · -- No time is left, so the candidate and the rest are not tried.
      rw [if_pos hzero, hzero]
      exact tries_nil hassigned.le rfl fun _ => .inr (List.mem_singleton.mpr rfl)
    rw [if_neg hzero]
    cases reserved with
    | false =>
      rw [if_pos rfl]
      exact .cons candidate false remaining_ms (List.append_nil assigned).symm (ih hassigned s₂)
    | true =>
      have hlength : ((assigned ++ [candidate.agent_id]).length : ℤ) = assigned.length + 1 := by
        rw [List.length_append, List.length_singleton, Nat.cast_add, Nat.cast_one]
      have hreserved : ¬true = false := by decide
      rw [if_neg hreserved, castInt_eq (by omega) (by omega)]
      by_cases henough : ((assigned ++ [candidate.agent_id]).length : ℤ) ≥ max_agents
      · -- With this candidate there are enough.
        rw [if_pos henough, ← List.append_nil (log ++ _)]
        exact .cons candidate true remaining_ms rfl
          (tries_nil (hlength.trans_le (by omega)) rfl fun hless => absurd hless (not_lt.mpr henough))
      · rw [if_neg henough]
        exact .cons candidate true remaining_ms rfl (ih (not_le.mp henough) s₂)

end Loop

section Order

variable [LinearOrder D]

/-- Not to be further away is the lexicographic order. -/
theorem closer_eq_false_iff {a b : MatchCandidate D} : closer b a = false ↔
    a.distance_m < b.distance_m ∨ a.distance_m = b.distance_m ∧ a.agent_id ≤ b.agent_id := by
  unfold closer
  by_cases heq : b.distance_m = a.distance_m
  · rw [if_neg (not_not.mpr heq), decide_eq_false_iff_not, String.not_lt]
    simp [heq]
  · rw [if_pos heq, decide_eq_false_iff_not, not_lt]
    exact ⟨fun hle => .inl (lt_of_le_of_ne hle (Ne.symm heq)),
      fun h => h.elim le_of_lt fun h => absurd h.1.symm heq⟩

/-- The candidates are sorted by distance and id. -/
theorem pairwise_sorted (candidates : List (MatchCandidate D)) :
    (sorted candidates).Pairwise fun a b => closer b a = false := by
  have htrans : ∀ a b c : MatchCandidate D, (!closer b a) = true → (!closer c b) = true →
      (!closer c a) = true := by
    intro a b c hab hbc
    rw [Bool.not_eq_true', closer_eq_false_iff] at hab hbc ⊢
    rcases hab with hab | ⟨hab, hid⟩ <;> rcases hbc with hbc | ⟨hbc, hid'⟩
    · exact .inl (hab.trans hbc)
    · exact .inl (hab.trans_eq hbc)
    · exact .inl (hab.trans_lt hbc)
    · exact .inr ⟨hab.trans hbc, hid.trans hid'⟩
  have htotal : ∀ a b : MatchCandidate D, (!closer b a || !closer a b) = true := by
    intro a b
    rw [Bool.or_eq_true, Bool.not_eq_true', Bool.not_eq_true', closer_eq_false_iff, closer_eq_false_iff]
    rcases lt_trichotomy a.distance_m b.distance_m with hlt | heq | hlt
    · exact .inl (.inl hlt)
    · exact (le_total a.agent_id b.agent_id).imp (fun hid => .inr ⟨heq, hid⟩) fun hid => .inr ⟨heq.symm, hid⟩
    · exact .inr (.inl hlt)
  have hpairwise := List.pairwise_mergeSort htrans htotal
    (candidates.filter fun candidate => candidate.available && candidate.agent_id ≠ "")
  unfold sorted
  simpa only [Bool.not_eq_true'] using hpairwise

/-- A candidate is gone through exactly if it can be assigned. -/
theorem mem_sorted {candidate : MatchCandidate D} {candidates : List (MatchCandidate D)} :
    candidate ∈ sorted candidates ↔ candidate ∈ candidates ∧ Eligible candidate := by
  unfold sorted Eligible
  rw [List.mem_mergeSort, List.mem_filter, Bool.and_eq_true, decide_eq_true_iff]

end Order

/-- Those won are some of those tried. -/
theorem mem_won {candidate : MatchCandidate D} {tried : List (MatchCandidate D × Bool)} :
    candidate ∈ won tried ↔ (candidate, true) ∈ tried := by
  unfold won
  simp

/-- Whatever the context answers, the strategy returns a greedy match. -/
theorem match_greedy [LinearOrder D] (request : MatchRequest) (hmax : request.max_agents < 2^31)
    (candidates : List (MatchCandidate D)) {σ : Type} (h : Handler (MatchCall D) σ) (s : σ) :
    ∃ ids tried s' log, (strategy request candidates).ends (h.logged context_answer) (s, []) =
        (.ok ids, s', log) ∧
      GreedyMatch request.max_agents candidates log ids tried := by
  unfold strategy
  by_cases hnone : request.max_agents ≤ 0
  · rw [if_pos hnone]
    refine ⟨[], [], s, [], rfl, rfl, ⟨sorted candidates, List.mergeSort_perm _ _⟩, rfl, .nil, Nat.zero_le _, ?_, ?_⟩
    · intro _ _ _ _ hlast
      cases hlast
    · intro hless
      rw [List.length_nil, Nat.cast_zero] at hless
      omega
  · obtain ⟨tried, untried, log, s', hsplit, hends, hanswers, hmost, hall⟩ :=
      @ends_assign D σ h request.max_agents [] [] hmax (sorted candidates)
        (by rw [List.length_nil, Nat.cast_zero]; omega) s
    have hsorted := pairwise_sorted candidates
    rw [hsplit, List.pairwise_append] at hsorted
    obtain ⟨htried, -, hfront⟩ := hsorted
    rw [List.nil_append, List.nil_append] at hends
    rw [List.length_nil, Nat.cast_zero, zero_add] at hmost hall
    rw [if_neg hnone]
    refine ⟨_, tried, s', log, hends, ?_⟩
    have hmem : ∀ candidate ∈ candidates, Eligible candidate →
        (∃ reserved, (candidate, reserved) ∈ tried) ∨ candidate ∈ untried := by
      intro candidate hcandidate heligible
      have := mem_sorted.mpr ⟨hcandidate, heligible⟩
      rw [hsplit, List.mem_append, List.mem_map] at this
      exact this.imp_left fun ⟨t, ht, heq⟩ => ⟨t.2, heq ▸ ht⟩
    constructor
    · exact hanswers
    · exact ⟨untried, hsplit ▸ List.mergeSort_perm _ _⟩
    · rfl
    · exact htried.sublist (List.filter_sublist.map _)
    · rw [List.length_map]
      omega
    · intro candidate hcandidate heligible last hlast hcloser hlost
      -- What has not been tried comes after the last one.
      obtain ⟨reserved, htry⟩ := (hmem candidate hcandidate heligible).resolve_right fun huntried => by
        have hlast_tried : last ∈ tried.map Prod.fst :=
          List.mem_map.mpr ⟨_, mem_won.mp (List.mem_of_getLast? hlast), rfl⟩
        rw [hfront last hlast_tried candidate huntried] at hcloser
        cases hcloser
      cases reserved with
      | false => exact htry
      | true => exact absurd (mem_won.mpr htry) hlost
    · intro hless
      rw [List.length_map] at hless
      refine (hall hless).imp_left fun hnil candidate hcandidate heligible => ?_
      exact (hmem candidate hcandidate heligible).resolve_right fun huntried => by
        rw [hnil] at huntried
        cases huntried

/-- A context with time left that lends every agent but one. -/
def lendsAllBut (agent_id : String) : Handler (MatchCall ℚ) Unit where
  run c s := (match c with
    | .reserve id => id ≠ agent_id
    | .time_remaining_ms => 1
    | .epoch_now_ms => 0
    | .release _ => ()
    | .nearby .. => .ok []
    | .request_id => "r", s)

/-- The nearer of two candidates is refused. -/
theorem match_greedy_two : ∃ ids tried s' log,
    (strategy { request_id := "r", max_agents := 1 } [⟨"b", 0, 0, 2, true⟩, ⟨"a", 0, 0, 1, true⟩]).ends
        ((lendsAllBut "a").logged context_answer) ((), []) = (.ok ids, s', log) ∧
      GreedyMatch (D := ℚ) 1 [⟨"b", 0, 0, 2, true⟩, ⟨"a", 0, 0, 1, true⟩] log ids tried :=
  match_greedy { request_id := "r", max_agents := 1 } (by decide) [⟨"b", 0, 0, 2, true⟩, ⟨"a", 0, 0, 1, true⟩]
    (lendsAllBut "a") ()

end NearestStrategy

end SignalRoute
