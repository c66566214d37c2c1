import Mathlib.Data.Finset.Card
import Mathlib.Data.List.DropRight
import Mathlib.Data.List.Nodup

/-!
# Recently used keys

What a cache should remember that has room for `n` keys and forgets them after a time: of a history
of touches, the latest first, each a key and a time, `kept` has the latest touch of each key, as far
as it is recent enough and among the first `n`. `mem_kept_iff` says it in terms of the history: fewer
than `n` other keys were touched since. A touch puts its key in front (`kept_touch`), and the passing
of time only drops keys from the back (`kept_later`).
-/

namespace Store

variable {α K : Type}

section Prefixes

variable {p : α → Bool} {l : List α}

/-- Where what satisfies `p` comes first, cutting a list commutes with filtering it. -/
theorem filter_take (hl : l.Pairwise fun a b => p b → p a) (n : ℕ) :
    (l.take n).filter p = (l.filter p).take n := by
  induction l generalizing n with
  | nil => rw [List.take_nil, List.filter_nil, List.take_nil]
  | cons a l ih =>
    cases n with
    | zero => rfl
    | succ n =>
      rw [List.take_succ_cons]
      by_cases ha : p a = true
      · rw [List.filter_cons_of_pos ha, List.filter_cons_of_pos ha, List.take_succ_cons, ih hl.of_cons]
      · have hnone : ∀ b ∈ l, ¬p b = true := fun b hb hpb => ha (List.rel_of_pairwise_cons hl hb hpb)
        rw [List.filter_cons_of_neg ha, List.filter_cons_of_neg ha,
          List.filter_eq_nil_iff.mpr fun b hb => hnone b (List.mem_of_mem_take hb),
          List.filter_eq_nil_iff.mpr hnone, List.take_nil]

/-- Where what satisfies `p` comes first, dropping from the back what does not is filtering. -/
theorem rdropWhile_eq_filter (hl : l.Pairwise fun a b => p b → p a) :
    l.rdropWhile (fun a => !p a) = l.filter p := by
  induction l using List.reverseRecOn with
  | nil => rfl
  | append_singleton l a ih =>
    obtain ⟨hpair, -, hlast⟩ := List.pairwise_append.mp hl
    rw [List.filter_append]
    by_cases ha : p a = true
    · have hall : ∀ b ∈ l, p b = true := fun b hb => hlast b hb a List.mem_cons_self ha
      rw [List.rdropWhile_concat_neg _ _ _ (by simp [ha]), List.filter_eq_self.mpr hall,
        List.filter_cons_of_pos ha]
      rfl
    · rw [List.rdropWhile_concat_pos _ _ _ (by simp [ha]), ih hpair, List.filter_cons_of_neg ha,
        List.filter_nil, List.append_nil]

end Prefixes

section Times

/-- Whether a touch is recent enough. -/
def recent (ttl now : ℤ) (touch : K × ℤ) : Bool := now - touch.2 ≤ ttl

/-- The times of a history do not increase from the front to the back. -/
def Ordered (history : List (K × ℤ)) : Prop := history.Pairwise fun a b => b.2 ≤ a.2

/-- In an ordered history the recent touches come first. -/
theorem Ordered.recent_first {ttl now : ℤ} {history : List (K × ℤ)} (h : Ordered history) :
    history.Pairwise fun a b => recent ttl now b → recent ttl now a :=
  h.imp fun hle hb => decide_eq_true (by
    have := of_decide_eq_true hb
    omega)

end Times

section Latest

variable [DecidableEq K]

/-- The latest touch of each key. -/
def latest : List (K × ℤ) → List (K × ℤ)
  | [] => []
  | touch :: history => touch :: (latest history).filter fun other => other.1 ≠ touch.1

/-- The latest touches are touches, in their order. -/
theorem latest_sublist (history : List (K × ℤ)) : (latest history).Sublist history := by
  induction history with
  | nil => exact List.Sublist.refl _
  | cons touch history ih => exact (List.filter_sublist.trans ih).cons_cons touch

/-- Each key is there once. -/
theorem nodup_latest (history : List (K × ℤ)) : ((latest history).map Prod.fst).Nodup := by
  induction history with
  | nil => exact List.nodup_nil
  | cons touch history ih =>
    rw [latest, List.map_cons, List.nodup_cons]
    refine ⟨fun hmem => ?_, ih.sublist (List.filter_sublist.map _)⟩
    obtain ⟨other, hother, heq⟩ := List.mem_map.mp hmem
    exact of_decide_eq_true (List.mem_filter.mp hother).2 heq

/-- Each touched key is there. -/
theorem mem_keys_latest {history : List (K × ℤ)} {k : K} :
    k ∈ (latest history).map Prod.fst ↔ k ∈ history.map Prod.fst := by
  refine ⟨fun h => ((latest_sublist history).map _).subset h, fun h => ?_⟩
  induction history with
  | nil => exact h
  | cons touch history ih =>
    rw [latest, List.map_cons, List.mem_cons]
    by_cases hk : k = touch.1
    · exact .inl hk
    · rw [List.map_cons, List.mem_cons] at h
      obtain ⟨other, hother, rfl⟩ := List.mem_map.mp (ih (h.resolve_left hk))
      exact .inr (List.mem_map_of_mem (List.mem_filter.mpr ⟨hother, decide_eq_true hk⟩))

/-- There are as many latest touches as there are keys. -/
theorem length_latest (history : List (K × ℤ)) :
    (latest history).length = (history.map Prod.fst).toFinset.card := by
  have hkeys : (history.map Prod.fst).toFinset = ((latest history).map Prod.fst).toFinset := by
    ext k
    rw [List.mem_toFinset, List.mem_toFinset, mem_keys_latest]
  rw [hkeys, List.toFinset_card_of_nodup (nodup_latest history), List.length_map]

/-- Earlier touches count for the keys that were not touched since. -/
theorem latest_append (since before : List (K × ℤ)) : latest (since ++ before) =
    latest since ++ (latest before).filter fun touch => touch.1 ∉ since.map Prod.fst := by
  induction since with
  | nil =>
    rw [List.nil_append, latest, List.nil_append, List.filter_eq_self.mpr]
    simp
  | cons touch since ih =>
    rw [List.cons_append, latest, ih, List.filter_append, latest, List.cons_append, List.filter_filter]
    congr 2
    refine List.filter_congr fun other _ => ?_
    rw [Bool.eq_iff_iff, List.map_cons]
    simp only [Bool.and_eq_true, decide_eq_true_eq, List.mem_cons, not_or]

/-- A key that is not touched again has its latest touch after those of the keys touched since. -/
theorem latest_append_cons {since before : List (K × ℤ)} {k : K} {u : ℤ}
    (hsince : k ∉ since.map Prod.fst) :
    ∃ rest, latest (since ++ (k, u) :: before) = latest since ++ (k, u) :: rest := by
  rw [latest_append, latest, List.filter_cons_of_pos (by simpa using hsince)]
  exact ⟨_, rfl⟩

/-- What a cache with room for `n` keys should remember of a history. -/
def kept (n : ℕ) (ttl now : ℤ) (history : List (K × ℤ)) : List (K × ℤ) :=
  ((latest history).filter (recent ttl now)).take n

variable {n : ℕ} {ttl now : ℤ} {history : List (K × ℤ)}

/-- The latest touches are ordered as the history is. -/
theorem Ordered.latest (h : Ordered history) : Ordered (latest history) :=
  h.sublist (latest_sublist history)

/-- What is kept is ordered. -/
theorem Ordered.kept (h : Ordered history) : Ordered (kept n ttl now history) :=
  h.latest.sublist ((List.take_sublist _ _).trans List.filter_sublist)

/-- Time only drops from the back. -/
theorem kept_later (h : Ordered history) {later : ℤ} (hle : now ≤ later) :
    (kept n ttl now history).filter (recent ttl later) = kept n ttl later history := by
  unfold kept
  rw [filter_take (h.latest.recent_first.sublist List.filter_sublist), List.filter_filter]
  congr 1
  refine List.filter_congr fun touch _ => ?_
  unfold recent
  rw [Bool.eq_iff_iff]
  simp only [Bool.and_eq_true, decide_eq_true_eq]
  omega

/-- Of a list with each key once, cutting commutes with dropping a key, but for the last place. -/
theorem take_filter_key {l : List (K × ℤ)} (hl : (l.map Prod.fst).Nodup) (k : K) (m : ℕ) :
    ((l.take (m + 1)).filter fun touch => touch.1 ≠ k).take m =
      (l.filter fun touch => touch.1 ≠ k).take m := by
  induction l generalizing m with
  | nil => rfl
  | cons touch l ih =>
    rw [List.map_cons, List.nodup_cons] at hl
    rw [List.take_succ_cons]
    by_cases hk : touch.1 = k
    · -- The key is not in the rest, so nothing more is dropped.
      have hrest : ∀ other ∈ l, decide (other.1 ≠ k) = true := fun other hother =>
        decide_eq_true fun heq => hl.1 (hk.trans heq.symm ▸ List.mem_map_of_mem hother)
      rw [List.filter_cons_of_neg (by simpa using hk), List.filter_cons_of_neg (by simpa using hk),
        List.filter_eq_self.mpr fun other hother => hrest other (List.mem_of_mem_take hother),
        List.filter_eq_self.mpr hrest, List.take_take, Nat.min_self]
    · rw [List.filter_cons_of_pos (by simpa using hk), List.filter_cons_of_pos (by simpa using hk)]
      cases m with
      | zero => rfl
      | succ m => rw [List.take_succ_cons, List.take_succ_cons, ih hl.2]

/-- A touch puts its key in front of the other keys that are kept. -/
theorem kept_touch (httl : 0 ≤ ttl) (k : K) :
    kept n ttl now ((k, now) :: history) =
      ((k, now) :: (kept n ttl now history).filter fun touch => touch.1 ≠ k).take n := by
  have hnow : recent ttl now (k, now) = true := decide_eq_true (by dsimp only; omega)
  unfold kept
  rw [latest, List.filter_cons_of_pos hnow, List.filter_filter]
  cases n with
  | zero => rfl
  | succ n =>
    have hnodup := (nodup_latest history).sublist (List.filter_sublist (p := recent ttl now)|>.map _)
    rw [List.take_succ_cons, List.take_succ_cons, take_filter_key hnodup, List.filter_filter]
    congr 2
    exact List.filter_congr fun touch _ => Bool.and_comm _ _

/-- A key is kept exactly if its last touch is recent and fewer than `n` other keys were touched
since. -/
theorem mem_kept_iff (h : Ordered history) {k : K} :
    k ∈ (kept n ttl now history).map Prod.fst ↔
      ∃ since u before, history = since ++ (k, u) :: before ∧ k ∉ since.map Prod.fst ∧
        now - u ≤ ttl ∧ (since.map Prod.fst).toFinset.card < n := by
  -- Around a recent last touch, what is recent of the others is all that was touched since.
  have hsplit : ∀ since u before, history = since ++ (k, u) :: before → k ∉ since.map Prod.fst →
      now - u ≤ ttl → ∃ rest, (latest history).filter (recent ttl now) =
        latest since ++ (k, u) :: rest := by
    rintro since u before rfl hsince hrecent
    obtain ⟨rest, hlatest⟩ := @latest_append_cons _ _ since before k u hsince
    have hfirst := @Ordered.recent_first _ ttl now _ h.latest
    rw [hlatest] at hfirst ⊢
    have hu : recent ttl now (k, u) = true := decide_eq_true hrecent
    have hall : ∀ touch ∈ latest since, recent ttl now touch = true := fun touch htouch =>
      (List.pairwise_append.mp hfirst).2.2 touch htouch (k, u) List.mem_cons_self hu
    rw [List.filter_append, List.filter_eq_self.mpr hall, List.filter_cons_of_pos hu]
    exact ⟨_, rfl⟩
  unfold kept
  constructor
  · intro hk
    obtain ⟨touch, htouch, rfl⟩ := List.mem_map.mp hk
    have hmem := List.mem_of_mem_take htouch
    obtain ⟨hlatest, hrecent⟩ := List.mem_filter.mp hmem
    -- The first occurrence of the key in the history is its last touch.
    have hkey : touch.1 ∈ history.map Prod.fst :=
      List.mem_map_of_mem ((latest_sublist history).subset hlatest)
    obtain ⟨keys, keys', heq, hfirst⟩ := List.eq_append_cons_of_mem hkey
    obtain ⟨since, tail, rfl, rfl, htail⟩ := List.map_eq_append_iff.mp heq
    obtain ⟨⟨k, u⟩, before, rfl, hk', rfl⟩ := List.map_eq_cons_iff.mp htail
    obtain ⟨rest, hrest⟩ := @latest_append_cons _ _ since before k u (by rwa [← hk'] at hfirst)
    obtain rfl : touch = (k, u) := by
      refine List.inj_on_of_nodup_map (nodup_latest _) hlatest ?_ hk'.symm
      rw [hrest]
      exact List.mem_append_right _ List.mem_cons_self
    obtain ⟨rest', hfilter⟩ := hsplit since u before rfl hfirst (of_decide_eq_true hrecent)
    refine ⟨since, u, before, rfl, hfirst, of_decide_eq_true hrecent, ?_⟩
    rw [← length_latest]
    by_contra hfull
    rw [hfilter, List.take_append_of_le_length (not_lt.mp hfull)] at htouch
    exact hfirst (mem_keys_latest.mp (List.mem_map_of_mem (List.mem_of_mem_take htouch)))
  · rintro ⟨since, u, before, hhistory, hsince, hrecent, hcard⟩
    obtain ⟨rest, hfilter⟩ := hsplit since u before hhistory hsince hrecent
    rw [hfilter]
    rw [← length_latest] at hcard
    refine List.mem_map.mpr ⟨(k, u), ?_, rfl⟩
    rw [List.take_append, List.mem_append]
    refine .inr ?_
    rw [show n - (latest since).length = (n - (latest since).length - 1) + 1 by omega,
      List.take_succ_cons]
    exact List.mem_cons_self

end Latest

end Store
