import Mathlib.Data.List.Infix

/-!
# Search in a text

`std::string::find`, the place of the first occurrence of a word. What follows an occurrence does not
change where it is found, so a search in a text that grows at its end is settled by the first occurrence.
-/

namespace Text

variable {α : Type} [DecidableEq α]

/-- The place of the first occurrence of a word in a text. -/
def find (word : List α) : List α → Option ℕ
  | [] => if word = [] then some 0 else none
  | a :: l => if word <+: a :: l then some 0 else (find word l).map (· + 1)

variable {word l : List α} {i : ℕ}

/-- A word is found where it stands. -/
theorem drop_of_find (h : find word l = some i) : i ≤ l.length ∧ word <+: l.drop i := by
  induction l generalizing i with
  | nil =>
    unfold find at h
    split_ifs at h with hword
    cases h
    exact ⟨Nat.le_refl 0, hword ▸ List.nil_prefix⟩
  | cons a l ih =>
    unfold find at h
    split_ifs at h with hword
    · cases h
      exact ⟨Nat.zero_le _, hword⟩
    · obtain ⟨j, hj, rfl⟩ := Option.map_eq_some_iff.mp h
      obtain ⟨hle, hstart⟩ := ih hj
      exact ⟨Nat.succ_le_succ hle, hstart⟩

/-- A word is found exactly if it occurs. -/
theorem find_ne_none_iff : find word l ≠ none ↔ word <:+: l := by
  constructor
  · intro h
    obtain ⟨i, hi⟩ := Option.ne_none_iff_exists'.mp h
    exact (drop_of_find hi).2.isInfix.trans (List.drop_suffix i l).isInfix
  · intro h
    induction l with
    | nil =>
      unfold find
      rw [if_pos (List.infix_nil.mp h)]
      exact Option.some_ne_none 0
    | cons a l ih =>
      unfold find
      split_ifs with hword
      · exact Option.some_ne_none 0
      · have hrest := ih ((List.infix_cons_iff.mp h).resolve_left hword)
        exact fun hnone => hrest (Option.map_eq_none_iff.mp hnone)

/-- An occurrence is still the first one when the text goes on. -/
theorem find_append (h : find word l = some i) (m : List α) : find word (l ++ m) = some i := by
  induction l generalizing i with
  | nil =>
    unfold find at h
    split_ifs at h with hword
    cases h
    subst hword
    cases m with
    | nil => rfl
    | cons a m => exact if_pos List.nil_prefix
  | cons a l ih =>
    unfold find at h
    rw [List.cons_append, find]
    have hgrown : word <+: a :: l → word <+: a :: (l ++ m) := fun hp => hp.trans (List.prefix_append (a :: l) m)
    split_ifs at h with hword
    · rw [if_pos (hgrown hword)]
      exact h
    · obtain ⟨j, hj, rfl⟩ := Option.map_eq_some_iff.mp h
      -- the word fits into the text, so it does not reach into what follows
      have hlength : word.length ≤ (a :: l).length := by
        have := (drop_of_find hj).2.length_le
        rw [List.length_drop] at this
        rw [List.length_cons]
        omega
      have hnot : ¬word <+: a :: (l ++ m) := fun hp =>
        hword (List.prefix_of_prefix_length_le hp (List.prefix_append (a :: l) m) hlength)
      rw [if_neg hnot, ih hj]
      rfl

/-- An occurrence in the start of a text is one in the text. -/
theorem find_ne_none_of_start {m : List α} (hlm : l <+: m) (h : find word l ≠ none) : find word m ≠ none :=
  find_ne_none_iff.mpr ((find_ne_none_iff.mp h).trans hlm.isInfix)

end Text
