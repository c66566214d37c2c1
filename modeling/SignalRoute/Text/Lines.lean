import Mathlib.Data.List.Basic

/-!
# Lines of text

`std::getline`, which takes a text apart at its newlines. A text that is made of lines without a newline,
each with a newline at its end, is taken apart into these lines.
-/

namespace Text

/-- The lines that `std::getline` takes from a text. -/
def lines : List Char → List (List Char)
  | [] => []
  | ch :: rest =>
    if ch = '\n' then [] :: lines rest
    else
      match lines rest with
      | [] => [[ch]]
      | line :: lines => (ch :: line) :: lines

/-- A line and its newline. -/
theorem lines_append {line : List Char} (h : '\n' ∉ line) (rest : List Char) :
    lines (line ++ '\n' :: rest) = line :: lines rest := by
  induction line with
  | nil => exact if_pos rfl
  | cons ch line ih =>
    obtain ⟨hch, hline⟩ := not_or.mp (mt List.mem_cons.mpr h)
    rw [List.cons_append, lines, if_neg (Ne.symm hch), ih hline]

/-- A text of lines. -/
theorem lines_flatMap {α : Type} (line : α → List Char) (l : List α) (h : ∀ a ∈ l, '\n' ∉ line a) :
    lines (l.flatMap fun a => line a ++ ['\n']) = l.map line := by
  induction l with
  | nil => rfl
  | cons a l ih =>
    obtain ⟨ha, hl⟩ := List.forall_mem_cons.mp h
    rw [List.flatMap_cons, List.append_assoc, List.singleton_append, lines_append ha, ih hl, List.map_cons]

end Text
