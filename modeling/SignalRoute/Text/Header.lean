import SignalRoute.Text.Find
import Mathlib.Data.List.Basic

/-!
# Texts with a header

Lines that end in CRLF, a blank line, and a body. The body is what follows the first blank line, whatever
it contains.
-/

namespace Text

section Find

variable {α : Type} [DecidableEq α] {a : α}

/-- A word is not found in what lacks its first letter. -/
theorem find_skip {line : List α} (h : a ∉ line) (word rest : List α) :
    find (a :: word) (line ++ rest) = (find (a :: word) rest).map (· + line.length) := by
  induction line with
  | nil => exact Option.map_id'.symm
  | cons b line ih =>
    obtain ⟨hb, hline⟩ := not_or.mp (mt List.mem_cons.mpr h)
    have hstart : ¬a :: word <+: b :: (line ++ rest) := fun hstart => hb (List.cons_prefix_cons.mp hstart).1
    rw [List.cons_append, find, if_neg hstart, ih hline, Option.map_map]
    rfl

end Find

/-- What follows the first blank line. -/
def body (text : List Char) : Option (List Char) :=
  (find ['\r', '\n', '\r', '\n'] text).map fun i => text.drop (i + 4)

/-- The blank line ends the header. -/
theorem body_blank (rest : List Char) : body ('\r' :: '\n' :: '\r' :: '\n' :: rest) = some rest := by
  have hstart : ['\r', '\n', '\r', '\n'] <+: '\r' :: '\n' :: '\r' :: '\n' :: rest := ⟨rest, rfl⟩
  rw [body, find, if_pos hstart]
  rfl

/-- A part of a line is skipped. -/
theorem body_skip {line : List Char} (h : '\r' ∉ line) (rest : List Char) : body (line ++ rest) = body rest := by
  unfold body
  rw [find_skip h, Option.map_map]
  congr 1
  funext i
  rw [Function.comp_apply, show i + line.length + 4 = line.length + (i + 4) by omega, List.drop_length_add_append]

/-- So is the end of a line, if another line follows. -/
theorem body_next {c : Char} (h : c ≠ '\r') (rest : List Char) :
    body ('\r' :: '\n' :: c :: rest) = body (c :: rest) := by
  have hstart : ¬['\r', '\n', '\r', '\n'] <+: '\r' :: '\n' :: c :: rest := fun hstart =>
    h (List.cons_prefix_cons.mp (List.cons_prefix_cons.mp (List.cons_prefix_cons.mp hstart).2).2).1.symm
  have hnext : ¬['\r', '\n', '\r', '\n'] <+: '\n' :: c :: rest := fun hstart =>
    absurd (List.cons_prefix_cons.mp hstart).1 (by decide)
  unfold body
  rw [find, if_neg hstart, find, if_neg hnext, Option.map_map, Option.map_map]
  rfl

/-- The body of a text with a header of some lines. -/
theorem body_lines {line : List Char} {lines : List (List Char)} (h : ∀ l ∈ line :: lines, l ≠ [] ∧ '\r' ∉ l)
    (rest : List Char) :
    body ((line :: lines).flatMap (· ++ ['\r', '\n']) ++ '\r' :: '\n' :: rest) = some rest := by
  induction lines generalizing line with
  | nil =>
    rw [List.flatMap_cons, List.flatMap_nil, List.append_nil, List.append_assoc,
      body_skip (h line List.mem_cons_self).2]
    exact body_blank rest
  | cons next lines ih =>
    obtain ⟨hline, hlines⟩ := List.forall_mem_cons.mp h
    have hrest := ih hlines
    obtain ⟨hne, hcr⟩ := hlines next List.mem_cons_self
    obtain ⟨c, cs, rfl⟩ := List.exists_cons_of_ne_nil hne
    rw [List.flatMap_cons, List.append_assoc, List.append_assoc, body_skip hline.2]
    rw [List.flatMap_cons] at hrest ⊢
    exact (body_next (fun hc => hcr (hc ▸ List.mem_cons_self)) _).trans hrest

end Text
