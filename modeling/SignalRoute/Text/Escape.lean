import Mathlib.Data.List.Basic

/-!
# Escaped text

An escaping writes some characters as a mark and a letter, so that they do not occur by themselves in
the text written. `escape` writes, `unescape` reads the whole text back, and `read` reads up to the
first character `stop` that no mark precedes.

`Body` is the grammar of what can be read: plain characters, and marks with a letter. A scanner of such
text that keeps its own flags is related to it by induction over `Body`, one case for each of the two.
-/

namespace Text

/-- Which characters are written as the mark and a letter, and what a letter means after the mark. -/
structure Escaping (α : Type) where
  mark : α
  letter : α → Option α
  meaning : α → Option α
  meaning_letter : ∀ a b, letter a = some b → meaning b = some a
  letter_mark : letter mark ≠ none

namespace Escaping

variable {α : Type} (e : Escaping α)

/-- How one character is written. -/
def write (a : α) : List α :=
  match e.letter a with
  | none => [a]
  | some b => [e.mark, b]

/-- The written text. -/
def escape (l : List α) : List α := l.flatMap e.write

/-- Texts of plain characters and marks with a letter. -/
inductive Body (plain : α → Prop) : List α → Prop where
  | nil : Body plain []
  | plain {a : α} {l : List α} (hmark : a ≠ e.mark) (ha : plain a) (hl : Body plain l) : Body plain (a :: l)
  | escaped {b c : α} {l : List α} (hb : e.meaning b = some c) (hl : Body plain l) :
      Body plain (e.mark :: b :: l)

@[simp] theorem escape_nil : e.escape [] = [] := rfl

/-- The written text is written character by character. -/
theorem escape_cons (a : α) (l : List α) : e.escape (a :: l) = e.write a ++ e.escape l := rfl

/-- A character without a letter is not the mark. -/
theorem ne_mark_of_letter_eq_none {a : α} (h : e.letter a = none) : a ≠ e.mark := by
  rintro rfl
  exact e.letter_mark h

/-- What is written is a text of this grammar. -/
theorem body_escape {plain : α → Prop} {l : List α} (h : ∀ a ∈ l, e.letter a = none → plain a) :
    e.Body plain (e.escape l) := by
  induction l with
  | nil => exact .nil
  | cons a l ih =>
    obtain ⟨ha, hl⟩ := List.forall_mem_cons.mp h
    rw [escape_cons, write]
    cases hletter : e.letter a with
    | none => exact .plain (e.ne_mark_of_letter_eq_none hletter) (ha hletter) (ih hl)
    | some b => exact .escaped (e.meaning_letter a b hletter) (ih hl)

/-- What occurs in a written text: characters without a letter, the mark, and letters. -/
theorem mem_escape {a : α} {l : List α} (h : a ∈ e.escape l) :
    (a ∈ l ∧ e.letter a = none) ∨ a = e.mark ∨ ∃ c, e.letter c = some a := by
  obtain ⟨c, hc, ha⟩ := List.mem_flatMap.mp h
  unfold write at ha
  cases hletter : e.letter c with
  | none =>
    rw [hletter] at ha
    obtain rfl := List.mem_singleton.mp ha
    exact .inl ⟨hc, hletter⟩
  | some b =>
    rw [hletter] at ha
    obtain rfl | hb := List.mem_cons.mp ha
    · exact .inr (.inl rfl)
    · exact .inr (.inr ⟨c, (List.mem_singleton.mp hb) ▸ hletter⟩)

/-- A weaker condition on the plain characters. -/
theorem Body.imp {plain plain' : α → Prop} {l : List α} (h : e.Body plain l)
    (himp : ∀ a, plain a → plain' a) : e.Body plain' l := by
  induction h with
  | nil => exact .nil
  | plain hmark ha _ ih => exact .plain hmark (himp _ ha) ih
  | escaped hb _ ih => exact .escaped hb ih

/-- Two texts one after the other. -/
theorem Body.append {plain : α → Prop} {l m : List α} (hl : e.Body plain l) (hm : e.Body plain m) :
    e.Body plain (l ++ m) := by
  induction hl with
  | nil => exact hm
  | plain hmark ha _ ih => exact .plain hmark ha ih
  | escaped hb _ ih => exact .escaped hb ih

/-- A text that starts with another character than the mark. -/
theorem body_cons_iff {plain : α → Prop} {a : α} {l : List α} (hmark : a ≠ e.mark) :
    e.Body plain (a :: l) ↔ plain a ∧ e.Body plain l := by
  constructor
  · generalize ht : a :: l = t
    intro h
    cases h with
    | nil => cases ht
    | plain _ ha hl =>
      cases ht
      exact ⟨ha, hl⟩
    | escaped _ _ => exact absurd (List.cons.inj ht).1 hmark
  · exact fun h => .plain hmark h.1 h.2

/-- A text that starts with the mark. -/
theorem body_mark_iff {plain : α → Prop} {l : List α} :
    e.Body plain (e.mark :: l) ↔ ∃ b c m, l = b :: m ∧ e.meaning b = some c ∧ e.Body plain m := by
  constructor
  · generalize ht : e.mark :: l = t
    intro h
    cases h with
    | nil => cases ht
    | plain hmark _ _ => exact absurd (List.cons.inj ht).1.symm hmark
    | @escaped b c m hb hm => exact ⟨b, c, m, (List.cons.inj ht).2, hb, hm⟩
  · rintro ⟨b, c, m, rfl, hb, hm⟩
    exact .escaped hb hm

/-- A character that is not plain does not follow a text without a mark. -/
theorem Body.not_append {plain plain' : α → Prop} {l m : List α} {a : α} (hl : e.Body plain l)
    (hmark : a ≠ e.mark) (ha : ¬plain' a) : ¬e.Body plain' (l ++ a :: m) := by
  induction hl with
  | nil => exact fun h => ha ((e.body_cons_iff hmark).mp h).1
  | plain hne _ _ ih => exact fun h => ih ((e.body_cons_iff hne).mp h).2
  | escaped _ _ ih =>
    intro h
    obtain ⟨b, c, n, heq, -, hn⟩ := e.body_mark_iff.mp h
    obtain ⟨rfl, rfl⟩ := List.cons.inj heq
    exact ih hn

/-- A text is plain, or the first of its characters that is not can be found. -/
theorem Body.plain_or {plain : α → Prop} {l : List α} (h : e.Body (fun _ => True) l) :
    e.Body plain l ∨ ∃ m a n, l = m ++ a :: n ∧ e.Body plain m ∧ a ≠ e.mark ∧ ¬plain a ∧
      e.Body (fun _ => True) n := by
  induction h with
  | nil => exact .inl .nil
  | @plain a l hmark _ hl ih =>
    by_cases ha : plain a
    · obtain hplain | ⟨m, b, n, rfl, hm, hb, hbad, hn⟩ := ih
      · exact .inl (.plain hmark ha hplain)
      · exact .inr ⟨a :: m, b, n, rfl, .plain hmark ha hm, hb, hbad, hn⟩
    · exact .inr ⟨[], a, l, rfl, .nil, hmark, ha, hl⟩
  | escaped hb _ ih =>
    obtain hplain | ⟨m, a, n, rfl, hm, ha, hbad, hn⟩ := ih
    · exact .inl (.escaped hb hplain)
    · exact .inr ⟨_, a, n, rfl, .escaped hb hm, ha, hbad, hn⟩

section Reading

variable [DecidableEq α]

/-- The text that was written; a mark without a letter that means something is an error. -/
def unescape : List α → Option (List α)
  | [] => some []
  | a :: l =>
    if a = e.mark then
      match l with
      | [] => none
      | b :: l => (e.meaning b).bind fun c => (unescape l).map (c :: ·)
    else (unescape l).map (a :: ·)

/-- The text that was written before the first `stop` without a mark, and what follows it. -/
def read (stop : α) : List α → Option (List α × List α)
  | [] => none
  | a :: l =>
    if a = stop then some ([], l)
    else if a = e.mark then
      match l with
      | [] => none
      | b :: l => (e.meaning b).bind fun c => (read stop l).map fun r => (c :: r.1, r.2)
    else (read stop l).map fun r => (a :: r.1, r.2)

theorem unescape_cons_of_ne {a : α} (l : List α) (h : a ≠ e.mark) :
    e.unescape (a :: l) = (e.unescape l).map (a :: ·) := by
  rw [unescape.eq_def]
  exact if_neg h

theorem unescape_mark_cons (b : α) (l : List α) :
    e.unescape (e.mark :: b :: l) = (e.meaning b).bind fun c => (e.unescape l).map (c :: ·) := by
  rw [unescape.eq_def]
  exact if_pos rfl

theorem read_stop (stop : α) (l : List α) : e.read stop (stop :: l) = some ([], l) := by
  rw [read.eq_def]
  exact if_pos rfl

theorem read_cons_of_ne {stop a : α} (l : List α) (hstop : a ≠ stop) (hmark : a ≠ e.mark) :
    e.read stop (a :: l) = (e.read stop l).map fun r => (a :: r.1, r.2) := by
  rw [read.eq_def]
  exact (if_neg hstop).trans (if_neg hmark)

theorem read_mark_cons {stop : α} (b : α) (l : List α) (hmark : e.mark ≠ stop) : e.read stop (e.mark :: b :: l) =
    (e.meaning b).bind fun c => (e.read stop l).map fun r => (c :: r.1, r.2) := by
  rw [read.eq_def]
  exact (if_neg hmark).trans (if_pos rfl)

/-- What is written is read back. -/
theorem unescape_escape (l : List α) : e.unescape (e.escape l) = some l := by
  induction l with
  | nil => rfl
  | cons a l ih =>
    rw [escape_cons, write]
    cases hletter : e.letter a with
    | none =>
      show e.unescape (a :: e.escape l) = _
      rw [e.unescape_cons_of_ne _ (e.ne_mark_of_letter_eq_none hletter), ih]
      rfl
    | some b =>
      show e.unescape (e.mark :: b :: e.escape l) = _
      rw [unescape_mark_cons, e.meaning_letter a b hletter, Option.bind_some, ih]
      rfl

/-- What is written before a character with a letter is read up to it. -/
theorem read_escape {stop : α} (hstop : e.letter stop ≠ none) (hmark : e.mark ≠ stop) (l rest : List α) :
    e.read stop (e.escape l ++ stop :: rest) = some (l, rest) := by
  induction l with
  | nil => exact e.read_stop stop rest
  | cons a l ih =>
    rw [escape_cons, write]
    cases hletter : e.letter a with
    | none =>
      have hne : a ≠ stop := by
        rintro rfl
        exact hstop hletter
      show e.read stop (a :: (e.escape l ++ stop :: rest)) = _
      rw [e.read_cons_of_ne _ hne (e.ne_mark_of_letter_eq_none hletter), ih]
      rfl
    | some b =>
      show e.read stop (e.mark :: b :: (e.escape l ++ stop :: rest)) = _
      rw [e.read_mark_cons _ _ hmark, e.meaning_letter a b hletter, Option.bind_some, ih]
      rfl

/-- The grammar is what can be read. -/
theorem body_iff_unescape (l : List α) : e.Body (fun _ => True) l ↔ (e.unescape l).isSome := by
  constructor
  · intro h
    induction h with
    | nil => rfl
    | plain hmark _ _ ih => rw [e.unescape_cons_of_ne _ hmark, Option.isSome_map, ih]
    | escaped hb _ ih => rw [unescape_mark_cons, hb, Option.bind_some, Option.isSome_map, ih]
  · intro h
    fun_induction e.unescape l with
    | case1 => exact .nil
    | case2 => cases h
    | case3 b l ih =>
      cases hb : e.meaning b with
      | none =>
        rw [hb] at h
        cases h
      | some c =>
        rw [hb, Option.bind_some, Option.isSome_map] at h
        exact .escaped hb (ih h)
    | case4 a l hmark ih =>
      rw [Option.isSome_map] at h
      exact .plain hmark trivial (ih h)

end Reading

/-- The letters of the five escapes of C strings: the quote, the backslash, and three control characters. -/
def letterOf : Char → Option Char
  | '\\' => some '\\'
  | '"' => some '"'
  | '\n' => some 'n'
  | '\r' => some 'r'
  | '\t' => some 't'
  | _ => none

/-- What the letters mean. -/
def meaningOf : Char → Option Char
  | '\\' => some '\\'
  | '"' => some '"'
  | 'n' => some '\n'
  | 'r' => some '\r'
  | 't' => some '\t'
  | _ => none

/-- Quoted text with these five escapes. -/
def quoted : Escaping Char where
  mark := '\\'
  letter := letterOf
  meaning := meaningOf
  meaning_letter a b h := by
    unfold letterOf at h
    split at h <;> cases h <;> rfl
  letter_mark h := by cases h

end Escaping
end Text
