import SignalRoute.Config.File

/-!
# Strings in the configuration file

Every string can be written in a configuration file: escaped, in quotes, it is read back whatever it
contains (`get_string_config_line`).

The converse does not hold. `unquote` does not look for quotes between the first and the last character
of a value, and `strip_comment` lets a value have any number of them. So a value is read as one string
that is two strings, or a string whose quote is missing and its comment up to a quote
(`exists_unquote_iff`).
-/

namespace SignalRoute.Config

open Text (Escaping)

section Unquote

variable {path : String} {line_no : ℕ}

/-- Two readers that agree agree after the same map. -/
theorem map_ok_iff {α β : Type} {x : Except Exception α} {y : Option α} (f : α → β)
    (h : ∀ a, x = .ok a ↔ y = some a) (b : β) : x.map f = .ok b ↔ y.map f = some b := by
  cases x with
  | error e =>
    cases y with
    | none => exact iff_of_false (fun h => by cases h) (fun h => by cases h)
    | some a => cases (h a).mpr rfl
  | ok a =>
    rw [(h a).mp rfl]
    exact ⟨fun h => by cases h; rfl, fun h => by cases h; rfl⟩

/-- The loop reads escaped text. -/
theorem unquote_from_ok_iff (l m : List Char) :
    unquote_from path line_no false l = .ok m ↔ Escaping.quoted.unescape l = some m := by
  fun_induction Escaping.quoted.unescape l generalizing m with
  | case1 => exact ⟨fun h => by cases h; rfl, fun h => by cases h; rfl⟩
  | case2 => exact iff_of_false (fun h => by cases h) (fun h => by cases h)
  | case3 b l ih =>
    show unquote_from path line_no true (b :: l) = .ok m ↔
      ((Escaping.meaningOf b).bind fun c => (Escaping.quoted.unescape l).map (c :: ·)) = some m
    rw [unquote_from, if_pos rfl]
    cases Escaping.meaningOf b with
    | none => exact iff_of_false (fun h => by cases h) (fun h => by cases h)
    | some c => exact map_ok_iff (c :: ·) ih m
  | case4 a l hmark ih =>
    have hplain : unquote_from path line_no false (a :: l) =
        (unquote_from path line_no false l).map (a :: ·) := if_neg hmark
    rw [hplain]
    exact map_ok_iff (a :: ·) ih m

/-- A value that is read as a string: two quotes, and escaped text between them. -/
theorem unquote_ok_iff (raw m : List Char) : unquote raw path line_no = .ok m ↔
    ∃ inner, raw = '"' :: (inner ++ ['"']) ∧ Escaping.quoted.unescape inner = some m := by
  unfold unquote
  by_cases hends : raw.length < 2 ∨ raw.head? ≠ some '"' ∨ raw.getLast? ≠ some '"'
  · rw [if_pos hends]
    refine iff_of_false (fun h => by cases h) ?_
    rintro ⟨inner, rfl, -⟩
    obtain hlength | hhead | hlast := hends
    · rw [List.length_cons, List.length_append] at hlength
      exact absurd hlength (by simp)
    · exact hhead rfl
    · rw [← List.cons_append, List.getLast?_concat] at hlast
      exact hlast rfl
  · obtain ⟨hlength, hhead, hlast⟩ := not_or.mp hends |>.imp_right not_or.mp
    rw [not_not] at hhead hlast
    rw [if_neg hends, unquote_from_ok_iff]
    obtain ⟨first, rest, rfl⟩ : ∃ first rest, raw = first :: rest := by
      cases raw with
      | nil => cases hhead
      | cons first rest => exact ⟨first, rest, rfl⟩
    cases hhead
    have hne : rest ≠ [] := by
      rintro rfl
      exact hlength (by decide)
    rw [List.getLast?_cons_of_ne_nil hne] at hlast
    have hsplit := List.dropLast_append_getLast? _ hlast
    constructor
    · intro h
      exact ⟨rest.dropLast, by rw [hsplit], h⟩
    · rintro ⟨inner, heq, h⟩
      rw [List.tail_cons, (List.cons.inj heq).2, List.dropLast_concat]
      exact h

/-- What is written between quotes is read. -/
theorem unquote_escape (s : List Char) :
    unquote ('"' :: (Escaping.quoted.escape s ++ ['"'])) path line_no = .ok s :=
  (unquote_ok_iff _ s).mpr ⟨_, rfl, Escaping.quoted.unescape_escape s⟩

end Unquote

/-- A key as it can be written in a line. -/
structure IsKey (key : List Char) : Prop where
  nonempty : key ≠ []
  equals : '=' ∉ key
  hash : '#' ∉ key
  quote : '"' ∉ key
  bracket : key.head? ≠ some '['
  trimmed : Trimmed key

/-- The line of a key with a string, and perhaps a comment. -/
def config_line (key s blanks : List Char) (comment : Option (List Char)) : List Char :=
  key ++ ([' ', '=', ' '] ++ '"' :: (Escaping.quoted.escape s ++ '"' :: (blanks ++
    match comment with
    | none => []
    | some text => '#' :: text)))

section ConfigLine

variable {key : List Char} (hkey : IsKey key) (s : List Char) {blanks : List Char}
  (hblanks : ∀ c ∈ blanks, Numeric.isspace c = true) (comment : Option (List Char))

include hkey hblanks in
/-- The comment scanner stops at the comment, and the line ends with the quote. -/
theorem trim_strip_config_line : trim (strip_comment (config_line key s blanks comment)) =
    key ++ ([' ', '=', ' '] ++ '"' :: (Escaping.quoted.escape s ++ ['"'])) := by
  have hbody : Escaping.quoted.Body (fun c => c ≠ '"') (Escaping.quoted.escape s) := by
    refine Escaping.quoted.body_escape fun c _ hletter => ?_
    rintro rfl
    cases hletter
  have hfixed : ∀ c ∈ [' ', '=', ' '], c ≠ '"' ∧ c ≠ '#' := by simp
  have hplain : ∀ c ∈ key ++ [' ', '=', ' '], c ≠ '"' ∧ c ≠ '#' := by
    intro c hc
    obtain hc | hc := List.mem_append.mp hc
    · exact ⟨fun h => hkey.quote (h ▸ hc), fun h => hkey.hash (h ▸ hc)⟩
    · exact hfixed c hc
  have hspace : ∀ c ∈ blanks, c ≠ '"' ∧ c ≠ '#' := by
    intro c hc
    constructor
    · rintro rfl
      cases hblanks _ hc
    · rintro rfl
      cases hblanks _ hc
  have hcomment : strip_comment_from false false (blanks ++
      match comment with
      | none => []
      | some text => '#' :: text) = blanks := by
    rw [strip_comment_from_plain hspace]
    cases comment with
    | none => exact List.append_nil _
    | some text => exact List.append_nil _
  have hstrip : strip_comment (config_line key s blanks comment) =
      key ++ ([' ', '=', ' '] ++ '"' :: (Escaping.quoted.escape s ++ ['"'])) ++ blanks := by
    unfold strip_comment config_line
    rw [← List.append_assoc, strip_comment_from_plain hplain]
    show key ++ [' ', '=', ' '] ++ '"' :: strip_comment_from true false _ = _
    rw [strip_comment_from_body hbody]
    show key ++ [' ', '=', ' '] ++ '"' :: (Escaping.quoted.escape s ++ '"' :: strip_comment_from false false _) = _
    rw [hcomment]
    simp
  rw [hstrip]
  refine trim_between (fun c hc => absurd hc List.not_mem_nil) ⟨?_, ?_⟩ hblanks
  · intro c hc
    rw [List.head?_append_of_ne_nil _ hkey.nonempty] at hc
    exact hkey.trimmed.1 c hc
  · intro c hc
    rw [← List.cons_append, ← List.append_assoc, ← List.append_assoc, List.getLast?_concat] at hc
    cases hc
    rfl

include hkey in
/-- The first `=` of the line is the one after the key. -/
theorem key_value_config_line :
    key_of (key ++ ([' ', '=', ' '] ++ '"' :: (Escaping.quoted.escape s ++ ['"']))) = key ∧
      value_of (key ++ ([' ', '=', ' '] ++ '"' :: (Escaping.quoted.escape s ++ ['"']))) =
        '"' :: (Escaping.quoted.escape s ++ ['"']) := by
  have hnot : ∀ c ∈ key, decide (c ≠ '=') = true := fun c hc =>
    decide_eq_true fun h => hkey.equals (h ▸ hc)
  have hspace : ∀ c ∈ [' '], Numeric.isspace c = true := List.forall_mem_singleton.mpr rfl
  constructor
  · unfold key_of
    rw [List.takeWhile_append_of_pos hnot]
    show trim (key ++ [' ']) = key
    exact trim_between (fun c hc => absurd hc List.not_mem_nil) hkey.trimmed hspace
  · unfold value_of
    rw [List.dropWhile_append_of_pos hnot]
    show trim ([' '] ++ '"' :: (Escaping.quoted.escape s ++ ['"'])) = _
    have htrim := trim_between hspace (trimmed_quoted (Escaping.quoted.escape s))
      (fun c (hc : c ∈ []) => absurd hc List.not_mem_nil)
    rw [List.append_nil] at htrim
    exact htrim

include hkey hblanks in
/-- In a section, the line assigns the key the string in its quotes. -/
theorem parse_config_line (path : String) (line_no : ℕ) {p : Parsed} (hsection : p.current_section ≠ "") :
    ∃ p', parse_line path line_no p (config_line key s blanks comment) = .ok p' ∧
      raw_value p'.sections p.current_section (String.ofList key) =
        some (String.ofList ('"' :: (Escaping.quoted.escape s ++ ['"']))) := by
  obtain ⟨hkey_of, hvalue_of⟩ := key_value_config_line hkey s
  have hhead : (key ++ ([' ', '=', ' '] ++ '"' :: (Escaping.quoted.escape s ++ ['"']))).head? ≠ some '[' := by
    rw [List.head?_append_of_ne_nil _ hkey.nonempty]
    exact hkey.bracket
  unfold parse_line
  rw [trim_strip_config_line hkey s hblanks comment]
  dsimp only
  rw [if_neg (List.append_ne_nil_of_left_ne_nil hkey.nonempty _), if_neg hhead, if_neg (by simp),
    if_neg hsection, hkey_of, hvalue_of, if_neg hkey.nonempty, if_neg (List.cons_ne_nil _ _)]
  refine ⟨_, rfl, ?_⟩
  rw [raw_value_eq, section_of_insert, if_pos rfl, AList.lookup_insert]

include hkey hblanks in
/-- A string in a line of a section is read back, whatever its characters are, unless a later line of the
file assigns the key again. -/
theorem get_string_config_line {path : String} {before : List (List Char)} {p : Parsed}
    (hbefore : parse_lines path 0 {} before = .ok p) (hsection : p.current_section ≠ "") :
    ∃ p', parse_lines path 0 {} (before ++ [config_line key s blanks comment]) = .ok p' ∧
      ∀ text after sections fallback, Text.lines text = before ++ config_line key s blanks comment :: after →
        Unassigned path p.current_section (String.ofList key) (before.length + 1) p' after →
        parse_file path (some text) = .ok sections →
        get_string sections p.current_section (String.ofList key) fallback path = .ok (String.ofList s) := by
  obtain ⟨p', hparse, hraw⟩ := parse_config_line hkey s hblanks comment path (before.length + 1) hsection
  have hline (after : List (List Char)) :
      parse_lines path 0 {} (before ++ config_line key s blanks comment :: after) =
        parse_lines path (before.length + 1) p' after := by
    rw [parse_lines_append, hbefore, Nat.zero_add]
    dsimp only
    rw [parse_lines, hparse]
  refine ⟨p', hline [], fun text after sections fallback htext hafter hfile => ?_⟩
  unfold parse_file at hfile
  dsimp only at hfile
  rw [htext, hline] at hfile
  cases hlast : parse_lines path (before.length + 1) p' after with
  | error e =>
    rw [hlast] at hfile
    cases hfile
  | ok last =>
    rw [hlast] at hfile
    cases hfile
    unfold get_string
    rw [raw_value_of_unassigned hafter hlast, hraw]
    dsimp only
    rw [String.toList_ofList, unquote_escape]
    rfl

end ConfigLine

/-- A string of the characters that a line gives a meaning to. -/
def tricky : List Char := [' ', '#', '"', '\\', '=', '\n', ']', ' ']

/-- A file with this string, and a comment with a quote. -/
def tricky_file : List Char :=
  ['[', 's', ']', '\n'] ++ config_line ['k'] tricky [' '] (some ['"'])

/-- The string is read back. -/
theorem get_string_config_line_tricky : ∃ sections, parse_file "f" (some tricky_file) = .ok sections ∧
    get_string sections "s" "k" "" "f" = .ok (String.ofList tricky) := by
  have hkey : IsKey ['k'] := by
    refine ⟨by decide, by decide, by decide, by decide, by decide, ?_, ?_⟩
    · rintro c ⟨⟩
      rfl
    · rintro c ⟨⟩
      rfl
  have hblank : ∀ c ∈ [' '], Numeric.isspace c = true := List.forall_mem_singleton.mpr rfl
  have hbefore : parse_lines "f" 0 {} [['[', 's', ']']] = .ok ⟨AList.insert "s" ∅ ∅, "s"⟩ := rfl
  obtain ⟨p', hparse, hread⟩ := get_string_config_line hkey tricky hblank (some ['"']) hbefore (by decide)
  have hfile : parse_file "f" (some tricky_file) = .ok p'.sections := by
    show (parse_lines "f" 0 {} [['[', 's', ']'], config_line ['k'] tricky [' '] (some ['"'])]).map
      Parsed.sections = _
    exact congrArg (Except.map Parsed.sections) hparse
  exact ⟨_, hfile, hread tricky_file [] _ "" rfl trivial hfile⟩

/-- A well-formed string: a quote, characters and escapes without a bare quote, and a quote. -/
def WellFormed (raw : List Char) : Prop :=
  ∃ inner, raw = '"' :: (inner ++ ['"']) ∧ Escaping.quoted.Body (fun c => c ≠ '"') inner

/-- A value in quotes that has one more quote without a backslash between them. -/
def StrayQuote (raw : List Char) : Prop :=
  ∃ a b, raw = '"' :: (a ++ '"' :: (b ++ ['"'])) ∧ Escaping.quoted.Body (fun _ => True) a ∧
    Escaping.quoted.Body (fun _ => True) b

/-- What is read is well formed or has a stray quote, and not both. -/
theorem exists_unquote_iff {path : String} {line_no : ℕ} (raw : List Char) :
    ((∃ m, unquote raw path line_no = .ok m) ↔ WellFormed raw) ↔ ¬StrayQuote raw := by
  have haccepts : (∃ m, unquote raw path line_no = .ok m) ↔
      ∃ inner, raw = '"' :: (inner ++ ['"']) ∧ Escaping.quoted.Body (fun _ => True) inner := by
    simp only [unquote_ok_iff, Escaping.body_iff_unescape, Option.isSome_iff_exists]
    constructor
    · rintro ⟨m, inner, hraw, hm⟩
      exact ⟨inner, hraw, m, hm⟩
    · rintro ⟨inner, hraw, m, hm⟩
      exact ⟨m, inner, hraw, hm⟩
  have hinner {l m : List Char} (h : '"' :: (l ++ ['"']) = '"' :: (m ++ ['"'])) : l = m :=
    List.append_cancel_right (List.cons.inj h).2
  rw [haccepts]
  constructor
  · rintro hiff ⟨a, b, rfl, ha, hb⟩
    have hquoted : '"' :: (a ++ '"' :: (b ++ ['"'])) = '"' :: ((a ++ '"' :: b) ++ ['"']) := by
      rw [List.append_assoc, List.cons_append]
    obtain ⟨inner, hraw, hstrict⟩ :=
      hiff.mp ⟨_, hquoted, ha.append _ (.plain (by decide) trivial hb)⟩
    rw [← hinner (hquoted.symm.trans hraw)] at hstrict
    exact ha.not_append _ (by decide) (fun h => h rfl) hstrict
  · intro hstray
    constructor
    · rintro ⟨inner, rfl, hbody⟩
      obtain hstrict | ⟨a, c, b, rfl, ha, -, hc, hb⟩ :=
        @Escaping.Body.plain_or _ Escaping.quoted (fun c => c ≠ '"') _ hbody
      · exact ⟨inner, rfl, hstrict⟩
      · obtain rfl := not_not.mp hc
        refine absurd ⟨a, b, ?_, ha.imp _ fun _ _ => trivial, hb⟩ hstray
        rw [List.append_assoc, List.cons_append]
    · rintro ⟨inner, hraw, hstrict⟩
      exact ⟨inner, hraw, hstrict.imp _ fun _ _ => trivial⟩

section Line

variable {path : String} {before after : List (List Char)} {p : Parsed} {line text : List Char}
  {entry : String × String × String}

/-- The value of a string in a file is read iff it can be unquoted, where the rest of the file has no errors
and assigns the key no more. -/
theorem get_string_line_iff (hentry : entry ∈ string_keys) (htext : Text.lines text = before ++ line :: after)
    (hbefore : parse_lines path 0 {} before = .ok p) (hsection : p.current_section = entry.1)
    (hline : line_key line = some entry.2.1)
    (hafter : ∀ p', parse_line path (before.length + 1) p line = .ok p' →
      Unassigned path entry.1 entry.2.1 (before.length + 1) p' after ∧
        ∃ last, parse_lines path (before.length + 1) p' after = .ok last) :
    (∃ sections v, parse_file path (some text) = .ok sections ∧
        get_string sections entry.1 entry.2.1 entry.2.2 path = .ok v) ↔
      ∃ m, unquote (value_of (trim (strip_comment line))) path 0 = .ok m := by
  obtain ⟨hname, hkey⟩ := string_keys_ne entry hentry
  unfold parse_file
  dsimp only
  rw [htext, parse_lines_append, hbefore, Nat.zero_add]
  dsimp only
  rw [parse_lines]
  obtain ⟨hempty, hbad⟩ | ⟨p', hok, hraw⟩ :=
    @parse_line_of_key path (before.length + 1) p line _ hline hkey (hsection ▸ hname)
  · rw [hbad, hempty]
    refine iff_of_false ?_ ?_
    · rintro ⟨sections, v, hfile, -⟩
      cases hfile
    · rintro ⟨m, hm⟩
      cases hm
  · obtain ⟨hunassigned, last, hlast⟩ := hafter p' hok
    have hget : get_string last.sections entry.1 entry.2.1 entry.2.2 path =
        (unquote (value_of (trim (strip_comment line))) path 0).map String.ofList := by
      unfold get_string
      rw [raw_value_of_unassigned hunassigned hlast, ← hsection, hraw]
      dsimp only
      rw [String.toList_ofList]
    rw [hok]
    dsimp only
    rw [hlast]
    constructor
    · rintro ⟨sections, v, hfile, hv⟩
      cases hfile
      rw [hget] at hv
      cases hm : unquote (value_of (trim (strip_comment line))) path 0 with
      | error e =>
        rw [hm] at hv
        cases hv
      | ok m => exact ⟨m, rfl⟩
    · rintro ⟨m, hm⟩
      refine ⟨last.sections, String.ofList m, rfl, ?_⟩
      rw [hget, hm]
      rfl

end Line

end SignalRoute.Config
