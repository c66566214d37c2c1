import SignalRoute.Config.Load
import SignalRoute.Numeric.Grammar

/-!
# Files that are loaded

A file is lines with indentation, blanks and comments: blank lines, section headers, and assignments of values to
keys. It loads as a configuration exactly if the last assignment of every setting denotes its value, or there is none
and it is the default, and the configuration is valid (`load_written_iff`). The order of the sections and of the keys
does not matter, a section may be continued later, and keys that are no settings are passed over.
-/

namespace SignalRoute.Config

open Numeric (Double isspace)
open Text (Escaping)

/-- What a line has between its blanks. -/
inductive LineContent where
  | blank
  | header (name : List Char)
  | assignment (key gap gap' value : List Char)

/-- The text of it. -/
def LineContent.text : LineContent → List Char
  | blank => []
  | header name => '[' :: (name ++ [']'])
  | assignment key gap gap' value => key ++ (gap ++ '=' :: (gap' ++ value))

/-- A line of a file. -/
structure FileLine where
  indent : List Char := []
  content : LineContent
  trailing : List Char := []
  comment : Option (List Char) := none

/-- A comment and its mark. -/
def comment_text : Option (List Char) → List Char
  | none => []
  | some text => '#' :: text

/-- The text of a line. -/
def FileLine.text (line : FileLine) : List Char :=
  line.indent ++ (line.content.text ++ (line.trailing ++ comment_text line.comment))

/-- Blanks of one line. -/
def Blanks (l : List Char) : Prop := ∀ c ∈ l, isspace c = true ∧ c ≠ '\n'

/-- A name as it can be written in a header. -/
structure IsName (name : List Char) : Prop where
  nonempty : name ≠ []
  trimmed : Trimmed name
  plain : ∀ c ∈ name, c ≠ '"' ∧ c ≠ '#'
  newline : '\n' ∉ name

/-- A value as it can be written in a line: no comment starts in it. -/
structure IsValue (value : List Char) : Prop where
  nonempty : value ≠ []
  trimmed : Trimmed value
  newline : '\n' ∉ value
  scanned : ∀ rest, strip_comment_from false false (value ++ rest) = value ++ strip_comment_from false false rest

/-- A content that a line can have. -/
def LineContent.Valid : LineContent → Prop
  | blank => True
  | header name => IsName name
  | assignment key gap gap' value => (IsKey key ∧ '\n' ∉ key) ∧ Blanks gap ∧ Blanks gap' ∧ IsValue value

/-- A line that a file can have. -/
structure FileLine.Valid (line : FileLine) : Prop where
  indent : Blanks line.indent
  content : line.content.Valid
  trailing : Blanks line.trailing
  comment : ∀ text ∈ line.comment, '\n' ∉ text

/-- The section after a line. -/
def LineContent.next (current : String) : LineContent → String
  | blank => current
  | header name => String.ofList name
  | assignment _ _ _ _ => current

/-- The text that a line of a section assigns to a key. -/
def LineContent.assigns (current section_ key : String) : LineContent → Option String
  | blank => none
  | header _ => none
  | assignment key' _ _ value =>
    if section_ = current ∧ key = String.ofList key' then some (String.ofList value) else none

/-- A key is assigned in a section only. -/
def LineContent.Placed (current : String) : LineContent → Prop
  | blank => True
  | header _ => True
  | assignment _ _ _ _ => current ≠ ""

/-- The lines of a file, from one that follows `current` on. -/
def WellPlaced (current : String) : List FileLine → Prop
  | [] => True
  | line :: rest => line.Valid ∧ line.content.Placed current ∧ WellPlaced (line.content.next current) rest

/-- The text that lines assign to a key last. -/
def assigned (current section_ key : String) : List FileLine → Option String
  | [] => none
  | line :: rest =>
    (assigned (line.content.next current) section_ key rest).or (line.content.assigns current section_ key)

/-- The text of a file. -/
def file_text (lines : List FileLine) : List Char := lines.flatMap fun line => line.text ++ ['\n']

/-- Blanks are neither quotes nor marks of comments. -/
theorem Blanks.plain {l : List Char} (h : Blanks l) : ∀ c ∈ l, c ≠ '"' ∧ c ≠ '#' := by
  intro c hc
  constructor
  · rintro rfl
    exact absurd (h _ hc).1 (by decide)
  · rintro rfl
    exact absurd (h _ hc).1 (by decide)

/-- Plain text is a value. -/
theorem isValue_of_plain {value : List Char} (hne : value ≠ []) (htrimmed : Trimmed value)
    (hplain : ∀ c ∈ value, c ≠ '"' ∧ c ≠ '#') (hnewline : '\n' ∉ value) : IsValue value :=
  ⟨hne, htrimmed, hnewline, strip_comment_from_plain hplain⟩

/-- So is every string, escaped and in quotes. -/
theorem isValue_quoted (s : List Char) : IsValue ('"' :: (Escaping.quoted.escape s ++ ['"'])) where
  nonempty := List.cons_ne_nil _ _
  trimmed := trimmed_quoted _
  newline hmem := by
    obtain h | h := List.mem_cons.mp hmem
    · exact absurd h (by decide)
    obtain h | h := List.mem_append.mp h
    · obtain ⟨-, h⟩ | h | ⟨c, h⟩ := Escaping.quoted.mem_escape h
      · cases h
      · exact absurd h (by decide)
      · have hmeaning := Escaping.quoted.meaning_letter c '\n' h
        cases hmeaning
    · exact absurd (List.mem_singleton.mp h) (by decide)
  scanned rest := by
    have hbody : Escaping.quoted.Body (fun c => c ≠ '"') (Escaping.quoted.escape s) := by
      refine Escaping.quoted.body_escape fun c _ hletter => ?_
      rintro rfl
      cases hletter
    rw [List.cons_append, List.append_assoc, List.singleton_append]
    show '"' :: strip_comment_from true false (Escaping.quoted.escape s ++ '"' :: rest) = _
    rw [strip_comment_from_body hbody, List.cons_append, List.append_assoc, List.singleton_append]
    rfl

namespace LineContent

variable {content : LineContent}

/-- No comment starts in a content. -/
theorem Valid.scanned (h : content.Valid) (rest : List Char) :
    strip_comment_from false false (content.text ++ rest) = content.text ++ strip_comment_from false false rest := by
  cases content with
  | blank => rfl
  | header name =>
    refine strip_comment_from_plain (List.forall_mem_cons.mpr ⟨by decide, fun c hc => ?_⟩) rest
    obtain hc | hc := List.mem_append.mp hc
    · exact h.plain c hc
    · rw [List.mem_singleton.mp hc]
      decide
  | assignment key gap gap' value =>
    obtain ⟨⟨hkey, -⟩, hgap, hgap', hvalue⟩ := h
    have hplain : ∀ c ∈ key ++ (gap ++ '=' :: gap'), c ≠ '"' ∧ c ≠ '#' := by
      intro c hc
      obtain hc | hc := List.mem_append.mp hc
      · exact ⟨fun h => hkey.quote (h ▸ hc), fun h => hkey.hash (h ▸ hc)⟩
      obtain hc | hc := List.mem_append.mp hc
      · exact hgap.plain c hc
      obtain rfl | hc := List.mem_cons.mp hc
      · decide
      · exact hgap'.plain c hc
    have htext : text (.assignment key gap gap' value) = key ++ (gap ++ '=' :: gap') ++ value := by simp [text]
    rw [htext, List.append_assoc, strip_comment_from_plain hplain, hvalue.scanned]
    simp only [List.append_assoc]

/-- A content has no blanks around it. -/
theorem Valid.trimmed (h : content.Valid) : Trimmed content.text := by
  cases content with
  | blank => exact ⟨nofun, nofun⟩
  | header name =>
    constructor
    · rintro c ⟨⟩
      rfl
    · intro c hc
      rw [text, ← List.cons_append, List.getLast?_concat] at hc
      cases hc
      rfl
  | assignment key gap gap' value =>
    obtain ⟨⟨hkey, -⟩, -, -, hvalue⟩ := h
    constructor
    · intro c hc
      rw [text, List.head?_append_of_ne_nil _ hkey.nonempty] at hc
      exact hkey.trimmed.1 c hc
    · intro c hc
      have htext : text (.assignment key gap gap' value) = key ++ (gap ++ '=' :: gap') ++ value := by simp [text]
      rw [htext, List.getLast?_append_of_ne_nil _ hvalue.nonempty] at hc
      exact hvalue.trimmed.2 c hc

/-- A content is on one line. -/
theorem Valid.newline (h : content.Valid) : '\n' ∉ content.text := by
  cases content with
  | blank => exact List.not_mem_nil
  | header name => simpa [text] using h.newline
  | assignment key gap gap' value =>
    obtain ⟨⟨-, hkey⟩, hgap, hgap', hvalue⟩ := h
    have hblank : ∀ {l : List Char}, Blanks l → '\n' ∉ l := fun hl hmem => (hl _ hmem).2 rfl
    simp [text, hkey, hblank hgap, hblank hgap', hvalue.newline]

end LineContent

section Lines

variable {line : FileLine} (h : line.Valid)

include h in
/-- What the parser keeps of a line is its content. -/
theorem trim_strip_text : trim (strip_comment line.text) = line.content.text := by
  have hcomment : strip_comment_from false false (comment_text line.comment) = [] := by
    cases line.comment with
    | none => rfl
    | some text => rfl
  unfold strip_comment FileLine.text
  rw [strip_comment_from_plain h.indent.plain, h.content.scanned, strip_comment_from_plain h.trailing.plain, hcomment,
    List.append_nil]
  exact trim_between (fun c hc => (h.indent c hc).1) h.content.trimmed fun c hc => (h.trailing c hc).1

include h in
/-- The text of a line is one line. -/
theorem newline_notMem_text : '\n' ∉ line.text := by
  have hblank : ∀ {l : List Char}, Blanks l → '\n' ∉ l := fun hl hmem => (hl _ hmem).2 rfl
  have hcomment : '\n' ∉ comment_text line.comment := by
    cases hline : line.comment with
    | none => exact List.not_mem_nil
    | some text => simpa [comment_text] using h.comment text hline
  unfold FileLine.text
  simp [hblank h.indent, h.content.newline, hblank h.trailing, hcomment]

/-- Text without surrounding blanks is kept. -/
theorem trim_of_trimmed {l : List Char} (hl : Trimmed l) : trim l = l := by
  have hnil : ∀ c ∈ ([] : List Char), isspace c = true := fun c hc => absurd hc List.not_mem_nil
  have htrim := trim_between hnil hl hnil
  rwa [List.nil_append, List.append_nil] at htrim

/-- The key and the value of an assignment. -/
theorem key_value_text {key gap gap' value : List Char} (hkey : IsKey key) (hgap : Blanks gap) (hgap' : Blanks gap')
    (hvalue : IsValue value) : key_of (LineContent.text (.assignment key gap gap' value)) = key ∧
      value_of (LineContent.text (.assignment key gap gap' value)) = value := by
  have hnot : ∀ c ∈ key ++ gap, decide (c ≠ '=') = true := by
    intro c hc
    refine decide_eq_true fun heq => ?_
    obtain hc | hc := List.mem_append.mp hc
    · exact hkey.equals (heq ▸ hc)
    · exact absurd (hgap c hc).1 (by rw [heq]; decide)
  have htext : LineContent.text (.assignment key gap gap' value) = (key ++ gap) ++ '=' :: (gap' ++ value) := by
    simp [LineContent.text]
  rw [htext]
  constructor
  · have htrim := @trim_between [] _ _ (fun c hc => absurd hc List.not_mem_nil) hkey.trimmed
      (fun c hc => (hgap c hc).1)
    unfold key_of
    rw [List.takeWhile_append_of_pos hnot, List.takeWhile_cons_of_neg (by simp), List.append_nil]
    exact htrim
  · have htrim := trim_between (fun c hc => (hgap' c hc).1) hvalue.trimmed
      (fun c (hc : c ∈ []) => absurd hc List.not_mem_nil)
    rw [List.append_nil] at htrim
    unfold value_of
    rw [List.dropWhile_append_of_pos hnot, List.dropWhile_cons_of_neg (by simp), List.tail_cons]
    exact htrim

section Parsing

variable (path : String) (n : ℕ) {p : Parsed} {text : List Char}

/-- A header starts or continues its section. -/
theorem parse_line_header {name : List Char} (hname : IsName name)
    (htext : trim (strip_comment text) = LineContent.text (.header name)) :
    parse_line path n p text = .ok
      ⟨p.sections.insert (String.ofList name) (section_of p.sections (String.ofList name)), String.ofList name⟩ := by
  have hlast : ('[' :: (name ++ [']'])).getLast? = some ']' := by
    rw [← List.cons_append]
    exact List.getLast?_concat
  have hlength : ¬('[' :: (name ++ [']'])).length < 3 := by
    have hpos := List.length_pos_iff.mpr hname.nonempty
    simp only [List.length_cons, List.length_append, List.length_nil]
    omega
  have htrim : trim ('[' :: (name ++ [']'])).tail.dropLast = name := by
    rw [List.tail_cons, List.dropLast_concat]
    exact trim_of_trimmed hname.trimmed
  have hcontent : LineContent.text (.header name) = '[' :: (name ++ [']']) := rfl
  unfold parse_line
  rw [htext, hcontent]
  dsimp only
  rw [if_neg (List.cons_ne_nil _ _), if_pos List.head?_cons, if_neg (not_or.mpr ⟨not_not_intro hlast, hlength⟩), htrim,
    if_neg hname.nonempty]

/-- An assignment in a section inserts its value. -/
theorem parse_line_assignment {key gap gap' value : List Char} (hkey : IsKey key) (hgap : Blanks gap)
    (hgap' : Blanks gap') (hvalue : IsValue value) (hcurrent : p.current_section ≠ "")
    (htext : trim (strip_comment text) = LineContent.text (.assignment key gap gap' value)) :
    parse_line path n p text = .ok ⟨p.sections.insert p.current_section
      ((section_of p.sections p.current_section).insert (String.ofList key) (String.ofList value)),
      p.current_section⟩ := by
  obtain ⟨hkey_of, hvalue_of⟩ := key_value_text hkey hgap hgap' hvalue
  have hne : LineContent.text (.assignment key gap gap' value) ≠ [] :=
    List.append_ne_nil_of_left_ne_nil hkey.nonempty _
  have hbracket : (LineContent.text (.assignment key gap gap' value)).head? ≠ some '[' := by
    rw [LineContent.text, List.head?_append_of_ne_nil _ hkey.nonempty]
    exact hkey.bracket
  have hequals : ¬ '=' ∉ LineContent.text (.assignment key gap gap' value) := by
    simp [LineContent.text]
  unfold parse_line
  rw [htext]
  dsimp only
  rw [if_neg hne, if_neg hbracket, if_neg hequals, if_neg hcurrent, hkey_of, hvalue_of, if_neg hkey.nonempty,
    if_neg hvalue.nonempty]

end Parsing

include h in
/-- A line in its place is parsed: the parser goes on in the next section, and has the text that the line assigns to
a key, or what it had before. -/
theorem parse_line_text {p : Parsed} (hplaced : line.content.Placed p.current_section) (path : String) (n : ℕ) :
    ∃ p', parse_line path n p line.text = .ok p' ∧ p'.current_section = line.content.next p.current_section ∧
      ∀ section_ key, raw_value p'.sections section_ key =
        (line.content.assigns p.current_section section_ key).or (raw_value p.sections section_ key) := by
  have hvalid := h.content
  have htext := trim_strip_text h
  cases hcontent : line.content with
  | blank =>
    rw [hcontent] at htext
    refine ⟨p, ?_, rfl, fun _ _ => rfl⟩
    unfold parse_line
    rw [htext]
    exact if_pos rfl
  | header name =>
    rw [hcontent] at hvalid htext
    refine ⟨_, parse_line_header path n hvalid htext, rfl, fun section_ key => ?_⟩
    rw [raw_value_eq, raw_value_eq, section_of_insert]
    split
    · next hsection => rw [hsection]; rfl
    · rfl
  | assignment key gap gap' value =>
    rw [hcontent] at hvalid hplaced htext
    obtain ⟨⟨hkey, -⟩, hgap, hgap', hvalue⟩ := hvalid
    refine ⟨_, parse_line_assignment path n hkey hgap hgap' hvalue hplaced htext, rfl, fun section_ key' => ?_⟩
    show _ = (if section_ = p.current_section ∧ key' = String.ofList key then some (String.ofList value) else none).or _
    rw [raw_value_eq, raw_value_eq, section_of_insert]
    by_cases hsection : section_ = p.current_section
    · subst hsection
      rw [if_pos rfl]
      by_cases hsame : key' = String.ofList key
      · rw [hsame, AList.lookup_insert, if_pos ⟨rfl, rfl⟩]
        rfl
      · rw [AList.lookup_insert_ne hsame, if_neg fun h => hsame h.2]
        rfl
    · rw [if_neg hsection, if_neg fun h => hsection h.1]
      rfl

/-- Lines in their places are parsed, and the parser has the text that they assign to a key last. -/
theorem parse_lines_text {lines : List FileLine} {p : Parsed} (hlines : WellPlaced p.current_section lines)
    (path : String) (n : ℕ) : ∃ p', parse_lines path n p (lines.map FileLine.text) = .ok p' ∧
      ∀ section_ key, raw_value p'.sections section_ key =
        (assigned p.current_section section_ key lines).or (raw_value p.sections section_ key) := by
  induction lines generalizing p n with
  | nil => exact ⟨p, rfl, fun _ _ => rfl⟩
  | cons line rest ih =>
    obtain ⟨hline, hplaced, hrest⟩ := hlines
    obtain ⟨next, hparse, hcurrent, hnext⟩ := parse_line_text hline hplaced path (n + 1)
    rw [← hcurrent] at hrest
    obtain ⟨p', hparses, hp'⟩ := ih hrest (n + 1)
    refine ⟨p', ?_, fun section_ key => ?_⟩
    · rw [List.map_cons, parse_lines, hparse]
      exact hparses
    · rw [hp', hnext, assigned, hcurrent, Option.or_assoc]

/-- The lines of a file are the lines that it is made of. -/
theorem lines_file_text {current : String} {lines : List FileLine} (hlines : WellPlaced current lines) :
    Text.lines (file_text lines) = lines.map FileLine.text := by
  refine Text.lines_flatMap FileLine.text lines ?_
  induction lines generalizing current with
  | nil => exact fun _ h => absurd h List.not_mem_nil
  | cons line rest ih => exact List.forall_mem_cons.mpr ⟨newline_notMem_text hlines.1, ih hlines.2.2⟩

/-- A file of lines in their places is parsed to what they assign. -/
theorem parse_file_text {lines : List FileLine} (hlines : WellPlaced "" lines) (path : String) :
    ∃ sections, parse_file path (some (file_text lines)) = .ok sections ∧
      ∀ section_ key, raw_value sections section_ key = assigned "" section_ key lines := by
  obtain ⟨p, hparse, hraw⟩ := @parse_lines_text lines {} hlines path 0
  refine ⟨p.sections, ?_, fun section_ key => (hraw section_ key).trans Option.or_none⟩
  unfold parse_file
  dsimp only
  rw [lines_file_text hlines, hparse]
  rfl

/-- A file of lines in their places, whatever their order, their blanks and their comments are, loads as a
configuration exactly if the last assignment of each of the settings denotes its value, or there is none and the
value is the default, and the configuration is valid. -/
theorem load_written_iff {lines : List FileLine} (hlines : WellPlaced "" lines) (path : String)
    (config : LoadedConfig) :
    load path (some (file_text lines)) = .ok config ↔
      (∀ s ∈ config.settings, s.value.Denoted (assigned "" s.section_ s.key lines)) ∧
        config.toConfig.validate = .ok () := by
  obtain ⟨sections, hfile, hassigned⟩ := parse_file_text hlines path
  rw [load_ok_iff]
  constructor
  · rintro ⟨sections', hsections, hread, hvalid⟩
    obtain rfl := Except.ok.inj (hfile.symm.trans hsections)
    exact ⟨fun s hs => hassigned s.section_ s.key ▸ s.reads_iff.mp (hread s hs), hvalid⟩
  · rintro ⟨hdenoted, hvalid⟩
    refine ⟨sections, hfile, fun s hs => s.reads_iff.mpr ?_, hvalid⟩
    rw [hassigned]
    exact hdenoted s hs

end Lines

/-- A file that sets the database, with a `#` in its name and after it, and sets a number twice. -/
def database_file : List FileLine :=
  [{ content := .header "postgis".toList },
    { indent := [' '], content := .assignment "pool_size".toList [] [] "4".toList },
    { content := .assignment "dsn".toList [' '] [' '] "\"db=a#b\"".toList, trailing := [' '],
      comment := some " \"test\"".toList },
    { content := .blank, comment := some "[x".toList },
    { content := .assignment "pool_size".toList ['\t'] [' '] "+7".toList }]

/-- It loads with these two values and the defaults. -/
theorem load_written_iff_database : load "f" (some (file_text database_file)) =
    .ok { postgis := { dsn := "db=a#b", pool_size := 7 } } := by
  have htrimmed : ∀ {l : List Char}, (l.head?.all fun c => !isspace c) = true →
      (l.getLast?.all fun c => !isspace c) = true → Trimmed l := by
    intro l hhead hlast
    constructor
    · intro c hc
      simpa [hc] using hhead
    · intro c hc
      simpa [hc] using hlast
  have hblank : ∀ {l : List Char}, (l.all fun c => isspace c && c != '\n') = true → Blanks l := by
    intro l hl c hc
    simpa using List.all_eq_true.mp hl c hc
  have hnone : ∀ text ∈ (none : Option (List Char)), '\n' ∉ text := nofun
  have hname : IsName "postgis".toList := ⟨by simp, htrimmed (by decide) (by decide), by simp, by simp⟩
  have hpool : IsKey "pool_size".toList ∧ '\n' ∉ "pool_size".toList :=
    ⟨⟨by simp, by simp, by simp, by simp, by simp, htrimmed (by decide) (by decide)⟩, by simp⟩
  have hdsn : IsKey "dsn".toList ∧ '\n' ∉ "dsn".toList :=
    ⟨⟨by simp, by simp, by simp, by simp, by simp, htrimmed (by decide) (by decide)⟩, by simp⟩
  have hfour : IsValue "4".toList := isValue_of_plain (by simp) (htrimmed (by decide) (by decide)) (by simp) (by simp)
  have hseven : IsValue "+7".toList := isValue_of_plain (by simp) (htrimmed (by decide) (by decide)) (by simp) (by simp)
  have hquoted : IsValue "\"db=a#b\"".toList := isValue_quoted "db=a#b".toList
  have hcurrent : String.ofList "postgis".toList ≠ "" := by simp
  have hlines : WellPlaced "" database_file := by
    refine ⟨⟨hblank rfl, hname, hblank rfl, hnone⟩, trivial,
      ⟨hblank rfl, ⟨hpool, hblank rfl, hblank rfl, hfour⟩, hblank rfl, hnone⟩, hcurrent,
      ⟨hblank rfl, ⟨hdsn, hblank rfl, hblank rfl, hquoted⟩, hblank rfl, ?_⟩, hcurrent,
      ⟨hblank rfl, trivial, hblank rfl, ?_⟩, trivial,
      ⟨hblank rfl, ⟨hpool, hblank rfl, hblank rfl, hseven⟩, hblank rfl, hnone⟩, hcurrent, trivial⟩
    · rintro text ⟨⟩
      simp
    · rintro text ⟨⟩
      simp
  refine (load_written_iff hlines "f" _).mpr ⟨?_, ?_⟩
  · decide +kernel
  · decide +kernel

section Writing

/-- A setting with a text, as a header and an assignment. -/
def lines_of (entry : Setting × String) : List FileLine :=
  [{ content := .header entry.1.section_.toList },
    { content := .assignment entry.1.key.toList [' '] [' '] entry.2.toList }]

/-- The section and the key of a setting. -/
def Setting.name (s : Setting) : String × String := (s.section_, s.key)

/-- The sections and the keys of all settings. -/
def setting_names : List (String × String) := (LoadedConfig.settings {}).map Setting.name

/-- A letter, a digit or an underscore. -/
def is_word_char (c : Char) : Bool := c.isAlphanum || c == '_'

/-- A word of such characters. -/
def is_word (l : List Char) : Bool := !l.isEmpty && l.all is_word_char

/-- What makes a word. -/
theorem is_word_iff {l : List Char} : is_word l = true ↔ l ≠ [] ∧ ∀ c ∈ l, is_word_char c = true := by
  simp [is_word]

/-- The name of a setting does not depend on the configuration. -/
theorem map_name_settings (config : LoadedConfig) : config.settings.map Setting.name = setting_names := rfl

/-- No two settings have the same name. -/
theorem nodup_setting_names : setting_names.Nodup := by decide +kernel

/-- The names are words. -/
theorem is_word_of_mem_setting_names {name : String × String} (h : name ∈ setting_names) :
    is_word name.1.toList = true ∧ is_word name.2.toList = true := by
  have hall : (setting_names.all fun name => is_word name.1.toList && is_word name.2.toList) = true := by
    decide +kernel
  exact Bool.and_eq_true_iff.mp (List.all_eq_true.mp hall name h)

/-- Text without blanks has none around it. -/
theorem trimmed_of_forall {l : List Char} (h : ∀ c ∈ l, isspace c = false) : Trimmed l :=
  ⟨fun c hc => h c (List.mem_of_mem_head? hc), fun c hc => h c (List.mem_of_mem_getLast? hc)⟩

/-- Characters among which no blank is are no blanks. -/
theorem isspace_eq_false {p : Char → Bool} (hp : ([' ', '\t', '\n', '\x0b', '\x0c', '\r'].all fun c => !p c) = true)
    {c : Char} (hc : p c = true) : isspace c = false := by
  refine Bool.eq_false_iff.mpr fun hspace => ?_
  have hblank : c ∈ [' ', '\t', '\n', '\x0b', '\x0c', '\r'] := by simpa [isspace, or_assoc] using hspace
  have hnot := List.all_eq_true.mp hp c hblank
  rw [hc] at hnot
  cases hnot

section Words

variable {l : List Char} (h : is_word l = true)

include h

/-- What a word does not contain. -/
theorem notMem_word {c : Char} (hc : is_word_char c = false) : c ∉ l := fun hmem =>
  Bool.false_ne_true (hc.symm.trans ((is_word_iff.mp h).2 c hmem))

/-- A word has no blanks. -/
theorem trimmed_word : Trimmed l :=
  trimmed_of_forall fun c hc => isspace_eq_false (p := is_word_char) rfl ((is_word_iff.mp h).2 c hc)

/-- A word can be the name of a section. -/
theorem isName_word : IsName l where
  nonempty := (is_word_iff.mp h).1
  trimmed := trimmed_word h
  plain _ hc := ⟨fun heq => notMem_word h rfl (heq ▸ hc), fun heq => notMem_word h rfl (heq ▸ hc)⟩
  newline := notMem_word h rfl

/-- A word can be a key. -/
theorem isKey_word : IsKey l where
  nonempty := (is_word_iff.mp h).1
  equals := notMem_word h rfl
  hash := notMem_word h rfl
  quote := notMem_word h rfl
  bracket hhead := notMem_word h (c := '[') rfl (List.mem_of_mem_head? hhead)
  trimmed := trimmed_word h

/-- A word can be a value. -/
theorem isValue_word : IsValue l :=
  isValue_of_plain (is_word_iff.mp h).1 (trimmed_word h) (isName_word h).plain (isName_word h).newline

end Words

/-- A printed integer is a value. -/
theorem isValue_toString (z : ℤ) : IsValue (toString z).toList := by
  have hnumeral : ∀ c, decide (Numeric.IsNumeral c) = false → c ∉ (toString z).toList := fun c hc hmem =>
    of_decide_eq_false hc (Numeric.isNumeral_of_mem_toString_int hmem)
  refine isValue_of_plain (Numeric.toString_int_ne_nil z) (trimmed_of_forall fun c hc => ?_) (fun c hc => ?_)
    (hnumeral '\n' rfl)
  · exact isspace_eq_false (p := fun c => decide (Numeric.IsNumeral c)) rfl
      (decide_eq_true (Numeric.isNumeral_of_mem_toString_int hc))
  · exact ⟨fun heq => hnumeral '"' rfl (heq ▸ hc), fun heq => hnumeral '#' rfl (heq ▸ hc)⟩

/-- A printed integer is read to its end. -/
theorem integerRest_toString (z : ℤ) : Numeric.integerRest (toString z) = [] := by
  have hdigits : ∀ n : ℕ, Numeric.IsDigits (toString n).toList := by
    intro n
    obtain ⟨c, cs, hcons, -⟩ := Numeric.toList_toString_cons n
    exact ⟨hcons ▸ List.cons_ne_nil c cs, fun c hc => Numeric.isDigit_of_mem_toString hc⟩
  obtain ⟨negative, n, hread, -⟩ := Numeric.readInteger_toString_int z
  refine (Numeric.integerRest_eq_nil_iff hread).mpr ?_
  cases z with
  | ofNat n => exact ⟨[], [], _, fun c hc => absurd hc List.not_mem_nil, .inl rfl, rfl, hdigits n⟩
  | negSucc n =>
    refine ⟨[], ['-'], _, fun c hc => absurd hc List.not_mem_nil, .inr (.inr rfl), ?_, hdigits (n + 1)⟩
    rw [Numeric.toString_negSucc, String.toList_append]
    rfl

namespace SettingValue

/-- An integer of the code's type. -/
def Fits : SettingValue → Prop
  | .string _ _ => True
  | .int value _ => -2^31 ≤ value ∧ value < 2^31
  | .bool _ _ => True
  | .double _ _ => True

instance : DecidablePred Fits
  | .string _ _ => inferInstanceAs (Decidable True)
  | .int _ _ => inferInstanceAs (Decidable (_ ∧ _))
  | .bool _ _ => inferInstanceAs (Decidable True)
  | .double _ _ => inferInstanceAs (Decidable True)

/-- The number of a setting. -/
def number : SettingValue → Option Double
  | .string _ _ => none
  | .int _ _ => none
  | .bool _ _ => none
  | .double value _ => some value

/-- Some value in a line denotes the setting. -/
theorem exists_text {s : SettingValue} (h : s.Fits)
    (hnumber : ∀ x ∈ s.number, ∃ text : String, IsValue text.toList ∧ Numeric.stod text = .ok x ∧
      Numeric.floatingRest text = []) : ∃ text : String, IsValue text.toList ∧ s.Denotes text := by
  cases s with
  | string value fallback =>
    refine ⟨String.ofList ('"' :: (Escaping.quoted.escape value.toList ++ ['"'])), ?_, _, String.toList_ofList,
      Escaping.quoted.unescape_escape _⟩
    rw [String.toList_ofList]
    exact isValue_quoted value.toList
  | int value fallback =>
    have hread : Numeric.stoll (toString value) = .ok value := Numeric.stoll_toString (by
      obtain ⟨hlow, hhigh⟩ := h
      omega)
    exact ⟨toString value, isValue_toString value, ⟨hread, integerRest_toString value⟩, h⟩
  | bool value fallback =>
    refine ⟨if value then "true" else "false", ?_, rfl⟩
    have hword : is_word (if value then "true" else "false").toList = true := by cases value <;> rfl
    exact isValue_word hword
  | double value fallback => exact hnumber value rfl

end SettingValue

variable {entries : List (Setting × String)}

/-- The lines of settings with words for names are in their places. -/
theorem wellPlaced_lines_of (current : String) (h : ∀ entry ∈ entries, is_word entry.1.section_.toList = true ∧
    is_word entry.1.key.toList = true ∧ IsValue entry.2.toList) : WellPlaced current (entries.flatMap lines_of) := by
  induction entries generalizing current with
  | nil => trivial
  | cons entry entries ih =>
    obtain ⟨⟨hsection, hkey, hvalue⟩, hrest⟩ := List.forall_mem_cons.mp h
    have hnone : Blanks [] := fun c hc => absurd hc List.not_mem_nil
    have hspace : Blanks [' '] := List.forall_mem_singleton.mpr ⟨rfl, by decide⟩
    have hcurrent : String.ofList entry.1.section_.toList ≠ "" := by
      rw [String.ofList_toList]
      exact fun heq => (is_word_iff.mp hsection).1 (heq ▸ rfl)
    exact ⟨⟨hnone, isName_word hsection, hnone, nofun⟩, trivial,
      ⟨hnone, ⟨⟨isKey_word hkey, notMem_word hkey rfl⟩, hspace, hspace, hvalue⟩, hnone, nofun⟩, hcurrent, ih _ hrest⟩

/-- The text that the lines of a setting and of others assign to a key. -/
theorem assigned_lines_of_cons (current section_ key : String) (entry : Setting × String) :
    assigned current section_ key ((entry :: entries).flatMap lines_of) =
      (assigned entry.1.section_ section_ key (entries.flatMap lines_of)).or
        (if (section_, key) = entry.1.name then some entry.2 else none) := by
  show ((assigned (String.ofList entry.1.section_.toList) section_ key (entries.flatMap lines_of)).or
    (if section_ = String.ofList entry.1.section_.toList ∧ key = String.ofList entry.1.key.toList then
      some (String.ofList entry.2.toList) else none)).or none = _
  rw [Option.or_none, String.ofList_toList, String.ofList_toList, String.ofList_toList]
  unfold Setting.name
  simp only [Prod.mk.injEq]

/-- A key that is not among the names is not assigned. -/
theorem assigned_lines_of_notMem {current section_ key : String}
    (h : (section_, key) ∉ entries.map fun entry => entry.1.name) :
    assigned current section_ key (entries.flatMap lines_of) = none := by
  induction entries generalizing current with
  | nil => rfl
  | cons entry entries ih =>
    obtain ⟨hfirst, hrest⟩ := not_or.mp (mt List.mem_cons.mpr h)
    rw [assigned_lines_of_cons, ih hrest, if_neg hfirst]
    rfl

/-- Each of settings with different names is assigned its text. -/
theorem assigned_lines_of {current : String} (hnodup : (entries.map fun entry => entry.1.name).Nodup)
    {entry : Setting × String} (hentry : entry ∈ entries) :
    assigned current entry.1.section_ entry.1.key (entries.flatMap lines_of) = some entry.2 := by
  induction entries generalizing current with
  | nil => cases hentry
  | cons first entries ih =>
    obtain ⟨hfirst, hnodup⟩ := List.nodup_cons.mp hnodup
    rw [assigned_lines_of_cons]
    obtain rfl | hentry := List.mem_cons.mp hentry
    · rw [assigned_lines_of_notMem hfirst, Option.none_or]
      exact if_pos rfl
    · rw [ih hnodup hentry]
      rfl

/-- Every valid configuration with integers of the code's type is what some file loads as, if some text denotes its
radius. -/
theorem exists_written {config : LoadedConfig} (hvalid : config.toConfig.validate = .ok ())
    (hfits : ∀ s ∈ config.settings, s.value.Fits) {radius : String} (hradius : IsValue radius.toList)
    (hread : Numeric.stod radius = .ok config.spatial.nearby_max_radius_m) (hrest : Numeric.floatingRest radius = []) :
    ∃ lines, WellPlaced "" lines ∧ ∀ path, load path (some (file_text lines)) = .ok config := by
  have hnumbers : (config.settings.filterMap fun s => s.value.number) = [config.spatial.nearby_max_radius_m] := rfl
  have htext : ∀ s ∈ config.settings, ∃ text : String, IsValue text.toList ∧ s.value.Denotes text := by
    intro s hs
    refine SettingValue.exists_text (hfits s hs) fun x hx => ?_
    obtain rfl : x = config.spatial.nearby_max_radius_m := List.mem_singleton.mp
      (hnumbers ▸ List.mem_filterMap.mpr ⟨s, hs, hx⟩)
    exact ⟨radius, hradius, hread, hrest⟩
  choose! text hvalue hdenotes using htext
  let entries := config.settings.map fun s => (s, text s)
  have hnames : (entries.map fun entry => entry.1.name) = setting_names := by
    rw [List.map_map]
    exact map_name_settings config
  have hwords : ∀ entry ∈ entries, is_word entry.1.section_.toList = true ∧ is_word entry.1.key.toList = true ∧
      IsValue entry.2.toList := by
    intro entry hentry
    obtain ⟨s, hs, rfl⟩ := List.mem_map.mp hentry
    have hname : s.name ∈ setting_names := map_name_settings config ▸ List.mem_map_of_mem hs
    obtain ⟨hsection, hkey⟩ := is_word_of_mem_setting_names hname
    exact ⟨hsection, hkey, hvalue s hs⟩
  have hlines := wellPlaced_lines_of "" hwords
  refine ⟨_, hlines, fun path => ?_⟩
  obtain ⟨sections, hfile, hassigned⟩ := parse_file_text hlines path
  refine (load_ok_iff config).mpr ⟨sections, hfile, fun s hs => s.reads_iff.mpr ?_, hvalid⟩
  have hentry := @assigned_lines_of entries "" (hnames ▸ nodup_setting_names) (s, text s)
    (List.mem_map.mpr ⟨s, hs, rfl⟩)
  rw [hassigned, hentry]
  exact hdenotes s hs

/-- The defaults with a database and another radius. -/
theorem exists_written_database : ∃ lines, WellPlaced "" lines ∧ ∀ path, load path (some (file_text lines)) =
    .ok { postgis := { dsn := "db" }, spatial := { nearby_max_radius_m := .finite 16 } } := by
  have hword : is_word "16".toList = true := rfl
  exact exists_written (by decide +kernel) (by decide +kernel) (isValue_word hword)
    (show Numeric.stod "16" = .ok (.finite 16) by decide +kernel) (by decide)

end Writing

end SignalRoute.Config
