import SignalRoute.Config.Spatial
import SignalRoute.Text.Escape
import SignalRoute.Text.Lines
import Mathlib.Data.List.DropRight

/-!
# The configuration file

`parse_file` of `src/common/config/config.cpp`: a file of sections with lines `key = value`, where what
follows a `#` outside quotes is a comment. The values are kept as texts (`SectionMap`), and read by their
type later, strings by `get_string`.

Two scanners look at the quotes of a line: `strip_comment` keeps a flag that every quote without a
backslash toggles, and `unquote` looks at the first and the last character of the value and at the
backslashes between them.
-/

namespace SignalRoute.Config

open Numeric (isspace)
open Store (UnorderedMap)
open Text (Escaping)

/-- `trim`. -/
def trim (value : List Char) : List Char := (value.dropWhile isspace).rdropWhile isspace

/-- The loop of `strip_comment`, from a character on. -/
def strip_comment_from (in_string escaped : Bool) : List Char → List Char
  | [] => []
  | ch :: rest =>
    if escaped then ch :: strip_comment_from in_string false rest
    else if in_string && ch = '\\' then ch :: strip_comment_from in_string true rest
    else if ch = '"' then ch :: strip_comment_from (!in_string) false rest
    else if !in_string && ch = '#' then []
    else ch :: strip_comment_from in_string false rest

/-- `strip_comment`. -/
def strip_comment (line : List Char) : List Char := strip_comment_from false false line

/-- `parse_error`. -/
def parse_error (path : String) (line_no : ℕ) (message : String) : Exception :=
  .std ("Config parse error in " ++ path ++ ":" ++ toString line_no ++ ": " ++ message)

/-- The loop of `unquote`, from a character on. -/
def unquote_from (path : String) (line_no : ℕ) (escaped : Bool) : List Char → Except Exception (List Char)
  | [] => if escaped then .error (parse_error path line_no "unterminated string escape") else .ok []
  | ch :: rest =>
    if escaped then
      match Escaping.meaningOf ch with
      | none => .error (parse_error path line_no "unsupported string escape")
      | some c => (unquote_from path line_no false rest).map (c :: ·)
    else if ch = '\\' then unquote_from path line_no true rest
    else (unquote_from path line_no false rest).map (ch :: ·)

/-- `unquote`. -/
def unquote (raw : List Char) (path : String) (line_no : ℕ) : Except Exception (List Char) :=
  if raw.length < 2 ∨ raw.head? ≠ some '"' ∨ raw.getLast? ≠ some '"' then
    .error (parse_error path line_no "expected quoted string value")
  else unquote_from path line_no false raw.tail.dropLast

/-- The variables of `parse_file` between two lines. -/
structure Parsed where
  sections : SectionMap := ∅
  current_section : String := ""

/-- `sections[name]`, which makes the section if it is new. -/
def section_of (sections : SectionMap) (name : String) : UnorderedMap String String :=
  (sections.lookup name).getD ∅

/-- The key of a line without comment, before the first `=`. -/
def key_of (line : List Char) : List Char := trim (line.takeWhile fun c => c ≠ '=')

/-- The value of a line without comment, after the first `=`. -/
def value_of (line : List Char) : List Char := trim (line.dropWhile fun c => c ≠ '=').tail

/-- One turn of the loop of `parse_file`. -/
def parse_line (path : String) (line_no : ℕ) (p : Parsed) (line : List Char) : Except Exception Parsed :=
  let line := trim (strip_comment line)
  if line = [] then .ok p
  else if line.head? = some '[' then
    if line.getLast? ≠ some ']' ∨ line.length < 3 then
      .error (parse_error path line_no "invalid section header")
    else
      let name := trim line.tail.dropLast
      if name = [] then .error (parse_error path line_no "empty section name")
      else
        let name := String.ofList name
        .ok { sections := p.sections.insert name (section_of p.sections name), current_section := name }
  else if '=' ∉ line then .error (parse_error path line_no "expected key = value")
  else if p.current_section = "" then
    .error (parse_error path line_no "key appears before any section")
  else if key_of line = [] then .error (parse_error path line_no "empty key")
  else if value_of line = [] then .error (parse_error path line_no "empty value")
  else
    let entries := (section_of p.sections p.current_section).insert (String.ofList (key_of line))
      (String.ofList (value_of line))
    .ok { p with sections := p.sections.insert p.current_section entries }

/-- The loop of `parse_file`, after `n` lines. -/
def parse_lines (path : String) : ℕ → Parsed → List (List Char) → Except Exception Parsed
  | _, p, [] => .ok p
  | n, p, line :: rest =>
    match parse_line path (n + 1) p line with
    | .error e => .error e
    | .ok p => parse_lines path (n + 1) p rest

/-- `parse_file`, where `file` is the text of a file that can be read. -/
def parse_file (path : String) (file : Option (List Char)) : Except Exception SectionMap :=
  match file with
  | none => .error (.std ("Config file not found or unreadable: " ++ path))
  | some text => (parse_lines path 0 {} (Text.lines text)).map Parsed.sections

/-- `get_string`. -/
def get_string (sections : SectionMap) (section_ key : String) (fallback : String) (path : String) :
    Except Exception String :=
  match raw_value sections section_ key with
  | none => .ok fallback
  | some value => (unquote value.toList path 0).map String.ofList

/-- The section, the key and the default of each string that `Config::load` reads, in its order. -/
def string_keys : List (String × String × String) :=
  [("server", "role", "standalone"), ("server", "listen_addr", "0.0.0.0"), ("server", "tls_cert", ""),
    ("server", "tls_key", ""), ("kafka", "brokers", "localhost:9092"),
    ("kafka", "ingest_topic", "tm.location.events"), ("kafka", "geofence_topic", "tm.geofence.events"),
    ("kafka", "dlq_topic", "tm.location.dlq"), ("kafka", "consumer_group", "signalroute-processor"),
    ("redis", "addrs", "localhost:6379"), ("redis", "key_prefix", "sr"), ("postgis", "dsn", ""),
    ("gateway", "api_key", ""), ("matching", "strategy_name", "default"),
    ("matching", "request_topic", "sr.match.requests"), ("matching", "result_topic", "sr.match.results"),
    ("observability", "metrics_addr", "0.0.0.0"), ("observability", "metrics_path", "/metrics"),
    ("observability", "log_level", "info"), ("observability", "admin_socket_addr", "127.0.0.1"),
    ("observability", "health_path", "/health"), ("observability", "readiness_path", "/ready")]

/-- Sections and keys have names. -/
theorem string_keys_ne : ∀ entry ∈ string_keys, entry.1 ≠ "" ∧ entry.2.1 ≠ "" := by
  simp [string_keys]

section Scanners

/-- Inside quotes, escaped text without a bare quote is kept. -/
theorem strip_comment_from_body {l : List Char} (h : Escaping.quoted.Body (fun c => c ≠ '"') l)
    (rest : List Char) :
    strip_comment_from true false (l ++ rest) = l ++ strip_comment_from true false rest := by
  induction h with
  | nil => rfl
  | @plain ch l hmark hquote _ ih =>
    rw [List.cons_append, strip_comment_from, ih]
    have hmark' : ch ≠ '\\' := hmark
    simp [hmark', hquote]
  | @escaped b c l _ _ ih =>
    show '\\' :: b :: strip_comment_from true false (l ++ rest) = _
    rw [ih]
    rfl

/-- Outside quotes, text without a quote or a `#` is kept. -/
theorem strip_comment_from_plain {l : List Char} (h : ∀ c ∈ l, c ≠ '"' ∧ c ≠ '#') (rest : List Char) :
    strip_comment_from false false (l ++ rest) = l ++ strip_comment_from false false rest := by
  induction l with
  | nil => rfl
  | cons ch l ih =>
    obtain ⟨⟨hquote, hhash⟩, hl⟩ := List.forall_mem_cons.mp h
    rw [List.cons_append, strip_comment_from, ih hl]
    simp [hquote, hhash]

/-- Text without surrounding blanks. -/
def Trimmed (l : List Char) : Prop :=
  (∀ c, l.head? = some c → isspace c = false) ∧ ∀ c, l.getLast? = some c → isspace c = false

/-- Surrounding blanks are what `trim` takes away. -/
theorem trim_between {blanks l blanks' : List Char} (hblanks : ∀ c ∈ blanks, isspace c = true) (hl : Trimmed l)
    (hblanks' : ∀ c ∈ blanks', isspace c = true) : trim (blanks ++ (l ++ blanks')) = l := by
  unfold trim
  rw [List.dropWhile_append_of_pos hblanks]
  obtain ⟨hhead, hlast⟩ := hl
  cases l with
  | nil =>
    rw [List.nil_append, List.dropWhile_eq_nil_iff.mpr hblanks']
    rfl
  | cons c l =>
    have hstart : (c :: l ++ blanks').dropWhile isspace = c :: l ++ blanks' :=
      List.dropWhile_cons_of_neg (by rw [hhead c rfl]; exact Bool.false_ne_true)
    rw [hstart, List.rdropWhile, List.reverse_append, List.dropWhile_append_of_pos fun c hc =>
      hblanks' c (List.mem_reverse.mp hc)]
    obtain ⟨last, init, hrev⟩ : ∃ last init, (c :: l).reverse = last :: init :=
      List.exists_cons_of_ne_nil (List.reverse_ne_nil_iff.mpr (List.cons_ne_nil c l))
    have hend : isspace last = false := by
      refine hlast last ?_
      rw [← List.head?_reverse, hrev]
      rfl
    rw [hrev, List.dropWhile_cons_of_neg (by rw [hend]; exact Bool.false_ne_true), ← hrev,
      List.reverse_reverse]

/-- Quoted text has no surrounding blanks. -/
theorem trimmed_quoted (l : List Char) : Trimmed ('"' :: (l ++ ['"'])) := by
  constructor
  · intro c hc
    cases hc
    rfl
  · intro c hc
    rw [← List.cons_append, List.getLast?_concat] at hc
    cases hc
    rfl

end Scanners

section Entries

/-- The text of a key is in the entries of its section. -/
theorem raw_value_eq (sections : SectionMap) (section_ key : String) :
    raw_value sections section_ key = (section_of sections section_).lookup key := by
  unfold raw_value section_of
  cases sections.lookup section_ with
  | none => rfl
  | some entries => rfl

/-- The entries of a section after a change of one. -/
theorem section_of_insert (sections : SectionMap) (name name' : String) (entries : UnorderedMap String String) :
    section_of (sections.insert name entries) name' =
      if name' = name then entries else section_of sections name' := by
  unfold section_of
  by_cases h : name' = name
  · subst h
    rw [AList.lookup_insert, if_pos rfl, Option.getD_some]
  · rw [AList.lookup_insert_ne h, if_neg h]

/-- The key that a line assigns, if it is no blank line, section header or error. -/
def line_key (line : List Char) : Option String :=
  let line := trim (strip_comment line)
  if line = [] ∨ line.head? = some '[' ∨ '=' ∉ line then none else some (String.ofList (key_of line))

/-- What a line without an error does: it is blank, it starts a section, or it assigns a key of the
current section. -/
theorem parse_line_cases {path : String} {line_no : ℕ} {p p' : Parsed} {line : List Char}
    (h : parse_line path line_no p line = .ok p') :
    (line_key line = none ∧ ∀ section_, section_of p'.sections section_ = section_of p.sections section_) ∨
    ∃ key, line_key line = some key ∧ p'.current_section = p.current_section ∧
      ∀ section_, section_of p'.sections section_ =
        if section_ = p.current_section then (section_of p.sections p.current_section).insert key
          (String.ofList (value_of (trim (strip_comment line))))
        else section_of p.sections section_ := by
  unfold parse_line at h
  unfold line_key
  dsimp only at h ⊢
  generalize trim (strip_comment line) = line at h ⊢
  by_cases hempty : line = []
  · rw [if_pos hempty] at h
    cases h
    exact .inl ⟨if_pos (.inl hempty), fun _ => rfl⟩
  rw [if_neg hempty] at h
  by_cases hheader : line.head? = some '['
  · rw [if_pos hheader] at h
    split at h
    · cases h
    · split at h
      · cases h
      · cases h
        refine .inl ⟨if_pos (.inr (.inl hheader)), fun section_ => ?_⟩
        rw [section_of_insert]
        split
        · next hname => rw [hname]
        · rfl
  rw [if_neg hheader] at h
  by_cases hequals : '=' ∉ line
  · rw [if_pos hequals] at h
    cases h
  rw [if_neg hequals] at h
  split at h
  · cases h
  split at h
  · cases h
  split at h
  · cases h
  cases h
  refine .inr ⟨_, if_neg (not_or.mpr ⟨hempty, not_or.mpr ⟨hheader, hequals⟩⟩), rfl, fun section_ => ?_⟩
  exact section_of_insert _ _ _ _

/-- A line of a section that assigns a key has an error, if its value is empty, or its value is kept. -/
theorem parse_line_of_key {path : String} {line_no : ℕ} {p : Parsed} {line : List Char} {key : String}
    (hline : line_key line = some key) (hkey : key ≠ "") (hsection : p.current_section ≠ "") :
    (value_of (trim (strip_comment line)) = [] ∧
      parse_line path line_no p line = .error (parse_error path line_no "empty value")) ∨
    ∃ p', parse_line path line_no p line = .ok p' ∧
      raw_value p'.sections p.current_section key =
        some (String.ofList (value_of (trim (strip_comment line)))) := by
  unfold line_key at hline
  unfold parse_line
  dsimp only at hline ⊢
  generalize trim (strip_comment line) = line at hline ⊢
  split at hline
  · cases hline
  · next h =>
    obtain ⟨hempty, hheader, hequals⟩ := (not_or.mp h).imp_right not_or.mp
    cases hline
    have hname : key_of line ≠ [] := fun hnil => hkey (by rw [hnil])
    rw [if_neg hempty, if_neg hheader, if_neg hequals, if_neg hsection, if_neg hname]
    by_cases hvalue : value_of line = []
    · rw [if_pos hvalue]
      exact .inl ⟨hvalue, rfl⟩
    · rw [if_neg hvalue]
      refine .inr ⟨_, rfl, ?_⟩
      rw [raw_value_eq, section_of_insert, if_pos rfl, AList.lookup_insert]

/-- The lines after one that assigns a key of a section assign it no more. -/
def Unassigned (path section_ key : String) : ℕ → Parsed → List (List Char) → Prop
  | _, _, [] => True
  | n, p, line :: rest => ¬(p.current_section = section_ ∧ line_key line = some key) ∧
      ∀ p', parse_line path (n + 1) p line = .ok p' → Unassigned path section_ key (n + 1) p' rest

/-- Such lines leave the value of the key. -/
theorem raw_value_of_unassigned {path section_ key : String} {n : ℕ} {p p' : Parsed} {lines : List (List Char)}
    (hlines : Unassigned path section_ key n p lines) (h : parse_lines path n p lines = .ok p') :
    raw_value p'.sections section_ key = raw_value p.sections section_ key := by
  induction lines generalizing n p with
  | nil =>
    cases h
    rfl
  | cons line rest ih =>
    obtain ⟨hline, hrest⟩ := hlines
    unfold parse_lines at h
    cases hparse : parse_line path (n + 1) p line with
    | error e =>
      rw [hparse] at h
      cases h
    | ok next =>
      rw [hparse] at h
      rw [ih (hrest next hparse) h, raw_value_eq, raw_value_eq]
      obtain ⟨-, hsame⟩ | ⟨key', hkey', -, hsections⟩ := parse_line_cases hparse
      · rw [hsame]
      · rw [hsections]
        split
        · next hcurrent =>
          have hne : key ≠ key' := fun heq => hline ⟨hcurrent.symm, heq ▸ hkey'⟩
          rw [AList.lookup_insert_ne hne, hcurrent]
        · rfl

/-- The lines of a file one part after the other. -/
theorem parse_lines_append (path : String) (n : ℕ) (p : Parsed) (before after : List (List Char)) :
    parse_lines path n p (before ++ after) =
      match parse_lines path n p before with
      | .error e => .error e
      | .ok p => parse_lines path (n + before.length) p after := by
  induction before generalizing n p with
  | nil => rfl
  | cons line before ih =>
    rw [List.cons_append, parse_lines, parse_lines]
    cases parse_line path (n + 1) p line with
    | error e => rfl
    | ok p =>
      dsimp only
      rw [ih, List.length_cons, Nat.add_right_comm, Nat.add_assoc]

end Entries

end SignalRoute.Config
