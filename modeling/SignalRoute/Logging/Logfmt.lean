import SignalRoute.Text.Escape
import SignalRoute.Text.Lines
import Mathlib.Algebra.Ring.Int.Defs

/-!
# Log lines

`src/common/logging/structured_log.cpp`: an event is one line of fields `key=value`, where a value is
bare if no character of it can be taken for the line's own, and else escaped in quotes.

`parse_logfmt` reads such a line from left to right. It finds the fields that were written, in their
order, whatever the values are (`parse_format_logfmt`), so a value that a client chooses cannot be taken
for a field or a line.
-/

namespace SignalRoute

open Text (Escaping)

/-- `LogField`. -/
structure LogField where
  key : String
  value : String
  deriving DecidableEq

/-- `StructuredLogEvent`. -/
structure StructuredLogEvent where
  level : String := "info"
  component : String := ""
  event : String := ""
  message : String := ""
  fields : List LogField := []

/-- `needs_quotes`. -/
def needs_quotes (value : List Char) : Bool :=
  value.isEmpty || value.any fun ch =>
    ch = ' ' || ch = '\t' || ch = '\n' || ch = '\r' || ch = '"' || ch = '\\' || ch = '='

/-- `escape_logfmt_value`. -/
def escape_logfmt_value (value : List Char) : List Char :=
  if needs_quotes value then '"' :: (Escaping.quoted.escape value ++ ['"']) else value

/-- A field of a line. -/
def field_text (field : LogField) : List Char :=
  field.key.toList ++ '=' :: escape_logfmt_value field.value.toList

/-- `append_field`. -/
def append_field (field : LogField) : List Char :=
  if field.key = "" then [] else ' ' :: field_text field

/-- `format_logfmt`. -/
def format_logfmt (event : StructuredLogEvent) : List Char :=
  field_text ⟨"level", if event.level = "" then "info" else event.level⟩ ++
    append_field ⟨"component", event.component⟩ ++ append_field ⟨"event", event.event⟩ ++
    append_field ⟨"message", event.message⟩ ++ event.fields.flatMap append_field

/-- `write_logfmt`. -/
def write_logfmt (event : StructuredLogEvent) : List Char := format_logfmt event ++ ['\n']

/-- The fields of an event after its level, in their order on the line. -/
def StructuredLogEvent.others (event : StructuredLogEvent) : List LogField :=
  [⟨"component", event.component⟩, ⟨"event", event.event⟩, ⟨"message", event.message⟩] ++ event.fields

/-- All fields of an event. -/
def StructuredLogEvent.all (event : StructuredLogEvent) : List LogField :=
  ⟨"level", event.level⟩ :: event.others

/-- `make_log_event`. -/
def make_log_event (level component event message : String) (fields : List LogField) : StructuredLogEvent :=
  { level, component, event, message, fields }

/-- `AdminSocketAccessLogEntry`. -/
structure AdminSocketAccessLogEntry where
  method : String
  path : String
  status_code : ℤ := 0
  request_bytes : ℕ := 0
  response_bytes : ℕ := 0
  timed_out : Bool := false
  payload_too_large : Bool := false
  deriving DecidableEq

/-- `make_admin_socket_access_log_event`. -/
def make_admin_socket_access_log_event (entry : AdminSocketAccessLogEntry) : StructuredLogEvent :=
  make_log_event "info" "admin" "admin.socket_request" "admin socket request handled"
    [⟨"method", if entry.method = "" then "unknown" else entry.method⟩,
      ⟨"path", if entry.path = "" then "unknown" else entry.path⟩,
      ⟨"status", toString entry.status_code⟩,
      ⟨"request_bytes", toString entry.request_bytes⟩,
      ⟨"response_bytes", toString entry.response_bytes⟩,
      ⟨"timed_out", if entry.timed_out then "true" else "false"⟩,
      ⟨"payload_too_large", if entry.payload_too_large then "true" else "false"⟩]

/-- The value at the start of a text, and what follows it. -/
def parse_value (text : List Char) : Option (List Char × List Char) :=
  if text.head? = some '"' then Escaping.quoted.read '"' text.tail
  else some (text.takeWhile fun c => c ≠ ' ', text.dropWhile fun c => c ≠ ' ')

/-- The fields of a text, of which there are at most `n`. -/
def parse_fields : ℕ → List Char → Option (List LogField)
  | 0, _ => none
  | n + 1, text => do
    let (value, rest) ← parse_value (text.dropWhile fun c => c ≠ '=').tail
    let field : LogField := ⟨String.ofList (text.takeWhile fun c => c ≠ '='), String.ofList value⟩
    if rest = [] then return [field]
    else if rest.head? = some ' ' then return field :: (← parse_fields n rest.tail)
    else none

/-- The fields of a line, from left to right. -/
def parse_logfmt (line : List Char) : Option (List LogField) := parse_fields line.length line

/-- A key without the characters that a line gives a meaning to. -/
def IsLogKey (key : String) : Prop :=
  key ≠ "" ∧ ∀ c ∈ key.toList, c ∉ [' ', '\t', '\r', '\n', '=', '"', '\\']

section Values

/-- What makes a value bare. -/
theorem not_needs_quotes_iff {value : List Char} : needs_quotes value = false ↔
    value ≠ [] ∧ ∀ c ∈ value, c ∉ [' ', '\t', '\n', '\r', '"', '\\', '='] := by
  unfold needs_quotes
  rw [Bool.or_eq_false_iff, List.any_eq_false]
  simp [List.isEmpty_eq_false_iff, and_assoc]

/-- A value is read up to the end of the line or the blank after it. -/
theorem parse_escape_logfmt_value (value : List Char) {rest : List Char}
    (hrest : rest = [] ∨ ∃ more, rest = ' ' :: more) :
    parse_value (escape_logfmt_value value ++ rest) = some (value, rest) := by
  unfold escape_logfmt_value parse_value
  cases hquotes : needs_quotes value with
  | true =>
    rw [if_pos rfl]
    show Escaping.quoted.read '"' (Escaping.quoted.escape value ++ ['"'] ++ rest) = _
    rw [List.append_assoc]
    exact Escaping.quoted.read_escape (by decide) (by decide) value rest
  | false =>
    obtain ⟨hne, hplain⟩ := not_needs_quotes_iff.mp hquotes
    have hhead : (value ++ rest).head? ≠ some '"' := by
      rw [List.head?_append_of_ne_nil _ hne]
      intro h
      exact hplain '"' (List.mem_of_mem_head? h) (by simp)
    have hspace : ∀ c ∈ value, decide (c ≠ ' ') = true := fun c hc =>
      decide_eq_true fun h => hplain c hc (by simp [h])
    rw [if_neg Bool.false_ne_true, if_neg hhead, List.takeWhile_append_of_pos hspace,
      List.dropWhile_append_of_pos hspace]
    obtain rfl | ⟨more, rfl⟩ := hrest
    · rw [List.takeWhile_nil, List.dropWhile_nil, List.append_nil]
    · rw [List.takeWhile_cons_of_neg (by simp), List.dropWhile_cons_of_neg (by simp), List.append_nil]

/-- A value has no line break. -/
theorem escape_logfmt_value_line (value : List Char) {c : Char} (hc : c = '\n' ∨ c = '\r') :
    c ∉ escape_logfmt_value value := by
  unfold escape_logfmt_value
  cases hquotes : needs_quotes value with
  | true =>
    rw [if_pos rfl, List.mem_cons, List.mem_append, List.mem_singleton]
    rintro (rfl | hin | rfl)
    · obtain h | h := hc <;> cases h
    · obtain ⟨-, hletter⟩ | rfl | ⟨a, ha⟩ := Escaping.quoted.mem_escape hin
      · obtain rfl | rfl := hc <;> cases hletter
      · obtain h | h := hc <;> cases h
      · have hmeaning := Escaping.quoted.meaning_letter a c ha
        obtain rfl | rfl := hc <;> cases hmeaning
    · obtain h | h := hc <;> cases h
  | false =>
    rw [if_neg Bool.false_ne_true]
    intro hin
    have hplain := (not_needs_quotes_iff.mp hquotes).2 c hin
    obtain rfl | rfl := hc <;> simp at hplain

end Values

section Lines

variable {field : LogField} {fields : List LogField}

/-- A field is read up to the end of the line or the blank after it. -/
theorem parse_field_text (hkey : IsLogKey field.key) {rest : List Char}
    (hrest : rest = [] ∨ ∃ more, rest = ' ' :: more) :
    String.ofList ((field_text field ++ rest).takeWhile fun c => c ≠ '=') = field.key ∧
      parse_value ((field_text field ++ rest).dropWhile fun c => c ≠ '=').tail =
        some (field.value.toList, rest) := by
  have hequals : ∀ c ∈ field.key.toList, decide (c ≠ '=') = true := fun c hc =>
    decide_eq_true fun h => hkey.2 c hc (by simp [h])
  unfold field_text
  rw [List.append_assoc, List.takeWhile_append_of_pos hequals, List.dropWhile_append_of_pos hequals,
    List.cons_append, List.takeWhile_cons_of_neg (by simp), List.dropWhile_cons_of_neg (by simp),
    List.append_nil, List.tail_cons, String.ofList_toList]
  exact ⟨rfl, parse_escape_logfmt_value _ hrest⟩

/-- The text of a field after the first is a blank and the field. -/
theorem append_field_eq (hkey : IsLogKey field.key) : append_field field = ' ' :: field_text field :=
  if_neg hkey.1

/-- The fields that were written are read. -/
theorem parse_fields_text {n : ℕ} (hn : fields.length ≤ n) (hkey : IsLogKey field.key)
    (hkeys : ∀ f ∈ fields, IsLogKey f.key) :
    parse_fields (n + 1) (field_text field ++ fields.flatMap append_field) = some (field :: fields) := by
  induction fields generalizing n field with
  | nil =>
    obtain ⟨hname, hvalue⟩ := parse_field_text hkey (.inl rfl)
    rw [parse_fields, List.flatMap_nil, hname, hvalue]
    show some [LogField.mk field.key (String.ofList field.value.toList)] = _
    rw [String.ofList_toList]
  | cons next fields ih =>
    obtain ⟨hnext, hrest⟩ := List.forall_mem_cons.mp hkeys
    obtain ⟨m, rfl⟩ : ∃ m, n = m + 1 := Nat.exists_eq_succ_of_ne_zero (by rintro rfl; cases hn)
    have htail : (next :: fields).flatMap append_field =
        ' ' :: (field_text next ++ fields.flatMap append_field) := by
      rw [List.flatMap_cons, append_field_eq hnext, List.cons_append]
    obtain ⟨hname, hvalue⟩ := parse_field_text hkey (.inr ⟨_, htail⟩)
    rw [parse_fields, hname, hvalue, htail]
    show (do
      let more ← parse_fields (m + 1) (field_text next ++ fields.flatMap append_field)
      return LogField.mk field.key (String.ofList field.value.toList) :: more : Option (List LogField)) = _
    rw [ih (Nat.le_of_succ_le_succ hn) hnext hrest, String.ofList_toList]
    rfl

/-- Every field takes some of the line. -/
theorem length_le_flatMap (hkeys : ∀ f ∈ fields, IsLogKey f.key) :
    fields.length ≤ (fields.flatMap append_field).length := by
  induction fields with
  | nil => exact Nat.le_refl 0
  | cons next fields ih =>
    obtain ⟨hnext, hrest⟩ := List.forall_mem_cons.mp hkeys
    rw [List.flatMap_cons, List.length_append, append_field_eq hnext, List.length_cons, List.length_cons]
    have := ih hrest
    omega

/-- A field has no line break. -/
theorem field_text_line (hkey : IsLogKey field.key) {c : Char} (hc : c = '\n' ∨ c = '\r') :
    c ∉ field_text field := by
  unfold field_text
  rw [List.mem_append, List.mem_cons]
  rintro (hin | rfl | hin)
  · have hplain := hkey.2 c hin
    obtain rfl | rfl := hc <;> simp at hplain
  · obtain h | h := hc <;> cases h
  · exact escape_logfmt_value_line _ hc hin

end Lines

section Events

variable {event : StructuredLogEvent}

/-- The keys that every line has. -/
theorem isLogKey_own : ∀ key ∈ ["level", "component", "event", "message", "method", "path", "status",
    "request_bytes", "response_bytes", "timed_out", "payload_too_large"], IsLogKey key := by
  simp [IsLogKey]

/-- A line is its fields. -/
theorem format_logfmt_eq (hlevel : event.level ≠ "") : format_logfmt event =
    field_text ⟨"level", event.level⟩ ++ event.others.flatMap append_field := by
  unfold format_logfmt StructuredLogEvent.others
  rw [if_neg hlevel, List.flatMap_append, List.flatMap_cons, List.flatMap_cons, List.flatMap_cons,
    List.flatMap_nil, List.append_nil]
  simp only [List.append_assoc]

/-- The line of an event is one line, and its fields are read as they were written. -/
theorem format_logfmt_spec (hlevel : event.level ≠ "") (hkeys : ∀ f ∈ event.fields, IsLogKey f.key) :
    ('\n' ∉ format_logfmt event ∧ '\r' ∉ format_logfmt event) ∧
      parse_logfmt (format_logfmt event) = some event.all := by
  have hothers : ∀ f ∈ event.others, IsLogKey f.key := by
    intro f hf
    obtain hf | hf := List.mem_append.mp hf
    · refine isLogKey_own _ ?_
      simp only [List.mem_cons, List.not_mem_nil, or_false] at hf
      obtain rfl | rfl | rfl := hf <;> simp
    · exact hkeys f hf
  have hlevel_key : IsLogKey (LogField.mk "level" event.level).key := isLogKey_own "level" List.mem_cons_self
  have hline {c : Char} (hc : c = '\n' ∨ c = '\r') : c ∉ format_logfmt event := by
    rw [format_logfmt_eq hlevel, List.mem_append, List.mem_flatMap]
    rintro (hin | ⟨f, hf, hin⟩)
    · exact field_text_line hlevel_key hc hin
    · rw [append_field_eq (hothers f hf), List.mem_cons] at hin
      obtain rfl | hin := hin
      · obtain h | h := hc <;> cases h
      · exact field_text_line (hothers f hf) hc hin
  refine ⟨⟨hline (.inl rfl), hline (.inr rfl)⟩, ?_⟩
  have hcount := length_le_flatMap hothers
  have htext : 0 < (field_text ⟨"level", event.level⟩).length := by
    unfold field_text
    rw [List.length_append, List.length_cons]
    omega
  unfold parse_logfmt
  rw [format_logfmt_eq hlevel, List.length_append]
  obtain ⟨n, hn⟩ : ∃ n, (field_text ⟨"level", event.level⟩).length +
      (event.others.flatMap append_field).length = n + 1 := Nat.exists_eq_succ_of_ne_zero (by omega)
  rw [hn]
  exact parse_fields_text (by omega) hlevel_key hothers

/-- The keys of the access log are such keys. -/
theorem isLogKey_access (entry : AdminSocketAccessLogEntry) :
    ∀ f ∈ (make_admin_socket_access_log_event entry).fields, IsLogKey f.key := by
  unfold make_admin_socket_access_log_event make_log_event
  dsimp only
  intro f hf
  refine isLogKey_own _ ?_
  simp only [List.mem_cons, List.not_mem_nil, or_false] at hf
  obtain rfl | rfl | rfl | rfl | rfl | rfl | rfl := hf <;> simp

/-- The line of an event is one line that says its fields, and no request can change what the lines of the
access log say: the log of any requests is taken apart into their entries. -/
theorem parse_format_logfmt (hlevel : event.level ≠ "") (hkeys : ∀ f ∈ event.fields, IsLogKey f.key)
    (entries : List AdminSocketAccessLogEntry) :
    ('\n' ∉ format_logfmt event ∧ '\r' ∉ format_logfmt event) ∧
      parse_logfmt (format_logfmt event) = some event.all ∧
      (Text.lines (entries.flatMap fun entry => write_logfmt (make_admin_socket_access_log_event entry))).map
        parse_logfmt = entries.map fun entry => some (make_admin_socket_access_log_event entry).all := by
  have hinfo (entry : AdminSocketAccessLogEntry) : (make_admin_socket_access_log_event entry).level ≠ "" := by
    show "info" ≠ ""
    decide
  have haccess (entry : AdminSocketAccessLogEntry) :=
    format_logfmt_spec (hinfo entry) (isLogKey_access entry)
  obtain ⟨hline, hparse⟩ := format_logfmt_spec hlevel hkeys
  refine ⟨hline, hparse, ?_⟩
  have hlines := Text.lines_flatMap (fun entry => format_logfmt (make_admin_socket_access_log_event entry))
    entries fun entry _ => (haccess entry).1.1
  unfold write_logfmt
  rw [hlines, List.map_map]
  exact List.map_congr_left fun entry _ => (haccess entry).2

/-- A request whose path has a quote, a field and a line of its own. -/
def forged_request : AdminSocketAccessLogEntry where
  method := "GET"
  path := "/\" status=200\nlevel=info"
  status_code := 404

/-- It is logged as one entry with this path. -/
theorem parse_format_logfmt_forged :
    parse_logfmt (format_logfmt (make_admin_socket_access_log_event forged_request)) =
      some (make_admin_socket_access_log_event forged_request).all :=
  (parse_format_logfmt (by show "info" ≠ ""; decide) (isLogKey_access forged_request) []).2.1

end Events

end SignalRoute
