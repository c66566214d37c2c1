import SignalRoute.Text.Escape
import SignalRoute.Numeric.Grammar

/-!
# JSON texts

A decoder of JSON by the grammar of RFC 8259, over Unicode characters. A `Reader` reads the start of a
text; each rule of the grammar is one.

`Takes p` says of a reader that it takes only characters with `p`. A rule is built from readers that have
the property by `bind`, so `decode_takes` follows rule by rule: a text that is decoded has no control
character besides the tab and the line breaks. `Writes` is the other direction, what a text has to be
for a value to be read from it, for the texts of a writer that leaves no blanks and has only the five
escapes of C strings.
-/

namespace Text

/-- A value. -/
inductive Json where
  | null
  | bool (b : Bool)
  | number (q : ℚ)
  | string (s : List Char)
  | array (l : List Json)
  | object (l : List (List Char × Json))

/-- What is read from the start of a text, and the rest of the text. -/
abbrev Reader := StateT (List Char) Option

namespace Reader

variable {α β : Type}

/-- One character. -/
def satisfy (p : Char → Bool) : Reader Char
  | [] => none
  | c :: l => if p c then some (c, l) else none

/-- One character if there is one. -/
def accept (p : Char → Bool) : Reader (Option Char)
  | [] => some (none, [])
  | c :: l => if p c then some (some c, l) else some (none, c :: l)

/-- As many characters as there are. -/
def many (p : Char → Bool) : Reader (List Char) := fun s => some (s.takeWhile p, s.dropWhile p)

/-- A fixed word. -/
def word : List Char → Reader Unit
  | [] => pure ()
  | c :: cs => do
    let _ ← satisfy fun d => d = c
    word cs

theorem bind_apply (r : Reader α) (f : α → Reader β) (s : List Char) :
    (r >>= f) s = (r s).bind fun x => f x.1 x.2 := rfl

theorem bind_of_eq_some {r : Reader α} {s rest : List Char} {a : α} (h : r s = some (a, rest))
    (f : α → Reader β) : (r >>= f) s = f a rest := by
  rw [bind_apply, h, Option.bind_some]

theorem map_of_eq_some {r : Reader α} {s rest : List Char} {a : α} (h : r s = some (a, rest))
    (f : α → β) : (f <$> r) s = some (f a, rest) := by
  show (r s).bind (fun x => some (f x.1, x.2)) = _
  rw [h, Option.bind_some]

/-- A reader that takes only characters with `p`. -/
def Takes (p : Char → Prop) (r : Reader α) : Prop :=
  ∀ s a rest, r s = some (a, rest) → ∃ used, s = used ++ rest ∧ ∀ c ∈ used, p c

namespace Takes

variable {p : Char → Prop} {q : Char → Bool}

theorem pure (a : α) : Takes p (pure a : Reader α) := by
  intro s b rest h
  cases h
  exact ⟨[], rfl, fun c hc => absurd hc List.not_mem_nil⟩

theorem failure : Takes p (failure : Reader α) := by
  intro s b rest h
  cases h

theorem get : Takes p (get : Reader (List Char)) := by
  intro s b rest h
  cases h
  exact ⟨[], rfl, fun c hc => absurd hc List.not_mem_nil⟩

theorem bind {r : Reader α} {f : α → Reader β} (hr : Takes p r) (hf : ∀ a, Takes p (f a)) :
    Takes p (r >>= f) := by
  intro s b rest h
  obtain ⟨⟨a, mid⟩, hmid, hrest⟩ := Option.bind_eq_some_iff.mp h
  obtain ⟨used, rfl, hused⟩ := hr s a mid hmid
  obtain ⟨more, rfl, hmore⟩ := hf a mid b rest hrest
  refine ⟨used ++ more, by rw [List.append_assoc], fun c hc => ?_⟩
  exact (List.mem_append.mp hc).elim (hused c) (hmore c)

theorem map {r : Reader α} (hr : Takes p r) (f : α → β) : Takes p (f <$> r) :=
  hr.bind fun a => pure (f a)

theorem ite {c : Prop} [Decidable c] {r r' : Reader α} (hr : Takes p r) (hr' : Takes p r') :
    Takes p (if c then r else r') := by
  split
  · exact hr
  · exact hr'

theorem satisfy (h : ∀ c, q c = true → p c) : Takes p (satisfy q) := by
  intro s a rest hs
  cases s with
  | nil => cases hs
  | cons c l =>
    dsimp only [Reader.satisfy] at hs
    split_ifs at hs with hc
    cases hs
    exact ⟨[a], rfl, List.forall_mem_singleton.mpr (h a hc)⟩

theorem accept (h : ∀ c, q c = true → p c) : Takes p (accept q) := by
  intro s a rest hs
  cases s with
  | nil =>
    cases hs
    exact ⟨[], rfl, fun c hc => absurd hc List.not_mem_nil⟩
  | cons c l =>
    dsimp only [Reader.accept] at hs
    split_ifs at hs with hc
    · cases hs
      exact ⟨[c], rfl, List.forall_mem_singleton.mpr (h c hc)⟩
    · cases hs
      exact ⟨[], rfl, fun c hc => absurd hc List.not_mem_nil⟩

theorem many (h : ∀ c, q c = true → p c) : Takes p (many q) := by
  intro s a rest hs
  cases hs
  exact ⟨s.takeWhile q, (List.takeWhile_append_dropWhile).symm, fun c hc => h c (List.mem_takeWhile_imp hc)⟩

theorem word {l : List Char} (h : ∀ c ∈ l, p c) : Takes p (word l) := by
  induction l with
  | nil => exact pure ()
  | cons c l ih =>
    obtain ⟨hc, hl⟩ := List.forall_mem_cons.mp h
    exact bind (satisfy fun d hd => of_decide_eq_true hd ▸ hc) fun _ => ih hl

end Takes

end Reader

namespace Json

open Reader

/-- Blanks between the tokens. -/
def is_blank (c : Char) : Bool := c = ' ' || c = '\t' || c = '\n' || c = '\r'

/-- Digits, at least one. -/
def digits : Reader (List Char) := do
  let c ← satisfy Char.isDigit
  let cs ← many Char.isDigit
  return c :: cs

/-- Digits without a leading zero. -/
def whole : Reader (List Char) := do
  let ds ← digits
  if ds.head? = some '0' ∧ ds ≠ ['0'] then failure else return ds

def fraction : Reader (List Char) := do
  let point ← accept fun c => c = '.'
  if point = none then return [] else digits

def exponent : Reader ℤ := do
  let mark ← accept fun c => c = 'e' || c = 'E'
  if mark = none then return 0
  else do
    let sign ← accept fun c => c = '+' || c = '-'
    let ds ← digits
    let n : ℤ := Nat.ofDigitChars 10 ds 0
    return if sign = some '-' then -n else n

def numeral : Reader ℚ := do
  let minus ← accept fun c => c = '-'
  let w ← whole
  let f ← fraction
  let e ← exponent
  let magnitude : ℚ := Nat.ofDigitChars 10 (w ++ f) 0 * 10^(e - f.length)
  return if minus = none then magnitude else -magnitude

/-- Four hexadecimal digits. -/
def code_unit : Reader ℕ := do
  let a ← satisfy Numeric.isHexDigit
  let b ← satisfy Numeric.isHexDigit
  let c ← satisfy Numeric.isHexDigit
  let d ← satisfy Numeric.isHexDigit
  return Numeric.digitsValue 16 Numeric.hexValue [a, b, c, d]

/-- A character by its code, or by the two halves of a surrogate pair. Half a pair is not a character. -/
def unicode : Reader Char := do
  let high ← code_unit
  if high < 0xD800 ∨ 0xE000 ≤ high then return Char.ofNat high
  else if 0xDC00 ≤ high then failure
  else do
    word ['\\', 'u']
    let low ← code_unit
    if low < 0xDC00 ∨ 0xE000 ≤ low then failure
    else return Char.ofNat (0x10000 + (high - 0xD800) * 0x400 + (low - 0xDC00))

/-- What a letter means after a backslash. -/
def meaning (c : Char) : Option Char :=
  if c = '/' then some '/'
  else if c = 'b' then some '\x08'
  else if c = 'f' then some '\x0c'
  else Escaping.meaningOf c

def escaped : Reader Char := do
  let c ← satisfy fun c => ' ' ≤ c
  if c = 'u' then unicode else (meaning c).elim failure pure

/-- A character of a string that starts with `c`. -/
def character (c : Char) : Reader Char := if c = '\\' then escaped else return c

/-- The characters of a string up to its quote, of which there are fewer than `n`. -/
def characters : ℕ → Reader (List Char)
  | 0 => failure
  | n + 1 => do
    let c ← satisfy fun c => ' ' ≤ c
    if c = '"' then return []
    else do
      let a ← character c
      let l ← characters n
      return a :: l

def quoted_text : Reader (List Char) := do
  let _ ← satisfy fun c => c = '"'
  let s ← get
  characters s.length

/-- The items of a list up to its bracket, of which there are at most `n`. -/
def items {α : Type} (item : Reader α) (close : Char) : ℕ → Reader (List α)
  | 0 => failure
  | n + 1 => do
    let a ← item
    let _ ← many is_blank
    let c ← satisfy fun c => c = ',' || c = close
    if c = ',' then do
      let l ← items item close n
      return a :: l
    else return [a]

/-- A list after its opening bracket. -/
def list {α : Type} (item : Reader α) (close : Char) : Reader (List α) := do
  let _ ← many is_blank
  let bracket ← accept fun c => c = close
  if bracket = none then do
    let s ← get
    items item close s.length
  else return []

def member (value : Reader Json) : Reader (List Char × Json) := do
  let _ ← many is_blank
  let name ← quoted_text
  let _ ← many is_blank
  let _ ← satisfy fun c => c = ':'
  let a ← value
  return (name, a)

/-- A value that starts with `c`, where `inner` reads the values in it. -/
def value_at (inner : Reader Json) (c : Char) : Reader Json :=
  if c = '"' then string <$> quoted_text
  else if c = '[' then do
    let _ ← satisfy fun c => c = '['
    array <$> list inner ']'
  else if c = '\x7b' then do
    let _ ← satisfy fun c => c = '\x7b'
    object <$> list (member inner) '\x7d'
  else if c = 't' then do
    word ['t', 'r', 'u', 'e']
    return bool true
  else if c = 'f' then do
    word ['f', 'a', 'l', 's', 'e']
    return bool false
  else if c = 'n' then do
    word ['n', 'u', 'l', 'l']
    return null
  else number <$> numeral

/-- A value that is nested less than `n` times. -/
def value : ℕ → Reader Json
  | 0 => failure
  | n + 1 => do
    let _ ← many is_blank
    let s ← get
    s.head?.elim failure (value_at (value n))

/-- The value of a text. -/
def decode (s : List Char) : Option Json :=
  ((value s.length >>= fun j => do let _ ← many is_blank; return j) s).bind fun x =>
    if x.2 = [] then some x.1 else none

/-- The value of a name. -/
def field (name : List Char) : Json → Option Json
  | object l => (l.find? fun m => m.1 = name).map Prod.snd
  | _ => none

def as_bool : Json → Option Bool
  | bool b => some b
  | _ => none

def as_int : Json → Option ℤ
  | number q => if q.den = 1 then some q.num else none
  | _ => none

def as_string : Json → Option String
  | string s => some (String.ofList s)
  | _ => none

def as_array : Json → Option (List Json)
  | array l => some l
  | _ => none

/-- The characters of a text: no control characters besides the tab and the line breaks. -/
def Allowed (c : Char) : Prop := ' ' ≤ c ∨ c = '\t' ∨ c = '\n' ∨ c = '\r'

section Taken

theorem allowed_of_isDigit {c : Char} (h : c.isDigit = true) : Allowed c := by
  refine .inl ?_
  have := (Char.isDigit_iff_toNat.mp h).1
  show ' '.toNat ≤ c.toNat
  exact Nat.le_trans (by decide) this

theorem allowed_of_isHexDigit {c : Char} (h : Numeric.isHexDigit c = true) : Allowed c := by
  obtain hdigit | hletter := (Bool.or_eq_true _ _).mp h
  · exact allowed_of_isDigit hdigit
  · refine .inl ?_
    have hlow : 'a'.toNat ≤ c.toLower.toNat := of_decide_eq_true ((Bool.and_eq_true _ _).mp hletter).1
    show ' '.toNat ≤ c.toNat
    unfold Char.toLower at hlow
    split at hlow
    · rename_i hupper
      exact Nat.le_trans (by decide) hupper.1
    · exact Nat.le_trans (by decide) hlow

theorem takes_blanks : Takes Allowed (many is_blank) := by
  refine .many fun c hc => ?_
  unfold is_blank at hc
  simp only [Bool.or_eq_true, decide_eq_true_eq] at hc
  obtain ((rfl | h) | h) | h := hc
  · exact .inl (Nat.le_refl _)
  · exact .inr (.inl h)
  · exact .inr (.inr (.inl h))
  · exact .inr (.inr (.inr h))

theorem takes_digits : Takes Allowed digits :=
  .bind (.satisfy fun _ => allowed_of_isDigit) fun _ =>
    .bind (.many fun _ => allowed_of_isDigit) fun _ => .pure _

theorem takes_whole : Takes Allowed whole := takes_digits.bind fun _ => .ite .failure (.pure _)

theorem takes_fraction : Takes Allowed fraction :=
  .bind (.accept (by simp [Allowed])) fun _ => .ite (.pure _) takes_digits

theorem takes_exponent : Takes Allowed exponent := by
  refine .bind (.accept ?_) fun _ => .ite (.pure _) (.bind (.accept ?_) fun _ => takes_digits.bind fun _ => .pure _)
  · simp [Allowed]
  · simp [Allowed]

theorem takes_numeral : Takes Allowed numeral := by
  refine .bind (.accept ?_) fun _ => takes_whole.bind fun _ => takes_fraction.bind fun _ =>
    takes_exponent.bind fun _ => .pure _
  simp [Allowed]

theorem takes_code_unit : Takes Allowed code_unit := by
  have hhex : Takes Allowed (satisfy Numeric.isHexDigit) := .satisfy fun _ => allowed_of_isHexDigit
  exact hhex.bind fun _ => hhex.bind fun _ => hhex.bind fun _ => hhex.bind fun _ => .pure _

theorem takes_unicode : Takes Allowed unicode := by
  refine takes_code_unit.bind fun _ => .ite (.pure _) (.ite .failure (.bind (.word ?_) fun _ =>
    takes_code_unit.bind fun _ => .ite .failure (.pure _)))
  simp [Allowed]

theorem takes_escaped : Takes Allowed escaped := by
  refine .bind (.satisfy fun c hc => .inl (of_decide_eq_true hc)) fun c => .ite takes_unicode ?_
  cases meaning c with
  | none => exact .failure
  | some a => exact .pure a

theorem takes_characters (n : ℕ) : Takes Allowed (characters n) := by
  induction n with
  | zero => exact .failure
  | succ n ih =>
    refine .bind (.satisfy fun c hc => .inl (of_decide_eq_true hc)) fun c => .ite (.pure _) ?_
    exact .bind (.ite takes_escaped (.pure c)) fun _ => ih.bind fun _ => .pure _

theorem takes_quoted_text : Takes Allowed quoted_text := by
  refine .bind (.satisfy ?_) fun _ => Takes.get.bind fun s => takes_characters s.length
  simp [Allowed]

theorem takes_items {α : Type} {item : Reader α} (h : Takes Allowed item) {close : Char}
    (hclose : Allowed close) (n : ℕ) : Takes Allowed (items item close n) := by
  induction n with
  | zero => exact .failure
  | succ n ih =>
    refine h.bind fun a => takes_blanks.bind fun _ => .bind (.satisfy fun c hc => ?_) fun c =>
      .ite (ih.bind fun _ => .pure _) (.pure _)
    obtain hc | hc := (Bool.or_eq_true _ _).mp hc
    · exact of_decide_eq_true hc ▸ .inl (by decide)
    · exact of_decide_eq_true hc ▸ hclose

theorem takes_list {α : Type} {item : Reader α} (h : Takes Allowed item) {close : Char}
    (hclose : Allowed close) : Takes Allowed (list item close) :=
  takes_blanks.bind fun _ => .bind (.accept fun _ hc => of_decide_eq_true hc ▸ hclose) fun _ =>
    .ite (Takes.get.bind fun s => takes_items h hclose s.length) (.pure _)

theorem takes_member {value : Reader Json} (h : Takes Allowed value) : Takes Allowed (member value) := by
  refine takes_blanks.bind fun _ => takes_quoted_text.bind fun _ => takes_blanks.bind fun _ =>
    .bind (.satisfy ?_) fun _ => h.bind fun _ => .pure _
  simp [Allowed]

theorem takes_value_at {inner : Reader Json} (h : Takes Allowed inner) (c : Char) :
    Takes Allowed (value_at inner c) := by
  have hprinted (c : Char) (h : ' ' ≤ c := by decide) : Takes Allowed (satisfy fun d => d = c) :=
    .satisfy fun d hd => of_decide_eq_true hd ▸ .inl h
  refine .ite (takes_quoted_text.map _) (.ite ?_ (.ite ?_ (.ite ?_ (.ite ?_ (.ite ?_ (takes_numeral.map _))))))
  · exact (hprinted '[').bind fun _ => (takes_list h (.inl (by decide))).map _
  · exact (hprinted '\x7b').bind fun _ => (takes_list (takes_member h) (.inl (by decide))).map _
  · exact .bind (.word (by simp [Allowed])) fun _ => .pure _
  · exact .bind (.word (by simp [Allowed])) fun _ => .pure _
  · exact .bind (.word (by simp [Allowed])) fun _ => .pure _

theorem takes_value (n : ℕ) : Takes Allowed (value n) := by
  induction n with
  | zero => exact .failure
  | succ n ih =>
    refine takes_blanks.bind fun _ => Takes.get.bind fun s => ?_
    cases s.head? with
    | none => exact .failure
    | some c => exact takes_value_at ih c

/-- A text that is decoded has only the characters of texts. -/
theorem decode_takes {s : List Char} {j : Json} (h : decode s = some j) : ∀ c ∈ s, Allowed c := by
  obtain ⟨⟨i, rest⟩, hread, hend⟩ := Option.bind_eq_some_iff.mp h
  dsimp only at hend
  split_ifs at hend with hrest
  subst hrest
  obtain ⟨used, rfl, hused⟩ := ((takes_value s.length).bind fun j =>
    takes_blanks.bind fun _ => .pure j) s i [] hread
  rwa [List.append_nil]

end Taken

/-- What may follow a value in a text without blanks. -/
def Closed (rest : List Char) : Prop := ∀ c ∈ rest.head?, c = ',' ∨ c = ']' ∨ c = '\x7d'

/-- A text without blanks from which a reader of items reads an item. -/
structure Writes {α : Type} (item : Reader α) (text : List Char) (a : α) : Prop where
  starts : ∃ c l, text = c :: l ∧ is_blank c = false ∧ c ≠ ']' ∧ c ≠ '\x7d'
  reads : ∀ rest, Closed rest → item (text ++ rest) = some (a, rest)

/-- Texts with commas between them. -/
def joined : List (List Char) → List Char
  | [] => []
  | text :: texts => text ++ texts.flatMap (',' :: ·)

/-- Each of the texts is a part of the text with commas. -/
theorem subset_joined {text : List Char} {texts : List (List Char)} (h : text ∈ texts) : text ⊆ joined texts := by
  cases texts with
  | nil => cases h
  | cons first texts =>
    obtain rfl | h := List.mem_cons.mp h
    · exact List.subset_append_left _ _
    · intro c hc
      exact List.mem_append_right _ (List.mem_flatMap.mpr ⟨text, h, List.mem_cons_of_mem _ hc⟩)

/-- The five escapes are for characters that a text may have. -/
theorem allowed_of_letter {a b : Char} (h : Escaping.quoted.letter a = some b) : Allowed a := by
  have h : Escaping.letterOf a = some b := h
  unfold Escaping.letterOf at h
  split at h <;> cases h <;> simp [Allowed]

section Written

variable {s rest : List Char}

theorem satisfy_cons {p : Char → Bool} {c : Char} (h : p c = true) (l : List Char) :
    satisfy p (c :: l) = some (c, l) := if_pos h

theorem accept_cons {p : Char → Bool} {c : Char} (h : p c = true) (l : List Char) :
    accept p (c :: l) = some (some c, l) := if_pos h

theorem accept_of_not {p : Char → Bool} (h : ∀ c ∈ s.head?, p c = false) : accept p s = some (none, s) := by
  cases s with
  | nil => rfl
  | cons c l => exact if_neg (by rw [h c rfl]; exact Bool.false_ne_true)

theorem many_of_not {p : Char → Bool} (h : ∀ c ∈ s.head?, p c = false) : many p s = some ([], s) := by
  cases s with
  | nil => rfl
  | cons c l =>
    have hc := h c rfl
    unfold many
    rw [List.takeWhile_cons_of_neg (by simp [hc]), List.dropWhile_cons_of_neg (by simp [hc])]

theorem word_append (l : List Char) : word l (l ++ rest) = some ((), rest) := by
  induction l with
  | nil => rfl
  | cons c l ih =>
    have hfirst : satisfy (fun d => d = c) (c :: (l ++ rest)) = some (c, l ++ rest) :=
      satisfy_cons (decide_eq_true rfl) _
    exact (bind_of_eq_some hfirst _).trans ih

theorem Closed.not {p : Char → Bool} (h : Closed rest) (hp : p ',' = false ∧ p ']' = false ∧ p '\x7d' = false) :
    ∀ c ∈ rest.head?, p c = false := by
  intro c hc
  obtain rfl | rfl | rfl := h c hc
  · exact hp.1
  · exact hp.2.1
  · exact hp.2.2

/-- A letter of the five escapes. -/
theorem meaning_of_meaningOf {b c : Char} (h : Escaping.meaningOf b = some c) :
    ' ' ≤ b ∧ b ≠ 'u' ∧ meaning b = some c := by
  unfold Escaping.meaningOf at h
  split at h <;> cases h <;> exact ⟨by decide, by decide, rfl⟩

/-- A character that a text may have needs an escape or is a character of a string. -/
theorem le_of_allowed {c : Char} (h : Allowed c) (hletter : Escaping.quoted.letter c = none) : ' ' ≤ c := by
  obtain h | rfl | rfl | rfl := h
  · exact h
  · cases hletter
  · cases hletter
  · cases hletter

/-- Escaped characters are read up to the quote. -/
theorem characters_escape {n : ℕ} (hn : s.length < n) (h : ∀ c ∈ s, Allowed c) :
    characters n (Escaping.quoted.escape s ++ '"' :: rest) = some (s, rest) := by
  induction s generalizing n with
  | nil =>
    obtain ⟨m, rfl⟩ : ∃ m, n = m + 1 := Nat.exists_eq_succ_of_ne_zero (by omega)
    exact (bind_of_eq_some (satisfy_cons (by decide) rest) _).trans rfl
  | cons a l ih =>
    obtain ⟨m, rfl⟩ : ∃ m, n = m + 1 := Nat.exists_eq_succ_of_ne_zero (by omega)
    obtain ⟨ha, hl⟩ := List.forall_mem_cons.mp h
    have hrest := ih (Nat.lt_of_succ_lt_succ hn) hl
    rw [Escaping.escape_cons, Escaping.write, characters]
    cases hletter : Escaping.quoted.letter a with
    | none =>
      have hmark : a ≠ '\\' := Escaping.quoted.ne_mark_of_letter_eq_none hletter
      have hquote : a ≠ '"' := by
        rintro rfl
        cases hletter
      show (satisfy (fun c => ' ' ≤ c) >>= _) (a :: (Escaping.quoted.escape l ++ '"' :: rest)) = _
      rw [bind_of_eq_some (satisfy_cons (decide_eq_true (le_of_allowed ha hletter)) _), if_neg hquote, character,
        if_neg hmark, pure_bind, bind_of_eq_some hrest]
      rfl
    | some b =>
      obtain ⟨hb, hu, hmeaning⟩ := meaning_of_meaningOf (Escaping.quoted.meaning_letter a b hletter)
      have hescaped (l : List Char) : escaped (b :: l) = some (a, l) := by
        unfold escaped
        rw [bind_of_eq_some (satisfy_cons (decide_eq_true hb) l), if_neg hu, hmeaning]
        rfl
      show (satisfy (fun c => ' ' ≤ c) >>= _) ('\\' :: b :: (Escaping.quoted.escape l ++ '"' :: rest)) = _
      rw [bind_of_eq_some (satisfy_cons (by decide) _), if_neg (by decide), character, if_pos rfl,
        bind_of_eq_some (hescaped _), bind_of_eq_some hrest]
      rfl

/-- A text in quotes, escaped. -/
def quote (s : List Char) : List Char := '"' :: (Escaping.quoted.escape s ++ ['"'])

theorem quoted_text_quote (h : ∀ c ∈ s, Allowed c) : quoted_text (quote s ++ rest) = some (s, rest) := by
  have hshort : ∀ l : List Char, l.length ≤ (Escaping.quoted.escape l).length := by
    intro l
    induction l with
    | nil => exact Nat.le_refl 0
    | cons a l ih =>
      rw [Escaping.escape_cons, Escaping.write]
      cases Escaping.quoted.letter a with
      | none => exact Nat.succ_le_succ ih
      | some b => exact Nat.le_succ_of_le (Nat.succ_le_succ ih)
  have htext : quote s ++ rest = '"' :: (Escaping.quoted.escape s ++ '"' :: rest) := by
    unfold quote
    rw [List.cons_append, List.append_assoc, List.singleton_append]
  rw [htext]
  refine (bind_of_eq_some (satisfy_cons (decide_eq_true rfl) _) _).trans ?_
  show characters (Escaping.quoted.escape s ++ '"' :: rest).length _ = _
  refine characters_escape ?_ h
  rw [List.length_append, List.length_cons]
  have := hshort s
  omega

/-- Digits are read up to what is not a digit. -/
theorem digits_append {ds : List Char} (hne : ds ≠ []) (hds : ∀ c ∈ ds, c.isDigit = true)
    (h : ∀ c ∈ rest.head?, c.isDigit = false) : digits (ds ++ rest) = some (ds, rest) := by
  cases ds with
  | nil => exact absurd rfl hne
  | cons c l =>
    obtain ⟨hc, hl⟩ := List.forall_mem_cons.mp hds
    have hmany : many Char.isDigit (l ++ rest) = some (l, rest) := by
      have hrest : many Char.isDigit rest = some ([], rest) := many_of_not h
      unfold many at hrest ⊢
      rw [List.takeWhile_append_of_pos hl, List.dropWhile_append_of_pos hl,
        (Prod.mk.inj (Option.some.inj hrest)).1, (Prod.mk.inj (Option.some.inj hrest)).2, List.append_nil]
    unfold digits
    rw [List.cons_append, bind_of_eq_some (satisfy_cons hc _), bind_of_eq_some hmany]
    rfl

/-- The text of an integer is read before what may follow a value. -/
theorem numeral_toString (z : ℤ) (h : Closed rest) : numeral ((toString z).toList ++ rest) = some (↑z, rest) := by
  have hnat (n : ℕ) : whole ((toString n).toList ++ rest) = some ((toString n).toList, rest) := by
    have hcanonical := Numeric.isCanonical_toDigits n
    unfold whole
    rw [Nat.toString_eq_repr, Nat.toList_repr,
      bind_of_eq_some (digits_append Nat.toDigits_ne_nil hcanonical.1 (h.not (by decide))),
      if_neg fun hzero => hzero.2 (hcanonical.2 hzero.1)]
    rfl
  have hfraction : fraction rest = some ([], rest) := by
    unfold fraction
    rw [bind_of_eq_some (accept_of_not (h.not (by decide))), if_pos rfl]
    rfl
  have hexponent : exponent rest = some (0, rest) := by
    unfold exponent
    rw [bind_of_eq_some (accept_of_not (h.not (by decide))), if_pos rfl]
    rfl
  have hmagnitude (n : ℕ) :
      (Nat.ofDigitChars 10 ((toString n).toList ++ []) 0 * 10^(0 - (([] : List Char).length : ℤ)) : ℚ) = n := by
    rw [List.append_nil, (Numeric.ofDigitChars_takeWhile_toString n).2]
    simp
  unfold numeral
  cases z with
  | ofNat n =>
    obtain ⟨c, l, hl, hc⟩ := Numeric.toList_toString_cons n
    have hminus : accept (fun c => c = '-') ((toString n).toList ++ rest) =
        some (none, (toString n).toList ++ rest) := by
      refine accept_of_not ?_
      rw [hl]
      rintro d ⟨⟩
      refine decide_eq_false ?_
      rintro rfl
      cases hc
    show (accept (fun c => c = '-') >>= _) ((toString n).toList ++ rest) = _
    rw [bind_of_eq_some hminus, bind_of_eq_some (hnat n), bind_of_eq_some hfraction, bind_of_eq_some hexponent,
      if_pos rfl]
    show some (_, rest) = _
    rw [hmagnitude]
    rfl
  | negSucc n =>
    have htext : (toString (Int.negSucc n)).toList ++ rest = '-' :: ((toString (n + 1)).toList ++ rest) := by
      rw [Numeric.toString_negSucc, String.toList_append, List.append_assoc]
      rfl
    rw [htext, bind_of_eq_some (accept_cons (decide_eq_true rfl) _), bind_of_eq_some (hnat (n + 1)),
      bind_of_eq_some hfraction, bind_of_eq_some hexponent, if_neg (by simp)]
    show some (-_, rest) = _
    rw [hmagnitude, Int.cast_negSucc]

end Written

section Values

variable {α ι : Type} {item : Reader α} {close : Char} {text : ι → List Char} {val : ι → α} {l : List ι}
  {rest : List Char} {n : ℕ}

theorem blanks_of_starts {c : Char} (h : is_blank c = false) (l : List Char) :
    many is_blank (c :: l) = some ([], c :: l) :=
  many_of_not (by rintro d ⟨⟩; exact h)

/-- Items with commas between them are read up to the bracket. -/
theorem items_joined (hclose : close = ']' ∨ close = '\x7d') {i : ι} (hi : Writes item (text i) (val i))
    (hl : ∀ j ∈ l, Writes item (text j) (val j)) (hn : l.length < n) :
    items item close n (joined ((i :: l).map text) ++ close :: rest) = some ((i :: l).map val, rest) := by
  have hbracket : is_blank close = false ∧ close ≠ ',' := by
    obtain rfl | rfl := hclose <;> decide
  induction l generalizing i n with
  | nil =>
    obtain ⟨m, rfl⟩ : ∃ m, n = m + 1 := Nat.exists_eq_succ_of_ne_zero (by omega)
    have hclosed : Closed (close :: rest) := by
      rintro c ⟨⟩
      exact .inr hclose
    have htext : joined ([i].map text) ++ close :: rest = text i ++ close :: rest := by
      show text i ++ [] ++ close :: rest = _
      rw [List.append_nil]
    rw [htext, items, bind_of_eq_some (hi.reads _ hclosed), bind_of_eq_some (blanks_of_starts hbracket.1 rest),
      bind_of_eq_some (satisfy_cons (by simp) rest), if_neg hbracket.2]
    rfl
  | cons j l ih =>
    obtain ⟨m, rfl⟩ : ∃ m, n = m + 1 := Nat.exists_eq_succ_of_ne_zero (by omega)
    obtain ⟨hj, hl⟩ := List.forall_mem_cons.mp hl
    have hrest := ih hj hl (Nat.lt_of_succ_lt_succ hn)
    have htext : joined ((i :: j :: l).map text) ++ close :: rest =
        text i ++ ',' :: (joined ((j :: l).map text) ++ close :: rest) := by
      simp [joined]
    have hclosed : Closed (',' :: (joined ((j :: l).map text) ++ close :: rest)) := by
      rintro c ⟨⟩
      exact .inl rfl
    rw [htext, items, bind_of_eq_some (hi.reads _ hclosed), bind_of_eq_some (blanks_of_starts (by decide) _),
      bind_of_eq_some (satisfy_cons (by simp) _), if_pos rfl, bind_of_eq_some hrest]
    rfl

/-- A list of items is read after its bracket. -/
theorem list_joined (hclose : close = ']' ∨ close = '\x7d') (hl : ∀ i ∈ l, Writes item (text i) (val i)) :
    list item close (joined (l.map text) ++ close :: rest) = some (l.map val, rest) := by
  unfold list
  cases l with
  | nil =>
    have hblank : is_blank close = false := by obtain rfl | rfl := hclose <;> decide
    show (many is_blank >>= _) (close :: rest) = _
    rw [bind_of_eq_some (blanks_of_starts hblank rest), bind_of_eq_some (accept_cons (decide_eq_true rfl) rest),
      if_neg (by simp)]
    rfl
  | cons i l =>
    obtain ⟨hi, hl⟩ := List.forall_mem_cons.mp hl
    obtain ⟨c, t, ht, hblank, hsquare, hcurly⟩ := hi.starts
    have hne : c ≠ close := by obtain rfl | rfl := hclose <;> assumption
    have hcount : ∀ l : List ι, l.length ≤ ((l.map text).flatMap (',' :: ·)).length := by
      intro l
      induction l with
      | nil => exact Nat.le_refl 0
      | cons j l ih =>
        rw [List.map_cons, List.flatMap_cons, List.length_append, List.length_cons, List.length_cons]
        omega
    have hitems := @items_joined α ι item close text val l rest
      (joined ((i :: l).map text) ++ close :: rest).length hclose i hi hl (by
        show l.length < (text i ++ (l.map text).flatMap (',' :: ·) ++ close :: rest).length
        rw [List.length_append, List.length_append, List.length_cons]
        have := hcount l
        omega)
    have hstart : ∃ more, joined ((i :: l).map text) ++ close :: rest = c :: more := by
      show ∃ more, text i ++ (l.map text).flatMap (',' :: ·) ++ close :: rest = c :: more
      rw [ht]
      exact ⟨_, rfl⟩
    obtain ⟨more, hmore⟩ := hstart
    rw [hmore] at hitems ⊢
    rw [bind_of_eq_some (blanks_of_starts hblank more), bind_of_eq_some (accept_of_not (by
      rintro d ⟨⟩
      exact decide_eq_false hne)), if_pos rfl]
    exact hitems

/-- A name and a value. -/
theorem writes_member {name t : List Char} {value : Reader Json} {j : Json} (hname : ∀ c ∈ name, Allowed c)
    (h : Writes value t j) : Writes (member value) (quote name ++ ':' :: t) (name, j) := by
  refine ⟨⟨'"', _, rfl, by decide, by decide, by decide⟩, fun rest hrest => ?_⟩
  have htext : quote name ++ ':' :: t ++ rest = quote name ++ ':' :: (t ++ rest) := by
    rw [List.append_assoc, List.cons_append]
  have hquote : many is_blank (quote name ++ ':' :: (t ++ rest)) = some ([], quote name ++ ':' :: (t ++ rest)) :=
    blanks_of_starts (by decide) _
  unfold member
  rw [htext, bind_of_eq_some hquote, bind_of_eq_some (quoted_text_quote hname),
    bind_of_eq_some (blanks_of_starts (by decide) _), bind_of_eq_some (satisfy_cons (decide_eq_true rfl) _),
    bind_of_eq_some (h.reads rest hrest)]
  rfl

/-- A value is read by its first character. -/
theorem value_succ {c : Char} (hc : is_blank c = false) (t : List Char) :
    value (n + 1) (c :: t) = value_at (value n) c (c :: t) := by
  rw [value, bind_of_eq_some (blanks_of_starts hc t)]
  rfl

theorem writes_string {s : List Char} (h : ∀ c ∈ s, Allowed c) : Writes (value (n + 1)) (quote s) (string s) := by
  refine ⟨⟨'"', _, rfl, by decide, by decide, by decide⟩, fun rest _ => ?_⟩
  show value (n + 1) ('"' :: (Escaping.quoted.escape s ++ ['"'] ++ rest)) = _
  rw [value_succ (by decide), value_at, if_pos rfl]
  exact map_of_eq_some (quoted_text_quote h) string

theorem writes_bool (b : Bool) :
    Writes (value (n + 1)) (if b then ['t', 'r', 'u', 'e'] else ['f', 'a', 'l', 's', 'e']) (bool b) := by
  cases b with
  | true =>
    refine ⟨⟨'t', _, rfl, by decide, by decide, by decide⟩, fun rest _ => ?_⟩
    show value (n + 1) ('t' :: (['r', 'u', 'e'] ++ rest)) = _
    rw [value_succ (by decide)]
    exact (bind_of_eq_some (word_append ['t', 'r', 'u', 'e']) _).trans rfl
  | false =>
    refine ⟨⟨'f', _, rfl, by decide, by decide, by decide⟩, fun rest _ => ?_⟩
    show value (n + 1) ('f' :: (['a', 'l', 's', 'e'] ++ rest)) = _
    rw [value_succ (by decide)]
    exact (bind_of_eq_some (word_append ['f', 'a', 'l', 's', 'e']) _).trans rfl

theorem writes_int (z : ℤ) : Writes (value (n + 1)) (toString z).toList (number z) := by
  have hstart : ∃ c t, (toString z).toList = c :: t ∧ (c = '-' ∨ c.isDigit = true) := by
    cases z with
    | ofNat m =>
      obtain ⟨c, t, ht, hc⟩ := Numeric.toList_toString_cons m
      exact ⟨c, t, ht, .inr hc⟩
    | negSucc m =>
      refine ⟨'-', (toString (m + 1)).toList, ?_, .inl rfl⟩
      rw [Numeric.toString_negSucc, String.toList_append]
      rfl
  obtain ⟨c, t, ht, hc⟩ := hstart
  have hplain : ∀ d : Char, d ≠ '-' → d.isDigit = false → c ≠ d := by
    rintro d hminus hdigit rfl
    obtain rfl | hc := hc
    · exact hminus rfl
    · rw [hdigit] at hc
      cases hc
  have hblank : is_blank c = false := by
    unfold is_blank
    rw [decide_eq_false (hplain ' ' (by decide) (by decide)), decide_eq_false (hplain '\t' (by decide) (by decide)),
      decide_eq_false (hplain '\n' (by decide) (by decide)), decide_eq_false (hplain '\r' (by decide) (by decide))]
    rfl
  refine ⟨⟨c, t, ht, hblank, hplain _ (by decide) (by decide), hplain _ (by decide) (by decide)⟩, fun rest hrest => ?_⟩
  have hnumeral := numeral_toString z hrest
  rw [ht] at hnumeral ⊢
  rw [List.cons_append] at hnumeral ⊢
  rw [value_succ hblank, value_at, if_neg (hplain _ (by decide) (by decide)), if_neg (hplain _ (by decide) (by decide)),
    if_neg (hplain _ (by decide) (by decide)), if_neg (hplain _ (by decide) (by decide)),
    if_neg (hplain _ (by decide) (by decide)), if_neg (hplain _ (by decide) (by decide))]
  exact map_of_eq_some hnumeral number

theorem writes_array {val : ι → Json} (hl : ∀ i ∈ l, Writes (value n) (text i) (val i)) :
    Writes (value (n + 1)) ('[' :: (joined (l.map text) ++ [']'])) (array (l.map val)) := by
  refine ⟨⟨'[', _, rfl, by decide, by decide, by decide⟩, fun rest _ => ?_⟩
  rw [List.cons_append, List.append_assoc, List.singleton_append, value_succ (by decide), value_at,
    if_neg (by decide), if_pos rfl, bind_of_eq_some (satisfy_cons (decide_eq_true rfl) _)]
  exact map_of_eq_some (list_joined (.inl rfl) hl) array

theorem writes_object {val : ι → List Char × Json} (hl : ∀ i ∈ l, Writes (member (value n)) (text i) (val i)) :
    Writes (value (n + 1)) ('\x7b' :: (joined (l.map text) ++ ['\x7d'])) (object (l.map val)) := by
  refine ⟨⟨'\x7b', _, rfl, by decide, by decide, by decide⟩, fun rest _ => ?_⟩
  rw [List.cons_append, List.append_assoc, List.singleton_append, value_succ (by decide), value_at, if_neg (by decide),
    if_neg (by decide), if_pos rfl, bind_of_eq_some (satisfy_cons (decide_eq_true rfl) _)]
  exact map_of_eq_some (list_joined (.inr rfl) hl) object

/-- The text of a value is decoded. -/
theorem Writes.decode {t : List Char} {j : Json} (h : Writes (value t.length) t j) : decode t = some j := by
  have hclosed : Closed [] := fun c hc => by cases hc
  have hread := h.reads [] hclosed
  rw [List.append_nil] at hread
  unfold Json.decode
  rw [bind_of_eq_some hread]
  rfl

example : decode ['[', 't', 'r', 'u', 'e', ',', '"', '\\', 'n', '"', ']'] =
    some (array [bool true, string ['\n']]) := rfl

end Values

end Json
end Text
