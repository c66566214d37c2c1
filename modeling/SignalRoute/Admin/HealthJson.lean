import SignalRoute.Text.Json

/-!
# The health of a node, as JSON

`src/common/admin`: `AdminService::evaluate` runs the probes of the registered components and turns the
text of an exception into a component's detail, and `serialize_health_json` writes the result.

`json_escape` has the five escapes of C strings. RFC 8259 does not allow any control character in a
string, so the text is one that can be decoded exactly if no string of the response has another control
character than these escapes are for (`serialize_health_json_iff`).
-/

namespace SignalRoute

open Text (Escaping Json)

/-- `ComponentHealth`. -/
structure ComponentHealth where
  name : String := ""
  healthy : Bool := false
  required : Bool := true
  detail : String := ""
  deriving DecidableEq

/-- `HealthResponse`. -/
structure HealthResponse where
  healthy : Bool := false
  role : String := ""
  version : String := ""
  uptime_s : ℤ := 0
  components : List ComponentHealth := []
  deriving DecidableEq

/-- What a probe does when it is called. An exception that is no `std::exception` has no text. -/
inductive ProbeCall where
  | returns (component : ComponentHealth)
  | throws (what : Option String)

/-- `AdminService::RegisteredComponent`. -/
structure RegisteredComponent where
  name : String
  health_probe : Option ProbeCall
  readiness_probe : Option ProbeCall

/-- `AdminService`. -/
structure AdminService where
  role : String
  version : String := "0.1.0"
  components : List RegisteredComponent := []

/-- The component that a call of its probe gives. -/
def probed (name : String) : ProbeCall → ComponentHealth
  | .returns component => if component.name = "" then { component with name := name } else component
  | .throws what =>
    { name := name, healthy := false, required := true, detail := what.getD "unknown health probe failure" }

/-- `AdminService::evaluate`, `uptime_s` seconds after the start. -/
def AdminService.evaluate (admin : AdminService) (uptime_s : ℤ) (readiness : Bool) : HealthResponse :=
  let components := admin.components.filterMap fun registered =>
    (if readiness then registered.readiness_probe else registered.health_probe).map (probed registered.name)
  { healthy := components.all fun component => !(component.required && !component.healthy)
    role := admin.role
    version := admin.version
    uptime_s := uptime_s
    components := components }

/-- `json_escape`. -/
def json_escape (value : List Char) : List Char := Escaping.quoted.escape value

/-- `append_json_string`. -/
def append_json_string (value : String) : List Char := '"' :: (json_escape value.toList ++ ['"'])

/-- The text of a flag. -/
def flag_text (flag : Bool) : List Char :=
  if flag then ['t', 'r', 'u', 'e'] else ['f', 'a', 'l', 's', 'e']

/-- The text of a component. -/
def component_text (component : ComponentHealth) : List Char :=
  "\x7b".toList ++
  "\"name\":".toList ++ append_json_string component.name ++
  ",\"healthy\":".toList ++ flag_text component.healthy ++
  ",\"required\":".toList ++ flag_text component.required ++
  ",\"detail\":".toList ++ append_json_string component.detail ++
  "\x7d".toList

/-- `serialize_health_json`. -/
def serialize_health_json (health : HealthResponse) : List Char :=
  "\x7b".toList ++
  "\"healthy\":".toList ++ flag_text health.healthy ++
  ",\"role\":".toList ++ append_json_string health.role ++
  ",\"version\":".toList ++ append_json_string health.version ++
  ",\"uptime_s\":".toList ++ (toString health.uptime_s).toList ++
  ",\"components\":[".toList ++ Json.joined (health.components.map component_text) ++
  "]\x7d".toList

/-- The component that a value describes. -/
def ComponentHealth.of_json (j : Json) : Option ComponentHealth := do
  return {
    name := ← (← j.field "name".toList).as_string
    healthy := ← (← j.field "healthy".toList).as_bool
    required := ← (← j.field "required".toList).as_bool
    detail := ← (← j.field "detail".toList).as_string }

/-- The response that a value describes. -/
def HealthResponse.of_json (j : Json) : Option HealthResponse := do
  return {
    healthy := ← (← j.field "healthy".toList).as_bool
    role := ← (← j.field "role".toList).as_string
    version := ← (← j.field "version".toList).as_string
    uptime_s := ← (← j.field "uptime_s".toList).as_int
    components := ← (← (← j.field "components".toList).as_array).mapM ComponentHealth.of_json }

/-- The strings of a response. -/
def HealthResponse.strings (health : HealthResponse) : List String :=
  [health.role, health.version] ++ health.components.flatMap fun component => [component.name, component.detail]

/-- The members of a component's object. -/
def ComponentHealth.members (component : ComponentHealth) : List (List Char × Json) :=
  [("name".toList, .string component.name.toList), ("healthy".toList, .bool component.healthy),
    ("required".toList, .bool component.required), ("detail".toList, .string component.detail.toList)]

/-- The members of a response's object. -/
def HealthResponse.members (health : HealthResponse) : List (List Char × Json) :=
  [("healthy".toList, .bool health.healthy), ("role".toList, .string health.role.toList),
    ("version".toList, .string health.version.toList), ("uptime_s".toList, .number health.uptime_s),
    ("components".toList, .array (health.components.map fun component => .object component.members))]

/-- The values describe what they were made from. -/
theorem ComponentHealth.of_json_members (component : ComponentHealth) :
    of_json (.object component.members) = some component := by
  show some (ComponentHealth.mk (String.ofList component.name.toList) component.healthy component.required
    (String.ofList component.detail.toList)) = some component
  rw [String.ofList_toList, String.ofList_toList]

theorem HealthResponse.of_json_members (health : HealthResponse) :
    of_json (.object health.members) = some health := by
  have hcomponents : (health.components.map fun component => Json.object component.members).mapM
      ComponentHealth.of_json = some health.components := by
    generalize health.components = l
    induction l with
    | nil => rfl
    | cons component l ih =>
      rw [List.map_cons, List.mapM_cons, ComponentHealth.of_json_members, ih]
      rfl
  have huptime : (Json.number health.uptime_s).as_int = some health.uptime_s := by
    show (if (health.uptime_s : ℚ).den = 1 then some (health.uptime_s : ℚ).num else none) = _
    rw [Rat.den_intCast, Rat.num_intCast, if_pos rfl]
  show (do
    let uptime_s ← (Json.number health.uptime_s).as_int
    let components ← (health.components.map fun component => Json.object component.members).mapM
      ComponentHealth.of_json
    return HealthResponse.mk health.healthy (String.ofList health.role.toList)
      (String.ofList health.version.toList) uptime_s components : Option HealthResponse) = some health
  rw [huptime, hcomponents, String.ofList_toList, String.ofList_toList]
  rfl

section Text

open Text.Json

theorem append_json_string_eq (value : String) : append_json_string value = quote value.toList := rfl

/-- The text of a flag is one. -/
theorem writes_flag_text (n : ℕ) (flag : Bool) : Writes (value (n + 1)) (flag_text flag) (.bool flag) :=
  writes_bool flag

/-- The text of a component. -/
theorem writes_component_text (n : ℕ) {component : ComponentHealth}
    (hname : ∀ c ∈ component.name.toList, Allowed c) (hdetail : ∀ c ∈ component.detail.toList, Allowed c) :
    Writes (value (n + 2)) (component_text component) (.object component.members) := by
  let written : List (List Char × List Char × Json) :=
    [(quote "name".toList ++ ':' :: quote component.name.toList, "name".toList, .string component.name.toList),
      (quote "healthy".toList ++ ':' :: flag_text component.healthy, "healthy".toList, .bool component.healthy),
      (quote "required".toList ++ ':' :: flag_text component.required, "required".toList, .bool component.required),
      (quote "detail".toList ++ ':' :: quote component.detail.toList, "detail".toList,
        .string component.detail.toList)]
  have htext : component_text component = '\x7b' :: (joined (written.map Prod.fst) ++ ['\x7d']) := by
    have hname : "\"name\":".toList = quote "name".toList ++ [':'] := rfl
    have hhealthy : ",\"healthy\":".toList = ',' :: (quote "healthy".toList ++ [':']) := rfl
    have hrequired : ",\"required\":".toList = ',' :: (quote "required".toList ++ [':']) := rfl
    have hdetail : ",\"detail\":".toList = ',' :: (quote "detail".toList ++ [':']) := rfl
    have hopen : "\x7b".toList = ['\x7b'] := rfl
    have hclose : "\x7d".toList = ['\x7d'] := rfl
    unfold component_text
    rw [hname, hhealthy, hrequired, hdetail, hopen, hclose, append_json_string_eq, append_json_string_eq]
    simp only [written, joined, List.map_cons, List.map_nil, List.flatMap_cons, List.flatMap_nil, List.append_assoc,
      List.cons_append, List.nil_append, List.append_nil]
  rw [htext]
  refine @writes_object _ Prod.fst written (n + 1) Prod.snd ?_
  simp only [written, List.forall_mem_cons, List.not_mem_nil, false_implies, implies_true, and_true]
  exact ⟨writes_member (by simp [Allowed]) (writes_string hname),
    writes_member (by simp [Allowed]) (writes_flag_text n _),
    writes_member (by simp [Allowed]) (writes_flag_text n _),
    writes_member (by simp [Allowed]) (writes_string hdetail)⟩

/-- The text of a response. -/
theorem writes_health_json (n : ℕ) {health : HealthResponse}
    (h : ∀ text ∈ health.strings, ∀ c ∈ text.toList, Allowed c) :
    Writes (value (n + 4)) (serialize_health_json health) (.object health.members) := by
  have hrole := h health.role (by simp [HealthResponse.strings])
  have hversion := h health.version (by simp [HealthResponse.strings])
  have hcomponents : ∀ component ∈ health.components,
      Writes (value (n + 2)) (component_text component) (.object component.members) := by
    intro component hmem
    have hstring (text : String) (hin : text ∈ [component.name, component.detail]) :=
      h text (List.mem_append_right _ (List.mem_flatMap.mpr ⟨component, hmem, hin⟩))
    exact writes_component_text n (hstring _ (by simp)) (hstring _ (by simp))
  let written : List (List Char × List Char × Json) :=
    [(quote "healthy".toList ++ ':' :: flag_text health.healthy, "healthy".toList, .bool health.healthy),
      (quote "role".toList ++ ':' :: quote health.role.toList, "role".toList, .string health.role.toList),
      (quote "version".toList ++ ':' :: quote health.version.toList, "version".toList, .string health.version.toList),
      (quote "uptime_s".toList ++ ':' :: (toString health.uptime_s).toList, "uptime_s".toList,
        .number health.uptime_s),
      (quote "components".toList ++ ':' :: '[' :: (joined (health.components.map component_text) ++ [']']),
        "components".toList, .array (health.components.map fun component => .object component.members))]
  have htext : serialize_health_json health = '\x7b' :: (joined (written.map Prod.fst) ++ ['\x7d']) := by
    have hhealthy : "\"healthy\":".toList = quote "healthy".toList ++ [':'] := rfl
    have hrole : ",\"role\":".toList = ',' :: (quote "role".toList ++ [':']) := rfl
    have hversion : ",\"version\":".toList = ',' :: (quote "version".toList ++ [':']) := rfl
    have huptime : ",\"uptime_s\":".toList = ',' :: (quote "uptime_s".toList ++ [':']) := rfl
    have hlist : ",\"components\":[".toList = ',' :: (quote "components".toList ++ [':', '[']) := rfl
    have hopen : "\x7b".toList = ['\x7b'] := rfl
    have hclose : "]\x7d".toList = [']', '\x7d'] := rfl
    unfold serialize_health_json
    rw [hhealthy, hrole, hversion, huptime, hlist, hopen, hclose, append_json_string_eq, append_json_string_eq]
    simp only [written, joined, List.map_cons, List.map_nil, List.flatMap_cons, List.flatMap_nil, List.append_assoc,
      List.cons_append, List.nil_append, List.append_nil]
  rw [htext]
  refine @writes_object _ Prod.fst written (n + 3) Prod.snd ?_
  simp only [written, List.forall_mem_cons, List.not_mem_nil, false_implies, implies_true, and_true]
  exact ⟨writes_member (by simp [Allowed]) (writes_flag_text _ _),
    writes_member (by simp [Allowed]) (writes_string hrole),
    writes_member (by simp [Allowed]) (writes_string hversion),
    writes_member (by simp [Allowed]) (writes_int _),
    writes_member (by simp [Allowed]) (writes_array hcomponents)⟩

/-- A character that needs no escape is in the text of every string that has it. -/
theorem mem_append_json_string {text : String} {c : Char} (hc : c ∈ text.toList)
    (hletter : Escaping.quoted.letter c = none) : c ∈ append_json_string text := by
  refine List.mem_cons_of_mem _ (List.mem_append_left _ (List.mem_flatMap.mpr ⟨c, hc, ?_⟩))
  rw [Escaping.write, hletter]
  exact List.mem_singleton.mpr rfl

/-- The texts of the strings are in the text. -/
theorem append_json_string_subset {health : HealthResponse} {text : String} (h : text ∈ health.strings) :
    append_json_string text ⊆ serialize_health_json health := by
  unfold serialize_health_json
  obtain h | h := List.mem_append.mp h
  · simp only [List.mem_cons, List.not_mem_nil, or_false] at h
    obtain rfl | rfl := h <;> intro c hc <;> simp only [List.mem_append, hc, true_or, or_true]
  · obtain ⟨component, hmem, h⟩ := List.mem_flatMap.mp h
    have htext : append_json_string text ⊆ component_text component := by
      unfold component_text
      simp only [List.mem_cons, List.not_mem_nil, or_false] at h
      obtain rfl | rfl := h <;> intro c hc <;> simp only [List.mem_append, hc, true_or, or_true]
    have hjoined := subset_joined (List.mem_map_of_mem (f := component_text) hmem)
    intro c hc
    simp only [List.mem_append, hjoined (htext hc), true_or, or_true]

/-- The text of a health response is a JSON text that says this response, exactly if none of its strings has
a control character that `json_escape` has no escape for. -/
theorem serialize_health_json_iff (health : HealthResponse) :
    (decode (serialize_health_json health)).bind HealthResponse.of_json = some health ↔
      ∀ text ∈ health.strings, ∀ c ∈ text.toList, Allowed c := by
  constructor
  · intro h text htext c hc
    obtain ⟨j, hj, -⟩ := Option.bind_eq_some_iff.mp h
    cases hletter : Escaping.quoted.letter c with
    | none => exact decode_takes hj c (append_json_string_subset htext (mem_append_json_string hc hletter))
    | some b => exact allowed_of_letter hletter
  · intro h
    have hlength : ∃ n, (serialize_health_json health).length = n + 4 := by
      refine ⟨(serialize_health_json health).length - 4, (Nat.sub_add_cancel ?_).symm⟩
      unfold serialize_health_json
      simp only [List.length_append]
      have : "\"healthy\":".toList.length = 10 := rfl
      omega
    obtain ⟨n, hn⟩ := hlength
    have hwrites := writes_health_json n h
    rw [← hn] at hwrites
    rw [hwrites.decode, Option.bind_some, HealthResponse.of_json_members]

/-- A node whose store's driver colours its messages. -/
def coloured_admin : AdminService where
  role := "gateway"
  components := [⟨"redis", some (.throws (some "\x1b[31mrefused")), none⟩]

/-- Its health is not JSON. -/
theorem serialize_health_json_coloured : decode (serialize_health_json (coloured_admin.evaluate 5 false)) = none := by
  have hstring : "\x1b[31mrefused" ∈ (coloured_admin.evaluate 5 false).strings := by
    simp [HealthResponse.strings, coloured_admin, AdminService.evaluate, probed]
  have hmem := append_json_string_subset hstring (mem_append_json_string (c := '\x1b') List.mem_cons_self rfl)
  cases hj : decode (serialize_health_json (coloured_admin.evaluate 5 false)) with
  | none => rfl
  | some j =>
    obtain h | h | h | h := decode_takes hj _ hmem
    · exact absurd h (by decide)
    · cases h
    · cases h
    · cases h

end Text

end SignalRoute
