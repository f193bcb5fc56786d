import Rooeel.Project.Lists
import Rooeel.Task.Authorization

/-!
# The documents of a task as strings

The form of a task and the answers to it are JSON documents. They arrive as strings, which may be
encoded twice and have white space around them; `parseJsonLike` unpacks two layers, and the rows
hold what it finds, but for numbers that overflow. On the way out `serializeJsonForGraphql`
encodes everything but strings.

Objects and arrays survive the way in and out (`form_data_round_trip`). A string that can be
unpacked further does not: saving what was read unpacks it (`resubmit_iff`). And `createTask`
drops a form that is an array, and the numbers of an object that overflow (`form_kept_iff`).
-/

namespace Rooeel

open JavaScript

section Code

variable [Runtime]

/-! ## Encodings -/

/-- The text is JSON for the value, apart from white space around it. -/
def Encodes (text : String) (v : Json) : Prop :=
  ∃ before body after : String, text = before ++ body ++ after ∧
    (∀ c ∈ before.toList, isSpace c = true) ∧ (∀ c ∈ after.toList, isSpace c = true) ∧
    Trimmed body.toList ∧ body ≠ "" ∧ parseJson body = some v

/-- The text encodes the value, or encodes a text that does. -/
inductive Encoding (v : Json) : String → Prop
  | single {text : String} (h : Encodes text v) : Encoding v text
  | double {text inner : String} (hOuter : Encodes text (.str inner)) (hInner : Encodes inner v) :
      Encoding v text

/-- `JSON.parse` undoes `JSON.stringify`, which puts no white space around a document. -/
structure Printed (v : Json) : Prop where
  parsed : parseJson (stringifyJson v) = some v
  trimmed : Trimmed (stringifyJson v).toList
  nonempty : stringifyJson v ≠ ""

theorem Printed.encodes {v : Json} (h : Printed v) {before after : String}
    (hBefore : ∀ c ∈ before.toList, isSpace c = true)
    (hAfter : ∀ c ∈ after.toList, isSpace c = true) :
    Encodes (before ++ stringifyJson v ++ after) v :=
  ⟨before, _, after, rfl, hBefore, hAfter, h.trimmed, h.nonempty, h.parsed⟩

theorem Encodes.trim_eq {text : String} {v : Json} (h : Encodes text v) :
    trim text ≠ "" ∧ parseJson (trim text) = some v := by
  obtain ⟨before, body, after, rfl, hBefore, hAfter, hTrimmed, hNonempty, hParse⟩ := h
  have hTrim : trim (before ++ body ++ after) = body := by
    rw [trim, String.toList_append, String.toList_append,
      trimList_surrounded hTrimmed hBefore hAfter, String.ofList_toList]
  rw [hTrim]
  exact ⟨hNonempty, hParse⟩

/-- One layer of a text. -/
theorem parseJsonLayers_encodes {text : String} {v : Json} (h : Encodes text v) (depth : Nat) :
    parseJsonLayers (depth + 1) (some (.str text)) = parseJsonLayers depth (some v) := by
  obtain ⟨hNonempty, hParse⟩ := h.trim_eq
  rw [parseJsonLayers]
  simp only [hNonempty, if_false, hParse]

omit [Runtime] in
/-- A value that is not a string. -/
def IsDocument (v : Json) : Prop := ∀ text, v ≠ .str text

/-- Nothing is unpacked when the value is not a string. -/
theorem parseJsonLayers_document {v : Json} (h : IsDocument v) (depth : Nat) :
    parseJsonLayers depth (some v) = some v := by
  cases depth with
  | zero => rfl
  | succ depth =>
      cases v with
      | str text => exact absurd rfl (h text)
      | null => rfl
      | bool b => rfl
      | num n => rfl
      | arr xs => rfl
      | obj fields => rfl

theorem parseJsonLike_encoding {text : String} {v : Json} (hDocument : IsDocument v)
    (h : Encoding v text) : parseJsonLike (some (.str text)) = some v := by
  unfold parseJsonLike
  cases h with
  | single h => rw [parseJsonLayers_encodes h, parseJsonLayers_document hDocument]
  | double hOuter hInner =>
      rw [parseJsonLayers_encodes hOuter, parseJsonLayers_encodes hInner]
      rfl

theorem serialize_document {v : Json} (hDocument : IsDocument v) (hNull : v ≠ .null) :
    serializeJsonForGraphql (some v) = some (stringifyJson v) := by
  cases v with
  | str text => exact absurd rfl (hDocument text)
  | null => exact absurd rfl hNull
  | bool b => rfl
  | num n => rfl
  | arr xs => rfl
  | obj fields => rfl

/-! ## What the services return -/

/-- The strings of a returned task are those of a row of the store. -/
def SerializedTask.OfRow (s : Store) (t : SerializedTask) : Prop :=
  t.task ∈ s.task.rows ∧ t.submissionData = serializeJsonForGraphql t.task.submissionData

theorem getTasks_rows (s : Store) (projectId : Id) (departmentId : Option Id)
    (viewer : Option Viewer) :
    Reads s (fun tasks => ∀ t ∈ tasks, t.OfRow s) (getTasks projectId departmentId viewer) := by
  have hFound (scopedWhere : Task → Bool) : Reads s
      (fun rows => ∀ row ∈ rows, row.task ∈ s.task.rows) (findTasks scopedWhere departmentId) := by
    refine reads_of_run rfl fun row hRow => ?_
    obtain ⟨task, hTask, rfl⟩ := List.mem_map.mp hRow
    exact (List.mem_filter.mp (List.mem_reverse.mp hTask)).1
  have hSerialized {rows : List TaskWithSubtasks} (hRows : ∀ row ∈ rows, row.task ∈ s.task.rows) :
      ∀ t ∈ rows.map serializeTaskForGraphql, t.OfRow s := by
    intro t ht
    obtain ⟨row, hRow, rfl⟩ := List.mem_map.mp ht
    exact ⟨hRows row hRow, rfl⟩
  have hNone : ∀ t ∈ ([] : List SerializedTask), t.OfRow s :=
    fun t ht => absurd ht List.not_mem_nil
  unfold getTasks
  cases nonAdmin viewer with
  | none => exact reads_bind (hFound _) fun rows hRows => reads_pure (hSerialized hRows)
  | some v =>
      refine reads_bind (A := fun _ => True)
        (reads_of_run (getProjectUserContext_run projectId v.userId s) trivial) fun context _ => ?_
      cases context with
      | none => exact reads_pure hNone
      | some context =>
          dsimp only
          split
          · exact reads_pure hNone
          · refine reads_bind (hFound _) fun rows hRows => ?_
            refine reads_bind (reads_orTypeError fun _ h => h) fun kept hKept => ?_
            obtain ⟨-, rfl⟩ := filterOrThrow_eq_some_iff.mp hKept
            exact reads_pure (hSerialized fun row hRow => hRows row (List.mem_filter.mp hRow).1)

theorem getUserProjects_rows (s : Store) (userId : Id) :
    Reads s (fun projects => ∀ p ∈ projects, ∀ t ∈ p.tasks, t.OfRow s)
      (getUserProjects userId) := by
  refine reads_answerIf (getUserProjects_run userId s) fun p hp t ht => ?_
  obtain ⟨view, hView, rfl⟩ := List.mem_map.mp hp
  obtain ⟨r, -, -, project, -, rfl⟩ := mem_memberProjects.mp hView
  unfold ProjectView.viewedBy at ht
  split at ht
  · exact absurd ht List.not_mem_nil
  · obtain ⟨task, hTask, rfl⟩ := List.mem_map.mp ht
    exact ⟨(List.mem_filter.mp (List.mem_filter.mp hTask).1).1, rfl⟩

/-! ## Updates -/

/-- The answers in the row of a task. -/
def storedSubmission (s : Store) (id : Id) : Option Json :=
  (s.task.find id).bind fun task => task.submissionData

omit [Runtime] in
theorem storedSubmission_of_mem {s : Store} {task : Task} (h : task ∈ s.task.rows) :
    storedSubmission s task.id = task.submissionData := by
  have hFind : s.task.find task.id = some task := Table.find_eq_some.mpr ⟨h, rfl⟩
  rw [storedSubmission, hFind, Option.bind_some]

section Update

variable {s s' : Store} {id : Id} {data : UpdateTaskInput} {viewer : Option Viewer}
  {out : SerializedTask}

/-- What an update stores and returns. -/
theorem updateTask_submission (hRun : (updateTask id data viewer).run s = (.ok out, s')) :
    storedSubmission s' id =
        ((parseJsonLike data.submissionData.json).map Json.stored).or (storedSubmission s id) ∧
      out.submissionData = serializeJsonForGraphql (storedSubmission s' id) := by
  obtain ⟨task, hMem, rfl, -, hTask, -, hStore⟩ :=
    (Prog.wp_of_run hRun).mp (updateTask_outcome s id data viewer)
  have hFind : s.task.find task.id = some task := Table.find_eq_some.mpr ⟨hMem, rfl⟩
  have hFind' : s'.task.find task.id =
      some (data.apply (parseJsonLike data.submissionData.json) task) := by
    rw [hStore]
    exact Table.find_modify_key (data.apply _) (fun _ => rfl) hFind
  unfold updateTask at hRun
  obtain ⟨existingTask, s₁, -, hRun⟩ := Prog.of_run_bind_ok hRun
  obtain ⟨_, s₂, -, hRun⟩ := Prog.of_run_bind_ok hRun
  obtain ⟨_, s₃, -, hRun⟩ := Prog.of_run_bind_ok hRun
  obtain ⟨row, s₄, -, hDone⟩ := Prog.of_run_bind_ok hRun
  have hSerialized : out.submissionData = serializeJsonForGraphql out.task.submissionData := by
    cases hDone
    rfl
  constructor
  · rw [storedSubmission, storedSubmission, hFind, hFind']
    rfl
  · rw [hSerialized, hTask, storedSubmission, hFind']
    rfl

end Update

/-- The string in a returned task is JSON for the value. -/
def ParsesBack (v : Json) (t : SerializedTask) : Prop :=
  ∃ text, t.submissionData = some text ∧ parseJson text = some v

/-- An object or an array. -/
def IsStructured (v : Json) : Prop := (∃ fields, v = .obj fields) ∨ ∃ xs, v = .arr xs

omit [Runtime] in
theorem IsStructured.document {v : Json} (h : IsStructured v) : IsDocument v ∧ v ≠ .null := by
  rcases h with ⟨fields, rfl⟩ | ⟨xs, rfl⟩
  · exact ⟨nofun, nofun⟩
  · exact ⟨nofun, nofun⟩

/-- **Form data survives the round trip.** An object or an array that is sent in an encoding is
stored, and what the update and the two queries after it return for the task parses back to it. -/
theorem form_data_round_trip {s s' : Store} {id : Id} {data : UpdateTaskInput}
    {viewer : Option Viewer} {out : SerializedTask} {text : String} {v : Json}
    (hForm : IsStructured v) (hText : Encoding v text)
    (hUndo : parseJson (stringifyJson v) = some v) (hData : data.submissionData = .value text)
    (hRun : (updateTask id data viewer).run s = (.ok out, s')) :
    storedSubmission s' id = some v ∧ ParsesBack v out ∧
      (∀ projectId departmentId viewer' tasks,
        (getTasks projectId departmentId viewer').run s' = (.ok tasks, s') →
          ∀ t ∈ tasks, t.task.id = id → ParsesBack v t) ∧
      ∀ userId projects, (getUserProjects userId).run s' = (.ok projects, s') →
        ∀ p ∈ projects, ∀ t ∈ p.tasks, t.task.id = id → ParsesBack v t := by
  obtain ⟨hDocument, hNull⟩ := hForm.document
  obtain ⟨hStored, hOut⟩ := updateTask_submission hRun
  have hFinite : v.stored = v := v.stored_eq_self_iff.mpr (Runtime.stringifyJson_finite v v hUndo)
  have hParsed : parseJsonLike data.submissionData.json = some v := by
    rw [hData]
    exact parseJsonLike_encoding hDocument hText
  rw [hParsed, Option.map_some, hFinite, Option.some_or] at hStored
  have hSerialized := serialize_document hDocument hNull
  have hRow (t : SerializedTask) (hOfRow : t.OfRow s') (hId : t.task.id = id) :
      ParsesBack v t := by
    obtain ⟨hMem, hString⟩ := hOfRow
    have hSubmission := storedSubmission_of_mem hMem
    rw [hId, hStored] at hSubmission
    exact ⟨_, by rw [hString, ← hSubmission, hSerialized], hUndo⟩
  refine ⟨hStored, ⟨_, by rw [hOut, hStored, hSerialized], hUndo⟩, ?_, ?_⟩
  · intro projectId departmentId viewer' tasks hTasks t ht hId
    have hRows := (Prog.wp_of_run hTasks).mp (getTasks_rows s' projectId departmentId viewer')
    exact hRow t (hRows.2 t ht) hId
  · intro userId projects hProjects p hp t ht hId
    have hRows := (Prog.wp_of_run hProjects).mp (getUserProjects_rows s' userId)
    exact hRow t (hRows.2 p hp t ht) hId

/-! ## Saving what was read -/

/-- Nothing can be unpacked from the text, so that an update with it stores it, or stores
nothing. -/
def StableText (text : String) : Prop :=
  ∀ v, parseJsonLike (some (.str text)) = some v → v = .str text

theorem parseJsonLike_printed {v : Json} (hDocument : IsDocument v) (hPrinted : Printed v) :
    parseJsonLike (some (.str (stringifyJson v))) = some v := by
  have hEncodes : Encodes ("" ++ stringifyJson v ++ "") v := hPrinted.encodes nofun nofun
  rw [String.empty_append, String.append_empty] at hEncodes
  exact parseJsonLike_encoding hDocument (.single hEncodes)

omit [Runtime] in
theorem stored_eq_str {v : Json} {text : String} : v.stored = .str text ↔ v = .str text := by
  cases v with
  | num n => simp only [Json.stored, reduceCtorEq, iff_false]; split <;> exact nofun
  | null | bool b | str other | arr xs | obj fields => simp [Json.stored]

/-- The value that is stored again. -/
theorem resubmitted_iff {p : Json} {t : String}
    (hPrinted : IsDocument p → Printed p.stored)
    (hText : serializeJsonForGraphql (some p.stored) = some t) :
    ((parseJsonLike (some (.str t))).map Json.stored).or (some p.stored) = some p.stored ↔
      ∀ text, p = .str text → StableText text := by
  by_cases hDocument : IsDocument p
  · have hStored : IsDocument p.stored := fun text hSame => hDocument text (stored_eq_str.mp hSame)
    have hNull : p.stored ≠ .null := by
      intro hNull
      rw [hNull] at hText
      cases hText
    rw [serialize_document hStored hNull] at hText
    obtain rfl := Option.some.inj hText
    rw [parseJsonLike_printed hStored (hPrinted hDocument), Option.map_some, Json.stored_stored]
    exact iff_of_true rfl fun text hSame => absurd hSame (hDocument text)
  · obtain ⟨text, hSame⟩ := not_forall_not.mp hDocument
    subst hSame
    obtain rfl : text = t := Option.some.inj hText
    change _ = some (Json.str text) ↔ _
    constructor
    · rintro hStored other hOther v hParsed
      obtain rfl := Json.str.inj hOther
      rw [hParsed, Option.map_some, Option.some_or] at hStored
      exact stored_eq_str.mp (Option.some.inj hStored)
    · intro hStable
      cases hParsed : parseJsonLike (some (.str text)) with
      | none => rfl
      | some v => rw [hStable text rfl v hParsed]; rfl

/-- Saving what was read changes nothing. -/
def KeepsResubmitted : Prop :=
  ∀ (s s' s'' : Store) (id : Id) (data data' : UpdateTaskInput) (viewer viewer' : Option Viewer)
    (out : SerializedTask) (result : Except Exn SerializedTask) (text t : String) (p : Json),
    parseJsonLike (some (.str text)) = some p → p ≠ .null → data.submissionData = .value text →
    (updateTask id data viewer).run s = (.ok out, s') → out.submissionData = some t →
    data'.submissionData = .value t → (updateTask id data' viewer').run s' = (result, s'') →
    storedSubmission s'' id = storedSubmission s' id

/-- **When saving what was read changes nothing**: when the call fails, and otherwise when the
stored value is not a string from which a further value can be unpacked. -/
theorem resubmit_iff {s s' s'' : Store} {id : Id} {data data' : UpdateTaskInput}
    {viewer viewer' : Option Viewer} {out : SerializedTask} {result : Except Exn SerializedTask}
    {text t : String} {p : Json} (hParsed : parseJsonLike (some (.str text)) = some p)
    (hPrinted : IsDocument p → Printed p.stored)
    (hData : data.submissionData = .value text)
    (hRun : (updateTask id data viewer).run s = (.ok out, s'))
    (hText : out.submissionData = some t) (hData' : data'.submissionData = .value t)
    (hRun' : (updateTask id data' viewer').run s' = (result, s'')) :
    storedSubmission s'' id = storedSubmission s' id ↔
      (result.isOk = true → ∀ text, p = .str text → StableText text) := by
  cases result with
  | error e =>
      have hSame : s'' = s' := (Prog.wp_of_run hRun').mp (updateTask_outcome s' id data' viewer')
      rw [hSame]
      exact iff_of_true rfl nofun
  | ok out' =>
      obtain ⟨hStored, hOut⟩ := updateTask_submission hRun
      obtain ⟨hStored', -⟩ := updateTask_submission hRun'
      have hJson : data.submissionData.json = some (.str text) := by
        rw [hData]
        rfl
      have hJson' : data'.submissionData.json = some (.str t) := by
        rw [hData']
        rfl
      rw [hJson, hParsed, Option.map_some, Option.some_or] at hStored
      rw [hJson', hStored] at hStored'
      rw [hText, hStored] at hOut
      rw [hStored', hStored, resubmitted_iff hPrinted hOut.symm]
      exact ⟨fun h _ => h, fun h => h rfl⟩

/-! ## Creating -/

/-- The elements of an array, and of the arrays in the fields of an object. -/
def elementsOf : Json → List Json
  | .arr xs => xs
  | .obj fields => fields.flatMap fun field =>
      match field.2 with
      | .arr xs => xs
      | _ => []
  | _ => []

/-- Everything in the form but the creator is in the stored document: the other fields of an
object with their values, and the elements of an array in their order. -/
def FormKept (stored : Option Json) : Json → Prop
  | .obj fields => ∀ key value, key ≠ "createdBy" → Record.get fields key = some value →
      ∃ fields', stored = some (.obj fields') ∧ Record.get fields' key = some value
  | .arr xs => ∃ doc, stored = some doc ∧ xs.Sublist (elementsOf doc)
  | _ => True

/-- No number overflows in the values, apart from the one under `createdBy`. -/
def FiniteForm (fields : Record Json) : Prop :=
  ∀ key value, key ≠ "createdBy" → Record.get fields key = some value → value.isFinite = true

omit [Runtime] in
/-- What the stamp of the creator and the column leave of a form. -/
theorem formKept_stamp (v : Viewer) (hUser : v.userId ≠ 0) {form : Json}
    (hForm : IsStructured form) :
    FormKept ((stampCreator (some v) (some form)).map Json.stored) form ↔
      (∃ fields, form = .obj fields ∧ FiniteForm fields) ∨ form = .arr [] := by
  rw [stored_stampCreator v hUser]
  rcases hForm with ⟨fields, rfl⟩ | ⟨xs, rfl⟩
  · have hGet {key : String} (hKey : key ≠ "createdBy") :
        Record.get (Record.set (storedFields fields) "createdBy" (.num (.ofInt v.userId))) key =
          (Record.get fields key).map Json.stored := by
      rw [Record.get_set_of_ne _ _ hKey, Record.get_storedFields]
    constructor
    · intro hKept
      refine Or.inl ⟨fields, rfl, fun key value hKey hValue => ?_⟩
      obtain ⟨fields', hStored, hSame⟩ := hKept key value hKey hValue
      obtain rfl := Json.obj.inj (Option.some.inj hStored)
      rw [hGet hKey, hValue, Option.map_some, Option.some.injEq] at hSame
      exact value.stored_eq_self_iff.mp hSame
    · rintro (⟨fields', hSame, hFinite⟩ | hEmpty)
      · obtain rfl := Json.obj.inj hSame
        intro key value hKey hValue
        refine ⟨_, rfl, ?_⟩
        rw [hGet hKey, hValue, Option.map_some,
          value.stored_eq_self_iff.mpr (hFinite key value hKey hValue)]
      · cases hEmpty
  · constructor
    · rintro ⟨doc, hDoc, hSub⟩
      obtain rfl := Option.some.inj hDoc
      rw [List.sublist_nil.mp hSub]
      exact Or.inr rfl
    · rintro (⟨fields, hSame, -⟩ | hEmpty)
      · cases hSame
      · rw [Json.arr.inj hEmpty]
        exact ⟨_, rfl, List.nil_sublist _⟩

/-- **When `createTask` keeps the form** that a viewer with an id sends: when it is an object
without a number that overflows, and when it is an array without elements. -/
theorem form_kept_iff {s s' : Store} {projectId : Id} {data : CreateTaskInput} {viewer : Viewer}
    {out : SerializedTask} {text : String} {v : Json} (hUser : viewer.userId ≠ 0)
    (hForm : IsStructured v) (hText : Encoding v text) (hData : data.formSchema = .value text)
    (hRun : (createTask projectId data (some viewer)).run s = (.ok out, s')) :
    ∃ task, s'.task.rows = s.task.rows ++ [task] ∧
      (FormKept task.formSchema v ↔
        (∃ fields, v = .obj fields ∧ FiniteForm fields) ∨ v = .arr []) := by
  obtain ⟨defaults, -, -, -, -, hStore⟩ :=
    (Prog.wp_of_run hRun).mp (createTask_outcome s projectId data (some viewer))
  have hParsed : parseJsonLike data.formSchema.json = some v := by
    rw [hData]
    exact parseJsonLike_encoding hForm.document.1 hText
  refine ⟨createdTask projectId data (some viewer) defaults s.task.next, by rw [hStore]; rfl, ?_⟩
  have hSchema : (createdTask projectId data (some viewer) defaults s.task.next).formSchema =
      (stampCreator (some viewer) (some v)).map Json.stored := by
    rw [← hParsed]
    rfl
  rw [hSchema]
  exact formKept_stamp viewer hUser hForm

end Code

section Site

/-- `JSON.parse` on the texts of this section. -/
abbrev formRuntime : Runtime :=
  { asciiRuntime with
    parseJson := fun text =>
      if text = "[5]" then some (.arr [.num (.ofInt 5)])
      else if text = "\x7b\"unit\":5\x7d" then some (.obj [("unit", .num (.ofInt 5))])
      else if text = "\"[5]\"" then some (.str "[5]")
      else if text = "\"\\\"5\\\"\"" then some (.str "\"5\"")
      else if text = "\"5\"" then some (.str "5")
      else if text = "5" then some (.num (.ofInt 5))
      else Ascii.parseJson text
    stringifyJson_finite := by
      intro v w hParse
      split_ifs at hParse
      case neg => exact Ascii.isFinite_parseJson hParse
      all_goals
        obtain rfl := Option.some.inj hParse
        rfl }

attribute [local instance] formRuntime

/-- The small site with a task of the bridge. -/
def taskSite : Store := ((createTask 1 { title := "Measure" } none).run site).2

/-- An array with one element. -/
def readings : Json := .arr [.num (.ofInt 5)]

/-- An array, encoded twice. -/
theorem form_data_round_trip_site :
    let update := (updateTask 1 { submissionData := .value " \"[5]\"\n" } none).run taskSite
    storedSubmission update.2 1 = some readings ∧
      ∃ out, update.1 = .ok out ∧ ParsesBack readings out := by
  intro update
  have hOuter : Encodes " \"[5]\"\n" (.str "[5]") :=
    ⟨" ", "\"[5]\"", "\n", rfl, by simp [isSpace], by simp [isSpace], by decide, by decide, rfl⟩
  have hInner : Encodes "[5]" readings :=
    ⟨"", "[5]", "", rfl, by simp, by simp, by decide, by decide, rfl⟩
  have hRun : (updateTask 1 { submissionData := .value " \"[5]\"\n" } none).run taskSite =
    (.ok _, update.2) := rfl
  obtain ⟨hStored, hOut, -⟩ :=
    form_data_round_trip (Or.inr ⟨_, rfl⟩) (.double hOuter hInner) rfl rfl hRun
  exact ⟨hStored, _, rfl, hOut⟩

/-- The number five, encoded three times. -/
def thrice : String := "\"\\\"5\\\"\""

theorem parseJsonLike_thrice : parseJsonLike (some (.str thrice)) = some (.str "5") := rfl

/-- An update of the one task. -/
def answer (text : String) : UpdateTaskInput := { submissionData := .value text }

def answered (text : String) (s : Store) : Except Exn SerializedTask × Store :=
  (updateTask 1 (answer text) none).run s

/-- The number is stored encoded once; saving what is read from the task stores the number. -/
theorem resubmission_unpacks : ¬ KeepsResubmitted := by
  intro h
  have hFirst : (updateTask 1 (answer thrice) none).run taskSite =
    (.ok _, (answered thrice taskSite).2) := rfl
  have hSecond : (updateTask 1 (answer "5") none).run (answered thrice taskSite).2 =
    (.ok _, (answered "5" (answered thrice taskSite).2).2) := rfl
  obtain ⟨hStored, hOut⟩ := updateTask_submission hFirst
  obtain ⟨hStored', -⟩ := updateTask_submission hSecond
  have hSame := h _ _ _ 1 (answer thrice) (answer "5") none none _ _ thrice "5" (.str "5")
    parseJsonLike_thrice Json.noConfusion rfl hFirst hOut rfl hSecond
  rw [hSame, hStored] at hStored'
  cases hStored'

/-- An array is stored as it is again. -/
theorem resubmit_site :
    let first := answered "[5]" taskSite
    storedSubmission (answered "[5]" first.2).2 1 = storedSubmission first.2 1 := by
  intro first
  have hFirst : (updateTask 1 (answer "[5]") none).run taskSite = (.ok _, first.2) := rfl
  have hParsed : parseJsonLike (some (.str "[5]")) = some readings := rfl
  have hPrinted : Printed readings := ⟨rfl, by decide, by decide⟩
  refine (resubmit_iff hParsed (fun _ => hPrinted) rfl hFirst rfl rfl rfl).mpr ?_
  intro _ text hSame
  cases hSame

/-- A form that is an array, sent by a viewer with an id. -/
def checklist : CreateTaskInput := { title := "Inspect", formSchema := .value "[5]" }

def inspector : Viewer := ⟨7, some "admin"⟩

/-- The form is lost. -/
theorem form_array_lost :
    ¬ ∀ (s s' : Store) (data : CreateTaskInput) (viewer : Viewer) (out : SerializedTask)
      (text : String) (v : Json), viewer.userId ≠ 0 → IsStructured v → Encoding v text →
      data.formSchema = .value text →
      (createTask 1 data (some viewer)).run s = (.ok out, s') →
      ∀ task ∈ s'.task.rows, task ∉ s.task.rows → FormKept task.formSchema v := by
  intro h
  have hText : Encoding readings "[5]" :=
    .single ⟨"", "[5]", "", rfl, nofun, nofun, by decide, by decide, rfl⟩
  have hRun : (createTask 1 checklist (some inspector)).run site = (.ok _, _) := rfl
  have hKept := h _ _ _ _ _ _ readings (by decide) (Or.inr ⟨_, rfl⟩) hText rfl hRun _
    (List.mem_append_right _ (List.mem_singleton_self _)) List.not_mem_nil
  obtain ⟨doc, hDoc, hSub⟩ := hKept
  cases hDoc
  cases hSub

/-- A form with a field. -/
def unitForm : Json := .obj [("unit", .num (.ofInt 5))]

theorem form_kept_site :
    let data : CreateTaskInput :=
      { title := "Inspect", formSchema := .value "\x7b\"unit\":5\x7d" }
    ∃ task, (((createTask 1 data (some inspector)).run site).2).task.rows = [task] ∧
      FormKept task.formSchema unitForm := by
  intro data
  have hText : Encoding unitForm "\x7b\"unit\":5\x7d" :=
    .single ⟨"", "\x7b\"unit\":5\x7d", "", rfl, nofun, nofun, by decide, by decide, rfl⟩
  have hRun : (createTask 1 data (some inspector)).run site = (.ok _, _) := rfl
  obtain ⟨task, hRows, hKept⟩ :=
    form_kept_iff (by decide) (Or.inl ⟨_, rfl⟩) hText rfl hRun
  refine ⟨task, hRows, hKept.mpr (Or.inl ⟨_, rfl, fun key value _ hValue => ?_⟩)⟩
  by_cases hKey : key = "unit"
  · subst hKey
    obtain rfl := Option.some.inj hValue
    rfl
  · rw [Record.get_cons_of_ne hKey] at hValue
    cases hValue

end Site

end Rooeel
