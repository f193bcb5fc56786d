import Rooeel.Access.Resources

/-!
# What a task says about itself

A task names the resource its rights are checked on, and its creator, inside the JSON
document `formSchema`. The document arrives as a string and is stored parsed, so both
`resolveTaskResource` and `resolveTaskCreatorId` are applied to strings at creation and to
documents later.

`stampCreator` is what `createTask` writes, and `Json.stored` what the column gives back. The two
results at the end are the reason why the check at creation and all later checks agree: stamping
leaves the resource alone, unless a number that overflows names it, and the stamp is what
`resolveTaskCreatorId` reads back.
-/

namespace Rooeel

open JavaScript

variable [Runtime]

/-! ## Reading a document -/

/-- The loop of `parseJsonLike`: unpack at most `depth` layers of string. -/
def parseJsonLayers : Nat → Option Json → Option Json
  | 0, current => current
  | depth + 1, current =>
    match current with
    | some (.str text) =>
      if trim text = "" then none
      else
        match parseJson (trim text) with
        | some parsed => parseJsonLayers depth (some parsed)
        | none => current
    | _ => current

def parseJsonLike (value : Option Json) : Option Json := parseJsonLayers 2 value

/-- A string argument of a mutation, as a value. -/
def Arg.json : Arg String → Option Json
  | .undefined => none
  | .null => some .null
  | .value text => some (.str text)

/-- The columns that `resolveTaskResource` and `resolveTaskCreatorId` look at. -/
structure TaskLike where
  type : Option String
  formSchema : Option Json

def Task.taskLike (task : Task) : TaskLike where
  type := some task.type
  formSchema := task.formSchema

/-- `/^resource:(.+)$/i`: the group of a match. -/
def matchResource (rawType : String) : Option String :=
  let group := rawType.toList.drop 9
  if asciiLower (String.ofList (rawType.toList.take 9)) = "resource:" ∧ group ≠ [] ∧
      group.all (fun c => !isLineTerminator c) = true then
    some (String.ofList group)
  else none

/-- `schema.resource ?? schema.resourceKey ?? schema.accessResource`; `none` is `null` or
`undefined`. -/
def namedResource (schema : Record Json) : Option Json :=
  coalesce (coalesce (schema.get "resource")
    (coalesce (schema.get "resourceKey") (schema.get "accessResource"))) none

/-- The candidate that the keys of a parsed `formSchema` give. -/
def schemaResource (schema : Record Json) : Option String :=
  match namedResource schema with
  | some v => (toText v).map normalizeResource
  | none => some (normalizeResource "")

/-- The resource that the type of a task gives. -/
def typeResource (type : Option String) : String :=
  match matchResource (trim (type.getD "")) with
  | some group => if normalizeResource group = "" then "TASK" else normalizeResource group
  | none => "TASK"

/-- `none` is the exception, when the resource is named by an object without a text. -/
def resolveTaskResource (taskLike : TaskLike) : Option String :=
  match parseJsonLike taskLike.formSchema with
  | some (.obj schema) => (schemaResource schema).map fun candidate =>
    if candidate = "" then typeResource taskLike.type else candidate
  | _ => some (typeResource taskLike.type)

/-- `Number(v || 0)`. -/
def numberOr0 : Option Json → Option Number
  | some v => if truthy v then toNumber v else some (.ofInt 0)
  | none => some (.ofInt 0)

def resolveTaskCreatorId (taskLike : TaskLike) : Option Number :=
  match parseJsonLike taskLike.formSchema with
  | some (.obj schema) => numberOr0 (Record.get schema "createdBy")
  | _ => some (.ofInt 0)

/-! ## Writing a document -/

/-- The document that `createTask` writes: the parsed one, with the id of the viewer under
`createdBy` when there is a viewer with an id. -/
def stampCreator (viewer : Option Viewer) (parsedFormSchema : Option Json) : Option Json :=
  match viewer.filter fun v => v.userId ≠ 0 with
  | none => parsedFormSchema
  | some v =>
    match parsedFormSchema with
    | some (.obj schema) => some (.obj (Record.set schema "createdBy" (.num (.ofInt v.userId))))
    | _ => some (.obj [("createdBy", .num (.ofInt v.userId))])

def serializeJsonForGraphql : Option Json → Option String
  | none => none
  | some .null => none
  | some (.str text) => some text
  | some value => some (stringifyJson value)

/-! ## Texts of stored documents -/

mutual

/-- No number in the text of the value overflows. The text of an object has no numbers. -/
def hasFiniteText : Json → Bool
  | .num n => n.isFinite
  | .arr xs => haveFiniteTexts xs
  | _ => true

def haveFiniteTexts : List Json → Bool
  | [] => true
  | x :: xs => hasFiniteText x && haveFiniteTexts xs

end

omit [Runtime] in
/-- Only numbers that overflow are replaced. -/
theorem stored_ne_null {v : Json} (hText : hasFiniteText v = true) (hNull : v ≠ .null) :
    v.stored ≠ .null := by
  cases v with
  | null => exact absurd rfl hNull
  | num n =>
      rw [Json.stored, if_pos (by simpa [hasFiniteText] using hText)]
      exact hNull
  | bool b => exact hNull
  | str s => exact hNull
  | arr xs => exact nofun
  | obj fields => exact nofun

theorem toTexts_cons {x : Json} (hNull : x ≠ .null) (xs : List Json) :
    toTexts (x :: xs) = (toText x).bind fun text => (toTexts xs).map (text :: ·) := by
  cases x with
  | null => exact absurd rfl hNull
  | bool b => rfl
  | num n => rfl
  | str s => rfl
  | arr xs => rfl
  | obj fields => rfl

mutual

theorem toText_stored : ∀ v : Json, hasFiniteText v = true → toText v.stored = toText v
  | .null, _ | .bool _, _ | .str _, _ => rfl
  | .num n, h => by
      have hFinite : n.isFinite = true := by simpa [hasFiniteText] using h
      rw [Json.stored, if_pos hFinite]
  | .arr xs, h => by
      have hTexts : haveFiniteTexts xs = true := by simpa [hasFiniteText] using h
      rw [Json.stored, toText, toText, toTexts_storedAll xs hTexts]
  | .obj fields, _ => by
      rw [Json.stored, toText, toText, Record.get_storedFields]
      cases Record.get fields "toString" <;> rfl

theorem toTexts_storedAll : ∀ xs : List Json, haveFiniteTexts xs = true →
    toTexts (storedAll xs) = toTexts xs
  | [], _ => rfl
  | x :: xs, h => by
      obtain ⟨hx, hxs⟩ : hasFiniteText x = true ∧ haveFiniteTexts xs = true := by
        simpa [haveFiniteTexts] using h
      have hRest := toTexts_storedAll xs hxs
      have hText := toText_stored x hx
      rw [storedAll]
      by_cases hNull : x = .null
      · rw [hNull, Json.stored, toTexts, toTexts, hRest]
      · rw [toTexts_cons hNull, toTexts_cons (stored_ne_null hx hNull), hText, hRest]

end

/-- A document names its resource by a text in which no number overflows. -/
def NamedByText (formSchema : Option Json) : Prop :=
  ∀ schema, parseJsonLike formSchema = some (.obj schema) →
    ∀ v, namedResource schema = some v → hasFiniteText v = true

omit [Runtime] in
theorem coalesce_of_empty {a b : Option Json} (h : a = none ∨ a = some .null) :
    coalesce a b = b := by
  rcases h with rfl | rfl <;> rfl

omit [Runtime] in
theorem coalesce_stored {a b b' : Option Json}
    (hText : ∀ v, coalesce a b = some v → v ≠ .null → v.stored ≠ .null)
    (hRest : a = none ∨ a = some .null → b' = b.map Json.stored) :
    coalesce (a.map Json.stored) b' = (coalesce a b).map Json.stored := by
  cases a with
  | none => exact hRest (Or.inl rfl)
  | some v =>
      by_cases hNull : v = .null
      · subst hNull
        exact hRest (Or.inr rfl)
      · have hFirst {w : Json} {c : Option Json} (hw : w ≠ .null) :
            coalesce (some w) c = some w := by
          cases w <;> first | exact absurd rfl hw | rfl
        rw [Option.map_some, hFirst (hText v (hFirst hNull) hNull), hFirst hNull, Option.map_some]

omit [Runtime] in
/-- The stored document names the same value, as it is stored. -/
theorem namedResource_stored {schema : Record Json}
    (h : ∀ v, namedResource schema = some v → hasFiniteText v = true) :
    namedResource (storedFields schema) = (namedResource schema).map Json.stored := by
  have hNamed {v : Json} (hNull : v ≠ .null)
      (hFirst : coalesce (schema.get "resource")
        (coalesce (schema.get "resourceKey") (schema.get "accessResource")) = some v) :
      v.stored ≠ .null := by
    refine stored_ne_null (h v ?_) hNull
    rw [namedResource, hFirst]
    cases v <;> first | exact absurd rfl hNull | rfl
  unfold namedResource
  simp only [Record.get_storedFields]
  rw [coalesce_stored (a := schema.get "resource")
    (b := coalesce (schema.get "resourceKey") (schema.get "accessResource"))
    (fun v hFirst hNull => hNamed hNull hFirst)
    fun hEmpty => coalesce_stored (fun v hFirst hNull => hNamed hNull
      ((coalesce_of_empty hEmpty).trans hFirst)) fun _ => rfl]
  refine coalesce_stored (fun v hFirst hNull => hNamed hNull ?_) fun _ => rfl
  cases hFound : coalesce (schema.get "resource")
      (coalesce (schema.get "resourceKey") (schema.get "accessResource")) with
  | none => rw [hFound] at hFirst; cases hFirst
  | some w =>
      rw [hFound] at hFirst
      cases w <;> first | exact hFirst | cases hFirst

theorem schemaResource_stored {schema : Record Json}
    (h : ∀ v, namedResource schema = some v → hasFiniteText v = true) :
    schemaResource (storedFields schema) = schemaResource schema := by
  unfold schemaResource
  rw [namedResource_stored h]
  cases hNamed : namedResource schema with
  | none => rfl
  | some v => exact congrArg (Option.map normalizeResource) (toText_stored v (h v hNamed))

/-! ## Parsing twice -/

theorem parseJsonLike_obj (schema : Record Json) :
    parseJsonLike (some (.obj schema)) = some (.obj schema) := rfl

omit [Runtime] in
theorem stampCreator_eq (v : Viewer) (hUser : v.userId ≠ 0) (parsed : Option Json) :
    stampCreator (some v) parsed =
      match parsed with
      | some (.obj schema) => some (.obj (Record.set schema "createdBy" (.num (.ofInt v.userId))))
      | _ => some (.obj [("createdBy", .num (.ofInt v.userId))]) := by
  have hViewer : (some v).filter (fun v => decide (v.userId ≠ 0)) = some v := by
    simp [Option.filter, hUser]
  rw [stampCreator, hViewer]

omit [Runtime] in
/-- What is stored of a stamped document. -/
theorem stored_stampCreator (v : Viewer) (hUser : v.userId ≠ 0) (parsed : Option Json) :
    (stampCreator (some v) parsed).map Json.stored =
      match parsed with
      | some (.obj schema) =>
        some (.obj (Record.set (storedFields schema) "createdBy" (.num (.ofInt v.userId))))
      | _ => some (.obj [("createdBy", .num (.ofInt v.userId))]) := by
  rw [stampCreator_eq v hUser]
  split
  · rw [Option.map_some, Json.stored, storedFields_set]
    rfl
  · rfl

omit [Runtime] in
theorem namedResource_set_createdBy (schema : Record Json) (v : Json) :
    namedResource (schema.set "createdBy" v) = namedResource schema := by
  have hOther : ∀ key, key ≠ "createdBy" → (schema.set "createdBy" v).get key = schema.get key :=
    fun key hKey => schema.get_set_of_ne v hKey
  simp only [namedResource]
  rw [hOther _ (by decide), hOther _ (by decide), hOther _ (by decide)]

theorem schemaResource_set_createdBy (schema : Record Json) (v : Json) :
    schemaResource (schema.set "createdBy" v) = schemaResource schema := by
  unfold schemaResource
  rw [namedResource_set_createdBy]

theorem schemaResource_createdBy (v : Json) : schemaResource [("createdBy", v)] = some "" :=
  congrArg some normalizeResource_empty

/-- **Storing and stamping keep the resource.** Unless the document names it by a number that
overflows, the stored one resolves to the same resource as the one that was sent. -/
theorem resolveTaskResource_stamp (v : Viewer) (hUser : v.userId ≠ 0) (type : Option String)
    {formSchema : Option Json} (hNamed : NamedByText formSchema) :
    resolveTaskResource
        ⟨type, (stampCreator (some v) (parseJsonLike formSchema)).map Json.stored⟩ =
      resolveTaskResource ⟨type, formSchema⟩ := by
  rw [stored_stampCreator v hUser]
  have hFresh : resolveTaskResource ⟨type, some (.obj [("createdBy", .num (.ofInt v.userId))])⟩ =
      some (typeResource type) := by
    simp only [resolveTaskResource, parseJsonLike_obj]
    rw [schemaResource_createdBy, Option.map_some, if_pos rfl]
  cases hParsed : parseJsonLike formSchema with
  | none =>
      rw [hFresh]
      simp only [resolveTaskResource, hParsed]
  | some parsed =>
      cases parsed with
      | obj schema =>
          simp only [resolveTaskResource, hParsed, parseJsonLike_obj]
          rw [schemaResource_set_createdBy, schemaResource_stored (hNamed schema hParsed)]
      | null | bool b | num n | str text | arr xs =>
          rw [hFresh]
          simp only [resolveTaskResource, hParsed]

omit [Runtime] in
theorem ofInt_ne_zero {n : Int} (h : n ≠ 0) : Number.ofInt n ≠ Number.ofInt 0 :=
  fun hEq => h (Number.ofInt_inj hEq)

theorem numberOr0_ofInt {n : Int} (h : n ≠ 0) :
    numberOr0 (some (.num (.ofInt n))) = some (.ofInt n) := by
  have hTruthy : truthy (.num (.ofInt n)) = true := by
    have hNan : Number.ofInt n ≠ .nan := by simp [Number.ofInt]
    simp [truthy, ofInt_ne_zero h, hNan]
  simp only [numberOr0, hTruthy, if_true, toNumber]

/-- **The stamp is the creator.** A `createdBy` that was sent is overwritten. -/
theorem resolveTaskCreatorId_stamp (v : Viewer) (hUser : v.userId ≠ 0) (type : Option String)
    (parsed : Option Json) :
    resolveTaskCreatorId ⟨type, (stampCreator (some v) parsed).map Json.stored⟩ =
      some (.ofInt v.userId) := by
  have hObj (schema : Record Json)
      (hGet : schema.get "createdBy" = some (.num (.ofInt v.userId))) :
      resolveTaskCreatorId ⟨type, some (.obj schema)⟩ = some (.ofInt v.userId) := by
    simp only [resolveTaskCreatorId, parseJsonLike_obj, hGet]
    exact numberOr0_ofInt hUser
  rw [stored_stampCreator v hUser]
  split
  · exact hObj _ (Record.get_set_self _ _ _)
  · exact hObj _ (Record.get_cons_self _ _ _)

end Rooeel
