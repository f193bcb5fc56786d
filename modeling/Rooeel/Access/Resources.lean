import Rooeel.Service

/-!
# Resource names and policy flags

Permissions, department-role policies and tasks name the resource they are about by a
string. `normalizeResource` is the spelling under which the access map of a member is
indexed; `normalizePolicyResource` also resolves the aliases under which the clients write
policies. A name is canonical when normalisation leaves it alone, whatever the case mapping
does outside ASCII; all names that the program itself uses are.
-/

namespace Rooeel

open JavaScript

/-! ## The four actions -/

/-- The keys `canView`, `canCreate`, `canEdit` and `canDelete`. -/
inductive Action where
  | view
  | create
  | edit
  | delete
  deriving DecidableEq, Repr

namespace Flags

def get (flags : Flags) : Action → Bool
  | .view => flags.canView
  | .create => flags.canCreate
  | .edit => flags.canEdit
  | .delete => flags.canDelete

/-- The flags that one of the two has. -/
def merge (a b : Flags) : Flags where
  canView := a.canView || b.canView
  canCreate := a.canCreate || b.canCreate
  canEdit := a.canEdit || b.canEdit
  canDelete := a.canDelete || b.canDelete

theorem get_merge (a b : Flags) (action : Action) :
    (a.merge b).get action = (a.get action || b.get action) := by
  cases action <;> rfl

end Flags

/-! ## The resources of the program -/

def defaultUserViewResources : List String :=
  ["WORK_ORDER", "TASK", "SUBTASK", "DEPARTMENT", "USER"]

def projectFieldResources : List String := ["FIELD", "PROJECT_FIELD"]

def hardcodedTaskResources : List String :=
  ["DRAWING_VIEW_FOLDERS", "DRAWING_VIEW_REGISTERS", "DRAWING_CREATE_FOLDER",
   "DRAWING_RENAME_FOLDER", "DRAWING_DELETE_FOLDER", "DRAWING_VIEW_PDFS", "DRAWING_UPLOAD_PDF",
   "DRAWING_UPLOAD_MULTIPLE_PDFS", "DRAWING_RENAME_PDF", "DRAWING_DELETE_PDF",
   "DRAWING_DELETE_MULTIPLE_PDFS", "DRAWING_CREATE_REGISTER", "DRAWING_DELETE_REGISTER",
   "BILL_OF_MATERIAL_FOLDER_VIEW", "BILL_OF_MATERIAL_FOLDER_CREATE",
   "BILL_OF_MATERIAL_FOLDER_RENAME", "BILL_OF_MATERIAL_FOLDER_DELETE",
   "BILL_OF_MATERIAL_TRACK_CREATE", "BILL_OF_MATERIAL_TRACK_VIEW",
   "BILL_OF_MATERIAL_TRACK_RENAME", "BILL_OF_MATERIAL_TRACK_EDIT", "MIV_MIN_FOLDER_VIEW",
   "MIV_MIN_FOLDER_CREATE", "MIV_MIN_FOLDER_RENAME", "MIV_MIN_FOLDER_DELETE", "MIN_MIV_PDF_VIEW",
   "MIN_MIV_PDF_UPLOAD", "MIN_MIV_PDF_RENAME", "MIN_MIV_PDF_DELETE", "MIV_MIN_REGISTER_CREATE",
   "MIV_MIN_REGISTER_VIEW", "MIV_MIN_REGISTER_RENAME", "MIV_MIN_REGISTER_DELETE",
   "CHALLAN_FOLDER_VIEW", "CHALLAN_FOLDER_CREATE", "CHALLAN_FOLDER_RENAME",
   "CHALLAN_FOLDER_DELETE", "CHALLAN_PDF_VIEW", "CHALLAN_PDF_UPLOAD", "CHALLAN_PDF_RENAME",
   "CHALLAN_PDF_DELETE", "CHALLAN_REGISTER_CREATE", "CHALLAN_REGISTER_VIEW",
   "CHALLAN_REGISTER_RENAME", "CHALLAN_REGISTER_DELETE", "CHALLAN_REGISTER_EDIT",
   "SCHEDULE_FOLDER_CREATE", "SCHEDULE_FOLDER_RENAME", "SCHEDULE_FOLDER_VIEW",
   "SCHEDULE_FOLDER_DELETE", "L3_SCHEDULE_VIEW", "L3_SCHEDULE_CREATE", "L3_SCHEDULE_EDIT",
   "L3_SCHEDULE_RENAME", "L3_SCHEDULE_DELETE", "LHS_FOLDER_CREATE", "LHS_FOLDER_VIEW",
   "LHS_FOLDER_EDIT", "LHS_FOLDER_DELETE"]

def hardcodedViewOnlyResources : List String :=
  ["DRAWING_VIEW_FOLDERS", "DRAWING_VIEW_REGISTERS", "DRAWING_VIEW_PDFS",
   "BILL_OF_MATERIAL_FOLDER_VIEW", "BILL_OF_MATERIAL_TRACK_VIEW", "MIV_MIN_FOLDER_VIEW",
   "MIN_MIV_PDF_VIEW", "MIV_MIN_REGISTER_VIEW", "CHALLAN_FOLDER_VIEW", "CHALLAN_PDF_VIEW",
   "CHALLAN_REGISTER_VIEW", "SCHEDULE_FOLDER_VIEW", "L3_SCHEDULE_VIEW", "LHS_FOLDER_VIEW"]

def allowedPolicyResources : List String :=
  defaultUserViewResources ++ projectFieldResources ++ hardcodedTaskResources

/-- The aliases of `normalizePolicyResource`. -/
def policyAliases : Record String :=
  [("DRAWING_UPLOAD_MULTIPLE_PDF", "DRAWING_UPLOAD_MULTIPLE_PDFS"),
   ("DRAWING_DELETE_MULTIPLE_PDF", "DRAWING_DELETE_MULTIPLE_PDFS"),
   ("UPLOAD_MULTIPLE_PDFS", "DRAWING_UPLOAD_MULTIPLE_PDFS"),
   ("DELETE_MULTIPLE_PDFS", "DRAWING_DELETE_MULTIPLE_PDFS"),
   ("DRAWING_VIEW_FOLDER", "DRAWING_VIEW_FOLDERS"),
   ("VIEW_FOLDERS", "DRAWING_VIEW_FOLDERS"),
   ("DRAWING_VIEW_REGISTER", "DRAWING_VIEW_REGISTERS"),
   ("VIEW_REGISTER", "DRAWING_VIEW_REGISTERS"),
   ("VIEW_REGISTERS", "DRAWING_VIEW_REGISTERS"),
   ("DRAWING_VIEW_PDF", "DRAWING_VIEW_PDFS"),
   ("VIEW_PDFS", "DRAWING_VIEW_PDFS"),
   ("BILL_OF_MATERIAL_VIEW_TRACK_REGISTER", "BILL_OF_MATERIAL_TRACK_VIEW"),
   ("VIEW_BILL_OF_MATERIAL_TRACK_REGISTER", "BILL_OF_MATERIAL_TRACK_VIEW"),
   ("BOM_TRACK_VIEW", "BILL_OF_MATERIAL_TRACK_VIEW"),
   ("BILL_OF_MATERIAL_EDIT_TRACK_REGISTER", "BILL_OF_MATERIAL_TRACK_EDIT"),
   ("EDIT_BILL_OF_MATERIAL_TRACK_REGISTER", "BILL_OF_MATERIAL_TRACK_EDIT"),
   ("BOM_TRACK_EDIT", "BILL_OF_MATERIAL_TRACK_EDIT"),
   ("BILL_OF_MATERIAL_CREATE_FOLDER", "BILL_OF_MATERIAL_FOLDER_CREATE"),
   ("BILL_OF_MATERIAL_VIEW_FOLDER", "BILL_OF_MATERIAL_FOLDER_VIEW"),
   ("BILL_OF_MATERIAL_RENAME_FOLDER", "BILL_OF_MATERIAL_FOLDER_RENAME"),
   ("BILL_OF_MATERIAL_DELETE_FOLDER", "BILL_OF_MATERIAL_FOLDER_DELETE"),
   ("CREATE_BILL_OF_MATERIALS_FOLDERS", "BILL_OF_MATERIAL_FOLDER_CREATE"),
   ("VIEW_BILL_OF_MATERIALS_FOLDERS", "BILL_OF_MATERIAL_FOLDER_VIEW"),
   ("RENAME_BILL_OF_MATERIALS_FOLDERS", "BILL_OF_MATERIAL_FOLDER_RENAME"),
   ("DELETE_BILL_OF_MATERIALS_FOLDERS", "BILL_OF_MATERIAL_FOLDER_DELETE"),
   ("BILL_OF_MATERIAL_TRACK_CREATE_REGISTER", "BILL_OF_MATERIAL_TRACK_CREATE"),
   ("BILL_OF_MATERIAL_TRACK_RENAME_REGISTER", "BILL_OF_MATERIAL_TRACK_RENAME"),
   ("CREATE_BILL_OF_MATERIALS_TRACK_REGISTER", "BILL_OF_MATERIAL_TRACK_CREATE"),
   ("RENAME_BILL_OF_MATERIALS_TRACK_REGISTER", "BILL_OF_MATERIAL_TRACK_RENAME"),
   ("MIV_MIN_CREATE_FOLDER", "MIV_MIN_FOLDER_CREATE"),
   ("MIV_MIN_VIEW_FOLDER", "MIV_MIN_FOLDER_VIEW"),
   ("MIV_MIN_RENAME_FOLDER", "MIV_MIN_FOLDER_RENAME"),
   ("MIV_MIN_DELETE_FOLDER", "MIV_MIN_FOLDER_DELETE"),
   ("CREATE_MIV_MIN_FOLDERS", "MIV_MIN_FOLDER_CREATE"),
   ("VIEW_MIV_MIN_FOLDERS", "MIV_MIN_FOLDER_VIEW"),
   ("RENAME_MIV_MIN_FOLDERS", "MIV_MIN_FOLDER_RENAME"),
   ("DELETE_MIV_MIN_FOLDERS", "MIV_MIN_FOLDER_DELETE"),
   ("MIN_MIV_VIEW_PDF", "MIN_MIV_PDF_VIEW"),
   ("MIN_MIV_UPLOAD_PDF", "MIN_MIV_PDF_UPLOAD"),
   ("MIN_MIV_RENAME_PDF", "MIN_MIV_PDF_RENAME"),
   ("MIN_MIV_DELETE_PDF", "MIN_MIV_PDF_DELETE"),
   ("VIEW_MIN_MIV_PDF", "MIN_MIV_PDF_VIEW"),
   ("UPLOAD_MIN_MIV_PDF", "MIN_MIV_PDF_UPLOAD"),
   ("RENAME_MIN_MIV_PDF", "MIN_MIV_PDF_RENAME"),
   ("DELETE_MIN_MIV_PDF", "MIN_MIV_PDF_DELETE"),
   ("MIV_MIN_CREATE_REGISTER", "MIV_MIN_REGISTER_CREATE"),
   ("MIV_MIN_VIEW_REGISTER", "MIV_MIN_REGISTER_VIEW"),
   ("MIV_MIN_RENAME_REGISTER", "MIV_MIN_REGISTER_RENAME"),
   ("MIV_MIN_DELETE_REGISTER", "MIV_MIN_REGISTER_DELETE"),
   ("CREATE_MIV_MIN_REGISTER", "MIV_MIN_REGISTER_CREATE"),
   ("VIEW_MIV_MIN_REGISTER", "MIV_MIN_REGISTER_VIEW"),
   ("RENAME_MIV_MIN_REGISTER", "MIV_MIN_REGISTER_RENAME"),
   ("DELETE_MIV_MIN_REGISTER", "MIV_MIN_REGISTER_DELETE"),
   ("CHALLAN_CREATE_FOLDER", "CHALLAN_FOLDER_CREATE"),
   ("CHALLAN_VIEW_FOLDER", "CHALLAN_FOLDER_VIEW"),
   ("CHALLAN_RENAME_FOLDER", "CHALLAN_FOLDER_RENAME"),
   ("CHALLAN_DELETE_FOLDER", "CHALLAN_FOLDER_DELETE"),
   ("CREATE_CHALLAN_FOLDERS", "CHALLAN_FOLDER_CREATE"),
   ("VIEW_CHALLAN_FOLDERS", "CHALLAN_FOLDER_VIEW"),
   ("RENAME_CHALLAN_FOLDERS", "CHALLAN_FOLDER_RENAME"),
   ("DELETE_CHALLAN_FOLDERS", "CHALLAN_FOLDER_DELETE"),
   ("CHALLAN_VIEW_PDF", "CHALLAN_PDF_VIEW"),
   ("CHALLAN_UPLOAD_PDF", "CHALLAN_PDF_UPLOAD"),
   ("CHALLAN_RENAME_PDF", "CHALLAN_PDF_RENAME"),
   ("CHALLAN_DELETE_PDF", "CHALLAN_PDF_DELETE"),
   ("VIEW_CHALLAN_PDF", "CHALLAN_PDF_VIEW"),
   ("UPLOAD_CHALLAN_PDF", "CHALLAN_PDF_UPLOAD"),
   ("RENAME_CHALLAN_PDF", "CHALLAN_PDF_RENAME"),
   ("DELETE_CHALLAN_PDF", "CHALLAN_PDF_DELETE"),
   ("CHALLAN_CREATE_REGISTER", "CHALLAN_REGISTER_CREATE"),
   ("CHALLAN_VIEW_REGISTER", "CHALLAN_REGISTER_VIEW"),
   ("CHALLAN_RENAME_REGISTER", "CHALLAN_REGISTER_RENAME"),
   ("CHALLAN_DELETE_REGISTER", "CHALLAN_REGISTER_DELETE"),
   ("CHALLAN_EDIT_REGISTER", "CHALLAN_REGISTER_EDIT"),
   ("CREATE_CHALLAN_REGISTER", "CHALLAN_REGISTER_CREATE"),
   ("VIEW_CHALLAN_REGISTER", "CHALLAN_REGISTER_VIEW"),
   ("RENAME_CHALLAN_REGISTER", "CHALLAN_REGISTER_RENAME"),
   ("DELETE_CHALLAN_REGISTER", "CHALLAN_REGISTER_DELETE"),
   ("EDIT_CHALLAN_REGISTER", "CHALLAN_REGISTER_EDIT"),
   ("SCHEDULE_CREATE_FOLDER", "SCHEDULE_FOLDER_CREATE"),
   ("SCHEDULE_RENAME_FOLDER", "SCHEDULE_FOLDER_RENAME"),
   ("SCHEDULE_VIEW_FOLDER", "SCHEDULE_FOLDER_VIEW"),
   ("SCHEDULE_DELETE_FOLDER", "SCHEDULE_FOLDER_DELETE"),
   ("CREATE_SCHEDULE_FOLDERS", "SCHEDULE_FOLDER_CREATE"),
   ("RENAME_SCHEDULE_FOLDERS", "SCHEDULE_FOLDER_RENAME"),
   ("VIEW_SCHEDULE_FOLDERS", "SCHEDULE_FOLDER_VIEW"),
   ("DELETE_SCHEDULE_FOLDERS", "SCHEDULE_FOLDER_DELETE"),
   ("VIEW_L3_SCHEDULE", "L3_SCHEDULE_VIEW"),
   ("CREATE_L3_SCHEDULE", "L3_SCHEDULE_CREATE"),
   ("EDIT_L3_SCHEDULE", "L3_SCHEDULE_EDIT"),
   ("RENAME_L3_SCHEDULE", "L3_SCHEDULE_RENAME"),
   ("DELETE_L3_SCHEDULE", "L3_SCHEDULE_DELETE"),
   ("L3_CREATE_SCHEDULE", "L3_SCHEDULE_CREATE"),
   ("L3_EDIT_SCHEDULE", "L3_SCHEDULE_EDIT"),
   ("L3_RENAME_SCHEDULE", "L3_SCHEDULE_RENAME"),
   ("L3_DELETE_SCHEDULE", "L3_SCHEDULE_DELETE"),
   ("L3_VIEW_SCHEDULE", "L3_SCHEDULE_VIEW"),
   ("LINE_HISTORY_SHEET_CREATE_FOLDER", "LHS_FOLDER_CREATE"),
   ("LINE_HISTORY_SHEET_VIEW_FOLDER", "LHS_FOLDER_VIEW"),
   ("LINE_HISTORY_SHEET_EDIT_FOLDER", "LHS_FOLDER_EDIT"),
   ("LINE_HISTORY_SHEET_DELETE_FOLDER", "LHS_FOLDER_DELETE"),
   ("CREATE_LINE_HISTORY_SHEET_FOLDERS", "LHS_FOLDER_CREATE"),
   ("VIEW_LINE_HISTORY_SHEET_FOLDERS", "LHS_FOLDER_VIEW"),
   ("EDIT_LINE_HISTORY_SHEET_FOLDERS", "LHS_FOLDER_EDIT"),
   ("DELETE_LINE_HISTORY_SHEET_FOLDERS", "LHS_FOLDER_DELETE"),
   ("LHS_CREATE_FOLDER", "LHS_FOLDER_CREATE"),
   ("LHS_VIEW_FOLDER", "LHS_FOLDER_VIEW"),
   ("LHS_EDIT_FOLDER", "LHS_FOLDER_EDIT"),
   ("LHS_DELETE_FOLDER", "LHS_FOLDER_DELETE")]

/-- A printable ASCII character before the small letters. -/
def isCanonicalChar (c : Char) : Bool := 33 ≤ c.toNat && c.toNat < 97

def isCanonical (resource : String) : Bool := resource.toList.all isCanonicalChar

/-- The characters of a list of names, for the checks on all of them: comparing characters is
much cheaper than comparing string literals. -/
structure Spelled (names : List String) where
  chars : List (List Char)
  spells : chars.map String.ofList = names

namespace Spelled

def nil : Spelled [] := ⟨[], rfl⟩

def cons (cs : List Char) {names : List String} (rest : Spelled names) :
    Spelled (String.ofList cs :: names) :=
  ⟨cs :: rest.chars, by rw [List.map_cons, rest.spells]⟩

variable {names : List String} (spelled : Spelled names)

theorem toList_mem {name : String} : name.toList ∈ spelled.chars ↔ name ∈ names := by
  constructor
  · intro h
    rw [← spelled.spells]
    exact List.mem_map.mpr ⟨_, h, String.ofList_toList⟩
  · intro h
    rw [← spelled.spells] at h
    obtain ⟨cs, hMem, rfl⟩ := List.mem_map.mp h
    rw [String.toList_ofList]
    exact hMem

/-- A check of the characters of all names. -/
theorem forall_of_all {p : List Char → Bool} (h : spelled.chars.all p = true) :
    ∀ name ∈ names, p name.toList = true :=
  fun _ hName => List.all_eq_true.mp h _ (spelled.toList_mem.mpr hName)

end Spelled

def allowedPolicyResourcesSpelled : Spelled allowedPolicyResources := by
  repeat (first | exact .nil | refine .cons _ ?_)

def policyAliasesSpelled : Spelled (policyAliases.map Prod.fst) := by
  repeat (first | exact .nil | refine .cons _ ?_)

theorem allowedPolicyResources_canonical :
    ∀ r ∈ allowedPolicyResources, isCanonical r = true := by
  have hAll :
      allowedPolicyResourcesSpelled.chars.all (fun cs => cs.all isCanonicalChar) = true := by
    decide +kernel
  exact allowedPolicyResourcesSpelled.forall_of_all hAll

theorem hardcodedTaskResources_canonical {r : String} (h : r ∈ hardcodedTaskResources) :
    isCanonical r = true :=
  allowedPolicyResources_canonical r (List.mem_append_right _ h)

theorem defaultUserViewResources_canonical {r : String} (h : r ∈ defaultUserViewResources) :
    isCanonical r = true :=
  allowedPolicyResources_canonical r (List.mem_append_left _ (List.mem_append_left _ h))

/-- An alias is not itself the name of a resource. -/
structure IsAlias (name : String) : Prop where
  canonical : isCanonical name = true
  nonempty : name ≠ ""
  notAllowed : name ∉ allowedPolicyResources

theorem policyAliases_isAlias : ∀ entry ∈ policyAliases, IsAlias entry.1 := by
  have hAll : policyAliasesSpelled.chars.all (fun cs => cs.all isCanonicalChar && cs != [] &&
      !allowedPolicyResourcesSpelled.chars.contains cs) = true := by
    decide +kernel
  intro entry hEntry
  have hAlias := policyAliasesSpelled.forall_of_all hAll entry.1 (List.mem_map_of_mem hEntry)
  rw [Bool.and_eq_true, Bool.and_eq_true, Bool.not_eq_true', ← Bool.not_eq_true,
    List.contains_iff_mem, Spelled.toList_mem, bne_iff_ne] at hAlias
  refine ⟨hAlias.1.1, fun hEmpty => hAlias.1.2 ?_, hAlias.2⟩
  rw [hEmpty]
  rfl

/-! ## Normalisation -/

section Normalisation

variable [Runtime]

def normalizeResource (resource : String) : String := toUpperCase (trim resource)

/-- `aliases[normalized] || normalized`; no alias is the empty string. -/
def normalizePolicyResource (resource : String) : String :=
  let normalized := normalizeResource resource
  (policyAliases.get normalized).getD normalized

omit [Runtime] in
theorem canonical_char {resource : String} (h : isCanonical resource = true) {c : Char}
    (hc : c ∈ resource.toList) : 33 ≤ c.toNat ∧ c.toNat < 97 := by
  have hChar := List.all_eq_true.mp h c hc
  simpa [isCanonicalChar] using hChar

theorem toUpperCase_of_canonical {resource : String} (h : isCanonical resource = true) :
    toUpperCase resource = resource := by
  have hAscii : isAscii resource = true := by
    refine List.all_eq_true.mpr fun c hc => decide_eq_true ?_
    have hBounds := canonical_char h hc
    omega
  have hUpper : asciiUpper resource = resource := by
    refine asciiUpper_of_no_small fun c hc hSmall => ?_
    have hBounds := canonical_char h hc
    omega
  rw [Runtime.toUpperCase_ascii _ hAscii, hUpper]

theorem normalizeResource_of_canonical {resource : String} (h : isCanonical resource = true) :
    normalizeResource resource = resource := by
  have hTrim : trim resource = resource := by
    refine trim_of_no_space fun c hc => ?_
    obtain ⟨hLow, hHigh⟩ := canonical_char h hc
    simp only [isSpace, Bool.or_eq_false_iff, Bool.and_eq_false_iff, decide_eq_false_iff_not,
      beq_eq_false_iff_ne]
    omega
  rw [normalizeResource, hTrim, toUpperCase_of_canonical h]

/-- A name is an alias, or its own policy name. -/
theorem normalizePolicyResource_cases (resource : String) :
    normalizePolicyResource resource = normalizeResource resource ∨
      IsAlias (normalizeResource resource) := by
  unfold normalizePolicyResource
  cases hAlias : policyAliases.get (normalizeResource resource) with
  | none =>
      refine Or.inl ?_
      simp only [hAlias, Option.getD_none]
  | some name => exact Or.inr (policyAliases_isAlias _ (Record.mem_of_get hAlias))

theorem normalizeResource_empty : normalizeResource "" = "" := by
  rw [normalizeResource, trim_empty, toUpperCase_empty]

/-! ## Policy flags -/

def isHardcodedTaskResource (resource : String) : Bool :=
  hardcodedTaskResources.contains (normalizeResource resource)

def isHardcodedViewOnlyResource (resource : String) : Bool :=
  hardcodedViewOnlyResources.contains (normalizeResource resource)

def buildPolicyFlags (resource : String) (flags : Flags) : Flags :=
  if isHardcodedViewOnlyResource resource then
    { canView := flags.canView }
  else if isHardcodedTaskResource resource then
    { flags with
      canView := flags.canView || flags.canCreate || flags.canEdit || flags.canDelete }
  else flags

end Normalisation

end Rooeel
