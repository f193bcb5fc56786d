import Rooeel.Project.View

/-!
# The operations of the project service

Every mutation of `project.service.ts` outside tasks, in the order of the source, and the
two deletions of accounts that cascade into projects. A mutation reads, checks, and ends
with one statement; `uploadWorkOrder` and `deleteWorkOrder` also have a step on the storage
bucket.
-/

namespace Rooeel

open JavaScript

/-! ## Names -/

section Names

/-- `name.trim()`, refused when it is empty. -/
def requireName (name : String) : Service String := do
  let normalizedName := trim name
  Prog.throwIf (normalizedName = "") (.conflict "Role name is required")
  pure normalizedName

/-- The class `\w`. -/
def isWordChar (c : Char) : Bool := c.isAlphanum || c == '_'

/-- `replace(/\s+/g, ' ')` -/
def collapseSpaces : List Char → List Char
  | [] => []
  | c :: rest =>
    let collapsed := collapseSpaces rest
    if isSpace c then
      match rest with
      | d :: _ => if isSpace d then collapsed else ' ' :: collapsed
      | [] => [' ']
    else c :: collapsed

/-- `replace(/\.pdf$/i, '')` -/
def dropPdfSuffix (name : String) : String :=
  let n := name.toList.length - 4
  if 4 ≤ name.toList.length ∧ asciiLower (String.ofList (name.toList.drop n)) = ".pdf" then
    String.ofList (name.toList.take n)
  else name

/-- The display name of an uploaded work order. -/
def displayName (name : Option String) (originalname datePart : String) : String :=
  let given := match name with
    | some n => if n = "" then dropPdfSuffix originalname else n
    | none => dropPdfSuffix originalname
  let kept := (trim given).toList.filter fun c => isWordChar c || isSpace c || c == '-'
  let safe := trim (String.ofList (collapseSpaces kept))
  let safeName := if safe = "" then "Work Order" else safe
  s!"{safeName} - {datePart}.pdf"

end Names

variable [Runtime]

/-! ## Projects -/

structure CreateProjectInput where
  name : String
  description : Arg String := .undefined
  image : Arg String := .undefined

structure UpdateProjectInput where
  name : Arg String := .undefined
  description : Arg String := .undefined
  image : Arg String := .undefined

def createProject (adminId : Id) (input : CreateProjectInput) : Service Project :=
  create prisma.project fun id =>
    { id
      name := input.name
      description := input.description.toOption
      image := input.image.toOption
      status := "active"
      createdBy := adminId }

def updateProject (id : Id) (input : UpdateProjectInput) : Service Project := do
  let _project ← findOne id
  Prog.throwIf (input.name.isNull = true) (.prisma .invalid)
  update prisma.project (fun r => r.id == id) fun r =>
    { r with
      name := input.name.assignD r.name
      description := input.description.assign r.description
      image := input.image.assign r.image }

def removeProject (id : Id) : Service Project := do
  let _project ← findOne id
  delete prisma.project fun r => r.id == id

/-! ## Dynamic fields -/

structure CreateFieldInput where
  name : String
  label : String
  fieldType : String
  options : Arg String := .undefined
  required : Arg Bool := .undefined
  sortOrder : Arg Int := .undefined

def createField (projectId : Id) (input : CreateFieldInput) : Service ProjectField := do
  Prog.throwIf (input.required.isNull || input.sortOrder.isNull) (.prisma .invalid)
  create prisma.projectField fun id =>
    { id
      projectId
      name := input.name
      label := input.label
      fieldType := input.fieldType
      options := input.options.json
      required := input.required.toOption.getD false
      sortOrder := input.sortOrder.toOption.getD 0 }

def deleteField (fieldId : Id) : Service Bool := do
  let _field ← findUniqueOrThrow prisma.projectField fieldId
  let _deleted ← delete prisma.projectField fun r => r.id == fieldId
  pure true

/-- The time is that of the database client, when it writes `updatedAt`. -/
def setFieldValue (projectId fieldId : Id) (value : String) (updatedAt : Int) :
    Service ProjectFieldValue :=
  upsert prisma.projectFieldValue (fun r => r.fieldId == fieldId)
    (fun r => { r with value := some value, updatedAt })
    fun id => { id, fieldId, projectId, value := some value, updatedAt }

/-! ## Members -/

def assignUser (projectId userId : Id) : Service ProjectUser := do
  let _project ← findOne projectId
  let existing ← findUnique prisma.projectUser (isMember projectId userId)
  Prog.throwIf (existing.isSome = true) (.conflict "User is already assigned to this project")
  create prisma.projectUser fun id =>
    { id, projectId, userId, projectRoleId := none, departmentId := none
      departmentRoleId := none }

def unassignUser (projectId userId : Id) : Service Bool := do
  let _deleted ← delete prisma.projectUser (isMember projectId userId)
  pure true

/-- A change of the member row named by `projectId_userId`. -/
def updateMember (projectId userId : Id) (f : ProjectUser → ProjectUser)
    (hf : ∀ r, Row.key (f r) = Row.key r := by intro; rfl) : Service ProjectUser :=
  update prisma.projectUser (isMember projectId userId) f hf

/-! ## Work orders -/

/-- An uploaded file: the key under which it is stored, its names, and the date. -/
structure Upload where
  fileKey : String
  originalname : String
  name : Option String
  datePart : String

def storeObject (fileKey : String) : Service Unit :=
  execute fun s => .ok ((), { s with objects := s.objects ++ [fileKey] })

def deleteFile (fileKey : String) : Service Unit :=
  execute fun s => .ok ((), { s with objects := s.objects.filter fun k => k != fileKey })

def uploadWorkOrder (projectId adminId : Id) (file : Upload) : Service WorkOrderPdf := do
  let _project ← findOne projectId
  storeObject file.fileKey
  create prisma.workOrderPdf fun id =>
    { id, projectId, fileKey := file.fileKey
      fileName := displayName file.name file.originalname file.datePart
      uploadedBy := adminId }

def deleteWorkOrder (workOrderId : Id) : Service Bool := do
  let wo ← findUniqueOrThrow prisma.workOrderPdf workOrderId
  deleteFile wo.fileKey
  let _deleted ← delete prisma.workOrderPdf fun r => r.id == workOrderId
  pure true

/-! ## Roles -/

def createRole (projectId : Id) (name : String) : Service ProjectRole := do
  let _project ← findOne projectId
  let normalizedName ← requireName name
  let existing ← findUnique prisma.projectRole fun r =>
    r.projectId == projectId && r.name == normalizedName
  Prog.throwIf (existing.isSome = true)
    (.conflict s!"Role \"{normalizedName}\" already exists in this project")
  create prisma.projectRole fun id => { id, projectId, name := normalizedName }

def updateRole (id : Id) (name : String) : Service ProjectRole := do
  let role ← findUniqueOrThrow prisma.projectRole id
  let normalizedName ← requireName name
  let duplicate ← findUnique prisma.projectRole fun r =>
    r.projectId == role.projectId && r.name == normalizedName && r.id != id
  Prog.throwIf (duplicate.isSome = true)
    (.conflict s!"Role \"{normalizedName}\" already exists in this project")
  update prisma.projectRole (fun r => r.id == id) fun r => { r with name := normalizedName }

def removeRole (id : Id) : Service Bool := do
  let _role ← findUniqueOrThrow prisma.projectRole id
  let _deleted ← delete prisma.projectRole fun r => r.id == id
  pure true

def setUserRole (projectId userId roleId : Id) : Service ProjectUser :=
  updateMember projectId userId fun r => { r with projectRoleId := some roleId }

def unsetUserRole (projectId userId : Id) : Service ProjectUser :=
  updateMember projectId userId fun r => { r with projectRoleId := none }

/-! ## Departments -/

def createDepartment (projectId : Id) (name : String) : Service Department := do
  let _project ← findOne projectId
  create prisma.department fun id => { id, projectId, name }

def updateDepartment (id : Id) (name : String) : Service Department := do
  let _department ← findUniqueOrThrow prisma.department id
  update prisma.department (fun r => r.id == id) fun r => { r with name }

def removeDepartment (id : Id) : Service Bool := do
  let _department ← findUniqueOrThrow prisma.department id
  let _deleted ← delete prisma.department fun r => r.id == id
  pure true

def createDepartmentRole (departmentId : Id) (name : String) : Service DepartmentRole := do
  let _department ← findUniqueOrThrow prisma.department departmentId
  let normalizedName ← requireName name
  create prisma.departmentRole fun id => { id, departmentId, name := normalizedName }

def updateDepartmentRole (id : Id) (name : String) : Service DepartmentRole := do
  let role ← findUniqueOrThrow prisma.departmentRole id
  let normalizedName ← requireName name
  let duplicate ← findUnique prisma.departmentRole fun r =>
    r.departmentId == role.departmentId && r.name == normalizedName && r.id != id
  Prog.throwIf (duplicate.isSome = true)
    (.conflict s!"Role \"{normalizedName}\" already exists in this department")
  update prisma.departmentRole (fun r => r.id == id) fun r => { r with name := normalizedName }

def removeDepartmentRole (id : Id) : Service Bool := do
  let _role ← findUniqueOrThrow prisma.departmentRole id
  let _deleted ← delete prisma.departmentRole fun r => r.id == id
  pure true

def notConfigured (resource : String) : Exn :=
  .conflict s!"\"{resource}\" is not a configured hardcoded task/resource"

def setDepartmentRolePolicy (roleId : Id) (resource : String) (flags : Flags) :
    Service DepartmentRolePolicy := do
  let _role ← findUniqueOrThrow prisma.departmentRole roleId
  let normalizedResource := normalizePolicyResource resource
  Prog.throwIf (normalizedResource = "") (.conflict "Resource is required")
  Prog.throwIf (normalizedResource ∉ allowedPolicyResources) (notConfigured normalizedResource)
  let policyFlags := buildPolicyFlags normalizedResource flags
  upsert prisma.departmentRolePolicy
    (fun r => r.departmentRoleId == roleId && r.resource == normalizedResource)
    (fun r => { r with flags := policyFlags })
    fun id =>
      { id, departmentRoleId := roleId, resource := normalizedResource, flags := policyFlags }

def removeDepartmentRolePolicy (id : Id) : Service Bool := do
  let _policy ← findUniqueOrThrow prisma.departmentRolePolicy id
  let _deleted ← delete prisma.departmentRolePolicy fun r => r.id == id
  pure true

def assignUserToDepartment (projectId userId departmentId : Id) : Service ProjectUser := do
  let department ← findUniqueOrThrow prisma.department departmentId
  Prog.throwIf (department.projectId ≠ projectId)
    (.conflict "Department does not belong to this project")
  updateMember projectId userId fun r =>
    { r with departmentId := some departmentId, departmentRoleId := none }

def removeUserFromDepartment (projectId userId : Id) : Service ProjectUser :=
  updateMember projectId userId fun r => { r with departmentId := none, departmentRoleId := none }

/-- The department role with the project of its department. -/
def findDepartmentRole (id : Id) : Service (DepartmentRole × Id) :=
  Prog.read fun s =>
    match s.departmentRole.find id with
    | none => .error (.prisma .notFound)
    | some role =>
      match s.department.find role.departmentId with
      | none => .error (.prisma .notFound)
      | some department => .ok (role, department.projectId)

def setUserDepartmentRole (projectId userId departmentRoleId : Id) : Service ProjectUser := do
  let _member ← Prog.read fun s =>
    match prisma.projectUser.findFirst (isMember projectId userId) s with
    | none => .error (.prisma .notFound)
    | some r => .ok r
  let role ← findDepartmentRole departmentRoleId
  Prog.throwIf (role.2 ≠ projectId) (.conflict "Department role does not belong to this project")
  updateMember projectId userId fun r =>
    { r with departmentId := some role.1.departmentId, departmentRoleId := some role.1.id }

def unsetUserDepartmentRole (projectId userId : Id) : Service ProjectUser :=
  updateMember projectId userId fun r => { r with departmentRoleId := none }

/-! ## Permissions -/

def setPermission (roleId : Id) (resource : String) (departmentId : Option Id) (flags : Flags) :
    Service Permission := do
  let normalizedResource := normalizePolicyResource resource
  Prog.throwIf (normalizedResource ∉ allowedPolicyResources) (notConfigured normalizedResource)
  let policyFlags := buildPolicyFlags normalizedResource flags
  let row (id : Id) : Permission :=
    { id, projectRoleId := roleId, departmentId, resource := normalizedResource
      flags := policyFlags }
  match departmentId with
  | none => do
    let existing ← findUnique prisma.permission fun r =>
      r.projectRoleId == roleId && r.resource == normalizedResource && r.departmentId == none
    match existing with
    | some permission =>
      update prisma.permission (fun r => r.id == permission.id) fun r =>
        { r with flags := policyFlags }
    | none => create prisma.permission row
  | some department =>
    upsert prisma.permission
      (fun r => r.projectRoleId == roleId && r.departmentId == some department &&
        r.resource == normalizedResource)
      (fun r => { r with flags := policyFlags }) row

def removePermission (id : Id) : Service Bool := do
  let _permission ← findUniqueOrThrow prisma.permission id
  let _deleted ← delete prisma.permission fun r => r.id == id
  pure true

/-! ## Accounts -/

/-- `UserService.remove`. -/
def removeUser (id : Id) : Service User := do
  let user ← findUnique prisma.user fun r => r.id == id
  Prog.throwIf (user.isNone = true) (.notFound s!"User with ID {id} not found")
  delete prisma.user fun r => r.id == id

/-- `AdminService.remove`. -/
def removeAdmin (id : Id) : Service Unit := do
  let admin ← findUnique prisma.admin fun r => r.id == id
  Prog.throwIf (admin.isNone = true) (.notFound s!"Admin with ID {id} not found")
  let _deleted ← delete prisma.admin fun r => r.id == id
  pure ()

end Rooeel
