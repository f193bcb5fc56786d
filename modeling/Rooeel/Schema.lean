import Rooeel.Lib.Relational
import Rooeel.Lib.JavaScript

/-!
# The database schema

The row types follow `prisma/schema.prisma` column by column, without the timestamps that
no modelled function reads. `Store` is the whole persistent state: one table for each
model, and the keys of the objects in the storage bucket.

The functions `erase…` delete rows together with the referential actions of the schema:
rows behind a `Cascade` relation are deleted, and the columns of a `SetNull` relation are
cleared. The models under `prisma` add the foreign keys and the unique indexes.
-/

namespace Rooeel

open JavaScript

abbrev Id := Int

/-- The four flags of a permission row or a policy row. -/
structure Flags where
  canView : Bool := false
  canCreate : Bool := false
  canEdit : Bool := false
  canDelete : Bool := false
  deriving DecidableEq, Repr

/-! ## Rows -/

structure Admin where
  id : Id
  firstName : String
  lastName : String
  email : String
  password : String
  deriving DecidableEq

structure User where
  id : Id
  firstName : String
  lastName : String
  email : String
  password : String
  createdBy : Option Id
  deriving DecidableEq

structure PasswordResetToken where
  id : Id
  email : String
  token : String
  expiresAt : Int
  usedAt : Option Int
  deriving DecidableEq

structure RefreshToken where
  id : Id
  token : String
  userId : Id
  userType : String
  expiresAt : Int
  revokedAt : Option Int
  updatedAt : Int
  deriving DecidableEq

structure UserRequest where
  id : Id
  userId : Id
  adminId : Id
  requestType : String
  currentValue : Option String
  requestedValue : Option String
  status : String
  deriving DecidableEq

structure Project where
  id : Id
  name : String
  description : Option String
  image : Option String
  status : String
  createdBy : Id
  deriving DecidableEq

structure WorkOrderPdf where
  id : Id
  projectId : Id
  fileKey : String
  fileName : String
  uploadedBy : Id
  deriving DecidableEq

structure ProjectField where
  id : Id
  projectId : Id
  name : String
  label : String
  fieldType : String
  options : Option Json
  required : Bool
  sortOrder : Int

structure ProjectFieldValue where
  id : Id
  fieldId : Id
  projectId : Id
  value : Option String
  updatedAt : Int
  deriving DecidableEq

structure Department where
  id : Id
  projectId : Id
  name : String
  deriving DecidableEq

structure DepartmentRole where
  id : Id
  departmentId : Id
  name : String
  deriving DecidableEq

structure DepartmentRolePolicy where
  id : Id
  departmentRoleId : Id
  resource : String
  flags : Flags
  deriving DecidableEq

structure ProjectRole where
  id : Id
  projectId : Id
  name : String
  deriving DecidableEq

structure Permission where
  id : Id
  projectRoleId : Id
  departmentId : Option Id
  resource : String
  flags : Flags
  deriving DecidableEq

structure ProjectUser where
  id : Id
  projectId : Id
  userId : Id
  projectRoleId : Option Id
  departmentId : Option Id
  departmentRoleId : Option Id
  deriving DecidableEq

structure Task where
  id : Id
  projectId : Id
  departmentId : Option Id
  title : String
  description : Option String
  status : String
  type : String
  formSchema : Option Json
  submissionData : Option Json
  assignedTo : Option Id

structure SubTask where
  id : Id
  taskId : Id
  title : String
  description : Option String
  status : String
  type : String
  formSchema : Option Json
  submissionData : Option Json
  assignedTo : Option Id

instance : Row Admin := ⟨Admin.id⟩
instance : Row User := ⟨User.id⟩
instance : Row PasswordResetToken := ⟨PasswordResetToken.id⟩
instance : Row RefreshToken := ⟨RefreshToken.id⟩
instance : Row UserRequest := ⟨UserRequest.id⟩
instance : Row Project := ⟨Project.id⟩
instance : Row WorkOrderPdf := ⟨WorkOrderPdf.id⟩
instance : Row ProjectField := ⟨ProjectField.id⟩
instance : Row ProjectFieldValue := ⟨ProjectFieldValue.id⟩
instance : Row Department := ⟨Department.id⟩
instance : Row DepartmentRole := ⟨DepartmentRole.id⟩
instance : Row DepartmentRolePolicy := ⟨DepartmentRolePolicy.id⟩
instance : Row ProjectRole := ⟨ProjectRole.id⟩
instance : Row Permission := ⟨Permission.id⟩
instance : Row ProjectUser := ⟨ProjectUser.id⟩
instance : Row Task := ⟨Task.id⟩
instance : Row SubTask := ⟨SubTask.id⟩

/-- The persistent state. -/
structure Store where
  admin : Table Admin := .empty
  user : Table User := .empty
  passwordResetToken : Table PasswordResetToken := .empty
  refreshToken : Table RefreshToken := .empty
  userRequest : Table UserRequest := .empty
  project : Table Project := .empty
  workOrderPdf : Table WorkOrderPdf := .empty
  projectField : Table ProjectField := .empty
  projectFieldValue : Table ProjectFieldValue := .empty
  department : Table Department := .empty
  departmentRole : Table DepartmentRole := .empty
  departmentRolePolicy : Table DepartmentRolePolicy := .empty
  projectRole : Table ProjectRole := .empty
  permission : Table Permission := .empty
  projectUser : Table ProjectUser := .empty
  task : Table Task := .empty
  subTask : Table SubTask := .empty
  objects : List String := []

/-! ## Deleting with referential actions -/

/-- A `SetNull` column after the deletion of the rows whose keys are `gone`. -/
def clearRef (gone : List Id) (ref : Option Id) : Option Id :=
  ref.filter fun k => !gone.contains k

theorem clearRef_some {gone : List Id} {ref : Option Id} {k : Id}
    (h : clearRef gone ref = some k) : ref = some k ∧ gone.contains k = false := by
  obtain ⟨hRef, hKept⟩ := Option.filter_eq_some_iff.mp h
  exact ⟨hRef, by simpa using hKept⟩

theorem clearRef_kept {gone : List Id} {k : Id} (h : gone.contains k = false) :
    clearRef gone (some k) = some k := by
  simp only [clearRef, Option.filter, h, Bool.not_false, if_true]

/-- The keys of the rows that are about to be deleted. -/
def keysOf {ρ : Type} [Row ρ] (t : Table ρ) (p : ρ → Bool) : List Id :=
  (t.rows.filter p).map Row.key

theorem keysOf_contains {ρ : Type} [Row ρ] {t : Table ρ} {p : ρ → Bool} {k : Id} :
    (keysOf t p).contains k = true ↔ ∃ r ∈ t.rows, p r = true ∧ Row.key r = k := by
  simp [keysOf, and_assoc]

def eraseSubTasks (p : SubTask → Bool) (s : Store) : Store :=
  { s with subTask := s.subTask.erase p }

def eraseTasks (p : Task → Bool) (s : Store) : Store :=
  let gone := keysOf s.task p
  eraseSubTasks (fun r => gone.contains r.taskId) { s with task := s.task.erase p }

def erasePermissions (p : Permission → Bool) (s : Store) : Store :=
  { s with permission := s.permission.erase p }

def erasePolicies (p : DepartmentRolePolicy → Bool) (s : Store) : Store :=
  { s with departmentRolePolicy := s.departmentRolePolicy.erase p }

def eraseDepartmentRoles (p : DepartmentRole → Bool) (s : Store) : Store :=
  let gone := keysOf s.departmentRole p
  erasePolicies (fun r => gone.contains r.departmentRoleId)
    { s with
      departmentRole := s.departmentRole.erase p
      projectUser := s.projectUser.modify (fun _ => true)
        (fun u => { u with departmentRoleId := clearRef gone u.departmentRoleId }) fun _ => rfl }

def eraseDepartments (p : Department → Bool) (s : Store) : Store :=
  let gone := keysOf s.department p
  let s := eraseDepartmentRoles (fun r => gone.contains r.departmentId) s
  let s := erasePermissions (fun r => r.departmentId.any fun d => gone.contains d) s
  { s with
    department := s.department.erase p
    projectUser := s.projectUser.modify (fun _ => true)
      (fun u => { u with departmentId := clearRef gone u.departmentId }) fun _ => rfl
    task := s.task.modify (fun _ => true)
      (fun t => { t with departmentId := clearRef gone t.departmentId }) fun _ => rfl }

def eraseProjectRoles (p : ProjectRole → Bool) (s : Store) : Store :=
  let gone := keysOf s.projectRole p
  let s := erasePermissions (fun r => gone.contains r.projectRoleId) s
  { s with
    projectRole := s.projectRole.erase p
    projectUser := s.projectUser.modify (fun _ => true)
      (fun u => { u with projectRoleId := clearRef gone u.projectRoleId }) fun _ => rfl }

def eraseFieldValues (p : ProjectFieldValue → Bool) (s : Store) : Store :=
  { s with projectFieldValue := s.projectFieldValue.erase p }

def eraseFields (p : ProjectField → Bool) (s : Store) : Store :=
  let gone := keysOf s.projectField p
  eraseFieldValues (fun r => gone.contains r.fieldId)
    { s with projectField := s.projectField.erase p }

def eraseWorkOrders (p : WorkOrderPdf → Bool) (s : Store) : Store :=
  { s with workOrderPdf := s.workOrderPdf.erase p }

def eraseProjectUsers (p : ProjectUser → Bool) (s : Store) : Store :=
  { s with projectUser := s.projectUser.erase p }

def eraseUserRequests (p : UserRequest → Bool) (s : Store) : Store :=
  { s with userRequest := s.userRequest.erase p }

def eraseProjects (p : Project → Bool) (s : Store) : Store :=
  let gone := keysOf s.project p
  let s := eraseProjectUsers (fun r => gone.contains r.projectId) s
  let s := eraseTasks (fun r => gone.contains r.projectId) s
  let s := eraseFields (fun r => gone.contains r.projectId) s
  let s := eraseFieldValues (fun r => gone.contains r.projectId) s
  let s := eraseWorkOrders (fun r => gone.contains r.projectId) s
  let s := eraseDepartments (fun r => gone.contains r.projectId) s
  let s := eraseProjectRoles (fun r => gone.contains r.projectId) s
  { s with project := s.project.erase p }

def eraseUsers (p : User → Bool) (s : Store) : Store :=
  let gone := keysOf s.user p
  let s := eraseUserRequests (fun r => gone.contains r.userId) s
  let s := eraseProjectUsers (fun r => gone.contains r.userId) s
  { s with
    user := s.user.erase p
    task := s.task.modify (fun _ => true)
      (fun t => { t with assignedTo := clearRef gone t.assignedTo }) fun _ => rfl
    subTask := s.subTask.modify (fun _ => true)
      (fun t => { t with assignedTo := clearRef gone t.assignedTo }) fun _ => rfl }

def eraseAdmins (p : Admin → Bool) (s : Store) : Store :=
  let gone := keysOf s.admin p
  let s := eraseUserRequests (fun r => gone.contains r.adminId) s
  let s := eraseProjects (fun r => gone.contains r.createdBy) s
  let s := eraseWorkOrders (fun r => gone.contains r.uploadedBy) s
  { s with
    admin := s.admin.erase p
    user := s.user.modify (fun _ => true)
      (fun u => { u with createdBy := clearRef gone u.createdBy }) fun _ => rfl }

/-! ## Models -/

/-- A nullable foreign key: `null`, or the key of an existing row. -/
def refOk {ρ : Type} [Row ρ] (t : Table ρ) (ref : Option Id) : Bool := ref.all fun k => t.has k

namespace prisma

def admin : Model Store Admin where
  table s := s.admin
  put t s := { s with admin := t }
  references _ _ := true
  conflicts a b := a.email == b.email
  erase := eraseAdmins
  table_put _ _ := rfl

def user : Model Store User where
  table s := s.user
  put t s := { s with user := t }
  references s r := refOk s.admin r.createdBy
  conflicts a b := a.email == b.email
  erase := eraseUsers
  table_put _ _ := rfl

def passwordResetToken : Model Store PasswordResetToken where
  table s := s.passwordResetToken
  put t s := { s with passwordResetToken := t }
  references _ _ := true
  conflicts a b := a.token == b.token
  erase p s := { s with passwordResetToken := s.passwordResetToken.erase p }
  table_put _ _ := rfl

def refreshToken : Model Store RefreshToken where
  table s := s.refreshToken
  put t s := { s with refreshToken := t }
  references _ _ := true
  conflicts a b := a.token == b.token
  erase p s := { s with refreshToken := s.refreshToken.erase p }
  table_put _ _ := rfl

def userRequest : Model Store UserRequest where
  table s := s.userRequest
  put t s := { s with userRequest := t }
  references s r := s.user.has r.userId && s.admin.has r.adminId
  conflicts _ _ := false
  erase := eraseUserRequests
  table_put _ _ := rfl

def project : Model Store Project where
  table s := s.project
  put t s := { s with project := t }
  references s r := s.admin.has r.createdBy
  conflicts _ _ := false
  erase := eraseProjects
  table_put _ _ := rfl

def workOrderPdf : Model Store WorkOrderPdf where
  table s := s.workOrderPdf
  put t s := { s with workOrderPdf := t }
  references s r := s.project.has r.projectId && s.admin.has r.uploadedBy
  conflicts _ _ := false
  erase := eraseWorkOrders
  table_put _ _ := rfl

def projectField : Model Store ProjectField where
  table s := s.projectField
  put t s := { s with projectField := t }
  references s r := s.project.has r.projectId
  conflicts _ _ := false
  erase := eraseFields
  table_put _ _ := rfl

def projectFieldValue : Model Store ProjectFieldValue where
  table s := s.projectFieldValue
  put t s := { s with projectFieldValue := t }
  references s r := s.projectField.has r.fieldId && s.project.has r.projectId
  conflicts a b := a.fieldId == b.fieldId
  erase := eraseFieldValues
  table_put _ _ := rfl

def department : Model Store Department where
  table s := s.department
  put t s := { s with department := t }
  references s r := s.project.has r.projectId
  conflicts _ _ := false
  erase := eraseDepartments
  table_put _ _ := rfl

def departmentRole : Model Store DepartmentRole where
  table s := s.departmentRole
  put t s := { s with departmentRole := t }
  references s r := s.department.has r.departmentId
  conflicts a b := a.departmentId == b.departmentId && a.name == b.name
  erase := eraseDepartmentRoles
  table_put _ _ := rfl

def departmentRolePolicy : Model Store DepartmentRolePolicy where
  table s := s.departmentRolePolicy
  put t s := { s with departmentRolePolicy := t }
  references s r := s.departmentRole.has r.departmentRoleId
  conflicts a b := a.departmentRoleId == b.departmentRoleId && a.resource == b.resource
  erase := erasePolicies
  table_put _ _ := rfl

def projectRole : Model Store ProjectRole where
  table s := s.projectRole
  put t s := { s with projectRole := t }
  references s r := s.project.has r.projectId
  conflicts a b := a.projectId == b.projectId && a.name == b.name
  erase := eraseProjectRoles
  table_put _ _ := rfl

/-- The unique index does not apply to rows without a department: nulls are distinct. -/
def permission : Model Store Permission where
  table s := s.permission
  put t s := { s with permission := t }
  references s r := s.projectRole.has r.projectRoleId && refOk s.department r.departmentId
  conflicts a b := a.projectRoleId == b.projectRoleId && a.departmentId.isSome &&
    a.departmentId == b.departmentId && a.resource == b.resource
  erase := erasePermissions
  table_put _ _ := rfl

def projectUser : Model Store ProjectUser where
  table s := s.projectUser
  put t s := { s with projectUser := t }
  references s r := s.project.has r.projectId && s.user.has r.userId &&
    refOk s.projectRole r.projectRoleId && refOk s.department r.departmentId &&
    refOk s.departmentRole r.departmentRoleId
  conflicts a b := a.projectId == b.projectId && a.userId == b.userId
  erase := eraseProjectUsers
  table_put _ _ := rfl

def task : Model Store Task where
  table s := s.task
  put t s := { s with task := t }
  references s r := s.project.has r.projectId && refOk s.department r.departmentId &&
    refOk s.user r.assignedTo
  conflicts _ _ := false
  erase := eraseTasks
  table_put _ _ := rfl

def subTask : Model Store SubTask where
  table s := s.subTask
  put t s := { s with subTask := t }
  references s r := s.task.has r.taskId && refOk s.user r.assignedTo
  conflicts _ _ := false
  erase := eraseSubTasks
  table_put _ _ := rfl

end prisma

/-- The store satisfies the foreign keys and the unique indexes of the schema. -/
structure Store.Valid (s : Store) : Prop where
  admin : prisma.admin.Sound s
  user : prisma.user.Sound s
  passwordResetToken : prisma.passwordResetToken.Sound s
  refreshToken : prisma.refreshToken.Sound s
  userRequest : prisma.userRequest.Sound s
  project : prisma.project.Sound s
  workOrderPdf : prisma.workOrderPdf.Sound s
  projectField : prisma.projectField.Sound s
  projectFieldValue : prisma.projectFieldValue.Sound s
  department : prisma.department.Sound s
  departmentRole : prisma.departmentRole.Sound s
  departmentRolePolicy : prisma.departmentRolePolicy.Sound s
  projectRole : prisma.projectRole.Sound s
  permission : prisma.permission.Sound s
  projectUser : prisma.projectUser.Sound s
  task : prisma.task.Sound s
  subTask : prisma.subTask.Sound s

/-! ## A small store -/

/-- A project of one admin with one member, whose role has all rights on tasks. The admin
and the member have the same id, in their two tables. -/
def site : Store where
  admin := Table.empty.insert (fun id =>
    { id, firstName := "Ada", lastName := "Orr", email := "ada@site"
      password := "x" }) fun _ => rfl
  user := Table.empty.insert (fun id =>
    { id, firstName := "Ben", lastName := "Fry", email := "ben@site", password := "y"
      createdBy := some 1 }) fun _ => rfl
  project := Table.empty.insert (fun id =>
    { id, name := "Bridge", description := none, image := none, status := "active"
      createdBy := 1 }) fun _ => rfl
  projectRole := Table.empty.insert (fun id =>
    { id, projectId := 1, name := "Foreman" }) fun _ => rfl
  permission := Table.empty.insert (fun id =>
    { id, projectRoleId := 1, departmentId := none, resource := "TASK"
      flags := { canView := true, canCreate := true, canEdit := true } }) fun _ => rfl
  projectUser := Table.empty.insert (fun id =>
    { id, projectId := 1, userId := 1, projectRoleId := some 1, departmentId := none
      departmentRoleId := none }) fun _ => rfl

/-- The project of the small site. -/
def bridge : Project := ⟨1, "Bridge", none, none, "active", 1⟩

/-- The member of the small site. -/
def foreman : ProjectUser := ⟨1, 1, 1, some 1, none, none⟩

theorem bridge_mem : bridge ∈ site.project.rows := by decide

theorem site_valid : site.Valid := by
  constructor <;> decide

end Rooeel
