import Rooeel.Access.AccessMap
import Rooeel.Task.Operations
import Mathlib.Data.List.Sort

/-!
# What a viewer sees of a project

`findOne` reads a project with its members, departments, roles, work orders and fields, and
hides from a viewer who is not an admin what the viewer's access map does not let them see.
The decisions are collected in a `ViewerPolicy`. The links to stored files, which the
storage service adds to the work orders, are left out.
-/

namespace Rooeel

open JavaScript

variable [Runtime]

/-! ## Projects as they are read -/

/-- A project with the rows that a query includes. -/
structure ProjectView where
  project : Project
  fields : List (ProjectField × Option ProjectFieldValue)
  workOrders : List WorkOrderPdf
  departments : List Department
  roles : List ProjectRole
  users : List ProjectUser
  tasks : List Task := []

structure AccessPolicy where
  resource : String
  flags : Flags

/-- A project as it is returned. `effectiveAccessPolicies` is set for a member only. -/
structure ProjectResponse where
  project : Project
  fields : List (ProjectField × Option ProjectFieldValue)
  workOrders : List WorkOrderPdf
  departments : List Department
  roles : List ProjectRole
  users : List ProjectUser
  tasks : List SerializedTask := []
  effectiveAccessPolicies : Option (List AccessPolicy) := none

/-- The work orders of a project, newest first. -/
def workOrdersOf (s : Store) (projectId : Id) : List WorkOrderPdf :=
  (s.workOrderPdf.rows.filter fun r => r.projectId == projectId).reverse

/-- The fields of a project by `sortOrder`, each with its value. -/
def fieldsOf (s : Store) (projectId : Id) : List (ProjectField × Option ProjectFieldValue) :=
  ((s.projectField.rows.filter fun r => r.projectId == projectId).insertionSort
    fun a b => a.sortOrder ≤ b.sortOrder).map fun field =>
      (field, s.projectFieldValue.rows.find? fun r => r.fieldId == field.id)

/-- The query of `findOne`. -/
def loadProject (s : Store) (project : Project) : ProjectView where
  project := project
  fields := fieldsOf s project.id
  workOrders := workOrdersOf s project.id
  departments := s.department.rows.filter fun r => r.projectId == project.id
  roles := s.projectRole.rows.filter fun r => r.projectId == project.id
  users := s.projectUser.rows.filter fun r => r.projectId == project.id

def ProjectView.response (view : ProjectView) : ProjectResponse where
  project := view.project
  fields := view.fields
  workOrders := view.workOrders
  departments := view.departments
  roles := view.roles
  users := view.users

/-! ## The viewer policy -/

def buildEffectiveAccessPolicies (accessMap : AccessMap) : List AccessPolicy :=
  (accessMap.map fun entry => { resource := entry.1, flags := entry.2 }).insertionSort
    fun a b => localeCompare a.resource b.resource ≤ 0

/-- What `applyViewerPolicyOnProject` decides from an access map. -/
structure ViewerPolicy where
  canViewUsers : Bool
  canViewDepartments : Bool
  canViewWorkOrders : Bool
  canViewFields : Bool
  deriving DecidableEq

def viewerPolicy (accessMap : AccessMap) : ViewerPolicy :=
  let fieldPolicyDefined := hasPolicyForAnyResource accessMap projectFieldResources
  { canViewUsers := canAccess accessMap "USER" .view
    canViewDepartments := canAccess accessMap "DEPARTMENT" .view
    canViewWorkOrders := canAccess accessMap "WORK_ORDER" .view
    canViewFields :=
      if fieldPolicyDefined then hasAccessForAnyResource accessMap projectFieldResources .view
      else true }

/-- The task is in the viewer's department, without a department, or assigned to the viewer. -/
def isInViewerScope (membership : ProjectUser) (viewerUserId : Id) (task : Task) : Bool :=
  !isSet task.departmentId || task.departmentId.getD 0 == membership.departmentId.getD 0 ||
    task.assignedTo.getD 0 == viewerUserId

/-- The tasks in scope that the viewer may see. The resource is read of these tasks only. -/
def visibleTask (membership : ProjectUser) (accessMap : AccessMap) (viewerUserId : Id)
    (task : Task) : Option Bool :=
  if isInViewerScope membership viewerUserId task then mayPerform accessMap task.taskLike .view
  else some false

/-- The project as a member with this access map sees it, with the tasks it sees. -/
def ProjectView.restrict (view : ProjectView) (accessMap : AccessMap) (viewerUserId : Id)
    (visibleTasks : List Task) : ProjectResponse :=
  let policy := viewerPolicy accessMap
  { project := view.project
    roles := view.roles
    users :=
      if policy.canViewUsers then view.users
      else view.users.filter fun user => user.userId == viewerUserId
    departments := if policy.canViewDepartments then view.departments else []
    tasks := visibleTasks.map fun task => serializeTaskForGraphql { task }
    workOrders := if policy.canViewWorkOrders then view.workOrders else []
    fields := if policy.canViewFields then view.fields else []
    effectiveAccessPolicies := some (buildEffectiveAccessPolicies accessMap) }

def applyViewerPolicyOnProject (view : ProjectView) (viewerUserId : Id) :
    Service ProjectResponse :=
  match view.users.find? fun user => user.userId == viewerUserId with
  | none => pure
      { project := view.project, roles := view.roles, users := [], departments := [],
        workOrders := [], fields := [], effectiveAccessPolicies := some [] }
  | some membership => do
    let accessMap ← getAccessMapForProjectUser membership.membership
    let visibleTasks ← orTypeError
      (filterOrThrow (visibleTask membership accessMap viewerUserId) view.tasks)
    pure (view.restrict accessMap viewerUserId visibleTasks)

/-! ## Reading a project -/

def projectNotFound (id : Id) : Exn := .notFound s!"Project with ID {id} not found"

def findOne (id : Id) (viewer : Option Viewer := none) : Service ProjectResponse := do
  let project ← query fun s =>
    (prisma.project.findFirst (fun r => r.id == id) s).map (loadProject s)
  match project with
  | none => throw (projectNotFound id)
  | some view =>
    match nonAdmin viewer with
    | none => pure view.response
    | some v => do
      let assigned := view.users.any fun user => user.userId == v.userId
      Prog.throwIf (assigned = false) (projectNotFound id)
      applyViewerPolicyOnProject view v.userId

/-- The check in front of the REST endpoint that streams a work order. -/
def assertCanViewWorkOrder (projectId : Id) (user : Viewer) : Service Bool :=
  if user.role = some "admin" then pure true
  else do
    Prog.throwIf (user.userId = 0) (.forbidden "Work order access denied")
    match ← getProjectUserContext projectId user.userId with
    | none => throw (.forbidden "Work order access denied")
    | some context =>
      Prog.throwIf (canAccess context.accessMap "WORK_ORDER" .view = false)
        (.forbidden "Work order access denied")
      pure true

end Rooeel
