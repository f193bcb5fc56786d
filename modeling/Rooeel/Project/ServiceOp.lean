import Rooeel.Project.Operations

/-!
# Mutations as data, and runs of them

`ServiceOp` is any mutation of the project service, or the removal of an account, with its
arguments; `ServiceOp.prog` is its program. A `Run` is a sequence of mutations, each running
alone, with changes of accounts, tokens and requests in between; it records the answers.
-/

namespace Rooeel

open JavaScript

/-- A mutation with its arguments. -/
inductive ServiceOp where
  | createProject (adminId : Id) (input : CreateProjectInput)
  | updateProject (id : Id) (input : UpdateProjectInput)
  | removeProject (id : Id)
  | createField (projectId : Id) (input : CreateFieldInput)
  | deleteField (fieldId : Id)
  | setFieldValue (projectId fieldId : Id) (value : String) (updatedAt : Int)
  | assignUser (projectId userId : Id)
  | unassignUser (projectId userId : Id)
  | uploadWorkOrder (projectId adminId : Id) (file : Upload)
  | deleteWorkOrder (workOrderId : Id)
  | createRole (projectId : Id) (name : String)
  | updateRole (id : Id) (name : String)
  | removeRole (id : Id)
  | setUserRole (projectId userId roleId : Id)
  | unsetUserRole (projectId userId : Id)
  | createDepartment (projectId : Id) (name : String)
  | updateDepartment (id : Id) (name : String)
  | removeDepartment (id : Id)
  | createDepartmentRole (departmentId : Id) (name : String)
  | updateDepartmentRole (id : Id) (name : String)
  | removeDepartmentRole (id : Id)
  | setDepartmentRolePolicy (roleId : Id) (resource : String) (flags : Flags)
  | removeDepartmentRolePolicy (id : Id)
  | assignUserToDepartment (projectId userId departmentId : Id)
  | removeUserFromDepartment (projectId userId : Id)
  | setUserDepartmentRole (projectId userId departmentRoleId : Id)
  | unsetUserDepartmentRole (projectId userId : Id)
  | setPermission (roleId : Id) (resource : String) (departmentId : Option Id) (flags : Flags)
  | removePermission (id : Id)
  | createTask (projectId : Id) (data : CreateTaskInput) (viewer : Option Viewer)
  | updateTask (id : Id) (data : UpdateTaskInput) (viewer : Option Viewer)
  | removeTask (id : Id) (viewer : Option Viewer)
  | createSubTask (taskId : Id) (data : CreateSubTaskInput)
  | updateSubTask (id : Id) (data : UpdateTaskInput)
  | removeSubTask (id : Id)
  | removeUser (id : Id)
  | removeAdmin (id : Id)

/-- What a mutation answers, as far as later statements look at it. -/
inductive Answer where
  | task (task : SerializedTask)
  | other

section Runs

variable [Runtime]

def answering {α : Type} (f : α → Answer) (p : Service α) : Service Answer := do
  let a ← p
  pure (f a)

def acknowledge {α : Type} (p : Service α) : Service Answer := answering (fun _ => .other) p

def ServiceOp.prog : ServiceOp → Service Answer
  | .createProject adminId input => acknowledge (Rooeel.createProject adminId input)
  | .updateProject id input => acknowledge (Rooeel.updateProject id input)
  | .removeProject id => acknowledge (Rooeel.removeProject id)
  | .createField projectId input => acknowledge (Rooeel.createField projectId input)
  | .deleteField fieldId => acknowledge (Rooeel.deleteField fieldId)
  | .setFieldValue projectId fieldId value updatedAt =>
      acknowledge (Rooeel.setFieldValue projectId fieldId value updatedAt)
  | .assignUser projectId userId => acknowledge (Rooeel.assignUser projectId userId)
  | .unassignUser projectId userId =>
      acknowledge (Rooeel.unassignUser projectId userId)
  | .uploadWorkOrder projectId adminId file =>
      acknowledge (Rooeel.uploadWorkOrder projectId adminId file)
  | .deleteWorkOrder workOrderId => acknowledge (Rooeel.deleteWorkOrder workOrderId)
  | .createRole projectId name => acknowledge (Rooeel.createRole projectId name)
  | .updateRole id name => acknowledge (Rooeel.updateRole id name)
  | .removeRole id => acknowledge (Rooeel.removeRole id)
  | .setUserRole projectId userId roleId =>
      acknowledge (Rooeel.setUserRole projectId userId roleId)
  | .unsetUserRole projectId userId =>
      acknowledge (Rooeel.unsetUserRole projectId userId)
  | .createDepartment projectId name =>
      acknowledge (Rooeel.createDepartment projectId name)
  | .updateDepartment id name => acknowledge (Rooeel.updateDepartment id name)
  | .removeDepartment id => acknowledge (Rooeel.removeDepartment id)
  | .createDepartmentRole departmentId name =>
      acknowledge (Rooeel.createDepartmentRole departmentId name)
  | .updateDepartmentRole id name =>
      acknowledge (Rooeel.updateDepartmentRole id name)
  | .removeDepartmentRole id => acknowledge (Rooeel.removeDepartmentRole id)
  | .setDepartmentRolePolicy roleId resource flags =>
      acknowledge (Rooeel.setDepartmentRolePolicy roleId resource flags)
  | .removeDepartmentRolePolicy id =>
      acknowledge (Rooeel.removeDepartmentRolePolicy id)
  | .assignUserToDepartment projectId userId departmentId =>
      acknowledge (Rooeel.assignUserToDepartment projectId userId departmentId)
  | .removeUserFromDepartment projectId userId =>
      acknowledge (Rooeel.removeUserFromDepartment projectId userId)
  | .setUserDepartmentRole projectId userId departmentRoleId =>
      acknowledge (Rooeel.setUserDepartmentRole projectId userId departmentRoleId)
  | .unsetUserDepartmentRole projectId userId =>
      acknowledge (Rooeel.unsetUserDepartmentRole projectId userId)
  | .setPermission roleId resource departmentId flags =>
      acknowledge (Rooeel.setPermission roleId resource departmentId flags)
  | .removePermission id => acknowledge (Rooeel.removePermission id)
  | .createTask projectId data viewer => answering .task (Rooeel.createTask projectId data viewer)
  | .updateTask id data viewer => answering .task (Rooeel.updateTask id data viewer)
  | .removeTask id viewer => acknowledge (Rooeel.removeTask id viewer)
  | .createSubTask taskId data => acknowledge (Rooeel.createSubTask taskId data)
  | .updateSubTask id data => acknowledge (Rooeel.updateSubTask id data)
  | .removeSubTask id => acknowledge (Rooeel.removeSubTask id)
  | .removeUser id => acknowledge (Rooeel.removeUser id)
  | .removeAdmin id => acknowledge (Rooeel.removeAdmin id)

/-! ## Runs -/

/-- A step of the parts of the program that are not mutations of `ServiceOp`: it writes
accounts, tokens and change requests only. -/
def AccountStep (s s' : Store) : Prop :=
  s' = { s with
    admin := s'.admin
    user := s'.user
    passwordResetToken := s'.passwordResetToken
    refreshToken := s'.refreshToken
    userRequest := s'.userRequest }

/-- A mutation that was called, with its outcome. -/
structure Event where
  op : ServiceOp
  result : Except Exn Answer

/-- The mutations of `events`, one after the other, lead from `s₀` to `s`. -/
inductive Run (s₀ : Store) : List Event → Store → Prop
  | nil : Run s₀ [] s₀
  | call {events : List Event} {s s' : Store} {result : Except Exn Answer} (op : ServiceOp)
      (before : Run s₀ events s) (h : op.prog.run s = (result, s')) :
      Run s₀ (events ++ [⟨op, result⟩]) s'
  | account {events : List Event} {s s' : Store} (before : Run s₀ events s)
      (h : AccountStep s s') : Run s₀ events s'

end Runs

end Rooeel
