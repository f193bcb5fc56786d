import Rooeel.Store.Cascades
import Rooeel.Project.ServiceOp

/-!
# What the mutations write

`ServiceOp.writes` lists the tables that a mutation may write or delete from, and
`ServiceOp.confined` says that every step of it is a statement within the list, whatever other
calls do in between. The tables that it does not reach stay as they are (`Schema.Statement.frame`),
and referential integrity is kept (`Schema.Statement.valid`).
-/

namespace Rooeel

open JavaScript Prog Schema

/-- Every step of the program is a statement with the footprint. -/
def Confined {α : Type} (writes : List (Write Entity)) (p : Service α) : Prop :=
  Guarantees (fun _ _ => True) (Store.schema.Statement (· ∈ writes)) p

/-! ## Rules -/

section Rules

variable {writes : List (Write Entity)} {α β : Type} {e : Entity}

theorem confined_pure (a : α) : Confined writes (pure a : Service α) := guarantees_pure a

theorem confined_throw (e : Exn) : Confined writes (throw e : Service α) := guarantees_throw e

theorem confined_bind {p : Service α} {f : α → Service β} (hp : Confined writes p)
    (hf : ∀ a, Confined writes (f a)) : Confined writes (p >>= f) :=
  guarantees_bind hp hf

theorem confined_throwIf (c : Prop) [Decidable c] (e : Exn) :
    Confined writes (Prog.throwIf c e : Service Unit) :=
  guarantees_throwIf c e

theorem confined_orTypeError (value : Option α) : Confined writes (orTypeError value) :=
  guarantees_orTypeError value

theorem confined_tryCatch {p : Service α} {h : Exn → Service α} (hp : Confined writes p)
    (hh : ∀ e, Confined writes (h e)) : Confined writes (tryCatch p h) :=
  guarantees_tryCatch hp hh

theorem confined_read (f : Store → Except Exn α) : Confined writes (Prog.read f) :=
  guarantees_read (fun _ => .same) f

theorem confined_execute {f : Store → Except DbError (α × Store)}
    (h : ∀ s a s', f s = .ok (a, s') → Store.schema.Statement (· ∈ writes) s s') :
    Confined writes (execute f) :=
  guarantees_atomic (fun _ => .same) fun s a s' hf => h s a s' (execute_ok hf)

theorem confined_create (h : .put e ∈ writes) {mk : Id → e.Of} {hmk : ∀ k, Row.key (mk k) = k} :
    Confined writes (create e.model mk hmk) :=
  confined_execute fun _ _ _ hOk => .create h hOk

theorem confined_update (h : .put e ∈ writes) {sel : e.Of → Bool} {f : e.Of → e.Of}
    {hf : ∀ r, Row.key (f r) = Row.key r} (hEvolves : ∀ r, e.Evolves r (f r)) :
    Confined writes (update e.model sel f hf) :=
  confined_execute fun _ _ _ hOk => .update h hEvolves hOk

theorem confined_upsert (h : .put e ∈ writes) {sel : e.Of → Bool} {f : e.Of → e.Of}
    {mk : Id → e.Of} {hf : ∀ r, Row.key (f r) = Row.key r} {hmk : ∀ k, Row.key (mk k) = k}
    (hEvolves : ∀ r, e.Evolves r (f r)) :
    Confined writes (upsert e.model sel f mk hf hmk) :=
  confined_execute fun _ _ _ hOk => .upsert h hEvolves hOk

theorem confined_delete (h : .erase e ∈ writes) {sel : e.Of → Bool} :
    Confined writes (delete e.model sel) := by
  refine confined_execute fun s _ s' hOk => ?_
  obtain ⟨-, -, rfl⟩ := Model.delete_ok hOk
  exact .delete h _

/-- A deletion after a check that the row exists. -/
theorem confined_removeById (h : .erase e ∈ writes) {id : Id} {sel : e.Of → Bool} :
    Confined writes (do
      let _row ← findUniqueOrThrow e.model id
      let _deleted ← delete e.model sel
      pure true : Service Bool) :=
  confined_bind (confined_read _) fun _ =>
    confined_bind (confined_delete h) fun _ => confined_pure _

/-- A statement on the storage bucket. -/
theorem confined_objects (h : .outside ∈ writes) (f : Store → List String) :
    Confined writes (execute fun s => .ok ((), { s with objects := f s })) := by
  refine confined_execute fun s _ s' hOk => ?_
  cases hOk
  exact .outside h fun e => by cases e <;> rfl

theorem confined_answering {f : α → Answer} {p : Service α} (h : Confined writes p) :
    Confined writes (answering f p) :=
  confined_bind h fun _ => confined_pure _

end Rules

/-! ## The reads that mutations share -/

section Reads

variable [Runtime] {writes : List (Write Entity)}

omit [Runtime] in
theorem confined_ite_pure {α : Type} (c : Bool) {p : Service α} (hp : Confined writes p) (d : α) :
    Confined writes (if c then p else pure d : Service α) := by
  cases c
  · exact confined_pure d
  · exact hp

theorem confined_getAccessMap (projectUser : Membership) :
    Confined writes (getAccessMapForProjectUser projectUser) := by
  unfold getAccessMapForProjectUser
  refine confined_bind (confined_ite_pure _ (confined_read _) _) fun _ => ?_
  refine confined_bind (confined_ite_pure _ (confined_read _) _) fun _ => ?_
  exact confined_bind (confined_ite_pure _ (confined_read _) _) fun _ => confined_pure _

theorem confined_getProjectUserContext (projectId userId : Id) :
    Confined writes (getProjectUserContext projectId userId) := by
  unfold getProjectUserContext
  refine confined_bind (confined_read _) fun found => ?_
  cases found with
  | none => exact confined_pure _
  | some projectUser => exact confined_bind (confined_getAccessMap _) fun _ => confined_pure _

theorem confined_findOne (id : Id) : Confined writes (findOne id) := by
  refine confined_bind (confined_read _) fun found => ?_
  cases found with
  | none => exact confined_throw _
  | some view => exact confined_pure _

omit [Runtime] in
theorem confined_requireName (name : String) : Confined writes (requireName name) :=
  confined_bind (confined_throwIf _ _) fun _ => confined_pure _

/-- The membership that the checks on tasks begin with. -/
theorem confined_member {β : Type} {projectId userId : Id} {e : Exn}
    {k : ProjectUserContext → Service β} (h : ∀ context, Confined writes (k context)) :
    Confined writes (getProjectUserContext projectId userId >>= fun context =>
      match context with
      | none => throw e
      | some context => k context) := by
  refine confined_bind (confined_getProjectUserContext _ _) fun context => ?_
  cases context with
  | none => exact confined_throw _
  | some c => exact h c

theorem confined_authorizeCreateTask (projectId : Id) (data : CreateTaskInput)
    (viewer : Option Viewer) : Confined writes (authorizeCreateTask projectId data viewer) := by
  unfold authorizeCreateTask
  cases nonAdmin viewer with
  | none => exact confined_pure _
  | some v =>
      refine confined_member fun c => confined_bind (confined_orTypeError _) fun _ => ?_
      exact confined_bind (confined_throwIf _ _) fun _ => confined_pure _

theorem confined_authorizeUpdateTask (existingTask : Task) (data : UpdateTaskInput)
    (viewer : Option Viewer) : Confined writes (authorizeUpdateTask existingTask data viewer) := by
  unfold authorizeUpdateTask
  cases nonAdmin viewer with
  | none => exact confined_pure _
  | some v =>
      refine confined_member fun c => confined_bind (confined_orTypeError _) fun _ => ?_
      refine confined_bind (confined_orTypeError _) fun _ => ?_
      refine confined_bind (confined_throwIf _ _) fun _ => ?_
      exact confined_bind (confined_throwIf _ _) fun _ => confined_throwIf _ _

theorem confined_authorizeRemoveTask (existingTask : Task) (viewer : Option Viewer) :
    Confined writes (authorizeRemoveTask existingTask viewer) := by
  unfold authorizeRemoveTask
  cases nonAdmin viewer with
  | none => exact confined_pure _
  | some v =>
      refine confined_member fun c => confined_bind (confined_orTypeError _) fun _ => ?_
      exact confined_throwIf _ _

end Reads

/-! ## All mutations -/

/-- The tables in which a mutation writes or deletes rows. -/
def ServiceOp.writes : ServiceOp → List (Write Entity)
  | .createProject .. | .updateProject .. => [.put .project]
  | .removeProject .. => [.erase .project]
  | .createField .. => [.put .projectField]
  | .deleteField .. => [.erase .projectField]
  | .setFieldValue .. => [.put .projectFieldValue]
  | .assignUser .. => [.put .projectUser]
  | .unassignUser .. => [.erase .projectUser]
  | .uploadWorkOrder .. => [.outside, .put .workOrderPdf]
  | .deleteWorkOrder .. => [.outside, .erase .workOrderPdf]
  | .createRole .. | .updateRole .. => [.put .projectRole]
  | .removeRole .. => [.erase .projectRole]
  | .setUserRole .. | .unsetUserRole .. => [.put .projectUser]
  | .createDepartment .. | .updateDepartment .. => [.put .department]
  | .removeDepartment .. => [.erase .department]
  | .createDepartmentRole .. | .updateDepartmentRole .. => [.put .departmentRole]
  | .removeDepartmentRole .. => [.erase .departmentRole]
  | .setDepartmentRolePolicy .. => [.put .departmentRolePolicy]
  | .removeDepartmentRolePolicy .. => [.erase .departmentRolePolicy]
  | .assignUserToDepartment .. | .removeUserFromDepartment .. | .setUserDepartmentRole ..
  | .unsetUserDepartmentRole .. => [.put .projectUser]
  | .setPermission .. => [.put .permission]
  | .removePermission .. => [.erase .permission]
  | .createTask .. | .updateTask .. => [.put .task]
  | .removeTask .. => [.erase .task]
  | .createSubTask .. | .updateSubTask .. => [.put .subTask]
  | .removeSubTask .. => [.erase .subTask]
  | .removeUser .. => [.erase .user]
  | .removeAdmin .. => [.erase .admin]

section Operations

-- the rules are applied to the operations; what they are about is not computed
attribute [local irreducible] Confined

variable [Runtime]

omit [Runtime] in
/-- An update or a creation of a task that includes its subtasks in the answer. -/
theorem confined_includeSubtasks {writes : List (Write Entity)}
    {statement : Store → Except DbError (Task × Store)}
    (h : ∀ s t s', statement s = .ok (t, s') → Store.schema.Statement (· ∈ writes) s s') :
    Confined writes (includeSubtasks statement) :=
  confined_execute fun s row s' hRow => h s row.task s' (includeSubtasks_ok hRow)

theorem confined_setPermission (roleId : Id) (resource : String) (departmentId : Option Id)
    (flags : Flags) :
    Confined [.put .permission] (setPermission roleId resource departmentId flags) := by
  refine confined_bind (confined_throwIf _ _) fun _ => ?_
  cases departmentId with
  | none =>
      refine confined_bind (confined_read _) fun existing => ?_
      cases existing with
      | none => exact confined_create (e := .permission) (by simp)
      | some permission => exact confined_update (e := .permission) (by simp) fun _ => rfl
  | some department => exact confined_upsert (e := .permission) (by simp) fun _ => rfl

theorem confined_createTask (projectId : Id) (data : CreateTaskInput) (viewer : Option Viewer) :
    Confined [.put .task] (createTask projectId data viewer) := by
  refine confined_bind (confined_authorizeCreateTask projectId data viewer) fun _ => ?_
  refine confined_bind (confined_throwIf _ _) fun _ => ?_
  refine confined_bind (confined_includeSubtasks fun s t s' hOk => ?_) fun _ => confined_pure _
  exact .create (e := Entity.task) (by simp) hOk

theorem confined_updateTask (id : Id) (data : UpdateTaskInput) (viewer : Option Viewer) :
    Confined [.put .task] (updateTask id data viewer) := by
  refine confined_bind (confined_read _) fun existingTask =>
    confined_bind (confined_authorizeUpdateTask existingTask data viewer) fun _ => ?_
  refine confined_bind (confined_throwIf _ _) fun _ => ?_
  refine confined_bind (confined_includeSubtasks fun s t s' hOk => ?_) fun _ => confined_pure _
  refine .update (e := Entity.task) (by simp) ?_ hOk
  exact fun _ => ⟨rfl, .refl _⟩

theorem confined_removeTask (id : Id) (viewer : Option Viewer) :
    Confined [.erase .task] (removeTask id viewer) :=
  confined_bind (confined_read _) fun existingTask =>
    confined_bind (confined_authorizeRemoveTask existingTask viewer) fun _ =>
      confined_bind (confined_delete (e := .task) (by simp)) fun _ => confined_pure _

/-- **Every mutation keeps to its footprint.** -/
theorem ServiceOp.confined (op : ServiceOp) : Confined op.writes op.prog := by
  cases op with
  | createProject => exact confined_answering (confined_create (e := .project) (by simp [writes]))
  | updateProject =>
      exact confined_answering (confined_bind (confined_findOne _) fun _ =>
        confined_bind (confined_throwIf _ _) fun _ =>
          confined_update (e := .project) (by simp [writes]) fun _ => rfl)
  | removeProject =>
      exact confined_answering (confined_bind (confined_findOne _) fun _ =>
        confined_delete (e := .project) (by simp [writes]))
  | createField =>
      exact confined_answering (confined_bind (confined_throwIf _ _) fun _ =>
        confined_create (e := .projectField) (by simp [writes]))
  | deleteField =>
      exact confined_answering (confined_removeById (e := .projectField) (by simp [writes]))
  | setFieldValue =>
      exact confined_answering (confined_upsert (e := .projectFieldValue) (by simp [writes])
        fun _ => rfl)
  | assignUser =>
      refine confined_answering (confined_bind (confined_findOne _) fun _ => ?_)
      exact confined_bind (confined_read _) fun _ => confined_bind (confined_throwIf _ _) fun _ =>
        confined_create (e := .projectUser) (by simp [writes])
  | unassignUser =>
      exact confined_answering (confined_bind (confined_delete (e := .projectUser)
        (by simp [writes])) fun _ => confined_pure _)
  | uploadWorkOrder =>
      refine confined_answering (confined_bind (confined_findOne _) fun _ => ?_)
      exact confined_bind (confined_objects (by simp [writes]) _) fun _ =>
        confined_create (e := .workOrderPdf) (by simp [writes])
  | deleteWorkOrder =>
      refine confined_answering (confined_bind (confined_read _) fun wo => ?_)
      exact confined_bind (confined_objects (by simp [writes]) _) fun _ =>
        confined_bind (confined_delete (e := .workOrderPdf) (by simp [writes])) fun _ =>
          confined_pure _
  | createRole =>
      refine confined_answering (confined_bind (confined_findOne _) fun _ => ?_)
      refine confined_bind (confined_requireName _) fun _ => ?_
      refine confined_bind (confined_read _) fun _ => ?_
      exact confined_bind (confined_throwIf _ _) fun _ =>
        confined_create (e := .projectRole) (by simp [writes])
  | updateRole =>
      refine confined_answering (confined_bind (confined_read _) fun _ => ?_)
      refine confined_bind (confined_requireName _) fun _ => ?_
      refine confined_bind (confined_read _) fun _ => ?_
      exact confined_bind (confined_throwIf _ _) fun _ =>
        confined_update (e := .projectRole) (by simp [writes]) fun _ => rfl
  | removeRole =>
      exact confined_answering (confined_removeById (e := .projectRole) (by simp [writes]))
  | setUserRole | unsetUserRole | removeUserFromDepartment | unsetUserDepartmentRole =>
      exact confined_answering (confined_update (e := .projectUser) (by simp [writes]) fun _ => rfl)
  | createDepartment =>
      exact confined_answering (confined_bind (confined_findOne _) fun _ =>
        confined_create (e := .department) (by simp [writes]))
  | updateDepartment =>
      exact confined_answering (confined_bind (confined_read _) fun _ =>
        confined_update (e := .department) (by simp [writes]) fun _ => rfl)
  | removeDepartment =>
      exact confined_answering (confined_removeById (e := .department) (by simp [writes]))
  | createDepartmentRole =>
      refine confined_answering (confined_bind (confined_read _) fun _ => ?_)
      exact confined_bind (confined_requireName _) fun _ =>
        confined_create (e := .departmentRole) (by simp [writes])
  | updateDepartmentRole =>
      refine confined_answering (confined_bind (confined_read _) fun _ => ?_)
      refine confined_bind (confined_requireName _) fun _ => ?_
      refine confined_bind (confined_read _) fun _ => ?_
      exact confined_bind (confined_throwIf _ _) fun _ =>
        confined_update (e := .departmentRole) (by simp [writes]) fun _ => rfl
  | removeDepartmentRole =>
      exact confined_answering (confined_removeById (e := .departmentRole) (by simp [writes]))
  | setDepartmentRolePolicy =>
      refine confined_answering (confined_bind (confined_read _) fun _ => ?_)
      refine confined_bind (confined_throwIf _ _) fun _ => ?_
      exact confined_bind (confined_throwIf _ _) fun _ =>
        confined_upsert (e := .departmentRolePolicy) (by simp [writes]) fun _ => rfl
  | removeDepartmentRolePolicy =>
      exact confined_answering (confined_removeById (e := .departmentRolePolicy) (by simp [writes]))
  | assignUserToDepartment =>
      refine confined_answering (confined_bind (confined_read _) fun _ => ?_)
      exact confined_bind (confined_throwIf _ _) fun _ =>
        confined_update (e := .projectUser) (by simp [writes]) fun _ => rfl
  | setUserDepartmentRole =>
      refine confined_answering (confined_bind (confined_read _) fun _ => ?_)
      refine confined_bind (confined_read _) fun _ => ?_
      refine confined_bind (confined_throwIf _ _) fun _ => ?_
      exact confined_update (e := .projectUser) (by simp [writes]) fun _ => rfl
  | setPermission => exact confined_answering (confined_setPermission _ _ _ _)
  | removePermission =>
      exact confined_answering (confined_removeById (e := .permission) (by simp [writes]))
  | createTask => exact confined_answering (confined_createTask _ _ _)
  | updateTask => exact confined_answering (confined_updateTask _ _ _)
  | removeTask => exact confined_answering (confined_removeTask _ _)
  | createSubTask =>
      exact confined_answering (confined_bind (confined_throwIf _ _) fun _ =>
        confined_create (e := .subTask) (by simp [writes]))
  | updateSubTask =>
      refine confined_answering (confined_bind (confined_read _) fun _ => ?_)
      exact confined_bind (confined_throwIf _ _) fun _ =>
        confined_update (e := .subTask) (by simp [writes]) fun _ => rfl
  | removeSubTask =>
      exact confined_answering (confined_removeById (e := .subTask) (by simp [writes]))
  | removeUser =>
      exact confined_answering (confined_bind (confined_read _) fun _ =>
        confined_bind (confined_throwIf _ _) fun _ =>
          confined_delete (e := .user) (by simp [writes]))
  | removeAdmin =>
      exact confined_answering (confined_bind (confined_read _) fun _ =>
        confined_bind (confined_throwIf _ _) fun _ =>
          confined_bind (confined_delete (e := .admin) (by simp [writes])) fun _ =>
            confined_pure _)

end Operations

end Rooeel
