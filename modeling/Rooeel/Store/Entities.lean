import Rooeel.Schema
import Rooeel.Lib.Integrity

/-!
# The schema as foreign keys

`Entity` names the seventeen models, `Entity.refs` lists the foreign keys of their rows, and
`Entity.Evolves` says which columns of a row may change.
`Store.schema` puts them together with the models under `prisma`; its laws say that the lists are
the constraints that the models check, and that writing one table leaves the others alone.
`valid_iff` connects validity over the entities with `Store.Valid`.
-/

namespace Rooeel

/-- The models of the schema. -/
inductive Entity where
  | admin
  | user
  | passwordResetToken
  | refreshToken
  | userRequest
  | project
  | workOrderPdf
  | projectField
  | projectFieldValue
  | department
  | departmentRole
  | departmentRolePolicy
  | projectRole
  | permission
  | projectUser
  | task
  | subTask
  deriving DecidableEq

namespace Entity

abbrev Of : Entity → Type
  | .admin => Admin
  | .user => User
  | .passwordResetToken => PasswordResetToken
  | .refreshToken => RefreshToken
  | .userRequest => UserRequest
  | .project => Project
  | .workOrderPdf => WorkOrderPdf
  | .projectField => ProjectField
  | .projectFieldValue => ProjectFieldValue
  | .department => Department
  | .departmentRole => DepartmentRole
  | .departmentRolePolicy => DepartmentRolePolicy
  | .projectRole => ProjectRole
  | .permission => Permission
  | .projectUser => ProjectUser
  | .task => Task
  | .subTask => SubTask

instance row : ∀ e : Entity, Row e.Of
  | .admin => inferInstanceAs (Row Admin)
  | .user => inferInstanceAs (Row User)
  | .passwordResetToken => inferInstanceAs (Row PasswordResetToken)
  | .refreshToken => inferInstanceAs (Row RefreshToken)
  | .userRequest => inferInstanceAs (Row UserRequest)
  | .project => inferInstanceAs (Row Project)
  | .workOrderPdf => inferInstanceAs (Row WorkOrderPdf)
  | .projectField => inferInstanceAs (Row ProjectField)
  | .projectFieldValue => inferInstanceAs (Row ProjectFieldValue)
  | .department => inferInstanceAs (Row Department)
  | .departmentRole => inferInstanceAs (Row DepartmentRole)
  | .departmentRolePolicy => inferInstanceAs (Row DepartmentRolePolicy)
  | .projectRole => inferInstanceAs (Row ProjectRole)
  | .permission => inferInstanceAs (Row Permission)
  | .projectUser => inferInstanceAs (Row ProjectUser)
  | .task => inferInstanceAs (Row Task)
  | .subTask => inferInstanceAs (Row SubTask)

def model : ∀ e : Entity, Model Store e.Of
  | .admin => prisma.admin
  | .user => prisma.user
  | .passwordResetToken => prisma.passwordResetToken
  | .refreshToken => prisma.refreshToken
  | .userRequest => prisma.userRequest
  | .project => prisma.project
  | .workOrderPdf => prisma.workOrderPdf
  | .projectField => prisma.projectField
  | .projectFieldValue => prisma.projectFieldValue
  | .department => prisma.department
  | .departmentRole => prisma.departmentRole
  | .departmentRolePolicy => prisma.departmentRolePolicy
  | .projectRole => prisma.projectRole
  | .permission => prisma.permission
  | .projectUser => prisma.projectUser
  | .task => prisma.task
  | .subTask => prisma.subTask

/-- A nullable foreign key refers to at most one row. -/
def optional (e : Entity) (ref : Option Id) : List (Entity × Id) := ref.toList.map fun k => (e, k)

theorem mem_optional {e e' : Entity} {ref : Option Id} {k : Id} :
    (e', k) ∈ optional e ref ↔ e' = e ∧ ref = some k := by
  cases ref with
  | none => simp [optional]
  | some k' => simp [optional, eq_comm]

theorem all_optional {e : Entity} {ref : Option Id} {P : Entity × Id → Bool} :
    (optional e ref).all P = ref.all fun k => P (e, k) := by
  cases ref with
  | none => rfl
  | some k => simp [optional]

/-- The columns with a `@relation` in the schema. -/
def refs : ∀ e : Entity, e.Of → List (Entity × Id)
  | .admin, _ | .passwordResetToken, _ | .refreshToken, _ => []
  | .user, r => optional .admin r.createdBy
  | .userRequest, r => [(.user, r.userId), (.admin, r.adminId)]
  | .project, r => [(.admin, r.createdBy)]
  | .workOrderPdf, r => [(.project, r.projectId), (.admin, r.uploadedBy)]
  | .projectField, r => [(.project, r.projectId)]
  | .projectFieldValue, r => [(.projectField, r.fieldId), (.project, r.projectId)]
  | .department, r => [(.project, r.projectId)]
  | .departmentRole, r => [(.department, r.departmentId)]
  | .departmentRolePolicy, r => [(.departmentRole, r.departmentRoleId)]
  | .projectRole, r => [(.project, r.projectId)]
  | .permission, r => (.projectRole, r.projectRoleId) :: optional .department r.departmentId
  | .projectUser, r => (.project, r.projectId) :: (.user, r.userId) ::
      (optional .projectRole r.projectRoleId ++ optional .department r.departmentId ++
        optional .departmentRole r.departmentRoleId)
  | .task, r => (.project, r.projectId) ::
      (optional .department r.departmentId ++ optional .user r.assignedTo)
  | .subTask, r => (.task, r.taskId) :: optional .user r.assignedTo

/-- The references that are set when a row is created and never written again: those with the
referential action `Cascade`. -/
def owners : ∀ e : Entity, e.Of → List (Entity × Id)
  | .admin, _ | .user, _ | .passwordResetToken, _ | .refreshToken, _ => []
  | .projectUser, r => [(.project, r.projectId), (.user, r.userId)]
  | .task, r => [(.project, r.projectId)]
  | .subTask, r => [(.task, r.taskId)]
  | e, r => e.refs r

/-- What becomes of a nullable reference that no operation sets again. -/
def StaysOrClears (ref ref' : Option Id) : Prop := ref' = ref ∨ ref' = none

/-- What may become of a row. The columns that are compared are written when the row is created and
never again, unless the creator of a user or the department of a task is deleted: then the reference
is cleared for good. The department of a member is not among them, since members are moved. A token
that is used or revoked, and a request that is decided, stay so. -/
def Evolves : ∀ e : Entity, e.Of → e.Of → Prop
  | .admin, _, _ => True
  | .user, r, r' => StaysOrClears r.createdBy r'.createdBy
  | .passwordResetToken, r, r' =>
      (r'.email, r'.token, r'.expiresAt) = (r.email, r.token, r.expiresAt) ∧
        (r.usedAt.isSome = true → r'.usedAt.isSome = true)
  | .refreshToken, r, r' =>
      (r'.token, r'.userId, r'.userType, r'.expiresAt) =
          (r.token, r.userId, r.userType, r.expiresAt) ∧
        (r.revokedAt.isSome = true → r'.revokedAt.isSome = true)
  | .userRequest, r, r' =>
      (r'.userId, r'.adminId, r'.requestType, r'.currentValue, r'.requestedValue) =
          (r.userId, r.adminId, r.requestType, r.currentValue, r.requestedValue) ∧
        (r.status ≠ "pending" → r'.status ≠ "pending")
  | .project, r, r' => (r'.status, r'.createdBy) = (r.status, r.createdBy)
  | .workOrderPdf, r, r' => r' = r
  | .projectField, r, r' => r' = r
  | .projectFieldValue, r, r' => (r'.fieldId, r'.projectId) = (r.fieldId, r.projectId)
  | .department, r, r' => r'.projectId = r.projectId
  | .departmentRole, r, r' => r'.departmentId = r.departmentId
  | .departmentRolePolicy, r, r' =>
      (r'.departmentRoleId, r'.resource) = (r.departmentRoleId, r.resource)
  | .projectRole, r, r' => r'.projectId = r.projectId
  | .permission, r, r' => (r'.projectRoleId, r'.departmentId, r'.resource) =
      (r.projectRoleId, r.departmentId, r.resource)
  | .projectUser, r, r' => (r'.projectId, r'.userId) = (r.projectId, r.userId)
  | .task, r, r' => (r'.projectId, r'.type, r'.formSchema) = (r.projectId, r.type, r.formSchema) ∧
      StaysOrClears r.departmentId r'.departmentId
  | .subTask, r, r' => (r'.taskId, r'.type, r'.formSchema) = (r.taskId, r.type, r.formSchema)

theorem StaysOrClears.refl (ref : Option Id) : StaysOrClears ref ref := Or.inl rfl

theorem StaysOrClears.trans {a b c : Option Id} (h : StaysOrClears a b) (h' : StaysOrClears b c) :
    StaysOrClears a c := by
  rcases h' with rfl | rfl
  · exact h
  · exact Or.inr rfl

theorem evolves_refl (e : Entity) (r : e.Of) : Evolves e r r := by
  cases e with
  | admin => trivial
  | user => exact .refl _
  | passwordResetToken | refreshToken | userRequest => exact ⟨rfl, id⟩
  | task => exact ⟨rfl, .refl _⟩
  | _ => exact rfl

theorem evolves_trans (e : Entity) (a b c : e.Of) (h : Evolves e a b) (h' : Evolves e b c) :
    Evolves e a c := by
  cases e with
  | admin => trivial
  | user => exact StaysOrClears.trans h h'
  | passwordResetToken | refreshToken | userRequest => exact ⟨h'.1.trans h.1, h'.2 ∘ h.2⟩
  | task => exact ⟨h'.1.trans h.1, h.2.trans h'.2⟩
  | _ => exact Eq.trans h' h

/-- Owners are among the columns that stay. -/
theorem evolves_owners (e : Entity) (a b : e.Of) (h : Evolves e a b) : e.owners a = e.owners b := by
  cases e with
  | admin | user | passwordResetToken | refreshToken => rfl
  | workOrderPdf | projectField => exact congrArg _ (Eq.symm h)
  | userRequest | task =>
      have hColumns := h.1
      simp only [Prod.mk.injEq] at hColumns
      simp only [owners, refs, hColumns]
  | _ =>
      simp only [Evolves, Prod.mk.injEq] at h
      simp only [owners, refs, h]

/-- The lists are what the models check. -/
theorem references_eq (e : Entity) (s : Store) (r : e.Of) :
    e.model.references s r = (e.refs r).all fun ref => (ref.1.model.table s).has ref.2 := by
  cases e <;>
    simp [refs, model, prisma.admin, prisma.user, prisma.passwordResetToken, prisma.refreshToken,
      prisma.userRequest, prisma.project, prisma.workOrderPdf, prisma.projectField,
      prisma.projectFieldValue, prisma.department, prisma.departmentRole,
      prisma.departmentRolePolicy, prisma.projectRole, prisma.permission, prisma.projectUser,
      prisma.task, prisma.subTask, refOk, all_optional, List.all_append, Bool.and_assoc]

theorem conflicts_comm (e : Entity) (a b : e.Of) :
    e.model.conflicts a b = e.model.conflicts b a := by
  have hPair {α β : Type} [DecidableEq α] [DecidableEq β] (x x' : α) (y y' : β) :
      (x == x' && y == y') = (x' == x && y' == y) := by
    rw [BEq.comm, BEq.comm (a := y)]
  cases e with
  | admin | user | passwordResetToken | refreshToken | projectFieldValue => exact BEq.comm
  | departmentRole | departmentRolePolicy | projectRole | projectUser => exact hPair _ _ _ _
  | permission =>
      change (_ && Option.isSome _ && _ && _) = (_ && Option.isSome _ && _ && _)
      rw [Bool.eq_iff_iff]
      simp only [Bool.and_eq_true, beq_iff_eq]
      grind
  | userRequest | project | workOrderPdf | projectField | department | task | subTask => rfl

theorem table_put_of_ne {e e' : Entity} (h : e' ≠ e) (t : Table e.Of) (s : Store) :
    e'.model.table (e.model.put t s) = e'.model.table s := by
  cases e <;> cases e' <;> first | rfl | exact absurd rfl h

end Entity

def Store.schema : Schema Store Entity where
  Of := Entity.Of
  model := Entity.model
  refs := Entity.refs
  owners := Entity.owners
  evolves := Entity.Evolves
  references_eq := Entity.references_eq
  evolves_refl := Entity.evolves_refl
  evolves_trans := Entity.evolves_trans
  evolves_owners := Entity.evolves_owners
  conflicts_comm := Entity.conflicts_comm
  table_put_of_ne := Entity.table_put_of_ne

/-- The constraints of the schema, entity by entity. -/
theorem valid_iff {s : Store} : Store.schema.Valid s ↔ s.Valid := by
  constructor
  · intro h
    exact ⟨h .admin, h .user, h .passwordResetToken, h .refreshToken, h .userRequest, h .project,
      h .workOrderPdf, h .projectField, h .projectFieldValue, h .department, h .departmentRole,
      h .departmentRolePolicy, h .projectRole, h .permission, h .projectUser, h .task, h .subTask⟩
  · intro h e
    cases e with
    | admin => exact h.admin
    | user => exact h.user
    | passwordResetToken => exact h.passwordResetToken
    | refreshToken => exact h.refreshToken
    | userRequest => exact h.userRequest
    | project => exact h.project
    | workOrderPdf => exact h.workOrderPdf
    | projectField => exact h.projectField
    | projectFieldValue => exact h.projectFieldValue
    | department => exact h.department
    | departmentRole => exact h.departmentRole
    | departmentRolePolicy => exact h.departmentRolePolicy
    | projectRole => exact h.projectRole
    | permission => exact h.permission
    | projectUser => exact h.projectUser
    | task => exact h.task
    | subTask => exact h.subTask

end Rooeel
