import Rooeel.Store.Referential

/-!
# Deletions

Each `erase…` deletes exactly what the referential actions say (`Store.deletes`): the rows that were
chosen, the rows from which a chain of `Cascade` relations leads to them, and the `SetNull`
references to all of these. It is taken apart into one deletion for each table, what stands behind a
row going first.

So deletions keep referential integrity. `Entity.cascade` lists the tables that a deletion may
change, and `Store.cascades` is what the library asks of deletions.
-/

namespace Rooeel

open Schema

/-! ## Tables that a deletion changes -/

namespace Entity

/-- The tables that a deletion changes: its own, those behind a `Cascade` relation, and those with
a `SetNull` column. -/
def cascade : Entity → List Entity
  | .admin => [.admin, .user, .userRequest, .project, .projectUser, .task, .subTask, .projectField,
      .projectFieldValue, .workOrderPdf, .department, .departmentRole, .departmentRolePolicy,
      .projectRole, .permission]
  | .user => [.user, .userRequest, .projectUser, .task, .subTask]
  | .passwordResetToken => [.passwordResetToken]
  | .refreshToken => [.refreshToken]
  | .userRequest => [.userRequest]
  | .project => [.project, .projectUser, .task, .subTask, .projectField, .projectFieldValue,
      .workOrderPdf, .department, .departmentRole, .departmentRolePolicy, .projectRole, .permission]
  | .workOrderPdf => [.workOrderPdf]
  | .projectField => [.projectField, .projectFieldValue]
  | .projectFieldValue => [.projectFieldValue]
  | .department => [.department, .departmentRole, .departmentRolePolicy, .permission, .projectUser,
      .task]
  | .departmentRole => [.departmentRole, .departmentRolePolicy, .projectUser]
  | .departmentRolePolicy => [.departmentRolePolicy]
  | .projectRole => [.projectRole, .permission, .projectUser]
  | .permission => [.permission]
  | .projectUser => [.projectUser]
  | .task => [.task, .subTask]
  | .subTask => [.subTask]

def Reach (e e' : Entity) : Prop := e' ∈ e.cascade

instance : DecidableRel Reach := fun e e' => inferInstanceAs (Decidable (e' ∈ e.cascade))

/-- The other tables stay as they are. The deletions that are made of many others come below. -/
theorem table_erase {e e' : Entity} (hReach : ¬ e.Reach e') (hParts : e ≠ .project ∧ e ≠ .admin)
    (p : e.Of → Bool) (s : Store) :
    Store.schema.table e' (e.model.erase p s) = Store.schema.table e' s := by
  cases e with
  | project => exact absurd rfl hParts.1
  | admin => exact absurd rfl hParts.2
  | _ => cases e' <;> first | exact absurd (by decide) hReach | rfl

end Entity

/-! ## The deletions -/

section Deletions

variable {s : Store}

theorem erases_eraseSubTasks (p : SubTask → Bool) : Erases .subTask p s (eraseSubTasks p s) :=
  erases_leaf (e := .subTask) (by decide) p

theorem erases_erasePermissions (p : Permission → Bool) :
    Erases .permission p s (erasePermissions p s) :=
  erases_leaf (e := .permission) (by decide) p

theorem erases_erasePolicies (p : DepartmentRolePolicy → Bool) :
    Erases .departmentRolePolicy p s (erasePolicies p s) :=
  erases_leaf (e := .departmentRolePolicy) (by decide) p

theorem erases_eraseFieldValues (p : ProjectFieldValue → Bool) :
    Erases .projectFieldValue p s (eraseFieldValues p s) :=
  erases_leaf (e := .projectFieldValue) (by decide) p

theorem erases_eraseWorkOrders (p : WorkOrderPdf → Bool) :
    Erases .workOrderPdf p s (eraseWorkOrders p s) :=
  erases_leaf (e := .workOrderPdf) (by decide) p

theorem erases_eraseProjectUsers (p : ProjectUser → Bool) :
    Erases .projectUser p s (eraseProjectUsers p s) :=
  erases_leaf (e := .projectUser) (by decide) p

theorem erases_eraseUserRequests (p : UserRequest → Bool) :
    Erases .userRequest p s (eraseUserRequests p s) :=
  erases_leaf (e := .userRequest) (by decide) p

/-- Subtasks go before their tasks. -/
theorem erases_eraseTasks (p : Task → Bool) : Erases .task p s (eraseTasks p s) := by
  let gone := keysOf s.task p
  have hSubTasks := erases_eraseSubTasks (s := s) fun r => gone.contains r.taskId
  have hTasks : Erases .task p (eraseSubTasks (fun r => gone.contains r.taskId) s)
      (eraseTasks p s) := by
    refine erases_put (e := .task) (fun e' => by cases e' <;> decide) fun e' => ?_
    cases e' with
    | subTask =>
        refine unowned_erase SubTask.taskId rfl fun r k hRef => ?_
        simpa [Entity.owners] using hRef
    | _ => exact unowned_other (by decide)
  exact erases_behind .task .subTask SubTask.taskId rfl hSubTasks hTasks
    (fun r => List.mem_singleton_self _) fun r => congrArg p (clear_leaf .subTask (by decide) r)

theorem erases_eraseFields (p : ProjectField → Bool) :
    Erases .projectField p s (eraseFields p s) := by
  let gone := keysOf s.projectField p
  have hValues := erases_eraseFieldValues (s := s) fun r => gone.contains r.fieldId
  have hFields : Erases .projectField p (eraseFieldValues (fun r => gone.contains r.fieldId) s)
      (eraseFields p s) := by
    refine erases_put (e := .projectField) (fun e' => by cases e' <;> decide) fun e' => ?_
    cases e' with
    | projectFieldValue =>
        refine unowned_erase ProjectFieldValue.fieldId rfl fun r k hRef => ?_
        simpa [Entity.owners, Entity.refs] using hRef
    | _ => exact unowned_other (by decide)
  exact erases_behind .projectField .projectFieldValue ProjectFieldValue.fieldId rfl hValues
    hFields (fun r => List.mem_cons_self) fun _ => rfl

/-- Policies go before their roles, and the members with the roles are cleared. -/
theorem erases_eraseDepartmentRoles (p : DepartmentRole → Bool) :
    Erases .departmentRole p s (eraseDepartmentRoles p s) := by
  let gone := keysOf s.departmentRole p
  have hPolicies := erases_erasePolicies (s := s) fun r => gone.contains r.departmentRoleId
  have hRoles : Erases .departmentRole p
      (erasePolicies (fun r => gone.contains r.departmentRoleId) s)
      (eraseDepartmentRoles p s) := by
    refine deletes_row (S := Store.schema) (e := Entity.departmentRole) (fun e' => ?_)
      (fun r k => List.not_mem_nil) rfl (fun e' => ?_) fun e' hOther => ?_
    · cases e' with
      | departmentRolePolicy =>
          refine unowned_erase DepartmentRolePolicy.departmentRoleId rfl fun r k hRef => ?_
          simpa [Entity.owners, Entity.refs] using hRef
      | _ => exact unowned_other (by decide)
    · cases e' <;> rfl
    · cases e' with
      | departmentRole => exact absurd rfl hOther
      | projectUser =>
          refine List.map_congr_left fun r _ => ?_
          simp only [Store.referential_clear, Entity.clear, reduceCtorEq, false_and, true_and,
            Entity.dropRef_false, Entity.dropRef_mem, if_true]
          rfl
      | _ => exact map_clear_other (by decide) _
  exact erases_behind .departmentRole .departmentRolePolicy DepartmentRolePolicy.departmentRoleId
    rfl hPolicies hRoles (fun r => List.mem_singleton_self _) fun _ => rfl

/-- Roles and permissions go before their departments; members and tasks are cleared. -/
theorem erases_eraseDepartments (p : Department → Bool) :
    Erases .department p s (eraseDepartments p s) := by
  let gone := keysOf s.department p
  let s₁ := eraseDepartmentRoles (fun r => gone.contains r.departmentId) s
  let s₂ := erasePermissions (fun r => r.departmentId.any fun d => gone.contains d) s₁
  have hRoles : Erases .departmentRole _ s s₁ := erases_eraseDepartmentRoles _
  have hPermissions : Erases .permission _ s₁ s₂ := erases_erasePermissions _
  have hDepartments : Erases .department p s₂ (eraseDepartments p s) := by
    refine deletes_row (S := Store.schema) (e := Entity.department) (fun e' => ?_)
      (fun r k => List.not_mem_nil) rfl (fun e' => ?_) fun e' hOther => ?_
    · cases e' with
      | departmentRole =>
          refine Deletes.apart hPermissions ?_
          refine unowned_erase DepartmentRole.departmentId rfl fun r k hRef => ?_
          simpa [Entity.owners, Entity.refs] using hRef
      | permission =>
          intro r hr k hRef hGone
          change _ ∈ Entity.owners .permission r at hRef
          have hColumn : r.departmentId = some k := by
            simpa [Entity.owners, Entity.refs, Entity.mem_optional] using hRef
          have hKept := (Table.mem_erase.mp hr).2
          rw [hColumn, Option.any_some] at hKept
          exact Bool.eq_false_iff.mp hKept (List.contains_iff_mem.mpr hGone)
      | _ => exact unowned_other (by decide)
    · cases e' <;> rfl
    · cases e' with
      | department => exact absurd rfl hOther
      | projectUser | task =>
          refine List.map_congr_left fun r _ => ?_
          simp only [Store.referential_clear, Entity.clear, reduceCtorEq, false_and, true_and,
            Entity.dropRef_false, Entity.dropRef_mem, if_true]
          rfl
      | _ => exact map_clear_other (by decide) _
  have hLast : Erases .department p s₁ (eraseDepartments p s) := by
    refine hPermissions.behind hDepartments (fun _ _ => rfl) fun r _ hq => ?_
    obtain ⟨k, hSome, hMem⟩ := (Option.any_eq_true _ _).mp hq
    refine ⟨k, List.contains_iff_mem.mp hMem, ?_⟩
    exact List.mem_cons_of_mem _ (Entity.mem_optional.mpr ⟨rfl, hSome⟩)
  exact erases_behind .department .departmentRole DepartmentRole.departmentId rfl hRoles hLast
    (fun r => List.mem_singleton_self _) fun _ => rfl

theorem erases_eraseProjectRoles (p : ProjectRole → Bool) :
    Erases .projectRole p s (eraseProjectRoles p s) := by
  let gone := keysOf s.projectRole p
  have hPermissions := erases_erasePermissions (s := s) fun r => gone.contains r.projectRoleId
  have hRoles : Erases .projectRole p
      (erasePermissions (fun r => gone.contains r.projectRoleId) s) (eraseProjectRoles p s) := by
    refine deletes_row (S := Store.schema) (e := Entity.projectRole) (fun e' => ?_)
      (fun r k => List.not_mem_nil) rfl (fun e' => ?_) fun e' hOther => ?_
    · cases e' with
      | permission =>
          refine unowned_erase Permission.projectRoleId rfl fun r k hRef => ?_
          simpa [Entity.owners, Entity.refs, Entity.mem_optional] using hRef
      | _ => exact unowned_other (by decide)
    · cases e' <;> rfl
    · cases e' with
      | projectRole => exact absurd rfl hOther
      | projectUser =>
          refine List.map_congr_left fun r _ => ?_
          simp only [Store.referential_clear, Entity.clear, reduceCtorEq, false_and, true_and,
            Entity.dropRef_false, Entity.dropRef_mem, if_true]
          rfl
      | _ => exact map_clear_other (by decide) _
  exact erases_behind .projectRole .permission Permission.projectRoleId rfl hPermissions hRoles
    (fun r => List.mem_cons_self) fun _ => rfl

/-- Everything in the projects with the keys is deleted. -/
def emptyProjects (gone : List Id) (s : Store) : Store :=
  let s := eraseProjectUsers (fun r => gone.contains r.projectId) s
  let s := eraseTasks (fun r => gone.contains r.projectId) s
  let s := eraseFields (fun r => gone.contains r.projectId) s
  let s := eraseFieldValues (fun r => gone.contains r.projectId) s
  let s := eraseWorkOrders (fun r => gone.contains r.projectId) s
  let s := eraseDepartments (fun r => gone.contains r.projectId) s
  eraseProjectRoles (fun r => gone.contains r.projectId) s

/-- The tables outside the projects. -/
theorem table_emptyProjects {e : Entity} (hOutside : e ∈ [.admin, .user, .passwordResetToken,
    .refreshToken, .userRequest, .project]) (gone : List Id) :
    Store.schema.table e (emptyProjects gone s) = Store.schema.table e s := by
  have hFrame (part : Entity) (hPart : part ∈ [.projectUser, .task, .projectField,
      .projectFieldValue, .workOrderPdf, .department, .projectRole]) (p : part.Of → Bool)
      (s : Store) : Store.schema.table e (part.model.erase p s) = Store.schema.table e s := by
    refine Entity.table_erase ?_ ?_ p s
    · revert hOutside hPart
      cases e <;> cases part <;> decide
    · revert hPart
      cases part <;> decide
  calc Store.schema.table e (emptyProjects gone s)
    _ = _ := hFrame .projectRole (by decide) _ _
    _ = _ := hFrame .department (by decide) _ _
    _ = _ := hFrame .workOrderPdf (by decide) _ _
    _ = _ := hFrame .projectFieldValue (by decide) _ _
    _ = _ := hFrame .projectField (by decide) _ _
    _ = _ := hFrame .task (by decide) _ _
    _ = _ := hFrame .projectUser (by decide) _ _

/-- One part of the projects goes before them. -/
theorem erases_part (e' : Entity) (column : e'.Of → Id) {p : Project → Bool} {gone : List Id}
    {s' : Store} (h : Erases e' (fun r => gone.contains (column r)) s
      (e'.model.erase (fun r => gone.contains (column r)) s))
    (hReach : ¬ e'.Reach .project) (hParts : e' ≠ .project ∧ e' ≠ .admin)
    (hCascade : ∀ r, (Entity.project, column r) ∈ Entity.owners e' r)
    (hGone : keysOf (Store.schema.table .project s) p = gone)
    (h' : keysOf (Store.schema.table .project
        (e'.model.erase (fun r => gone.contains (column r)) s)) p = gone →
      Erases .project p (e'.model.erase (fun r => gone.contains (column r)) s) s') :
    Erases .project p s s' := by
  refine erases_behind .project e' column hGone h (h' ?_) hCascade fun _ => rfl
  rw [Entity.table_erase hReach hParts]
  exact hGone

/-- They go before the projects, ... -/
theorem erases_emptyProjects {p : Project → Bool} {gone : List Id} {s' : Store}
    (hGone : keysOf (Store.schema.table .project s) p = gone)
    (h : Erases .project p (emptyProjects gone s) s') : Erases .project p s s' := by
  refine erases_part .projectUser ProjectUser.projectId (erases_eraseProjectUsers _) (by decide)
    (by decide) (fun r => List.mem_cons_self) hGone fun hGone => ?_
  refine erases_part .task Task.projectId (erases_eraseTasks _) (by decide)
    (by decide) (fun r => List.mem_cons_self) hGone fun hGone => ?_
  refine erases_part .projectField ProjectField.projectId (erases_eraseFields _) (by decide)
    (by decide) (fun r => List.mem_cons_self) hGone fun hGone => ?_
  refine erases_part .projectFieldValue ProjectFieldValue.projectId (erases_eraseFieldValues _)
    (by decide) (by decide) (fun r => List.mem_cons_of_mem _ List.mem_cons_self) hGone
    fun hGone => ?_
  refine erases_part .workOrderPdf WorkOrderPdf.projectId (erases_eraseWorkOrders _) (by decide)
    (by decide) (fun r => List.mem_cons_self) hGone fun hGone => ?_
  refine erases_part .department Department.projectId (erases_eraseDepartments _) (by decide)
    (by decide) (fun r => List.mem_cons_self) hGone fun hGone => ?_
  exact erases_part .projectRole ProjectRole.projectId (erases_eraseProjectRoles _) (by decide)
    (by decide) (fun r => List.mem_cons_self) hGone fun _ => h

/-- ... so that nothing stands behind them any more. -/
theorem unowned_emptyProjects (gone : List Id) (e' : Entity) :
    Unowned .project gone e' (emptyProjects gone s) := by
  let s₁ := eraseProjectUsers (fun r => gone.contains r.projectId) s
  let s₂ := eraseTasks (fun r => gone.contains r.projectId) s₁
  let s₃ := eraseFields (fun r => gone.contains r.projectId) s₂
  let s₄ := eraseFieldValues (fun r => gone.contains r.projectId) s₃
  let s₅ := eraseWorkOrders (fun r => gone.contains r.projectId) s₄
  let s₆ := eraseDepartments (fun r => gone.contains r.projectId) s₅
  let s₇ := eraseProjectRoles (fun r => gone.contains r.projectId) s₆
  have h₂ : Erases .task _ s₁ s₂ := erases_eraseTasks _
  have h₃ : Erases .projectField _ s₂ s₃ := erases_eraseFields _
  have h₄ : Erases .projectFieldValue _ s₃ s₄ := erases_eraseFieldValues _
  have h₅ : Erases .workOrderPdf _ s₄ s₅ := erases_eraseWorkOrders _
  have h₆ : Erases .department _ s₅ s₆ := erases_eraseDepartments _
  have h₇ : Erases .projectRole _ s₆ s₇ := erases_eraseProjectRoles _
  change Unowned .project gone e' s₇
  cases e' with
  | projectUser =>
      have hFirst : Unowned .project gone .projectUser s₁ := unowned_erase ProjectUser.projectId
        rfl fun r k hRef => by simpa [Entity.owners] using hRef
      exact h₇.apart (h₆.apart (h₅.apart (h₄.apart (h₃.apart (h₂.apart hFirst)))))
  | task =>
      have hFirst : Unowned .project gone .task s₂ := unowned_erase Task.projectId rfl
        fun r k hRef => by simpa [Entity.owners] using hRef
      exact h₇.apart (h₆.apart (h₅.apart (h₄.apart (h₃.apart hFirst))))
  | projectField =>
      have hFirst : Unowned .project gone .projectField s₃ := unowned_erase ProjectField.projectId
        rfl fun r k hRef => by simpa [Entity.owners, Entity.refs] using hRef
      exact h₇.apart (h₆.apart (h₅.apart (h₄.apart hFirst)))
  | projectFieldValue =>
      have hFirst : Unowned .project gone .projectFieldValue s₄ :=
        unowned_erase ProjectFieldValue.projectId rfl
          fun r k hRef => by simpa [Entity.owners, Entity.refs] using hRef
      exact h₇.apart (h₆.apart (h₅.apart hFirst))
  | workOrderPdf =>
      have hFirst : Unowned .project gone .workOrderPdf s₅ := unowned_erase WorkOrderPdf.projectId
        rfl fun r k hRef => by simpa [Entity.owners, Entity.refs] using hRef
      exact h₇.apart (h₆.apart hFirst)
  | department =>
      have hFirst : Unowned .project gone .department s₆ := unowned_erase Department.projectId rfl
        fun r k hRef => by simpa [Entity.owners, Entity.refs] using hRef
      exact h₇.apart hFirst
  | projectRole =>
      exact unowned_erase ProjectRole.projectId rfl
        fun r k hRef => by simpa [Entity.owners, Entity.refs] using hRef
  | _ => exact unowned_other (by decide)

theorem erases_eraseProjects (p : Project → Bool) : Erases .project p s (eraseProjects p s) := by
  refine erases_emptyProjects rfl ?_
  refine erases_put (e := .project) (fun e' => by cases e' <;> decide) fun e' => ?_
  rw [table_emptyProjects (by decide)]
  exact unowned_emptyProjects _ e'

theorem table_eraseProjects {e : Entity} (hOutside : e ∈ [.admin, .user, .passwordResetToken,
    .refreshToken, .userRequest]) (p : Project → Bool) :
    Store.schema.table e (eraseProjects p s) = Store.schema.table e s := by
  rw [← table_emptyProjects (s := s) (List.mem_append_left [.project] hOutside)
    (keysOf s.project p)]
  revert hOutside
  cases e <;> first | exact fun _ => rfl | exact fun h => absurd h (by decide)

theorem project_eraseProjects (p : Project → Bool) :
    Store.schema.table .project (eraseProjects p s) =
      (Store.schema.table .project s).erase p :=
  congrArg (Table.erase · p)
    (table_emptyProjects (s := s) (e := .project) (by decide) (keysOf s.project p))

/-- Requests and memberships go before their users; what was assigned to them is cleared. -/
theorem erases_eraseUsers (p : User → Bool) : Erases .user p s (eraseUsers p s) := by
  let gone := keysOf s.user p
  let s₁ := eraseUserRequests (fun r => gone.contains r.userId) s
  let s₂ := eraseProjectUsers (fun r => gone.contains r.userId) s₁
  have h₁ : Erases .userRequest _ s s₁ := erases_eraseUserRequests _
  have h₂ : Erases .projectUser _ s₁ s₂ := erases_eraseProjectUsers _
  have h₃ : Erases .user p s₂ (eraseUsers p s) := by
    refine deletes_row (S := Store.schema) (e := Entity.user) (fun e' => ?_)
      (fun r k => ?_) rfl (fun e' => ?_) fun e' hOther => ?_
    · cases e' with
      | userRequest =>
          have hFirst : Unowned .user gone .userRequest s₁ := unowned_erase UserRequest.userId rfl
            fun r k hRef => by simpa [Entity.owners, Entity.refs] using hRef
          exact h₂.apart hFirst
      | projectUser =>
          refine unowned_erase ProjectUser.userId rfl fun r k hRef => ?_
          simpa [Entity.owners] using hRef
      | _ => exact unowned_other (by decide)
    · change _ ∉ Entity.nullable .user r
      simp [Entity.nullable, Entity.mem_optional]
    · cases e' <;> rfl
    · cases e' with
      | user => exact absurd rfl hOther
      | task | subTask =>
          refine List.map_congr_left fun r _ => ?_
          simp only [Store.referential_clear, Entity.clear, reduceCtorEq, false_and, true_and,
            Entity.dropRef_false, Entity.dropRef_mem, if_true]
          rfl
      | _ => exact map_clear_other (by decide) _
  have h₁₃ : Erases .user p s₁ (eraseUsers p s) := erases_behind .user .projectUser
    ProjectUser.userId rfl h₂ h₃ (fun r => List.mem_cons_of_mem _ (List.mem_singleton_self _))
    fun r => congrArg p (clear_leaf .projectUser (by decide) r)
  exact erases_behind .user .userRequest UserRequest.userId rfl h₁ h₁₃ (fun r => List.mem_cons_self)
    fun r => congrArg p (clear_leaf .userRequest (by decide) r)

/-- What is left of a deletion of admins: the users are cleared. -/
theorem erases_admin {p : Admin → Bool} {gone : List Id} (hGone : keysOf s.admin p = gone)
    (hUnowned : ∀ e', Unowned .admin gone e' s) :
    Erases .admin p s
      { s with
        admin := s.admin.erase p
        user := s.user.modify (fun _ => true)
          (fun u => { u with createdBy := clearRef gone u.createdBy }) fun _ => rfl } := by
  have hKeys : keysIn (S := Store.schema) .admin p s = gone := hGone
  refine deletes_row (S := Store.schema) (e := Entity.admin) (fun e' => ?_)
    (fun r k => List.not_mem_nil) rfl (fun e' => ?_) fun e' hOther => ?_
  · rw [hKeys]
    exact hUnowned e'
  · cases e' <;> rfl
  · rw [hKeys]
    cases e' with
    | admin => exact absurd rfl hOther
    | user =>
        refine List.map_congr_left fun r _ => ?_
        simp only [Store.referential_clear, Entity.clear, true_and, Entity.dropRef_mem, if_true]
    | _ => exact map_clear_other (by decide) _

/-- Requests, projects and work orders go before their admins. -/
theorem erases_eraseAdmins (p : Admin → Bool) : Erases .admin p s (eraseAdmins p s) := by
  let gone := keysOf s.admin p
  let s₁ := eraseUserRequests (fun r => gone.contains r.adminId) s
  let s₂ := eraseProjects (fun r => gone.contains r.createdBy) s₁
  let s₃ := eraseWorkOrders (fun r => gone.contains r.uploadedBy) s₂
  have h₁ : Erases .userRequest _ s s₁ := erases_eraseUserRequests _
  have h₂ : Erases .project _ s₁ s₂ := erases_eraseProjects _
  have h₃ : Erases .workOrderPdf _ s₂ s₃ := erases_eraseWorkOrders _
  have hAdmin : s₂.admin = s.admin := table_eraseProjects (s := s₁) (e := .admin) (by decide)
    fun r => gone.contains r.createdBy
  have hGone : keysOf s₂.admin p = gone := congrArg (keysOf · p) hAdmin
  have hUnowned (e' : Entity) : Unowned .admin gone e' s₃ := by
    cases e' with
    | userRequest =>
        have hFirst : Unowned .admin gone .userRequest s₁ := unowned_erase UserRequest.adminId rfl
          fun r k hRef => by simpa [Entity.owners, Entity.refs] using hRef
        exact h₃.apart (h₂.apart hFirst)
    | project =>
        have hFirst : Unowned .admin gone .project s₂ := unowned_erase Project.createdBy
          (project_eraseProjects _) fun r k hRef => by
            simpa [Entity.owners, Entity.refs] using hRef
        exact h₃.apart hFirst
    | workOrderPdf =>
        refine unowned_erase WorkOrderPdf.uploadedBy rfl fun r k hRef => ?_
        simpa [Entity.owners, Entity.refs] using hRef
    | _ => exact unowned_other (by decide)
  have h₄ : Erases .admin p s₃ (eraseAdmins p s) := erases_admin hGone hUnowned
  have h₂₄ : Erases .admin p s₂ (eraseAdmins p s) := erases_behind .admin .workOrderPdf
    WorkOrderPdf.uploadedBy hGone h₃ h₄
    (fun r => List.mem_cons_of_mem _ (List.mem_singleton_self _)) fun _ => rfl
  have h₁₄ : Erases .admin p s₁ (eraseAdmins p s) := erases_behind .admin .project
    Project.createdBy rfl h₂ h₂₄ (fun r => List.mem_singleton_self _) fun _ => rfl
  exact erases_behind .admin .userRequest UserRequest.adminId rfl h₁ h₁₄
    (fun r => List.mem_cons_of_mem _ (List.mem_singleton_self _)) fun _ => rfl

theorem table_eraseAdmins {e : Entity} (hReach : ¬ Entity.Reach .admin e) (p : Admin → Bool) :
    Store.schema.table e (eraseAdmins p s) = Store.schema.table e s := by
  let gone := keysOf s.admin p
  have hProjects := table_eraseProjects
    (s := eraseUserRequests (fun r => gone.contains r.adminId) s) (e := e)
    (by revert hReach; cases e <;> decide) fun r => gone.contains r.createdBy
  revert hReach hProjects
  cases e with
  | passwordResetToken => exact fun _ hProjects => hProjects
  | refreshToken => exact fun _ hProjects => hProjects
  | _ => exact fun hReach => absurd (by decide) hReach

end Deletions

/-- **What a deletion deletes**, for every model of the schema. -/
theorem Store.deletes (e : Entity) (p : e.Of → Bool) (s : Store) :
    Erases e p s (e.model.erase p s) := by
  cases e with
  | admin => exact erases_eraseAdmins p
  | user => exact erases_eraseUsers p
  | project => exact erases_eraseProjects p
  | projectField => exact erases_eraseFields p
  | department => exact erases_eraseDepartments p
  | departmentRole => exact erases_eraseDepartmentRoles p
  | projectRole => exact erases_eraseProjectRoles p
  | task => exact erases_eraseTasks p
  | passwordResetToken => exact erases_leaf (e := .passwordResetToken) (by decide) p
  | refreshToken => exact erases_leaf (e := .refreshToken) (by decide) p
  | userRequest => exact erases_eraseUserRequests p
  | workOrderPdf => exact erases_eraseWorkOrders p
  | projectFieldValue => exact erases_eraseFieldValues p
  | departmentRolePolicy => exact erases_erasePolicies p
  | permission => exact erases_erasePermissions p
  | projectUser => exact erases_eraseProjectUsers p
  | subTask => exact erases_eraseSubTasks p

/-- **Deletions keep referential integrity**, and change no other tables than those listed. -/
theorem Store.cascades : Store.schema.Cascades Entity.Reach where
  prunes e p s := (Store.deletes e p s).prunes
  frame := by
    intro e e' hReach p s
    by_cases hAdmin : e = .admin
    · subst hAdmin
      exact table_eraseAdmins hReach p
    · by_cases hProject : e = .project
      · subst hProject
        refine table_eraseProjects ?_ p
        revert hReach
        cases e' <;> decide
      · exact Entity.table_erase hReach ⟨hProject, hAdmin⟩ p s

end Rooeel
