import Rooeel.Project.Membership
import Rooeel.Task.Authorization

/-!
# Links within one project

A member's role, the department of a permission, the department of a task and the project of
a field value should stay within one project. The foreign keys do not say so. All changes
but four kinds keep it (`Inherits`); these four are made by `setUserRole`, `setPermission`,
`createTask` and `setFieldValue`, which do not compare the projects. `LinksWithin` is what
their arguments must satisfy.
-/

namespace Rooeel

open JavaScript Prog Table

/-- Every link stays within one project. That its target exists is what the foreign keys say. -/
structure Isolated (s : Store) : Prop where
  role : ∀ u ∈ s.projectUser.rows, ∀ role ∈ s.projectRole.rows,
    u.projectRoleId = some role.id → role.projectId = u.projectId
  permission : ∀ p ∈ s.permission.rows, ∀ role ∈ s.projectRole.rows, ∀ d ∈ s.department.rows,
    p.projectRoleId = role.id → p.departmentId = some d.id → d.projectId = role.projectId
  task : ∀ t ∈ s.task.rows, ∀ d ∈ s.department.rows,
    t.departmentId = some d.id → d.projectId = t.projectId
  value : ∀ v ∈ s.projectFieldValue.rows, ∀ field ∈ s.projectField.rows,
    v.fieldId = field.id → field.projectId = v.projectId

/-- `Isolated`, and no link is to a key that has not been given out. -/
structure IsolationInv (s : Store) : Prop where
  isolated : Isolated s
  roleOld : ∀ u ∈ s.projectUser.rows, ∀ k, u.projectRoleId = some k → k < s.projectRole.next
  permissionRoleOld : ∀ p ∈ s.permission.rows, p.projectRoleId < s.projectRole.next
  permissionDepartmentOld : ∀ p ∈ s.permission.rows, ∀ k, p.departmentId = some k →
    k < s.department.next
  taskOld : ∀ t ∈ s.task.rows, ∀ k, t.departmentId = some k → k < s.department.next
  valueOld : ∀ v ∈ s.projectFieldValue.rows, v.fieldId < s.projectField.next

/-! ## Changes that add no link -/

/-- Every link of `s'` was there in `s`. -/
structure Inherits (s s' : Store) : Prop where
  stable : Stable s s'
  role : ∀ u' ∈ s'.projectUser.rows, ∀ k, u'.projectRoleId = some k →
    ∃ u ∈ s.projectUser.rows, u.projectRoleId = some k ∧ u.projectId = u'.projectId
  permission : ∀ p' ∈ s'.permission.rows, ∃ p ∈ s.permission.rows,
    p.projectRoleId = p'.projectRoleId ∧ p.departmentId = p'.departmentId
  task : ∀ t' ∈ s'.task.rows, ∀ k, t'.departmentId = some k →
    ∃ t ∈ s.task.rows, t.departmentId = some k ∧ t.projectId = t'.projectId
  value : ∀ v' ∈ s'.projectFieldValue.rows, ∃ v ∈ s.projectFieldValue.rows,
    v.fieldId = v'.fieldId ∧ v.projectId = v'.projectId

namespace Inherits

variable {s s' s'' : Store}

theorem refl (s : Store) : Inherits s s where
  stable := Stable.refl s
  role := fun u hu _ hk => ⟨u, hu, hk, rfl⟩
  permission := fun p hp => ⟨p, hp, rfl, rfl⟩
  task := fun t ht _ hk => ⟨t, ht, hk, rfl⟩
  value := fun v hv => ⟨v, hv, rfl, rfl⟩

theorem trans (h : Inherits s s') (h' : Inherits s' s'') : Inherits s s'' where
  stable := h.stable.trans h'.stable
  role := by
    intro u'' hu'' k hk
    obtain ⟨u', hu', hk', hProject'⟩ := h'.role u'' hu'' k hk
    obtain ⟨u, hu, hk, hProject⟩ := h.role u' hu' k hk'
    exact ⟨u, hu, hk, hProject.trans hProject'⟩
  permission := by
    intro p'' hp''
    obtain ⟨p', hp', hRole', hDepartment'⟩ := h'.permission p'' hp''
    obtain ⟨p, hp, hRole, hDepartment⟩ := h.permission p' hp'
    exact ⟨p, hp, hRole.trans hRole', hDepartment.trans hDepartment'⟩
  task := by
    intro t'' ht'' k hk
    obtain ⟨t', ht', hk', hProject'⟩ := h'.task t'' ht'' k hk
    obtain ⟨t, ht, hk, hProject⟩ := h.task t' ht' k hk'
    exact ⟨t, ht, hk, hProject.trans hProject'⟩
  value := by
    intro v'' hv''
    obtain ⟨v', hv', hField', hProject'⟩ := h'.value v'' hv''
    obtain ⟨v, hv, hField, hProject⟩ := h.value v' hv'
    exact ⟨v, hv, hField.trans hField', hProject.trans hProject'⟩

/-- A change of other tables. -/
theorem of_same (hStable : Stable s s') (hUser : s'.projectUser = s.projectUser)
    (hPermission : s'.permission = s.permission) (hTask : s'.task = s.task)
    (hValue : s'.projectFieldValue = s.projectFieldValue) : Inherits s s' where
  stable := hStable
  role := by rw [hUser]; exact (refl s).role
  permission := by rw [hPermission]; exact (refl s).permission
  task := by rw [hTask]; exact (refl s).task
  value := by rw [hValue]; exact (refl s).value

/-- The roles of members after a change in which none gets another role. -/
theorem role_modify {p : ProjectUser → Bool} {f : ProjectUser → ProjectUser}
    (h : ∀ r ∈ s.projectUser.rows, p r = true → (f r).projectId = r.projectId ∧
      ∀ k, (f r).projectRoleId = some k → r.projectRoleId = some k)
    (hf : ∀ r, Row.key (f r) = Row.key r := by intro; rfl) :
    ∀ u' ∈ (s.projectUser.modify p f hf).rows, ∀ k, u'.projectRoleId = some k →
      ∃ u ∈ s.projectUser.rows, u.projectRoleId = some k ∧ u.projectId = u'.projectId := by
  refine Table.forall_modify p f hf (refl s).role fun r hr hp k hk => ?_
  obtain ⟨hProject, hRole⟩ := h r hr hp
  exact ⟨r, hr, hRole k hk, hProject.symm⟩

/-- The departments of tasks after a change in which none gets another department. -/
theorem task_modify {p : Task → Bool} {f : Task → Task}
    (h : ∀ r ∈ s.task.rows, p r = true → (f r).projectId = r.projectId ∧
      ∀ k, (f r).departmentId = some k → r.departmentId = some k)
    (hf : ∀ r, Row.key (f r) = Row.key r := by intro; rfl) :
    ∀ t' ∈ (s.task.modify p f hf).rows, ∀ k, t'.departmentId = some k →
      ∃ t ∈ s.task.rows, t.departmentId = some k ∧ t.projectId = t'.projectId := by
  refine Table.forall_modify p f hf (refl s).task fun r hr hp k hk => ?_
  obtain ⟨hProject, hDepartment⟩ := h r hr hp
  exact ⟨r, hr, hDepartment k hk, hProject.symm⟩

end Inherits

/-- A change that makes none of the four links adds no link. -/
theorem Change.inherits {links : Link → Prop} {s s' : Store} (h : Change links s s')
    (hNone : ∀ link, ¬ links link) : Inherits s s' := by
  have hStable := h.stable
  have hSelf := Inherits.refl s
  cases h with
  | plain hSame =>
      exact .of_same hStable hSame.projectUser hSame.permission hSame.task hSame.projectFieldValue
  | insertMember mk hmk hNew =>
      refine { hSelf with stable := hStable, role := forall_insert mk hmk hSelf.role ?_ }
      intro k hk
      rw [(hNew _).1] at hk
      cases hk
  | setValue p f hf hLink =>
      refine { hSelf with stable := hStable, value := forall_modify p f hf hSelf.value ?_ }
      exact fun r hr _ => ⟨r, hr, (hLink r).1.symm, (hLink r).2.symm⟩
  | setFlags p f hf hLink =>
      refine { hSelf with
        stable := hStable
        permission := forall_modify p f hf hSelf.permission ?_ }
      exact fun r hr _ => ⟨r, hr, (hLink r).1.symm, (hLink r).2.symm⟩
  | editTask p f hf hLink =>
      refine { hSelf with stable := hStable, task := Inherits.task_modify ?_ hf }
      intro r _ _
      obtain ⟨hFixed, hDepartment⟩ := hLink r
      exact ⟨(Prod.mk.inj hFixed).1, fun k hk => hDepartment ▸ hk⟩
  | changeMember p f hf hMember =>
      refine { hSelf with stable := hStable, role := Inherits.role_modify ?_ hf }
      intro r hr hp
      obtain ⟨hProject, hRole, -⟩ := hMember r hr hp
      refine ⟨hProject, fun k hk => ?_⟩
      rcases hRole with hSame | hCleared
      · exact hSame ▸ hk
      · rw [hCleared] at hk
        cases hk
  | eraseTask p => exact { hSelf with stable := hStable, task := forall_erase p hSelf.task }
  | erasePermission p =>
      exact { hSelf with stable := hStable, permission := forall_erase p hSelf.permission }
  | eraseFieldValue p =>
      exact { hSelf with stable := hStable, value := forall_erase p hSelf.value }
  | eraseMember p => exact { hSelf with stable := hStable, role := forall_erase p hSelf.role }
  | eraseDepartmentRole p =>
      refine { hSelf with stable := hStable, role := Inherits.role_modify ?_ }
      exact fun r _ _ => ⟨rfl, fun k hk => hk⟩
  | eraseDepartment p hRoles =>
      refine { hSelf with
        stable := hStable
        role := Inherits.role_modify ?_
        task := Inherits.task_modify ?_ }
      · exact fun r _ _ => ⟨rfl, fun k hk => hk⟩
      · exact fun r _ _ => ⟨rfl, fun k hk => (clearRef_some hk).1⟩
  | eraseProjectRole p =>
      refine { hSelf with stable := hStable, role := Inherits.role_modify ?_ }
      exact fun r _ _ => ⟨rfl, fun k hk => (clearRef_some hk).1⟩
  | linkRole hLinks | insertPermission hLinks | insertTask hLinks | insertValue hLinks =>
      exact absurd hLinks (hNone _)
  | insertDepartment | insertDepartmentRole | insertProjectRole | insertField | renameDepartment
  | renameDepartmentRole | renameProjectRole | eraseField =>
      exact .of_same hStable rfl rfl rfl rfl

theorem Acts.inherits {links : Link → Prop} {s s' : Store} (h : Acts links s s')
    (hNone : ∀ link, ¬ links link) : Inherits s s' := by
  induction h with
  | refl => exact Inherits.refl _
  | tail _ hChange ih => exact ih.trans (hChange.inherits hNone)

namespace IsolationInv

variable {s s' : Store}

/-- The row that a link of the earlier store points to. -/
theorem origin {ρ κ : Type} [Row ρ] {link : ρ → κ} {t t' : Table ρ} (h : Keeps link t t')
    {r' : ρ} (hr' : r' ∈ t'.rows) {k : Id} (hKey : Row.key r' = k) (hOld : k < t.next) :
    ∃ r ∈ t.rows, Row.key r = k ∧ link r = link r' := by
  subst hKey
  exact h.2 r' hr' hOld

theorem isolated_inherits (h : IsolationInv s) (hInherits : Inherits s s') : Isolated s' where
  role := by
    intro u' hu' role' hRole' hLink'
    obtain ⟨u, hu, hLink, hProject⟩ := hInherits.role u' hu' _ hLink'
    obtain ⟨role, hRole, hId, hSame⟩ :=
      origin hInherits.stable.projectRole hRole' rfl (h.roleOld u hu _ hLink)
    rw [← hSame, ← hProject]
    exact h.isolated.role u hu role hRole (hLink.trans (congrArg some hId.symm))
  permission := by
    intro p' hp' role' hRole' d' hd' hRoleLink' hLink'
    obtain ⟨p, hp, hRoleSame, hDepartmentSame⟩ := hInherits.permission p' hp'
    have hRoleLink := hRoleSame.trans hRoleLink'
    have hLink := hDepartmentSame.trans hLink'
    obtain ⟨role, hRole, hRoleId, hRoleProject⟩ :=
      origin hInherits.stable.projectRole hRole' hRoleLink.symm (h.permissionRoleOld p hp)
    obtain ⟨d, hd, hId, hProject⟩ :=
      origin hInherits.stable.department hd' rfl (h.permissionDepartmentOld p hp _ hLink)
    rw [← hRoleProject, ← hProject]
    exact h.isolated.permission p hp role hRole d hd hRoleId.symm
      (hLink.trans (congrArg some hId.symm))
  task := by
    intro t' ht' d' hd' hLink'
    obtain ⟨t, ht, hLink, hTaskProject⟩ := hInherits.task t' ht' _ hLink'
    obtain ⟨d, hd, hId, hProject⟩ :=
      origin hInherits.stable.department hd' rfl (h.taskOld t ht _ hLink)
    rw [← hProject, ← hTaskProject]
    exact h.isolated.task t ht d hd (hLink.trans (congrArg some hId.symm))
  value := by
    intro v' hv' field' hField' hLink'
    obtain ⟨v, hv, hFieldSame, hValueProject⟩ := hInherits.value v' hv'
    have hLink := hFieldSame.trans hLink'
    obtain ⟨field, hField, hId, hProject⟩ :=
      origin hInherits.stable.projectField hField' hLink.symm (h.valueOld v hv)
    rw [← hProject, ← hValueProject]
    exact h.isolated.value v hv field hField hId.symm

/-- What adds no link keeps the invariant. -/
theorem inherits (h : IsolationInv s) (hInherits : Inherits s s') : IsolationInv s' where
  isolated := h.isolated_inherits hInherits
  roleOld := by
    intro u' hu' k hLink'
    obtain ⟨u, hu, hLink, -⟩ := hInherits.role u' hu' k hLink'
    exact Int.lt_of_lt_of_le (h.roleOld u hu k hLink) hInherits.stable.projectRole.1
  permissionRoleOld := by
    intro p' hp'
    obtain ⟨p, hp, hSame, -⟩ := hInherits.permission p' hp'
    rw [← hSame]
    exact Int.lt_of_lt_of_le (h.permissionRoleOld p hp) hInherits.stable.projectRole.1
  permissionDepartmentOld := by
    intro p' hp' k hLink'
    obtain ⟨p, hp, -, hSame⟩ := hInherits.permission p' hp'
    exact Int.lt_of_lt_of_le (h.permissionDepartmentOld p hp k (hSame.trans hLink'))
      hInherits.stable.department.1
  taskOld := by
    intro t' ht' k hLink'
    obtain ⟨t, ht, hLink, -⟩ := hInherits.task t' ht' k hLink'
    exact Int.lt_of_lt_of_le (h.taskOld t ht k hLink) hInherits.stable.department.1
  valueOld := by
    intro v' hv'
    obtain ⟨v, hv, hSame, -⟩ := hInherits.value v' hv'
    rw [← hSame]
    exact Int.lt_of_lt_of_le (h.valueOld v hv) hInherits.stable.projectField.1

theorem empty : IsolationInv {} := by
  refine ⟨⟨?_, ?_, ?_, ?_⟩, ?_, ?_, ?_, ?_, ?_⟩
  all_goals
    intro r hr
    cases hr

/-! ## The four statements that add a link -/

/-- A member gets a role of its project. -/
theorem linkRole (h : IsolationInv s) {p : ProjectUser → Bool} {roleId : Id}
    (hf : ∀ r : ProjectUser, Row.key { r with projectRoleId := some roleId } = Row.key r)
    (hRef : s.projectRole.has roleId = true)
    (hSame : ∀ u ∈ s.projectUser.rows, p u = true → ∀ role ∈ s.projectRole.rows,
      role.id = roleId → role.projectId = u.projectId) :
    IsolationInv { s with
      projectUser := s.projectUser.modify p
        (fun r => { r with projectRoleId := some roleId }) hf } := by
  refine { h with
    isolated := { h.isolated with role := forall_modify p _ hf h.isolated.role ?_ }
    roleOld := forall_modify p _ hf h.roleOld ?_ }
  · intro u hu hp role hRole hLink
    exact hSame u hu hp role hRole (Option.some.inj hLink).symm
  · intro u _ _ k hLink
    rw [← Option.some.inj hLink]
    exact Table.lt_of_has hRef

/-- A permission is for a department of the project of its role. -/
theorem insertPermission (h : IsolationInv s) {mk : Id → Permission} (hmk : ∀ k, Row.key (mk k) = k)
    (hRef : prisma.permission.references s (mk s.permission.next) = true)
    (hSame : ∀ role ∈ s.projectRole.rows, ∀ d ∈ s.department.rows,
      (mk s.permission.next).projectRoleId = role.id →
      (mk s.permission.next).departmentId = some d.id → d.projectId = role.projectId) :
    IsolationInv { s with permission := s.permission.insert mk hmk } := by
  simp only [prisma.permission, Bool.and_eq_true] at hRef
  refine { h with
    isolated := { h.isolated with permission := forall_insert mk hmk h.isolated.permission hSame }
    permissionRoleOld := forall_insert mk hmk h.permissionRoleOld ?_
    permissionDepartmentOld := forall_insert mk hmk h.permissionDepartmentOld ?_ }
  · exact Table.lt_of_has hRef.1
  · intro k hLink
    rw [hLink] at hRef
    exact Table.lt_of_has hRef.2

/-- A task is in a department of its project. -/
theorem insertTask (h : IsolationInv s) {mk : Id → Task} (hmk : ∀ k, Row.key (mk k) = k)
    (hRef : prisma.task.references s (mk s.task.next) = true)
    (hSame : ∀ d ∈ s.department.rows, (mk s.task.next).departmentId = some d.id →
      d.projectId = (mk s.task.next).projectId) :
    IsolationInv { s with task := s.task.insert mk hmk } := by
  simp only [prisma.task, Bool.and_eq_true] at hRef
  refine { h with
    isolated := { h.isolated with task := forall_insert mk hmk h.isolated.task hSame }
    taskOld := forall_insert mk hmk h.taskOld ?_ }
  intro k hLink
  rw [hLink] at hRef
  exact Table.lt_of_has hRef.1.2

/-- A value is in the project of its field. -/
theorem insertValue (h : IsolationInv s) {mk : Id → ProjectFieldValue}
    (hmk : ∀ k, Row.key (mk k) = k)
    (hRef : prisma.projectFieldValue.references s (mk s.projectFieldValue.next) = true)
    (hSame : ∀ field ∈ s.projectField.rows, (mk s.projectFieldValue.next).fieldId = field.id →
      field.projectId = (mk s.projectFieldValue.next).projectId) :
    IsolationInv { s with projectFieldValue := s.projectFieldValue.insert mk hmk } := by
  simp only [prisma.projectFieldValue, Bool.and_eq_true] at hRef
  refine { h with
    isolated := { h.isolated with value := forall_insert mk hmk h.isolated.value hSame }
    valueOld := forall_insert mk hmk h.valueOld ?_ }
  exact Table.lt_of_has hRef.1

end IsolationInv

/-! ## Mutations -/

section Mutations

variable [Runtime]

/-- The four mutations get as far as their write only with a target in the right project:
`setUserRole` with a role of the project, `setPermission` with a department of the project
of the role, `createTask` with a department of the project, and `setFieldValue`, when the
field has no value yet, with the project of the field. -/
def LinksWithin (s : Store) : ServiceOp → Prop
  | .setUserRole projectId userId roleId =>
      ∀ u ∈ s.projectUser.rows, isMember projectId userId u = true →
        ∀ role ∈ s.projectRole.rows, role.id = roleId → role.projectId = projectId
  | .setPermission roleId resource departmentId _ =>
      normalizePolicyResource resource ∈ allowedPolicyResources →
        ∀ role ∈ s.projectRole.rows, ∀ d ∈ s.department.rows,
          role.id = roleId → departmentId = some d.id → d.projectId = role.projectId
  | .createTask projectId data viewer =>
      ∀ defaults, CreateAllowed s projectId data viewer defaults → data.type.isNull = false →
        prisma.task.references s (createdTask projectId data viewer defaults s.task.next) = true →
        ∀ d ∈ s.department.rows, data.departmentId = .value d.id → d.projectId = projectId
  | .setFieldValue projectId fieldId _ _ =>
      (∀ v ∈ s.projectFieldValue.rows, v.fieldId ≠ fieldId) → s.project.has projectId = true →
        ∀ field ∈ s.projectField.rows, field.id = fieldId → field.projectId = projectId
  | _ => True

variable {s s' : Store}

omit [Runtime] in
/-- What a call does when it succeeds, and keeps when it fails. -/
theorem state_of_outcome {α : Type} {p : Service α} {f : α → Answer} {P : Store → Prop}
    {result : Except Exn Answer} (h : p.wp (Outcome s fun _ s' => P s') s) (hSelf : P s)
    (hRun : (answering f p).run s = (result, s')) : P s' := by
  rcases answering_run hRun with ⟨a, hOk, -⟩ | ⟨e, hError, -⟩
  · exact (wp_of_run hOk).mp h
  · obtain rfl : s' = s := (wp_of_run hError).mp h
    exact hSelf

theorem setUserRole_isolated (h : IsolationInv s) {projectId userId roleId : Id}
    (hLinks : LinksWithin s (.setUserRole projectId userId roleId)) :
    (setUserRole projectId userId roleId).wp (Outcome s fun _ s' => IsolationInv s') s := by
  refine outcome_execute fun row s' hUpdate => ?_
  obtain ⟨u, hu, hSel, -, rfl, hRef, rfl⟩ := Model.update_ok hUpdate
  simp only [prisma.projectUser, Bool.and_eq_true] at hRef
  refine h.linkRole _ hRef.1.1.2 fun u' hu' hKey role hRole hId => ?_
  obtain rfl : u' = u := s.projectUser.key_inj hu' hu (beq_iff_eq.mp hKey)
  rw [(isMember_iff.mp hSel).1]
  exact hLinks u' hu hSel role hRole hId

omit [Runtime] in
/-- The links of a permission stay when its flags change. -/
theorem setFlags_isolated (h : IsolationInv s) {sel : Permission → Bool} {flags : Flags}
    {row : Permission}
    (hUpdate : prisma.permission.update sel (fun r => { r with flags := flags }) (fun _ => rfl) s =
      .ok (row, s')) : IsolationInv s' := by
  obtain ⟨r, -, -, -, -, -, rfl⟩ := Model.update_ok hUpdate
  have hChange := @Change.setFlags (fun _ => False) s (fun x => Row.key x == Row.key r)
    (fun r => { r with flags := flags }) (fun _ => rfl) fun _ => ⟨rfl, rfl⟩
  exact h.inherits (hChange.inherits fun _ => id)

theorem setPermission_isolated (h : IsolationInv s) {roleId : Id} {resource : String}
    {departmentId : Option Id} {flags : Flags}
    (hLinks : LinksWithin s (.setPermission roleId resource departmentId flags)) :
    (setPermission roleId resource departmentId flags).wp
      (Outcome s fun _ s' => IsolationInv s') s := by
  refine outcome_bind reads_throwIf fun _ hAllowed => ?_
  have hTarget := hLinks (not_not.mp hAllowed)
  cases departmentId with
  | none =>
      refine outcome_bind (reads_findUnique _ _) fun existing _ => ?_
      cases existing with
      | some permission => exact outcome_execute fun row s' hUpdate => setFlags_isolated h hUpdate
      | none =>
          refine outcome_execute fun row s' hCreate => ?_
          obtain ⟨rfl, hRef, rfl⟩ := Model.create_ok hCreate
          refine h.insertPermission _ hRef fun role _ d _ _ hLink => ?_
          cases hLink
  | some department =>
      refine outcome_execute fun row s' hUpsert => ?_
      rcases Model.upsert_ok hUpsert with hUpdate | ⟨-, hCreate⟩
      · exact setFlags_isolated h hUpdate
      · obtain ⟨rfl, hRef, rfl⟩ := Model.create_ok hCreate
        refine h.insertPermission _ hRef fun role hRole d hd hRoleLink hLink => ?_
        exact hTarget role hRole d hd hRoleLink.symm hLink

/-- The department that a task gets from its creator. -/
theorem department_of_defaults (h : DepartmentInv s) {projectId : Id} {data : CreateTaskInput}
    {viewer : Option Viewer} {defaults : Option Id × Option Id}
    (hAllowed : CreateAllowed s projectId data viewer defaults) {d : Department}
    (hd : d ∈ s.department.rows) (hDefault : defaults.1 = some d.id) : d.projectId = projectId := by
  unfold CreateAllowed at hAllowed
  split at hAllowed
  · rw [hAllowed] at hDefault
    cases hDefault
  · obtain ⟨u, hMember, -, rfl⟩ := hAllowed
    obtain ⟨hMem, hProject, -⟩ := memberOf_some hMember
    obtain ⟨d', hd', hId, hSame⟩ := h.department u hMem d.id hDefault
    obtain rfl : d' = d := s.department.key_inj hd' hd hId
    rw [hSame, hProject]

/-- The department of a new task is the one of the input or the one of its creator. -/
theorem createTask_isolated (h : IsolationInv s) (hDepartment : DepartmentInv s) {projectId : Id}
    {data : CreateTaskInput} {viewer : Option Viewer}
    (hLinks : LinksWithin s (.createTask projectId data viewer)) :
    (createTask projectId data viewer).wp (Outcome s fun _ s' => IsolationInv s') s := by
  refine outcome_mono (createTask_outcome s projectId data viewer) fun out s' hOut => ?_
  obtain ⟨defaults, hAllowed, hInput, hTask, hRef, rfl⟩ := hOut
  rw [hTask] at hRef
  refine h.insertTask _ hRef fun d hd hLink => ?_
  change data.departmentId.toOption.or defaults.1 = some d.id at hLink
  change d.projectId = projectId
  cases hInputDepartment : data.departmentId with
  | value k =>
      rw [hInputDepartment] at hLink
      exact hLinks defaults hAllowed hInput hRef d hd (hInputDepartment.trans
        (congrArg Arg.value (Option.some.inj hLink)))
  | undefined | null =>
      rw [hInputDepartment] at hLink
      exact department_of_defaults hDepartment hAllowed hd hLink

/-- A first value of a field is in the project of the field; a later one replaces it there. -/
theorem setFieldValue_isolated (h : IsolationInv s) {projectId fieldId : Id} {value : String}
    {updatedAt : Int} (hLinks : LinksWithin s (.setFieldValue projectId fieldId value updatedAt)) :
    (setFieldValue projectId fieldId value updatedAt).wp
      (Outcome s fun _ s' => IsolationInv s') s := by
  refine outcome_execute fun row s' hUpsert => ?_
  rcases Model.upsert_ok hUpsert with hUpdate | ⟨hNone, hCreate⟩
  · obtain ⟨v, -, -, -, -, -, rfl⟩ := Model.update_ok hUpdate
    have hChange := @Change.setValue (fun _ => False) s (fun x => Row.key x == Row.key v)
      (fun r => { r with value := some value, updatedAt }) (fun _ => rfl) fun _ => ⟨rfl, rfl⟩
    exact h.inherits (hChange.inherits fun _ => id)
  · obtain ⟨rfl, hRef, rfl⟩ := Model.create_ok hCreate
    refine h.insertValue _ hRef fun field hField hLink => ?_
    simp only [prisma.projectFieldValue, Bool.and_eq_true] at hRef
    refine hLinks (fun v hv hId => ?_) hRef.2 field hField hLink.symm
    exact absurd (beq_iff_eq.mpr hId) (List.find?_eq_none.mp hNone v hv)

/-- One mutation. -/
theorem IsolationInv.call (h : IsolationInv s) (hDepartment : DepartmentInv s) (op : ServiceOp)
    (hLinks : LinksWithin s op) {result : Except Exn Answer}
    (hRun : op.prog.run s = (result, s')) : IsolationInv s' := by
  cases op with
  | setUserRole => exact state_of_outcome (setUserRole_isolated h hLinks) h hRun
  | setPermission => exact state_of_outcome (setPermission_isolated h hLinks) h hRun
  | createTask => exact state_of_outcome (createTask_isolated h hDepartment hLinks) h hRun
  | setFieldValue => exact state_of_outcome (setFieldValue_isolated h hLinks) h hRun
  | _ => exact h.inherits ((ServiceOp.acts _ hRun).inherits fun _ => id)

/-! ## Runs -/

/-- The stores to which mutations lead from the empty one, each running alone, when every
call satisfies `C` in the store in which it is made. -/
inductive Reached (C : Store → ServiceOp → Prop) : Store → Prop
  | start : Reached C {}
  | call {s s' : Store} {result : Except Exn Answer} (op : ServiceOp) (before : Reached C s)
      (hCall : C s op) (h : op.prog.run s = (result, s')) : Reached C s'
  | account {s s' : Store} (before : Reached C s) (h : AccountStep s s') : Reached C s'

theorem Reached.inv (h : Reached LinksWithin s) : IsolationInv s ∧ DepartmentInv s := by
  induction h with
  | start => exact ⟨IsolationInv.empty, DepartmentInv.empty⟩
  | call op _ hCall hRun ih =>
      exact ⟨ih.1.call ih.2 op hCall hRun, ih.2.acts (op.acts hRun)⟩
  | account _ hAccount ih =>
      have hChange := @Change.plain (fun _ => False) _ _ (sameLinks_accountStep hAccount)
      exact ⟨ih.1.inherits (hChange.inherits fun _ => id), ih.2.change hChange⟩

/-- **Links stay within projects** as long as the four mutations that do not compare the
projects are called with targets of the right one. -/
theorem links_within_projects (h : Reached LinksWithin s) : Isolated s := h.inv.1.isolated

end Mutations

section Site

attribute [local instance] asciiRuntime

/-- The store after calls made one after the other. -/
def after (s : Store) : List ServiceOp → Store
  | [] => s
  | op :: rest => after (op.prog.run s).2 rest

/-- Every call satisfies `C` in the store in which it is made. -/
def Calls (C : Store → ServiceOp → Prop) (s : Store) : List ServiceOp → Prop
  | [] => True
  | op :: rest => C s op ∧ Calls C (op.prog.run s).2 rest

theorem Reached.after {C : Store → ServiceOp → Prop} {s : Store} {ops : List ServiceOp}
    (h : Reached C s) (hCalls : Calls C s ops) : Reached C (Rooeel.after s ops) := by
  induction ops generalizing s with
  | nil => exact h
  | cons op rest ih => exact ih (.call op h hCalls.1 rfl) hCalls.2

theorem reached_accounts (C : Store → ServiceOp → Prop) : Reached C accounts := by
  have hAccounts : AccountStep {} accounts := rfl
  exact .account .start hAccounts

/-- Two projects; the role belongs to the project `roleProject`, the member to the first. -/
def foremanCalls (roleProject : Id) : List ServiceOp :=
  [.createProject 1 { name := "Bridge" }, .createProject 1 { name := "Tunnel" },
   .createRole roleProject "Foreman", .assignUser 1 1, .setUserRole 1 1 1]

/-- A member of the first project gets a role of the second one. -/
theorem role_of_other_project :
    ¬ ∀ s, Reached (fun _ _ => True) s → Isolated s := by
  intro h
  have hReached : Reached (fun _ _ => True) (after accounts (foremanCalls 2)) :=
    (reached_accounts _).after ⟨trivial, trivial, trivial, trivial, trivial, trivial⟩
  have hSame := (h _ hReached).role foreman (by decide) ⟨1, 2, "Foreman"⟩ (by decide) rfl
  exact absurd hSame (by decide)

/-- The role is a role of the project. -/
theorem links_within_projects_site :
    (after accounts (foremanCalls 1)).projectUser.rows = [foreman] ∧
      Isolated (after accounts (foremanCalls 1)) := by
  refine ⟨by decide, links_within_projects ((reached_accounts LinksWithin).after ?_)⟩
  refine ⟨trivial, trivial, trivial, trivial, ?_, trivial⟩
  intro u _ _
  decide

end Site

end Rooeel
