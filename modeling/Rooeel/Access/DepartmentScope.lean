import Rooeel.Access.Guard

/-!
# Permissions of other departments

The guard takes the first permission of the member's role about the resource, whatever its
department is, and compares departments afterwards, for tasks and subtasks only. So rows of
other departments can grant a right, and can take one away.

`SameButForeign` relates two stores that differ in such rows only. `department_scope` says
when the guard decides alike in all of them.
-/

namespace Rooeel

open JavaScript

/-- The permission is for a department, and not for the given one. -/
def Permission.foreign (departmentId : Option Id) (permission : Permission) : Bool :=
  permission.departmentId.isSome && permission.departmentId != departmentId

/-- The permissions of no department and those of the given one. -/
def ownPermissions (s : Store) (departmentId : Option Id) : List Permission :=
  s.permission.rows.filter fun r => !r.foreign departmentId

/-- The stores differ in permissions of other departments only. -/
structure SameButForeign (s s' : Store) (departmentId : Option Id) : Prop where
  rest : s' = { s with permission := s'.permission }
  own : ownPermissions s' departmentId = ownPermissions s departmentId

/-! ## The first row among own and foreign ones -/

section Lists

variable {ρ : Type} {p q : ρ → Bool} {rows : List ρ}

theorem find_filter_of_find {r : ρ} (h : rows.find? q = some r) (hKept : p r = true) :
    (rows.filter p).find? q = some r := by
  induction rows with
  | nil => cases h
  | cons x xs ih =>
      cases hq : q x with
      | true =>
          rw [List.find?_cons_of_pos hq] at h
          cases h
          rw [List.filter_cons_of_pos hKept, List.find?_cons_of_pos hq]
      | false =>
          rw [List.find?_cons_of_neg (by simp [hq])] at h
          cases hp : p x with
          | true =>
              rw [List.filter_cons_of_pos hp, List.find?_cons_of_neg (by simp [hq])]
              exact ih h
          | false =>
              rw [List.filter_cons_of_neg (by simp [hp])]
              exact ih h

theorem find_filter_of_none (h : rows.find? q = none) : (rows.filter p).find? q = none := by
  refine List.find?_eq_none.mpr fun r hr => ?_
  exact List.find?_eq_none.mp h r (List.mem_of_mem_filter hr)

end Lists

section Scope

variable [Runtime]

/-- The own row that the guard picks when there is no foreign one before it. -/
def ProjectUser.ownPermissionFor (projectUser : ProjectUser) (s : Store) (resource : String) :
    Option Permission :=
  (ownPermissions s projectUser.departmentId).find? fun r =>
    some r.projectRoleId == projectUser.projectRoleId && r.resource == resource

omit [Runtime] in
/-- The guard picks the own row, or a foreign one. -/
theorem permissionFor_cases (projectUser : ProjectUser) (s : Store) (resource : String) :
    projectUser.permissionFor s resource = projectUser.ownPermissionFor s resource ∨
      ∃ r ∈ s.permission.rows, projectUser.permissionFor s resource = some r ∧
        r.foreign projectUser.departmentId = true ∧
        projectUser.projectRoleId = some r.projectRoleId := by
  cases hFind : projectUser.permissionFor s resource with
  | none => exact Or.inl (find_filter_of_none hFind).symm
  | some r =>
      cases hForeign : r.foreign projectUser.departmentId with
      | false => exact Or.inl (find_filter_of_find hFind (by rw [hForeign]; rfl)).symm
      | true =>
          have hSelected := List.find?_some hFind
          simp only [Bool.and_eq_true, beq_iff_eq] at hSelected
          exact Or.inr ⟨r, List.mem_of_find?_eq_some hFind, rfl, hForeign, hSelected.1.symm⟩

/-- The decision on the member's own rows: its policy, else its own permission. -/
def ProjectUser.deniedByOwnRows (projectUser : ProjectUser) (s : Store)
    (metadata : PermissionMetadata) : Prop :=
  match projectUser.policyFor s metadata.resourceKey,
    projectUser.ownPermissionFor s metadata.resourceKey with
  | some policy, _ => policy.flags.get metadata.action = false
  | none, some permission => permission.flags.get metadata.action = false
  | none, none => metadata.action ≠ .view

/-- The member has no project role, there is no other department, the department role has a
policy about a resource other than tasks, or the resource is about tasks and the member's own
rows deny the action. -/
def ForeignRowsIgnored (s : Store) (projectUser : ProjectUser) (metadata : PermissionMetadata) :
    Prop :=
  projectUser.projectRoleId = none ∨
  (∀ department ∈ s.department.rows, projectUser.departmentId = some department.id) ∨
  (metadata.isTaskResource = false ∧
    (projectUser.policyFor s metadata.resourceKey).isSome = true) ∨
  (metadata.isTaskResource = true ∧ projectUser.deniedByOwnRows s metadata)

/-- The guard decides alike in all stores that differ in foreign permissions only. -/
def DepartmentScoped (s : Store) (user : Viewer) (metadata : PermissionMetadata)
    (args : GuardArgs) (departmentId : Option Id) : Prop :=
  ∀ s' : Store, s'.Valid → SameButForeign s s' departmentId →
    (Allows s' user metadata args ↔ Allows s user metadata args)

variable {s : Store} {projectUser : ProjectUser} {metadata : PermissionMetadata}

/-! ## Decisions on own and foreign rows -/

omit [Runtime] in
theorem otherDepartment_of_foreign (hValid : s.Valid) {departmentId : Option Id} {r : Permission}
    (hMem : r ∈ s.permission.rows) (hForeign : r.foreign departmentId = true) :
    r.otherDepartment departmentId = true := by
  obtain ⟨hSome, hNe⟩ := Bool.and_eq_true_iff.mp hForeign
  obtain ⟨d, hd⟩ := Option.isSome_iff_exists.mp hSome
  have hRef := hValid.permission.references r hMem
  simp only [prisma.permission, Bool.and_eq_true, hd] at hRef
  have hPos : 0 < d := Table.pos_of_has hRef.2
  rw [hd] at hNe
  simp only [Permission.otherDepartment, hd, isSet, Option.any_some, Bool.and_eq_true, bne_iff_ne]
  exact ⟨Int.ne_of_gt hPos, fun hSame => by simp [hSame] at hNe⟩

omit [Runtime] in
theorem not_otherDepartment_of_own {departmentId : Option Id} {r : Permission}
    (hOwn : r.foreign departmentId = false) : r.otherDepartment departmentId = false := by
  unfold Permission.foreign at hOwn
  unfold Permission.otherDepartment
  cases hDepartment : r.departmentId with
  | none => rfl
  | some d =>
      rw [hDepartment] at hOwn
      have hSame : some d = departmentId := by simpa using hOwn
      simp [hSame]

/-- A foreign row about a task resource denies. -/
theorem passes_foreign {departmentId : Option Id} {r : Permission}
    (policy : Option DepartmentRolePolicy) (hTask : metadata.isTaskResource = true)
    (hOther : r.otherDepartment departmentId = true) :
    passes metadata departmentId (some r) policy = false := by
  cases policy <;> simp [passes, hTask, hOther]

omit [Runtime] in
theorem ownPermissionFor_not_foreign {resource : String} {r : Permission}
    (h : projectUser.ownPermissionFor s resource = some r) :
    r.foreign projectUser.departmentId = false := by
  have hMem := List.mem_of_find?_eq_some h
  simpa using (List.mem_filter.mp hMem).2

theorem resourceKey_of_task (hTask : metadata.isTaskResource = true) :
    metadata.resourceKey ∈ defaultViewResources := by
  simp only [PermissionMetadata.isTaskResource, Bool.or_eq_true, beq_iff_eq] at hTask
  unfold PermissionMetadata.resourceKey
  rcases hTask with hTask | hTask
  · rw [hTask, toUpperCase_of_canonical (by decide)]
    decide
  · rw [hTask, toUpperCase_of_canonical (by decide)]
    decide

/-- On own rows, the departments do not matter. -/
theorem passes_own (hTask : metadata.isTaskResource = true) :
    passes metadata projectUser.departmentId
        (projectUser.ownPermissionFor s metadata.resourceKey)
        (projectUser.policyFor s metadata.resourceKey) = true ↔
      ¬ projectUser.deniedByOwnRows s metadata := by
  have hDefault := resourceKey_of_task hTask
  unfold ProjectUser.deniedByOwnRows
  cases hOwn : projectUser.ownPermissionFor s metadata.resourceKey with
  | none =>
      cases projectUser.policyFor s metadata.resourceKey with
      | none => simp [passes, hDefault]
      | some policy => simp [passes]
  | some r =>
      have hSame := not_otherDepartment_of_own (ownPermissionFor_not_foreign hOwn)
      cases projectUser.policyFor s metadata.resourceKey with
      | none => simp [passes, hSame]
      | some policy => simp [passes, hSame]

/-! ## Stores with other foreign rows -/

omit [Runtime] in
/-- No other table refers to permissions. -/
theorem Store.Valid.withPermissions (h : s.Valid) {t : Table Permission}
    (hSound : prisma.permission.Sound { s with permission := t }) :
    ({ s with permission := t } : Store).Valid where
  admin := ⟨h.admin.references, h.admin.unique⟩
  user := ⟨h.user.references, h.user.unique⟩
  passwordResetToken := ⟨h.passwordResetToken.references, h.passwordResetToken.unique⟩
  refreshToken := ⟨h.refreshToken.references, h.refreshToken.unique⟩
  userRequest := ⟨h.userRequest.references, h.userRequest.unique⟩
  project := ⟨h.project.references, h.project.unique⟩
  workOrderPdf := ⟨h.workOrderPdf.references, h.workOrderPdf.unique⟩
  projectField := ⟨h.projectField.references, h.projectField.unique⟩
  projectFieldValue := ⟨h.projectFieldValue.references, h.projectFieldValue.unique⟩
  department := ⟨h.department.references, h.department.unique⟩
  departmentRole := ⟨h.departmentRole.references, h.departmentRole.unique⟩
  departmentRolePolicy := ⟨h.departmentRolePolicy.references, h.departmentRolePolicy.unique⟩
  projectRole := ⟨h.projectRole.references, h.projectRole.unique⟩
  permission := hSound
  projectUser := ⟨h.projectUser.references, h.projectUser.unique⟩
  task := ⟨h.task.references, h.task.unique⟩
  subTask := ⟨h.subTask.references, h.subTask.unique⟩

/-- The store without the foreign rows. -/
def ownOnly (s : Store) (departmentId : Option Id) : Store :=
  { s with permission := s.permission.erase fun r => r.foreign departmentId }

/-- The table with one more row, which the database returns first. -/
def cons {ρ : Type} [Row ρ] (t : Table ρ) (mk : Id → ρ) (hmk : ∀ k, Row.key (mk k) = k) :
    Table ρ where
  rows := mk t.next :: t.rows
  next := (t.insert mk hmk).next
  next_pos := (t.insert mk hmk).next_pos
  nodup := by
    have hPerm : (mk t.next :: t.rows).Perm (t.insert mk hmk).rows :=
      (List.perm_append_singleton _ _).symm
    exact (hPerm.map Row.key).nodup_iff.mpr (t.insert mk hmk).nodup
  bounds := by
    intro r hr
    refine (t.insert mk hmk).bounds r ?_
    exact (List.perm_append_singleton _ _).mem_iff.mpr hr

/-- The store without the foreign rows but one, which comes first. -/
def oneForeign (s : Store) (departmentId : Option Id) (projectRoleId other : Id)
    (resource : String) (flags : Flags) : Store :=
  { s with permission := cons (ownOnly s departmentId).permission (fun id =>
      { id, projectRoleId, departmentId := some other, resource, flags }) fun _ => rfl }

omit [Runtime] in
theorem ownOnly_valid (hValid : s.Valid) (departmentId : Option Id) :
    (ownOnly s departmentId).Valid := by
  refine hValid.withPermissions ⟨?_, ?_⟩
  · intro r hr
    exact hValid.permission.references r (Table.mem_erase.mp hr).1
  · exact hValid.permission.unique.sublist List.filter_sublist

omit [Runtime] in
theorem ownOnly_same (s : Store) (departmentId : Option Id) :
    SameButForeign s (ownOnly s departmentId) departmentId := by
  refine ⟨rfl, ?_⟩
  change List.filter _ (List.filter _ s.permission.rows) = _
  rw [List.filter_filter, ownPermissions]
  simp

omit [Runtime] in
theorem oneForeign_valid (hValid : s.Valid) {departmentId : Option Id} {projectRoleId other : Id}
    (resource : String) (flags : Flags) (hRole : s.projectRole.has projectRoleId = true)
    (hDepartment : s.department.has other = true) (hOther : departmentId ≠ some other) :
    (oneForeign s departmentId projectRoleId other resource flags).Valid := by
  have hOwn := ownOnly_valid hValid departmentId
  refine hValid.withPermissions ⟨?_, ?_⟩
  · intro r hr
    rcases List.mem_cons.mp hr with rfl | hr
    · simp [prisma.permission, hRole, refOk, hDepartment]
    · exact hOwn.permission.references r hr
  · refine List.pairwise_cons.mpr ⟨fun r hr => ?_, hOwn.permission.unique⟩
    have hMine : r.foreign departmentId = false := (Table.mem_erase.mp hr).2
    have hNe : r.departmentId ≠ some other := by
      intro hSame
      simp only [Permission.foreign, hSame, Option.isSome_some, Bool.true_and, bne_eq_false_iff_eq]
        at hMine
      exact hOther hMine.symm
    simp [prisma.permission, Ne.symm hNe]

omit [Runtime] in
theorem oneForeign_same {departmentId : Option Id} (projectRoleId : Id) {other : Id}
    (resource : String) (flags : Flags) (hOther : departmentId ≠ some other) :
    SameButForeign s (oneForeign s departmentId projectRoleId other resource flags)
      departmentId := by
  refine ⟨rfl, ?_⟩
  rw [← (ownOnly_same s departmentId).own]
  exact List.filter_cons_of_neg (by simp [Permission.foreign, Ne.symm hOther])

omit [Runtime] in
theorem permissionFor_oneForeign {departmentId : Option Id} {projectRoleId other : Id}
    {resource : String} {flags : Flags} (hRole : projectUser.projectRoleId = some projectRoleId) :
    projectUser.permissionFor (oneForeign s departmentId projectRoleId other resource flags)
      resource = some ⟨s.permission.next, projectRoleId, some other, resource, flags⟩ := by
  refine List.find?_cons_of_pos ?_
  simp [hRole]

omit [Runtime] in
theorem permissionFor_ownOnly (resource : String) :
    projectUser.permissionFor (ownOnly s projectUser.departmentId) resource =
      projectUser.ownPermissionFor s resource := rfl

/-! ## The theorem -/

variable {user : Viewer} {args : GuardArgs} {projectId : Id}

/-- The guard's decision about a member depends on the store through the member's rows. -/
theorem allows_iff_passes (hValid : s.Valid) (hRole : user.role ≠ some "admin")
    (hProject : projectIdOf s metadata args = some projectId)
    (hMember : memberOf s projectId user.userId = some projectUser) :
    Allows s user metadata args ↔ projectUser.passesGuard s metadata = true := by
  obtain ⟨hMem, hId, -⟩ := memberOf_some hMember
  have hPos : 0 < projectId := hId ▸ member_projectId_pos hValid hMem
  rw [canActivate_iff hValid hRole hProject (isSet_of_pos hPos), hMember]
  simp only [Option.some.injEq, exists_eq_left']

/-- Under the condition, the own rows decide. -/
theorem passesGuard_of_ignored {s' : Store} (hValid' : s'.Valid)
    (hSame : SameButForeign s s' projectUser.departmentId)
    (hIgnored : ForeignRowsIgnored s projectUser metadata) :
    projectUser.passesGuard s' metadata =
      passes metadata projectUser.departmentId
        (projectUser.ownPermissionFor s metadata.resourceKey)
        (projectUser.policyFor s metadata.resourceKey) := by
  have hOwn : projectUser.ownPermissionFor s' metadata.resourceKey =
      projectUser.ownPermissionFor s metadata.resourceKey := by
    rw [ProjectUser.ownPermissionFor, hSame.own]
    rfl
  have hPolicy : projectUser.policyFor s' metadata.resourceKey =
      projectUser.policyFor s metadata.resourceKey := by
    rw [hSame.rest]
    rfl
  have hDepartments : s'.department = s.department := by rw [hSame.rest]
  unfold ProjectUser.passesGuard
  rw [hPolicy]
  rcases permissionFor_cases projectUser s' metadata.resourceKey with hPick |
    ⟨r, hMem, hPick, hForeign, hRole⟩
  · rw [hPick, hOwn]
  · rw [hPick]
    have hOther := otherDepartment_of_foreign hValid' hMem hForeign
    rcases hIgnored with hNone | hOnly | ⟨hTask, hSome⟩ | ⟨hTask, hDenied⟩
    · rw [hNone] at hRole
      cases hRole
    · obtain ⟨hSome, hNe⟩ := Bool.and_eq_true_iff.mp hForeign
      obtain ⟨d, hd⟩ := Option.isSome_iff_exists.mp hSome
      have hRef := hValid'.permission.references r hMem
      simp only [prisma.permission, Bool.and_eq_true, hd] at hRef
      obtain ⟨department, hDepartment, hKey⟩ := Table.has_iff.mp hRef.2
      rw [hDepartments] at hDepartment
      have hMine : projectUser.departmentId = some d := hKey ▸ hOnly department hDepartment
      rw [hMine, hd] at hNe
      simp at hNe
    · obtain ⟨policy, hPolicySome⟩ := Option.isSome_iff_exists.mp hSome
      rw [hPolicySome]
      simp [passes, hTask]
    · rw [passes_foreign _ hTask hOther]
      have hNot : ¬ passes metadata projectUser.departmentId
          (projectUser.ownPermissionFor s metadata.resourceKey)
          (projectUser.policyFor s metadata.resourceKey) = true :=
        fun hPass => (passes_own hTask).mp hPass hDenied
      exact (Bool.eq_false_iff.mpr hNot).symm

/-- A foreign row in front decides. -/
theorem passesGuard_oneForeign {projectRoleId other : Id} {flags : Flags}
    (hRole : projectUser.projectRoleId = some projectRoleId) :
    projectUser.passesGuard (oneForeign s projectUser.departmentId projectRoleId other
        metadata.resourceKey flags) metadata =
      passes metadata projectUser.departmentId
        (some ⟨s.permission.next, projectRoleId, some other, metadata.resourceKey, flags⟩)
        (projectUser.policyFor s metadata.resourceKey) := by
  rw [ProjectUser.passesGuard, permissionFor_oneForeign hRole]
  rfl

/-- Without the condition, there is a role, another department, and either no policy about a
resource other than tasks, or own rows that grant a right on tasks. -/
theorem not_ignored (hNot : ¬ ForeignRowsIgnored s projectUser metadata) :
    ∃ projectRoleId, projectUser.projectRoleId = some projectRoleId ∧
      ∃ department ∈ s.department.rows, projectUser.departmentId ≠ some department.id ∧
        (metadata.isTaskResource = false ∧
            projectUser.policyFor s metadata.resourceKey = none ∨
          metadata.isTaskResource = true ∧ ¬ projectUser.deniedByOwnRows s metadata) := by
  unfold ForeignRowsIgnored at hNot
  simp only [not_or, not_and] at hNot
  obtain ⟨hRole, hDepartments, hPolicy, hDenied⟩ := hNot
  obtain ⟨projectRoleId, hSome⟩ := Option.ne_none_iff_exists'.mp hRole
  push Not at hDepartments
  obtain ⟨department, hMem, hOther⟩ := hDepartments
  refine ⟨projectRoleId, hSome, department, hMem, hOther, ?_⟩
  cases hTask : metadata.isTaskResource with
  | true => exact Or.inr ⟨rfl, hDenied hTask⟩
  | false => exact Or.inl ⟨rfl, Option.not_isSome_iff_eq_none.mp (hPolicy hTask)⟩

/-- **When other departments do not matter.** The decision about a member is the same in all
stores that differ in permissions of other departments only, exactly under this condition. -/
theorem department_scope (hValid : s.Valid) (hAdmin : user.role ≠ some "admin")
    (hProject : projectIdOf s metadata args = some projectId)
    (hMember : memberOf s projectId user.userId = some projectUser) :
    DepartmentScoped s user metadata args projectUser.departmentId ↔
      ForeignRowsIgnored s projectUser metadata := by
  -- in every such store the user is the same member of the same project
  have hFrame : ∀ s' : Store, s'.Valid → SameButForeign s s' projectUser.departmentId →
      (Allows s' user metadata args ↔ projectUser.passesGuard s' metadata = true) := by
    intro s' hValid' hSame
    have hProject' : projectIdOf s' metadata args = some projectId := by
      rw [hSame.rest]
      exact hProject
    have hMember' : memberOf s' projectId user.userId = some projectUser := by
      rw [hSame.rest]
      exact hMember
    exact allows_iff_passes hValid' hAdmin hProject' hMember'
  have hSelf : SameButForeign s s projectUser.departmentId := ⟨rfl, rfl⟩
  constructor
  · intro hScoped
    by_contra hNot
    obtain ⟨projectRoleId, hRole, department, hDepartment, hOther, hCase⟩ := not_ignored hNot
    have hRoleRef : s.projectRole.has projectRoleId = true := by
      have hRef := hValid.projectUser.references projectUser (memberOf_some hMember).1
      simp only [prisma.projectUser, Bool.and_eq_true, hRole] at hRef
      exact hRef.1.1.2
    have hDepartmentRef : s.department.has department.id = true :=
      Table.has_iff.mpr ⟨department, hDepartment, rfl⟩
    have hForeign : ∀ flags, Allows (oneForeign s projectUser.departmentId projectRoleId
        department.id metadata.resourceKey flags) user metadata args ↔
          passes metadata projectUser.departmentId
            (some ⟨s.permission.next, projectRoleId, some department.id, metadata.resourceKey,
              flags⟩)
            (projectUser.policyFor s metadata.resourceKey) = true := by
      intro flags
      rw [← passesGuard_oneForeign hRole]
      exact hFrame _ (oneForeign_valid hValid _ _ hRoleRef hDepartmentRef hOther)
        (oneForeign_same _ _ _ hOther)
    have hAlike : ∀ flags, Allows (oneForeign s projectUser.departmentId projectRoleId
        department.id metadata.resourceKey flags) user metadata args ↔
          Allows s user metadata args :=
      fun flags => hScoped _ (oneForeign_valid hValid _ _ hRoleRef hDepartmentRef hOther)
        (oneForeign_same _ _ _ hOther)
    rcases hCase with ⟨hTask, hPolicy⟩ | ⟨hTask, hGranted⟩
    · -- a foreign row that grants everything, and one that grants nothing
      have hGrant := (hForeign ⟨true, true, true, true⟩).mpr (by
        rw [hPolicy]
        cases hAction : metadata.action <;> simp [passes, hTask, Flags.get, hAction])
      have hDeny := (hAlike {}).mpr ((hAlike _).mp hGrant)
      rw [hForeign, hPolicy] at hDeny
      cases hAction : metadata.action <;> simp [passes, hTask, Flags.get, hAction] at hDeny
    · -- a foreign row denies, the own rows alone grant
      have hOwn : Allows (ownOnly s projectUser.departmentId) user metadata args := by
        rw [hFrame _ (ownOnly_valid hValid _) (ownOnly_same s _), ProjectUser.passesGuard,
          permissionFor_ownOnly]
        exact (passes_own hTask).mpr hGranted
      have hHere := (hScoped _ (ownOnly_valid hValid _) (ownOnly_same s _)).mp hOwn
      have hDeny := (hForeign {}).mp ((hAlike {}).mpr hHere)
      have hPos : department.id ≠ 0 := Int.ne_of_gt (s.department.key_pos hDepartment)
      rw [passes_foreign _ hTask] at hDeny
      · cases hDeny
      · simp [Permission.otherDepartment, isSet, hPos, hOther]
  · intro hIgnored s' hValid' hSame
    rw [hFrame s' hValid' hSame, hFrame s hValid hSelf,
      passesGuard_of_ignored hValid' hSame hIgnored, passesGuard_of_ignored hValid hSelf hIgnored]

end Scope

section Yard

attribute [local instance] asciiRuntime

/-- The small site with a department that its member is not in, and a work order. -/
def yard : Store :=
  { site with
    department := site.department.insert (fun id => { id, projectId := 1, name := "Civil" })
      fun _ => rfl
    workOrderPdf := site.workOrderPdf.insert (fun id =>
      { id, projectId := 1, fileKey := "a.pdf", fileName := "a.pdf", uploadedBy := 1 })
      fun _ => rfl }

/-- The role of the member may delete work orders, in that department. -/
def yardWithForeign : Store :=
  { yard with
    permission := yard.permission.insert (fun id =>
      { id, projectRoleId := 1, departmentId := some 1, resource := "WORK_ORDER"
        flags := { canDelete := true } }) fun _ => rfl }

theorem yard_valid : yard.Valid := by
  constructor <;> decide

theorem yardWithForeign_valid : yardWithForeign.Valid := by
  constructor <;> decide

/-- A permission of a department that the member is not in grants a right. -/
theorem foreign_permission_grants :
    yard.Valid ∧ yardWithForeign.Valid ∧ memberOf yard 1 1 = some foreman ∧
      SameButForeign yard yardWithForeign foreman.departmentId ∧
      ¬ Allows yard ⟨1, some "user"⟩ ⟨"WORK_ORDER", .delete⟩ { workOrderId := some 1 } ∧
      Allows yardWithForeign ⟨1, some "user"⟩ ⟨"WORK_ORDER", .delete⟩
        { workOrderId := some 1 } := by
  have hProject : projectIdOf yard ⟨"WORK_ORDER", .delete⟩ { workOrderId := some 1 } = some 1 := rfl
  have hMember : memberOf yard 1 1 = some foreman := memberOf_foreman
  refine ⟨yard_valid, yardWithForeign_valid, hMember, ⟨rfl, rfl⟩, ?_, rfl⟩
  have hUser : (⟨1, some "user"⟩ : Viewer).role ≠ some "admin" := by decide
  rw [allows_iff_passes yard_valid hUser hProject hMember]
  decide

theorem department_scope_yard :
    DepartmentScoped yard ⟨1, some "user"⟩ ⟨"WORK_ORDER", .delete⟩ { workOrderId := some 1 }
        foreman.departmentId ↔
      ForeignRowsIgnored yard foreman ⟨"WORK_ORDER", .delete⟩ := by
  have hProject : projectIdOf yard ⟨"WORK_ORDER", .delete⟩ { workOrderId := some 1 } = some 1 := rfl
  exact department_scope yard_valid (by decide) hProject memberOf_foreman

end Yard

end Rooeel
