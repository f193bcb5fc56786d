import Rooeel.Access.Guard
import Rooeel.Project.View

/-!
# Two evaluators of the same rights

The work orders and the fields of a project can be read through resolvers behind the guard,
through the REST endpoint behind `assertCanViewWorkOrder`, and as part of `findOne`. The
last two use the access map; the guard picks its own rows.

`canAccess_accessMapFrom` and `passesGuard_view` say for both what decides, in rows. They
agree exactly when the rows do (`EvaluatorsAgree`).
-/

namespace Rooeel

open JavaScript

section Evaluators

variable [Runtime]

/-! ## The access map -/

theorem canAccess_accessMapFrom (permissions : List Permission)
    (policies : List DepartmentRolePolicy) {resource : String} (hKey : resource ≠ "")
    (hCanonical : isCanonical resource = true) (action : Action) :
    canAccess (accessMapFrom permissions policies) resource action =
      if decisiveRows permissions policies resource = [] then
        (defaultEntry permissions policies resource).any fun flags => flags.get action
      else (decisiveRows permissions policies resource).any fun flags => flags.get action := by
  rw [canAccess, normalizeResource_of_canonical hCanonical, get_accessMapFrom _ _ hKey]
  split
  · rename_i hNone
    rw [hNone]
    rfl
  · rename_i hSome
    rw [← mergeAll_grants]
    obtain ⟨flags, hFlags⟩ := Option.isSome_iff_exists.mp (mergeAll_isSome.mpr hSome)
    rw [hFlags, Option.some_or]

theorem hasPolicy_accessMapFrom (permissions : List Permission)
    (policies : List DepartmentRolePolicy) {resource : String} (hKey : resource ≠ "")
    (hCanonical : isCanonical resource = true) :
    ((accessMapFrom permissions policies).get (normalizeResource resource)).isSome = true ↔
      decisiveRows permissions policies resource ≠ [] ∨
        (defaultEntry permissions policies resource).isSome = true := by
  rw [normalizeResource_of_canonical hCanonical, get_accessMapFrom _ _ hKey, Option.isSome_or,
    Bool.or_eq_true, mergeAll_isSome]

/-- The rows that decide what a member may do with a resource, for the access map. -/
def ProjectUser.serviceRows (projectUser : ProjectUser) (s : Store) (resource : String) :
    List Flags :=
  decisiveRows (projectUser.membership.permissions s) (projectUser.membership.policies s) resource

/-- No role of the member has any row. -/
def ProjectUser.unrestricted (projectUser : ProjectUser) (s : Store) : Prop :=
  projectUser.membership.permissions s = [] ∧ projectUser.membership.policies s = []

/-- `rows` grant the view, or there are none and `otherwise` holds. -/
def Viewable (rows : List Flags) (otherwise : Prop) : Prop :=
  (rows = [] ∧ otherwise) ∨ ∃ flags ∈ rows, flags.canView = true

theorem canAccess_workOrder (projectUser : ProjectUser) (s : Store) :
    canAccess (projectUser.membership.accessMap s) "WORK_ORDER" .view = true ↔
      Viewable (projectUser.serviceRows s "WORK_ORDER") (projectUser.unrestricted s) := by
  have hDefault : "WORK_ORDER" ∈ defaultUserViewResources := by decide
  have hNotHardcoded : "WORK_ORDER" ∉ hardcodedTaskResources := by decide +kernel
  rw [Membership.accessMap, canAccess_accessMapFrom _ _ (by decide) (by decide +kernel)]
  unfold Viewable ProjectUser.serviceRows ProjectUser.unrestricted
  split
  · rename_i hNone
    rw [hNone]
    simp only [defaultEntry, hDefault, hNotHardcoded, and_true, if_false, true_and,
      List.not_mem_nil, false_and, exists_false, or_false]
    split
    · rename_i hEmpty
      exact iff_of_true rfl hEmpty
    · rename_i hRows
      exact iff_of_false Bool.false_ne_true hRows
  · rename_i hSome
    simp [hSome, Flags.get]

theorem viewerPolicy_workOrders (accessMap : AccessMap) :
    (viewerPolicy accessMap).canViewWorkOrders = canAccess accessMap "WORK_ORDER" .view := rfl

omit [Runtime] in
/-- The two resources of the fields have no entry of their own. -/
theorem defaultEntry_field (permissions : List Permission) (policies : List DepartmentRolePolicy)
    {resource : String} (hField : resource ∈ projectFieldResources) :
    defaultEntry permissions policies resource = none := by
  have hDefault : ∀ r ∈ projectFieldResources, r ∉ defaultUserViewResources := by decide
  have hHardcoded : ∀ r ∈ projectFieldResources, r ∉ hardcodedTaskResources := by decide +kernel
  simp [defaultEntry, hDefault resource hField, hHardcoded resource hField]

omit [Runtime] in
theorem field_canonical : ∀ r ∈ projectFieldResources, r ≠ "" ∧ isCanonical r = true := by
  decide +kernel

theorem canViewFields_iff (projectUser : ProjectUser) (s : Store) :
    (viewerPolicy (projectUser.membership.accessMap s)).canViewFields = true ↔
      Viewable (projectUser.serviceRows s "FIELD" ++ projectUser.serviceRows s "PROJECT_FIELD")
        True := by
  have hAccess : ∀ r ∈ projectFieldResources,
      (canAccess (projectUser.membership.accessMap s) r .view = true ↔
        ∃ flags ∈ projectUser.serviceRows s r, flags.canView = true) := by
    intro r hr
    obtain ⟨hKey, hCanonical⟩ := field_canonical r hr
    rw [Membership.accessMap, canAccess_accessMapFrom _ _ hKey hCanonical,
      defaultEntry_field _ _ hr]
    unfold ProjectUser.serviceRows
    split
    · rename_i hNone
      simp [hNone]
    · simp [Flags.get]
  have hDefined : ∀ r ∈ projectFieldResources,
      (((projectUser.membership.accessMap s).get (normalizeResource r)).isSome = true ↔
        projectUser.serviceRows s r ≠ []) := by
    intro r hr
    obtain ⟨hKey, hCanonical⟩ := field_canonical r hr
    rw [Membership.accessMap, hasPolicy_accessMapFrom _ _ hKey hCanonical,
      defaultEntry_field _ _ hr]
    simp [ProjectUser.serviceRows]
  have hField : "FIELD" ∈ projectFieldResources := by decide
  have hProjectField : "PROJECT_FIELD" ∈ projectFieldResources := by decide
  have hPolicy :
      hasPolicyForAnyResource (projectUser.membership.accessMap s) projectFieldResources = true ↔
        projectUser.serviceRows s "FIELD" ++ projectUser.serviceRows s "PROJECT_FIELD" ≠ [] := by
    have h₁ := hDefined _ hField
    have h₂ := hDefined _ hProjectField
    simp only [hasPolicyForAnyResource, projectFieldResources, List.any_cons, List.any_nil,
      Bool.or_false, Bool.or_eq_true, h₁, h₂, ne_eq, List.append_eq_nil_iff, not_and_or]
  simp only [viewerPolicy]
  split
  · rename_i hSome
    have hRows := hPolicy.mp hSome
    simp only [hasAccessForAnyResource, projectFieldResources, List.any_cons, List.any_nil,
      Bool.or_false, Bool.or_eq_true, hAccess _ hField, hAccess _ hProjectField]
    unfold Viewable
    simp only [hRows, false_and, false_or, List.mem_append, or_and_right, exists_or]
  · rename_i hNone
    have hRows := not_not.mp (mt hPolicy.mpr hNone)
    exact iff_of_true rfl (Or.inl ⟨hRows, trivial⟩)

/-! ## The guard -/

/-- The row that decides for the guard: the policy of the department role, else the first
permission of the project role. -/
def ProjectUser.guardRow (projectUser : ProjectUser) (s : Store) (resource : String) :
    Option Flags :=
  ((projectUser.policyFor s resource).map DepartmentRolePolicy.flags).or
    ((projectUser.permissionFor s resource).map Permission.flags)

/-- A resource that is visible by default and not about tasks. -/
theorem passesGuard_view (projectUser : ProjectUser) (s : Store) {resource : String}
    (hCanonical : isCanonical resource = true) (hDefault : resource ∈ defaultViewResources)
    (hTask : (PermissionMetadata.mk resource .view).isTaskResource = false) :
    projectUser.passesGuard s ⟨resource, .view⟩ = true ↔
      Viewable (projectUser.guardRow s resource).toList True := by
  have hKey : (PermissionMetadata.mk resource .view).resourceKey = resource :=
    toUpperCase_of_canonical hCanonical
  unfold ProjectUser.passesGuard ProjectUser.guardRow Viewable
  rw [hKey]
  cases projectUser.policyFor s resource with
  | some policy => simp [passes, hTask, Flags.get]
  | none =>
      cases projectUser.permissionFor s resource with
      | some permission => simp [passes, hTask, Flags.get]
      | none => simp [passes, hKey, hDefault]

omit [Runtime] in
theorem guarded_resources : ∀ resource ∈ ["WORK_ORDER", "PROJECT_FIELD"],
    isCanonical resource = true ∧ resource ∈ defaultViewResources ∧
      (PermissionMetadata.mk resource .view).isTaskResource = false := by
  decide +kernel

/-! ## Agreement -/

/-- The row of the guard and the rows of the access map lead to the same decision: by cases
on which of them exist. -/
def RowsAgree (guardRow : Option Flags) (serviceRows : List Flags) (unrestricted : Prop) : Prop :=
  match guardRow, serviceRows with
  | none, [] => unrestricted
  | some flags, [] => flags.canView = true ↔ unrestricted
  | none, row :: rows => ∃ flags ∈ row :: rows, flags.canView = true
  | some flags, row :: rows => flags.canView = true ↔ ∃ f ∈ row :: rows, f.canView = true

omit [Runtime] in
theorem rowsAgree_iff (guardRow : Option Flags) (serviceRows : List Flags) (unrestricted : Prop) :
    (Viewable guardRow.toList True ↔ Viewable serviceRows unrestricted) ↔
      RowsAgree guardRow serviceRows unrestricted := by
  cases guardRow with
  | none => cases serviceRows <;> simp [Viewable, RowsAgree]
  | some flags => cases serviceRows <;> simp [Viewable, RowsAgree]

/-- The rows about work orders, and those about fields, agree. -/
def EvaluatorsAgree (s : Store) (projectUser : ProjectUser) : Prop :=
  RowsAgree (projectUser.guardRow s "WORK_ORDER") (projectUser.serviceRows s "WORK_ORDER")
      (projectUser.unrestricted s) ∧
    RowsAgree (projectUser.guardRow s "PROJECT_FIELD")
      (projectUser.serviceRows s "FIELD" ++ projectUser.serviceRows s "PROJECT_FIELD") True

/-- The three ways to the work orders, and the two ways to the fields, are open to the same
users. -/
structure ReadPathsAgree (s : Store) (projectId : Id) (user : Viewer) (policy : ViewerPolicy) :
    Prop where
  stream : Allows s user ⟨"WORK_ORDER", .view⟩ { projectId := some projectId } ↔
    (assertCanViewWorkOrder projectId user).run s = (.ok true, s)
  workOrders : Allows s user ⟨"WORK_ORDER", .view⟩ { projectId := some projectId } ↔
    policy.canViewWorkOrders = true
  fields : Allows s user ⟨"PROJECT_FIELD", .view⟩ { projectId := some projectId } ↔
    policy.canViewFields = true

/-! ## The three paths of a member -/

variable {s : Store} {user : Viewer} {projectId : Id} {projectUser : ProjectUser}

theorem assertCanViewWorkOrder_iff (hRole : user.role ≠ some "admin") (hUser : user.userId ≠ 0)
    (hMember : memberOf s projectId user.userId = some projectUser) :
    (assertCanViewWorkOrder projectId user).run s = (.ok true, s) ↔
      canAccess (projectUser.membership.accessMap s) "WORK_ORDER" .view = true := by
  have hCheck : ∀ {e : Exn}, (Prog.throwIf (user.userId = 0) e).run s = (.ok (), s) := by
    simp [hUser]
  unfold assertCanViewWorkOrder
  rw [if_neg hRole, Prog.run_bind_ok hCheck, Prog.run_bind_ok (getProjectUserContext_run _ _ s),
    hMember]
  dsimp only [Option.map_some]
  cases canAccess (projectUser.membership.accessMap s) "WORK_ORDER" .view with
  | true => exact iff_of_true rfl rfl
  | false =>
      refine iff_of_false (fun hRun => ?_) Bool.false_ne_true
      cases congrArg Prod.fst hRun

omit [Runtime] in
theorem loadProject_member {project : Project}
    (hMember : memberOf s project.id user.userId = some projectUser) :
    (loadProject s project).users.find? (fun r => r.userId == user.userId) = some projectUser := by
  rw [← hMember]
  exact find_memberRows s project.id user.userId

theorem findOne_member {project : Project} (hProject : project ∈ s.project.rows)
    (hRole : user.role ≠ some "admin")
    (hMember : memberOf s project.id user.userId = some projectUser) :
    (findOne project.id (some user)).run s =
      (.ok ((loadProject s project).restrict (projectUser.membership.accessMap s)
        user.userId []), s) := by
  have hFind : prisma.project.findFirst (fun r => r.id == project.id) s = some project :=
    Table.find_eq_some.mpr ⟨hProject, rfl⟩
  have hView := loadProject_member hMember
  have hSelected : (projectUser.userId == user.userId) = true :=
    beq_iff_eq.mpr (memberOf_some hMember).2.2
  have hAssigned : (loadProject s project).users.any (fun r => r.userId == user.userId) = true :=
    List.any_eq_true.mpr ⟨projectUser, List.mem_of_find?_eq_some hView, hSelected⟩
  have hLoad : (query fun s => (prisma.project.findFirst (fun r => r.id == project.id) s).map
      (loadProject s)).run s = (.ok (some (loadProject s project)), s) := by
    rw [query, Prog.run_read, hFind, Option.map_some]
  have hViewer := nonAdmin_some hRole
  have hCheck : ∀ {e : Exn}, (Prog.throwIf
      ((loadProject s project).users.any (fun r => r.userId == user.userId) = false) e).run s =
        (.ok (), s) := by
    simp [hAssigned]
  unfold findOne
  rw [Prog.run_bind_ok hLoad]
  dsimp only
  rw [hViewer]
  dsimp only
  rw [Prog.run_bind_ok hCheck, applyViewerPolicyOnProject, hView]
  dsimp only
  rw [Prog.run_bind_ok (getAccessMapForProjectUser_run _ s)]
  rfl

/-- **When the read paths agree.** For a member that is not an admin: exactly when the row
that the guard picks and the rows behind the access map agree. -/
theorem read_paths_agree (hValid : s.Valid) {project : Project}
    (hProject : project ∈ s.project.rows) (hRole : user.role ≠ some "admin")
    (hMember : memberOf s project.id user.userId = some projectUser) :
    ∃ accessMap, (getAccessMapForProjectUser projectUser.membership).run s = (.ok accessMap, s) ∧
      (findOne project.id (some user)).run s =
        (.ok ((loadProject s project).restrict accessMap user.userId []), s) ∧
      (ReadPathsAgree s project.id user (viewerPolicy accessMap) ↔
        EvaluatorsAgree s projectUser) := by
  refine ⟨_, getAccessMapForProjectUser_run _ s, findOne_member hProject hRole hMember, ?_⟩
  have hUser : user.userId ≠ 0 := by
    obtain ⟨hMem, -, hId⟩ := memberOf_some hMember
    rw [← hId]
    exact Int.ne_of_gt (member_userId_pos hValid hMem)
  have hSet : isSet (some project.id) = true := isSet_of_pos (s.project.key_pos hProject)
  have hGuard : ∀ resource ∈ ["WORK_ORDER", "PROJECT_FIELD"],
      (Allows s user ⟨resource, .view⟩ { projectId := some project.id } ↔
        Viewable (projectUser.guardRow s resource).toList True) := by
    intro resource hResource
    obtain ⟨hCanonical, hDefault, hTask⟩ := guarded_resources resource hResource
    have hResolve : projectIdOf s ⟨resource, .view⟩ { projectId := some project.id } =
        some project.id := by
      rw [projectIdOf, if_pos hSet]
    rw [canActivate_iff hValid hRole hResolve hSet, hMember]
    simp only [Option.some.injEq, exists_eq_left']
    exact passesGuard_view projectUser s hCanonical hDefault hTask
  have hWorkOrders := hGuard "WORK_ORDER" (by decide)
  have hFields := hGuard "PROJECT_FIELD" (by decide)
  have hStream := assertCanViewWorkOrder_iff hRole hUser hMember
  have hAccess := canAccess_workOrder projectUser s
  have hPolicy := canViewFields_iff projectUser s
  have hWorkPolicy := viewerPolicy_workOrders (projectUser.membership.accessMap s)
  unfold EvaluatorsAgree
  rw [← rowsAgree_iff, ← rowsAgree_iff]
  constructor
  · intro h
    have hWork := h.workOrders
    rw [hWorkPolicy] at hWork
    exact ⟨hWorkOrders.symm.trans (hWork.trans hAccess),
      hFields.symm.trans (h.fields.trans hPolicy)⟩
  · rintro ⟨hRows, hFieldRows⟩
    have hSame := hWorkOrders.trans (hRows.trans hAccess.symm)
    refine ⟨hSame.trans hStream.symm, ?_, hFields.trans (hFieldRows.trans hPolicy.symm)⟩
    rw [hWorkPolicy]
    exact hSame

end Evaluators

section Site

attribute [local instance] asciiRuntime

theorem foreman_serviceRows : foreman.serviceRows site "WORK_ORDER" = [] := by decide

theorem foreman_restricted : ¬ foreman.unrestricted site := by
  rintro ⟨hPermissions, -⟩
  exact absurd hPermissions (by decide)

/-- The guard lets a member list the work orders that the endpoint refuses to serve: the
member's role has rights on tasks and says nothing about work orders. -/
theorem read_paths_disagree :
    site.Valid ∧ memberOf site 1 1 = some foreman ∧
      Allows site ⟨1, some "user"⟩ ⟨"WORK_ORDER", .view⟩ { projectId := some 1 } ∧
      (assertCanViewWorkOrder 1 ⟨1, some "user"⟩).run site ≠ (.ok true, site) := by
  refine ⟨site_valid, memberOf_foreman, rfl, ?_⟩
  rw [ne_eq, assertCanViewWorkOrder_iff (by decide) (by decide) memberOf_foreman,
    canAccess_workOrder, foreman_serviceRows]
  rintro (⟨-, hUnrestricted⟩ | ⟨flags, hMem, -⟩)
  · exact foreman_restricted hUnrestricted
  · cases hMem

theorem read_paths_agree_site :
    ∃ accessMap, (getAccessMapForProjectUser foreman.membership).run site = (.ok accessMap, site) ∧
      (findOne bridge.id (some ⟨1, some "user"⟩)).run site =
        (.ok ((loadProject site bridge).restrict accessMap 1 []), site) ∧
      (ReadPathsAgree site bridge.id ⟨1, some "user"⟩ (viewerPolicy accessMap) ↔
        EvaluatorsAgree site foreman) :=
  read_paths_agree site_valid bridge_mem (by decide) memberOf_foreman

end Site

end Rooeel
