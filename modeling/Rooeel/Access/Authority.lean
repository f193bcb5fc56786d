import Rooeel.Access.Policies

/-!
# What the policies of a department role decide

The map of a member is computed in four passes, and the order of the passes gives the
policies of the department role the last word: `get_of_policy` says that the row of a policy
is the entry, whatever the project role has, and `canPerform_of_no_row` that a hardcoded
resource without any row is refused, whatever the member may do with tasks.

The rows are those that the mutations can have stored. Their policies are unique for a role
and a resource and name resources canonically (`PolicyInv`), and they belong to department
roles that existed (`RolesExisted`).
-/

namespace Rooeel

open JavaScript Prog Table

/-! ## Policies of existing roles -/

/-- Keys are positive, and so is the key of the role of a policy. -/
def RolesExisted (s : Store) : Prop := ∀ p ∈ s.departmentRolePolicy.rows, 0 < p.departmentRoleId

/-- What a step does to the roles of policies. -/
def KeepsRoles (s s' : Store) : Prop := RolesExisted s → RolesExisted s'

namespace KeepsRoles

variable {s s' : Store}

theorem refl (s : Store) : KeepsRoles s s := id

/-- The policies are what they were, or fewer. -/
theorem of_sublist (h : s'.departmentRolePolicy.rows.Sublist s.departmentRolePolicy.rows) :
    KeepsRoles s s' :=
  fun hRoles p hp => hRoles p (h.subset hp)

theorem of_same (h : s'.departmentRolePolicy = s.departmentRolePolicy) : KeepsRoles s s' :=
  of_sublist (by rw [h])

theorem of_onlyRemoves (h : OnlyRemoves s s') : KeepsRoles s s' := by
  refine of_sublist ?_
  rcases h.2 with hSame | ⟨p, hErase⟩
  · rw [hSame]
  · rw [hErase]
    exact List.filter_sublist

/-- A policy is created for an existing role, and keeps its role. -/
theorem upsert {roleId : Id} {sel : DepartmentRolePolicy → Bool} {resource : String}
    {flags : Flags} {row : DepartmentRolePolicy}
    (hUpsert : prisma.departmentRolePolicy.upsert sel (fun r => { r with flags := flags })
      (fun id => { id, departmentRoleId := roleId, resource, flags })
      (fun _ => rfl) (fun _ => rfl) s = .ok (row, s')) : KeepsRoles s s' := by
  intro hRoles
  rcases Model.upsert_ok hUpsert with hUpdate | ⟨-, hCreate⟩
  · obtain ⟨r, hr, -, -, -, -, rfl⟩ := Model.update_ok hUpdate
    exact forall_modify _ (fun r : DepartmentRolePolicy => { r with flags := flags })
      (fun _ => rfl) hRoles fun x hx _ => hRoles x hx
  · obtain ⟨rfl, hRef, rfl⟩ := Model.create_ok hCreate
    have hPos : 0 < roleId := Table.pos_of_has hRef
    exact forall_insert
      (fun id => { id, departmentRoleId := roleId, resource := resource, flags := flags })
      (fun _ => rfl) hRoles hPos

end KeepsRoles

section Calls

variable [Runtime]

/-- Every step of the program is a `KeepsRoles`, whatever happens in between. -/
def RoleKeeping {α : Type} (p : Service α) : Prop := Guarantees (fun _ _ => True) KeepsRoles p

omit [Runtime] in
theorem roleKeeping_execute {α : Type} {f : Store → Except DbError (α × Store)}
    (h : ∀ s a s', f s = .ok (a, s') → KeepsRoles s s') : RoleKeeping (execute f) :=
  guarantees_atomic KeepsRoles.refl fun s a s' hf => h s a s' (execute_ok hf)

omit [Runtime] in
theorem roleKeeping_read {α : Type} (f : Store → Except Exn α) : RoleKeeping (Prog.read f) :=
  guarantees_read KeepsRoles.refl f

theorem roleKeeping_setPermission (roleId : Id) (resource : String) (departmentId : Option Id)
    (flags : Flags) : RoleKeeping (setPermission roleId resource departmentId flags) := by
  -- only the table of permissions is written
  have hUpdate {sel : Permission → Bool} {f : Permission → Permission} {hf} (s : Store)
      (row : Permission) (s' : Store) (h : prisma.permission.update sel f hf s = .ok (row, s')) :
      KeepsRoles s s' := by
    obtain ⟨-, -, -, -, -, -, rfl⟩ := Model.update_ok h
    exact .of_same rfl
  have hCreate {mk : Id → Permission} {hmk} (s : Store) (row : Permission) (s' : Store)
      (h : prisma.permission.create mk hmk s = .ok (row, s')) : KeepsRoles s s' := by
    obtain ⟨-, -, rfl⟩ := Model.create_ok h
    exact .of_same rfl
  refine guarantees_bind (guarantees_throwIf _ _) fun _ => ?_
  cases departmentId with
  | none =>
      refine guarantees_bind (roleKeeping_read _) fun existing => ?_
      cases existing with
      | none => exact roleKeeping_execute hCreate
      | some permission => exact roleKeeping_execute hUpdate
  | some department =>
      refine roleKeeping_execute fun s row s' h => ?_
      rcases Model.upsert_ok h with hOld | ⟨-, hNew⟩
      · exact hUpdate s row s' hOld
      · exact hCreate s row s' hNew

theorem roleKeeping_setDepartmentRolePolicy (roleId : Id) (resource : String) (flags : Flags) :
    RoleKeeping (setDepartmentRolePolicy roleId resource flags) := by
  refine guarantees_bind (roleKeeping_read _) fun _ => ?_
  refine guarantees_bind (guarantees_throwIf _ _) fun _ => ?_
  refine guarantees_bind (guarantees_throwIf _ _) fun _ => ?_
  exact roleKeeping_execute fun s row s' hUpsert => .upsert hUpsert

theorem PolicyCall.roleKeeping (call : PolicyCall) : RoleKeeping call.prog :=
  call.guarantees KeepsRoles.refl (fun _ _ hRemoves => .of_onlyRemoves hRemoves)
    roleKeeping_setPermission roleKeeping_setDepartmentRolePolicy

variable {ι : Type} [DecidableEq ι]

theorem RolesExisted.reach {s : Store} {calls : ι → PolicyCall} {c : Pool ι Store Exn Answer}
    (h : RolesExisted s)
    (hReach : Relation.ReflTransGen (Pool.Step OnlyRemoves) (policyCalls s calls) c) :
    RolesExisted c.state := by
  have hSafe : ∀ i, Safe (fun _ _ => True) KeepsRoles ((policyCalls s calls).proc i)
      (policyCalls s calls).state :=
    fun i => (calls i).roleKeeping s
  refine (Pool.invariant (fun _ => trivial) (fun _ _ _ _ _ => trivial) ?_ ?_ h hSafe hReach).2
  · exact fun s₁ s₂ hRoles hStep => ⟨trivial, hStep hRoles⟩
  · exact fun s₁ s₂ hRoles hRemoves => ⟨trivial, KeepsRoles.of_onlyRemoves hRemoves hRoles⟩

omit [Runtime] in
theorem NoPolicies.rolesExisted {s : Store} (h : NoPolicies s) : RolesExisted s := by
  intro p hp
  rw [h.policy] at hp
  cases hp

end Calls

/-! ## The entry of a policy, and of nothing -/

section Entries

variable [Runtime] {s : Store}

omit [Runtime] in
/-- The reader finds policies of the member's department role only. -/
theorem of_mem_policies {projectUser : Membership} {policy : DepartmentRolePolicy}
    (h : policy ∈ projectUser.policies s) :
    policy ∈ s.departmentRolePolicy.rows ∧
      some policy.departmentRoleId = projectUser.departmentRoleId := by
  unfold Membership.policies at h
  split at h
  · obtain ⟨hRow, hRole⟩ := List.mem_filter.mp h
    exact ⟨hRow, beq_iff_eq.mp hRole⟩
  · cases h

omit [Runtime] in
/-- The policies that the reader finds are those of the member's department role. -/
theorem mem_policies (hRoles : RolesExisted s) {projectUser : Membership}
    {policy : DepartmentRolePolicy} :
    policy ∈ projectUser.policies s ↔
      policy ∈ s.departmentRolePolicy.rows ∧
        some policy.departmentRoleId = projectUser.departmentRoleId := by
  refine ⟨of_mem_policies, ?_⟩
  rintro ⟨hRow, hRole⟩
  have hSet : isSet projectUser.departmentRoleId = true := by
    rw [← hRole]
    exact isSet_of_pos (hRoles policy hRow)
  rw [Membership.policies, if_pos hSet]
  exact List.mem_filter.mpr ⟨hRow, beq_iff_eq.mpr hRole⟩

/-- A policy of the member's department role is the entry of its resource. -/
theorem get_of_policy (hInv : PolicyInv s) (hRoles : RolesExisted s) {projectUser : Membership}
    {policy : DepartmentRolePolicy} (hRow : policy ∈ s.departmentRolePolicy.rows)
    (hRole : some policy.departmentRoleId = projectUser.departmentRoleId) :
    (projectUser.accessMap s).get policy.resource = some policy.flags := by
  have hMem := (mem_policies hRoles).mpr ⟨hRow, hRole⟩
  have hCanonical {r : DepartmentRolePolicy} (hr : r ∈ s.departmentRolePolicy.rows) :
      normalizeResource r.resource = r.resource :=
    normalizeResource_of_canonical (allowedPolicyResources_canonical _ (hInv.policy r hr).allowed)
  -- all policies that the loop applies to the resource are this one
  have hOnly : ∀ flags ∈ flagsFor DepartmentRolePolicy.resource DepartmentRolePolicy.flags
      policy.resource (projectUser.policies s), flags = policy.flags := by
    intro flags hFlags
    obtain ⟨r, hr, rfl⟩ := List.mem_map.mp hFlags
    obtain ⟨hPolicy, hName⟩ := List.mem_filter.mp hr
    obtain ⟨hOther, hOtherRole⟩ := (mem_policies hRoles).mp hPolicy
    rw [decide_eq_true_eq, hCanonical hOther] at hName
    have hSameRole := Option.some.inj (hOtherRole.trans hRole.symm)
    rw [hInv.eq_of_key hOther hRow hSameRole hName]
  have hThere : policy.flags ∈ flagsFor DepartmentRolePolicy.resource DepartmentRolePolicy.flags
      policy.resource (projectUser.policies s) :=
    List.mem_map_of_mem (List.mem_filter.mpr ⟨hMem, decide_eq_true (hCanonical hRow)⟩)
  have hPolicies : projectUser.policies s ≠ [] := List.ne_nil_of_mem hMem
  have hName : policy.resource ≠ "" := by
    intro hEmpty
    exact absurd (hEmpty ▸ (hInv.policy policy hRow).allowed) (by decide +kernel)
  rw [Membership.accessMap, get_accessMapFrom_policies _ hPolicies hName]
  cases hLast : (flagsFor DepartmentRolePolicy.resource DepartmentRolePolicy.flags
      policy.resource (projectUser.policies s)).getLast? with
  | none => rw [List.getLast?_eq_none_iff.mp hLast] at hThere; cases hThere
  | some flags =>
      rw [hOnly flags (List.mem_of_getLast? hLast)]
      rfl

/-- The row counts for a member with the role: it is for the whole project, or for the
department of the member. -/
def Membership.Applies (projectUser : Membership) (permission : Permission) : Prop :=
  some permission.projectRoleId = projectUser.projectRoleId ∧
    (permission.departmentId = none ∨ permission.departmentId = projectUser.departmentId)

instance (projectUser : Membership) (permission : Permission) :
    Decidable (projectUser.Applies permission) :=
  inferInstanceAs (Decidable (_ ∧ (_ ∨ _)))

omit [Runtime] in
theorem applies_of_mem_permissions {projectUser : Membership} {permission : Permission}
    (h : permission ∈ projectUser.permissions s) :
    permission ∈ s.permission.rows ∧ projectUser.Applies permission := by
  unfold Membership.permissions at h
  split at h
  · obtain ⟨hRow, hSelected⟩ := List.mem_filter.mp h
    simp only [Membership.selects, Bool.and_eq_true, Bool.or_eq_true, beq_iff_eq] at hSelected
    exact ⟨hRow, hSelected.1, hSelected.2.imp id And.right⟩
  · cases h

omit [Runtime] in
/-- A hardcoded resource is not among those that are visible by default. -/
theorem hardcoded_not_default {resource : String} (h : resource ∈ hardcodedTaskResources) :
    resource ∉ defaultUserViewResources := by
  have hApart : ∀ r ∈ defaultUserViewResources, r ∉ hardcodedTaskResources := by decide +kernel
  exact fun hDefault => hApart resource hDefault h

/-- Rows about other resources contribute nothing. -/
theorem flagsFor_eq_nil {ρ : Type} {name : ρ → String} {flags : ρ → Flags} {rows : List ρ}
    {resource : String} (hProper : ∀ r ∈ rows, Proper (name r) (flags r))
    (hNames : ∀ r ∈ rows, name r ≠ resource) : flagsFor name flags resource rows = [] := by
  rw [flagsFor, List.map_eq_nil_iff, List.filter_eq_nil_iff]
  intro r hr hName
  have hAllowed := allowedPolicyResources_canonical _ (hProper r hr).allowed
  rw [decide_eq_true_eq, normalizeResource_of_canonical hAllowed] at hName
  exact hNames r hr hName

/-- A hardcoded resource that no row is about has an entry without any flag, and the entry is
what counts: no action on it is left to the entry of tasks. -/
theorem canPerform_of_no_row (hInv : PolicyInv s) {projectUser : Membership} {resource : String}
    (hTask : resource ∈ hardcodedTaskResources)
    (hPolicies : ∀ policy ∈ s.departmentRolePolicy.rows,
      some policy.departmentRoleId = projectUser.departmentRoleId → policy.resource ≠ resource)
    (hPermissions : ∀ permission ∈ s.permission.rows, projectUser.Applies permission →
      permission.resource ≠ resource) (action : Action) :
    canPerformTaskResourceAction (projectUser.accessMap s) resource action = false := by
  have hCanonical := hardcodedTaskResources_canonical hTask
  have hEmpty : resource ≠ "" := hardcodedTaskResources_ne_empty hTask
  have hOther : resource ≠ "TASK" := fun hEq => task_ne_hardcoded (hEq ▸ hTask)
  have hNoPolicy : flagsFor DepartmentRolePolicy.resource DepartmentRolePolicy.flags resource
      (projectUser.policies s) = [] := by
    refine flagsFor_eq_nil (projectUser.policies_proper hInv) fun policy hPolicy => ?_
    obtain ⟨hRow, hRole⟩ := of_mem_policies hPolicy
    exact hPolicies policy hRow hRole
  have hNoPermission : flagsFor Permission.resource Permission.flags resource
      (projectUser.permissions s) = [] := by
    refine flagsFor_eq_nil (projectUser.permissions_proper hInv) fun permission hPermission => ?_
    obtain ⟨hRow, hApplies⟩ := applies_of_mem_permissions hPermission
    exact hPermissions permission hRow hApplies
  have hGet : (projectUser.accessMap s).get resource = some {} := by
    have hNone :
        decisiveRows (projectUser.permissions s) (projectUser.policies s) resource = [] := by
      rw [decisiveRows, hNoPolicy, hNoPermission]
      split <;> rfl
    rw [Membership.accessMap, get_accessMapFrom _ _ hEmpty, hNone, defaultEntry,
      if_neg fun h => hardcoded_not_default hTask h.2.2, if_pos hTask]
    rfl
  rw [canPerform_canonical _ hCanonical hEmpty hOther, hGet]
  cases action <;> rfl

end Entries

/-! ## All stored rows -/

/-- **The policy of the department role decides, and nothing grants a hardcoded resource but a
row about it**, in every state of every interleaving of the four mutations, with deletions by
other operations in between. -/
theorem policies_authoritative [Runtime] {ι : Type} [DecidableEq ι] {s : Store}
    (hStart : NoPolicies s) (calls : ι → PolicyCall) {c : Pool ι Store Exn Answer}
    (hReach : Relation.ReflTransGen (Pool.Step OnlyRemoves) (policyCalls s calls) c)
    (projectUser : Membership) :
    ∃ accessMap : AccessMap,
      (getAccessMapForProjectUser projectUser).run c.state = (.ok accessMap, c.state) ∧
      (∀ policy ∈ c.state.departmentRolePolicy.rows,
        some policy.departmentRoleId = projectUser.departmentRoleId →
        accessMap.get policy.resource = some policy.flags) ∧
      ∀ resource ∈ hardcodedTaskResources,
        (∀ policy ∈ c.state.departmentRolePolicy.rows,
          some policy.departmentRoleId = projectUser.departmentRoleId →
          policy.resource ≠ resource) →
        (∀ permission ∈ c.state.permission.rows, projectUser.Applies permission →
          permission.resource ≠ resource) →
        ∀ action, canPerformTaskResourceAction accessMap resource action = false := by
  have hInv := hStart.inv.reach hReach
  have hRoles := hStart.rolesExisted.reach hReach
  refine ⟨_, getAccessMapForProjectUser_run projectUser c.state, ?_, ?_⟩
  · exact fun policy hRow hRole => get_of_policy hInv hRoles hRow hRole
  · exact fun resource hTask hPolicies hPermissions action =>
      canPerform_of_no_row hInv hTask hPolicies hPermissions action

section Site

attribute [local instance] asciiRuntime

/-- The role has all rights on tasks, and surveyors are denied the folders of drawings: they
have the denial that is stored, and no right on the registers, which no row is about. -/
theorem policies_authoritative_ungranted :
    ∃ accessMap : AccessMap,
      (getAccessMapForProjectUser surveyor).run (grantPool.play [0, 0, 1, 1]).state =
        (.ok accessMap, (grantPool.play [0, 0, 1, 1]).state) ∧
      accessMap.get "DRAWING_VIEW_FOLDERS" = some {} ∧
      canAccess accessMap "TASK" .view = true ∧
      canPerformTaskResourceAction accessMap "DRAWING_VIEW_REGISTERS" .view = false := by
  have hReach : Relation.ReflTransGen (Pool.Step OnlyRemoves) grantPool
      (grantPool.play [0, 0, 1, 1]) :=
    Pool.reach_of_exec (Pool.reach_play grantPool [0, 0, 1, 1])
  have hRoles := noPolicies_ungranted.rolesExisted.reach hReach
  have hRow : ⟨1, 1, "DRAWING_VIEW_FOLDERS", {}⟩ ∈
      (grantPool.play [0, 0, 1, 1]).state.departmentRolePolicy.rows := by
    decide +kernel
  obtain ⟨accessMap, hMap, hPolicy, hDenied⟩ :=
    policies_authoritative noPolicies_ungranted _ hReach surveyor
  refine ⟨accessMap, hMap, ?_, ?_, ?_⟩
  · exact hPolicy _ hRow rfl
  · rw [getAccessMapForProjectUser_run] at hMap
    rw [← Except.ok.inj (Prod.mk.inj hMap).1,
      canAccess_task (List.ne_nil_of_mem ((mem_policies hRoles).mpr ⟨hRow, rfl⟩))]
    decide +kernel
  · exact hDenied "DRAWING_VIEW_REGISTERS" (by decide +kernel) (by decide +kernel)
      (by decide +kernel) .view

end Site

end Rooeel
