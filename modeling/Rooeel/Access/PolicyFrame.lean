import Rooeel.Access.Policies

/-!
# What a policy write leaves alone

Each of the four mutations on permissions and policies writes one row, of one role.
`PolicyCall.writes` names that role, and for a permission the department it is for. All
other rows are read back in the order in which they were (`ConfinedTo`), so a membership
that the written row does not concern has the rights it had.
-/

namespace Rooeel

open JavaScript Prog Table

/-! ## The role of a row -/

/-- The role that a row belongs to, with the department of a permission. -/
inductive RowRole where
  | permission (projectRoleId : Id) (departmentId : Option Id)
  | policy (departmentRoleId : Id)
  deriving DecidableEq

def Permission.role (r : Permission) : RowRole := .permission r.projectRoleId r.departmentId

def DepartmentRolePolicy.role (r : DepartmentRolePolicy) : RowRole := .policy r.departmentRoleId

/-- The membership refers to the role, and a permission is for every department or for the
department of the membership. -/
def RowRole.Concerns (projectUser : Membership) : RowRole → Prop
  | .permission projectRoleId departmentId =>
      projectUser.projectRoleId = some projectRoleId ∧
        (departmentId = none ∨ projectUser.departmentId = departmentId)
  | .policy departmentRoleId => projectUser.departmentRoleId = some departmentRoleId

/-- The role of the row that the call writes; `none` when the row to be removed is not there. -/
def PolicyCall.writes (s : Store) : PolicyCall → Option RowRole
  | .setPermission roleId _ departmentId _ => some (.permission roleId departmentId)
  | .setDepartmentRolePolicy roleId _ _ => some (.policy roleId)
  | .removePermission id => (s.permission.find id).map Permission.role
  | .removeDepartmentRolePolicy id => (s.departmentRolePolicy.find id).map DepartmentRolePolicy.role

/-! ## Rows of other roles -/

/-- The rows of other roles are what they were, in the same order. -/
structure ConfinedTo (target : Option RowRole) (s s' : Store) : Prop where
  permission : ∀ q : Permission → Bool, (∀ r, target = some r.role → q r = false) →
    s'.permission.rows.filter q = s.permission.rows.filter q
  policy : ∀ q : DepartmentRolePolicy → Bool, (∀ r, target = some r.role → q r = false) →
    s'.departmentRolePolicy.rows.filter q = s.departmentRolePolicy.rows.filter q

namespace ConfinedTo

variable {target : Option RowRole} {s s' : Store}

theorem refl (target : Option RowRole) (s : Store) : ConfinedTo target s s :=
  ⟨fun _ _ => rfl, fun _ _ => rfl⟩

/-- A row that differs is of the role. -/
theorem touched_role {ρ : Type} [Row ρ] [DecidableEq ρ] {t t' : Table ρ} {role : ρ → RowRole}
    (h : ∀ q : ρ → Bool, (∀ r, target = some (role r) → q r = false) →
      t'.rows.filter q = t.rows.filter q) {r : ρ} (hTouched : Touched t t' r) :
    target = some (role r) := by
  by_contra hOther
  have hSame : r ∈ t'.rows ↔ r ∈ t.rows := by
    have hFilter := h (fun x => decide (x = r)) fun x hRole =>
      decide_eq_false fun hEq => hOther (hEq ▸ hRole)
    have hKept (rows : List ρ) : r ∈ rows.filter (fun x => decide (x = r)) ↔ r ∈ rows := by
      simp
    rw [← hKept t'.rows, hFilter, hKept]
  rcases hTouched with ⟨hOld, hGone⟩ | ⟨hNew, hMissing⟩
  · exact hGone (hSame.mpr hOld)
  · exact hMissing (hSame.mp hNew)

/-- The reader selects no row of a role that does not concern the membership. -/
theorem accessMap_eq [Runtime] (h : ConfinedTo target s s') {projectUser : Membership}
    (hApart : ∀ role, target = some role → ¬ role.Concerns projectUser) :
    projectUser.accessMap s' = projectUser.accessMap s := by
  have hPermissions : projectUser.permissions s' = projectUser.permissions s := by
    simp only [Membership.permissions]
    rw [h.permission]
    intro r hRole
    by_contra hSelects
    rw [Bool.not_eq_false] at hSelects
    simp only [Membership.selects, Bool.and_eq_true, Bool.or_eq_true, beq_iff_eq] at hSelects
    refine hApart _ hRole ⟨hSelects.1.symm, ?_⟩
    rcases hSelects.2 with hAll | ⟨-, hDepartment⟩
    · exact Or.inl hAll
    · exact Or.inr hDepartment.symm
  have hPolicies : projectUser.policies s' = projectUser.policies s := by
    simp only [Membership.policies]
    rw [h.policy]
    intro r hRole
    by_contra hSelects
    rw [Bool.not_eq_false, beq_iff_eq] at hSelects
    exact hApart _ hRole hSelects.symm
  rw [Membership.accessMap, Membership.accessMap, hPermissions, hPolicies]

/-- A statement on permissions. -/
theorem of_permission (hPolicy : s'.departmentRolePolicy = s.departmentRolePolicy)
    (h : ∀ q : Permission → Bool, (∀ r, target = some r.role → q r = false) →
      s'.permission.rows.filter q = s.permission.rows.filter q) : ConfinedTo target s s' :=
  ⟨h, fun _ _ => by rw [hPolicy]⟩

/-- A statement on policies. -/
theorem of_policy (hPermission : s'.permission = s.permission)
    (h : ∀ q : DepartmentRolePolicy → Bool, (∀ r, target = some r.role → q r = false) →
      s'.departmentRolePolicy.rows.filter q = s.departmentRolePolicy.rows.filter q) :
    ConfinedTo target s s' :=
  ⟨fun _ _ => by rw [hPermission], h⟩

end ConfinedTo

/-! ## The four mutations -/

section Calls

variable [Runtime] {s : Store}

theorem setPermission_confined (roleId : Id) (resource : String) (departmentId : Option Id)
    (flags : Flags) :
    (setPermission roleId resource departmentId flags).wp
      (Outcome s fun _ s' => ConfinedTo (some (.permission roleId departmentId)) s s') s := by
  refine outcome_bind reads_throwIf fun _ _ => ?_
  cases departmentId with
  | none =>
      refine outcome_bind (reads_findUnique _ _) fun existing hExisting => ?_
      cases existing with
      | some permission =>
          obtain ⟨hMem, hSel⟩ := Model.findFirst_some hExisting.symm
          simp only [Bool.and_eq_true, beq_iff_eq] at hSel
          refine outcome_execute fun row s' hUpdate => .of_permission ?_ fun q hq => ?_
          · obtain ⟨-, -, -, -, -, -, rfl⟩ := Model.update_ok hUpdate
            rfl
          · refine Model.filter_update hUpdate fun r hr hId => ?_
            -- the row that was found has the role, before and after
            obtain rfl : r = permission := s.permission.key_inj hr hMem (beq_iff_eq.mp hId)
            have hRole : r.role = .permission roleId none := by
              rw [Permission.role, hSel.1.1, hSel.2]
            exact ⟨hq r (congrArg some hRole.symm), hq _ (congrArg some hRole.symm)⟩
      | none =>
          refine outcome_execute fun row s' hCreate => .of_permission ?_ fun q hq => ?_
          · obtain ⟨-, -, rfl⟩ := Model.create_ok hCreate
            rfl
          · exact Model.filter_create hCreate fun k => hq _ rfl
  | some department =>
      refine outcome_execute fun row s' hUpsert => .of_permission ?_ fun q hq => ?_
      · rcases Model.upsert_ok hUpsert with hUpdate | ⟨-, hCreate⟩
        · obtain ⟨-, -, -, -, -, -, rfl⟩ := Model.update_ok hUpdate
          rfl
        · obtain ⟨-, -, rfl⟩ := Model.create_ok hCreate
          rfl
      · refine Model.filter_upsert hUpsert (fun r _ hSel => ?_) fun k => hq _ rfl
        simp only [Bool.and_eq_true, beq_iff_eq] at hSel
        have hRole : r.role = .permission roleId (some department) := by
          rw [Permission.role, hSel.1.1, hSel.1.2]
        exact ⟨hq r (congrArg some hRole.symm), hq _ (congrArg some hRole.symm)⟩

theorem setDepartmentRolePolicy_confined (roleId : Id) (resource : String) (flags : Flags) :
    (setDepartmentRolePolicy roleId resource flags).wp
      (Outcome s fun _ s' => ConfinedTo (some (.policy roleId)) s s') s := by
  refine outcome_mono (setDepartmentRolePolicy_outcome s roleId resource flags) ?_
  rintro row s' ⟨-, -, hUpsert⟩
  refine .of_policy (stores_upsert hUpsert).permission fun q hq => ?_
  refine Model.filter_upsert hUpsert (fun r _ hSel => ?_) fun k => hq _ rfl
  simp only [Bool.and_eq_true, beq_iff_eq] at hSel
  have hRole : r.role = .policy roleId := congrArg RowRole.policy hSel.1
  exact ⟨hq r (congrArg some hRole.symm), hq _ (congrArg some hRole.symm)⟩

omit [Runtime] in
/-- A row that is removed by its key. -/
theorem outcome_removeById {ρ : Type} [Row ρ] {m : Model Store ρ} {id : Id}
    {P : Bool → Store → Prop}
    (h : ∀ r, (m.table s).find id = some r → P true (m.erase (fun x => Row.key x == id) s)) :
    (do
      let _row ← findUniqueOrThrow m id
      let _deleted ← delete m fun r => Row.key r == id
      pure true : Service Bool).wp (Outcome s P) s := by
  refine outcome_bind (reads_findUniqueOrThrow m id) fun row hRow => ?_
  refine outcome_map (outcome_execute fun deleted s' hDelete => ?_)
  obtain ⟨-, hKey, rfl⟩ := Model.delete_ok hDelete
  rw [beq_iff_eq.mp hKey]
  exact h row hRow

/-- A mutation writes rows of its role only. -/
theorem PolicyCall.confined (call : PolicyCall) :
    call.prog.wp (Outcome s fun _ s' => ConfinedTo (call.writes s) s s') s := by
  cases call with
  | setPermission roleId resource departmentId flags =>
      exact outcome_map (setPermission_confined roleId resource departmentId flags)
  | setDepartmentRolePolicy roleId resource flags =>
      exact outcome_map (setDepartmentRolePolicy_confined roleId resource flags)
  | removePermission id =>
      refine outcome_map (outcome_removeById fun r hFind => .of_permission rfl fun q hq => ?_)
      refine filter_erase_of_not fun x hx hKey => hq x ?_
      have hFound : s.permission.find id = some x := find_eq_some.mpr ⟨hx, beq_iff_eq.mp hKey⟩
      rw [PolicyCall.writes, hFound, Option.map_some]
  | removeDepartmentRolePolicy id =>
      refine outcome_map (outcome_removeById fun r hFind => .of_policy rfl fun q hq => ?_)
      refine filter_erase_of_not fun x hx hKey => hq x ?_
      have hFound : s.departmentRolePolicy.find id = some x :=
        find_eq_some.mpr ⟨hx, beq_iff_eq.mp hKey⟩
      rw [PolicyCall.writes, hFound, Option.map_some]

/-- **A policy write is local to its role.** The rows that a mutation creates, changes or
removes are of one role, and the access map of a membership that they do not concern is what
it was. -/
theorem policy_writes_local {s s' : Store} {call : PolicyCall} {result : Except Exn Answer}
    (hRun : call.prog.run s = (result, s')) :
    (∀ r, Touched s.permission s'.permission r → call.writes s = some r.role) ∧
    (∀ r, Touched s.departmentRolePolicy s'.departmentRolePolicy r →
      call.writes s = some r.role) ∧
    ∀ projectUser : Membership,
      (∀ role, call.writes s = some role → ¬ role.Concerns projectUser) →
      ∃ accessMap, (getAccessMapForProjectUser projectUser).run s = (.ok accessMap, s) ∧
        (getAccessMapForProjectUser projectUser).run s' = (.ok accessMap, s') := by
  have hConfined : ConfinedTo (call.writes s) s s' := by
    have hOutcome := (Prog.wp_of_run hRun).mp (PolicyCall.confined (s := s) call)
    cases result with
    | ok answer => exact hOutcome
    | error e =>
        rw [show s' = s from hOutcome]
        exact .refl _ s
  refine ⟨fun r => ConfinedTo.touched_role hConfined.permission,
    fun r => ConfinedTo.touched_role hConfined.policy, fun projectUser hApart => ?_⟩
  refine ⟨projectUser.accessMap s, getAccessMapForProjectUser_run projectUser s, ?_⟩
  rw [getAccessMapForProjectUser_run, hConfined.accessMap_eq hApart]

end Calls

section Site

attribute [local instance] asciiRuntime

/-- A permission for the department is written for the role of the foreman, who is in no
department. -/
theorem policy_writes_local_ungranted :
    ∃ s', ((PolicyCall.setPermission 1 "task" (some 1) {}).prog.run ungranted).2 = s' ∧
      s'.permission.rows.map Permission.role = [.permission 1 (some 1)] ∧
      ∃ accessMap, (getAccessMapForProjectUser foreman.membership).run ungranted =
          (.ok accessMap, ungranted) ∧
        (getAccessMapForProjectUser foreman.membership).run s' = (.ok accessMap, s') := by
  refine ⟨_, rfl, by decide +kernel, ?_⟩
  refine (policy_writes_local rfl).2.2 foreman.membership fun role hRole hConcerns => ?_
  obtain rfl := Option.some.inj hRole
  rcases hConcerns.2 with hAll | hDepartment
  · cases hAll
  · cases hDepartment

end Site

end Rooeel
