import Rooeel.Access.DepartmentScope
import Rooeel.Access.Policies
import Mathlib.Data.List.Perm.Basic

/-!
# The order of the rows

Neither the access map nor the guard asks the database for an order of the permission rows,
and several rows of a role can be about one resource: one for the whole project and one for
each department.

Without policies on the department role the map merges these rows, which no order can change
(`mergeAll_perm`). With policies it takes the first row about each resource that is left, and
the guard takes the first one too, of any department. Both answers are independent of the
order exactly when the rows agree on what is read from them (`fallback_faithful`,
`guard_order_independent`).
-/

namespace Rooeel

open JavaScript

/-! ## Merging rows -/

theorem Flags.merge_comm (a b : Flags) : a.merge b = b.merge a := by
  simp only [Flags.merge, Bool.or_comm]

theorem Flags.merge_assoc (a b c : Flags) : (a.merge b).merge c = a.merge (b.merge c) := by
  simp only [Flags.merge, Bool.or_assoc]

theorem Flags.merge_self (a : Flags) : a.merge a = a := by
  simp only [Flags.merge, Bool.or_self]

/-- Merged flags do not depend on the order of the rows. -/
theorem mergeAll_perm {rows rows' : List Flags} (h : rows.Perm rows') :
    mergeAll rows = mergeAll rows' := by
  have hRight : RightCommutative Flags.merge := by
    refine ⟨fun a b c => ?_⟩
    rw [Flags.merge_assoc, Flags.merge_comm b c, ← Flags.merge_assoc]
  cases rows with
  | nil => rw [h.nil_eq]
  | cons f fs =>
      cases rows' with
      | nil => exact absurd h.symm.nil_eq (by simp)
      | cons g gs =>
          have hFold := h.foldl_eq (f := Flags.merge) {}
          simp only [mergeAll, hFold]

/-- Rows that agree merge to what they agree on. -/
theorem mergeAll_of_forall_eq {rows : List Flags} {flags : Flags} (hMem : flags ∈ rows)
    (h : ∀ f ∈ rows, f = flags) : mergeAll rows = some flags := by
  induction rows using List.reverseRecOn with
  | nil => cases hMem
  | append_singleton rest last ih =>
      rw [mergeAll_append_singleton, h last (by simp)]
      have hRest : ∀ f ∈ rest, f = flags := fun f hf => h f (List.mem_append_left _ hf)
      cases rest with
      | nil => simp [mergeAll, Flags.merge]
      | cons f fs =>
          rw [ih (by rw [hRest f List.mem_cons_self]; exact List.mem_cons_self) hRest]
          rw [Option.getD_some, Flags.merge_self]

/-- The first row stands for all when they agree. -/
theorem head?_eq_mergeAll {rows : List Flags} (h : ∀ f ∈ rows, ∀ g ∈ rows, f = g) :
    rows.head? = mergeAll rows := by
  cases rows with
  | nil => rfl
  | cons f rest =>
      have hFirst : ∀ g ∈ f :: rest, g = f := fun g hg => h g hg f List.mem_cons_self
      rw [mergeAll_of_forall_eq List.mem_cons_self hFirst]
      rfl

/-! ## Other orders -/

/-- The permissions come in another order. -/
def ReorderedPermissions (s s' : Store) : Prop :=
  ∃ permission : Table Permission, s.permission.Reordered permission ∧
    s' = { s with permission := permission }

/-- The permissions and the policies come in another order. -/
def Reordered (s s' : Store) : Prop :=
  ∃ (permission : Table Permission) (policy : Table DepartmentRolePolicy),
    s.permission.Reordered permission ∧ s.departmentRolePolicy.Reordered policy ∧
    s' = { s with permission := permission, departmentRolePolicy := policy }

theorem ReorderedPermissions.reordered {s s' : Store} (h : ReorderedPermissions s s') :
    Reordered s s' := by
  obtain ⟨permission, hPermission, rfl⟩ := h
  exact ⟨permission, s.departmentRolePolicy, hPermission, .refl _, rfl⟩

/-- Every permission is the first one in some order. -/
theorem reorderedPermissions_first {s : Store} {p : Permission} (h : p ∈ s.permission.rows) :
    ∃ s', ReorderedPermissions s s' ∧ ∃ rest, s'.permission.rows = p :: rest := by
  obtain ⟨permission, hReordered, rest, hRows⟩ := Table.reordered_first h
  exact ⟨_, ⟨permission, hReordered, rfl⟩, rest, hRows⟩

section Map

variable [Runtime] {s s' : Store} {projectUser : Membership} {resource : String}

/-- The flags of the permissions about a resource that apply to the member. -/
def Membership.permissionFlags (projectUser : Membership) (s : Store) (resource : String) :
    List Flags :=
  flagsFor Permission.resource Permission.flags resource (projectUser.permissions s)

/-- The store in which the member's department role has no policies. -/
def Membership.withoutPolicies (projectUser : Membership) (s : Store) : Store :=
  erasePolicies (fun r => some r.departmentRoleId == projectUser.departmentRoleId) s

omit [Runtime] in
theorem policies_withoutPolicies : projectUser.policies (projectUser.withoutPolicies s) = [] := by
  unfold Membership.policies
  split
  · refine List.filter_eq_nil_iff.mpr fun r hr hRole => ?_
    have hOther := (Table.mem_erase.mp hr).2
    rw [hRole] at hOther
    cases hOther
  · rfl

omit [Runtime] in
theorem permissions_perm (h : Reordered s s') :
    (projectUser.permissions s').Perm (projectUser.permissions s) := by
  obtain ⟨permission, policy, hPermission, -, rfl⟩ := h
  unfold Membership.permissions
  split
  · exact hPermission.rows.filter _
  · exact .refl _

omit [Runtime] in
theorem policies_perm (h : Reordered s s') :
    (projectUser.policies s').Perm (projectUser.policies s) := by
  obtain ⟨permission, policy, -, hPolicy, rfl⟩ := h
  unfold Membership.policies
  split
  · exact hPolicy.rows.filter _
  · exact .refl _

theorem permissionFlags_perm (h : Reordered s s') :
    (projectUser.permissionFlags s' resource).Perm (projectUser.permissionFlags s resource) :=
  ((permissions_perm h).filter _).map _

/-- When the permissions about the resource agree, so do their flags in every order. -/
theorem permissionFlags_agree (h : Reordered s s')
    (hAgree : ∀ p ∈ projectUser.permissions s, ∀ q ∈ projectUser.permissions s,
      normalizeResource p.resource = resource → normalizeResource q.resource = resource →
      p.flags = q.flags) :
    ∀ f ∈ projectUser.permissionFlags s' resource,
      ∀ g ∈ projectUser.permissionFlags s' resource, f = g := by
  have hRow : ∀ f ∈ projectUser.permissionFlags s' resource,
      ∃ p ∈ projectUser.permissions s, normalizeResource p.resource = resource ∧
        p.flags = f := by
    intro f hf
    obtain ⟨p, hp, hFlags⟩ := List.mem_map.mp hf
    obtain ⟨hMem, hpName⟩ := List.mem_filter.mp hp
    exact ⟨p, (permissions_perm h).mem_iff.mp hMem, of_decide_eq_true hpName, hFlags⟩
  intro f hf g hg
  obtain ⟨p, hp, hpName, rfl⟩ := hRow f hf
  obtain ⟨q, hq, hqName, rfl⟩ := hRow g hg
  exact hAgree p hp q hq hpName hqName

/-- In some order the flags of an applicable row come first. -/
theorem permissionFlags_first {p : Permission} (hp : p ∈ projectUser.permissions s)
    (hName : normalizeResource p.resource = resource) :
    ∃ s', Reordered s s' ∧ (projectUser.permissionFlags s' resource).head? = some p.flags := by
  unfold Membership.permissions at hp
  split at hp
  · rename_i hSet
    obtain ⟨hRow, hSelects⟩ := List.mem_filter.mp hp
    obtain ⟨s', hReordered, rest, hRows⟩ := reorderedPermissions_first hRow
    refine ⟨s', hReordered.reordered, ?_⟩
    rw [Membership.permissionFlags, Membership.permissions, if_pos hSet, hRows,
      List.filter_cons_of_pos hSelects]
    simp [flagsFor, hName]
  · cases hp

/-- With policies about other resources, the first applicable row is the entry. -/
theorem get_accessMap_fallback (hPolicies : projectUser.policies s ≠ [])
    (hUnnamed : ∀ p ∈ projectUser.policies s, normalizeResource p.resource ≠ resource)
    (hName : resource ≠ "") :
    (projectUser.accessMap s).get resource =
      (projectUser.permissionFlags s resource).head?.or
        (if resource ∈ hardcodedTaskResources then some {} else none) := by
  have hNone : flagsFor DepartmentRolePolicy.resource DepartmentRolePolicy.flags resource
      (projectUser.policies s) = [] := by
    rw [flagsFor, List.map_eq_nil_iff, List.filter_eq_nil_iff]
    exact fun p hp hSame => hUnnamed p hp (of_decide_eq_true hSame)
  rw [Membership.accessMap, get_accessMapFrom_policies _ hPolicies hName, hNone,
    List.getLast?_nil, Option.none_or]
  rfl

/-- Without policies, all applicable rows are merged. -/
theorem get_accessMap_merged (hPermissions : projectUser.permissions s ≠ [])
    (hName : resource ≠ "") :
    (projectUser.accessMap (projectUser.withoutPolicies s)).get resource =
      (mergeAll (projectUser.permissionFlags s resource)).or
        (if resource ∈ hardcodedTaskResources then some {} else none) := by
  have hSame : projectUser.permissions (projectUser.withoutPolicies s) =
      projectUser.permissions s := rfl
  rw [Membership.accessMap, policies_withoutPolicies, hSame, get_accessMapFrom _ _ hName,
    decisiveRows, if_neg (not_not.mpr rfl), defaultEntry, if_neg fun h => hPermissions h.1]
  rfl

omit [Runtime] in
/-- The first row and all rows together give the same entry. -/
theorem first_eq_merged_iff {rows : List Flags} {d : Option Flags} :
    rows.head?.or d = (mergeAll rows).or d ↔ rows.head? = mergeAll rows := by
  cases rows with
  | nil => exact iff_of_true rfl rfl
  | cons f fs => exact Iff.rfl

/-- In one order, the entry is the one without policies when the first row is. -/
theorem fallback_eq_iff (hPolicies : projectUser.policies s ≠ [])
    (hPermissions : projectUser.permissions s ≠ []) (hName : resource ≠ "")
    (hUnnamed : ∀ p ∈ projectUser.policies s, normalizeResource p.resource ≠ resource)
    (h : Reordered s s') :
    (projectUser.accessMap s').get resource =
        (projectUser.accessMap (projectUser.withoutPolicies s')).get resource ↔
      (projectUser.permissionFlags s' resource).head? =
        mergeAll (projectUser.permissionFlags s' resource) := by
  have hPolicies' : projectUser.policies s' ≠ [] :=
    fun hNone => hPolicies (List.perm_nil.mp (hNone ▸ (policies_perm h).symm))
  have hPermissions' : projectUser.permissions s' ≠ [] :=
    fun hNone => hPermissions (List.perm_nil.mp (hNone ▸ (permissions_perm h).symm))
  have hUnnamed' : ∀ p ∈ projectUser.policies s', normalizeResource p.resource ≠ resource :=
    fun p hp => hUnnamed p ((policies_perm h).mem_iff.mp hp)
  rw [get_accessMap_fallback hPolicies' hUnnamed' hName, get_accessMap_merged hPermissions' hName]
  exact first_eq_merged_iff

/-- **When the fallback is faithful.** Whatever the order of the rows, the member has the entry
that it would have without policies, if and only if the applicable permissions about the
resource agree. -/
theorem fallback_faithful (hPolicies : projectUser.policies s ≠ [])
    (hPermissions : projectUser.permissions s ≠ []) (hName : resource ≠ "")
    (hUnnamed : ∀ p ∈ projectUser.policies s, normalizeResource p.resource ≠ resource) :
    (∀ s', Reordered s s' → ∃ accessMap fallback : AccessMap,
      (getAccessMapForProjectUser projectUser).run s' = (.ok accessMap, s') ∧
      (getAccessMapForProjectUser projectUser).run (projectUser.withoutPolicies s') =
        (.ok fallback, projectUser.withoutPolicies s') ∧
      accessMap.get resource = fallback.get resource) ↔
    ∀ p ∈ projectUser.permissions s, ∀ q ∈ projectUser.permissions s,
      normalizeResource p.resource = resource → normalizeResource q.resource = resource →
      p.flags = q.flags := by
  have hOrder := fun s' => @fallback_eq_iff _ s s' projectUser resource hPolicies hPermissions
    hName hUnnamed
  constructor
  · intro hFaithful p hp q hq hpName hqName
    -- each of the rows comes first in some order
    have hMerged {r : Permission} (hr : r ∈ projectUser.permissions s)
        (hrName : normalizeResource r.resource = resource) :
        some r.flags = mergeAll (projectUser.permissionFlags s resource) := by
      obtain ⟨s', hReordered, hFirst⟩ := permissionFlags_first hr hrName
      obtain ⟨accessMap, fallback, hMap, hFallback, hSame⟩ := hFaithful s' hReordered
      rw [getAccessMapForProjectUser_run] at hMap hFallback
      rw [← Except.ok.inj (Prod.mk.inj hMap).1, ← Except.ok.inj (Prod.mk.inj hFallback).1] at hSame
      rw [← hFirst, (hOrder s' hReordered).mp hSame]
      exact mergeAll_perm (permissionFlags_perm hReordered)
    exact Option.some.inj ((hMerged hp hpName).trans (hMerged hq hqName).symm)
  · intro hAgree s' hReordered
    refine ⟨_, _, getAccessMapForProjectUser_run _ s', getAccessMapForProjectUser_run _ _, ?_⟩
    rw [hOrder s' hReordered]
    exact head?_eq_mergeAll (permissionFlags_agree hReordered hAgree)

end Map

/-! ## The guard -/

section Guard

variable [Runtime] {s s' : Store} {projectUser : ProjectUser} {metadata : PermissionMetadata}

/-- The rows from which the guard takes the first one. -/
def ProjectUser.guardRows (projectUser : ProjectUser) (s : Store) (metadata : PermissionMetadata) :
    List Permission :=
  s.permission.rows.filter fun r =>
    some r.projectRoleId == projectUser.projectRoleId && r.resource == metadata.resourceKey

/-- The row is for another department, on a resource where that counts, or its flag is off and
no policy stands in for it. -/
def ProjectUser.refusedBy (projectUser : ProjectUser) (s : Store) (metadata : PermissionMetadata)
    (permission : Permission) : Bool :=
  metadata.isTaskResource && permission.otherDepartment projectUser.departmentId ||
    (projectUser.policyFor s metadata.resourceKey).isNone &&
      !permission.flags.get metadata.action

/-- A policy of the department role about the resource has the flag off. -/
def ProjectUser.deniedByPolicy (projectUser : ProjectUser) (s : Store)
    (metadata : PermissionMetadata) : Bool :=
  (projectUser.policyFor s metadata.resourceKey).any fun policy =>
    !policy.flags.get metadata.action

theorem permissionFor_eq_head (projectUser : ProjectUser) (s : Store)
    (metadata : PermissionMetadata) :
    projectUser.permissionFor s metadata.resourceKey = (projectUser.guardRows s metadata).head? :=
  (List.head?_filter ..).symm

theorem passesGuard_of_first {permission : Permission}
    (hFirst : (projectUser.guardRows s metadata).head? = some permission) :
    projectUser.passesGuard s metadata =
      (!projectUser.refusedBy s metadata permission && !projectUser.deniedByPolicy s metadata) := by
  rw [ProjectUser.passesGuard, permissionFor_eq_head, hFirst, ProjectUser.refusedBy,
    ProjectUser.deniedByPolicy]
  cases projectUser.policyFor s metadata.resourceKey with
  | none => simp [passes]
  | some policy => simp [passes]

/-- A policy that denies the action leaves no choice. -/
theorem passesGuard_of_denied (hDenied : projectUser.deniedByPolicy s metadata = true) :
    projectUser.passesGuard s metadata = false := by
  cases hFirst : (projectUser.guardRows s metadata).head? with
  | some permission => rw [passesGuard_of_first hFirst, hDenied, Bool.not_true, Bool.and_false]
  | none =>
      rw [ProjectUser.deniedByPolicy] at hDenied
      rw [ProjectUser.passesGuard, permissionFor_eq_head, hFirst]
      cases hPolicy : projectUser.policyFor s metadata.resourceKey with
      | none => rw [hPolicy] at hDenied; cases hDenied
      | some policy =>
          rw [hPolicy] at hDenied
          simpa [passes] using hDenied

theorem guardRows_perm (h : ReorderedPermissions s s') :
    (projectUser.guardRows s' metadata).Perm (projectUser.guardRows s metadata) := by
  obtain ⟨permission, hPermission, rfl⟩ := h
  exact hPermission.rows.filter _

/-- In some order the row is the one that the guard takes. -/
theorem guardRows_first {p : Permission} (hp : p ∈ projectUser.guardRows s metadata) :
    ∃ s', ReorderedPermissions s s' ∧ (projectUser.guardRows s' metadata).head? = some p := by
  obtain ⟨hRow, hAbout⟩ := List.mem_filter.mp hp
  obtain ⟨s', hReordered, rest, hRows⟩ := reorderedPermissions_first hRow
  refine ⟨s', hReordered, ?_⟩
  rw [ProjectUser.guardRows, hRows, List.filter_cons, if_pos hAbout]
  rfl

omit [Runtime] in
/-- The schema is satisfied in every order. -/
theorem Store.Valid.reordered (hValid : s.Valid) (h : ReorderedPermissions s s') : s'.Valid := by
  obtain ⟨permission, hPermission, rfl⟩ := h
  refine hValid.withPermissions ⟨fun r hr => ?_, ?_⟩
  · exact hValid.permission.references r (hPermission.mem.mp hr)
  · refine (hPermission.rows.pairwise_iff fun {a b} hab => ?_).mpr hValid.permission.unique
    by_contra hConflict
    simp only [prisma.permission, Bool.not_eq_false, Bool.and_eq_true, beq_iff_eq] at hConflict
    obtain ⟨⟨⟨hRole, hSome⟩, hDepartment⟩, hResource⟩ := hConflict
    simp [prisma.permission, hRole, hResource, ← hDepartment, hSome] at hab

/-- The outcome of the guard in another order. -/
theorem allows_reordered (hValid : s.Valid) {user : Viewer} (hRole : user.role ≠ some "admin")
    {args : GuardArgs} {projectId : Id} (hProject : projectIdOf s metadata args = some projectId)
    (hMember : memberOf s projectId user.userId = some projectUser)
    (h : ReorderedPermissions s s') :
    Allows s' user metadata args ↔ projectUser.passesGuard s' metadata = true := by
  have hValid' := hValid.reordered h
  obtain ⟨permission, -, rfl⟩ := h
  exact allows_iff_passes hValid' hRole hProject hMember

/-- Policies are not reordered, so what they say of a row is the same. -/
theorem policy_reordered (h : ReorderedPermissions s s') :
    projectUser.deniedByPolicy s' metadata = projectUser.deniedByPolicy s metadata ∧
      ∀ p, projectUser.refusedBy s' metadata p = projectUser.refusedBy s metadata p := by
  obtain ⟨permission, -, rfl⟩ := h
  exact ⟨rfl, fun p => rfl⟩

/-- Rows that agree on whether they refuse the action let the guard decide the same. -/
theorem passesGuard_reordered (h : ReorderedPermissions s s')
    (hRows : ∀ p ∈ projectUser.guardRows s metadata, ∀ q ∈ projectUser.guardRows s metadata,
      projectUser.refusedBy s metadata p = projectUser.refusedBy s metadata q) :
    projectUser.passesGuard s' metadata = projectUser.passesGuard s metadata := by
  obtain ⟨hDenied, hRefused⟩ := @policy_reordered _ s s' projectUser metadata h
  have hPerm : (projectUser.guardRows s' metadata).Perm (projectUser.guardRows s metadata) :=
    guardRows_perm h
  cases hFirst : (projectUser.guardRows s metadata).head? with
  | none =>
      have hNone := List.head?_eq_none_iff.mp hFirst
      have hNone' : projectUser.guardRows s' metadata = [] := List.perm_nil.mp (hNone ▸ hPerm)
      obtain ⟨permission, -, rfl⟩ := h
      rw [ProjectUser.passesGuard, ProjectUser.passesGuard, permissionFor_eq_head,
        permissionFor_eq_head, hNone, hNone']
      rfl
  | some p =>
      have hp := List.mem_of_head? hFirst
      cases hFirst' : (projectUser.guardRows s' metadata).head? with
      | none =>
          rw [List.head?_eq_none_iff.mp hFirst'] at hPerm
          rw [List.perm_nil.mp hPerm.symm] at hp
          cases hp
      | some q =>
          have hq := hPerm.mem_iff.mp (List.mem_of_head? hFirst')
          rw [passesGuard_of_first hFirst, passesGuard_of_first hFirst', hDenied, hRefused,
            hRows q hq p hp]

theorem canActivate_of_authenticated {verify : String → Option JwtPayload}
    {authHeader : Option String} {user : Viewer} (hAuth : authenticate verify authHeader = .ok user)
    (metadata : PermissionMetadata) (args : GuardArgs) (s : Store) :
    (canActivate verify authHeader (some metadata) args).run s = (.ok true, s) ↔
      Allows s user metadata args := by
  rw [canActivate, hAuth, Allows]

/-- **When the guard's decision about a member does not depend on the order of the rows**: a
policy denies the action anyway, or the rows of the role about the resource agree on whether
they refuse it. -/
theorem guard_order_independent (hValid : s.Valid) {verify : String → Option JwtPayload}
    {authHeader : Option String} {user : Viewer} (hAuth : authenticate verify authHeader = .ok user)
    (hRole : user.role ≠ some "admin") {args : GuardArgs} {projectId : Id}
    (hProject : projectIdOf s metadata args = some projectId)
    (hMember : memberOf s projectId user.userId = some projectUser) :
    (∀ s', ReorderedPermissions s s' →
      ((canActivate verify authHeader (some metadata) args).run s' = (.ok true, s') ↔
        (canActivate verify authHeader (some metadata) args).run s = (.ok true, s))) ↔
    (projectUser.deniedByPolicy s metadata = true ∨
      ∀ p ∈ projectUser.guardRows s metadata, ∀ q ∈ projectUser.guardRows s metadata,
        projectUser.refusedBy s metadata p = projectUser.refusedBy s metadata q) := by
  simp only [canActivate_of_authenticated hAuth]
  have hPasses := fun s' => @allows_reordered _ s s' projectUser metadata hValid user hRole args
    projectId hProject hMember
  constructor
  · intro hSame
    rw [Classical.or_iff_not_imp_left]
    intro hOpen p hp q hq
    -- each of the rows comes first in some order
    have hDecides {r : Permission} (hr : r ∈ projectUser.guardRows s metadata) :
        Allows s user metadata args ↔ projectUser.refusedBy s metadata r = false := by
      obtain ⟨s', hReordered, hFirst⟩ := guardRows_first hr
      obtain ⟨hDenied, hRefused⟩ := @policy_reordered _ s s' projectUser metadata hReordered
      rw [← hSame s' hReordered, hPasses s' hReordered, passesGuard_of_first hFirst, hDenied,
        hRefused, Bool.not_eq_true _ |>.mp hOpen]
      simp
    have hEq := (hDecides hp).symm.trans (hDecides hq)
    rw [Bool.eq_iff_iff, ← not_iff_not, Bool.not_eq_true, Bool.not_eq_true]
    exact hEq
  · intro hAgree s' hReordered
    have hSelf : ReorderedPermissions s s := ⟨s.permission, .refl _, rfl⟩
    rw [hPasses s' hReordered, hPasses s hSelf]
    rcases hAgree with hOff | hRows
    · have hOff' : projectUser.deniedByPolicy s' metadata = true := by
        rw [(policy_reordered hReordered).1]
        exact hOff
      rw [passesGuard_of_denied hOff, passesGuard_of_denied hOff']
    · rw [passesGuard_reordered hReordered hRows]

end Guard

section Site

attribute [local instance] asciiRuntime

/-- The row of the role of the site about a resource. -/
def foremanMay (departmentId : Option Id) (resource : String) (flags : Flags) (id : Id) :
    Permission :=
  { id, projectRoleId := 1, departmentId, resource, flags }

/-- Members may see work orders and the tasks of the project, and also create tasks of the
department. The policy of surveyors is about users. -/
def divided : Store :=
  { ungranted with
    permission :=
      ((Table.empty.insert (foremanMay none "TASK" { canView := true }) fun _ => rfl).insert
        (foremanMay (some 1) "TASK" { canView := true, canCreate := true }) fun _ => rfl).insert
        (foremanMay none "WORK_ORDER" { canView := true }) fun _ => rfl
    departmentRolePolicy := Table.empty.insert (fun id =>
      { id, departmentRoleId := 1, resource := "USER", flags := { canView := true } })
      fun _ => rfl }

/-- The same store, with the permissions in the other order. -/
def dividedBackwards : Store :=
  { divided with
    permission := divided.permission.reorder divided.permission.rows.reverse
      (List.reverse_perm _) }

theorem dividedBackwards_reordered : ReorderedPermissions divided dividedBackwards :=
  ⟨_, Table.reordered_reorder _ _ _, rfl⟩

/-- The entry of a task is the first row, not what the two rows grant together. -/
theorem fallback_unfaithful :
    surveyor.policies divided ≠ [] ∧ surveyor.permissions divided ≠ [] ∧
      (∀ p ∈ surveyor.policies divided, normalizeResource p.resource ≠ "TASK") ∧
      ∃ accessMap fallback : AccessMap,
        (getAccessMapForProjectUser surveyor).run divided = (.ok accessMap, divided) ∧
        (getAccessMapForProjectUser surveyor).run (surveyor.withoutPolicies divided) =
          (.ok fallback, surveyor.withoutPolicies divided) ∧
        accessMap.get "TASK" = some ⟨true, false, false, false⟩ ∧
        fallback.get "TASK" = some ⟨true, true, false, false⟩ ∧
        accessMap.get "TASK" ≠ fallback.get "TASK" := by
  have hPolicies : surveyor.policies divided ≠ [] := by decide
  have hPermissions : surveyor.permissions divided ≠ [] := by decide
  have hUnnamed : ∀ p ∈ surveyor.policies divided, normalizeResource p.resource ≠ "TASK" := by
    decide +kernel
  have hEntry : (surveyor.accessMap divided).get "TASK" = some ⟨true, false, false, false⟩ := by
    rw [get_accessMap_fallback hPolicies hUnnamed (by decide)]
    decide +kernel
  have hMerged : (surveyor.accessMap (surveyor.withoutPolicies divided)).get "TASK" =
      some ⟨true, true, false, false⟩ := by
    rw [get_accessMap_merged hPermissions (by decide)]
    decide +kernel
  refine ⟨hPolicies, hPermissions, hUnnamed, _, _, getAccessMapForProjectUser_run _ _,
    getAccessMapForProjectUser_run _ _, hEntry, hMerged, ?_⟩
  rw [hEntry, hMerged]
  decide

/-- One row is about work orders, so nothing is left to the order. -/
theorem fallback_faithful_divided :
    surveyor.policies divided ≠ [] ∧ surveyor.permissions divided ≠ [] ∧
      ∀ s', Reordered divided s' → ∃ accessMap fallback : AccessMap,
        (getAccessMapForProjectUser surveyor).run s' = (.ok accessMap, s') ∧
        (getAccessMapForProjectUser surveyor).run (surveyor.withoutPolicies s') =
          (.ok fallback, surveyor.withoutPolicies s') ∧
        accessMap.get "WORK_ORDER" = fallback.get "WORK_ORDER" := by
  have hPolicies : surveyor.policies divided ≠ [] := by decide
  have hPermissions : surveyor.permissions divided ≠ [] := by decide
  refine ⟨hPolicies, hPermissions, ?_⟩
  exact (fallback_faithful hPolicies hPermissions (by decide) (by decide +kernel)).mpr
    (by decide +kernel)

/-- The token `t` is that of the member. -/
def memberToken (token : String) : Option JwtPayload :=
  if token = "t" then some ⟨1, some "user"⟩ else none

theorem memberToken_authenticates :
    authenticate memberToken (some "Bearer t") = .ok ⟨1, some "user"⟩ := by
  decide +kernel

theorem divided_valid : divided.Valid := by
  constructor <;> decide

/-- The member may create tasks when the row of the department comes first. -/
theorem guard_order_dependent :
    ReorderedPermissions divided dividedBackwards ∧
      (∃ projectUser, memberOf divided 1 1 = some projectUser ∧
        projectUser.membership = surveyor) ∧
      (canActivate memberToken (some "Bearer t") (some ⟨"TASK", .create⟩)
        { projectId := some 1 }).run divided ≠ (.ok true, divided) ∧
      (canActivate memberToken (some "Bearer t") (some ⟨"TASK", .create⟩)
        { projectId := some 1 }).run dividedBackwards = (.ok true, dividedBackwards) := by
  have hMember : ∃ projectUser, memberOf divided 1 1 = some projectUser ∧
      projectUser.membership = surveyor :=
    ⟨_, rfl, rfl⟩
  refine ⟨dividedBackwards_reordered, hMember, ?_, ?_⟩
  · rw [ne_eq, canActivate_of_authenticated memberToken_authenticates,
      allows_iff_passes divided_valid (by decide) rfl rfl]
    decide +kernel
  · rw [canActivate_of_authenticated memberToken_authenticates,
      allows_reordered divided_valid (by decide) rfl rfl dividedBackwards_reordered]
    decide +kernel

/-- Both rows let the member see tasks. -/
theorem guard_order_independent_divided :
    divided.Valid ∧ ∀ s', ReorderedPermissions divided s' →
      ((canActivate memberToken (some "Bearer t") (some ⟨"TASK", .view⟩)
          { projectId := some 1 }).run s' = (.ok true, s') ↔
        (canActivate memberToken (some "Bearer t") (some ⟨"TASK", .view⟩)
          { projectId := some 1 }).run divided = (.ok true, divided)) :=
  ⟨divided_valid,
    (guard_order_independent divided_valid memberToken_authenticates (by decide) rfl rfl).mpr
      (Or.inr (by decide +kernel))⟩

end Site

end Rooeel
