import Rooeel.Access.Resources
import Mathlib.Data.List.Induction

/-!
# The access map of a project member

`getAccessMapForProjectUser` reads the permission rows of the member's project role and the
policies of the member's department role, and computes from them an object that maps
resource names to flags. `accessMapFrom` is that computation without the reads.

The first half translates the source. The second half reads the map back:
`get_accessMapFrom` says for every resource which rows decide its flags (`decisiveRows`),
so that later proofs never unfold the loops.
-/

namespace Rooeel

open JavaScript

abbrev AccessMap := Record Flags

/-- The columns of a `ProjectUser` row that its access map depends on. -/
structure Membership where
  projectRoleId : Option Id
  departmentRoleId : Option Id
  departmentId : Option Id
  deriving DecidableEq

def ProjectUser.membership (projectUser : ProjectUser) : Membership where
  projectRoleId := projectUser.projectRoleId
  departmentRoleId := projectUser.departmentRoleId
  departmentId := projectUser.departmentId

/-- The truth value of an id column. -/
def isSet (ref : Option Id) : Bool := ref.any fun k => k != 0

theorem isSet_of_pos {k : Id} (h : 0 < k) : isSet (some k) = true := by
  simpa [isSet] using Int.ne_of_gt h

section Code

variable [Runtime]

def setAccess (accessMap : AccessMap) (resource : String) (flags : Flags) : AccessMap :=
  let key := normalizeResource resource
  if key = "" then accessMap else accessMap.set key flags

def mergeAccess (accessMap : AccessMap) (resource : String) (flags : Flags) : AccessMap :=
  let key := normalizeResource resource
  if key = "" then accessMap
  else accessMap.set key (((accessMap.get key).getD {}).merge flags)

def canAccess (accessMap : AccessMap) (resource : String) (action : Action := .view) : Bool :=
  (accessMap.get (normalizeResource resource)).any fun flags => flags.get action

def hasPolicyForAnyResource (accessMap : AccessMap) (resources : List String) : Bool :=
  resources.any fun resource => (accessMap.get (normalizeResource resource)).isSome

def hasAccessForAnyResource (accessMap : AccessMap) (resources : List String)
    (action : Action := .view) : Bool :=
  resources.any fun resource => canAccess accessMap resource action

def canPerformTaskResourceAction (accessMap : AccessMap) (resource : String) (action : Action) :
    Bool :=
  let normalizedResource :=
    if normalizeResource resource = "" then "TASK" else normalizeResource resource
  if normalizedResource = "TASK" then canAccess accessMap "TASK" action
  else if hasPolicyForAnyResource accessMap [normalizedResource] then
    canAccess accessMap normalizedResource action
  else canAccess accessMap "TASK" action

/-- The loops of `getAccessMapForProjectUser` over the rows it has read. -/
def accessMapFrom (projectRolePermissions : List Permission)
    (departmentRolePolicies : List DepartmentRolePolicy) : AccessMap :=
  let accessMap : AccessMap :=
    if departmentRolePolicies ≠ [] then
      -- the policies of the department role first, then the permissions of other resources
      projectRolePermissions.foldl
        (fun accessMap permission =>
          if (accessMap.get (normalizeResource permission.resource)).isSome then accessMap
          else setAccess accessMap permission.resource permission.flags)
        (departmentRolePolicies.foldl
          (fun accessMap policy => setAccess accessMap policy.resource policy.flags) [])
    else
      projectRolePermissions.foldl
        (fun accessMap permission => mergeAccess accessMap permission.resource permission.flags) []
  let accessMap :=
    if projectRolePermissions ≠ [] ∨ departmentRolePolicies ≠ [] then accessMap
    else
      defaultUserViewResources.foldl
        (fun accessMap resource => mergeAccess accessMap resource { canView := true }) accessMap
  hardcodedTaskResources.foldl
    (fun accessMap resource =>
      if (accessMap.get resource).isSome then accessMap else setAccess accessMap resource {})
    accessMap

/-- The `where` clause under which the permissions of a member are read. -/
def Membership.selects (projectUser : Membership) (r : Permission) : Bool :=
  some r.projectRoleId == projectUser.projectRoleId &&
    (r.departmentId == none ||
      isSet projectUser.departmentId && r.departmentId == projectUser.departmentId)

def getAccessMapForProjectUser (projectUser : Membership) : Service AccessMap := do
  let _department ←
    (if isSet projectUser.departmentId then
      findUnique prisma.department fun r => some r.id == projectUser.departmentId
    else pure none)
  let projectRolePermissions ←
    (if isSet projectUser.projectRoleId then
      findMany prisma.permission projectUser.selects
    else pure [])
  let departmentRolePolicies ←
    (if isSet projectUser.departmentRoleId then
      findMany prisma.departmentRolePolicy fun r =>
        some r.departmentRoleId == projectUser.departmentRoleId
    else pure [])
  pure (accessMapFrom projectRolePermissions departmentRolePolicies)

/-- The row named by the unique key `projectId_userId`. -/
def isMember (projectId userId : Id) (r : ProjectUser) : Bool :=
  r.projectId == projectId && r.userId == userId

omit [Runtime] in
theorem isMember_iff {projectId userId : Id} {r : ProjectUser} :
    isMember projectId userId r = true ↔ r.projectId = projectId ∧ r.userId = userId := by
  simp [isMember]

structure ProjectUserContext where
  projectUser : ProjectUser
  accessMap : AccessMap

def getProjectUserContext (projectId userId : Id) : Service (Option ProjectUserContext) := do
  match ← findUnique prisma.projectUser (isMember projectId userId) with
  | none => pure none
  | some projectUser =>
    let accessMap ← getAccessMapForProjectUser projectUser.membership
    pure (some { projectUser, accessMap })

end Code

/-! ## Running the reads -/

section Run

variable [Runtime]

/-- The permission rows that `getAccessMapForProjectUser` reads. -/
def Membership.permissions (projectUser : Membership) (s : Store) : List Permission :=
  if isSet projectUser.projectRoleId then s.permission.rows.filter projectUser.selects else []

/-- The policy rows that `getAccessMapForProjectUser` reads. -/
def Membership.policies (projectUser : Membership) (s : Store) : List DepartmentRolePolicy :=
  if isSet projectUser.departmentRoleId then
    s.departmentRolePolicy.rows.filter fun r =>
      some r.departmentRoleId == projectUser.departmentRoleId
  else []

def Membership.accessMap (projectUser : Membership) (s : Store) : AccessMap :=
  accessMapFrom (projectUser.permissions s) (projectUser.policies s)

def memberOf (s : Store) (projectId userId : Id) : Option ProjectUser :=
  s.projectUser.rows.find? (isMember projectId userId)

theorem getAccessMapForProjectUser_run (projectUser : Membership) (s : Store) :
    (getAccessMapForProjectUser projectUser).run s = (.ok (projectUser.accessMap s), s) := by
  unfold getAccessMapForProjectUser
  rw [Prog.run_bind_ok (run_ite_pure _ (findUnique_run _ _ s)),
    Prog.run_bind_ok (run_ite_pure _ (findMany_run _ _ s)),
    Prog.run_bind_ok (run_ite_pure _ (findMany_run _ _ s))]
  rfl

theorem getProjectUserContext_run (projectId userId : Id) (s : Store) :
    (getProjectUserContext projectId userId).run s =
      (.ok ((memberOf s projectId userId).map fun projectUser =>
        { projectUser, accessMap := projectUser.membership.accessMap s }), s) := by
  unfold getProjectUserContext
  rw [Prog.run_bind_ok (findUnique_run _ _ s)]
  change Prog.run (match memberOf s projectId userId with
    | none => _
    | some projectUser => _) s = _
  cases memberOf s projectId userId with
  | none => rfl
  | some projectUser =>
      dsimp only
      rw [Prog.run_bind_ok (getAccessMapForProjectUser_run _ s)]
      rfl

omit [Runtime] in
theorem memberOf_some {s : Store} {projectId userId : Id} {projectUser : ProjectUser}
    (h : memberOf s projectId userId = some projectUser) :
    projectUser ∈ s.projectUser.rows ∧ projectUser.projectId = projectId ∧
      projectUser.userId = userId := by
  have hMem := List.mem_of_find?_eq_some h
  exact ⟨hMem, isMember_iff.mp (List.find?_some h)⟩

omit [Runtime] in
/-- The member row among the rows of the project. -/
theorem find_memberRows (s : Store) (projectId userId : Id) :
    (s.projectUser.rows.filter fun r => r.projectId == projectId).find?
      (fun r => r.userId == userId) = memberOf s projectId userId := by
  rw [memberOf, List.find?_filter]
  congr 1
  funext r
  rw [Bool.eq_iff_iff, decide_eq_true_iff, isMember_iff, beq_iff_eq, beq_iff_eq]

omit [Runtime] in
theorem memberOf_foreman : memberOf site 1 1 = some foreman := rfl

omit [Runtime] in
/-- The user of a member row exists, so its id is positive. -/
theorem member_userId_pos {s : Store} (hValid : s.Valid) {projectUser : ProjectUser}
    (hMem : projectUser ∈ s.projectUser.rows) : 0 < projectUser.userId := by
  have hRef := hValid.projectUser.references projectUser hMem
  simp only [prisma.projectUser, Bool.and_eq_true] at hRef
  exact Table.pos_of_has hRef.1.1.1.2

omit [Runtime] in
/-- The project of a member row exists, so its id is positive. -/
theorem member_projectId_pos {s : Store} (hValid : s.Valid) {projectUser : ProjectUser}
    (hMem : projectUser ∈ s.projectUser.rows) : 0 < projectUser.projectId := by
  have hRef := hValid.projectUser.references projectUser hMem
  simp only [prisma.projectUser, Bool.and_eq_true] at hRef
  exact Table.pos_of_has hRef.1.1.1.1

end Run

/-! ## Reading the map -/

/-- Flags of several rows about one resource; `none` when there is no row. -/
def mergeAll : List Flags → Option Flags
  | [] => none
  | rows => some (rows.foldl Flags.merge {})

theorem mergeAll_singleton (flags : Flags) : mergeAll [flags] = some flags := by
  simp [mergeAll, Flags.merge]

theorem mergeAll_isSome {rows : List Flags} : (mergeAll rows).isSome = true ↔ rows ≠ [] := by
  cases rows with
  | nil => simp [mergeAll]
  | cons f fs => simp [mergeAll]

theorem mergeAll_append_singleton (rows : List Flags) (flags : Flags) :
    mergeAll (rows ++ [flags]) = some (((mergeAll rows).getD {}).merge flags) := by
  cases rows with
  | nil => simp [mergeAll, Flags.merge]
  | cons f fs => simp [mergeAll, List.foldl_append]

/-- Merged flags grant what one of the rows grants. -/
theorem mergeAll_grants (rows : List Flags) (action : Action) :
    (mergeAll rows).any (fun flags => flags.get action) =
      rows.any fun flags => flags.get action := by
  induction rows using List.reverseRecOn with
  | nil => rfl
  | append_singleton fs f ih =>
      rw [mergeAll_append_singleton, List.any_append, ← ih]
      have hEmpty : ({} : Flags).get action = false := by cases action <;> rfl
      cases mergeAll fs with
      | none => simp [Flags.get_merge, hEmpty]
      | some g => simp [Flags.get_merge]

section Lookup

variable [Runtime]

/-- The flags of the rows about `key`, in order. -/
def flagsFor {ρ : Type} (resource : ρ → String) (flags : ρ → Flags) (key : String)
    (rows : List ρ) : List Flags :=
  (rows.filter fun r => normalizeResource (resource r) = key).map flags

omit [Runtime] in
/-- An entry is written unless its name is empty. -/
theorem get_setNamed (m : AccessMap) (name : String) (flags : Flags) {key : String}
    (hKey : key ≠ "") :
    (if name = "" then m else m.set name flags).get key =
      if name = key then some flags else m.get key := by
  by_cases h : name = key
  · subst h
    simp [hKey]
  · by_cases hEmpty : name = ""
    · simp [hEmpty, hKey.symm]
    · simp [hEmpty, h, Record.get_set_of_ne _ _ (Ne.symm h)]

theorem get_setAccess (m : AccessMap) (resource : String) (flags : Flags) {key : String}
    (hKey : key ≠ "") :
    (setAccess m resource flags).get key =
      if normalizeResource resource = key then some flags else m.get key :=
  get_setNamed m (normalizeResource resource) flags hKey

theorem get_mergeAccess (m : AccessMap) (resource : String) (flags : Flags) {key : String}
    (hKey : key ≠ "") :
    (mergeAccess m resource flags).get key =
      if normalizeResource resource = key then some (((m.get key).getD {}).merge flags)
      else m.get key := by
  have hSet := get_setNamed m (normalizeResource resource)
    (((m.get (normalizeResource resource)).getD {}).merge flags) hKey
  refine hSet.trans ?_
  by_cases h : normalizeResource resource = key
  · rw [if_pos h, if_pos h, h]
  · rw [if_neg h, if_neg h]

section Folds

variable {ρ : Type} {resource : ρ → String} {flags : ρ → Flags} {key : String}

/-- A loop of `setAccess`: the last row about the resource wins. -/
theorem get_foldl_setAccess (hKey : key ≠ "") (rows : List ρ) (m : AccessMap) :
    (rows.foldl (fun m r => setAccess m (resource r) (flags r)) m).get key =
      (flagsFor resource flags key rows).getLast?.or (m.get key) := by
  induction rows using List.reverseRecOn with
  | nil => simp [flagsFor]
  | append_singleton rs r ih =>
      rw [List.foldl_append, List.foldl_cons, List.foldl_nil, get_setAccess _ _ _ hKey, ih]
      by_cases h : normalizeResource (resource r) = key
      · simp [flagsFor, h]
      · simp [flagsFor, h]

/-- A loop that only fills gaps: what was there stays, else the first row wins. -/
theorem get_foldl_setMissing (hKey : key ≠ "") (rows : List ρ) (m : AccessMap) :
    (rows.foldl (fun m r =>
      if (m.get (normalizeResource (resource r))).isSome then m
      else setAccess m (resource r) (flags r)) m).get key =
      (m.get key).or (flagsFor resource flags key rows).head? := by
  induction rows generalizing m with
  | nil => simp [flagsFor]
  | cons r rs ih =>
      rw [List.foldl_cons, ih]
      by_cases h : normalizeResource (resource r) = key
      · rw [h]
        cases hGet : m.get key with
        | none => simp [flagsFor, h, get_setAccess _ _ _ hKey]
        | some f => simp [hGet]
      · have hSame : (if (m.get (normalizeResource (resource r))).isSome then m
            else setAccess m (resource r) (flags r)).get key = m.get key := by
          split
          · rfl
          · rw [get_setAccess _ _ _ hKey, if_neg h]
        rw [hSame]
        simp [flagsFor, h]

/-- A loop of `mergeAccess` on an empty map merges the rows about the resource. -/
theorem get_foldl_mergeAccess (hKey : key ≠ "") (rows : List ρ) :
    (rows.foldl (fun m r => mergeAccess m (resource r) (flags r)) ([] : AccessMap)).get key =
      mergeAll (flagsFor resource flags key rows) := by
  induction rows using List.reverseRecOn with
  | nil => rfl
  | append_singleton rs r ih =>
      rw [List.foldl_append, List.foldl_cons, List.foldl_nil, get_mergeAccess _ _ _ hKey, ih]
      by_cases h : normalizeResource (resource r) = key
      · have hRows : flagsFor resource flags key (rs ++ [r]) =
            flagsFor resource flags key rs ++ [flags r] := by
          simp [flagsFor, h]
        rw [if_pos h, hRows, mergeAll_append_singleton]
      · have hRows : flagsFor resource flags key (rs ++ [r]) = flagsFor resource flags key rs := by
          simp [flagsFor, h]
        rw [if_neg h, hRows]

end Folds

/-- The rows that decide the flags of a resource. With policies on the department role, the
last policy about the resource, else the first permission about it; without any policy, all
permissions about it. -/
def decisiveRows (permissions : List Permission) (policies : List DepartmentRolePolicy)
    (key : String) : List Flags :=
  if policies ≠ [] then
    ((flagsFor DepartmentRolePolicy.resource DepartmentRolePolicy.flags key policies).getLast?.or
      (flagsFor Permission.resource Permission.flags key permissions).head?).toList
  else flagsFor Permission.resource Permission.flags key permissions

/-- The entry of a resource that no row is about. -/
def defaultEntry (permissions : List Permission) (policies : List DepartmentRolePolicy)
    (key : String) : Option Flags :=
  if permissions = [] ∧ policies = [] ∧ key ∈ defaultUserViewResources then
    some { canView := true }
  else if key ∈ hardcodedTaskResources then some {}
  else none

/-- A list of canonical names that all stand for the same flags. -/
theorem flagsFor_canonical {resources : List String} (flags : Flags) (key : String)
    (hCanonical : ∀ r ∈ resources, isCanonical r = true) :
    flagsFor id (fun _ => flags) key resources =
      List.replicate (resources.count key) flags := by
  have hFilter : resources.filter (fun r => normalizeResource (id r) = key) =
      resources.filter (fun r => r == key) := by
    refine List.filter_congr fun r hr => ?_
    rw [id, normalizeResource_of_canonical (hCanonical r hr)]
    rfl
  rw [flagsFor, hFilter, List.filter_beq, List.map_replicate]

/-- The entries of the resources that are visible by default. -/
theorem get_defaultAccess {key : String} (hKey : key ≠ "") :
    (defaultUserViewResources.foldl (fun m r => mergeAccess m r { canView := true })
      ([] : AccessMap)).get key =
      if key ∈ defaultUserViewResources then some { canView := true } else none := by
  have hFold := @get_foldl_mergeAccess _ _ id (fun _ => { canView := true }) key hKey
    defaultUserViewResources
  simp only [id] at hFold
  have hOnce : defaultUserViewResources.Nodup := by decide
  have hRows := flagsFor_canonical { canView := true } key
    fun r hr => defaultUserViewResources_canonical hr
  rw [hFold, hRows, hOnce.count]
  split <;> rfl

/-- The loop that gives every other hardcoded resource an empty entry. -/
theorem get_hardcodedAccess (m : AccessMap) {key : String} (hKey : key ≠ "") :
    (hardcodedTaskResources.foldl
      (fun m r => if (m.get r).isSome then m else setAccess m r {}) m).get key =
      (m.get key).or (if key ∈ hardcodedTaskResources then some {} else none) := by
  have hLoop : hardcodedTaskResources.foldl
      (fun m r => if (m.get r).isSome then m else setAccess m r {}) m =
      hardcodedTaskResources.foldl
        (fun m r => if (m.get (normalizeResource (id r))).isSome then m
          else setAccess m (id r) {}) m := by
    refine List.foldl_ext _ _ _ fun m r hr => ?_
    rw [id, normalizeResource_of_canonical (hardcodedTaskResources_canonical hr)]
  have hRows := flagsFor_canonical {} key fun r hr => hardcodedTaskResources_canonical hr
  have hOnce : hardcodedTaskResources.Nodup := by decide +kernel
  have hFold := @get_foldl_setMissing _ _ id (fun _ => {}) key hKey hardcodedTaskResources m
  rw [hLoop, hFold, hRows, hOnce.count]
  split <;> rfl

/-- **The access map, resource by resource.** -/
theorem get_accessMapFrom (permissions : List Permission) (policies : List DepartmentRolePolicy)
    {key : String} (hKey : key ≠ "") :
    (accessMapFrom permissions policies).get key =
      (mergeAll (decisiveRows permissions policies key)).or
        (defaultEntry permissions policies key) := by
  unfold accessMapFrom
  simp only
  rw [get_hardcodedAccess _ hKey]
  by_cases hPolicies : policies = []
  · subst hPolicies
    by_cases hPermissions : permissions = []
    · subst hPermissions
      have hDefault := get_defaultAccess hKey
      simp only [ne_eq, not_true_eq_false, or_self, if_false, List.foldl_nil]
      rw [hDefault]
      by_cases hMem : key ∈ defaultUserViewResources
      · simp [decisiveRows, defaultEntry, flagsFor, mergeAll, hMem]
      · simp [decisiveRows, defaultEntry, flagsFor, mergeAll, hMem]
    · rw [if_pos (Or.inl hPermissions), if_neg (by simp), get_foldl_mergeAccess hKey]
      simp [decisiveRows, defaultEntry, hPermissions]
  · rw [if_pos (Or.inr hPolicies), if_pos hPolicies, get_foldl_setMissing hKey,
      get_foldl_setAccess hKey]
    have hEntry : defaultEntry permissions policies key =
        if key ∈ hardcodedTaskResources then some {} else none := by
      simp [defaultEntry, hPolicies]
    rw [hEntry, decisiveRows, if_pos hPolicies]
    congr 1
    simp only [Record.get, List.lookup_nil, Option.or_none]
    cases (flagsFor DepartmentRolePolicy.resource DepartmentRolePolicy.flags key
        policies).getLast?.or (flagsFor Permission.resource Permission.flags key
        permissions).head? with
    | none => rfl
    | some f => exact (mergeAll_singleton f).symm

/-- The reader looks an entry up, and falls back to the tasks when there is none. -/
theorem canPerform_canonical (accessMap : AccessMap) {resource : String}
    (hCanonical : isCanonical resource = true) (hName : resource ≠ "")
    (hTask : resource ≠ "TASK") (action : Action) :
    canPerformTaskResourceAction accessMap resource action =
      (match accessMap.get resource with
      | some flags => flags.get action
      | none => canAccess accessMap "TASK" action) := by
  have hNormal := normalizeResource_of_canonical hCanonical
  simp only [canPerformTaskResourceAction, hasPolicyForAnyResource, canAccess, hNormal,
    if_neg hName, if_neg hTask, List.any_cons, List.any_nil, Bool.or_false]
  cases accessMap.get resource with
  | none => rfl
  | some flags => rfl

end Lookup

end Rooeel
