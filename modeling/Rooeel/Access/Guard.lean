import Rooeel.Access.AccessMap

/-!
# The permission guard

`ProjectPermissionGuard` stands in front of the resolvers that carry a `CheckPermission`
annotation. It authenticates the request, finds the project that the arguments are about,
reads the member row with the permissions and policies of the resource, and decides.

The decision itself is `evaluatePermission`, a function of two rows: the first permission of
the member's role about the resource, of any department, and the policy of the member's
department role. `canActivateUser_permitted` says so for every store, `canActivate_iff` for those
that satisfy the schema.
-/

namespace Rooeel

open JavaScript

/-! ## Requests -/

/-- The annotation of a resolver. -/
structure PermissionMetadata where
  resource : String
  action : Action

/-- The arguments of a resolver that the guard looks at. -/
structure GuardArgs where
  projectId : Option Id := none
  fieldId : Option Id := none
  workOrderId : Option Id := none
  id : Option Id := none
  taskId : Option Id := none

/-- The claims of an access token. -/
structure JwtPayload where
  sub : Id
  role : Option String

def Action.text : Action → String
  | .view => "view"
  | .create => "create"
  | .edit => "edit"
  | .delete => "delete"

def defaultViewResources : List String :=
  ["WORK_ORDER", "TASK", "SUBTASK", "DEPARTMENT", "USER", "FIELD", "PROJECT_FIELD"]

/-! ## The project of a request -/

/-- The project of the row with the given key. -/
def projectOfRow {ρ : Type} [Row ρ] (m : Model Store ρ) (project : ρ → Id) (id : Id) :
    Service (Option Id) := do
  let row ← findUnique m fun r => Row.key r == id
  pure (row.map project)

/-- The project of a subtask, read together with its task. -/
def projectOfSubTask (id : Id) : Service (Option Id) :=
  query fun s =>
    (prisma.subTask.findFirst (fun r => Row.key r == id) s).bind fun subtask =>
      (s.task.find subtask.taskId).map fun task => task.projectId

def resolveProjectId (metadata : PermissionMetadata) (args : GuardArgs) : Service (Option Id) :=
  if isSet args.projectId then pure args.projectId
  else if isSet args.fieldId then
    projectOfRow prisma.projectField ProjectField.projectId (args.fieldId.getD 0)
  else if isSet args.workOrderId then
    projectOfRow prisma.workOrderPdf WorkOrderPdf.projectId (args.workOrderId.getD 0)
  else if isSet args.id then
    if metadata.resource = "DEPARTMENT" then
      projectOfRow prisma.department Department.projectId (args.id.getD 0)
    else if metadata.resource = "TASK" then
      projectOfRow prisma.task Task.projectId (args.id.getD 0)
    else if metadata.resource = "SUBTASK" then projectOfSubTask (args.id.getD 0)
    else pure args.projectId
  else if isSet args.taskId then
    projectOfRow prisma.task Task.projectId (args.taskId.getD 0)
  else pure args.projectId

/-! ## The decision -/

/-- A member with the rows of its roles about one resource. -/
structure GuardMember where
  projectUser : ProjectUser
  permissions : List Permission
  policies : List DepartmentRolePolicy

/-- The rows that are included through a relation; none when the relation is not set. -/
def included {ρ κ : Type} [Row κ] (t : Table κ) (ref : Option Id) (rows : κ → List ρ) : List ρ :=
  (ref.bind t.find).elim [] rows

/-- The query of the guard. -/
def guardMember (s : Store) (projectId userId : Id) (resource : String) : Option GuardMember :=
  (memberOf s projectId userId).map fun projectUser =>
    { projectUser
      permissions := included s.projectRole projectUser.projectRoleId fun projectRole =>
        s.permission.rows.filter fun r =>
          r.projectRoleId == projectRole.id && r.resource == resource
      policies := included s.departmentRole projectUser.departmentRoleId fun departmentRole =>
        s.departmentRolePolicy.rows.filter fun r =>
          r.departmentRoleId == departmentRole.id && r.resource == resource }

/-- The resources on which the guard compares departments. -/
def PermissionMetadata.isTaskResource (metadata : PermissionMetadata) : Bool :=
  metadata.resource == "TASK" || metadata.resource == "SUBTASK"

/-- The permission is for a department that is not the member's. -/
def Permission.otherDepartment (permission : Permission) (departmentId : Option Id) : Bool :=
  isSet permission.departmentId && departmentId != permission.departmentId

section Code

variable [Runtime]

/-- The spelling under which the rows of the annotated resource are looked up. -/
def PermissionMetadata.resourceKey (metadata : PermissionMetadata) : String :=
  toUpperCase metadata.resource

def evaluatePermission (metadata : PermissionMetadata) (departmentId : Option Id)
    (permission : Option Permission) (departmentPolicy : Option DepartmentRolePolicy) :
    Except Exn Bool :=
  if permission.isNone && departmentPolicy.isNone then
    if metadata.action = .view ∧ metadata.resourceKey ∈ defaultViewResources then .ok true
    else .error (.forbidden s!"No permission defined for {metadata.resource} on your role")
  else if metadata.isTaskResource && permission.any fun p => p.otherDepartment departmentId then
    .error (.forbidden "You do not belong to the department required for this operation")
  else
    -- a policy of the department role overrides the permission
    let isAllowed : Bool :=
      match departmentPolicy with
      | some policy => policy.flags.get metadata.action
      | none => permission.any fun p => p.flags.get metadata.action
    if isAllowed then .ok true
    else .error (.forbidden
      (s!"Access Denied: You do not have permission to {metadata.action.text} " ++
        s!"{metadata.resource} on this project"))

def GuardMember.evaluate (member : GuardMember) (metadata : PermissionMetadata) :
    Except Exn Bool :=
  evaluatePermission metadata member.projectUser.departmentId
    (member.permissions.find? fun p => p.resource == metadata.resourceKey)
    (member.policies.find? fun p => p.resource == metadata.resourceKey)

/-- `canActivate` after the request was authenticated. -/
def canActivateUser (user : Viewer) (metadata : Option PermissionMetadata) (args : GuardArgs) :
    Service Bool :=
  if user.role = some "admin" then pure true
  else
    match metadata with
    | none => pure true
    | some metadata => do
      let projectId ← resolveProjectId metadata args
      Prog.throwIf (isSet projectId = false)
        (.forbidden "Could not determine Project context for permission check")
      match ← query fun s =>
          guardMember s (projectId.getD 0) user.userId metadata.resourceKey with
      | none => throw (.forbidden "You are not assigned to this project")
      | some member =>
        match member.evaluate metadata with
        | .ok allowed => pure allowed
        | .error e => throw e

/-- `authHeader.split(' ')[1]` of a header that starts with `Bearer `. -/
def bearerToken (authHeader : String) : String :=
  String.ofList ((authHeader.toList.drop 7).takeWhile fun c => c != ' ')

/-- The user of a request. `verify` is the token library with the secret. -/
def authenticate (verify : String → Option JwtPayload) (authHeader : Option String) :
    Except Exn Viewer :=
  match authHeader with
  | none => .error (.unauthorized "Authentication required")
  | some authHeader =>
    if !authHeader.startsWith "Bearer " then .error (.unauthorized "Authentication required")
    else
      match verify (bearerToken authHeader) with
      | none => .error (.unauthorized "Invalid token")
      | some payload => .ok ⟨payload.sub, payload.role⟩

def canActivate (verify : String → Option JwtPayload) (authHeader : Option String)
    (metadata : Option PermissionMetadata) (args : GuardArgs) : Service Bool :=
  match authenticate verify authHeader with
  | .error e => throw e
  | .ok user => canActivateUser user metadata args

end Code

/-! ## Who passes -/

/-- The project that `resolveProjectId` finds. -/
def projectIdOf (s : Store) (metadata : PermissionMetadata) (args : GuardArgs) : Option Id :=
  if isSet args.projectId then args.projectId
  else if isSet args.fieldId then
    (s.projectField.find (args.fieldId.getD 0)).map ProjectField.projectId
  else if isSet args.workOrderId then
    (s.workOrderPdf.find (args.workOrderId.getD 0)).map WorkOrderPdf.projectId
  else if isSet args.id then
    if metadata.resource = "DEPARTMENT" then
      (s.department.find (args.id.getD 0)).map Department.projectId
    else if metadata.resource = "TASK" then (s.task.find (args.id.getD 0)).map Task.projectId
    else if metadata.resource = "SUBTASK" then
      (s.subTask.find (args.id.getD 0)).bind fun subtask =>
        (s.task.find subtask.taskId).map fun task => task.projectId
    else args.projectId
  else if isSet args.taskId then (s.task.find (args.taskId.getD 0)).map Task.projectId
  else args.projectId

theorem resolveProjectId_run (s : Store) (metadata : PermissionMetadata) (args : GuardArgs) :
    (resolveProjectId metadata args).run s = (.ok (projectIdOf s metadata args), s) := by
  unfold resolveProjectId projectIdOf
  repeat' split
  all_goals rfl

section Decision

variable [Runtime]

/-- The row of the project role that the guard picks. -/
def ProjectUser.permissionFor (projectUser : ProjectUser) (s : Store) (resource : String) :
    Option Permission :=
  s.permission.rows.find? fun r =>
    some r.projectRoleId == projectUser.projectRoleId && r.resource == resource

/-- The row of the department role that the guard picks. -/
def ProjectUser.policyFor (projectUser : ProjectUser) (s : Store) (resource : String) :
    Option DepartmentRolePolicy :=
  s.departmentRolePolicy.rows.find? fun r =>
    some r.departmentRoleId == projectUser.departmentRoleId && r.resource == resource

/-- The first row about a resource among those of the role that a relation leads to. -/
def firstOf {ρ κ : Type} [Row κ] (t : Table κ) (ref : Option Id) (rows : List ρ)
    (parent : ρ → Id) (resource : ρ → String) (key : String) : Option ρ :=
  (ref.bind t.find).bind fun role =>
    rows.find? fun r => parent r == Row.key role && resource r == key

/-- The row of the project role about a resource, through the relation. -/
def ProjectUser.rolePermission (projectUser : ProjectUser) (s : Store) (resource : String) :
    Option Permission :=
  firstOf s.projectRole projectUser.projectRoleId s.permission.rows Permission.projectRoleId
    Permission.resource resource

/-- The row of the department role about a resource, through the relation. -/
def ProjectUser.rolePolicy (projectUser : ProjectUser) (s : Store) (resource : String) :
    Option DepartmentRolePolicy :=
  firstOf s.departmentRole projectUser.departmentRoleId s.departmentRolePolicy.rows
    DepartmentRolePolicy.departmentRoleId DepartmentRolePolicy.resource resource

/-- What `evaluatePermission` lets pass. -/
def passes (metadata : PermissionMetadata) (departmentId : Option Id)
    (permission : Option Permission) (departmentPolicy : Option DepartmentRolePolicy) : Bool :=
  match departmentPolicy, permission with
  | none, none =>
      metadata.action == .view && defaultViewResources.contains metadata.resourceKey
  | some policy, permission =>
      !(metadata.isTaskResource && permission.any fun p => p.otherDepartment departmentId) &&
        policy.flags.get metadata.action
  | none, some permission =>
      !(metadata.isTaskResource && permission.otherDepartment departmentId) &&
        permission.flags.get metadata.action

theorem evaluatePermission_iff (metadata : PermissionMetadata) (departmentId : Option Id)
    (permission : Option Permission) (departmentPolicy : Option DepartmentRolePolicy) :
    evaluatePermission metadata departmentId permission departmentPolicy = .ok true ↔
      passes metadata departmentId permission departmentPolicy = true := by
  unfold evaluatePermission passes
  cases departmentPolicy with
  | none =>
      cases permission with
      | none => simp
      | some permission =>
          cases hBlocked : metadata.isTaskResource && permission.otherDepartment departmentId with
          | true => simp [hBlocked]
          | false => simp [hBlocked]
  | some policy =>
      cases hBlocked : metadata.isTaskResource &&
          permission.any fun p => p.otherDepartment departmentId with
      | true => simp [hBlocked]
      | false => simp [hBlocked]

omit [Runtime] in
/-- The first included row about a resource. -/
theorem find_included {ρ κ : Type} [Row κ] (t : Table κ) (ref : Option Id) (rows : List ρ)
    (parent : ρ → Id) (resource : ρ → String) (key : String) :
    (included t ref fun row => rows.filter fun r =>
        parent r == Row.key row && resource r == key).find? (fun r => resource r == key) =
      firstOf t ref rows parent resource key := by
  unfold included firstOf
  cases ref.bind t.find with
  | none => rfl
  | some row =>
      simp only [Option.elim_some, Option.bind_some, List.find?_filter]
      congr 1
      funext r
      rw [Bool.eq_iff_iff]
      simp

omit [Runtime] in
/-- A relation to an existing row needs no join. -/
theorem firstOf_valid {ρ κ : Type} [Row κ] {t : Table κ} {ref : Option Id}
    (hRef : refOk t ref = true) (rows : List ρ) (parent : ρ → Id) (resource : ρ → String)
    (key : String) :
    firstOf t ref rows parent resource key =
      rows.find? fun r => some (parent r) == ref && resource r == key := by
  cases ref with
  | none =>
      have hNone : ∀ r ∈ rows, ¬ (some (parent r) == none && resource r == key) = true :=
        fun r _ => Bool.false_ne_true
      rw [List.find?_eq_none.mpr hNone]
      rfl
  | some k =>
      obtain ⟨row, hRow, hKey⟩ := Table.has_iff.mp hRef
      have hFind : t.find k = some row := Table.find_eq_some.mpr ⟨hRow, hKey⟩
      simp only [firstOf, Option.bind_some, hFind, hKey]
      rfl

omit [Runtime] in
theorem guardMember_none {s : Store} {projectId userId : Id} (resource : String)
    (h : memberOf s projectId userId = none) : guardMember s projectId userId resource = none := by
  rw [guardMember, h, Option.map_none]

/-- The decision of the guard's query. -/
theorem guardMember_evaluate {s : Store} {projectId userId : Id} (metadata : PermissionMetadata)
    {projectUser : ProjectUser} (hMember : memberOf s projectId userId = some projectUser) :
    ∃ member, guardMember s projectId userId metadata.resourceKey = some member ∧
      member.evaluate metadata = evaluatePermission metadata projectUser.departmentId
        (projectUser.rolePermission s metadata.resourceKey)
        (projectUser.rolePolicy s metadata.resourceKey) := by
  rw [guardMember, hMember]
  refine ⟨_, rfl, ?_⟩
  unfold ProjectUser.rolePermission ProjectUser.rolePolicy
  rw [← find_included, ← find_included]
  rfl

/-- The guard after it has found the project. -/
theorem canActivateUser_run {s : Store} {user : Viewer} (hRole : user.role ≠ some "admin")
    {metadata : PermissionMetadata} {args : GuardArgs} {projectId : Id}
    (hProject : projectIdOf s metadata args = some projectId)
    (hSet : isSet (some projectId) = true) :
    (canActivateUser user (some metadata) args).run s =
      ((match guardMember s projectId user.userId metadata.resourceKey with
        | none => .error (.forbidden "You are not assigned to this project")
        | some member => member.evaluate metadata), s) := by
  have hCheck : ∀ {e : Exn},
      (Prog.throwIf (isSet (some projectId) = false) e).run s = (.ok (), s) := by
    simp [hSet]
  unfold canActivateUser
  rw [if_neg hRole]
  dsimp only
  rw [Prog.run_bind_ok (resolveProjectId_run s metadata args), hProject, Prog.run_bind_ok hCheck]
  simp only [query, Prog.run_bind, Prog.run_read, Option.getD_some]
  cases guardMember s projectId user.userId metadata.resourceKey with
  | none => rfl
  | some member =>
      dsimp only
      cases member.evaluate metadata <;> rfl

/-- The guard lets the user through. -/
def Allows (s : Store) (user : Viewer) (metadata : PermissionMetadata) (args : GuardArgs) : Prop :=
  (canActivateUser user (some metadata) args).run s = (.ok true, s)

/-- The user is a member of the project that the arguments are about, and passes on the rows of
its roles. -/
def Permitted (s : Store) (userId : Id) (metadata : PermissionMetadata) (args : GuardArgs) : Prop :=
  ∃ projectId projectUser, projectIdOf s metadata args = some projectId ∧
    isSet (some projectId) = true ∧ memberOf s projectId userId = some projectUser ∧
    passes metadata projectUser.departmentId
      (projectUser.rolePermission s metadata.resourceKey)
      (projectUser.rolePolicy s metadata.resourceKey) = true

/-- **What the guard decides by**, in every store: a caller who is no admin passes when its rows
permit. -/
theorem canActivateUser_permitted {s : Store} {user : Viewer} (hRole : user.role ≠ some "admin")
    (metadata : PermissionMetadata) (args : GuardArgs) :
    ((canActivateUser user (some metadata) args).run s).1 = .ok true ↔
      Permitted s user.userId metadata args := by
  cases hSet : isSet (projectIdOf s metadata args) with
  | false =>
      refine iff_of_false ?_ ?_
      · unfold canActivateUser
        rw [if_neg hRole]
        dsimp only
        rw [Prog.run_bind_ok (resolveProjectId_run s metadata args), Prog.throwIf_bind, if_pos hSet]
        exact fun h => by cases h
      · rintro ⟨projectId, projectUser, hProject, hSome, -⟩
        rw [hProject, hSome] at hSet
        cases hSet
  | true =>
      cases hProject : projectIdOf s metadata args with
      | none =>
          rw [hProject] at hSet
          cases hSet
      | some projectId =>
          rw [hProject] at hSet
          rw [canActivateUser_run hRole hProject hSet]
          unfold Permitted
          cases hMember : memberOf s projectId user.userId with
          | none => simp [guardMember_none _ hMember, hProject, hMember]
          | some projectUser =>
              obtain ⟨member, hGuard, hEvaluate⟩ := guardMember_evaluate metadata hMember
              simp only [hGuard, hEvaluate, evaluatePermission_iff, hProject, Option.some.injEq,
                exists_and_left, exists_eq_left', hSet, hMember, true_and]

/-- The member passes on the rows that the guard picks for it. -/
def ProjectUser.passesGuard (projectUser : ProjectUser) (s : Store)
    (metadata : PermissionMetadata) : Bool :=
  passes metadata projectUser.departmentId
    (projectUser.permissionFor s metadata.resourceKey)
    (projectUser.policyFor s metadata.resourceKey)

/-- Whom the guard turns away. -/
theorem canActivateUser_refused (user : Viewer) (metadata : Option PermissionMetadata)
    (args : GuardArgs) (s : Store) :
    ((canActivateUser user metadata args).run s).1 ≠ .ok true ↔
      user.role ≠ some "admin" ∧ ∃ m, metadata = some m ∧ ¬ Permitted s user.userId m args := by
  by_cases hRole : user.role = some "admin"
  · refine iff_of_false (fun h => h ?_) fun h => h.1 hRole
    rw [canActivateUser.eq_def, if_pos hRole]
    rfl
  · rw [and_iff_right hRole]
    cases metadata with
    | none =>
        refine iff_of_false (fun h => h ?_) fun ⟨_, hSome, _⟩ => by cases hSome
        rw [canActivateUser.eq_def, if_neg hRole]
        rfl
    | some metadata =>
        rw [ne_eq, canActivateUser_permitted hRole]
        simp only [Option.some.injEq, exists_eq_left']

omit [Runtime] in
theorem rolePermission_valid {s : Store} (hValid : s.Valid) {projectUser : ProjectUser}
    (hMem : projectUser ∈ s.projectUser.rows) (resource : String) :
    projectUser.rolePermission s resource = projectUser.permissionFor s resource := by
  have hRef := hValid.projectUser.references projectUser hMem
  simp only [prisma.projectUser, Bool.and_eq_true] at hRef
  exact firstOf_valid hRef.1.1.2 _ _ _ _

omit [Runtime] in
theorem rolePolicy_valid {s : Store} (hValid : s.Valid) {projectUser : ProjectUser}
    (hMem : projectUser ∈ s.projectUser.rows) (resource : String) :
    projectUser.rolePolicy s resource = projectUser.policyFor s resource := by
  have hRef := hValid.projectUser.references projectUser hMem
  simp only [prisma.projectUser, Bool.and_eq_true] at hRef
  exact firstOf_valid hRef.2 _ _ _ _

/-- **Whom the guard lets through**: the members of the project that the arguments are about
who pass on the rows of their roles. -/
theorem canActivate_iff {s : Store} (hValid : s.Valid) {user : Viewer}
    (hRole : user.role ≠ some "admin") {metadata : PermissionMetadata} {args : GuardArgs}
    {projectId : Id} (hProject : projectIdOf s metadata args = some projectId)
    (hSet : isSet (some projectId) = true) :
    Allows s user metadata args ↔
      ∃ projectUser, memberOf s projectId user.userId = some projectUser ∧
        projectUser.passesGuard s metadata = true := by
  have hRun : (canActivateUser user (some metadata) args).run s =
      (((canActivateUser user (some metadata) args).run s).1, s) := by
    rw [canActivateUser_run hRole hProject hSet]
  rw [Allows, hRun, Prod.mk.injEq, eq_self_iff_true, and_true, canActivateUser_permitted hRole]
  unfold Permitted
  simp only [hProject, Option.some.injEq, exists_and_left, exists_eq_left', hSet, true_and]
  refine exists_congr fun projectUser => and_congr_right fun hMember => ?_
  rw [ProjectUser.passesGuard, rolePermission_valid hValid (memberOf_some hMember).1,
    rolePolicy_valid hValid (memberOf_some hMember).1]

end Decision

end Rooeel
