import Rooeel.Project.ServiceOp
import Rooeel.Project.Changes

/-!
# Every operation acts by changes

`ServiceOp.stays` says that every step of a mutation is a sequence of `Change`s, whatever
other calls do in between, as long as they respect `Stable`. Only two mutations need to
remember something of what they have read: `assignUserToDepartment` and
`setUserDepartmentRole`.
-/

namespace Rooeel

open JavaScript Prog

/-! ## Rules -/

/-- Every step of the program is a sequence of changes, among others that are `Stable`. -/
def Stays {α : Type} (links : Link → Prop) (p : Service α) : Prop :=
  Guarantees Stable (Acts links) p

section Rules

variable {links : Link → Prop} {α β : Type} {ρ : Type} [Row ρ] {m : Model Store ρ}

theorem stays_pure (a : α) : Stays links (pure a : Service α) := guarantees_pure a

theorem stays_throw (e : Exn) : Stays links (throw e : Service α) := guarantees_throw e

theorem stays_bind {p : Service α} {f : α → Service β} (hp : Stays links p)
    (hf : ∀ a, Stays links (f a)) : Stays links (p >>= f) :=
  guarantees_bind hp hf

theorem stays_throwIf (c : Prop) [Decidable c] (e : Exn) :
    Stays links (Prog.throwIf c e : Service Unit) :=
  guarantees_throwIf c e

theorem stays_orTypeError {α : Type} (value : Option α) : Stays links (orTypeError value) :=
  guarantees_orTypeError value

theorem stays_read (f : Store → Except Exn α) : Stays links (Prog.read f) :=
  guarantees_read Acts.refl f

theorem stays_findUnique (m : Model Store ρ) (sel : ρ → Bool) :
    Stays links (findUnique m sel) :=
  stays_read _

theorem stays_findUniqueOrThrow (m : Model Store ρ) (id : Id) :
    Stays links (findUniqueOrThrow m id) :=
  stays_read _

theorem stays_execute {f : Store → Except DbError (α × Store)}
    (h : ∀ s a s', f s = .ok (a, s') → Acts links s s') : Stays links (execute f) :=
  guarantees_atomic Acts.refl fun s a s' hf => h s a s' (execute_ok hf)

theorem stays_create {mk : Id → ρ} {hmk : ∀ k, Row.key (mk k) = k}
    (h : ∀ s, m.references s (mk (m.table s).next) = true →
      Acts links s (m.put ((m.table s).insert mk hmk) s)) :
    Stays links (create m mk hmk) := by
  refine stays_execute fun s a s' hCreate => ?_
  obtain ⟨rfl, hRef, rfl⟩ := Model.create_ok hCreate
  exact h s hRef

theorem stays_update {sel : ρ → Bool} {f : ρ → ρ} {hf : ∀ r, Row.key (f r) = Row.key r}
    (h : ∀ s, ∀ r ∈ (m.table s).rows, sel r = true → m.references s (f r) = true →
      Acts links s (m.put ((m.table s).modify (fun x => Row.key x == Row.key r) f hf) s)) :
    Stays links (update m sel f hf) := by
  refine stays_execute fun s a s' hUpdate => ?_
  obtain ⟨r, hr, hSel, -, rfl, hRef, rfl⟩ := Model.update_ok hUpdate
  exact h s r hr hSel hRef

theorem stays_upsert {sel : ρ → Bool} {f : ρ → ρ} {mk : Id → ρ}
    {hf : ∀ r, Row.key (f r) = Row.key r} {hmk : ∀ k, Row.key (mk k) = k}
    (hUpdate : ∀ s, ∀ r ∈ (m.table s).rows, sel r = true → m.references s (f r) = true →
      Acts links s (m.put ((m.table s).modify (fun x => Row.key x == Row.key r) f hf) s))
    (hCreate : ∀ s, m.references s (mk (m.table s).next) = true →
      Acts links s (m.put ((m.table s).insert mk hmk) s)) :
    Stays links (upsert m sel f mk hf hmk) := by
  refine stays_execute fun s a s' hUpsert => ?_
  rcases Model.upsert_ok hUpsert with h | ⟨-, h⟩
  · obtain ⟨r, hr, hSel, -, rfl, hRef, rfl⟩ := Model.update_ok h
    exact hUpdate s r hr hSel hRef
  · obtain ⟨rfl, hRef, rfl⟩ := Model.create_ok h
    exact hCreate s hRef

theorem stays_delete {sel : ρ → Bool} (h : ∀ s p, Acts links s (m.erase p s)) :
    Stays links (delete m sel) := by
  refine stays_execute fun s a s' hDelete => ?_
  obtain ⟨-, -, rfl⟩ := Model.delete_ok hDelete
  exact h s _

theorem acts_changeMember {s : Store} {r : ProjectUser} {f : ProjectUser → ProjectUser}
    {hf : ∀ r, Row.key (f r) = Row.key r} (hr : r ∈ s.projectUser.rows)
    (h : MemberChange s r (f r)) :
    Acts links s { s with
      projectUser := s.projectUser.modify (fun x => Row.key x == Row.key r) f hf } := by
  refine .single (.changeMember _ f hf fun x hx hKey => ?_)
  rw [s.projectUser.key_inj hx hr (beq_iff_eq.mp hKey)]
  exact h

/-- An update of one member row. -/
theorem stays_updateMember {projectId userId : Id} {f : ProjectUser → ProjectUser}
    {hf : ∀ r, Row.key (f r) = Row.key r} (h : ∀ s r, MemberChange s r (f r)) :
    Stays links (updateMember projectId userId f hf) :=
  stays_update fun s r hr _ _ => acts_changeMember hr (h s r)

end Rules

/-! ## The reads that operations share -/

section Reads

variable [Runtime] {links : Link → Prop}

omit [Runtime] in
theorem stays_ite_pure {α : Type} (c : Bool) {p : Service α} (hp : Stays links p) (d : α) :
    Stays links (if c then p else pure d : Service α) := by
  cases c
  · exact stays_pure d
  · exact hp

theorem stays_getAccessMapForProjectUser (projectUser : Membership) :
    Stays links (getAccessMapForProjectUser projectUser) := by
  unfold getAccessMapForProjectUser
  refine stays_bind (stays_ite_pure _ (stays_read _) _) fun _ => ?_
  refine stays_bind (stays_ite_pure _ (stays_read _) _) fun _ => ?_
  refine stays_bind (stays_ite_pure _ (stays_read _) _) fun _ => ?_
  exact stays_pure _

theorem stays_getProjectUserContext (projectId userId : Id) :
    Stays links (getProjectUserContext projectId userId) := by
  unfold getProjectUserContext
  refine stays_bind (stays_findUnique _ _) fun found => ?_
  cases found with
  | none => exact stays_pure _
  | some projectUser =>
      exact stays_bind (stays_getAccessMapForProjectUser _) fun _ => stays_pure _

theorem stays_findOne (id : Id) : Stays links (findOne id) := by
  refine stays_bind (stays_read _) fun found => ?_
  cases found with
  | none => exact stays_throw _
  | some view => exact stays_pure _

omit [Runtime] in
theorem stays_requireName (name : String) : Stays links (requireName name) :=
  stays_bind (stays_throwIf _ _) fun _ => stays_pure _

end Reads

/-! ## Operations on departments that remember what they read -/

section Remembering

variable {links : Link → Prop}

/-- The member is put into the department that was read, whose project has not changed. -/
theorem stays_assignUserToDepartment (projectId userId departmentId : Id) :
    Stays links (assignUserToDepartment projectId userId departmentId) := by
  intro s
  refine safe_read_bind Acts.refl fun s₁ department _ hRead => ?_
  refine safe_throwIf_bind fun hProject => ?_
  refine safe_atomic Acts.refl fun s₂ row s₃ hStable hUpdate => ?_
  -- the department as it was read
  obtain ⟨hMem, hKey⟩ := Model.findFirst_some (found_of_ok hRead)
  have hId : department.id = departmentId := beq_iff_eq.mp hKey
  -- the department as the foreign key finds it
  obtain ⟨r, hr, hSel, -, rfl, hRef, rfl⟩ := Model.update_ok (execute_ok hUpdate)
  simp only [prisma.projectUser, Bool.and_eq_true] at hRef
  obtain ⟨d, hd, hdKey⟩ := Table.has_iff.mp hRef.1.2
  have hSame : d.projectId = department.projectId :=
    hStable.department.link_eq hMem hd (hdKey.trans hId.symm)
  refine acts_changeMember hr ⟨rfl, Or.inl rfl, Or.inr (Or.inr (Or.inr ⟨⟨d, hd, ?_, ?_⟩, ?_⟩))⟩
  · exact congrArg some hdKey.symm
  · rw [hSame, (isMember_iff.mp hSel).1]
    exact not_not.mp hProject
  · exact Or.inl rfl

theorem findDepartmentRole_ok {s : Store} {id project : Id} {role : DepartmentRole}
    (h : (match s.departmentRole.find id with
      | none => .error (.prisma .notFound)
      | some role =>
        match s.department.find role.departmentId with
        | none => .error (.prisma .notFound)
        | some department => .ok (role, department.projectId) : Except Exn (DepartmentRole × Id)) =
      .ok (role, project)) :
    role ∈ s.departmentRole.rows ∧ ∃ department ∈ s.department.rows,
      department.id = role.departmentId ∧ department.projectId = project := by
  split at h
  · cases h
  · rename_i role' hRole
    split at h
    · cases h
    · rename_i department hDepartment
      cases h
      obtain ⟨hMem, hKey⟩ := Table.find_eq_some.mp hDepartment
      exact ⟨(Table.find_eq_some.mp hRole).1, department, hMem, hKey, rfl⟩

/-- The member gets the role that was read; neither its department nor that department's
project have changed. -/
theorem stays_setUserDepartmentRole (projectId userId departmentRoleId : Id) :
    Stays links (setUserDepartmentRole projectId userId departmentRoleId) := by
  refine stays_bind (stays_read _) fun _ => ?_
  intro s
  refine safe_read_bind Acts.refl fun s₁ found _ hRead => ?_
  refine safe_throwIf_bind fun hProject => ?_
  refine safe_atomic Acts.refl fun s₂ row s₃ hStable hUpdate => ?_
  obtain ⟨role, project⟩ := found
  -- the role and its department as they were read
  obtain ⟨hRoleMem, department, hMem, hId, hDepartmentProject⟩ := findDepartmentRole_ok hRead
  -- both as the foreign keys find them
  obtain ⟨r, hr, hSel, -, rfl, hRef, rfl⟩ := Model.update_ok (execute_ok hUpdate)
  simp only [prisma.projectUser, Bool.and_eq_true] at hRef
  obtain ⟨d, hd, hdKey⟩ := Table.has_iff.mp hRef.1.2
  obtain ⟨role', hRole', hRoleKey⟩ := Table.has_iff.mp hRef.2
  have hSameDepartment : d.projectId = department.projectId :=
    hStable.department.link_eq hMem hd (hdKey.trans hId.symm)
  have hSameRole : role'.departmentId = role.departmentId :=
    hStable.departmentRole.link_eq hRoleMem hRole' hRoleKey
  refine acts_changeMember hr ⟨rfl, Or.inl rfl, Or.inr (Or.inr (Or.inr ⟨⟨d, hd, ?_, ?_⟩,
    Or.inr ⟨role', hRole', ?_, ?_⟩⟩))⟩
  · exact congrArg some hdKey.symm
  · rw [hSameDepartment, hDepartmentProject, (isMember_iff.mp hSel).1]
    exact not_not.mp hProject
  · exact congrArg some hRoleKey.symm
  · exact congrArg some hSameRole.symm

end Remembering

/-! ## All operations -/

/-- The links that an operation writes without comparing projects. -/
def ServiceOp.links : ServiceOp → Link → Prop
  | .setFieldValue .., link => link = .value
  | .setUserRole .., link => link = .role
  | .setPermission .., link => link = .permission
  | .createTask .., link => link = .task
  | _, _ => False

section Operations

-- the rules are applied to the operations; what they are about is not computed
attribute [local irreducible] Stays

variable [Runtime] {links : Link → Prop}

theorem stays_updateProject (id : Id) (input : UpdateProjectInput) :
    Stays links (updateProject id input) := by
  refine stays_bind (stays_findOne id) fun _ => ?_
  refine stays_bind (stays_throwIf _ _) fun _ => ?_
  exact stays_update fun s r _ _ _ => acts_plain ⟨rfl, rfl, rfl, rfl, rfl, rfl, rfl, rfl⟩

omit [Runtime] in
theorem stays_setFieldValue (hLinks : links .value) (projectId fieldId : Id) (value : String)
    (updatedAt : Int) : Stays links (setFieldValue projectId fieldId value updatedAt) :=
  stays_upsert (fun _ _ _ _ _ => .single (.setValue _ _ _ fun _ => ⟨rfl, rfl⟩))
    fun _ _ => .single (.insertValue hLinks _ _)

theorem stays_assignUser (projectId userId : Id) : Stays links (assignUser projectId userId) := by
  refine stays_bind (stays_findOne projectId) fun _ => ?_
  refine stays_bind (stays_findUnique _ _) fun _ => ?_
  refine stays_bind (stays_throwIf _ _) fun _ => ?_
  exact stays_create fun _ _ => .single (.insertMember _ _ fun _ => ⟨rfl, rfl, rfl⟩)

omit [Runtime] in
theorem stays_objects (f : Store → List String) :
    Stays links (execute fun s => .ok ((), { s with objects := f s })) := by
  refine stays_execute fun s a s' h => ?_
  cases h
  exact acts_plain ⟨rfl, rfl, rfl, rfl, rfl, rfl, rfl, rfl⟩

theorem stays_uploadWorkOrder (projectId adminId : Id) (file : Upload) :
    Stays links (uploadWorkOrder projectId adminId file) := by
  refine stays_bind (stays_findOne projectId) fun _ => ?_
  refine stays_bind (stays_objects _) fun _ => ?_
  exact stays_create fun _ _ => acts_plain ⟨rfl, rfl, rfl, rfl, rfl, rfl, rfl, rfl⟩

omit [Runtime] in
theorem stays_deleteWorkOrder (workOrderId : Id) : Stays links (deleteWorkOrder workOrderId) := by
  refine stays_bind (stays_findUniqueOrThrow _ _) fun wo => ?_
  refine stays_bind (stays_objects _) fun _ => ?_
  exact stays_bind (stays_delete fun s p => acts_eraseWorkOrders p s) fun _ => stays_pure _

theorem stays_createRole (projectId : Id) (name : String) :
    Stays links (createRole projectId name) := by
  refine stays_bind (stays_findOne projectId) fun _ => ?_
  refine stays_bind (stays_requireName name) fun _ => ?_
  refine stays_bind (stays_findUnique _ _) fun _ => ?_
  refine stays_bind (stays_throwIf _ _) fun _ => ?_
  exact stays_create fun _ _ => .single (.insertProjectRole _ _)

omit [Runtime] in
theorem stays_updateRole (id : Id) (name : String) : Stays links (updateRole id name) := by
  refine stays_bind (stays_findUniqueOrThrow _ _) fun _ => ?_
  refine stays_bind (stays_requireName name) fun _ => ?_
  refine stays_bind (stays_findUnique _ _) fun _ => ?_
  refine stays_bind (stays_throwIf _ _) fun _ => ?_
  exact stays_update fun _ _ _ _ _ => .single (.renameProjectRole _ _ _ fun _ => rfl)

omit [Runtime] in
theorem stays_setUserRole (hLinks : links .role) (projectId userId roleId : Id) :
    Stays links (setUserRole projectId userId roleId) :=
  stays_update fun _ _ _ _ _ => .single (.linkRole hLinks _ _ _ fun _ => ⟨rfl, rfl, rfl⟩)

omit [Runtime] in
theorem stays_createDepartmentRole (departmentId : Id) (name : String) :
    Stays links (createDepartmentRole departmentId name) := by
  refine stays_bind (stays_findUniqueOrThrow _ _) fun _ => ?_
  refine stays_bind (stays_requireName name) fun _ => ?_
  exact stays_create fun _ _ => .single (.insertDepartmentRole _ _)

omit [Runtime] in
theorem stays_updateDepartmentRole (id : Id) (name : String) :
    Stays links (updateDepartmentRole id name) := by
  refine stays_bind (stays_findUniqueOrThrow _ _) fun _ => ?_
  refine stays_bind (stays_requireName name) fun _ => ?_
  refine stays_bind (stays_findUnique _ _) fun _ => ?_
  refine stays_bind (stays_throwIf _ _) fun _ => ?_
  exact stays_update fun _ _ _ _ _ => .single (.renameDepartmentRole _ _ _ fun _ => rfl)

theorem stays_setDepartmentRolePolicy (roleId : Id) (resource : String) (flags : Flags) :
    Stays links (setDepartmentRolePolicy roleId resource flags) := by
  refine stays_bind (stays_findUniqueOrThrow _ _) fun _ => ?_
  refine stays_bind (stays_throwIf _ _) fun _ => ?_
  refine stays_bind (stays_throwIf _ _) fun _ => ?_
  exact stays_upsert
    (fun _ _ _ _ _ => acts_plain ⟨rfl, rfl, rfl, rfl, rfl, rfl, rfl, rfl⟩)
    fun _ _ => acts_plain ⟨rfl, rfl, rfl, rfl, rfl, rfl, rfl, rfl⟩

theorem stays_setPermission (hLinks : links .permission) (roleId : Id) (resource : String)
    (departmentId : Option Id) (flags : Flags) :
    Stays links (setPermission roleId resource departmentId flags) := by
  refine stays_bind (stays_throwIf _ _) fun _ => ?_
  cases departmentId with
  | none =>
      refine stays_bind (stays_findUnique _ _) fun existing => ?_
      cases existing with
      | none => exact stays_create fun _ _ => .single (.insertPermission hLinks _ _)
      | some permission =>
          exact stays_update fun _ _ _ _ _ => .single (.setFlags _ _ _ fun _ => ⟨rfl, rfl⟩)
  | some department =>
      exact stays_upsert (fun _ _ _ _ _ => .single (.setFlags _ _ _ fun _ => ⟨rfl, rfl⟩))
        fun _ _ => .single (.insertPermission hLinks _ _)

omit [Runtime] in
theorem stays_includeSubtasks {statement : Store → Except DbError (Task × Store)}
    (h : ∀ s t s', statement s = .ok (t, s') → Acts links s s') :
    Stays links (includeSubtasks statement) := by
  refine stays_execute fun s row s' hRow => ?_
  exact h s row.task s' (includeSubtasks_ok hRow)

/-- The membership that the checks on tasks begin with. -/
theorem stays_member {β : Type} {projectId userId : Id} {e : Exn}
    {k : ProjectUserContext → Service β} (h : ∀ context, Stays links (k context)) :
    Stays links (getProjectUserContext projectId userId >>= fun context =>
      match context with
      | none => throw e
      | some context => k context) := by
  refine stays_bind (stays_getProjectUserContext _ _) fun context => ?_
  cases context with
  | none => exact stays_throw _
  | some c => exact h c

theorem stays_authorizeCreateTask (projectId : Id) (data : CreateTaskInput)
    (viewer : Option Viewer) : Stays links (authorizeCreateTask projectId data viewer) := by
  unfold authorizeCreateTask
  cases nonAdmin viewer with
  | none => exact stays_pure _
  | some v =>
      refine stays_member fun c => stays_bind (stays_orTypeError _) fun _ => ?_
      exact stays_bind (stays_throwIf _ _) fun _ => stays_pure _

theorem stays_createTask (hLinks : links .task) (projectId : Id) (data : CreateTaskInput)
    (viewer : Option Viewer) : Stays links (createTask projectId data viewer) := by
  refine stays_bind (stays_authorizeCreateTask _ _ _) fun _ => ?_
  refine stays_bind (stays_throwIf _ _) fun _ => ?_
  refine stays_bind (stays_includeSubtasks fun s t s' h => ?_) fun _ => stays_pure _
  obtain ⟨-, -, rfl⟩ := Model.create_ok h
  exact .single (.insertTask hLinks _ _)

theorem stays_authorizeUpdateTask (task : Task) (data : UpdateTaskInput) (viewer : Option Viewer) :
    Stays links (authorizeUpdateTask task data viewer) := by
  unfold authorizeUpdateTask
  cases nonAdmin viewer with
  | none => exact stays_pure _
  | some v =>
      refine stays_member fun c => stays_bind (stays_orTypeError _) fun _ => ?_
      refine stays_bind (stays_orTypeError _) fun _ => stays_bind (stays_throwIf _ _) fun _ => ?_
      exact stays_bind (stays_throwIf _ _) fun _ => stays_throwIf _ _

theorem stays_updateTask (id : Id) (data : UpdateTaskInput) (viewer : Option Viewer) :
    Stays links (updateTask id data viewer) := by
  refine stays_bind (stays_findUniqueOrThrow _ _) fun existingTask => ?_
  refine stays_bind (stays_authorizeUpdateTask _ _ _) fun _ => ?_
  refine stays_bind (stays_throwIf _ _) fun _ => ?_
  refine stays_bind (stays_includeSubtasks fun s t s' h => ?_) fun _ => stays_pure _
  obtain ⟨r, -, -, -, -, -, rfl⟩ := Model.update_ok h
  exact .single (.editTask _ _ _ fun _ => ⟨rfl, rfl⟩)

theorem stays_removeTask (id : Id) (viewer : Option Viewer) :
    Stays links (removeTask id viewer) := by
  refine stays_bind (stays_findUniqueOrThrow _ _) fun existingTask => ?_
  refine stays_bind ?_ fun _ => stays_bind (stays_delete fun s p => acts_eraseTasks p s)
    fun _ => stays_pure _
  unfold authorizeRemoveTask
  cases nonAdmin viewer with
  | none => exact stays_pure _
  | some v =>
      exact stays_member fun c => stays_bind (stays_orTypeError _) fun _ => stays_throwIf _ _

omit [Runtime] in
/-- A deletion after a check that the row exists. -/
theorem stays_removeById {ρ : Type} [Row ρ] {m : Model Store ρ} {id : Id} {sel : ρ → Bool}
    (h : ∀ s p, Acts links s (m.erase p s)) :
    Stays links (do
      let _row ← findUniqueOrThrow m id
      let _deleted ← delete m sel
      pure true : Service Bool) :=
  stays_bind (stays_findUniqueOrThrow m id) fun _ =>
    stays_bind (stays_delete h) fun _ => stays_pure _

omit [Runtime] in
theorem stays_answering {α : Type} {f : α → Answer} {p : Service α} (h : Stays links p) :
    Stays links (answering f p) :=
  stays_bind h fun _ => stays_pure _

/-- **Every mutation acts by changes**, and only four of them by changes that link. -/
theorem ServiceOp.stays (op : ServiceOp) : Stays op.links op.prog := by
  cases op with
  | createProject adminId input =>
      exact stays_answering (stays_create fun _ _ =>
        acts_plain ⟨rfl, rfl, rfl, rfl, rfl, rfl, rfl, rfl⟩)
  | updateProject id input => exact stays_answering (stays_updateProject id input)
  | removeProject id =>
      exact stays_answering (stays_bind (stays_findOne id) fun _ =>
        stays_delete fun s p => acts_eraseProjects p s)
  | createField projectId input =>
      exact stays_answering (stays_bind (stays_throwIf _ _) fun _ =>
        stays_create fun _ _ => .single (.insertField _ _))
  | deleteField fieldId => exact stays_answering (stays_removeById fun s p => acts_eraseFields p s)
  | setFieldValue projectId fieldId value updatedAt =>
      have hLinks : (ServiceOp.setFieldValue projectId fieldId value updatedAt).links .value := rfl
      exact stays_answering (stays_setFieldValue hLinks _ _ _ _)
  | assignUser projectId userId => exact stays_answering (stays_assignUser projectId userId)
  | unassignUser projectId userId =>
      exact stays_answering (stays_bind (stays_delete fun s p => acts_eraseProjectUsers p s)
        fun _ => stays_pure _)
  | uploadWorkOrder projectId adminId file => exact stays_answering (stays_uploadWorkOrder _ _ _)
  | deleteWorkOrder workOrderId => exact stays_answering (stays_deleteWorkOrder workOrderId)
  | createRole projectId name => exact stays_answering (stays_createRole projectId name)
  | updateRole id name => exact stays_answering (stays_updateRole id name)
  | removeRole id => exact stays_answering (stays_removeById fun s p => acts_eraseProjectRoles p s)
  | setUserRole projectId userId roleId =>
      have hLinks : (ServiceOp.setUserRole projectId userId roleId).links .role := rfl
      exact stays_answering (stays_setUserRole hLinks _ _ _)
  | unsetUserRole projectId userId =>
      exact stays_answering (stays_updateMember fun _ _ =>
        ⟨rfl, Or.inr rfl, Or.inl ⟨rfl, rfl⟩⟩)
  | createDepartment projectId name =>
      exact stays_answering (stays_bind (stays_findOne projectId) fun _ =>
        stays_create fun _ _ => .single (.insertDepartment _ _))
  | updateDepartment id name =>
      exact stays_answering (stays_bind (stays_findUniqueOrThrow _ _) fun _ =>
        stays_update fun _ _ _ _ _ => .single (.renameDepartment _ _ _ fun _ => rfl))
  | removeDepartment id =>
      exact stays_answering (stays_removeById fun s p => acts_eraseDepartments p s)
  | createDepartmentRole departmentId name =>
      exact stays_answering (stays_createDepartmentRole departmentId name)
  | updateDepartmentRole id name => exact stays_answering (stays_updateDepartmentRole id name)
  | removeDepartmentRole id =>
      exact stays_answering (stays_removeById fun s p => acts_eraseDepartmentRoles p s)
  | setDepartmentRolePolicy roleId resource flags =>
      exact stays_answering (stays_setDepartmentRolePolicy _ _ _)
  | removeDepartmentRolePolicy id =>
      exact stays_answering (stays_removeById fun s p => acts_erasePolicies p s)
  | assignUserToDepartment projectId userId departmentId =>
      exact stays_answering (stays_assignUserToDepartment _ _ _)
  | removeUserFromDepartment projectId userId =>
      exact stays_answering (stays_updateMember fun _ _ =>
        ⟨rfl, Or.inl rfl, Or.inr (Or.inr (Or.inl ⟨rfl, rfl⟩))⟩)
  | setUserDepartmentRole projectId userId departmentRoleId =>
      exact stays_answering (stays_setUserDepartmentRole _ _ _)
  | unsetUserDepartmentRole projectId userId =>
      exact stays_answering (stays_updateMember fun _ _ =>
        ⟨rfl, Or.inl rfl, Or.inr (Or.inl ⟨rfl, rfl⟩)⟩)
  | setPermission roleId resource departmentId flags =>
      have hLinks :
          (ServiceOp.setPermission roleId resource departmentId flags).links .permission := rfl
      exact stays_answering (stays_setPermission hLinks _ _ _ _)
  | removePermission id =>
      exact stays_answering (stays_removeById fun s p => acts_erasePermissions p s)
  | createTask projectId data viewer =>
      have hLinks : (ServiceOp.createTask projectId data viewer).links .task := rfl
      exact stays_answering (stays_createTask hLinks _ _ _)
  | updateTask id data viewer => exact stays_answering (stays_updateTask _ _ _)
  | removeTask id viewer => exact stays_answering (stays_removeTask _ _)
  | createSubTask taskId data =>
      exact stays_answering (stays_bind (stays_throwIf _ _) fun _ =>
        stays_create fun _ _ => acts_plain ⟨rfl, rfl, rfl, rfl, rfl, rfl, rfl, rfl⟩)
  | updateSubTask id data =>
      exact stays_answering (stays_bind (stays_findUniqueOrThrow _ _) fun _ =>
        stays_bind (stays_throwIf _ _) fun _ =>
          stays_update fun _ _ _ _ _ => acts_plain ⟨rfl, rfl, rfl, rfl, rfl, rfl, rfl, rfl⟩)
  | removeSubTask id => exact stays_answering (stays_removeById fun s p => acts_eraseSubTasks p s)
  | removeUser id =>
      exact stays_answering (stays_bind (stays_findUnique _ _) fun _ =>
        stays_bind (stays_throwIf _ _) fun _ => stays_delete fun s p => acts_eraseUsers p s)
  | removeAdmin id =>
      exact stays_answering (stays_bind (stays_findUnique _ _) fun _ =>
        stays_bind (stays_throwIf _ _) fun _ =>
          stays_bind (stays_delete fun s p => acts_eraseAdmins p s) fun _ => stays_pure _)

end Operations

end Rooeel
