import Rooeel.Service
import Rooeel.Lib.Interleaving

/-!
# What one statement can do to the links between rows

Eight tables carry the links that decide rights: departments, department roles, project
roles, fields and their values, permissions, members, and tasks. A `Change` is one
indivisible thing that a statement of the services does to them. The statements that create
a link without looking at the project of its target are allowed only as far as `links` says.

`Acts` is any number of changes, so that a deletion with its referential actions is a
sequence of them. Everything later about the links is proved by cases on `Change`, once.
`Stable` is what all changes respect: a row that still exists belongs to the same parent as
before, and keys are not used again.
-/

namespace Rooeel

open Table

/-! ## Stability -/

/-- The columns of a task that no operation changes. -/
def Task.fixed (task : Task) : Id × String × Option JavaScript.Json :=
  (task.projectId, task.type, task.formSchema)

structure Stable (s s' : Store) : Prop where
  department : Keeps Department.projectId s.department s'.department
  departmentRole : Keeps DepartmentRole.departmentId s.departmentRole s'.departmentRole
  projectRole : Keeps ProjectRole.projectId s.projectRole s'.projectRole
  projectField : Keeps ProjectField.projectId s.projectField s'.projectField
  task : Keeps Task.fixed s.task s'.task

theorem Stable.refl (s : Store) : Stable s s :=
  ⟨.refl _ _, .refl _ _, .refl _ _, .refl _ _, .refl _ _⟩

theorem Stable.trans {s s' s'' : Store} (h : Stable s s') (h' : Stable s' s'') : Stable s s'' where
  department := h.department.trans h'.department
  departmentRole := h.departmentRole.trans h'.departmentRole
  projectRole := h.projectRole.trans h'.projectRole
  projectField := h.projectField.trans h'.projectField
  task := h.task.trans h'.task

/-! ## Changes -/

/-- The eight tables are the same. -/
structure SameLinks (s s' : Store) : Prop where
  department : s'.department = s.department
  departmentRole : s'.departmentRole = s.departmentRole
  projectRole : s'.projectRole = s.projectRole
  projectField : s'.projectField = s.projectField
  projectFieldValue : s'.projectFieldValue = s.projectFieldValue
  permission : s'.permission = s.permission
  projectUser : s'.projectUser = s.projectUser
  task : s'.task = s.task

/-- The member is put into a department of its project, with no role or a role of that
department. -/
def Placed (s : Store) (r r' : ProjectUser) : Prop :=
  (∃ d ∈ s.department.rows, r'.departmentId = some d.id ∧ d.projectId = r.projectId) ∧
    (r'.departmentRoleId = none ∨
      ∃ role ∈ s.departmentRole.rows,
        r'.departmentRoleId = some role.id ∧ r'.departmentId = some role.departmentId)

/-- A change of one member that keeps its project and adds no project role. -/
structure MemberChange (s : Store) (r r' : ProjectUser) : Prop where
  project : r'.projectId = r.projectId
  role : r'.projectRoleId = r.projectRoleId ∨ r'.projectRoleId = none
  department :
    r'.departmentId = r.departmentId ∧ r'.departmentRoleId = r.departmentRoleId ∨
    r'.departmentId = r.departmentId ∧ r'.departmentRoleId = none ∨
    r'.departmentId = none ∧ r'.departmentRoleId = none ∨
    Placed s r r'

/-- The links that are written without comparing the projects of their two ends: the role of
a member, a permission, the department of a task, and the value of a field. -/
inductive Link where
  | role
  | permission
  | task
  | value
  deriving DecidableEq

inductive Change (links : Link → Prop) (s : Store) : Store → Prop
  | plain {s' : Store} (h : SameLinks s s') : Change links s s'
  -- rows that nothing refers to yet
  | insertDepartment (mk : Id → Department) (hmk) :
      Change links s { s with department := s.department.insert mk hmk }
  | insertDepartmentRole (mk : Id → DepartmentRole) (hmk) :
      Change links s { s with departmentRole := s.departmentRole.insert mk hmk }
  | insertProjectRole (mk : Id → ProjectRole) (hmk) :
      Change links s { s with projectRole := s.projectRole.insert mk hmk }
  | insertField (mk : Id → ProjectField) (hmk) :
      Change links s { s with projectField := s.projectField.insert mk hmk }
  | insertMember (mk : Id → ProjectUser) (hmk)
      (hNew : ∀ k, (mk k).projectRoleId = none ∧ (mk k).departmentId = none ∧
        (mk k).departmentRoleId = none) :
      Change links s { s with projectUser := s.projectUser.insert mk hmk }
  -- columns that are not links
  | renameDepartment (p : Department → Bool) (f) (hf) (hLink : ∀ r, (f r).projectId = r.projectId) :
      Change links s { s with department := s.department.modify p f hf }
  | renameDepartmentRole (p : DepartmentRole → Bool) (f) (hf)
      (hLink : ∀ r, (f r).departmentId = r.departmentId) :
      Change links s { s with departmentRole := s.departmentRole.modify p f hf }
  | renameProjectRole (p : ProjectRole → Bool) (f) (hf)
      (hLink : ∀ r, (f r).projectId = r.projectId) :
      Change links s { s with projectRole := s.projectRole.modify p f hf }
  | setValue (p : ProjectFieldValue → Bool) (f) (hf)
      (hLink : ∀ r, (f r).fieldId = r.fieldId ∧ (f r).projectId = r.projectId) :
      Change links s { s with projectFieldValue := s.projectFieldValue.modify p f hf }
  | setFlags (p : Permission → Bool) (f) (hf)
      (hLink : ∀ r, (f r).projectRoleId = r.projectRoleId ∧ (f r).departmentId = r.departmentId) :
      Change links s { s with permission := s.permission.modify p f hf }
  | editTask (p : Task → Bool) (f) (hf)
      (hLink : ∀ r, (f r).fixed = r.fixed ∧ (f r).departmentId = r.departmentId) :
      Change links s { s with task := s.task.modify p f hf }
  | changeMember (p : ProjectUser → Bool) (f) (hf)
      (h : ∀ r ∈ s.projectUser.rows, p r = true → MemberChange s r (f r)) :
      Change links s { s with projectUser := s.projectUser.modify p f hf }
  -- deletions
  | eraseTask (p : Task → Bool) : Change links s { s with task := s.task.erase p }
  | erasePermission (p : Permission → Bool) :
      Change links s { s with permission := s.permission.erase p }
  | eraseFieldValue (p : ProjectFieldValue → Bool) :
      Change links s { s with projectFieldValue := s.projectFieldValue.erase p }
  | eraseField (p : ProjectField → Bool) :
      Change links s { s with projectField := s.projectField.erase p }
  | eraseMember (p : ProjectUser → Bool) :
      Change links s { s with projectUser := s.projectUser.erase p }
  | eraseDepartmentRole (p : DepartmentRole → Bool) :
      Change links s
        { s with
          departmentRole := s.departmentRole.erase p
          projectUser := s.projectUser.modify (fun _ => true)
            (fun u => { u with
              departmentRoleId := clearRef (keysOf s.departmentRole p) u.departmentRoleId })
            fun _ => rfl }
  | eraseDepartment (p : Department → Bool)
      (hRoles : ∀ role ∈ s.departmentRole.rows,
        (keysOf s.department p).contains role.departmentId = false) :
      Change links s
        { s with
          department := s.department.erase p
          projectUser := s.projectUser.modify (fun _ => true)
            (fun u => { u with departmentId := clearRef (keysOf s.department p) u.departmentId })
            fun _ => rfl
          task := s.task.modify (fun _ => true)
            (fun t => { t with departmentId := clearRef (keysOf s.department p) t.departmentId })
            fun _ => rfl }
  | eraseProjectRole (p : ProjectRole → Bool) :
      Change links s
        { s with
          projectRole := s.projectRole.erase p
          projectUser := s.projectUser.modify (fun _ => true)
            (fun u => { u with projectRoleId := clearRef (keysOf s.projectRole p) u.projectRoleId })
            fun _ => rfl }
  -- links to rows of any project
  | linkRole (hLinks : links .role) (p : ProjectUser → Bool) (f) (hf)
      (hLink : ∀ r, (f r).projectId = r.projectId ∧ (f r).departmentId = r.departmentId ∧
        (f r).departmentRoleId = r.departmentRoleId) :
      Change links s { s with projectUser := s.projectUser.modify p f hf }
  | insertPermission (hLinks : links .permission) (mk : Id → Permission) (hmk) :
      Change links s { s with permission := s.permission.insert mk hmk }
  | insertTask (hLinks : links .task) (mk : Id → Task) (hmk) :
      Change links s { s with task := s.task.insert mk hmk }
  | insertValue (hLinks : links .value) (mk : Id → ProjectFieldValue) (hmk) :
      Change links s { s with projectFieldValue := s.projectFieldValue.insert mk hmk }

/-- Any number of changes. -/
def Acts (links : Link → Prop) : Store → Store → Prop := Relation.ReflTransGen (Change links)

namespace Acts

variable {links : Link → Prop} {s s' s'' : Store}

theorem refl (s : Store) : Acts links s s := Relation.ReflTransGen.refl

theorem single (h : Change links s s') : Acts links s s' := Relation.ReflTransGen.single h

theorem trans (h : Acts links s s') (h' : Acts links s' s'') : Acts links s s'' :=
  Relation.ReflTransGen.trans h h'

/-- What every change keeps, all changes together keep. -/
theorem keeps {P : Store → Prop} (hStep : ∀ s s', Change links s s' → P s → P s')
    (h : Acts links s s') (hP : P s) : P s' := by
  induction h with
  | refl => exact hP
  | tail _ hChange ih => exact hStep _ _ hChange ih

end Acts

theorem keeps_clearDepartment (t : Table Task) (gone : List Id) :
    Keeps Task.fixed t (t.modify (fun _ => true)
      (fun r => { r with departmentId := clearRef gone r.departmentId }) fun _ => rfl) :=
  .modify _ _ _ _ fun _ => rfl

theorem Change.stable {links : Link → Prop} {s s' : Store} (h : Change links s s') :
    Stable s s' := by
  have hSelf := Stable.refl s
  cases h with
  | plain h =>
      exact ⟨.of_eq h.department, .of_eq h.departmentRole, .of_eq h.projectRole,
        .of_eq h.projectField, .of_eq h.task⟩
  | insertDepartment mk hmk => exact { hSelf with department := .insert _ mk hmk }
  | insertDepartmentRole mk hmk => exact { hSelf with departmentRole := .insert _ mk hmk }
  | insertProjectRole mk hmk => exact { hSelf with projectRole := .insert _ mk hmk }
  | insertField mk hmk => exact { hSelf with projectField := .insert _ mk hmk }
  | renameDepartment p f hf hLink => exact { hSelf with department := .modify _ p f hf hLink }
  | renameDepartmentRole p f hf hLink =>
      exact { hSelf with departmentRole := .modify _ p f hf hLink }
  | renameProjectRole p f hf hLink => exact { hSelf with projectRole := .modify _ p f hf hLink }
  | editTask p f hf hLink => exact { hSelf with task := .modify _ p f hf fun r => (hLink r).1 }
  | eraseTask p => exact { hSelf with task := .erase _ p }
  | eraseField p => exact { hSelf with projectField := .erase _ p }
  | eraseDepartmentRole p => exact { hSelf with departmentRole := .erase _ p }
  | eraseDepartment p hRoles =>
      exact { hSelf with
        department := .erase _ p
        task := keeps_clearDepartment s.task _ }
  | eraseProjectRole p => exact { hSelf with projectRole := .erase _ p }
  | insertTask hLinks mk hmk => exact { hSelf with task := .insert _ mk hmk }
  | insertMember | setValue | setFlags | changeMember | erasePermission | eraseFieldValue
  | eraseMember | linkRole | insertPermission | insertValue =>
      exact ⟨hSelf.department, hSelf.departmentRole, hSelf.projectRole, hSelf.projectField,
        hSelf.task⟩

theorem Acts.stable {links : Link → Prop} {s s' : Store} (h : Acts links s s') : Stable s s' := by
  induction h with
  | refl => exact Stable.refl _
  | tail _ hChange ih => exact ih.trans hChange.stable

/-! ## Deletions as sequences of changes -/

section Deletions

variable {links : Link → Prop}

theorem acts_plain {s s' : Store} (h : SameLinks s s') : Acts links s s' := .single (.plain h)

theorem acts_eraseSubTasks (p : SubTask → Bool) (s : Store) : Acts links s (eraseSubTasks p s) :=
  acts_plain ⟨rfl, rfl, rfl, rfl, rfl, rfl, rfl, rfl⟩

theorem acts_eraseTasks (p : Task → Bool) (s : Store) : Acts links s (eraseTasks p s) :=
  (Acts.single (.eraseTask p)).trans (acts_eraseSubTasks _ _)

theorem acts_erasePermissions (p : Permission → Bool) (s : Store) :
    Acts links s (erasePermissions p s) :=
  .single (.erasePermission p)

theorem acts_erasePolicies (p : DepartmentRolePolicy → Bool) (s : Store) :
    Acts links s (erasePolicies p s) :=
  acts_plain ⟨rfl, rfl, rfl, rfl, rfl, rfl, rfl, rfl⟩

theorem acts_eraseDepartmentRoles (p : DepartmentRole → Bool) (s : Store) :
    Acts links s (eraseDepartmentRoles p s) :=
  (Acts.single (.eraseDepartmentRole p)).trans (acts_erasePolicies _ _)

/-- The roles of the departments go first, so none is left when the departments go. -/
theorem acts_eraseDepartments (p : Department → Bool) (s : Store) :
    Acts links s (eraseDepartments p s) := by
  refine ((acts_eraseDepartmentRoles _ s).trans (acts_erasePermissions _ _)).trans
    (Acts.single (.eraseDepartment p ?_))
  intro role hRole
  have hKept := (mem_erase.mp hRole).2
  exact hKept

theorem acts_eraseProjectRoles (p : ProjectRole → Bool) (s : Store) :
    Acts links s (eraseProjectRoles p s) :=
  (acts_erasePermissions _ s).trans (Acts.single (.eraseProjectRole p))

theorem acts_eraseFieldValues (p : ProjectFieldValue → Bool) (s : Store) :
    Acts links s (eraseFieldValues p s) :=
  .single (.eraseFieldValue p)

theorem acts_eraseFields (p : ProjectField → Bool) (s : Store) : Acts links s (eraseFields p s) :=
  (Acts.single (.eraseField p)).trans (acts_eraseFieldValues _ _)

theorem acts_eraseWorkOrders (p : WorkOrderPdf → Bool) (s : Store) :
    Acts links s (eraseWorkOrders p s) :=
  acts_plain ⟨rfl, rfl, rfl, rfl, rfl, rfl, rfl, rfl⟩

theorem acts_eraseProjectUsers (p : ProjectUser → Bool) (s : Store) :
    Acts links s (eraseProjectUsers p s) :=
  .single (.eraseMember p)

theorem acts_eraseUserRequests (p : UserRequest → Bool) (s : Store) :
    Acts links s (eraseUserRequests p s) :=
  acts_plain ⟨rfl, rfl, rfl, rfl, rfl, rfl, rfl, rfl⟩

theorem acts_eraseProjects (p : Project → Bool) (s : Store) :
    Acts links s (eraseProjects p s) := by
  let gone := keysOf s.project p
  have hUsers : Acts links s _ := acts_eraseProjectUsers (fun r => gone.contains r.projectId) s
  have hTasks := hUsers.trans (acts_eraseTasks (fun r => gone.contains r.projectId) _)
  have hFields := hTasks.trans (acts_eraseFields (fun r => gone.contains r.projectId) _)
  have hValues := hFields.trans (acts_eraseFieldValues (fun r => gone.contains r.projectId) _)
  have hOrders := hValues.trans (acts_eraseWorkOrders (fun r => gone.contains r.projectId) _)
  have hDepartments := hOrders.trans (acts_eraseDepartments (fun r => gone.contains r.projectId) _)
  have hRoles := hDepartments.trans (acts_eraseProjectRoles (fun r => gone.contains r.projectId) _)
  exact hRoles.trans (acts_plain ⟨rfl, rfl, rfl, rfl, rfl, rfl, rfl, rfl⟩)

theorem acts_eraseUsers (p : User → Bool) (s : Store) : Acts links s (eraseUsers p s) := by
  let gone := keysOf s.user p
  have hRequests : Acts links s _ := acts_eraseUserRequests (fun r => gone.contains r.userId) s
  have hMembers := hRequests.trans (acts_eraseProjectUsers (fun r => gone.contains r.userId) _)
  have hTasks := hMembers.trans (Acts.single (.editTask (fun _ => true)
    (fun t => { t with assignedTo := clearRef gone t.assignedTo }) (fun _ => rfl)
    fun _ => ⟨rfl, rfl⟩))
  exact hTasks.trans (acts_plain ⟨rfl, rfl, rfl, rfl, rfl, rfl, rfl, rfl⟩)

theorem acts_eraseAdmins (p : Admin → Bool) (s : Store) : Acts links s (eraseAdmins p s) := by
  let gone := keysOf s.admin p
  have hRequests : Acts links s _ := acts_eraseUserRequests (fun r => gone.contains r.adminId) s
  have hProjects := hRequests.trans (acts_eraseProjects (fun r => gone.contains r.createdBy) _)
  have hOrders := hProjects.trans (acts_eraseWorkOrders (fun r => gone.contains r.uploadedBy) _)
  exact hOrders.trans (acts_plain ⟨rfl, rfl, rfl, rfl, rfl, rfl, rfl, rfl⟩)

end Deletions

end Rooeel
