import Rooeel.Project.Runs

/-!
# Members and departments

A member's department is a department of the member's project, and its department role is a
role of that department. Every change keeps this, the deletions with their referential
actions included, so it holds after any interleaving of mutations that starts from the
empty store.
-/

namespace Rooeel

open JavaScript Prog

/-- The two columns of a member that place it in a department. -/
structure DepartmentInv (s : Store) : Prop where
  department : ∀ u ∈ s.projectUser.rows, ∀ k, u.departmentId = some k →
    ∃ d ∈ s.department.rows, d.id = k ∧ d.projectId = u.projectId
  role : ∀ u ∈ s.projectUser.rows, ∀ k, u.departmentRoleId = some k →
    ∃ role ∈ s.departmentRole.rows, role.id = k ∧ u.departmentId = some role.departmentId

/-! ## One change -/

/-- A row whose key is not among the deleted ones is still there. -/
theorem mem_erase_of_kept {ρ : Type} [Row ρ] {t : Table ρ} {p : ρ → Bool} {r : ρ}
    (hr : r ∈ t.rows) (hKept : (keysOf t p).contains (Row.key r) = false) :
    r ∈ (t.erase p).rows := by
  refine Table.mem_erase.mpr ⟨hr, ?_⟩
  cases hp : p r with
  | false => rfl
  | true =>
      have hGone := keysOf_contains.mpr ⟨r, hr, hp, rfl⟩
      rw [hGone] at hKept
      cases hKept

namespace DepartmentInv

variable {s : Store}

/-- The invariant reads three tables. -/
theorem of_same {s' : Store} (h : DepartmentInv s) (hUser : s'.projectUser = s.projectUser)
    (hDepartment : s'.department = s.department)
    (hRole : s'.departmentRole = s.departmentRole) : DepartmentInv s' := by
  constructor
  · rw [hUser, hDepartment]
    exact h.department
  · rw [hUser, hRole]
    exact h.role

theorem insertDepartment (h : DepartmentInv s) (mk : Id → Department) (hmk) :
    DepartmentInv { s with department := s.department.insert mk hmk } where
  department := by
    intro u hu k hk
    obtain ⟨d, hd, hId, hProject⟩ := h.department u hu k hk
    exact ⟨d, List.mem_append_left _ hd, hId, hProject⟩
  role := h.role

theorem insertDepartmentRole (h : DepartmentInv s) (mk : Id → DepartmentRole) (hmk) :
    DepartmentInv { s with departmentRole := s.departmentRole.insert mk hmk } where
  department := h.department
  role := by
    intro u hu k hk
    obtain ⟨role, hRole, hId, hDepartment⟩ := h.role u hu k hk
    exact ⟨role, List.mem_append_left _ hRole, hId, hDepartment⟩

theorem insertMember (h : DepartmentInv s) (mk : Id → ProjectUser) (hmk)
    (hNew : ∀ k, (mk k).projectRoleId = none ∧ (mk k).departmentId = none ∧
      (mk k).departmentRoleId = none) :
    DepartmentInv { s with projectUser := s.projectUser.insert mk hmk } where
  department := by
    refine Table.forall_insert mk hmk h.department fun k hk => ?_
    rw [(hNew _).2.1] at hk
    cases hk
  role := by
    refine Table.forall_insert mk hmk h.role fun k hk => ?_
    rw [(hNew _).2.2] at hk
    cases hk

theorem renameDepartment (h : DepartmentInv s) (p : Department → Bool) (f) (hf)
    (hLink : ∀ r, (f r).projectId = r.projectId) :
    DepartmentInv { s with department := s.department.modify p f hf } where
  department := by
    intro u hu k hk
    obtain ⟨d, hd, hId, hProject⟩ := h.department u hu k hk
    refine ⟨_, Table.mem_modify_of_mem p f hf hd, ?_⟩
    split
    · exact ⟨(hf d).trans hId, (hLink d).trans hProject⟩
    · exact ⟨hId, hProject⟩
  role := h.role

theorem renameDepartmentRole (h : DepartmentInv s) (p : DepartmentRole → Bool) (f) (hf)
    (hLink : ∀ r, (f r).departmentId = r.departmentId) :
    DepartmentInv { s with departmentRole := s.departmentRole.modify p f hf } where
  department := h.department
  role := by
    intro u hu k hk
    obtain ⟨role, hRole, hId, hDepartment⟩ := h.role u hu k hk
    refine ⟨_, Table.mem_modify_of_mem p f hf hRole, ?_⟩
    split
    · exact ⟨(hf role).trans hId, by rw [hLink]; exact hDepartment⟩
    · exact ⟨hId, hDepartment⟩

/-- The two columns of one row after a change of that row. -/
theorem memberChange (h : DepartmentInv s) {r r' : ProjectUser} (hr : r ∈ s.projectUser.rows)
    (hChange : MemberChange s r r') :
    (∀ k, r'.departmentId = some k →
        ∃ d ∈ s.department.rows, d.id = k ∧ d.projectId = r'.projectId) ∧
      ∀ k, r'.departmentRoleId = some k →
        ∃ role ∈ s.departmentRole.rows, role.id = k ∧ r'.departmentId = some role.departmentId := by
  rw [hChange.project]
  rcases hChange.department with ⟨hDepartment, hRole⟩ | ⟨hDepartment, hRole⟩ |
    ⟨hDepartment, hRole⟩ | ⟨⟨d, hd, hDepartment, hProject⟩, hRole⟩
  · rw [hDepartment, hRole]
    exact ⟨h.department r hr, h.role r hr⟩
  · rw [hDepartment, hRole]
    refine ⟨h.department r hr, fun k hk => ?_⟩
    cases hk
  · rw [hDepartment, hRole]
    refine ⟨fun k hk => ?_, fun k hk => ?_⟩
    · cases hk
    · cases hk
  · refine ⟨fun k hk => ?_, fun k hk => ?_⟩
    · rw [hDepartment] at hk
      exact ⟨d, hd, Option.some.inj hk, hProject⟩
    · rcases hRole with hNone | ⟨role, hMem, hId, hSame⟩
      · rw [hNone] at hk
        cases hk
      · rw [hId] at hk
        exact ⟨role, hMem, Option.some.inj hk, hSame⟩

theorem changeMember (h : DepartmentInv s) (p : ProjectUser → Bool) (f) (hf)
    (hChange : ∀ r ∈ s.projectUser.rows, p r = true → MemberChange s r (f r)) :
    DepartmentInv { s with projectUser := s.projectUser.modify p f hf } where
  department := Table.forall_modify p f hf h.department
    fun r hr hp => (h.memberChange hr (hChange r hr hp)).1
  role := Table.forall_modify p f hf h.role
    fun r hr hp => (h.memberChange hr (hChange r hr hp)).2

/-- A change of members that keeps the project and both columns. -/
theorem keepMember (h : DepartmentInv s) (p : ProjectUser → Bool) (f) (hf)
    (hLink : ∀ r, (f r).projectId = r.projectId ∧ (f r).departmentId = r.departmentId ∧
      (f r).departmentRoleId = r.departmentRoleId) :
    DepartmentInv { s with projectUser := s.projectUser.modify p f hf } where
  department := by
    refine Table.forall_modify p f hf h.department fun r hr _ k hk => ?_
    rw [(hLink r).1]
    rw [(hLink r).2.1] at hk
    exact h.department r hr k hk
  role := by
    refine Table.forall_modify p f hf h.role fun r hr _ k hk => ?_
    rw [(hLink r).2.1]
    rw [(hLink r).2.2] at hk
    exact h.role r hr k hk

theorem eraseMember (h : DepartmentInv s) (p : ProjectUser → Bool) :
    DepartmentInv { s with projectUser := s.projectUser.erase p } where
  department := Table.forall_erase p h.department
  role := Table.forall_erase p h.role

/-- A member whose role is deleted keeps its department; no other role changes. -/
theorem eraseDepartmentRole (h : DepartmentInv s) (p : DepartmentRole → Bool) :
    DepartmentInv
      { s with
        departmentRole := s.departmentRole.erase p
        projectUser := s.projectUser.modify (fun _ => true)
          (fun u => { u with
            departmentRoleId := clearRef (keysOf s.departmentRole p) u.departmentRoleId })
          fun _ => rfl } := by
  constructor
  · intro u hu k hk
    obtain ⟨r, hr, rfl⟩ := List.mem_map.mp hu
    exact h.department r hr k hk
  · intro u hu k hk
    obtain ⟨r, hr, rfl⟩ := List.mem_map.mp hu
    obtain ⟨hRole, hKept⟩ := clearRef_some hk
    obtain ⟨role, hMem, hId, hDepartment⟩ := h.role r hr k hRole
    refine ⟨role, mem_erase_of_kept hMem ?_, hId, hDepartment⟩
    rw [← hId] at hKept
    exact hKept

/-- No role of a deleted department is left, so the members of these departments have no
role any more when their department is cleared. -/
theorem eraseDepartment (h : DepartmentInv s) (p : Department → Bool)
    (hRoles : ∀ role ∈ s.departmentRole.rows,
      (keysOf s.department p).contains role.departmentId = false) :
    DepartmentInv
      { s with
        department := s.department.erase p
        projectUser := s.projectUser.modify (fun _ => true)
          (fun u => { u with departmentId := clearRef (keysOf s.department p) u.departmentId })
          fun _ => rfl
        task := s.task.modify (fun _ => true)
          (fun t => { t with departmentId := clearRef (keysOf s.department p) t.departmentId })
          fun _ => rfl } := by
  constructor
  · intro u hu k hk
    obtain ⟨r, hr, rfl⟩ := List.mem_map.mp hu
    obtain ⟨hDepartment, hKept⟩ := clearRef_some hk
    obtain ⟨d, hd, hId, hProject⟩ := h.department r hr k hDepartment
    refine ⟨d, mem_erase_of_kept hd ?_, hId, hProject⟩
    rw [← hId] at hKept
    exact hKept
  · intro u hu k hk
    obtain ⟨r, hr, rfl⟩ := List.mem_map.mp hu
    obtain ⟨role, hMem, hId, hDepartment⟩ := h.role r hr k hk
    refine ⟨role, hMem, hId, ?_⟩
    change clearRef _ r.departmentId = _
    rw [hDepartment]
    exact clearRef_kept (hRoles role hMem)

theorem change {links : Link → Prop} {s' : Store} (h : DepartmentInv s)
    (hChange : Change links s s') : DepartmentInv s' := by
  cases hChange with
  | plain hSame => exact h.of_same hSame.projectUser hSame.department hSame.departmentRole
  | insertDepartment mk hmk => exact h.insertDepartment mk hmk
  | insertDepartmentRole mk hmk => exact h.insertDepartmentRole mk hmk
  | insertMember mk hmk hNew => exact h.insertMember mk hmk hNew
  | renameDepartment p f hf hLink => exact h.renameDepartment p f hf hLink
  | renameDepartmentRole p f hf hLink => exact h.renameDepartmentRole p f hf hLink
  | changeMember p f hf hMember => exact h.changeMember p f hf hMember
  | eraseMember p => exact h.eraseMember p
  | eraseDepartmentRole p => exact h.eraseDepartmentRole p
  | eraseDepartment p hRoles => exact h.eraseDepartment p hRoles
  | eraseProjectRole p =>
      refine (h.keepMember (fun _ => true) (fun u => { u with
        projectRoleId := clearRef (keysOf s.projectRole p) u.projectRoleId }) (fun _ => rfl)
        fun _ => ⟨rfl, rfl, rfl⟩).of_same rfl rfl rfl
  | linkRole _ p f hf hLink => exact h.keepMember p f hf hLink
  | insertProjectRole | insertField | renameProjectRole | setValue | setFlags | editTask | eraseTask
  | erasePermission | eraseFieldValue | eraseField | insertPermission | insertTask | insertValue =>
      exact h.of_same rfl rfl rfl

theorem acts {links : Link → Prop} {s' : Store} (h : DepartmentInv s) (hActs : Acts links s s') :
    DepartmentInv s' :=
  hActs.keeps (fun _ _ hChange hInv => hInv.change hChange) h

theorem empty : DepartmentInv {} where
  department := by
    intro u hu
    cases hu
  role := by
    intro u hu
    cases hu

end DepartmentInv

/-! ## All interleavings -/

section Interleavings

variable [Runtime] {ι : Type} [DecidableEq ι]

/-- The mutations `ops`, none of them started, on a store. -/
def callsOn (s : Store) (ops : ι → ServiceOp) : Pool ι Store Exn Answer :=
  Pool.start s fun i => (ops i).prog

/-- **Members stay in departments of their project, with roles of their department.** From
the empty store, in every interleaving of the database steps of any calls, in which steps
may fail and accounts may come and go. -/
theorem department_membership (ops : ι → ServiceOp) (c : Pool ι Store Exn Answer)
    (hReach : Relation.ReflTransGen (Pool.Step AccountStep) (callsOn {} ops) c) :
    DepartmentInv c.state := by
  have hSafe : ∀ i, Safe Stable (fun s s' => ∃ links, Acts links s s')
      ((callsOn {} ops).proc i) (callsOn {} ops).state :=
    fun i => ((ops i).stays _).mono fun a b hActs => ⟨_, hActs⟩
  refine (Pool.invariant Stable.refl (fun _ _ _ h h' => h.trans h') ?_ ?_ DepartmentInv.empty hSafe
    hReach).2
  · rintro s s' hInv ⟨links, hActs⟩
    exact ⟨hActs.stable, hInv.acts hActs⟩
  · intro s s' hInv hAccount
    have hSame := sameLinks_accountStep hAccount
    exact ⟨stable_of_accountStep hAccount,
      hInv.of_same hSame.projectUser hSame.department hSame.departmentRole⟩

end Interleavings

section Site

attribute [local instance] asciiRuntime

/-- An administrator sets up a department and puts a user into it, one call after the other. -/
def setUp : List ServiceOp :=
  [.createProject 1 { name := "Bridge" }, .createDepartment 1 "Civil", .assignUser 1 1,
   .assignUserToDepartment 1 1 1, .createDepartmentRole 1 "Surveyor", .setUserDepartmentRole 1 1 1,
   .removeDepartmentRole 1]

/-- The accounts of the small site, and nothing else. -/
def accounts : Store := { admin := site.admin, user := site.user }

/-- The calls of `setUp` on these accounts, with their steps interleaved. -/
def setUpPool : Pool Nat Store Exn Answer :=
  { callsOn {} (fun i => setUp.getD i (.removeProject 0)) with state := accounts }

def setUpSchedule : List Nat := [0, 1, 1, 2, 2, 2, 4, 3, 4, 3, 5, 6, 5, 5, 6]

/-- At the end the member is in the department, and its role is gone. -/
theorem department_membership_site :
    (setUpPool.play setUpSchedule).state.projectUser.rows.map
        (fun u => (u.departmentId, u.departmentRoleId)) = [(some 1, none)] ∧
      DepartmentInv (setUpPool.play setUpSchedule).state := by
  refine ⟨by decide, department_membership (fun i => setUp.getD i (.removeProject 0)) _ ?_⟩
  have hAccounts : AccountStep {} accounts := rfl
  exact .head (.env hAccounts) (Pool.reach_of_exec (Pool.reach_play setUpPool setUpSchedule))

end Site

end Rooeel
