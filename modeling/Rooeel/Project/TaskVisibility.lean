import Rooeel.Project.Lists
import Rooeel.Project.Operations

/-!
# Departments and the tasks of a member

A member of a department who asks for no department in particular gets the tasks without a
department, those of its own, and those assigned to it, as far as its rights go
(`department_member_tasks`). The rest of the module is about two things that one would
expect of departments: that asking for one is a filter, and that leaving one shows no more.
-/

namespace Rooeel

open JavaScript

/-- The row of a member who has left its department. -/
def ProjectUser.withoutDepartment (r : ProjectUser) : ProjectUser :=
  { r with departmentId := none, departmentRoleId := none }

section Visibility

variable [Runtime] {s : Store} {projectId : Id} {viewer : Viewer} {projectUser : ProjectUser}

/-! ## What a member sees -/

omit [Runtime] in
/-- Asking for a department selects no other tasks. -/
theorem Task.selectedFor.of_asked {task : Task} {departmentId : Option Id} {userId : Id}
    (h : task.selectedFor departmentId projectUser userId) :
    task.selectedFor none projectUser userId := by
  have hNone : isSet none = false := rfl
  rw [Task.selectedFor, hNone, if_neg Bool.false_ne_true]
  intro hOwn
  unfold Task.selectedFor at h
  split_ifs at h with hAsked
  · obtain ⟨hTask, hSame⟩ := h
    rw [inScope, hTask, hSame hOwn, beq_self_eq_true, Bool.true_or, Bool.true_or]
  · exact h hOwn

theorem mem_memberTasks_of_asked {task : Task} {departmentId : Option Id} {userId : Id}
    (h : task ∈ memberTasks s projectId departmentId projectUser userId) :
    task ∈ memberTasks s projectId none projectUser userId := by
  rw [mem_memberTasks] at h ⊢
  obtain ⟨hTask, hProject, hSelected, hView⟩ := h
  exact ⟨hTask, hProject, hSelected.of_asked, hView⟩

theorem memberTasks_sublist (s : Store) (projectId : Id) (departmentId : Option Id)
    (projectUser : ProjectUser) (userId : Id) :
    (memberTasks s projectId departmentId projectUser userId).Sublist s.task.rows := by
  unfold memberTasks selectedTasks
  split_ifs
  · exact List.nil_sublist _
  · exact List.filter_sublist.trans List.filter_sublist

/-- No task is returned twice. -/
theorem listed_nodup (s : Store) (projectId : Id) (departmentId : Option Id)
    (projectUser : ProjectUser) (userId : Id) :
    (((memberTasks s projectId departmentId projectUser userId).reverse.map
      fun task => task.listed s).map fun t => t.task.id).Nodup := by
  rw [List.map_map, List.map_reverse, List.nodup_reverse]
  have hRows := memberTasks_sublist s projectId departmentId projectUser userId
  exact (hRows.map Task.id).nodup s.task.nodup

/-- Without a department argument the member gets exactly the tasks in its reach that its rights
let it view, and with one no other task. -/
def SeesReach (s : Store) (projectId departmentId : Id) (viewer : Viewer) (accessMap : AccessMap) :
    Prop :=
  ∃ tasks, (getTasks projectId none (some viewer)).run s = (.ok tasks, s) ∧
    (tasks.map fun t => t.task.id).Nodup ∧
    (∀ t, t ∈ tasks ↔ ∃ task ∈ s.task.rows, t = task.listed s ∧ task.projectId = projectId ∧
      (task.departmentId = none ∨ task.departmentId = some departmentId ∨
        task.assignedTo = some viewer.userId) ∧
      mayPerform accessMap task.taskLike .view = some true) ∧
    ∀ asked : Option Id, ∃ ofDepartment,
      (getTasks projectId asked (some viewer)).run s = (.ok ofDepartment, s) ∧
      ∀ t ∈ ofDepartment, t ∈ tasks

/-- The answer to a member, when all tasks it looks at can be read. -/
theorem getTasks_readable (hRole : viewer.role ≠ some "admin")
    (hMember : memberOf s projectId viewer.userId = some projectUser) {departmentId : Option Id}
    (hReadable : ¬ Unreadable s projectId fun task =>
      task.selectedFor departmentId projectUser viewer.userId) :
    (getTasks projectId departmentId (some viewer)).run s =
      (.ok ((memberTasks s projectId departmentId projectUser viewer.userId).reverse.map
        fun task => task.listed s), s) := by
  rw [getTasks_member hRole hMember, selectedTasks_readable.mpr hReadable, answerIf, if_pos rfl]

/-- An answer to a member is the list of its tasks. -/
theorem of_getTasks_ok (hRole : viewer.role ≠ some "admin")
    (hMember : memberOf s projectId viewer.userId = some projectUser) {departmentId : Option Id}
    {s' : Store} {tasks : List SerializedTask}
    (hRun : (getTasks projectId departmentId (some viewer)).run s = (.ok tasks, s')) :
    (¬ Unreadable s projectId fun task =>
        task.selectedFor departmentId projectUser viewer.userId) ∧
      tasks = (memberTasks s projectId departmentId projectUser viewer.userId).reverse.map
        fun task => task.listed s := by
  rw [getTasks_member hRole hMember] at hRun
  obtain ⟨hReadable, hTasks⟩ := answerIf_eq_ok.mp (Prod.mk.inj hRun).1
  exact ⟨selectedTasks_readable.mp hReadable, hTasks.symm⟩

/-- **What the member of a department sees**: what is in its reach, exactly when the resources of
the tasks in its reach can be read. -/
theorem department_member_tasks (hValid : s.Valid) (hRole : viewer.role ≠ some "admin")
    (hMember : memberOf s projectId viewer.userId = some projectUser) {departmentId : Id}
    (hDepartment : projectUser.departmentId = some departmentId) :
    ∃ accessMap, (getAccessMapForProjectUser projectUser.membership).run s = (.ok accessMap, s) ∧
      (SeesReach s projectId departmentId viewer accessMap ↔
        ∀ task ∈ s.task.rows, task.projectId = projectId →
          task.departmentId = none ∨ task.departmentId = some departmentId ∨
            task.assignedTo = some viewer.userId → task.readable = true) := by
  refine ⟨_, getAccessMapForProjectUser_run _ s, ?_⟩
  have hSelected {task : Task} : task.selectedFor none projectUser viewer.userId ↔
      task.departmentId = none ∨ task.departmentId = some departmentId ∨
        task.assignedTo = some viewer.userId := by
    rw [selectedFor_none hValid hMember, Task.within, hDepartment]
    exact ⟨fun h => h (Option.some_ne_none _), fun h _ => h⟩
  constructor
  · rintro ⟨tasks, hRun, -⟩ task hTask hProject hReach
    by_contra hNot
    refine (of_getTasks_ok hRole hMember hRun).1 ⟨task, hTask, hProject, hSelected.mpr hReach, ?_⟩
    exact eq_false_of_ne_true hNot
  · intro hReadable
    have hAll : ¬ Unreadable s projectId fun task =>
        task.selectedFor none projectUser viewer.userId := by
      rintro ⟨task, hTask, hProject, hIn, hNot⟩
      rw [hReadable task hTask hProject (hSelected.mp hIn)] at hNot
      cases hNot
    refine ⟨_, getTasks_readable hRole hMember hAll,
      listed_nodup s projectId none projectUser viewer.userId, fun t => ?_, fun asked => ?_⟩
    · rw [mem_listed]
      constructor
      · rintro ⟨hMem, hSame⟩
        obtain ⟨hTask, hProject, hReach, hView⟩ := mem_memberTasks.mp hMem
        exact ⟨t.task, hTask, hSame.symm, hProject, hSelected.mp hReach, hView⟩
      · rintro ⟨task, hTask, rfl, hProject, hReach, hView⟩
        exact ⟨mem_memberTasks.mpr ⟨hTask, hProject, hSelected.mpr hReach, hView⟩, rfl⟩
    · have hAsked : ¬ Unreadable s projectId fun task =>
          task.selectedFor asked projectUser viewer.userId :=
        fun h => hAll (h.mono fun _ hIn => hIn.of_asked)
      refine ⟨_, getTasks_readable hRole hMember hAsked, fun t ht => ?_⟩
      obtain ⟨hMem, hSame⟩ := mem_listed.mp ht
      exact mem_listed.mpr ⟨mem_memberTasks_of_asked hMem, hSame⟩

/-! ## Asking for a department -/

omit [Runtime] in
/-- The tasks among which a member looks when it asks for a department. -/
theorem selectedFor_some (hValid : s.Valid)
    (hMember : memberOf s projectId viewer.userId = some projectUser) {departmentId : Id}
    (hAsked : 0 < departmentId) {task : Task} :
    task.selectedFor (some departmentId) projectUser viewer.userId ↔
      task.departmentId = some departmentId ∧
        (projectUser.departmentId ≠ none → projectUser.departmentId = some departmentId) := by
  rw [Task.selectedFor, if_pos (isSet_of_pos hAsked), departmentSet_iff hValid hMember]

/-- Which tasks the argument takes away besides those of other departments. -/
theorem memberTasks_filter_iff (hValid : s.Valid)
    (hMember : memberOf s projectId viewer.userId = some projectUser) {departmentId : Id}
    (hAsked : 0 < departmentId) :
    (∀ task, task ∈ memberTasks s projectId (some departmentId) projectUser viewer.userId ↔
        task ∈ memberTasks s projectId none projectUser viewer.userId ∧
          task.departmentId = some departmentId) ↔
      projectUser.departmentId = none ∨ projectUser.departmentId = some departmentId ∨
        ∀ task ∈ s.task.rows, task.projectId = projectId →
          task.departmentId = some departmentId → task.assignedTo = some viewer.userId →
          mayPerform (projectUser.membership.accessMap s) task.taskLike .view ≠ some true := by
  simp only [mem_memberTasks, selectedFor_none hValid hMember,
    selectedFor_some hValid hMember hAsked]
  rw [or_iff_not_imp_left, or_iff_not_imp_left]
  constructor
  · intro hSame hOwn hOther task hTask hProject hDepartment hAssigned hView
    have hShown := (hSame task).mpr
      ⟨⟨hTask, hProject, fun _ => Or.inr (Or.inr hAssigned), hView⟩, hDepartment⟩
    exact hOther (hShown.2.2.1.2 hOwn)
  · intro h task
    constructor
    · rintro ⟨hTask, hProject, ⟨hDepartment, hSame⟩, hView⟩
      refine ⟨⟨hTask, hProject, fun hOwn => ?_, hView⟩, hDepartment⟩
      exact Or.inr (Or.inl (hDepartment.trans (hSame hOwn).symm))
    · rintro ⟨⟨hTask, hProject, hReach, hView⟩, hDepartment⟩
      refine ⟨hTask, hProject, ⟨hDepartment, fun hOwn => ?_⟩, hView⟩
      by_contra hOther
      -- the task is in another department, so it is assigned to the member
      rcases hReach hOwn with hNone | hSame | hAssigned
      · rw [hDepartment] at hNone
        cases hNone
      · exact hOther (hSame.symm.trans hDepartment)
      · exact h hOwn hOther task hTask hProject hDepartment hAssigned hView

/-- The answer for a department is the part of the answer for no department in particular. -/
def FiltersBy (departmentId : Id) (tasks ofDepartment : List SerializedTask) : Prop :=
  ∀ t, t ∈ ofDepartment ↔ t ∈ tasks ∧ t.task.departmentId = some departmentId

theorem filtersBy_iff (departmentId : Id) :
    FiltersBy departmentId
        ((memberTasks s projectId none projectUser viewer.userId).reverse.map
          fun task => task.listed s)
        ((memberTasks s projectId (some departmentId) projectUser viewer.userId).reverse.map
          fun task => task.listed s) ↔
      ∀ task, task ∈ memberTasks s projectId (some departmentId) projectUser viewer.userId ↔
        task ∈ memberTasks s projectId none projectUser viewer.userId ∧
          task.departmentId = some departmentId := by
  simp only [FiltersBy, mem_listed]
  constructor
  · intro h task
    have hTask := h (task.listed s)
    exact ⟨fun hMem => ⟨(hTask.mp ⟨hMem, rfl⟩).1.1, (hTask.mp ⟨hMem, rfl⟩).2⟩,
      fun hMem => (hTask.mpr ⟨⟨hMem.1, rfl⟩, hMem.2⟩).1⟩
  · intro h t
    rw [h t.task]
    exact and_right_comm

/-- **When the department argument is a filter.** Of the tasks it is one for a member without a
department and for the department of the member; for another department it hides the tasks that
are assigned to the member. The call for the department reads fewer resources, so that it may
answer where the other throws. -/
theorem department_argument_filters (hValid : s.Valid) (hRole : viewer.role ≠ some "admin")
    (hMember : memberOf s projectId viewer.userId = some projectUser) {department : Department}
    (hDepartment : department ∈ s.department.rows) :
    ∃ accessMap, (getAccessMapForProjectUser projectUser.membership).run s = (.ok accessMap, s) ∧
      (AnswersAgree (FiltersBy department.id)
          ((getTasks projectId none (some viewer)).run s).1
          ((getTasks projectId (some department.id) (some viewer)).run s).1 ↔
        (projectUser.departmentId ≠ none → projectUser.departmentId = some department.id) ∧
            Unreadable s projectId (fun task => task.departmentId = some department.id) ∨
          ¬ Unreadable s projectId (fun task =>
              task.within projectUser.departmentId viewer.userId) ∧
            (projectUser.departmentId = none ∨ projectUser.departmentId = some department.id ∨
              ∀ task ∈ s.task.rows, task.projectId = projectId →
                task.departmentId = some department.id → task.assignedTo = some viewer.userId →
                mayPerform accessMap task.taskLike .view ≠ some true)) := by
  refine ⟨_, getAccessMapForProjectUser_run _ s, ?_⟩
  have hPos : 0 < department.id := s.department.key_pos hDepartment
  rw [getTasks_member hRole hMember, getTasks_member hRole hMember, answersAgree_answerIf,
    filtersBy_iff, memberTasks_filter_iff hValid hMember hPos, selectedTasks_readable,
    selectedTasks_readable, unreadable_congr fun task => selectedFor_none hValid hMember]
  have hAsked : (Unreadable s projectId fun task =>
        task.selectedFor (some department.id) projectUser viewer.userId) ↔
      (projectUser.departmentId ≠ none → projectUser.departmentId = some department.id) ∧
        Unreadable s projectId fun task => task.departmentId = some department.id := by
    rw [unreadable_congr fun task => selectedFor_some hValid hMember hPos]
    constructor
    · rintro ⟨task, hTask, hProject, ⟨hIn, hOwn⟩, hNot⟩
      exact ⟨hOwn, task, hTask, hProject, hIn, hNot⟩
    · rintro ⟨hOwn, task, hTask, hProject, hIn, hNot⟩
      exact ⟨task, hTask, hProject, ⟨hIn, hOwn⟩, hNot⟩
  -- what the call for the department cannot read, the other cannot read either
  have hMore (h : Unreadable s projectId fun task =>
      task.selectedFor (some department.id) projectUser viewer.userId) :
      Unreadable s projectId fun task => task.within projectUser.departmentId viewer.userId :=
    h.mono fun _ hIn => (selectedFor_none hValid hMember).mp hIn.of_asked
  rw [← hAsked]
  constructor
  · rintro ⟨hSame, hFilter⟩
    refine or_iff_not_imp_left.mpr fun hNot => ?_
    have hReadable := hSame.mpr hNot
    exact ⟨hReadable, hFilter hReadable⟩
  · rintro (hNot | ⟨hReadable, hFilter⟩)
    · exact ⟨not_congr ⟨fun _ => hNot, fun _ => hMore hNot⟩, fun h => absurd (hMore hNot) h⟩
    · exact ⟨iff_of_true hReadable fun h => hReadable (hMore h), fun _ => hFilter⟩

/-! ## Leaving a department -/

omit [Runtime] in
/-- A member who leaves its department is a member without one. -/
theorem removeUserFromDepartment_run (hValid : s.Valid)
    (hMember : memberOf s projectId viewer.userId = some projectUser) :
    ∃ s', (removeUserFromDepartment projectId viewer.userId).run s =
        (.ok projectUser.withoutDepartment, s') ∧
      memberOf s' projectId viewer.userId = some projectUser.withoutDepartment ∧
      s'.task = s.task ∧ s'.permission = s.permission ∧
      s'.departmentRolePolicy = s.departmentRolePolicy := by
  obtain ⟨hMem, -, -⟩ := memberOf_some hMember
  have hRef := hValid.projectUser.references projectUser hMem
  have hAccepts : prisma.projectUser.accepts s projectUser.withoutDepartment = .ok () := by
    refine Model.accepts_of ?_ fun r hr hKey => ?_
    · simp only [prisma.projectUser, Bool.and_eq_true] at hRef ⊢
      exact ⟨⟨hRef.1.1, rfl⟩, rfl⟩
    · rw [Bool.eq_false_iff]
      intro hConflict
      -- the key columns are those of the old row, which conflicts with no other one
      have hSymm (a b : ProjectUser) :
          prisma.projectUser.conflicts a b = prisma.projectUser.conflicts b a := by
        simp only [prisma.projectUser]
        rw [Bool.beq_comm, Bool.beq_comm (a := a.userId)]
      have hSame := hValid.projectUser.eq_of_conflicts hSymm hr hMem hConflict
      exact hKey (by rw [hSame]; rfl)
  refine ⟨_, execute_run (Model.update_of_find (m := prisma.projectUser)
    (f := ProjectUser.withoutDepartment) hMember hAccepts), ?_, rfl, rfl, rfl⟩
  have hFound : s.projectUser.rows.find? (isMember projectId viewer.userId) = some projectUser :=
    hMember
  have hFind := @Table.find?_modify _ _ s.projectUser
    (fun r => Row.key r == Row.key projectUser) (isMember projectId viewer.userId)
    ProjectUser.withoutDepartment (fun _ => rfl) fun _ => rfl
  refine hFind.trans ?_
  rw [hFound, Option.map_some, if_pos (beq_self_eq_true _)]

/-- A member of the department has a call that looks at the task and is answered: the one for no
department in particular, or the one for the department of the task. -/
def Task.Obtainable (task : Task) (s : Store) (projectId : Id) (departmentId : Option Id)
    (userId : Id) : Prop :=
  task.within departmentId userId ∧
      ¬ Unreadable s projectId (fun other => other.within departmentId userId) ∨
    task.departmentId ≠ none ∧ (departmentId ≠ none → departmentId = task.departmentId) ∧
      ¬ Unreadable s projectId fun other => other.departmentId = task.departmentId

theorem obtainable_iff
    (hSet : isSet projectUser.departmentId = true ↔ projectUser.departmentId ≠ none)
    {task : Task} (hTaskSet : task.departmentId ≠ none → isSet task.departmentId = true)
    (userId : Id) :
    (∃ asked, task.selectedFor asked projectUser userId ∧
        ¬ Unreadable s projectId fun other => other.selectedFor asked projectUser userId) ↔
      task.Obtainable s projectId projectUser.departmentId userId := by
  constructor
  · rintro ⟨asked, hSelected, hReadable⟩
    cases hAsked : isSet asked with
    | false =>
        rw [selectedFor_unset hSet hAsked] at hSelected
        rw [unreadable_congr fun other => selectedFor_unset hSet hAsked] at hReadable
        exact Or.inl ⟨hSelected, hReadable⟩
    | true =>
        rw [Task.selectedFor, if_pos hAsked] at hSelected
        obtain ⟨rfl, hOwn⟩ := hSelected
        have hSome : task.departmentId ≠ none := by
          intro hNone
          rw [hNone] at hAsked
          cases hAsked
        refine Or.inr ⟨hSome, fun h => hOwn (hSet.mpr h), fun h => hReadable (h.mono ?_)⟩
        intro other hSame
        rw [Task.selectedFor, if_pos hAsked]
        exact ⟨hSame, hOwn⟩
  · rintro (⟨hWithin, hReadable⟩ | ⟨hSome, hOwn, hReadable⟩)
    · refine ⟨none, (selectedFor_unset hSet rfl).mpr hWithin, ?_⟩
      rwa [unreadable_congr fun other => selectedFor_unset hSet rfl]
    · refine ⟨task.departmentId, ?_, fun h => hReadable (h.mono fun other hIn => ?_)⟩
      · rw [Task.selectedFor, if_pos (hTaskSet hSome)]
        exact ⟨rfl, fun h => hOwn (hSet.mp h)⟩
      · rw [Task.selectedFor, if_pos (hTaskSet hSome)] at hIn
        exact hIn.1

/-- Some call of the member shows it the task. -/
def Shows (s : Store) (projectId : Id) (viewer : Viewer) (taskId : Id) : Prop :=
  ∃ asked tasks, (getTasks projectId asked (some viewer)).run s = (.ok tasks, s) ∧
    taskId ∈ tasks.map fun t => t.task.id

/-- The tasks that a member is shown, whatever it asks for. -/
theorem shows_iff (hRole : viewer.role ≠ some "admin")
    (hMember : memberOf s projectId viewer.userId = some projectUser)
    (hSet : isSet projectUser.departmentId = true ↔ projectUser.departmentId ≠ none)
    {task : Task} (hTask : task ∈ s.task.rows)
    (hTaskSet : task.departmentId ≠ none → isSet task.departmentId = true) :
    Shows s projectId viewer task.id ↔
      task.projectId = projectId ∧
        task.Obtainable s projectId projectUser.departmentId viewer.userId ∧
        mayPerform (projectUser.membership.accessMap s) task.taskLike .view = some true := by
  rw [← obtainable_iff hSet hTaskSet]
  constructor
  · rintro ⟨asked, tasks, hRun, hId⟩
    obtain ⟨hReadable, rfl⟩ := of_getTasks_ok hRole hMember hRun
    obtain ⟨t, ht, hSame⟩ := List.mem_map.mp hId
    have hMem := (mem_listed.mp ht).1
    rw [s.task.key_inj (mem_memberTasks.mp hMem).1 hTask hSame] at hMem
    obtain ⟨-, hProject, hSelected, hView⟩ := mem_memberTasks.mp hMem
    exact ⟨hProject, ⟨asked, hSelected, hReadable⟩, hView⟩
  · rintro ⟨hProject, ⟨asked, hSelected, hReadable⟩, hView⟩
    have hMem := mem_memberTasks.mpr ⟨hTask, hProject, hSelected, hView⟩
    refine ⟨asked, _, getTasks_readable hRole hMember hReadable, ?_⟩
    exact List.mem_map_of_mem (f := fun t : SerializedTask => t.task.id)
      (mem_listed.mpr ⟨hMem, rfl⟩ : task.listed s ∈ _)

omit [Runtime] in
theorem taskDepartmentSet (hValid : s.Valid) {task : Task} (hTask : task ∈ s.task.rows)
    (h : task.departmentId ≠ none) : isSet task.departmentId = true := by
  have hRef := hValid.task.references task hTask
  simp only [prisma.task, Bool.and_eq_true] at hRef
  obtain ⟨departmentId, hSome⟩ := Option.ne_none_iff_exists'.mp h
  exact hSome ▸ isSet_of_pos (refOk_pos hRef.1.2 hSome)

/-- The tasks that the member is shown when it has left its department. -/
theorem shows_left_iff (hValid : s.Valid) (hRole : viewer.role ≠ some "admin") {s' : Store}
    (hLeft : memberOf s' projectId viewer.userId = some projectUser.withoutDepartment)
    (hTasks : s'.task = s.task) (hPermission : s'.permission = s.permission)
    (hPolicy : s'.departmentRolePolicy = s.departmentRolePolicy) {task : Task}
    (hTask : task ∈ s.task.rows) :
    Shows s' projectId viewer task.id ↔
      task.projectId = projectId ∧ task.Obtainable s projectId none viewer.userId ∧
        mayPerform (projectUser.withoutDepartment.membership.accessMap s) task.taskLike .view =
          some true := by
  have hMap : projectUser.withoutDepartment.membership.accessMap s' =
      projectUser.withoutDepartment.membership.accessMap s := by
    simp only [Membership.accessMap, Membership.permissions, Membership.policies, hPermission,
      hPolicy]
  have hShows := shows_iff hRole hLeft (iff_of_false Bool.false_ne_true fun h => h rfl)
    (by rw [hTasks]; exact hTask) (taskDepartmentSet hValid hTask)
  rw [hMap] at hShows
  simp only [Task.Obtainable, Unreadable, hTasks] at hShows ⊢
  exact hShows

/-- **When leaving a department shows no more.** Without a department all tasks of the project
are in reach of the member, so those that its remaining rights let it view must have been
visible before. -/
theorem leaving_department (hValid : s.Valid) (hRole : viewer.role ≠ some "admin")
    (hMember : memberOf s projectId viewer.userId = some projectUser)
    (hNoRole : projectUser.departmentRoleId = none) :
    ∃ row s' accessMap remaining,
      (removeUserFromDepartment projectId viewer.userId).run s = (.ok row, s') ∧
      (getAccessMapForProjectUser projectUser.membership).run s = (.ok accessMap, s) ∧
      (getAccessMapForProjectUser ⟨projectUser.projectRoleId, none, none⟩).run s =
        (.ok remaining, s) ∧
      ((∀ asked tasks, (getTasks projectId asked (some viewer)).run s' = (.ok tasks, s') →
          ∀ t ∈ tasks, Shows s projectId viewer t.task.id) ↔
        projectUser.departmentId = none ∨
          ∀ task ∈ s.task.rows, task.projectId = projectId →
            mayPerform remaining task.taskLike .view = some true →
            task.Obtainable s projectId none viewer.userId →
            task.Obtainable s projectId projectUser.departmentId viewer.userId ∧
              mayPerform accessMap task.taskLike .view = some true) := by
  obtain ⟨s', hRun, hLeft, hTasks, hPermission, hPolicy⟩ :=
    removeUserFromDepartment_run hValid hMember
  refine ⟨_, s', _, _, hRun, getAccessMapForProjectUser_run _ s,
    getAccessMapForProjectUser_run _ s, ?_⟩
  have hBefore {task : Task} (hTask : task ∈ s.task.rows) :=
    shows_iff hRole hMember (departmentSet_iff hValid hMember) hTask
      (taskDepartmentSet hValid hTask)
  have hAfter {task : Task} (hTask : task ∈ s.task.rows) :=
    shows_left_iff hValid hRole hLeft hTasks hPermission hPolicy hTask
  constructor
  · intro h
    refine Or.inr fun task hTask hProject hView hObtainable => ?_
    obtain ⟨asked, tasks, hAsked, hId⟩ := (hAfter hTask).mpr ⟨hProject, hObtainable, hView⟩
    obtain ⟨t, ht, hSame⟩ := List.mem_map.mp hId
    exact ((hBefore hTask).mp (hSame ▸ h asked tasks hAsked t ht)).2
  · intro h asked tasks hAsked t ht
    have hTask : t.task ∈ s.task.rows := by
      obtain ⟨-, rfl⟩ := of_getTasks_ok hRole hLeft hAsked
      rw [← hTasks]
      exact (mem_memberTasks.mp (mem_listed.mp ht).1).1
    obtain ⟨hProject, hObtainable, hView⟩ :=
      (hAfter hTask).mp ⟨asked, tasks, hAsked, List.mem_map_of_mem ht⟩
    refine (hBefore hTask).mpr ⟨hProject, ?_⟩
    by_cases hOwn : projectUser.departmentId = none
    · -- a member without a department keeps its row
      have hSame : projectUser.withoutDepartment.membership = projectUser.membership := by
        rw [ProjectUser.membership, ProjectUser.membership, ProjectUser.withoutDepartment, hOwn,
          hNoRole]
      exact ⟨hOwn ▸ hObtainable, hSame ▸ hView⟩
    · exact h.resolve_left hOwn t.task hTask hProject hView hObtainable

end Visibility

section Site

attribute [local instance] asciiRuntime

/-- The member of the small site, in the second department and without a role in it. -/
def drainer : ProjectUser := ⟨1, 1, 1, some 1, some 2, none⟩

/-- A site with two departments. -/
def emptySite : Store :=
  { site with
    department := sheetsSite.department.insert
      (fun id => { id, projectId := 1, name := "Drainage" }) fun _ => rfl
    projectUser := Table.empty.insert (fun id =>
      { id, projectId := 1, userId := 1, projectRoleId := some 1, departmentId := some 2
        departmentRoleId := none }) fun _ => rfl }

/-- A task of the first one. -/
def drainageSite (assignedTo : Option Id) : Store :=
  { emptySite with
    task := Table.empty.insert (fun id => { sheets id with assignedTo }) fun _ => rfl }

/-- The department of the task. -/
def roads : Department := ⟨1, 1, "Roads"⟩

/-- The member, as it asks for tasks. -/
def drainerViewer : Viewer := ⟨1, some "user"⟩

theorem drainerViewer_role : drainerViewer.role ≠ some "admin" := by decide

theorem drainageSite_valid : (drainageSite none).Valid ∧ (drainageSite (some 1)).Valid := by
  constructor <;> constructor <;> decide

theorem memberOf_drainer (assignedTo : Option Id) :
    memberOf (drainageSite assignedTo) 1 drainerViewer.userId = some drainer := rfl

/-- The role lets its members see tasks, in a department or not. -/
theorem drainer_views (assignedTo : Option Id) (projectUser : ProjectUser)
    (h : projectUser = drainer ∨ projectUser = drainer.withoutDepartment) :
    mayPerform (projectUser.membership.accessMap (drainageSite assignedTo))
      ({ sheets 1 with assignedTo } : Task).taskLike .view = some true := by
  have hTask : normalizeResource "TASK" = "TASK" := by decide
  have hResource : resolveTaskResource ({ sheets 1 with assignedTo } : Task).taskLike =
      some "TASK" := (by decide : resolveTaskResource (sheets 1).taskLike = some "TASK")
  have hSite : projectUser.membership.accessMap (drainageSite assignedTo) =
      accessMapFrom (projectUser.membership.permissions site)
        (projectUser.membership.policies site) := rfl
  rw [mayPerform, hResource, Option.map_some, hSite]
  simp only [canPerformTaskResourceAction, hTask, if_neg (by decide : "TASK" ≠ ""), if_true,
    canAccess]
  rw [get_accessMapFrom _ _ (by decide)]
  rcases h with rfl | rfl
  · decide +kernel
  · decide +kernel

/-- The resource of the task can be read. -/
theorem drainage_readable (assignedTo : Option Id) (scope : Task → Prop) :
    ¬ Unreadable (drainageSite assignedTo) 1 scope := by
  rintro ⟨task, hTask, -, -, hNot⟩
  obtain rfl := List.mem_singleton.mp hTask
  exact absurd hNot (by decide : (sheets 1).readable ≠ false)

/-- The task of the other department is listed when it is assigned to the member. -/
theorem department_member_tasks_drainage :
    ∃ tasks, (getTasks 1 none (some drainerViewer)).run (drainageSite (some 1)) =
        (.ok tasks, drainageSite (some 1)) ∧
      1 ∈ tasks.map fun t => t.task.id := by
  obtain ⟨accessMap, hMap, hSees⟩ := department_member_tasks
    drainageSite_valid.2 drainerViewer_role (memberOf_drainer _) rfl
  rw [getAccessMapForProjectUser_run] at hMap
  obtain rfl := Except.ok.inj (Prod.mk.inj hMap).1
  obtain ⟨tasks, hRun, -, hTasks, -⟩ := hSees.mpr (by decide)
  refine ⟨tasks, hRun, List.mem_map.mpr ⟨_, (hTasks _).mpr ⟨_, List.mem_cons_self, rfl, rfl,
    Or.inr (Or.inr rfl), drainer_views (some 1) drainer (Or.inl rfl)⟩, rfl⟩⟩

/-- A task for the whole site. Its form names the resource by an object without a text. -/
def garbledSite : Store :=
  { emptySite with
    task := Table.empty.insert (fun id =>
      { sheets id with
        departmentId := none
        formSchema := some (.obj [("resource", .obj [("toString", .num (.ofInt 1))])]) })
      fun _ => rfl }

/-- The member gets no tasks at all. -/
theorem department_tasks_garbled :
    garbledSite.Valid ∧ memberOf garbledSite 1 drainerViewer.userId = some drainer ∧
      drainer.departmentId = some 2 ∧
      (getTasks 1 none (some drainerViewer)).run garbledSite = (.error .typeError, garbledSite) ∧
      ∀ accessMap, ¬ SeesReach garbledSite 1 2 drainerViewer accessMap := by
  have hMember : memberOf garbledSite 1 drainerViewer.userId = some drainer := rfl
  have hRun : (getTasks 1 none (some drainerViewer)).run garbledSite =
      (.error .typeError, garbledSite) := by
    rw [getTasks_member drainerViewer_role hMember]
    rfl
  refine ⟨by constructor <;> decide, hMember, rfl, hRun, fun accessMap => ?_⟩
  rintro ⟨tasks, hOk, -⟩
  rw [hRun] at hOk
  cases hOk

/-- For the department of the member the argument is a filter. -/
theorem department_argument_filters_drainage :
    AnswersAgree (FiltersBy 2)
      ((getTasks 1 none (some drainerViewer)).run (drainageSite (some 1))).1
      ((getTasks 1 (some 2) (some drainerViewer)).run (drainageSite (some 1))).1 := by
  have hDrainage : (⟨2, 1, "Drainage"⟩ : Department) ∈ (drainageSite (some 1)).department.rows :=
    List.mem_cons_of_mem _ List.mem_cons_self
  obtain ⟨accessMap, -, hFilter⟩ := department_argument_filters
    drainageSite_valid.2 drainerViewer_role (memberOf_drainer _) hDrainage
  exact hFilter.mpr (Or.inr ⟨drainage_readable _ _, Or.inr (Or.inl rfl)⟩)

/-- The member finds its task in the list of all tasks, but not in that of the department of
the task. -/
theorem department_argument_hides :
    roads ∈ (drainageSite (some 1)).department.rows ∧
    ∃ tasks ofDepartment,
      (getTasks 1 none (some drainerViewer)).run (drainageSite (some 1)) =
        (.ok tasks, drainageSite (some 1)) ∧
      (getTasks 1 (some roads.id) (some drainerViewer)).run (drainageSite (some 1)) =
        (.ok ofDepartment, drainageSite (some 1)) ∧
      ofDepartment = [] ∧ ¬ FiltersBy roads.id tasks ofDepartment := by
  have hListed : ({ sheets 1 with assignedTo := some 1 } : Task) ∈
      memberTasks (drainageSite (some 1)) 1 none drainer 1 :=
    mem_memberTasks.mpr ⟨List.mem_cons_self, rfl,
      (selectedFor_none drainageSite_valid.2 (memberOf_drainer _)).mpr fun _ => Or.inr (Or.inr rfl),
      drainer_views (some 1) drainer (Or.inl rfl)⟩
  refine ⟨List.mem_cons_self, _, _,
    getTasks_readable drainerViewer_role (memberOf_drainer _) (drainage_readable _ _),
    getTasks_readable drainerViewer_role (memberOf_drainer _) (drainage_readable _ _), rfl,
    fun hFilter => ?_⟩
  have hShown := (hFilter (Task.listed { sheets 1 with assignedTo := some 1 } _)).mpr
    ⟨mem_listed.mpr ⟨hListed, rfl⟩, rfl⟩
  cases hShown

/-- The member saw its task before it left, and sees it after. -/
theorem leaving_department_drainage :
    ∃ row s', (removeUserFromDepartment 1 1).run (drainageSite (some 1)) = (.ok row, s') ∧
      ∀ asked tasks, (getTasks 1 asked (some drainerViewer)).run s' = (.ok tasks, s') →
        ∀ t ∈ tasks, Shows (drainageSite (some 1)) 1 drainerViewer t.task.id := by
  obtain ⟨row, s', accessMap, remaining, hRun, hMap, -, hLeaving⟩ := leaving_department
    drainageSite_valid.2 drainerViewer_role (memberOf_drainer (some 1)) rfl
  rw [getAccessMapForProjectUser_run] at hMap
  obtain rfl := Except.ok.inj (Prod.mk.inj hMap).1
  refine ⟨row, s', hRun, hLeaving.mpr (Or.inr fun task hTask _ _ _ => ?_)⟩
  obtain rfl := List.mem_singleton.mp hTask
  exact ⟨Or.inl ⟨fun _ => Or.inr (Or.inr rfl), drainage_readable _ _⟩,
    drainer_views (some 1) drainer (Or.inl rfl)⟩

/-- A task of another department, assigned to nobody, appears when the member leaves its
department. -/
theorem leaving_department_reveals :
    ∃ row s' tasks, (removeUserFromDepartment 1 1).run (drainageSite none) = (.ok row, s') ∧
      (getTasks 1 none (some drainerViewer)).run s' = (.ok tasks, s') ∧
      1 ∈ tasks.map (fun t => t.task.id) ∧ ¬ Shows (drainageSite none) 1 drainerViewer 1 := by
  obtain ⟨s', hRun, hLeft, hTasks, hPermission, hPolicy⟩ :=
    removeUserFromDepartment_run drainageSite_valid.1 (memberOf_drainer none)
  have hReadable (scope : Task → Prop) : ¬ Unreadable s' 1 scope := by
    have hNone := drainage_readable none scope
    simpa only [Unreadable, hTasks] using hNone
  have hMap : drainer.withoutDepartment.membership.accessMap s' =
      drainer.withoutDepartment.membership.accessMap (drainageSite none) := by
    simp only [Membership.accessMap, Membership.permissions, Membership.policies, hPermission,
      hPolicy]
  have hShown : sheets 1 ∈ memberTasks s' 1 none drainer.withoutDepartment 1 := by
    refine mem_memberTasks.mpr ⟨?_, rfl, fun hOwn => absurd hOwn Bool.false_ne_true, ?_⟩
    · rw [hTasks]
      exact List.mem_cons_self
    · rw [hMap]
      exact drainer_views none drainer.withoutDepartment (Or.inr rfl)
  refine ⟨_, s', _, hRun, getTasks_readable drainerViewer_role hLeft (hReadable _),
    List.mem_map.mpr ⟨(sheets 1).listed s', mem_listed.mpr ⟨hShown, rfl⟩, rfl⟩, ?_⟩
  rintro ⟨asked, tasks, hAsked, hId⟩
  obtain ⟨-, rfl⟩ := of_getTasks_ok drainerViewer_role (memberOf_drainer none) hAsked
  obtain ⟨t, ht, hSame⟩ := List.mem_map.mp hId
  obtain ⟨hTask, -, hSelected, -⟩ :=
    mem_memberTasks.mp (mem_memberTasks_of_asked (mem_listed.mp ht).1)
  -- the only task is not in reach of the member
  rw [selectedFor_none drainageSite_valid.1 (memberOf_drainer none)] at hSelected
  rw [List.mem_singleton.mp hTask] at hSelected
  rcases hSelected (by decide) with hNone | hOwn | hAssigned
  · cases hNone
  · cases hOwn
  · cases hAssigned

end Site

end Rooeel
