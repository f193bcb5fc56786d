import Rooeel.Project.View

/-!
# The lists of a project

The queries `projectUsers`, `departments` and `tasks`, and `myProjects`, which lists the
projects of a user with their members and tasks.

A member sees tasks in two ways: `getTasks` selects them in the database and filters them by
the access map, and `applyViewerPolicyOnProject` filters those of the project in memory. Both fail
when they meet a task whose resource cannot be read. The last part compares the two.
-/

namespace Rooeel

open JavaScript

section Lists

variable [Runtime]

/-! ## The queries -/

omit [Runtime] in
def getUsers (projectId : Id) : Service (List ProjectUser) :=
  findMany prisma.projectUser fun r => r.projectId == projectId

omit [Runtime] in
def getDepartments (projectId : Id) : Service (List Department) :=
  findMany prisma.department fun r => r.projectId == projectId

/-- The `OR` clause of `getTasks`: the tasks of the member's department, without a department,
or assigned to the member. -/
def inScope (departmentId : Option Id) (viewerUserId : Id) (r : Task) : Bool :=
  r.departmentId == departmentId || r.departmentId == none || r.assignedTo == some viewerUserId

/-- A task as `getTasks` includes it: the assignees of its subtasks are without their emails. -/
def Task.found (task : Task) (s : Store) : TaskWithSubtasks where
  task := task
  assignee := assigneeOf s task.assignedTo
  subtasks := (s.subTask.rows.filter fun r => r.taskId == task.id).map fun r =>
    (r, (assigneeOf s r.assignedTo).map fun assignee => { assignee with email := none })

/-- The tasks that a `where` clause selects, newest first, with what is included. -/
def findTasks (scopedWhere : Task → Bool) (departmentId : Option Id) :
    Service (List TaskWithSubtasks) :=
  query fun s =>
    (prisma.task.findMany (fun r =>
      scopedWhere r && (!isSet departmentId || r.departmentId == departmentId)) s).reverse.map
        fun task => task.found s

/-- The `where` clause for a member, apart from the department that was asked for. -/
def scopedWhere (projectId : Id) (departmentId : Option Id) (projectUser : ProjectUser)
    (viewerUserId : Id) (r : Task) : Bool :=
  r.projectId == projectId &&
    (isSet departmentId || !isSet projectUser.departmentId ||
      inScope projectUser.departmentId viewerUserId r)

def getTasks (projectId : Id) (departmentId : Option Id) (viewer : Option Viewer) :
    Service (List SerializedTask) :=
  match nonAdmin viewer with
  | none => do
    let tasks ← findTasks (fun r => r.projectId == projectId) departmentId
    pure (tasks.map serializeTaskForGraphql)
  | some v => do
    match ← getProjectUserContext projectId v.userId with
    | none => pure []
    | some context =>
      if isSet departmentId && isSet context.projectUser.departmentId &&
          departmentId != context.projectUser.departmentId then
        pure []
      else do
        let tasks ← findTasks
          (scopedWhere projectId departmentId context.projectUser v.userId) departmentId
        let visible ← orTypeError (filterOrThrow
          (fun row => mayPerform context.accessMap row.task.taskLike .view) tasks)
        pure (visible.map serializeTaskForGraphql)

/-- The project of a membership as `getUserProjects` includes it, without the fields, the
departments and the roles. -/
def loadMemberProject (s : Store) (project : Project) : ProjectView where
  project := project
  fields := []
  workOrders := workOrdersOf s project.id
  departments := []
  roles := []
  users := s.projectUser.rows.filter fun r => r.projectId == project.id
  tasks := s.task.rows.filter fun r => r.projectId == project.id

def viewEach (viewerUserId : Id) : List ProjectView → Service (List ProjectResponse)
  | [] => pure []
  | view :: rest => do
    let filteredProject ← applyViewerPolicyOnProject view viewerUserId
    let projects ← viewEach viewerUserId rest
    pure (filteredProject :: projects)

def getUserProjects (userId : Id) : Service (List ProjectResponse) := do
  let memberships ← query fun s =>
    (prisma.projectUser.findMany (fun r => r.userId == userId) s).filterMap fun r =>
      (s.project.find r.projectId).map (loadMemberProject s)
  viewEach userId memberships

/-! ## Running the queries -/

/-- The resource of the task can be read. -/
def Task.readable (task : Task) : Bool := (resolveTaskResource task.taskLike).isSome

theorem isSome_mayPerform (accessMap : AccessMap) (task : Task) (action : Action) :
    (mayPerform accessMap task.taskLike action).isSome = task.readable :=
  Option.isSome_map

/-- The resources of all tasks in the viewer's scope can be read. -/
def ProjectView.readable (view : ProjectView) (viewerUserId : Id) : Bool :=
  match view.users.find? fun user => user.userId == viewerUserId with
  | none => true
  | some membership =>
    view.tasks.all fun task => !isInViewerScope membership viewerUserId task || task.readable

theorem isSome_visibleTask (membership : ProjectUser) (accessMap : AccessMap) (viewerUserId : Id)
    (task : Task) : (visibleTask membership accessMap viewerUserId task).isSome =
      (!isInViewerScope membership viewerUserId task || task.readable) := by
  unfold visibleTask
  cases isInViewerScope membership viewerUserId task with
  | false => rfl
  | true => exact isSome_mayPerform accessMap task .view

/-- What `applyViewerPolicyOnProject` makes of a project, when it makes something of it. -/
def ProjectView.viewedBy (view : ProjectView) (s : Store) (viewerUserId : Id) : ProjectResponse :=
  match view.users.find? fun user => user.userId == viewerUserId with
  | none =>
      { project := view.project, roles := view.roles, users := [], departments := []
        workOrders := [], fields := [], effectiveAccessPolicies := some [] }
  | some membership =>
      let accessMap := membership.membership.accessMap s
      view.restrict accessMap viewerUserId
        (view.tasks.filter fun task =>
          visibleTask membership accessMap viewerUserId task == some true)

/-- The answer of a query, which throws when it meets a resource that cannot be read. -/
def answerIf {α : Type} (readable : Bool) (answer : α) : Except Exn α :=
  if readable = true then .ok answer else .error .typeError

omit [Runtime] in
theorem answerIf_eq_ok {α : Type} {readable : Bool} {answer a : α} :
    answerIf readable answer = .ok a ↔ readable = true ∧ answer = a := by
  cases readable <;> simp [answerIf]

omit [Runtime] in
theorem reads_answerIf {α : Type} {p : Service α} {A : α → Prop} {readable : Bool} {answer : α}
    {s : Store} (h : p.run s = (answerIf readable answer, s)) (hAnswer : A answer) :
    Reads s A p := by
  cases readable with
  | true => exact reads_of_run h hAnswer
  | false => exact (Prog.wp_of_run h).mpr rfl

omit [Runtime] in
/-- What is made of the answer. -/
theorem map_answerIf_run {α β : Type} {p : Service α} {readable : Bool} {answer : α} {s : Store}
    (h : p.run s = (answerIf readable answer, s)) (f : α → β) :
    (p >>= fun a => pure (f a)).run s = (answerIf readable (f answer), s) := by
  rw [Prog.run_bind, h]
  cases readable <;> rfl

omit [Runtime] in
/-- A filter whose test may throw. -/
theorem filterOrThrow_elim {α : Type} (test : α → Option Bool) (xs : List α) :
    (filterOrThrow test xs).elim (.error .typeError) .ok =
      answerIf (xs.all fun x => (test x).isSome) (xs.filter fun x => test x == some true) := by
  cases hFilter : filterOrThrow test xs with
  | none =>
      have hNot : ¬ ∀ x ∈ xs, (test x).isSome = true := fun hAll => by
        rw [← filterOrThrow_isSome_iff, hFilter] at hAll
        cases hAll
      rw [answerIf, if_neg fun hAll => hNot (List.all_eq_true.mp hAll)]
      rfl
  | some kept =>
      obtain ⟨hAll, rfl⟩ := filterOrThrow_eq_some_iff.mp hFilter
      rw [answerIf, if_pos (List.all_eq_true.mpr hAll)]
      rfl

omit [Runtime] in
theorem filterOrThrow_run {α : Type} (test : α → Option Bool) (xs : List α) (s : Store) :
    (orTypeError (filterOrThrow test xs)).run s =
      (answerIf (xs.all fun x => (test x).isSome) (xs.filter fun x => test x == some true), s) := by
  rw [orTypeError_run, filterOrThrow_elim]

theorem applyViewerPolicyOnProject_run (view : ProjectView) (viewerUserId : Id) (s : Store) :
    (applyViewerPolicyOnProject view viewerUserId).run s =
      (answerIf (view.readable viewerUserId) (view.viewedBy s viewerUserId), s) := by
  unfold applyViewerPolicyOnProject ProjectView.viewedBy ProjectView.readable
  cases view.users.find? fun user => user.userId == viewerUserId with
  | none => rfl
  | some membership =>
      dsimp only
      rw [Prog.run_bind_ok (getAccessMapForProjectUser_run _ s),
        map_answerIf_run (filterOrThrow_run _ _ s)]
      simp only [isSome_visibleTask]

theorem viewEach_run (viewerUserId : Id) (views : List ProjectView) (s : Store) :
    (viewEach viewerUserId views).run s =
      (answerIf (views.all fun view => view.readable viewerUserId)
        (views.map fun view => view.viewedBy s viewerUserId), s) := by
  induction views with
  | nil => rfl
  | cons view rest ih =>
      rw [viewEach, List.all_cons, List.map_cons]
      have hView := applyViewerPolicyOnProject_run view viewerUserId s
      cases hReadable : view.readable viewerUserId with
      | false =>
          rw [hReadable] at hView
          rw [Prog.run_bind, hView, Bool.false_and]
          rfl
      | true =>
          rw [hReadable] at hView
          rw [Prog.run_bind_ok hView, Bool.true_and, map_answerIf_run ih]

/-- The projects that `getUserProjects` reads. -/
def memberProjects (s : Store) (userId : Id) : List ProjectView :=
  (s.projectUser.rows.filter fun r => r.userId == userId).filterMap fun r =>
    (s.project.find r.projectId).map (loadMemberProject s)

theorem getUserProjects_run (userId : Id) (s : Store) :
    (getUserProjects userId).run s =
      (answerIf ((memberProjects s userId).all fun view => view.readable userId)
        ((memberProjects s userId).map fun view => view.viewedBy s userId), s) :=
  viewEach_run userId (memberProjects s userId) s

omit [Runtime] in
theorem mem_memberProjects {s : Store} {userId : Id} {view : ProjectView} :
    view ∈ memberProjects s userId ↔
      ∃ r ∈ s.projectUser.rows, r.userId = userId ∧
        ∃ project, s.project.find r.projectId = some project ∧
          loadMemberProject s project = view := by
  simp only [memberProjects, List.mem_filterMap, List.mem_filter, beq_iff_eq,
    Option.map_eq_some_iff, and_assoc]

/-- The tasks of an entry of the list that the member sees. -/
def entryTasks (s : Store) (projectId userId : Id) (projectUser : ProjectUser) : List Task :=
  (s.task.rows.filter fun r => r.projectId == projectId).filter fun task =>
    visibleTask projectUser (projectUser.membership.accessMap s) userId task == some true

/-- A project of the list is seen with the rights of the member. -/
theorem viewedBy_memberProject {s : Store} {project : Project} {userId : Id}
    {projectUser : ProjectUser} (hMember : memberOf s project.id userId = some projectUser) :
    (loadMemberProject s project).viewedBy s userId =
      (loadMemberProject s project).restrict (projectUser.membership.accessMap s) userId
        (entryTasks s project.id userId projectUser) := by
  have hFind : (loadMemberProject s project).users.find? (fun r => r.userId == userId) =
      some projectUser := (find_memberRows s project.id userId).trans hMember
  rw [ProjectView.viewedBy, hFind]
  rfl

/-- The tasks that the database selects for a member, when the department that was asked for
does not rule all of them out. -/
def selectedTasks (s : Store) (projectId : Id) (departmentId : Option Id)
    (projectUser : ProjectUser) (viewerUserId : Id) : List Task :=
  if isSet departmentId && isSet projectUser.departmentId &&
      departmentId != projectUser.departmentId then []
  else
    s.task.rows.filter fun r => scopedWhere projectId departmentId projectUser viewerUserId r &&
      (!isSet departmentId || r.departmentId == departmentId)

/-- Those that the member may see. -/
def memberTasks (s : Store) (projectId : Id) (departmentId : Option Id) (projectUser : ProjectUser)
    (viewerUserId : Id) : List Task :=
  (selectedTasks s projectId departmentId projectUser viewerUserId).filter fun task =>
    mayPerform (projectUser.membership.accessMap s) task.taskLike .view == some true

/-- A task as `getTasks` returns it. -/
def Task.listed (task : Task) (s : Store) : SerializedTask := serializeTaskForGraphql (task.found s)

/-- The tasks of a project, for a viewer whose rights are checked. -/
theorem getTasks_run (projectId : Id) (departmentId : Option Id) {viewer : Viewer}
    (hRole : viewer.role ≠ some "admin") (s : Store) :
    (getTasks projectId departmentId (some viewer)).run s =
      (match memberOf s projectId viewer.userId with
        | none => .ok []
        | some projectUser =>
          answerIf ((selectedTasks s projectId departmentId projectUser viewer.userId).all
            Task.readable)
            ((memberTasks s projectId departmentId projectUser viewer.userId).reverse.map
              fun task => task.listed s), s) := by
  unfold getTasks
  rw [nonAdmin_some hRole]
  dsimp only
  rw [Prog.run_bind_ok (getProjectUserContext_run projectId viewer.userId s)]
  cases memberOf s projectId viewer.userId with
  | none => rfl
  | some projectUser =>
      dsimp only [Option.map_some]
      unfold memberTasks selectedTasks
      split
      · rfl
      · rw [findTasks, query_bind_run, map_answerIf_run (filterOrThrow_run _ _ s)]
        simp only [List.all_map, List.all_reverse, List.filter_map, List.filter_reverse,
          List.map_map, Function.comp_def, Task.found, isSome_mayPerform]
        rfl

/-- The tasks of a project, for a member. -/
theorem getTasks_member {s : Store} {projectId : Id} {viewer : Viewer}
    (hRole : viewer.role ≠ some "admin") {projectUser : ProjectUser}
    (hMember : memberOf s projectId viewer.userId = some projectUser) (departmentId : Option Id) :
    (getTasks projectId departmentId (some viewer)).run s =
      (answerIf ((selectedTasks s projectId departmentId projectUser viewer.userId).all
        Task.readable)
        ((memberTasks s projectId departmentId projectUser viewer.userId).reverse.map
          fun task => task.listed s), s) := by
  have hRun := getTasks_run projectId departmentId hRole s
  rw [hMember] at hRun
  exact hRun

/-- A returned task carries its row. -/
theorem mem_listed {s : Store} {rows : List Task} {t : SerializedTask} :
    t ∈ rows.reverse.map (fun task => task.listed s) ↔
      t.task ∈ rows ∧ t.task.listed s = t := by
  rw [List.mem_map]
  constructor
  · rintro ⟨task, hTask, rfl⟩
    exact ⟨List.mem_reverse.mp hTask, rfl⟩
  · rintro ⟨hTask, hSame⟩
    exact ⟨t.task, List.mem_reverse.mpr hTask, hSame⟩

/-! ## Two views of the tasks -/

section Agreement

variable {s : Store} {projectId userId : Id} {projectUser : ProjectUser}

omit [Runtime] in
theorem refOk_pos {ρ : Type} [Row ρ] {t : Table ρ} {ref : Option Id} (h : refOk t ref = true)
    {k : Id} (hRef : ref = some k) : 0 < k := by
  rw [hRef] at h
  exact Table.pos_of_has h

omit [Runtime] in
/-- `Number(a) === Number(b)` on ids that may be null. -/
theorem getD_eq_getD {a b : Option Id} (ha : ∀ k, a = some k → 0 < k)
    (hb : ∀ k, b = some k → 0 < k) : a.getD 0 = b.getD 0 ↔ a = b := by
  cases a with
  | none =>
      cases b with
      | none => exact iff_of_true rfl rfl
      | some k =>
          have hPos := hb k rfl
          exact iff_of_false (Int.ne_of_lt hPos) (by simp)
  | some j =>
      have hPos := ha j rfl
      cases b with
      | none => exact iff_of_false (Int.ne_of_gt hPos) (by simp)
      | some k => simp

omit [Runtime] in
/-- The task is in no department, in the given one, or assigned to the user. -/
def Task.inReach (task : Task) (departmentId : Option Id) (userId : Id) : Prop :=
  task.departmentId = none ∨ task.departmentId = departmentId ∨ task.assignedTo = some userId

omit [Runtime] in
/-- The task is one that a member of the department looks at; without a department it looks at
all. -/
def Task.within (task : Task) (departmentId : Option Id) (userId : Id) : Prop :=
  departmentId ≠ none → task.inReach departmentId userId

omit [Runtime] in
theorem memberConflicts_comm (a b : ProjectUser) :
    prisma.projectUser.conflicts a b = prisma.projectUser.conflicts b a := by
  simp only [prisma.projectUser]
  rw [Bool.beq_comm, Bool.beq_comm (a := a.userId)]

omit [Runtime] in
/-- The row of a member is the only one with its project and its user. -/
theorem memberOf_of_mem (hValid : s.Valid) {r : ProjectUser} (hr : r ∈ s.projectUser.rows) :
    memberOf s r.projectId r.userId = some r := by
  cases hFound : memberOf s r.projectId r.userId with
  | none =>
      have hNot := List.find?_eq_none.mp hFound r hr
      exact absurd (isMember_iff.mpr ⟨rfl, rfl⟩) hNot
  | some r' =>
      obtain ⟨hMem, hProject, hUser⟩ := memberOf_some hFound
      have hConflict : prisma.projectUser.conflicts r' r = true := by
        simp only [prisma.projectUser, hProject, hUser, beq_self_eq_true, Bool.and_self]
      rw [hValid.projectUser.eq_of_conflicts memberConflicts_comm hMem hr hConflict]

omit [Runtime] in
/-- The department of a member exists, so its id is not zero. -/
theorem departmentSet_iff (hValid : s.Valid)
    (hMember : memberOf s projectId userId = some projectUser) :
    isSet projectUser.departmentId = true ↔ projectUser.departmentId ≠ none := by
  have hRef := hValid.projectUser.references projectUser (memberOf_some hMember).1
  simp only [prisma.projectUser, Bool.and_eq_true] at hRef
  cases hDepartment : projectUser.departmentId with
  | none => exact iff_of_false Bool.false_ne_true fun h => h rfl
  | some k => exact iff_of_true (isSet_of_pos (refOk_pos hRef.1.2 hDepartment)) (by simp)

omit [Runtime] in
/-- The tasks in the scope of a member in memory, with the comparisons of null resolved. -/
theorem isInViewerScope_iff (hValid : s.Valid)
    (hMember : memberOf s projectId userId = some projectUser) {task : Task}
    (hTask : task ∈ s.task.rows) :
    isInViewerScope projectUser userId task = true ↔
      task.inReach projectUser.departmentId userId := by
  obtain ⟨hMem, -, hUser⟩ := memberOf_some hMember
  have hPos := member_userId_pos hValid hMem
  rw [hUser] at hPos
  have hTaskRef := hValid.task.references task hTask
  have hMemberRef := hValid.projectUser.references projectUser hMem
  simp only [prisma.task, prisma.projectUser, Bool.and_eq_true] at hTaskRef hMemberRef
  have hDepartment := getD_eq_getD (fun _ => refOk_pos hTaskRef.1.2)
    (fun _ => refOk_pos hMemberRef.1.2)
  have hAssigned : task.assignedTo.getD 0 = userId ↔ task.assignedTo = some userId :=
    @getD_eq_getD task.assignedTo (some userId) (fun _ => refOk_pos hTaskRef.2)
      fun k hk => Option.some.inj hk ▸ hPos
  have hNull : isSet task.departmentId = false ↔ task.departmentId = none := by
    cases hNone : task.departmentId with
    | none => exact iff_of_true rfl rfl
    | some k => simp [isSet_of_pos (refOk_pos hTaskRef.1.2 hNone)]
  simp only [isInViewerScope, Bool.or_eq_true, Bool.not_eq_true', beq_iff_eq, hNull, hDepartment,
    hAssigned, or_assoc, Task.inReach]

/-- The tasks that a member sees in memory. -/
theorem visibleTask_iff (hValid : s.Valid)
    (hMember : memberOf s projectId userId = some projectUser) {task : Task}
    (hTask : task ∈ s.task.rows) (accessMap : AccessMap) :
    visibleTask projectUser accessMap userId task = some true ↔
      task.inReach projectUser.departmentId userId ∧
        mayPerform accessMap task.taskLike .view = some true := by
  rw [← isInViewerScope_iff hValid hMember hTask, visibleTask]
  cases isInViewerScope projectUser userId task <;> simp

omit [Runtime] in
/-- The tasks of a project among which `getTasks` looks for those that the member may see. -/
def Task.selectedFor (task : Task) (departmentId : Option Id) (projectUser : ProjectUser)
    (userId : Id) : Prop :=
  if isSet departmentId then
    task.departmentId = departmentId ∧
      (isSet projectUser.departmentId = true → projectUser.departmentId = departmentId)
  else
    isSet projectUser.departmentId = true → inScope projectUser.departmentId userId task = true

omit [Runtime] in
theorem mem_selectedTasks {departmentId : Option Id} {task : Task} :
    task ∈ selectedTasks s projectId departmentId projectUser userId ↔
      task ∈ s.task.rows ∧ task.projectId = projectId ∧
        task.selectedFor departmentId projectUser userId := by
  unfold selectedTasks Task.selectedFor scopedWhere
  cases hAsked : isSet departmentId with
  | false =>
      cases hOwn : isSet projectUser.departmentId with
      | false => simp
      | true => simp
  | true =>
      cases hOwn : isSet projectUser.departmentId with
      | false => simp
      | true =>
          by_cases hSame : departmentId = projectUser.departmentId
          · simp [hSame]
          · simp [hSame, Ne.symm hSame]

/-- The tasks that `getTasks` returns to a member. -/
theorem mem_memberTasks {departmentId : Option Id} {task : Task} :
    task ∈ memberTasks s projectId departmentId projectUser userId ↔
      task ∈ s.task.rows ∧ task.projectId = projectId ∧
        task.selectedFor departmentId projectUser userId ∧
        mayPerform (projectUser.membership.accessMap s) task.taskLike .view = some true := by
  rw [memberTasks, List.mem_filter, mem_selectedTasks, beq_iff_eq, and_assoc, and_assoc]

omit [Runtime] in
/-- The tasks among which a member looks when it asks for no department. -/
theorem selectedFor_unset
    (hSet : isSet projectUser.departmentId = true ↔ projectUser.departmentId ≠ none)
    {departmentId : Option Id} (hAsked : isSet departmentId = false) {task : Task} :
    task.selectedFor departmentId projectUser userId ↔
      task.within projectUser.departmentId userId := by
  rw [Task.selectedFor, hAsked, if_neg Bool.false_ne_true, hSet]
  simp only [inScope, Task.within, Task.inReach, Bool.or_eq_true, beq_iff_eq, or_assoc]
  rw [or_left_comm]

omit [Runtime] in
theorem selectedFor_none (hValid : s.Valid)
    (hMember : memberOf s projectId userId = some projectUser) {task : Task} :
    task.selectedFor none projectUser userId ↔ task.within projectUser.departmentId userId :=
  selectedFor_unset (departmentSet_iff hValid hMember) rfl

/-! ### Tasks that cannot be read -/

/-- In the project there is such a task whose resource cannot be read. -/
def Unreadable (s : Store) (projectId : Id) (scope : Task → Prop) : Prop :=
  ∃ task ∈ s.task.rows, task.projectId = projectId ∧ scope task ∧ task.readable = false

theorem Unreadable.mono {scope scope' : Task → Prop} (h : Unreadable s projectId scope)
    (hScope : ∀ task, scope task → scope' task) : Unreadable s projectId scope' := by
  obtain ⟨task, hTask, hProject, hIn, hNot⟩ := h
  exact ⟨task, hTask, hProject, hScope task hIn, hNot⟩

theorem unreadable_congr {scope scope' : Task → Prop} (h : ∀ task, scope task ↔ scope' task) :
    Unreadable s projectId scope ↔ Unreadable s projectId scope' :=
  ⟨fun hOld => hOld.mono fun task => (h task).mp, fun hNew => hNew.mono fun task => (h task).mpr⟩

theorem selectedTasks_readable {departmentId : Option Id} :
    (selectedTasks s projectId departmentId projectUser userId).all Task.readable = true ↔
      ¬ Unreadable s projectId fun task => task.selectedFor departmentId projectUser userId := by
  rw [List.all_eq_true]
  constructor
  · rintro h ⟨task, hTask, hProject, hSelected, hNot⟩
    rw [h task (mem_selectedTasks.mpr ⟨hTask, hProject, hSelected⟩)] at hNot
    cases hNot
  · intro h task hMem
    obtain ⟨hTask, hProject, hSelected⟩ := mem_selectedTasks.mp hMem
    exact Bool.not_eq_false _ ▸ fun hNot => h ⟨task, hTask, hProject, hSelected, hNot⟩

/-- In its project the member has a task in reach whose resource cannot be read. -/
def ProjectUser.MeetsUnreadable (projectUser : ProjectUser) (s : Store) : Prop :=
  Unreadable s projectUser.projectId fun task =>
    task.inReach projectUser.departmentId projectUser.userId

theorem readable_memberProject (hValid : s.Valid) {project : Project}
    (hMember : memberOf s project.id userId = some projectUser) :
    (loadMemberProject s project).readable userId = true ↔ ¬ projectUser.MeetsUnreadable s := by
  have hFind : (loadMemberProject s project).users.find? (fun r => r.userId == userId) =
      some projectUser := (find_memberRows s project.id userId).trans hMember
  obtain ⟨-, hProject, hUser⟩ := memberOf_some hMember
  rw [ProjectView.readable, hFind]
  change (s.task.rows.filter fun r => r.projectId == project.id).all _ = true ↔ _
  simp only [List.all_eq_true, List.mem_filter, beq_iff_eq, Bool.or_eq_true, Bool.not_eq_true']
  constructor
  · rintro h ⟨task, hTask, hOf, hReach, hNot⟩
    rw [hUser, ← isInViewerScope_iff hValid hMember hTask] at hReach
    rcases h task ⟨hTask, hOf.trans hProject⟩ with hOut | hReadable
    · rw [hReach] at hOut
      cases hOut
    · rw [hReadable] at hNot
      cases hNot
  · rintro h task ⟨hTask, hOf⟩
    by_contra hOut
    rw [not_or, Bool.not_eq_false, Bool.not_eq_true] at hOut
    refine h ⟨task, hTask, hOf.trans hProject.symm, ?_, hOut.2⟩
    rw [hUser]
    exact (isInViewerScope_iff hValid hMember hTask).mp hOut.1

/-- The projects of a user can be listed unless one of them has such a task. -/
theorem memberProjects_readable (hValid : s.Valid) :
    ((memberProjects s userId).all fun view => view.readable userId) = true ↔
      ¬ ∃ r ∈ s.projectUser.rows, r.userId = userId ∧ r.MeetsUnreadable s := by
  have hProjectOf {r : ProjectUser} (hr : r ∈ s.projectUser.rows) :
      ∃ project, s.project.find r.projectId = some project ∧ project.id = r.projectId := by
    have hRef := hValid.projectUser.references r hr
    simp only [prisma.projectUser, Bool.and_eq_true] at hRef
    obtain ⟨project, hRow, hKey⟩ := Table.has_iff.mp hRef.1.1.1.1
    exact ⟨project, Table.find_eq_some.mpr ⟨hRow, hKey⟩, hKey⟩
  rw [List.all_eq_true]
  constructor
  · rintro h ⟨r, hr, hUser, hMeets⟩
    obtain ⟨project, hFind, hId⟩ := hProjectOf hr
    have hMember : memberOf s project.id userId = some r := by
      rw [hId, ← hUser]
      exact memberOf_of_mem hValid hr
    have hReadable := h _ (mem_memberProjects.mpr ⟨r, hr, hUser, project, hFind, rfl⟩)
    exact (readable_memberProject hValid hMember).mp hReadable hMeets
  · intro h view hView
    obtain ⟨r, hr, hUser, project, hFind, rfl⟩ := mem_memberProjects.mp hView
    have hId : project.id = r.projectId := (Table.find_eq_some.mp hFind).2
    have hMember : memberOf s project.id userId = some r := by
      rw [hId, ← hUser]
      exact memberOf_of_mem hValid hr
    exact (readable_memberProject hValid hMember).mpr fun hMeets => h ⟨r, hr, hUser, hMeets⟩

/-! ### When they agree -/

theorem mem_entryTasks {task : Task} :
    task ∈ entryTasks s projectId userId projectUser ↔
      task ∈ s.task.rows ∧ task.projectId = projectId ∧
        visibleTask projectUser (projectUser.membership.accessMap s) userId task = some true := by
  rw [entryTasks, List.mem_filter, List.mem_filter, beq_iff_eq, beq_iff_eq, and_assoc]

/-- The entry of a project in `getUserProjects`. -/
theorem userProject_entry (hMember : memberOf s projectId userId = some projectUser)
    {entry : ProjectResponse}
    (hEntry : entry ∈ (memberProjects s userId).map fun view => view.viewedBy s userId)
    (hProject : entry.project.id = projectId) :
    entry.tasks.map (fun t => t.task.id) =
      (entryTasks s projectId userId projectUser).map Task.id := by
  obtain ⟨view, hView, rfl⟩ := List.mem_map.mp hEntry
  obtain ⟨r, hr, hUser, project, hFind, rfl⟩ := mem_memberProjects.mp hView
  have hSame : ((loadMemberProject s project).viewedBy s userId).project = project := by
    unfold ProjectView.viewedBy
    split <;> rfl
  rw [hSame] at hProject
  subst hProject
  rw [viewedBy_memberProject hMember]
  simp only [ProjectView.restrict, List.map_map]
  rfl

/-- A member's project is in its list. -/
theorem userProject_exists (hValid : s.Valid)
    (hMember : memberOf s projectId userId = some projectUser) :
    ∃ entry ∈ (memberProjects s userId).map fun view => view.viewedBy s userId,
      entry.project.id = projectId := by
  obtain ⟨hMem, hProject, hUser⟩ := memberOf_some hMember
  have hRef := hValid.projectUser.references projectUser hMem
  simp only [prisma.projectUser, Bool.and_eq_true] at hRef
  obtain ⟨project, hRow, hKey⟩ := Table.has_iff.mp hRef.1.1.1.1
  have hFind := Table.find_eq_some.mpr ⟨hRow, hKey⟩
  have hView : loadMemberProject s project ∈ memberProjects s userId :=
    mem_memberProjects.mpr ⟨projectUser, hMem, hUser, project, hFind, rfl⟩
  have hId : project.id = projectId := hKey.trans hProject
  subst hId
  refine ⟨_, List.mem_map_of_mem hView, ?_⟩
  rw [viewedBy_memberProject hMember]
  rfl

/-- The task is in a department, not assigned to the member, and the member may see tasks of
its resource. -/
def Task.outOfScope (task : Task) (accessMap : AccessMap) (userId : Id) : Prop :=
  task.departmentId ≠ none ∧ task.assignedTo ≠ some userId ∧
    mayPerform accessMap task.taskLike .view = some true

/-- The lists differ in the tasks of departments, for a member without one. -/
theorem same_tasks_iff (hValid : s.Valid)
    (hMember : memberOf s projectId userId = some projectUser) :
    (∀ task ∈ s.task.rows, task ∈ memberTasks s projectId none projectUser userId ↔
        task ∈ entryTasks s projectId userId projectUser) ↔
      projectUser.departmentId ≠ none ∨ ∀ task ∈ s.task.rows, task.projectId = projectId →
        ¬ task.outOfScope (projectUser.membership.accessMap s) userId := by
  rw [or_iff_not_imp_left, not_not]
  constructor
  · intro hSame hNone task hTask hProject hOut
    obtain ⟨hSet, hOthers, hView⟩ := hOut
    have hSelected : task.selectedFor none projectUser userId :=
      (selectedFor_none hValid hMember).mpr fun hOwn => absurd hNone hOwn
    have hListed := mem_memberTasks.mpr ⟨hTask, hProject, hSelected, hView⟩
    have hSeen := (mem_entryTasks.mp ((hSame task hTask).mp hListed)).2.2
    rw [visibleTask_iff hValid hMember hTask, hNone] at hSeen
    rcases hSeen.1 with hNull | hNull | hAssigned
    · exact hSet hNull
    · exact hSet hNull
    · exact hOthers hAssigned
  · intro h task hTask
    rw [mem_entryTasks, mem_memberTasks, visibleTask_iff hValid hMember hTask,
      selectedFor_none hValid hMember]
    refine and_congr_right fun _ => and_congr_right fun hProject => and_congr_left fun hView => ?_
    by_cases hNone : projectUser.departmentId = none
    · have hHidden := h hNone task hTask hProject
      refine iff_of_true (fun hOwn => absurd hNone hOwn) ?_
      -- a task of a department is hidden, or assigned to the member
      by_cases hNull : task.departmentId = none
      · exact Or.inl hNull
      · exact Or.inr (Or.inr (by_contra fun hOthers => hHidden ⟨hNull, hOthers, hView⟩))
    · exact ⟨fun hReach => hReach hNone, fun hReach _ => hReach⟩

omit [Runtime] in
/-- Two calls give answers that agree, or both throw. -/
def AnswersAgree {α β : Type} (agree : α → β → Prop) : Except Exn α → Except Exn β → Prop
  | .ok a, .ok b => agree a b
  | .error _, .error _ => True
  | _, _ => False

omit [Runtime] in
theorem answersAgree_answerIf {α β : Type} {agree : α → β → Prop} {p q : Bool} {a : α} {b : β} :
    AnswersAgree agree (answerIf p a) (answerIf q b) ↔
      (p = true ↔ q = true) ∧ (p = true → agree a b) := by
  cases p <;> cases q <;> simp [answerIf, AnswersAgree]

/-- The project has an entry, with the same tasks. -/
def SameTasks (projectId : Id) (tasks : List SerializedTask) (projects : List ProjectResponse) :
    Prop :=
  (∃ entry ∈ projects, entry.project.id = projectId) ∧
    ∀ entry ∈ projects, entry.project.id = projectId →
      ∀ id, id ∈ tasks.map (fun t => t.task.id) ↔ id ∈ entry.tasks.map fun t => t.task.id

/-- **When the two lists of tasks agree.** Both queries must be able to read the resources of the
tasks they meet, or neither; the lists are the same for a member in a department, and for a member
without one when every task of a department is assigned to the member or hidden from it anyway. -/
theorem task_lists_agree (hValid : s.Valid) {viewer : Viewer} (hRole : viewer.role ≠ some "admin")
    (hMember : memberOf s projectId viewer.userId = some projectUser) :
    ∃ accessMap,
      (getAccessMapForProjectUser projectUser.membership).run s = (.ok accessMap, s) ∧
      (AnswersAgree (SameTasks projectId) ((getTasks projectId none (some viewer)).run s).1
          ((getUserProjects viewer.userId).run s).1 ↔
        (Unreadable s projectId (fun task =>
            task.within projectUser.departmentId viewer.userId) ↔
          ∃ r ∈ s.projectUser.rows, r.userId = viewer.userId ∧ r.MeetsUnreadable s) ∧
        (Unreadable s projectId (fun task =>
            task.within projectUser.departmentId viewer.userId) ∨
          projectUser.departmentId ≠ none ∨
            ∀ task ∈ s.task.rows, task.projectId = projectId →
              ¬ task.outOfScope accessMap viewer.userId)) := by
  refine ⟨_, getAccessMapForProjectUser_run _ s, ?_⟩
  rw [getTasks_member hRole hMember, getUserProjects_run, answersAgree_answerIf,
    selectedTasks_readable, memberProjects_readable hValid, not_iff_not,
    unreadable_congr fun task => selectedFor_none hValid hMember,
    ← same_tasks_iff hValid hMember, or_iff_not_imp_left]
  refine and_congr_right fun _ => imp_congr_right fun _ => ?_
  have hTasks {task : Task}
      (hMem : task ∈ memberTasks s projectId none projectUser viewer.userId) : task ∈ s.task.rows :=
    (mem_memberTasks.mp hMem).1
  have hEntryTasks {task : Task}
      (hMem : task ∈ entryTasks s projectId viewer.userId projectUser) : task ∈ s.task.rows :=
    (mem_entryTasks.mp hMem).1
  have hKeys := Table.same_keys_iff (t := s.task) (fun _ => hTasks) fun _ => hEntryTasks
  have hIds (id : Id) : id ∈ ((memberTasks s projectId none projectUser viewer.userId).reverse.map
        fun task => task.listed s).map (fun t => t.task.id) ↔
      id ∈ (memberTasks s projectId none projectUser viewer.userId).map Row.key := by
    rw [List.map_map]
    exact ((List.reverse_perm _).map _).mem_iff
  rw [← hKeys]
  constructor
  · rintro ⟨⟨entry, hEntry, hId⟩, hSame⟩ id
    have hListed := hSame entry hEntry hId id
    rw [hIds, userProject_entry hMember hEntry hId] at hListed
    exact hListed
  · intro hSame
    refine ⟨userProject_exists hValid hMember, fun entry hEntry hId id => ?_⟩
    rw [hIds, userProject_entry hMember hEntry hId]
    exact hSame id

end Agreement

end Lists

section Site

attribute [local instance] asciiRuntime

/-- A task of a department, assigned to nobody. -/
def sheets (id : Id) : Task where
  id := id
  projectId := 1
  departmentId := some 1
  title := "Sheets"
  description := none
  status := "pending"
  type := "basic"
  formSchema := none
  submissionData := none
  assignedTo := none

/-- The small site with a department and a task of it. -/
def sheetsSite : Store :=
  { site with
    department := Table.empty.insert (fun id => { id, projectId := 1, name := "Roads" })
      fun _ => rfl
    task := Table.empty.insert sheets fun _ => rfl }

/-- The small site with a task without a department. -/
def openSite : Store :=
  { sheetsSite with
    task := Table.empty.insert (fun id => { sheets id with departmentId := none }) fun _ => rfl }

theorem openSite_valid : openSite.Valid := by
  constructor <;> decide

/-- The role of the foreman lets it see tasks. -/
theorem foreman_views_tasks {s : Store} (hPermission : s.permission = site.permission)
    (hPolicy : s.departmentRolePolicy = site.departmentRolePolicy) (departmentId : Option Id) :
    mayPerform (foreman.membership.accessMap s) ({ sheets 1 with departmentId } : Task).taskLike
      .view = some true := by
  have hTask : normalizeResource "TASK" = "TASK" := by decide
  have hResource : resolveTaskResource ({ sheets 1 with departmentId } : Task).taskLike =
      some "TASK" := (by decide : resolveTaskResource (sheets 1).taskLike = some "TASK")
  have hSite : foreman.membership.accessMap s = foreman.membership.accessMap site := by
    simp only [Membership.accessMap, Membership.permissions, Membership.policies, hPermission,
      hPolicy]
  rw [mayPerform, hResource, Option.map_some, hSite]
  simp only [canPerformTaskResourceAction, hTask, if_neg (by decide : "TASK" ≠ ""), if_true,
    canAccess]
  rw [Membership.accessMap, get_accessMapFrom _ _ (by decide)]
  decide +kernel

/-- What `getTasks` returns to the foreman when all tasks can be read. -/
theorem foreman_getTasks {s : Store} (hMember : memberOf s 1 1 = some foreman)
    (hReadable : ∀ task ∈ s.task.rows, task.readable = true) :
    (getTasks 1 none (some ⟨1, some "user"⟩)).run s =
      (.ok ((memberTasks s 1 none foreman 1).reverse.map fun task => task.listed s), s) := by
  have hUser : (⟨1, some "user"⟩ : Viewer).role ≠ some "admin" := by decide
  have hAll : (selectedTasks s 1 none foreman 1).all Task.readable = true :=
    List.all_eq_true.mpr fun task hTask => hReadable task (mem_selectedTasks.mp hTask).1
  rw [getTasks_member hUser hMember, hAll, answerIf, if_pos rfl]

theorem foreman_finds {s : Store} {task : Task}
    (hTask : task ∈ memberTasks s 1 none foreman 1) :
    task.id ∈ ((memberTasks s 1 none foreman 1).reverse.map fun task => task.listed s).map
      fun t => t.task.id :=
  List.mem_map.mpr ⟨task.listed s, List.mem_map_of_mem (List.mem_reverse.mpr hTask), rfl⟩

/-- The task of the project as a whole is in both lists. -/
theorem task_lists_agree_site :
    AnswersAgree (SameTasks 1) ((getTasks 1 none (some ⟨1, some "user"⟩)).run openSite).1
        ((getUserProjects 1).run openSite).1 ∧
      ∃ tasks, (getTasks 1 none (some ⟨1, some "user"⟩)).run openSite = (.ok tasks, openSite) ∧
        1 ∈ tasks.map fun t => t.task.id := by
  have hUser : (⟨1, some "user"⟩ : Viewer).role ≠ some "admin" := by decide
  have hMember : memberOf openSite 1 1 = some foreman := rfl
  have hReadable : ∀ task ∈ openSite.task.rows, task.readable = true := by decide
  have hNoDepartment : ∀ task ∈ openSite.task.rows, task.departmentId = none := by decide
  obtain ⟨accessMap, -, hAgree⟩ := task_lists_agree openSite_valid hUser hMember
  have hLeft : ¬ Unreadable openSite 1 fun task => task.within none 1 := by
    rintro ⟨task, hTask, -, -, hNot⟩
    rw [hReadable task hTask] at hNot
    cases hNot
  have hRight : ¬ ∃ r ∈ openSite.projectUser.rows, r.userId = 1 ∧ r.MeetsUnreadable openSite := by
    rintro ⟨r, -, -, task, hTask, -, -, hNot⟩
    rw [hReadable task hTask] at hNot
    cases hNot
  have hListed : ({ sheets 1 with departmentId := none } : Task) ∈
      memberTasks openSite 1 none foreman 1 :=
    mem_memberTasks.mpr ⟨List.mem_cons_self, rfl, nofun, foreman_views_tasks rfl rfl none⟩
  refine ⟨hAgree.mpr ⟨iff_of_false hLeft hRight, Or.inr (Or.inr fun task hTask _ hOut => ?_)⟩,
    _, foreman_getTasks hMember hReadable, foreman_finds hListed⟩
  exact hOut.1 (hNoDepartment task hTask)

/-- The foreman, who is in no department, finds the task of the department in `tasks`, but not
in `myProjects`. -/
theorem task_lists_disagree :
    ∃ tasks projects,
      (getTasks 1 none (some ⟨1, some "user"⟩)).run sheetsSite = (.ok tasks, sheetsSite) ∧
      (getUserProjects 1).run sheetsSite = (.ok projects, sheetsSite) ∧
      1 ∈ tasks.map (fun t => t.task.id) ∧
      projects.map (fun entry => (entry.project.id, entry.tasks.map fun t => t.task.id)) =
        [(1, [])] := by
  have hReadable : ∀ task ∈ sheetsSite.task.rows, task.readable = true := by decide
  have hProjects := getUserProjects_run 1 sheetsSite
  have hAll : ((memberProjects sheetsSite 1).all fun view => view.readable 1) = true := by decide
  rw [hAll] at hProjects
  have hListed : sheets 1 ∈ memberTasks sheetsSite 1 none foreman 1 :=
    mem_memberTasks.mpr ⟨List.mem_cons_self, rfl, nofun, foreman_views_tasks rfl rfl (some 1)⟩
  exact ⟨_, _, foreman_getTasks rfl hReadable, hProjects, foreman_finds hListed,
    by decide +kernel⟩

end Site

end Rooeel
