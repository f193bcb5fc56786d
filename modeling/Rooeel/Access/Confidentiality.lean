import Rooeel.Project.Lists
import Rooeel.Task.Authorization

/-!
# What the queries disclose

Members, departments and tasks of a project reach a caller through five queries. Two of them
go through `applyViewerPolicyOnProject`, one through the filter of `getTasks`, and two return
the rows as they are. A `Disclosure` is what a result contains of these rows, and
`Confidential` is what it may contain for a caller who is not an admin.
-/

namespace Rooeel

open JavaScript

section Queries

variable [Runtime]

/-- The queries through which a user reads the rows of projects. -/
inductive ReadQuery where
  | project (id : Id)
  | myProjects
  | projectUsers (projectId : Id)
  | departments (projectId : Id)
  | tasks (projectId : Id) (departmentId : Option Id)

/-- The rows of projects that a result contains. -/
structure Disclosure where
  members : List ProjectUser := []
  departments : List Department := []
  tasks : List SerializedTask := []

omit [Runtime] in
def ProjectResponse.disclosure (response : ProjectResponse) : Disclosure where
  members := response.users
  departments := response.departments
  tasks := response.tasks

omit [Runtime] in
def Disclosure.all (parts : List Disclosure) : Disclosure where
  members := parts.flatMap Disclosure.members
  departments := parts.flatMap Disclosure.departments
  tasks := parts.flatMap Disclosure.tasks

def ReadQuery.prog (viewer : Viewer) : ReadQuery → Service Disclosure
  | .project id => do
    let response ← findOne id (some viewer)
    pure response.disclosure
  | .myProjects => do
    let responses ← getUserProjects viewer.userId
    pure (Disclosure.all (responses.map ProjectResponse.disclosure))
  | .projectUsers projectId => do
    let members ← getUsers projectId
    pure { members }
  | .departments projectId => do
    let departments ← getDepartments projectId
    pure { departments }
  | .tasks projectId departmentId => do
    let tasks ← getTasks projectId departmentId (some viewer)
    pure { tasks }

/-! ## Confidentiality -/

/-- The caller is a member of the project whose access map grants the view of a resource. -/
def MayView (s : Store) (projectId userId : Id) (resource : String) : Prop :=
  MemberWith s projectId userId fun accessMap => canAccess accessMap resource .view = true

omit [Runtime] in
/-- The caller has a row in the project. -/
def IsMember (s : Store) (projectId userId : Id) : Prop :=
  ∃ projectUser ∈ s.projectUser.rows,
    projectUser.projectId = projectId ∧ projectUser.userId = userId

omit [Runtime] in
/-- The task is returned with the user, as its assignee or as that of one of its subtasks. -/
def SerializedTask.Shows (t : SerializedTask) (id : Id) : Prop :=
  (∃ assignee, t.assignee = some assignee ∧ assignee.id = id) ∨
    ∃ subtask ∈ t.subtasks, ∃ assignee, subtask.assignee = some assignee ∧ assignee.id = id

/-- What a caller may learn of the project. A member is disclosed by its row, and by a task of the
project that is assigned to it. -/
structure Confidential (s : Store) (projectId userId : Id) (d : Disclosure) : Prop where
  members : ∀ u ∈ d.members, u.projectId = projectId → u.userId ≠ userId →
    MayView s projectId userId "USER"
  assignees : ∀ t ∈ d.tasks, t.task.projectId = projectId → ∀ id, id ≠ userId → t.Shows id →
    IsMember s projectId id → MayView s projectId userId "USER"
  departments : ∀ x ∈ d.departments, x.projectId = projectId →
    MayView s projectId userId "DEPARTMENT"
  subtasks : ∀ t ∈ d.tasks, t.task.projectId = projectId → t.subtasks ≠ [] →
    MayView s projectId userId "SUBTASK"
  outsider : ¬ IsMember s projectId userId →
    (∀ u ∈ d.members, u.projectId ≠ projectId) ∧ (∀ x ∈ d.departments, x.projectId ≠ projectId) ∧
      ∀ t ∈ d.tasks, t.task.projectId ≠ projectId

/-- The result of the query, if there is one, is confidential with regard to every project. -/
def ReadQuery.Confidential (s : Store) (viewer : Viewer) (q : ReadQuery) : Prop :=
  ∀ d, ((q.prog viewer).run s).1 = .ok d →
    ∀ projectId, Rooeel.Confidential s projectId viewer.userId d

omit [Runtime] in
/-- The task, or one of its subtasks, is assigned to the user. -/
def Task.Involves (task : Task) (s : Store) (id : Id) : Prop :=
  s.user.has id = true ∧ (task.assignedTo = some id ∨
    ∃ subtask ∈ s.subTask.rows, subtask.taskId = task.id ∧ subtask.assignedTo = some id)

/-- The condition under which a query keeps to what the caller may learn. -/
def ReadQuery.Guarded (s : Store) (userId : Id) : ReadQuery → Prop
  | .project _ => True
  | .myProjects => True
  | .projectUsers projectId => MayView s projectId userId "USER" ∨
      ∀ u ∈ s.projectUser.rows, u.projectId = projectId → u.userId = userId
  | .departments projectId => MayView s projectId userId "DEPARTMENT" ∨
      ∀ x ∈ s.department.rows, x.projectId ≠ projectId
  | .tasks projectId departmentId =>
      ∀ projectUser, memberOf s projectId userId = some projectUser →
        Unreadable s projectId (fun task => task.selectedFor departmentId projectUser userId) ∨
        ∀ task ∈ s.task.rows, task.projectId = projectId →
          task.selectedFor departmentId projectUser userId →
          mayPerform (projectUser.membership.accessMap s) task.taskLike .view = some true →
          ((∃ id, id ≠ userId ∧ task.Involves s id ∧ IsMember s projectId id) →
              MayView s projectId userId "USER") ∧
            ((∃ subtask ∈ s.subTask.rows, subtask.taskId = task.id) →
              MayView s projectId userId "SUBTASK")

/-! ## Projects that a policy was applied to -/

section Views

variable {s : Store} {projectId userId : Id}

theorem MayView.isMember {resource : String} (h : MayView s projectId userId resource) :
    IsMember s projectId userId := by
  obtain ⟨projectUser, hMem, hProject, hUser, -⟩ := h
  exact ⟨projectUser, hMem, hProject, hUser⟩

theorem Confidential.empty : Confidential s projectId userId {} where
  members := fun _ h => absurd h List.not_mem_nil
  assignees := fun _ h => absurd h List.not_mem_nil
  departments := fun _ h => absurd h List.not_mem_nil
  subtasks := fun _ h => absurd h List.not_mem_nil
  outsider := fun _ => ⟨fun _ h => absurd h List.not_mem_nil, fun _ h => absurd h List.not_mem_nil,
    fun _ h => absurd h List.not_mem_nil⟩

theorem Confidential.all {parts : List Disclosure}
    (h : ∀ d ∈ parts, Confidential s projectId userId d) :
    Confidential s projectId userId (Disclosure.all parts) where
  members := by
    intro u hu
    obtain ⟨d, hd, hMem⟩ := List.mem_flatMap.mp hu
    exact (h d hd).members u hMem
  assignees := by
    intro t ht
    obtain ⟨d, hd, hMem⟩ := List.mem_flatMap.mp ht
    exact (h d hd).assignees t hMem
  departments := by
    intro x hx
    obtain ⟨d, hd, hMem⟩ := List.mem_flatMap.mp hx
    exact (h d hd).departments x hMem
  subtasks := by
    intro t ht
    obtain ⟨d, hd, hMem⟩ := List.mem_flatMap.mp ht
    exact (h d hd).subtasks t hMem
  outsider := by
    intro hOutside
    refine ⟨fun u hu => ?_, fun x hx => ?_, fun t ht => ?_⟩
    · obtain ⟨d, hd, hMem⟩ := List.mem_flatMap.mp hu
      exact ((h d hd).outsider hOutside).1 u hMem
    · obtain ⟨d, hd, hMem⟩ := List.mem_flatMap.mp hx
      exact ((h d hd).outsider hOutside).2.1 x hMem
    · obtain ⟨d, hd, hMem⟩ := List.mem_flatMap.mp ht
      exact ((h d hd).outsider hOutside).2.2 t hMem

omit [Runtime] in
/-- A project as it is read before the policy is applied: all its members, and some of its
departments and tasks. -/
structure IsView (s : Store) (view : ProjectView) : Prop where
  users : view.users = s.projectUser.rows.filter fun r => r.projectId == view.project.id
  departments : ∀ x ∈ view.departments, x.projectId = view.project.id
  tasks : ∀ t ∈ view.tasks, t.projectId = view.project.id

omit [Runtime] in
theorem isView_loadProject (s : Store) (project : Project) : IsView s (loadProject s project) where
  users := rfl
  departments := fun _ hx => beq_iff_eq.mp (List.mem_filter.mp hx).2
  tasks := fun _ h => absurd h List.not_mem_nil

omit [Runtime] in
theorem isView_loadMemberProject (s : Store) (project : Project) :
    IsView s (loadMemberProject s project) where
  users := rfl
  departments := fun _ h => absurd h List.not_mem_nil
  tasks := fun _ ht => beq_iff_eq.mp (List.mem_filter.mp ht).2

/-- What the policy leaves of a project: the tasks are shown without their subtasks and without
their assignees. -/
structure Restricted (view : ProjectView) (accessMap : AccessMap) (userId : Id)
    (response : ProjectResponse) : Prop where
  users : ∀ u ∈ response.users,
    u ∈ view.users ∧ (canAccess accessMap "USER" .view = true ∨ u.userId = userId)
  departments : ∀ x ∈ response.departments,
    x ∈ view.departments ∧ canAccess accessMap "DEPARTMENT" .view = true
  tasks : ∀ t ∈ response.tasks, t.task ∈ view.tasks ∧ t.subtasks = [] ∧ t.assignee = none

theorem restricted_restrict (view : ProjectView) (accessMap : AccessMap) (userId : Id)
    {visibleTasks : List Task} (hTasks : ∀ task ∈ visibleTasks, task ∈ view.tasks) :
    Restricted view accessMap userId (view.restrict accessMap userId visibleTasks) where
  users := by
    intro u hu
    simp only [ProjectView.restrict] at hu
    split at hu
    · rename_i hCan
      exact ⟨hu, Or.inl hCan⟩
    · obtain ⟨hMem, hSame⟩ := List.mem_filter.mp hu
      exact ⟨hMem, Or.inr (beq_iff_eq.mp hSame)⟩
  departments := by
    intro x hx
    simp only [ProjectView.restrict] at hx
    split at hx
    · rename_i hCan
      exact ⟨hx, hCan⟩
    · cases hx
  tasks := by
    intro t ht
    obtain ⟨task, hTask, rfl⟩ := List.mem_map.mp ht
    exact ⟨hTasks task hTask, rfl, rfl⟩

/-- **The viewer policy keeps a project confidential.** -/
theorem IsView.confidential {view : ProjectView} (h : IsView s view) (projectId userId : Id) :
    Confidential s projectId userId (view.viewedBy s userId).disclosure := by
  unfold ProjectView.viewedBy
  cases hFind : view.users.find? fun user => user.userId == userId with
  | none => exact .empty
  | some membership =>
      dsimp only
      have hMember : memberOf s view.project.id userId = some membership := by
        rw [← find_memberRows, ← h.users, hFind]
      have hMayView {resource : String} (hSame : view.project.id = projectId)
          (hCan : canAccess (membership.membership.accessMap s) resource .view = true) :
          MayView s projectId userId resource :=
        memberWith_of_memberOf (hSame ▸ hMember) hCan
      have hUsers {u : ProjectUser} (hu : u ∈ view.users) : u.projectId = view.project.id := by
        rw [h.users] at hu
        exact beq_iff_eq.mp (List.mem_filter.mp hu).2
      have hInside (hOutside : ¬ IsMember s projectId userId) : view.project.id ≠ projectId := by
        rintro rfl
        exact hOutside ⟨membership, memberOf_some hMember⟩
      have hRestricted := restricted_restrict view (membership.membership.accessMap s) userId
        fun task hTask => List.mem_of_mem_filter (p := fun task =>
          visibleTask membership (membership.membership.accessMap s) userId task == some true) hTask
      generalize view.restrict _ _ _ = response at hRestricted ⊢
      constructor
      case members =>
        intro u hu hProject hOther
        obtain ⟨hMem, hCan⟩ := hRestricted.users u hu
        exact hMayView ((hUsers hMem).symm.trans hProject) (hCan.resolve_right hOther)
      case assignees =>
        intro t ht _ id _ hShows
        obtain ⟨-, hSubtasks, hAssignee⟩ := hRestricted.tasks t ht
        rcases hShows with ⟨assignee, hSome, -⟩ | ⟨subtask, hMem, -⟩
        · rw [hAssignee] at hSome
          cases hSome
        · rw [hSubtasks] at hMem
          cases hMem
      case departments =>
        intro x hx hProject
        obtain ⟨hMem, hCan⟩ := hRestricted.departments x hx
        exact hMayView ((h.departments x hMem).symm.trans hProject) hCan
      case subtasks =>
        intro t ht _ hSubtasks
        exact absurd (hRestricted.tasks t ht).2.1 hSubtasks
      case outsider =>
        intro hOutside
        refine ⟨fun u hu hProject => ?_, fun x hx hProject => ?_, fun t ht hProject => ?_⟩
        · exact hInside hOutside ((hUsers (hRestricted.users u hu).1).symm.trans hProject)
        · have hMem := (hRestricted.departments x hx).1
          exact hInside hOutside ((h.departments x hMem).symm.trans hProject)
        · have hMem := (hRestricted.tasks t ht).1
          exact hInside hOutside ((h.tasks _ hMem).symm.trans hProject)

end Views

/-! ## The five queries -/

section Decision

variable {s : Store} {viewer : Viewer}

/-- A project that `findOne` returns to a user has gone through the viewer policy. -/
theorem findOne_viewedBy (hRole : viewer.role ≠ some "admin") (id : Id) :
    Reads s (fun response => ∃ project ∈ s.project.rows,
      response = (loadProject s project).viewedBy s viewer.userId) (findOne id (some viewer)) := by
  have hLoad : Reads s
      (fun view => ∀ v, view = some v → ∃ project ∈ s.project.rows, v = loadProject s project)
      (query fun s => (prisma.project.findFirst (fun r => r.id == id) s).map (loadProject s)) := by
    refine reads_of_run rfl fun v hv => ?_
    obtain ⟨project, hFind, rfl⟩ := Option.map_eq_some_iff.mp hv
    exact ⟨project, (Model.findFirst_some hFind).1, rfl⟩
  refine reads_bind hLoad fun view hView => ?_
  cases view with
  | none => exact reads_throw _
  | some view =>
      obtain ⟨project, hMem, rfl⟩ := hView view rfl
      rw [nonAdmin_some hRole]
      refine reads_bind reads_throwIf fun _ _ => ?_
      exact reads_answerIf (applyViewerPolicyOnProject_run _ _ s) ⟨project, hMem, rfl⟩

theorem confidential_project (hRole : viewer.role ≠ some "admin") (id : Id) :
    (ReadQuery.project id).Confidential s viewer := by
  have hReads : Reads s (fun d => ∀ projectId, Confidential s projectId viewer.userId d)
      ((ReadQuery.project id).prog viewer) := by
    refine reads_bind (findOne_viewedBy hRole id) fun response hResponse => reads_pure ?_
    obtain ⟨project, -, rfl⟩ := hResponse
    exact fun projectId => (isView_loadProject s project).confidential projectId viewer.userId
  intro d hResult
  exact ((Prog.wp_of_run (Prod.ext hResult rfl)).mp hReads).2

/-- The other queries return something in every store in which they do not throw. -/
theorem confidential_of_run {q : ReadQuery} {readable : Bool} {d : Disclosure}
    (hRun : (q.prog viewer).run s = (answerIf readable d, s)) :
    q.Confidential s viewer ↔
      (readable = true → ∀ projectId, Confidential s projectId viewer.userId d) := by
  unfold ReadQuery.Confidential
  rw [hRun]
  constructor
  · intro h hReadable
    exact h d (answerIf_eq_ok.mpr ⟨hReadable, rfl⟩)
  · intro h d' hResult
    obtain ⟨hReadable, rfl⟩ := answerIf_eq_ok.mp hResult
    exact h hReadable

theorem confidential_of_ok {q : ReadQuery} {d : Disclosure}
    (hRun : (q.prog viewer).run s = (.ok d, s)) :
    q.Confidential s viewer ↔ ∀ projectId, Confidential s projectId viewer.userId d := by
  have hAnswer : (q.prog viewer).run s = (answerIf true d, s) := hRun
  rw [confidential_of_run hAnswer, imp_iff_right rfl]

theorem confidential_myProjects : ReadQuery.myProjects.Confidential s viewer := by
  have hRun : (ReadQuery.myProjects.prog viewer).run s = _ :=
    map_answerIf_run (getUserProjects_run viewer.userId s)
      fun responses => Disclosure.all (responses.map ProjectResponse.disclosure)
  refine (confidential_of_run hRun).mpr fun _ projectId => .all fun d hd => ?_
  rw [List.map_map] at hd
  obtain ⟨view, hView, rfl⟩ := List.mem_map.mp hd
  obtain ⟨-, -, -, project, -, rfl⟩ := mem_memberProjects.mp hView
  exact (isView_loadMemberProject s project).confidential projectId viewer.userId

/-- The list of members is not filtered. -/
theorem confidential_projectUsers (projectId : Id) :
    (ReadQuery.projectUsers projectId).Confidential s viewer ↔
      (ReadQuery.projectUsers projectId).Guarded s viewer.userId := by
  rw [confidential_of_ok rfl]
  constructor
  · intro h
    refine or_iff_not_imp_left.mpr fun hHidden u hu hProject => ?_
    by_contra hOther
    have hListed : u ∈ prisma.projectUser.findMany (fun r => r.projectId == projectId) s :=
      List.mem_filter.mpr ⟨hu, beq_iff_eq.mpr hProject⟩
    exact hHidden ((h projectId).members u hListed hProject hOther)
  · intro h other
    have hRow {u : ProjectUser}
        (hu : u ∈ prisma.projectUser.findMany (fun r => r.projectId == projectId) s)
        (hOther : u.projectId = other) : u ∈ s.projectUser.rows ∧ other = projectId := by
      obtain ⟨hMem, hProject⟩ := List.mem_filter.mp hu
      exact ⟨hMem, hOther.symm.trans (beq_iff_eq.mp hProject)⟩
    constructor
    case members =>
      intro u hu hProject hOther
      obtain ⟨hMem, rfl⟩ := hRow hu hProject
      exact h.resolve_right fun hAlone => hOther (hAlone u hMem hProject)
    case assignees => exact fun _ ht => absurd ht List.not_mem_nil
    case departments => exact fun _ hx => absurd hx List.not_mem_nil
    case subtasks => exact fun _ ht => absurd ht List.not_mem_nil
    case outsider =>
      intro hOutside
      refine ⟨fun u hu hProject => ?_, fun _ hx => absurd hx List.not_mem_nil,
        fun _ ht => absurd ht List.not_mem_nil⟩
      obtain ⟨hMem, rfl⟩ := hRow hu hProject
      rcases h with hView | hAlone
      · exact hOutside hView.isMember
      · exact hOutside ⟨u, hMem, hProject, hAlone u hMem hProject⟩

/-- The list of departments is not filtered. -/
theorem confidential_departments (projectId : Id) :
    (ReadQuery.departments projectId).Confidential s viewer ↔
      (ReadQuery.departments projectId).Guarded s viewer.userId := by
  rw [confidential_of_ok rfl]
  constructor
  · intro h
    refine or_iff_not_imp_left.mpr fun hHidden x hx hProject => ?_
    have hListed : x ∈ prisma.department.findMany (fun r => r.projectId == projectId) s :=
      List.mem_filter.mpr ⟨hx, beq_iff_eq.mpr hProject⟩
    exact hHidden ((h projectId).departments x hListed hProject)
  · intro h other
    have hRow {x : Department}
        (hx : x ∈ prisma.department.findMany (fun r => r.projectId == projectId) s)
        (hOther : x.projectId = other) : MayView s other viewer.userId "DEPARTMENT" := by
      obtain ⟨hMem, hProject⟩ := List.mem_filter.mp hx
      have hSame : x.projectId = projectId := beq_iff_eq.mp hProject
      rw [← hOther, hSame]
      exact h.resolve_right fun hNone => hNone x hMem hSame
    constructor
    case members => exact fun _ hu => absurd hu List.not_mem_nil
    case assignees => exact fun _ ht => absurd ht List.not_mem_nil
    case departments => exact fun x hx hProject => hRow hx hProject
    case subtasks => exact fun _ ht => absurd ht List.not_mem_nil
    case outsider =>
      intro hOutside
      refine ⟨fun _ hu => absurd hu List.not_mem_nil, fun x hx hProject => ?_,
        fun _ ht => absurd ht List.not_mem_nil⟩
      exact hOutside (hRow hx hProject).isMember

/-- A listed task shows subtasks when it has some. -/
theorem listed_subtasks_ne_nil {task : Task} :
    (task.listed s).subtasks ≠ [] ↔ ∃ subtask ∈ s.subTask.rows, subtask.taskId = task.id := by
  have hShown : (task.listed s).subtasks = [] ↔
      (s.subTask.rows.filter fun subtask => subtask.taskId == task.id) = [] := by
    change List.map _ (List.map _ _) = [] ↔ _
    rw [List.map_eq_nil_iff, List.map_eq_nil_iff]
  rw [Ne, hShown, List.filter_eq_nil_iff]
  simp only [beq_iff_eq, not_forall, not_not, exists_prop]

omit [Runtime] in
theorem assigneeOf_id {assignedTo : Option Id} {id : Id} :
    (∃ assignee, assigneeOf s assignedTo = some assignee ∧ assignee.id = id) ↔
      s.user.has id = true ∧ assignedTo = some id := by
  constructor
  · rintro ⟨assignee, hFound, hId⟩
    obtain ⟨k, rfl, hFound⟩ := Option.bind_eq_some_iff.mp hFound
    obtain ⟨user, hUser, rfl⟩ := Option.map_eq_some_iff.mp hFound
    obtain ⟨hMem, hKey⟩ := Table.find_eq_some.mp hUser
    have hSame : k = id := hKey.symm.trans hId
    exact ⟨Table.has_iff.mpr ⟨user, hMem, hId⟩, congrArg some hSame⟩
  · rintro ⟨hUser, rfl⟩
    obtain ⟨user, hMem, hKey⟩ := Table.has_iff.mp hUser
    have hFind : s.user.find id = some user := Table.find_eq_some.mpr ⟨hMem, hKey⟩
    exact ⟨user.assignee, by rw [assigneeOf, Option.bind_some, hFind, Option.map_some], hKey⟩

/-- A listed task shows those it is assigned to. -/
theorem listed_shows_iff {task : Task} {id : Id} :
    (task.listed s).Shows id ↔ task.Involves s id := by
  have hSubtask (assignedTo : Option Id) :
      (∃ assignee, (assigneeOf s assignedTo).map (fun a => { a with email := none }) =
          some assignee ∧ assignee.id = id) ↔ s.user.has id = true ∧ assignedTo = some id := by
    rw [← assigneeOf_id]
    constructor
    · rintro ⟨_, hSome, hId⟩
      obtain ⟨assignee, hFound, rfl⟩ := Option.map_eq_some_iff.mp hSome
      exact ⟨assignee, hFound, hId⟩
    · rintro ⟨assignee, hFound, hId⟩
      exact ⟨_, Option.map_eq_some_iff.mpr ⟨assignee, hFound, rfl⟩, hId⟩
  rw [Task.Involves, and_or_left, ← assigneeOf_id]
  refine or_congr Iff.rfl ?_
  constructor
  · rintro ⟨subtask, hMem, hShows⟩
    obtain ⟨included, hIncluded, rfl⟩ := List.mem_map.mp hMem
    obtain ⟨r, hr, rfl⟩ := List.mem_map.mp hIncluded
    obtain ⟨hRow, hOf⟩ := List.mem_filter.mp hr
    obtain ⟨hUser, hAssigned⟩ := (hSubtask r.assignedTo).mp hShows
    exact ⟨hUser, r, hRow, beq_iff_eq.mp hOf, hAssigned⟩
  · rintro ⟨hUser, r, hRow, hOf, hAssigned⟩
    exact ⟨_, List.mem_map_of_mem (List.mem_map_of_mem (List.mem_filter.mpr
      ⟨hRow, beq_iff_eq.mpr hOf⟩)), (hSubtask r.assignedTo).mpr ⟨hUser, hAssigned⟩⟩

/-- What a list of tasks of one project discloses to a member of it. -/
theorem confidential_list_iff {projectId userId : Id} {tasks : List SerializedTask}
    (hMember : IsMember s projectId userId) (hTasks : ∀ t ∈ tasks, t.task.projectId = projectId) :
    (∀ other, Confidential s other userId { tasks }) ↔
      ∀ t ∈ tasks,
        (∀ id, id ≠ userId → t.Shows id → IsMember s projectId id →
            MayView s projectId userId "USER") ∧
          (t.subtasks ≠ [] → MayView s projectId userId "SUBTASK") := by
  constructor
  · intro h t ht
    exact ⟨(h projectId).assignees t ht (hTasks t ht), (h projectId).subtasks t ht (hTasks t ht)⟩
  · intro h other
    constructor
    case members => exact fun _ hu => absurd hu List.not_mem_nil
    case assignees =>
      intro t ht hProject
      rw [← hProject, hTasks t ht]
      exact (h t ht).1
    case departments => exact fun _ hx => absurd hx List.not_mem_nil
    case subtasks =>
      intro t ht hProject
      rw [← hProject, hTasks t ht]
      exact (h t ht).2
    case outsider =>
      intro hOutside
      refine ⟨fun _ hu => absurd hu List.not_mem_nil, fun _ hx => absurd hx List.not_mem_nil,
        fun t ht hProject => hOutside ?_⟩
      rw [← hProject, hTasks t ht]
      exact hMember

/-- The tasks are filtered, the assignees and the subtasks in them are not. -/
theorem confidential_tasks (hRole : viewer.role ≠ some "admin") (projectId : Id)
    (departmentId : Option Id) :
    (ReadQuery.tasks projectId departmentId).Confidential s viewer ↔
      (ReadQuery.tasks projectId departmentId).Guarded s viewer.userId := by
  cases hMember : memberOf s projectId viewer.userId with
  | none =>
      have hTasks := getTasks_run projectId departmentId hRole s
      rw [hMember] at hTasks
      have hRun : ((ReadQuery.tasks projectId departmentId).prog viewer).run s = (.ok {}, s) := by
        rw [ReadQuery.prog, Prog.run_bind_ok hTasks]
        rfl
      refine iff_of_true ((confidential_of_ok hRun).mpr fun _ => .empty) ?_
      intro projectUser hSome
      rw [hMember] at hSome
      cases hSome
  | some projectUser =>
      have hRun : ((ReadQuery.tasks projectId departmentId).prog viewer).run s = _ :=
        map_answerIf_run (getTasks_member hRole hMember departmentId)
          fun tasks => ({ tasks } : Disclosure)
      rw [confidential_of_run hRun, selectedTasks_readable, confidential_list_iff
        ⟨projectUser, memberOf_some hMember⟩
        fun t ht => (mem_memberTasks.mp (mem_listed.mp ht).1).2.1]
      constructor
      · intro h other hOther
        obtain rfl : other = projectUser := Option.some.inj (hOther.symm.trans hMember)
        refine or_iff_not_imp_left.mpr fun hReadable task hTask hProject hSelected hView => ?_
        have hMem := mem_memberTasks.mpr ⟨hTask, hProject, hSelected, hView⟩
        obtain ⟨hUsers, hSubtasks⟩ := h hReadable _ (mem_listed.mpr ⟨hMem, rfl⟩ : task.listed s ∈ _)
        refine ⟨?_, fun hSubtask => hSubtasks (listed_subtasks_ne_nil.mpr hSubtask)⟩
        rintro ⟨id, hOtherUser, hInvolves, hIsMember⟩
        exact hUsers id hOtherUser (listed_shows_iff.mpr hInvolves) hIsMember
      · intro h hReadable t ht
        obtain ⟨hMem, hSame⟩ := mem_listed.mp ht
        obtain ⟨hTask, hProject, hSelected, hView⟩ := mem_memberTasks.mp hMem
        obtain ⟨hUsers, hSubtasks⟩ :=
          (h projectUser hMember).resolve_left hReadable t.task hTask hProject hSelected hView
        rw [← hSame, listed_subtasks_ne_nil]
        refine ⟨fun id hOtherUser hShows hIsMember => ?_, hSubtasks⟩
        exact hUsers ⟨id, hOtherUser, listed_shows_iff.mp hShows, hIsMember⟩

/-- **When the queries keep confidential what they should.** The two that apply the viewer
policy always do; the lists of members and departments, and the assignees and the subtasks in the
list of tasks, are filtered by nothing, so the caller needs the right to see them all, or there must
be none to see. -/
theorem reads_confidential (s : Store) (viewer : Viewer) (hRole : viewer.role ≠ some "admin")
    (q : ReadQuery) : q.Confidential s viewer ↔ q.Guarded s viewer.userId := by
  cases q with
  | project id => exact iff_of_true (confidential_project hRole id) trivial
  | myProjects => exact iff_of_true confidential_myProjects trivial
  | projectUsers projectId => exact confidential_projectUsers projectId
  | departments projectId => exact confidential_departments projectId
  | tasks projectId departmentId => exact confidential_tasks hRole projectId departmentId

end Decision

end Queries

section Site

attribute [local instance] asciiRuntime

/-- The foreman is the only member of the small site, so the list of members tells it nothing. -/
theorem reads_confidential_site :
    (ReadQuery.projectUsers 1).Confidential site ⟨1, some "user"⟩ :=
  (reads_confidential site ⟨1, some "user"⟩ (by decide) (.projectUsers 1)).mpr
    (Or.inr (by decide))

/-- The site with a department, and with a user who is not a member. -/
def guestSite : Store :=
  { sheetsSite with
    user := sheetsSite.user.insert (fun id =>
      { id, firstName := "Eve", lastName := "Kay", email := "eve@site", password := "z"
        createdBy := some 1 }) fun _ => rfl }

theorem not_isMember_guest : ¬ IsMember guestSite 1 2 := by
  unfold IsMember
  decide

/-- The guest gets the members and the departments of the project. -/
theorem reads_disclose_to_guest :
    ¬ (ReadQuery.projectUsers 1).Confidential guestSite ⟨2, some "user"⟩ ∧
      ¬ (ReadQuery.departments 1).Confidential guestSite ⟨2, some "user"⟩ := by
  constructor
  · intro h
    have hOutside := (h _ rfl 1).outsider not_isMember_guest
    exact hOutside.1 foreman List.mem_cons_self rfl
  · intro h
    have hOutside := (h _ rfl 1).outsider not_isMember_guest
    exact hOutside.2.1 ⟨1, 1, "Roads"⟩ List.mem_cons_self rfl

end Site

end Rooeel
