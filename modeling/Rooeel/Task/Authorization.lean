import Rooeel.Task.Operations

/-!
# Who may write a task

For each of the three task mutations, first what a successful call has checked and written
(`createTask_outcome`, `updateTask_outcome`, `removeTask_outcome`), for every viewer. Then
the contract for a viewer who is not an admin: a call succeeds only for a member of the
task's project whose access map grants the action on the task's resource, and it changes
that task only.
-/

namespace Rooeel

open JavaScript

section Contract

variable [Runtime]

/-! ## What the checks establish -/

/-- The access map of a membership grants the action on the resource of a task. -/
def ProjectUser.grants (projectUser : ProjectUser) (s : Store) (taskLike : TaskLike)
    (action : Action) : Prop :=
  mayPerform (projectUser.membership.accessMap s) taskLike action = some true

theorem mayPerform_of_resource {accessMap : AccessMap} {taskLike : TaskLike} {action : Action}
    {resource : String} (hResource : resolveTaskResource taskLike = some resource)
    (hGrant : canPerformTaskResourceAction accessMap resource action = true) :
    mayPerform accessMap taskLike action = some true := by
  rw [mayPerform, hResource, Option.map_some, hGrant]

/-- The checks of `createTask` pass, and yield these defaults. -/
def CreateAllowed (s : Store) (projectId : Id) (data : CreateTaskInput) (viewer : Option Viewer)
    (defaults : Option Id × Option Id) : Prop :=
  match nonAdmin viewer with
  | none => defaults = (none, none)
  | some v => ∃ projectUser, memberOf s projectId v.userId = some projectUser ∧
      projectUser.grants s data.taskLike .create ∧
      defaults = (projectUser.departmentId, some v.userId)

/-- The checks of `updateTask` pass. -/
def UpdateAllowed (s : Store) (task : Task) (data : UpdateTaskInput) (viewer : Option Viewer) :
    Prop :=
  ∀ v, nonAdmin viewer = some v →
    ∃ projectUser, memberOf s task.projectId v.userId = some projectUser ∧
      (data.assignedTo.supplied = true →
        resolveTaskCreatorId task.taskLike = some (.ofInt v.userId)) ∧
      (data.validates = true → resolveTaskCreatorId task.taskLike = some (.ofInt v.userId)) ∧
      (projectUser.grants s task.taskLike .edit ∨
        task.isAssignedTo v.userId = true ∧ data.changesDefinitionOrDelegation = false)

/-- The check of `removeTask` passes. -/
def RemoveAllowed (s : Store) (task : Task) (viewer : Option Viewer) : Prop :=
  ∀ v, nonAdmin viewer = some v →
    ∃ projectUser, memberOf s task.projectId v.userId = some projectUser ∧
      projectUser.grants s task.taskLike .delete

theorem reads_getProjectUserContext (s : Store) (projectId userId : Id) :
    Reads s (fun context => ∀ c, context = some c →
        memberOf s projectId userId = some c.projectUser ∧
          c.accessMap = c.projectUser.membership.accessMap s)
      (getProjectUserContext projectId userId) := by
  refine reads_of_run (getProjectUserContext_run projectId userId s) ?_
  intro c hc
  obtain ⟨projectUser, hMember, rfl⟩ := Option.map_eq_some_iff.mp hc
  refine ⟨hMember, ?_⟩
  dsimp only

/-- What the three checks have in common: the viewer is a member of the project. -/
theorem reads_member {β : Type} {s : Store} {A : β → Prop} {projectId userId : Id} {e : Exn}
    {k : ProjectUserContext → Service β}
    (h : ∀ context : ProjectUserContext, memberOf s projectId userId = some context.projectUser →
      context.accessMap = context.projectUser.membership.accessMap s → Reads s A (k context)) :
    Reads s A (getProjectUserContext projectId userId >>= fun context =>
      match context with
      | none => throw e
      | some context => k context) := by
  refine reads_bind (reads_getProjectUserContext s projectId userId) fun context hContext => ?_
  cases context with
  | none => exact reads_throw _
  | some c =>
      obtain ⟨hMember, hMap⟩ := hContext c rfl
      exact h c hMember hMap

theorem reads_authorizeCreateTask (s : Store) (projectId : Id) (data : CreateTaskInput)
    (viewer : Option Viewer) :
    Reads s (CreateAllowed s projectId data viewer)
      (authorizeCreateTask projectId data viewer) := by
  unfold authorizeCreateTask CreateAllowed
  cases nonAdmin viewer with
  | none => exact reads_pure rfl
  | some v =>
      refine reads_member fun c hMember hMap => ?_
      refine reads_bind (reads_orTypeError fun _ h => h) fun resource hResource => ?_
      refine reads_bind reads_throwIf fun _ hGrant => reads_pure ?_
      rw [hMap] at hGrant
      exact ⟨c.projectUser, hMember, mayPerform_of_resource hResource (by simpa using hGrant), rfl⟩

theorem reads_authorizeUpdateTask (s : Store) (task : Task) (data : UpdateTaskInput)
    (viewer : Option Viewer) :
    Reads s (fun _ => UpdateAllowed s task data viewer) (authorizeUpdateTask task data viewer) := by
  unfold authorizeUpdateTask UpdateAllowed
  cases nonAdmin viewer with
  | none => exact reads_pure fun v hv => by cases hv
  | some v =>
      refine reads_member fun c hMember hMap => ?_
      refine reads_bind (reads_orTypeError fun _ h => h) fun resource hResource => ?_
      refine reads_bind (reads_orTypeError fun _ h => h) fun creatorId hCreator => ?_
      refine reads_bind reads_throwIf fun _ hDelegate => ?_
      refine reads_bind reads_throwIf fun _ hValidate => ?_
      refine reads_mono reads_throwIf fun _ hEdit w hw => ?_
      cases hw
      rw [hMap] at hEdit
      rw [hCreator, Option.some.injEq]
      refine ⟨c.projectUser, hMember, ?_, ?_, ?_⟩
      · intro hSupplied
        by_contra hne
        exact hDelegate ⟨hSupplied, hne⟩
      · intro hValidates
        by_contra hne
        exact hValidate ⟨hValidates, hne⟩
      · by_contra hNone
        rw [not_or, not_and] at hNone
        obtain ⟨hGrant, hWorker⟩ := hNone
        refine hEdit ?_
        rw [Bool.and_eq_true, Bool.not_eq_true', Bool.not_eq_true']
        refine ⟨eq_false_of_ne_true fun hFlag => ?_, ?_⟩
        · exact hGrant (mayPerform_of_resource hResource hFlag)
        cases hAssigned : task.isAssignedTo v.userId with
        | false => rfl
        | true => simpa using hWorker hAssigned

theorem reads_authorizeRemoveTask (s : Store) (task : Task) (viewer : Option Viewer) :
    Reads s (fun _ => RemoveAllowed s task viewer) (authorizeRemoveTask task viewer) := by
  unfold authorizeRemoveTask RemoveAllowed
  cases nonAdmin viewer with
  | none => exact reads_pure fun v hv => by cases hv
  | some v =>
      refine reads_member fun c hMember hMap => ?_
      refine reads_bind (reads_orTypeError fun _ h => h) fun resource hResource => ?_
      refine reads_mono reads_throwIf fun _ hGrant w hw => ?_
      cases hw
      rw [hMap] at hGrant
      exact ⟨c.projectUser, hMember, mayPerform_of_resource hResource (by simpa using hGrant)⟩

/-! ## What a successful call has done -/

/-- The row that a successful `createTask` has written. -/
def createdTask (projectId : Id) (data : CreateTaskInput) (viewer : Option Viewer)
    (defaults : Option Id × Option Id) (id : Id) : Task :=
  data.row projectId defaults.1 defaults.2
    (stampCreator viewer (parseJsonLike data.formSchema.json)) id

theorem createTask_outcome (s : Store) (projectId : Id) (data : CreateTaskInput)
    (viewer : Option Viewer) :
    (createTask projectId data viewer).wp (Outcome s fun out s' =>
      ∃ defaults, CreateAllowed s projectId data viewer defaults ∧
        data.type.isNull = false ∧
        out.task = createdTask projectId data viewer defaults s.task.next ∧
        prisma.task.references s out.task = true ∧
        s' = { s with
          task := s.task.insert (createdTask projectId data viewer defaults) fun _ => rfl }) s := by
  unfold createTask
  refine outcome_bind (reads_authorizeCreateTask s projectId data viewer) ?_
  intro defaults hAllowed
  refine outcome_bind reads_throwIf fun _ hNull => ?_
  refine outcome_map (outcome_execute fun row s' hRow => ?_)
  obtain ⟨hTask, hRef, hStore⟩ := Model.create_ok (includeSubtasks_ok hRow)
  exact ⟨defaults, hAllowed, eq_false_of_ne_true hNull, hTask, hRef, hStore⟩

theorem updateTask_outcome (s : Store) (id : Id) (data : UpdateTaskInput) (viewer : Option Viewer) :
    (updateTask id data viewer).wp (Outcome s fun out s' =>
      ∃ task ∈ s.task.rows, task.id = id ∧ UpdateAllowed s task data viewer ∧
        out.task = data.apply (parseJsonLike data.submissionData.json) task ∧
        prisma.task.references s out.task = true ∧
        s' = { s with
          task := s.task.modify (fun r => r.id == id)
            (data.apply (parseJsonLike data.submissionData.json)) fun _ => rfl }) s := by
  unfold updateTask
  refine outcome_bind (reads_findUniqueOrThrow prisma.task id) fun existingTask hFind => ?_
  obtain ⟨hMem, hId⟩ := Model.findFirst_some hFind
  refine outcome_bind (reads_authorizeUpdateTask s existingTask data viewer) fun _ hAllowed => ?_
  refine outcome_bind reads_throwIf fun _ _ => ?_
  refine outcome_map (outcome_execute fun row s' hRow => ?_)
  obtain ⟨task, hTaskMem, hTaskId, -, hTask, hRef, hStore⟩ :=
    Model.update_ok (includeSubtasks_ok hRow)
  have hExisting : existingTask.id = id := beq_iff_eq.mp hId
  have hFound : task.id = id := beq_iff_eq.mp hTaskId
  have hSame : task = existingTask :=
    s.task.key_inj hTaskMem hMem (hFound.trans hExisting.symm)
  subst hSame
  refine ⟨task, hTaskMem, hFound, hAllowed, hTask, hRef, ?_⟩
  rw [hStore]
  change { s with task := s.task.modify (fun x => x.id == task.id) _ _ } = _
  rw [hFound]

theorem removeTask_outcome (s : Store) (id : Id) (viewer : Option Viewer) :
    (removeTask id viewer).wp (Outcome s fun _ s' =>
      ∃ task ∈ s.task.rows, task.id = id ∧ RemoveAllowed s task viewer ∧
        s' = eraseTasks (fun r => r.id == id) s) s := by
  unfold removeTask
  refine outcome_bind (reads_findUniqueOrThrow prisma.task id) fun existingTask hFind => ?_
  obtain ⟨hMem, hId⟩ := Model.findFirst_some hFind
  have hExisting : existingTask.id = id := beq_iff_eq.mp hId
  refine outcome_bind (reads_authorizeRemoveTask s existingTask viewer) fun _ hAllowed => ?_
  refine outcome_map (outcome_execute fun row s' hRow => ?_)
  obtain ⟨hRowMem, hRowId, hStore⟩ := Model.delete_ok hRow
  have hFound : row.id = id := beq_iff_eq.mp hRowId
  refine ⟨existingTask, hMem, hExisting, hAllowed, ?_⟩
  rw [hStore]
  change eraseTasks (fun x => x.id == row.id) s = _
  rw [hFound]

/-! ## The contract of a viewer who is not an admin -/

/-- The user has a row in the project, and the access map that `getAccessMapForProjectUser`
computes from it satisfies `granted`. -/
def MemberWith (s : Store) (projectId userId : Id) (granted : AccessMap → Prop) : Prop :=
  ∃ projectUser ∈ s.projectUser.rows,
    projectUser.projectId = projectId ∧ projectUser.userId = userId ∧
      ∃ accessMap, (getAccessMapForProjectUser projectUser.membership).run s = (.ok accessMap, s) ∧
        granted accessMap

/-- One task is added, in the project. -/
def TaskAdded (s : Store) (projectId : Id) (s' : Store) : Prop :=
  s' = { s with task := s'.task } ∧
    ∃ task, task.projectId = projectId ∧ s'.task.rows = s.task.rows ++ [task]

/-- One task is changed, and keeps its project, department, type and document. -/
def TaskChanged (s : Store) (id : Id) (s' : Store) : Prop :=
  s' = { s with task := s'.task } ∧
    ∃ change : Task → Task,
      (∀ t, (change t).id = t.id ∧ (change t).projectId = t.projectId ∧
        (change t).departmentId = t.departmentId ∧ (change t).type = t.type ∧
        (change t).formSchema = t.formSchema) ∧
      s'.task.rows = s.task.rows.map fun t => if t.id == id then change t else t

/-- One task is deleted with its subtasks. -/
def TaskDeleted (s : Store) (id : Id) (s' : Store) : Prop :=
  s' = { s with task := s'.task, subTask := s'.subTask } ∧
    s'.task.rows = s.task.rows.filter (fun t => t.id != id) ∧
    s'.subTask.rows = s.subTask.rows.filter (fun t => t.taskId != id)

def CreateTaskContract (s : Store) (projectId : Id) (data : CreateTaskInput) (userId : Id)
    (s' : Store) : Prop :=
  MemberWith s projectId userId (fun accessMap =>
    mayPerform accessMap data.taskLike .create = some true) ∧
  TaskAdded s projectId s'

def UpdateTaskContract (s : Store) (id : Id) (data : UpdateTaskInput) (userId : Id) (s' : Store) :
    Prop :=
  ∃ task ∈ s.task.rows, task.id = id ∧
    MemberWith s task.projectId userId (fun accessMap =>
      mayPerform accessMap task.taskLike .edit = some true ∨
      task.assignedTo = some userId ∧
        data.title = .undefined ∧ data.description = .undefined ∧ data.assignedTo = .undefined) ∧
    TaskChanged s id s'

def RemoveTaskContract (s : Store) (id userId : Id) (s' : Store) : Prop :=
  ∃ task ∈ s.task.rows, task.id = id ∧
    MemberWith s task.projectId userId (fun accessMap =>
      mayPerform accessMap task.taskLike .delete = some true) ∧
    TaskDeleted s id s'

theorem memberWith_of_memberOf {s : Store} {projectId userId : Id} {projectUser : ProjectUser}
    {granted : AccessMap → Prop} (h : memberOf s projectId userId = some projectUser)
    (hGranted : granted (projectUser.membership.accessMap s)) :
    MemberWith s projectId userId granted := by
  obtain ⟨hMem, hProject, hUser⟩ := memberOf_some h
  exact ⟨projectUser, hMem, hProject, hUser, _, getAccessMapForProjectUser_run _ s, hGranted⟩

omit [Runtime] in
theorem assignedTo_of_isAssignedTo {task : Task} {userId : Id} (hUser : 0 < userId)
    (h : task.isAssignedTo userId = true) : task.assignedTo = some userId := by
  have hId : task.assignedTo.getD 0 = userId := beq_iff_eq.mp h
  cases hAssigned : task.assignedTo with
  | none =>
      rw [hAssigned, Option.getD_none] at hId
      exact absurd hId (Int.ne_of_lt hUser)
  | some k => rw [← hId, hAssigned, Option.getD_some]

omit [Runtime] in
theorem supplied_false {α : Type} {arg : Arg α} (h : arg.supplied = false) : arg = .undefined := by
  cases arg with
  | undefined => rfl
  | null => cases h
  | value a => cases h

omit [Runtime] in
theorem undefined_of_not_changes {data : UpdateTaskInput}
    (h : data.changesDefinitionOrDelegation = false) :
    data.title = .undefined ∧ data.description = .undefined ∧ data.assignedTo = .undefined := by
  simp only [UpdateTaskInput.changesDefinitionOrDelegation, Bool.or_eq_false_iff] at h
  exact ⟨supplied_false h.1.1, supplied_false h.1.2, supplied_false h.2⟩

omit [Runtime] in
theorem taskDeleted_eraseTasks {s : Store} {id : Id} {task : Task} (hTask : task ∈ s.task.rows)
    (hId : task.id = id) : TaskDeleted s id (eraseTasks (fun r => r.id == id) s) := by
  refine ⟨rfl, rfl, List.filter_congr fun r _ => ?_⟩
  have hGone : (keysOf s.task fun t => t.id == id).contains r.taskId = (r.taskId == id) := by
    rw [Bool.eq_iff_iff, keysOf_contains, beq_iff_eq]
    constructor
    · rintro ⟨t, -, hSel, hKey⟩
      rw [← hKey]
      exact beq_iff_eq.mp hSel
    · intro hEq
      exact ⟨task, hTask, beq_iff_eq.mpr hId, hId.trans hEq.symm⟩
  change (!(keysOf s.task fun t => t.id == id).contains r.taskId) = !(r.taskId == id)
  rw [hGone]

/-- **Writing a task takes the right to do so.** A viewer who is not an admin creates,
updates or removes a task only as a member of its project whose access map grants the action
on the task's resource, or updates it as its assignee without redefining or delegating it.
Nothing but that task changes, and a call that fails changes nothing. -/
theorem task_mutations_authorized (s : Store) (hValid : s.Valid) (viewer : Viewer)
    (hRole : viewer.role ≠ some "admin") :
    (∀ projectId data, (createTask projectId data (some viewer)).wp
      (Outcome s fun _ s' => CreateTaskContract s projectId data viewer.userId s') s) ∧
    (∀ id data, (updateTask id data (some viewer)).wp
      (Outcome s fun _ s' => UpdateTaskContract s id data viewer.userId s') s) ∧
    (∀ id, (removeTask id (some viewer)).wp
      (Outcome s fun _ s' => RemoveTaskContract s id viewer.userId s') s) := by
  have hViewer := nonAdmin_some hRole
  refine ⟨?_, ?_, ?_⟩
  · intro projectId data
    refine outcome_mono (createTask_outcome s projectId data (some viewer)) ?_
    rintro out s' ⟨defaults, hAllowed, -, -, -, rfl⟩
    simp only [CreateAllowed, hViewer] at hAllowed
    obtain ⟨projectUser, hMember, hGrants, -⟩ := hAllowed
    exact ⟨memberWith_of_memberOf hMember hGrants, rfl, _, rfl, rfl⟩
  · intro id data
    refine outcome_mono (updateTask_outcome s id data (some viewer)) ?_
    rintro out s' ⟨task, hTask, hId, hAllowed, -, -, rfl⟩
    obtain ⟨projectUser, hMember, -, -, hEdit⟩ := hAllowed viewer hViewer
    refine ⟨task, hTask, hId, memberWith_of_memberOf hMember ?_, rfl,
      data.apply (parseJsonLike data.submissionData.json), ?_, ?_⟩
    · rcases hEdit with hGrants | ⟨hAssigned, hNoChange⟩
      · exact Or.inl hGrants
      · obtain ⟨hMem, -, hUser⟩ := memberOf_some hMember
        have hPos := member_userId_pos hValid hMem
        rw [hUser] at hPos
        exact Or.inr
          ⟨assignedTo_of_isAssignedTo hPos hAssigned, undefined_of_not_changes hNoChange⟩
    · intro t
      exact ⟨rfl, rfl, rfl, rfl, rfl⟩
    · rfl
  · intro id
    refine outcome_mono (removeTask_outcome s id (some viewer)) ?_
    rintro out s' ⟨task, hTask, hId, hAllowed, rfl⟩
    obtain ⟨projectUser, hMember, hGrants⟩ := hAllowed viewer hViewer
    exact ⟨task, hTask, hId, memberWith_of_memberOf hMember hGrants,
      taskDeleted_eraseTasks hTask hId⟩

end Contract

section Site

attribute [local instance] asciiRuntime

/-- The foreman of the small site creates a task. -/
theorem task_mutations_authorized_site :
    (createTask 1 { title := "Pour" } (some ⟨1, some "user"⟩)).wp
      (Outcome site fun _ s' => CreateTaskContract site 1 { title := "Pour" } 1 s') site :=
  (task_mutations_authorized site site_valid ⟨1, some "user"⟩ (by decide)).1 1 { title := "Pour" }

end Site

end Rooeel
