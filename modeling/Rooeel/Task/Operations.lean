import Rooeel.Access.AccessMap
import Rooeel.Task.Resource

/-!
# Tasks and subtasks

The mutations on tasks and subtasks. The three task mutations check the rights of a viewer
who is not an admin themselves; the subtask mutations rely on the guard in front of them.

A column that is not nullable rejects `null`: the database client refuses such a statement before
it runs it. A JSON column takes the document `null`, and gives every document back as
`Json.stored` says. The resource of a task may be named by an object that has no text; a
`TypeError` is thrown then, before anything is decided or written.
-/

namespace Rooeel

open JavaScript

variable [Runtime]

/-! ## Inputs and results -/

structure CreateTaskInput where
  title : String
  description : Arg String := .undefined
  departmentId : Arg Id := .undefined
  assignedTo : Arg Id := .undefined
  type : Arg String := .undefined
  formSchema : Arg String := .undefined

structure UpdateTaskInput where
  title : Arg String := .undefined
  description : Arg String := .undefined
  status : Arg String := .undefined
  assignedTo : Arg Id := .undefined
  submissionData : Arg String := .undefined

structure CreateSubTaskInput where
  title : String
  description : Arg String := .undefined
  assignedTo : Arg Id := .undefined
  type : Arg String := .undefined
  formSchema : Arg String := .undefined

/-- The columns of the assignee that a statement includes; the email for tasks only. -/
structure Assignee where
  id : Id
  firstName : String
  lastName : String
  email : Option String
  deriving DecidableEq

def User.assignee (user : User) : Assignee where
  id := user.id
  firstName := user.firstName
  lastName := user.lastName
  email := some user.email

/-- The assignee of a task. -/
def assigneeOf (s : Store) (assignedTo : Option Id) : Option Assignee :=
  assignedTo.bind fun id => (s.user.find id).map User.assignee

/-- A subtask with its documents as strings. -/
structure SerializedSubTask where
  subtask : SubTask
  assignee : Option Assignee
  formSchema : Option String
  submissionData : Option String

/-- A task with its documents as strings. -/
structure SerializedTask where
  task : Task
  assignee : Option Assignee
  formSchema : Option String
  submissionData : Option String
  subtasks : List SerializedSubTask

/-- A task with the rows that a statement includes in its result. -/
structure TaskWithSubtasks where
  task : Task
  assignee : Option Assignee := none
  subtasks : List (SubTask × Option Assignee) := []

def serializeTaskForGraphql (row : TaskWithSubtasks) : SerializedTask where
  task := row.task
  assignee := row.assignee
  formSchema := serializeJsonForGraphql row.task.formSchema
  submissionData := serializeJsonForGraphql row.task.submissionData
  subtasks := row.subtasks.map fun included =>
    { subtask := included.1
      assignee := included.2
      formSchema := serializeJsonForGraphql included.1.formSchema
      submissionData := serializeJsonForGraphql included.1.submissionData }

/-- A task as a mutation returns it: with its assignee, and with its subtasks without theirs. -/
def Task.written (task : Task) (s : Store) : TaskWithSubtasks where
  task := task
  assignee := assigneeOf s task.assignedTo
  subtasks := (s.subTask.rows.filter fun r => r.taskId == task.id).map fun r => (r, none)

/-- A statement on a task that includes the assignee and the subtasks in its result. -/
def includeSubtasks (statement : Store → Except DbError (Task × Store)) :
    Service TaskWithSubtasks :=
  execute fun s =>
    match statement s with
    | .error e => .error e
    | .ok (task, s') => .ok (task.written s', s')

omit [Runtime] in
/-- The answer of such a statement carries the row. -/
theorem includeSubtasks_ok {statement : Store → Except DbError (Task × Store)} {s s' : Store}
    {row : TaskWithSubtasks}
    (h : (match statement s with
      | .error e => .error e
      | .ok (task, s') => .ok (task.written s', s')
      : Except DbError (TaskWithSubtasks × Store)) = .ok (row, s')) :
    statement s = .ok (row.task, s') := by
  cases hStatement : statement s with
  | error e => rw [hStatement] at h; cases h
  | ok out =>
      rw [hStatement] at h
      cases h
      rfl

/-! ## Tasks -/

/-- Whether the rights let their owner act on a task; `none` is the exception. -/
def mayPerform (accessMap : AccessMap) (taskLike : TaskLike) (action : Action) : Option Bool :=
  (resolveTaskResource taskLike).map fun resource =>
    canPerformTaskResourceAction accessMap resource action

/-- The type and the document of a task that is about to be created. -/
def CreateTaskInput.taskLike (data : CreateTaskInput) : TaskLike where
  type := data.type.toOption
  formSchema := data.formSchema.json

/-- The row that `createTask` writes. -/
def CreateTaskInput.row (data : CreateTaskInput) (projectId : Id)
    (defaultDepartmentId defaultAssignedTo : Option Id) (formSchema : Option Json) (id : Id) :
    Task where
  id := id
  projectId := projectId
  departmentId := data.departmentId.toOption.or defaultDepartmentId
  title := data.title
  description := data.description.toOption
  status := "pending"
  type := data.type.toOption.getD "basic"
  formSchema := formSchema.map Json.stored
  submissionData := none
  assignedTo := data.assignedTo.toOption.or defaultAssignedTo

/-- The check in `createTask`, with the defaults for the department and the assignee. -/
def authorizeCreateTask (projectId : Id) (data : CreateTaskInput) (viewer : Option Viewer) :
    Service (Option Id × Option Id) :=
  match nonAdmin viewer with
  | none => pure (none, none)
  | some v => do
    match ← getProjectUserContext projectId v.userId with
    | none => throw (.forbidden "You are not assigned to this project")
    | some context =>
      let resource ← orTypeError (resolveTaskResource data.taskLike)
      Prog.throwIf (canPerformTaskResourceAction context.accessMap resource .create = false)
        (.forbidden s!"You do not have create access for resource {resource}")
      pure (context.projectUser.departmentId, some v.userId)

def createTask (projectId : Id) (data : CreateTaskInput) (viewer : Option Viewer) :
    Service SerializedTask := do
  let defaults ← authorizeCreateTask projectId data viewer
  let formSchemaForCreate := stampCreator viewer (parseJsonLike data.formSchema.json)
  Prog.throwIf (data.type.isNull = true) (.prisma .invalid)
  let row ← includeSubtasks
    (prisma.task.create (data.row projectId defaults.1 defaults.2 formSchemaForCreate))
  pure (serializeTaskForGraphql row)

/-- `data.title`, `data.description` or `data.assignedTo` is not `undefined`. -/
def UpdateTaskInput.changesDefinitionOrDelegation (data : UpdateTaskInput) : Bool :=
  data.title.supplied || data.description.supplied || data.assignedTo.supplied

/-- `(data.status || '').toLowerCase() === 'done'`. -/
def UpdateTaskInput.validates (data : UpdateTaskInput) : Bool :=
  toLowerCase (data.status.toOption.getD "") == "done"

/-- The row that `updateTask` writes over a row. -/
def UpdateTaskInput.apply (data : UpdateTaskInput) (submissionData : Option Json) (task : Task) :
    Task :=
  { task with
    title := data.title.assignD task.title
    description := data.description.assign task.description
    status := data.status.assignD task.status
    assignedTo := data.assignedTo.assign task.assignedTo
    submissionData := (submissionData.map Json.stored).or task.submissionData }

/-- `Number(existingTask.assignedTo) === Number(viewer.userId)`. -/
def Task.isAssignedTo (task : Task) (userId : Id) : Bool := task.assignedTo.getD 0 == userId

/-- The checks in `updateTask`. -/
def authorizeUpdateTask (existingTask : Task) (data : UpdateTaskInput) (viewer : Option Viewer) :
    Service Unit :=
  match nonAdmin viewer with
  | none => pure ()
  | some v => do
    match ← getProjectUserContext existingTask.projectId v.userId with
    | none => throw (.forbidden "You are not assigned to this project")
    | some context =>
      let resource ← orTypeError (resolveTaskResource existingTask.taskLike)
      let canEditResource := canPerformTaskResourceAction context.accessMap resource .edit
      let isAssignedWorker := existingTask.isAssignedTo v.userId
      let creatorId ← orTypeError (resolveTaskCreatorId existingTask.taskLike)
      Prog.throwIf (data.assignedTo.supplied = true ∧ creatorId ≠ .ofInt v.userId)
        (.forbidden "Only the task creator can delegate this task")
      Prog.throwIf (data.validates = true ∧ creatorId ≠ .ofInt v.userId)
        (.forbidden "Only the task creator can validate task completion")
      Prog.throwIf
        (!canEditResource && !(isAssignedWorker && !data.changesDefinitionOrDelegation))
        (.forbidden s!"You do not have edit access for resource {resource}")

def updateTask (id : Id) (data : UpdateTaskInput) (viewer : Option Viewer) :
    Service SerializedTask := do
  let existingTask ← findUniqueOrThrow prisma.task id
  authorizeUpdateTask existingTask data viewer
  let parsedSubmissionData := parseJsonLike data.submissionData.json
  Prog.throwIf (data.title.isNull || data.status.isNull) (.prisma .invalid)
  let row ← includeSubtasks
    (prisma.task.update (fun r => r.id == id) (data.apply parsedSubmissionData))
  pure (serializeTaskForGraphql row)

/-- The check in `removeTask`. -/
def authorizeRemoveTask (existingTask : Task) (viewer : Option Viewer) : Service Unit :=
  match nonAdmin viewer with
  | none => pure ()
  | some v => do
    match ← getProjectUserContext existingTask.projectId v.userId with
    | none => throw (.forbidden "You are not assigned to this project")
    | some context =>
      let resource ← orTypeError (resolveTaskResource existingTask.taskLike)
      Prog.throwIf (canPerformTaskResourceAction context.accessMap resource .delete = false)
        (.forbidden s!"You do not have delete access for resource {resource}")

def removeTask (id : Id) (viewer : Option Viewer) : Service Bool := do
  let existingTask ← findUniqueOrThrow prisma.task id
  authorizeRemoveTask existingTask viewer
  let _task ← delete prisma.task fun r => r.id == id
  pure true

/-! ## Subtasks -/

/-- The row that `createSubTask` writes; the document stays a string, or `null`. -/
def CreateSubTaskInput.row (data : CreateSubTaskInput) (taskId id : Id) : SubTask where
  id := id
  taskId := taskId
  title := data.title
  description := data.description.toOption
  status := "pending"
  type := data.type.toOption.getD "basic"
  formSchema := data.formSchema.json
  submissionData := none
  assignedTo := data.assignedTo.toOption

def createSubTask (taskId : Id) (data : CreateSubTaskInput) : Service SubTask := do
  Prog.throwIf (data.type.isNull = true) (.prisma .invalid)
  create prisma.subTask (data.row taskId)

/-- The row that `updateSubTask` writes over a row. -/
def UpdateTaskInput.applySubTask (data : UpdateTaskInput) (subtask : SubTask) : SubTask :=
  { subtask with
    title := data.title.assignD subtask.title
    description := data.description.assign subtask.description
    status := data.status.assignD subtask.status
    assignedTo := data.assignedTo.assign subtask.assignedTo
    submissionData := data.submissionData.json.or subtask.submissionData }

def updateSubTask (id : Id) (data : UpdateTaskInput) : Service SubTask := do
  let _subtask ← findUniqueOrThrow prisma.subTask id
  Prog.throwIf (data.title.isNull || data.status.isNull) (.prisma .invalid)
  update prisma.subTask (fun r => r.id == id) data.applySubTask

def removeSubTask (id : Id) : Service Bool := do
  let _subtask ← findUniqueOrThrow prisma.subTask id
  let _deleted ← delete prisma.subTask fun r => r.id == id
  pure true

end Rooeel
