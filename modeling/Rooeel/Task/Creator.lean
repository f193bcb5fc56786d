import Rooeel.Project.Runs
import Rooeel.Task.Authorization

/-!
# Creators of tasks

`createTask` stores the resource and the creator of a task in a document that no later
operation writes, so both stay what they were (`task_resource_for_life`). The right to create the
task is checked on the document that was sent, though, and a number that overflows is not stored:
a task that names its resource by one is governed by another (`task_resource_overflows`).

The stamp is a bare number. In a run of calls by accounts, whoever passes the creator check
of `updateTask` has the number of the account that created the task (`Run.history`); but
administrators and users are numbered independently, so it need not be the same account.
-/

namespace Rooeel

open JavaScript

section Life

variable [Runtime]

/-! ## The document of a task -/

/-- A task without a type gets the type `basic`, which names no resource either. -/
theorem typeResource_basic : typeResource (some "basic") = typeResource none := rfl

theorem resolveTaskResource_congr {type type' : Option String} (formSchema : Option Json)
    (h : typeResource type = typeResource type') :
    resolveTaskResource ⟨type, formSchema⟩ = resolveTaskResource ⟨type', formSchema⟩ := by
  simp only [resolveTaskResource, h]

/-- The stored task resolves to the resource that was checked at its creation. -/
theorem resolveTaskResource_created (projectId : Id) {data : CreateTaskInput} {viewer : Viewer}
    (hUser : viewer.userId ≠ 0) (hNamed : NamedByText data.formSchema.json)
    (defaults : Option Id × Option Id) (id : Id) :
    resolveTaskResource (createdTask projectId data (some viewer) defaults id).taskLike =
      resolveTaskResource data.taskLike := by
  change resolveTaskResource ⟨some (data.type.toOption.getD "basic"),
    (stampCreator (some viewer) (parseJsonLike data.formSchema.json)).map Json.stored⟩ = _
  rw [resolveTaskResource_stamp viewer hUser _ hNamed]
  refine resolveTaskResource_congr data.formSchema.json ?_
  cases data.type.toOption with
  | none => exact typeResource_basic
  | some type => rfl

theorem resolveTaskCreatorId_created (projectId : Id) (data : CreateTaskInput) {viewer : Viewer}
    (hUser : viewer.userId ≠ 0) (defaults : Option Id × Option Id) (id : Id) :
    resolveTaskCreatorId (createdTask projectId data (some viewer) defaults id).taskLike =
      some (.ofInt viewer.userId) :=
  resolveTaskCreatorId_stamp viewer hUser _ _

omit [Runtime] in
theorem taskLike_of_fixed {task task' : Task} (h : task'.fixed = task.fixed) :
    task'.taskLike = task.taskLike := by
  obtain ⟨hType, hSchema⟩ := Prod.mk.inj (Prod.mk.inj h).2
  rw [Task.taskLike, Task.taskLike, hType, hSchema]

omit [Runtime] in
theorem Stable.taskLike_eq {s s' : Store} (h : Stable s s') {task task' : Task}
    (hTask : task ∈ s.task.rows) (hTask' : task' ∈ s'.task.rows) (hId : task'.id = task.id) :
    task'.taskLike = task.taskLike :=
  taskLike_of_fixed (h.task.link_eq hTask hTask' hId)

/-- The task is governed by the resource that `data` names, and stamped with the viewer. -/
def Task.Keeps (task : Task) (data : CreateTaskInput) (viewer : Viewer) : Prop :=
  resolveTaskResource task.taskLike = resolveTaskResource data.taskLike ∧
    resolveTaskCreatorId task.taskLike = some (.ofInt viewer.userId)

/-- **A task keeps its resource and its creator.** Whatever its type and its document were,
and whatever operations follow, unless a number that overflows names the resource. -/
theorem task_resource_for_life {s₀ s₁ s : Store} {projectId : Id} {data : CreateTaskInput}
    {viewer : Viewer} {out : SerializedTask} {events : List Event} (hUser : viewer.userId ≠ 0)
    (hNamed : NamedByText data.formSchema.json)
    (hCreate : (createTask projectId data (some viewer)).run s₀ = (.ok out, s₁))
    (hRun : Run s₁ events s) :
    ∀ task ∈ s.task.rows, task.id = out.task.id → task.Keeps data viewer := by
  intro task hTask hId
  have hOutcome := (Prog.wp_of_run hCreate).mp (createTask_outcome s₀ projectId data (some viewer))
  obtain ⟨defaults, -, -, hOut, -, rfl⟩ := hOutcome
  have hCreated : createdTask projectId data (some viewer) defaults s₀.task.next ∈
      (s₀.task.insert (createdTask projectId data (some viewer) defaults) fun _ => rfl).rows :=
    List.mem_append_right _ (List.mem_singleton_self _)
  rw [Task.Keeps, hRun.stable.taskLike_eq hCreated hTask (by rw [hId, hOut])]
  exact ⟨resolveTaskResource_created projectId hUser hNamed defaults _,
    resolveTaskCreatorId_created projectId data hUser defaults _⟩

/-- A member with the right to create tasks about the resource passes the check. -/
theorem authorizeCreateTask_member {s : Store} {projectId : Id} {data : CreateTaskInput}
    {v : Viewer} {projectUser : ProjectUser} {resource : String}
    (hViewer : nonAdmin (some v) = some v)
    (hMember : memberOf s projectId v.userId = some projectUser)
    (hResource : resolveTaskResource data.taskLike = some resource)
    (hGrant : canPerformTaskResourceAction (projectUser.membership.accessMap s) resource .create =
      true) :
    (authorizeCreateTask projectId data (some v)).run s =
      (.ok (projectUser.departmentId, some v.userId), s) := by
  unfold authorizeCreateTask
  rw [hViewer]
  dsimp only
  rw [Prog.run_bind_ok (getProjectUserContext_run _ _ s), hMember]
  dsimp only [Option.map_some]
  rw [Prog.run_bind_ok (orTypeError_some_run hResource s), Prog.throwIf_bind,
    if_neg (by simp [hGrant])]
  rfl

end Life

section LifeSite

attribute [local instance] asciiRuntime

/-- The call of an administrator on the small site. -/
def siteCreate : Service SerializedTask :=
  createTask 1 { title := "Pour", type := .value "resource:QUALITY" } (some ⟨1, some "admin"⟩)

/-- The call that renames the task afterwards. -/
def siteRename : ServiceOp :=
  .updateTask 1 { title := .value "Pour slab" } (some ⟨1, some "admin"⟩)

/-- The store after both calls. -/
def siteRenamed : Store := (siteRename.prog.run (siteCreate.run site).2).2

/-- The renamed task is still governed by the same resource. -/
theorem task_resource_for_life_site :
    ∃ task ∈ siteRenamed.task.rows, task.title = "Pour slab" ∧
      resolveTaskResource task.taskLike =
        resolveTaskResource ⟨some "resource:QUALITY", none⟩ ∧
      resolveTaskCreatorId task.taskLike = some (.ofInt 1) := by
  have hUser : (⟨1, some "admin"⟩ : Viewer).userId ≠ 0 := by decide
  have hNamed : NamedByText (Arg.json .undefined) := nofun
  have hRun : Run (siteCreate.run site).2 _ siteRenamed := .call siteRename .nil rfl
  have hLife := task_resource_for_life hUser hNamed (show siteCreate.run site = _ from rfl) hRun
  have hMem : siteRenamed.task.rows.head (by decide) ∈ siteRenamed.task.rows := List.head_mem _
  exact ⟨_, hMem, rfl, hLife _ hMem rfl⟩

/-- A form that names its resource twice, first by a number that overflows. -/
def overflowForm : String := "\x7b\"resource\":1e400,\"resourceKey\":\"DRAWING_UPLOAD_PDF\"\x7d"

/-- The library on this form. -/
abbrev overflowRuntime : Runtime :=
  { asciiRuntime with
    parseJson := fun text =>
      if text = overflowForm then
        some (.obj [("resource", .num (.infinite false)),
          ("resourceKey", .str "DRAWING_UPLOAD_PDF")])
      else Ascii.parseJson text
    stringifyJson := fun v =>
      if Ascii.stringifyJson v = overflowForm then "null" else Ascii.stringifyJson v
    stringifyJson_finite := by
      intro v w hParse
      split_ifs at hParse with hForm hNull
      · exact absurd hNull (by decide)
      · exact Ascii.isFinite_parseJson hParse
      · exact Ascii.isFinite_parseJson hParse }

end LifeSite

section Overflow

attribute [local instance] overflowRuntime

/-- The call with the form. -/
def sheetsCreate : CreateTaskInput := { title := "Sheets", formSchema := .value overflowForm }

/-- The right to create the task is checked on a resource `INFINITY`, and from then on the task is
one about the upload of drawings. -/
theorem task_resource_overflows :
    ∃ out s₁, (createTask 1 sheetsCreate (some ⟨1, some "user"⟩)).run site = (.ok out, s₁) ∧
      ∃ task ∈ s₁.task.rows, task.id = out.task.id ∧
        resolveTaskResource sheetsCreate.taskLike = some "INFINITY" ∧
        resolveTaskResource task.taskLike = some "DRAWING_UPLOAD_PDF" := by
  have hMember : memberOf site 1 1 = some _ := rfl
  have hResource : resolveTaskResource sheetsCreate.taskLike = some "INFINITY" := by
    decide +kernel
  have hNoPolicy : (Membership.accessMap ⟨some 1, none, none⟩ site).get "INFINITY" = none := by
    rw [Membership.accessMap, get_accessMapFrom _ _ (by decide)]
    decide +kernel
  have hGrant : canPerformTaskResourceAction (Membership.accessMap ⟨some 1, none, none⟩ site)
      "INFINITY" .create = true := by
    -- no policy is about the resource, so the rights on tasks count
    rw [canPerform_canonical _ (by decide) (by decide) (by decide), hNoPolicy]
    simp only [canAccess, (by decide : normalizeResource "TASK" = "TASK")]
    rw [Membership.accessMap, get_accessMapFrom _ _ (by decide)]
    decide +kernel
  have hChecks : (authorizeCreateTask 1 sheetsCreate (some ⟨1, some "user"⟩)).run site = _ :=
    authorizeCreateTask_member rfl hMember hResource hGrant
  unfold createTask
  rw [Prog.run_bind_ok hChecks]
  refine ⟨_, _, rfl, _, List.mem_cons_self, rfl, hResource, ?_⟩
  decide +kernel

end Overflow

/-! ## Accounts -/

inductive AccountKind where
  | admin
  | user
  deriving DecidableEq

/-- An account. Both tables number their rows from 1, so ids of admins and users overlap. -/
structure Account where
  kind : AccountKind
  id : Id
  pos : 0 < id

/-- The role that the token of an account carries. -/
def AccountKind.role : AccountKind → String
  | .admin => "admin"
  | .user => "user"

theorem AccountKind.role_inj {kind kind' : AccountKind} (h : kind.role = kind'.role) :
    kind = kind' := by
  cases kind <;> cases kind' <;> first | rfl | exact absurd h (by decide)

def Account.viewer (account : Account) : Viewer := ⟨account.id, some account.kind.role⟩

/-- The administrator with the same number. -/
def Account.namesake (account : Account) : Account := ⟨.admin, account.id, account.pos⟩

theorem Account.viewer_inj {a b : Account} (h : a.viewer = b.viewer) : a = b := by
  obtain ⟨hId, hRole⟩ := Viewer.mk.inj h
  obtain ⟨kind, id, pos⟩ := a
  obtain ⟨kind', id', pos'⟩ := b
  obtain rfl : id = id' := hId
  obtain rfl : kind = kind' := AccountKind.role_inj (Option.some.inj hRole)
  rfl

theorem Account.viewer_userId_ne (account : Account) : account.viewer.userId ≠ 0 :=
  Int.ne_of_gt account.pos

/-- Two accounts with one number: the same one, or a user and its namesake. -/
theorem Account.eq_or_namesake {account user : Account} (hUser : user.kind = .user)
    (hId : account.id = user.id) : account = user ∨ account = user.namesake := by
  obtain ⟨kind, id, pos⟩ := account
  obtain ⟨kind', id', pos'⟩ := user
  obtain rfl : kind' = .user := hUser
  obtain rfl : id = id' := hId
  cases kind with
  | user => exact Or.inl rfl
  | admin => exact Or.inr rfl

/-! ## Histories -/

section Histories

variable [Runtime] {events : List Event} {s s' : Store}

/-- The call has created the task, for the account. -/
def Event.Creates (e : Event) (account : Account) (id : Id) : Prop :=
  ∃ projectId data out, e.op = .createTask projectId data (some account.viewer) ∧
    e.result = .ok (.task out) ∧ out.task.id = id

/-- The call of a user has delegated the task, or has validated its completion. -/
def Event.Delegates (e : Event) (user : Account) (id : Id) : Prop :=
  ∃ data answer, e.op = .updateTask id data (some user.viewer) ∧ user.kind = .user ∧
    (data.assignedTo.supplied = true ∨ data.validates = true) ∧ e.result = .ok answer

/-- Mutations of tasks are called by accounts. -/
def Event.ByAccount (e : Event) : Prop :=
  match e.op with
  | .createTask _ _ viewer | .updateTask _ _ viewer | .removeTask _ viewer =>
      ∃ account : Account, viewer = some account.viewer
  | _ => True

def Created (events : List Event) (account : Account) (id : Id) : Prop :=
  ∃ e ∈ events, e.Creates account id

/-- The user has created the task, and nobody else has. -/
def CreatedOnlyBy (events : List Event) (user : Account) (id : Id) : Prop :=
  Created events user id ∧ ∀ account, Created events account id → account = user

/-- Every delegation or validation in the run satisfies `P` with the events before it. -/
def EachDelegation (events : List Event) (P : List Event → Account → Id → Prop) : Prop :=
  ∀ before e after, events = before ++ e :: after → ∀ user id, e.Delegates user id →
    P before user id

omit [Runtime] in
theorem created_append {e : Event} {account : Account} {id : Id} :
    Created (events ++ [e]) account id ↔ Created events account id ∨ e.Creates account id := by
  constructor
  · rintro ⟨e', hMem, hCreates⟩
    rcases List.mem_append.mp hMem with hOld | hNew
    · exact Or.inl ⟨e', hOld, hCreates⟩
    · rw [List.mem_singleton.mp hNew] at hCreates
      exact Or.inr hCreates
  · rintro (⟨e', hMem, hCreates⟩ | hCreates)
    · exact ⟨e', List.mem_append_left _ hMem, hCreates⟩
    · exact ⟨e, List.mem_append_right _ (List.mem_singleton_self e), hCreates⟩

/-- What the stored tasks and the past calls know of each other. Every task was created once,
and its stamp is the number of its creator. -/
structure History (events : List Event) (s : Store) : Prop where
  fresh : ∀ account id, Created events account id → id < s.task.next
  unique : ∀ account account' id, Created events account id → Created events account' id →
    account = account'
  stamp : ∀ task ∈ s.task.rows, ∃ account, Created events account task.id ∧
    resolveTaskCreatorId task.taskLike = some (.ofInt account.id)

theorem History.empty (h : s.task.rows = []) : History [] s where
  fresh := by
    rintro account id ⟨e, hMem, -⟩
    cases hMem
  unique := by
    rintro account account' id ⟨e, hMem, -⟩
    cases hMem
  stamp := by
    intro task hTask
    rw [h] at hTask
    cases hTask

/-- A step that gives out no task id. -/
theorem History.stable (h : History events s) (hStable : Stable s s')
    (hNext : s'.task.next = s.task.next) : History events s' where
  fresh := by
    rw [hNext]
    exact h.fresh
  unique := h.unique
  stamp := by
    intro task hTask
    have hKey : Row.key task < s.task.next := hNext ▸ s'.task.key_lt hTask
    obtain ⟨old, hOld, hId, hFixed⟩ := hStable.task.2 task hTask hKey
    obtain ⟨account, hCreated, hStamp⟩ := h.stamp old hOld
    have hSame : old.id = task.id := hId
    rw [← hSame, taskLike_of_fixed hFixed.symm]
    exact ⟨account, hCreated, hStamp⟩

/-- A call that creates nothing. -/
theorem History.append (h : History events s) {e : Event}
    (hNothing : ∀ account id, ¬ e.Creates account id) : History (events ++ [e]) s := by
  have hSame : ∀ account id, Created (events ++ [e]) account id → Created events account id :=
    fun account id hCreated => (created_append.mp hCreated).resolve_right (hNothing account id)
  refine ⟨fun account id hCreated => h.fresh account id (hSame account id hCreated), ?_, ?_⟩
  · intro account account' id hCreated hCreated'
    exact h.unique account account' id (hSame _ _ hCreated) (hSame _ _ hCreated')
  · intro task hTask
    obtain ⟨account, hCreated, hStamp⟩ := h.stamp task hTask
    exact ⟨account, created_append.mpr (Or.inl hCreated), hStamp⟩

/-- A call that creates the next task, for one account. -/
theorem History.create (h : History events s) {e : Event} {account : Account} (mk : Id → Task)
    (hmk : ∀ k, Row.key (mk k) = k)
    (hCreates : ∀ account' id, e.Creates account' id ↔ account' = account ∧ id = s.task.next)
    (hStamp : resolveTaskCreatorId (mk s.task.next).taskLike = some (.ofInt account.id)) :
    History (events ++ [e]) { s with task := s.task.insert mk hmk } := by
  have hOld : ∀ account' id, Created (events ++ [e]) account' id → id ≠ s.task.next →
      Created events account' id := by
    intro account' id hCreated hNe
    refine (created_append.mp hCreated).resolve_right fun hNew => ?_
    exact hNe ((hCreates account' id).mp hNew).2
  have hNew : ∀ account', Created (events ++ [e]) account' s.task.next → account' = account := by
    intro account' hCreated
    rcases created_append.mp hCreated with hBefore | hLast
    · exact absurd (h.fresh account' _ hBefore) (Int.lt_irrefl _)
    · exact ((hCreates account' _).mp hLast).1
  refine ⟨?_, ?_, Table.forall_insert mk hmk ?_ ?_⟩
  · intro account' id hCreated
    rw [Table.next_insert]
    by_cases hId : id = s.task.next
    · rw [hId]
      exact Int.lt_succ _
    · exact Int.lt_trans (h.fresh account' id (hOld _ _ hCreated hId)) (Int.lt_succ _)
  · intro account₁ account₂ id hCreated₁ hCreated₂
    by_cases hId : id = s.task.next
    · subst hId
      rw [hNew account₁ hCreated₁, hNew account₂ hCreated₂]
    · exact h.unique _ _ id (hOld _ _ hCreated₁ hId) (hOld _ _ hCreated₂ hId)
  · intro task hTask
    obtain ⟨account', hCreated, hOldStamp⟩ := h.stamp task hTask
    exact ⟨account', created_append.mpr (Or.inl hCreated), hOldStamp⟩
  · refine ⟨account, created_append.mpr (Or.inr ((hCreates _ _).mpr ⟨rfl, ?_⟩)), hStamp⟩
    exact hmk s.task.next

/-! ## Calls -/

theorem History.call_createTask (h : History events s) (projectId : Id) (data : CreateTaskInput)
    (account : Account) {result : Except Exn Answer}
    (hRun : (ServiceOp.createTask projectId data (some account.viewer)).prog.run s =
      (result, s')) :
    History (events ++ [⟨.createTask projectId data (some account.viewer), result⟩]) s' := by
  have hOutcome := createTask_outcome s projectId data (some account.viewer)
  rcases answering_run hRun with ⟨out, hCreate, rfl⟩ | ⟨e, hCreate, rfl⟩
  · obtain ⟨defaults, -, -, hOut, -, rfl⟩ := (Prog.wp_of_run hCreate).mp hOutcome
    have hId : out.task.id = s.task.next := by rw [hOut]; rfl
    refine h.create _ _ (fun account' id => ?_)
      (resolveTaskCreatorId_created projectId data account.viewer_userId_ne defaults _)
    constructor
    · rintro ⟨projectId', data', out', hOp, hResult, hOutId⟩
      obtain ⟨-, -, hViewer⟩ := ServiceOp.createTask.inj hOp
      obtain rfl := Answer.task.inj (Except.ok.inj hResult)
      exact ⟨(Account.viewer_inj (Option.some.inj hViewer)).symm, hOutId.symm.trans hId⟩
    · rintro ⟨rfl, rfl⟩
      exact ⟨projectId, data, out, rfl, rfl, hId⟩
  · obtain rfl : s' = s := (Prog.wp_of_run hCreate).mp hOutcome
    refine h.append fun account' id => ?_
    rintro ⟨_, _, _, -, hResult, -⟩
    cases hResult

/-- Every call of an account extends the history. -/
theorem History.call (h : History events s) (op : ServiceOp) {result : Except Exn Answer}
    (hRun : op.prog.run s = (result, s')) (hCaller : Event.ByAccount ⟨op, result⟩) :
    History (events ++ [⟨op, result⟩]) s' := by
  by_cases hTask : op.links .task
  · obtain ⟨projectId, data, viewer, rfl⟩ := ServiceOp.links_task hTask
    obtain ⟨account, rfl⟩ := hCaller
    exact h.call_createTask projectId data account hRun
  · have hActs := op.acts hRun
    refine (h.stable hActs.stable (hActs.task_next hTask)).append ?_
    rintro account id ⟨projectId, data, -, rfl, -⟩
    exact hTask rfl

theorem Run.history {s₀ : Store} (h : Run s₀ events s) (hNone : s₀.task.rows = [])
    (hCallers : ∀ e ∈ events, e.ByAccount) : History events s := by
  induction h with
  | nil => exact History.empty hNone
  | call op _ hRun ih =>
      have hBefore := ih fun e hMem => hCallers e (List.mem_append_left _ hMem)
      exact hBefore.call op hRun (hCallers _ (List.mem_append_right _ (List.mem_singleton_self _)))
  | account _ hAccount ih =>
      have hTask := (sameLinks_accountStep hAccount).task
      exact (ih hCallers).stable (stable_of_accountStep hAccount) (by rw [hTask])

/-- A call that passes the creator check comes from the creator or from the user with the
number of the administrator that created the task. -/
theorem History.delegates (h : History events s) {e : Event} {user : Account} {id : Id}
    (hRun : e.op.prog.run s = (e.result, s')) (hDelegates : e.Delegates user id) :
    Created events user id ∨ Created events user.namesake id := by
  obtain ⟨op, result⟩ := e
  obtain ⟨data, answer, rfl, hUser, hChecked, rfl⟩ := hDelegates
  have hOutcome := updateTask_outcome s id data (some user.viewer)
  rcases answering_run hRun with ⟨out, hUpdate, -⟩ | ⟨_, -, hResult⟩
  · obtain ⟨task, hTask, hId, hAllowed, -⟩ := (Prog.wp_of_run hUpdate).mp hOutcome
    have hViewer : nonAdmin (some user.viewer) = some user.viewer := by
      refine nonAdmin_some fun hAdmin => ?_
      rw [Account.viewer, hUser] at hAdmin
      exact absurd (Option.some.inj hAdmin) (by decide)
    obtain ⟨-, -, hDelegate, hValidate, -⟩ := hAllowed _ hViewer
    have hStamp : resolveTaskCreatorId task.taskLike = some (.ofInt user.id) :=
      hChecked.elim hDelegate hValidate
    obtain ⟨account, hCreated, hCreator⟩ := h.stamp task hTask
    have hNumber : account.id = user.id :=
      Number.ofInt_inj (Option.some.inj (hCreator.symm.trans hStamp))
    rw [← hId]
    rcases Account.eq_or_namesake hUser hNumber with rfl | rfl
    · exact Or.inl hCreated
    · exact Or.inr hCreated
  · cases hResult

/-- **Who delegates or validates.** In every run, a user that delegates or validates a task
is its only creator, exactly when the task was not created by the administrator with the same
number. -/
theorem delegation_by_creator {s₀ : Store} (hNone : s₀.task.rows = []) (hRun : Run s₀ events s)
    (hCallers : ∀ e ∈ events, e.ByAccount) :
    EachDelegation events fun before user id =>
      CreatedOnlyBy before user id ↔ ¬ Created before user.namesake id := by
  rintro before e after rfl user id hDelegates
  obtain ⟨s₁, s₂, hBefore, hCall⟩ := hRun.split rfl
  have hHistory := hBefore.history hNone fun e hMem => hCallers e (List.mem_append_left _ hMem)
  constructor
  · rintro ⟨-, hOnly⟩ hNamesake
    have hSame := congrArg Account.kind (hOnly _ hNamesake)
    obtain ⟨data, answer, -, hUser, -⟩ := hDelegates
    rw [hUser] at hSame
    cases hSame
  · intro hNo
    have hCreated := (hHistory.delegates hCall hDelegates).resolve_right hNo
    exact ⟨hCreated, fun account hAlso => hHistory.unique account user id hAlso hCreated⟩

/-- The assignee of a task that bears its number as the creator passes all checks. -/
theorem authorizeUpdateTask_creator {task : Task} {data : UpdateTaskInput} {v : Viewer}
    {projectUser : ProjectUser} (hViewer : nonAdmin (some v) = some v)
    (hMember : memberOf s task.projectId v.userId = some projectUser)
    (hCreator : resolveTaskCreatorId task.taskLike = some (.ofInt v.userId))
    {resource : String} (hResource : resolveTaskResource task.taskLike = some resource)
    (hAssigned : task.isAssignedTo v.userId = true)
    (hData : data.changesDefinitionOrDelegation = false) :
    (authorizeUpdateTask task data (some v)).run s = (.ok (), s) := by
  unfold authorizeUpdateTask
  rw [hViewer]
  dsimp only
  rw [Prog.run_bind_ok (getProjectUserContext_run _ _ s), hMember]
  dsimp only [Option.map_some]
  rw [Prog.run_bind_ok (orTypeError_some_run hResource s),
    Prog.run_bind_ok (orTypeError_some_run hCreator s), Prog.throwIf_bind, if_neg (by simp),
    Prog.throwIf_bind, if_neg (by simp)]
  simp [hAssigned, hData]

end Histories

section Namesakes

attribute [local instance] asciiRuntime

def adminOne : Account := ⟨.admin, 1, by decide⟩

def userOne : Account := ⟨.user, 1, by decide⟩

/-- A task for user 1. -/
def pour : CreateTaskInput := { title := "Pour", assignedTo := .value 1 }

def completion : UpdateTaskInput := { status := .value "Done" }

/-- Administrator 1 creates the task, and user 1 validates it. -/
def namesakeEvents (created validated : SerializedTask) : List Event :=
  [⟨.createTask 1 pour (some adminOne.viewer), .ok (.task created)⟩,
   ⟨.updateTask 1 completion (some userOne.viewer), .ok (.task validated)⟩]

/-- The small site with the task. -/
def namesakeStore : Store :=
  { site with
    task := site.task.insert (createdTask 1 pour (some adminOne.viewer) (none, none)) fun _ => rfl }

theorem createTask_namesake :
    ∃ created, created.task.id = 1 ∧
      (createTask 1 pour (some adminOne.viewer)).run site = (.ok created, namesakeStore) :=
  ⟨_, rfl, rfl⟩

theorem updateTask_namesake :
    ∃ validated s', (updateTask 1 completion (some userOne.viewer)).run namesakeStore =
      (.ok validated, s') := by
  let task := createdTask 1 pour (some adminOne.viewer) (none, none) 1
  have hFind : (findUniqueOrThrow prisma.task 1).run namesakeStore =
    (.ok task, namesakeStore) := rfl
  have hMember : memberOf namesakeStore 1 1 = some _ := rfl
  have hChecks : (authorizeUpdateTask task completion (some userOne.viewer)).run namesakeStore =
      (.ok (), namesakeStore) :=
    authorizeUpdateTask_creator rfl hMember rfl rfl rfl rfl
  unfold updateTask
  rw [Prog.run_bind_ok hFind, Prog.run_bind_ok hChecks]
  exact ⟨_, _, rfl⟩

theorem namesake_run :
    ∃ created validated s, created.task.id = 1 ∧ Run site (namesakeEvents created validated) s := by
  obtain ⟨created, hId, hCreate⟩ := createTask_namesake
  obtain ⟨validated, s', hUpdate⟩ := updateTask_namesake
  have hFirst : Run site [⟨.createTask 1 pour (some adminOne.viewer), .ok (.task created)⟩]
      namesakeStore :=
    .call _ .nil (Prog.run_bind_ok hCreate)
  exact ⟨created, validated, s', hId, .call _ hFirst (Prog.run_bind_ok hUpdate)⟩

theorem namesake_byAccount (created validated : SerializedTask) :
    ∀ e ∈ namesakeEvents created validated, e.ByAccount := by
  intro e hMem
  simp only [namesakeEvents, List.mem_cons, List.not_mem_nil, or_false] at hMem
  rcases hMem with rfl | rfl
  · exact ⟨adminOne, rfl⟩
  · exact ⟨userOne, rfl⟩

/-- A user may validate a task that it has not created. -/
theorem delegation_by_namesake :
    ∃ events s, site.task.rows = [] ∧ Run site events s ∧ (∀ e ∈ events, e.ByAccount) ∧
      ¬ EachDelegation events CreatedOnlyBy := by
  obtain ⟨created, validated, s, hId, hRun⟩ := namesake_run
  refine ⟨_, s, rfl, hRun, namesake_byAccount created validated, fun hEach => ?_⟩
  have hDelegates : Event.Delegates ⟨.updateTask 1 completion (some userOne.viewer),
      .ok (.task validated)⟩ userOne 1 :=
    ⟨completion, _, rfl, rfl, Or.inr (by decide), rfl⟩
  obtain ⟨⟨e, hMem, projectId, data, out, hOp, -⟩, -⟩ := hEach [_] _ [] rfl userOne 1 hDelegates
  rw [List.mem_singleton.mp hMem] at hOp
  have hViewer := (ServiceOp.createTask.inj hOp).2.2
  exact absurd hViewer (by decide)

/-- The condition on this run: the creator is the namesake of the user. -/
theorem delegation_by_creator_site :
    ∃ events s, Run site events s ∧ EachDelegation events fun before user id =>
      CreatedOnlyBy before user id ↔ ¬ Created before user.namesake id := by
  obtain ⟨created, validated, s, -, hRun⟩ := namesake_run
  exact ⟨_, s, hRun, delegation_by_creator rfl hRun (namesake_byAccount created validated)⟩

end Namesakes

end Rooeel
