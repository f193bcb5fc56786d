import Rooeel.Access.Guard
import Rooeel.Project.ServiceOp

/-!
# Mutations behind the guard

Five mutations are open to users under a `CheckPermission` annotation. The guard looks for
the project in the arguments; the mutation looks for its row. `setFieldValue` takes both a
project and a field: the guard believes the project, and the statement follows the field.
-/

namespace Rooeel

open JavaScript Prog Table

/-- The annotation of the resolver of a mutation, with the arguments that the guard sees. -/
def ServiceOp.guard : ServiceOp → Option (PermissionMetadata × GuardArgs)
  | .setFieldValue projectId fieldId _ _ =>
      some (⟨"PROJECT_FIELD", .edit⟩, { projectId := some projectId, fieldId := some fieldId })
  | .deleteWorkOrder workOrderId =>
      some (⟨"WORK_ORDER", .delete⟩, { workOrderId := some workOrderId })
  | .createSubTask taskId _ => some (⟨"SUBTASK", .create⟩, { taskId := some taskId })
  | .updateSubTask id _ => some (⟨"SUBTASK", .edit⟩, { id := some id })
  | .removeSubTask id => some (⟨"SUBTASK", .delete⟩, { id := some id })
  | _ => none

/-- Every row that differs between the stores belongs to projects in `allowed`. A field value
belongs to its own project and to that of its field, a subtask to that of its task. -/
structure TouchesOnly (s s' : Store) (allowed : Id → Prop) : Prop where
  rest : s' = { s with
    projectFieldValue := s'.projectFieldValue
    workOrderPdf := s'.workOrderPdf
    subTask := s'.subTask
    objects := s'.objects }
  fieldValue : ∀ r, Touched s.projectFieldValue s'.projectFieldValue r →
    allowed r.projectId ∧
      ∃ field ∈ s.projectField.rows, field.id = r.fieldId ∧ allowed field.projectId
  workOrder : ∀ r, Touched s.workOrderPdf s'.workOrderPdf r → allowed r.projectId
  subTask : ∀ r, Touched s.subTask s'.subTask r →
    ∃ task ∈ s.task.rows, task.id = r.taskId ∧ allowed task.projectId

namespace TouchesOnly

variable {s : Store} {allowed : Id → Prop}

theorem refl (s : Store) (allowed : Id → Prop) : TouchesOnly s s allowed where
  rest := rfl
  fieldValue := fun _ h => absurd h not_touched_self
  workOrder := fun _ h => absurd h not_touched_self
  subTask := fun _ h => absurd h not_touched_self

theorem withFieldValues {t : Table ProjectFieldValue}
    (h : ∀ r, Touched s.projectFieldValue t r → allowed r.projectId ∧
      ∃ field ∈ s.projectField.rows, field.id = r.fieldId ∧ allowed field.projectId) :
    TouchesOnly s { s with projectFieldValue := t } allowed :=
  { refl s allowed with rest := rfl, fieldValue := h }

theorem withWorkOrders {t : Table WorkOrderPdf} (objects : List String)
    (h : ∀ r, Touched s.workOrderPdf t r → allowed r.projectId) :
    TouchesOnly s { s with workOrderPdf := t, objects := objects } allowed :=
  { refl s allowed with rest := rfl, workOrder := h }

theorem withSubTasks {t : Table SubTask}
    (h : ∀ r, Touched s.subTask t r →
      ∃ task ∈ s.task.rows, task.id = r.taskId ∧ allowed task.projectId) :
    TouchesOnly s { s with subTask := t } allowed :=
  { refl s allowed with rest := rfl, subTask := h }

end TouchesOnly

section Guarded

variable [Runtime]

/-- The guard lets the user act on the resource in the project. -/
def AllowedIn (s : Store) (user : Viewer) (metadata : PermissionMetadata) (projectId : Id) : Prop :=
  Allows s user metadata { projectId := some projectId }

/-- All rows that the mutation touches belong to projects in which the guard would let the
user do the same. -/
def WritesAllowed (s : Store) (user : Viewer) (metadata : PermissionMetadata) (op : ServiceOp) :
    Prop :=
  op.prog.wp (fun _ s' => TouchesOnly s s' (AllowedIn s user metadata)) s

/-- For `setFieldValue`: the field was given the value at the very same time already, or the user
may also edit in the project of the field, and in that of its value if it has one. -/
def TargetAllowed (s : Store) (user : Viewer) (metadata : PermissionMetadata) : ServiceOp → Prop
  | .setFieldValue _ fieldId value updatedAt => ∀ field ∈ s.projectField.rows, field.id = fieldId →
      (∃ row ∈ s.projectFieldValue.rows,
        row.fieldId = fieldId ∧ row.value = some value ∧ row.updatedAt = updatedAt) ∨
      (AllowedIn s user metadata field.projectId ∧
        ∀ row ∈ s.projectFieldValue.rows, row.fieldId = fieldId →
          AllowedIn s user metadata row.projectId)
  | _ => True

variable {s : Store} {user : Viewer} {metadata : PermissionMetadata} {args : GuardArgs}

/-! ## From arguments to projects -/

/-- The guard decides by the project that it finds. -/
theorem allows_iff_allowedIn (hValid : s.Valid) (hRole : user.role ≠ some "admin")
    {projectId : Id} (hProject : projectIdOf s metadata args = some projectId)
    (hSet : isSet (some projectId) = true) :
    Allows s user metadata args ↔ AllowedIn s user metadata projectId := by
  have hDirect : projectIdOf s metadata { projectId := some projectId } = some projectId := by
    rw [projectIdOf, if_pos hSet]
  rw [AllowedIn, canActivate_iff hValid hRole hProject hSet,
    canActivate_iff hValid hRole hDirect hSet]

omit [Runtime] in
theorem task_projectId_pos (hValid : s.Valid) {task : Task} (hTask : task ∈ s.task.rows) :
    0 < task.projectId := by
  have hRef := hValid.task.references task hTask
  simp only [prisma.task, Bool.and_eq_true] at hRef
  exact Table.pos_of_has hRef.1.1

omit [Runtime] in
theorem workOrder_projectId_pos (hValid : s.Valid) {wo : WorkOrderPdf}
    (hMem : wo ∈ s.workOrderPdf.rows) : 0 < wo.projectId := by
  have hRef := hValid.workOrderPdf.references wo hMem
  simp only [prisma.workOrderPdf, Bool.and_eq_true] at hRef
  exact Table.pos_of_has hRef.1

omit [Runtime] in
theorem field_projectId_pos (hValid : s.Valid) {field : ProjectField}
    (hMem : field ∈ s.projectField.rows) : 0 < field.projectId := by
  exact Table.pos_of_has (hValid.projectField.references field hMem)

omit [Runtime] in
theorem subTask_task (hValid : s.Valid) {r : SubTask} (hMem : r ∈ s.subTask.rows) :
    ∃ task ∈ s.task.rows, task.id = r.taskId := by
  have hRef := hValid.subTask.references r hMem
  simp only [prisma.subTask, Bool.and_eq_true] at hRef
  exact Table.has_iff.mp hRef.1

omit [Runtime] in
theorem projectIdOf_taskId {task : Task} (hTask : task ∈ s.task.rows) :
    projectIdOf s metadata { taskId := some task.id } = some task.projectId := by
  have hFind : s.task.find task.id = some task := Table.find_eq_some.mpr ⟨hTask, rfl⟩
  have hSet : isSet (some task.id) = true := isSet_of_pos (s.task.key_pos hTask)
  simp only [projectIdOf, Option.getD_some]
  rw [if_neg (by decide), if_neg (by decide), if_neg (by decide), if_neg (by decide), if_pos hSet,
    hFind, Option.map_some]

omit [Runtime] in
theorem projectIdOf_subTaskId {r : SubTask} {task : Task} (action : Action)
    (hMem : r ∈ s.subTask.rows) (hTask : task ∈ s.task.rows) (hId : task.id = r.taskId) :
    projectIdOf s ⟨"SUBTASK", action⟩ { id := some r.id } = some task.projectId := by
  have hFind : s.subTask.find r.id = some r := Table.find_eq_some.mpr ⟨hMem, rfl⟩
  have hFindTask : s.task.find r.taskId = some task := Table.find_eq_some.mpr ⟨hTask, hId⟩
  have hSet : isSet (some r.id) = true := isSet_of_pos (s.subTask.key_pos hMem)
  simp only [projectIdOf, Option.getD_some]
  rw [if_neg (by decide), if_neg (by decide), if_neg (by decide), if_pos hSet, if_neg (by decide),
    if_neg (by decide), if_pos trivial, hFind, Option.bind_some, hFindTask, Option.map_some]

omit [Runtime] in
theorem projectIdOf_workOrderId {wo : WorkOrderPdf} (hMem : wo ∈ s.workOrderPdf.rows) :
    projectIdOf s metadata { workOrderId := some wo.id } = some wo.projectId := by
  have hFind : s.workOrderPdf.find wo.id = some wo := Table.find_eq_some.mpr ⟨hMem, rfl⟩
  have hSet : isSet (some wo.id) = true := isSet_of_pos (s.workOrderPdf.key_pos hMem)
  simp only [projectIdOf, Option.getD_some]
  rw [if_neg (by decide), if_neg (by decide), if_pos hSet, hFind, Option.map_some]

/-! ## The four mutations that name their row -/

omit [Runtime] in
theorem wp_answering {α : Type} {f : α → Answer} {p : Service α} {Q : Store → Prop} :
    (answering f p).wp (fun _ s' => Q s') s ↔ p.wp (fun _ s' => Q s') s := by
  rw [answering, wp_bind]
  constructor
  · intro h
    refine wp_mono h fun r s' hr => ?_
    cases r with
    | ok a => exact wp_pure.mp hr
    | error e => exact hr
  · intro h
    refine wp_mono h fun r s' hr => ?_
    cases r with
    | ok a => exact wp_pure.mpr hr
    | error e => exact hr

omit [Runtime] in
theorem touchesOnly_of_outcome {α : Type} {p : Service α} {allowed : Id → Prop}
    (h : p.wp (Outcome s fun _ s' => TouchesOnly s s' allowed) s) :
    p.wp (fun _ s' => TouchesOnly s s' allowed) s := by
  refine wp_mono h fun r s' hr => ?_
  cases r with
  | ok a => exact hr
  | error e =>
      obtain rfl : s' = s := hr
      exact TouchesOnly.refl _ _

theorem createSubTask_touches (hValid : s.Valid) (hRole : user.role ≠ some "admin")
    {taskId : Id} (data : CreateSubTaskInput)
    (hAllowed : Allows s user metadata { taskId := some taskId }) :
    (createSubTask taskId data).wp (Outcome s fun _ s' =>
      TouchesOnly s s' (AllowedIn s user metadata)) s := by
  unfold createSubTask
  refine outcome_bind reads_throwIf fun _ _ => ?_
  refine outcome_execute fun row s' hCreate => ?_
  obtain ⟨rfl, hRef, rfl⟩ := Model.create_ok hCreate
  simp only [prisma.subTask, Bool.and_eq_true] at hRef
  obtain ⟨task, hTask, hKey⟩ := Table.has_iff.mp hRef.1
  obtain rfl : task.id = taskId := hKey
  refine TouchesOnly.withSubTasks fun r hTouched => ?_
  obtain rfl := touched_insert hTouched
  have hIn := (allows_iff_allowedIn hValid hRole (projectIdOf_taskId hTask)
    (isSet_of_pos (task_projectId_pos hValid hTask))).mp hAllowed
  exact ⟨task, hTask, rfl, hIn⟩

/-- The user is allowed in the project of a subtask that the arguments name. -/
theorem allowedIn_subTask (hValid : s.Valid) (hRole : user.role ≠ some "admin") {action : Action}
    {r : SubTask} (hMem : r ∈ s.subTask.rows)
    (hAllowed : Allows s user ⟨"SUBTASK", action⟩ { id := some r.id }) :
    ∃ task ∈ s.task.rows, task.id = r.taskId ∧
      AllowedIn s user ⟨"SUBTASK", action⟩ task.projectId := by
  obtain ⟨task, hTask, hId⟩ := subTask_task hValid hMem
  have hProject := projectIdOf_subTaskId action hMem hTask hId
  have hSet := isSet_of_pos (task_projectId_pos hValid hTask)
  exact ⟨task, hTask, hId, (allows_iff_allowedIn hValid hRole hProject hSet).mp hAllowed⟩

theorem updateSubTask_touches (hValid : s.Valid) (hRole : user.role ≠ some "admin")
    {id : Id} (data : UpdateTaskInput)
    (hAllowed : Allows s user ⟨"SUBTASK", .edit⟩ { id := some id }) :
    (updateSubTask id data).wp (Outcome s fun _ s' =>
      TouchesOnly s s' (AllowedIn s user ⟨"SUBTASK", .edit⟩)) s := by
  unfold updateSubTask
  refine outcome_bind (reads_findUniqueOrThrow prisma.subTask id) fun _ _ => ?_
  refine outcome_bind reads_throwIf fun _ _ => ?_
  refine outcome_execute fun row s' hUpdate => ?_
  obtain ⟨r, hMem, hSel, -, rfl, -, rfl⟩ := Model.update_ok hUpdate
  obtain rfl : r.id = id := beq_iff_eq.mp hSel
  have hTarget := allowedIn_subTask hValid hRole hMem hAllowed
  refine TouchesOnly.withSubTasks fun r' hTouched => ?_
  obtain ⟨r₀, hMem₀, hKey, -, hCase⟩ := touched_modify hTouched
  obtain rfl : r₀ = r := s.subTask.key_inj hMem₀ hMem (beq_iff_eq.mp hKey)
  rcases hCase with rfl | rfl
  · exact hTarget
  · exact hTarget

theorem removeSubTask_touches (hValid : s.Valid) (hRole : user.role ≠ some "admin")
    {id : Id} (hAllowed : Allows s user ⟨"SUBTASK", .delete⟩ { id := some id }) :
    (removeSubTask id).wp (Outcome s fun _ s' =>
      TouchesOnly s s' (AllowedIn s user ⟨"SUBTASK", .delete⟩)) s := by
  unfold removeSubTask
  refine outcome_bind (reads_findUniqueOrThrow prisma.subTask id) fun _ _ => ?_
  refine outcome_map (outcome_execute fun row s' hDelete => ?_)
  obtain ⟨hMem, hSel, rfl⟩ := Model.delete_ok hDelete
  obtain rfl : row.id = id := beq_iff_eq.mp hSel
  refine TouchesOnly.withSubTasks fun r hTouched => ?_
  obtain ⟨hMem', hKey⟩ := touched_erase hTouched
  obtain rfl : r = row := s.subTask.key_inj hMem' hMem (beq_iff_eq.mp hKey)
  exact allowedIn_subTask hValid hRole hMem hAllowed

omit [Runtime] in
theorem deleteFile_keeps (fileKey : String) :
    (deleteFile fileKey).wp (fun _ s' => ∃ objects, s' = { s with objects := objects }) s := by
  refine wp_atomic.mpr ⟨fun a s' h => ?_, fun e _ => ⟨s.objects, rfl⟩⟩
  cases h
  exact ⟨_, rfl⟩

omit [Runtime] in
theorem deleteWorkOrderRow_touches (objects : List String) {wo : WorkOrderPdf}
    (hMem : wo ∈ s.workOrderPdf.rows) {allowed : Id → Prop} (hIn : allowed wo.projectId) :
    (delete prisma.workOrderPdf fun r => r.id == wo.id).wp (fun _ s' => TouchesOnly s s' allowed)
      { s with objects := objects } := by
  refine wp_atomic.mpr ⟨fun row s' h => ?_, fun e _ => ?_⟩
  · obtain ⟨hRow, hSel, rfl⟩ := Model.delete_ok (execute_ok h)
    obtain rfl : row = wo := s.workOrderPdf.key_inj hRow hMem (beq_iff_eq.mp hSel)
    refine TouchesOnly.withWorkOrders objects fun r hTouched => ?_
    obtain ⟨hMem', hKey⟩ := touched_erase hTouched
    obtain rfl : r = row := s.workOrderPdf.key_inj hMem' hMem (beq_iff_eq.mp hKey)
    exact hIn
  · exact TouchesOnly.withWorkOrders objects fun r hTouched => absurd hTouched not_touched_self

/-- The file goes first, so a failure in between leaves the row. -/
theorem deleteWorkOrder_touches (hValid : s.Valid) (hRole : user.role ≠ some "admin")
    {workOrderId : Id} (hAllowed : Allows s user metadata { workOrderId := some workOrderId }) :
    (deleteWorkOrder workOrderId).wp
      (fun _ s' => TouchesOnly s s' (AllowedIn s user metadata)) s := by
  unfold deleteWorkOrder
  refine wp_seq (reads_findUniqueOrThrow prisma.workOrderPdf workOrderId) ?_ ?_
  · rintro wo s' ⟨rfl, hFind⟩
    obtain ⟨hMem, hSel⟩ := Model.findFirst_some hFind
    obtain rfl : wo.id = workOrderId := beq_iff_eq.mp hSel
    have hIn : AllowedIn s' user metadata wo.projectId :=
      (allows_iff_allowedIn hValid hRole (projectIdOf_workOrderId hMem)
        (isSet_of_pos (workOrder_projectId_pos hValid hMem))).mp hAllowed
    refine wp_seq (deleteFile_keeps wo.fileKey) ?_ ?_
    · rintro - s₁ ⟨objects, rfl⟩
      refine wp_seq (deleteWorkOrderRow_touches objects hMem hIn) ?_ ?_
      · exact fun _ _ h => wp_pure.mpr h
      · exact fun _ _ h => h
    · rintro e s₁ ⟨objects, rfl⟩
      exact TouchesOnly.withWorkOrders objects fun r hTouched => absurd hTouched not_touched_self
  · intro e s' hError
    obtain rfl : s' = s := hError
    exact TouchesOnly.refl _ _

/-! ## The mutation that names a project and a field -/

omit [Runtime] in
theorem projectIdOf_projectId {projectId fieldId : Id} (hSet : isSet (some projectId) = true) :
    projectIdOf s metadata { projectId := some projectId, fieldId := some fieldId } =
      some projectId := by
  rw [projectIdOf, if_pos hSet]

omit [Runtime] in
theorem projectIdOf_fieldId {projectId : Id} (hZero : isSet (some projectId) = false)
    {field : ProjectField} (hMem : field ∈ s.projectField.rows) :
    projectIdOf s metadata { projectId := some projectId, fieldId := some field.id } =
      some field.projectId := by
  have hFind : s.projectField.find field.id = some field := Table.find_eq_some.mpr ⟨hMem, rfl⟩
  have hSet : isSet (some field.id) = true := isSet_of_pos (s.projectField.key_pos hMem)
  simp only [projectIdOf, Option.getD_some]
  rw [if_neg (by rw [hZero]; decide), if_pos hSet, hFind, Option.map_some]

omit [Runtime] in
theorem fieldValue_field (hValid : s.Valid) {row : ProjectFieldValue}
    (hMem : row ∈ s.projectFieldValue.rows) :
    ∃ field ∈ s.projectField.rows, field.id = row.fieldId := by
  have hRef := hValid.projectFieldValue.references row hMem
  simp only [prisma.projectFieldValue, Bool.and_eq_true] at hRef
  exact Table.has_iff.mp hRef.1

omit [Runtime] in
/-- A field has one value. -/
theorem fieldValue_unique (hValid : s.Valid) {row row' : ProjectFieldValue}
    (hMem : row ∈ s.projectFieldValue.rows) (hMem' : row' ∈ s.projectFieldValue.rows)
    (hField : row.fieldId = row'.fieldId) : row = row' :=
  hValid.projectFieldValue.eq_of_conflicts (fun _ _ => BEq.comm) hMem hMem'
    (beq_iff_eq.mpr hField)

/-- A stored value with the new text and time is left as it is. -/
theorem setFieldValue_touches (hValid : s.Valid) (hRole : user.role ≠ some "admin")
    {projectId fieldId : Id} {value : String} {updatedAt : Int}
    (hAllowed : Allows s user metadata { projectId := some projectId, fieldId := some fieldId })
    (hTarget : TargetAllowed s user metadata (.setFieldValue projectId fieldId value updatedAt)) :
    (setFieldValue projectId fieldId value updatedAt).wp (Outcome s fun _ s' =>
      TouchesOnly s s' (AllowedIn s user metadata)) s := by
  refine outcome_execute fun row s' hUpsert => ?_
  rcases Model.upsert_ok hUpsert with hUpdate | ⟨hNone, hCreate⟩
  · obtain ⟨r, hMem, hSel, -, rfl, -, rfl⟩ := Model.update_ok hUpdate
    obtain rfl : r.fieldId = fieldId := beq_iff_eq.mp hSel
    obtain ⟨field, hField, hId⟩ := fieldValue_field hValid hMem
    refine TouchesOnly.withFieldValues fun r' hTouched => ?_
    obtain ⟨r₀, hMem₀, hKey, hChanged, hCase⟩ := touched_modify hTouched
    obtain rfl : r₀ = r := s.projectFieldValue.key_inj hMem₀ hMem (beq_iff_eq.mp hKey)
    rcases hTarget field hField hId with
      ⟨row, hRow, hRowField, hValue, hTime⟩ | ⟨hIn, hRows⟩
    · obtain rfl : row = r₀ := fieldValue_unique hValid hRow hMem hRowField
      exact absurd (by rw [← hValue, ← hTime]) hChanged
    · have hHere := hRows r₀ hMem rfl
      rcases hCase with rfl | rfl
      · exact ⟨hHere, field, hField, hId, hIn⟩
      · exact ⟨hHere, field, hField, hId, hIn⟩
  · obtain ⟨rfl, hRef, rfl⟩ := Model.create_ok hCreate
    simp only [prisma.projectFieldValue, Bool.and_eq_true] at hRef
    obtain ⟨field, hField, hKey⟩ := Table.has_iff.mp hRef.1
    obtain ⟨project, hProject, hProjectKey⟩ := Table.has_iff.mp hRef.2
    have hSet : isSet (some projectId) = true :=
      isSet_of_pos (hProjectKey ▸ s.project.key_pos hProject)
    refine TouchesOnly.withFieldValues fun r' hTouched => ?_
    obtain rfl := touched_insert hTouched
    have hHere := (allows_iff_allowedIn hValid hRole (projectIdOf_projectId hSet) hSet).mp hAllowed
    rcases hTarget field hField hKey with ⟨row, hRow, hRowField, -⟩ | ⟨hIn, -⟩
    · exact absurd (beq_iff_eq.mpr hRowField) (List.find?_eq_none.mp hNone row hRow)
    · exact ⟨hHere, field, hField, hKey, hIn⟩

/-- A user that the guard lets through for a project is a member of it, so it exists. -/
theorem project_of_allows (hValid : s.Valid) (hRole : user.role ≠ some "admin") {projectId : Id}
    (hProject : projectIdOf s metadata args = some projectId)
    (hSet : isSet (some projectId) = true) (hAllowed : Allows s user metadata args) :
    s.project.has projectId = true := by
  obtain ⟨projectUser, hMember, -⟩ := (canActivate_iff hValid hRole hProject hSet).mp hAllowed
  obtain ⟨hMem, hId, -⟩ := memberOf_some hMember
  have hRef := hValid.projectUser.references projectUser hMem
  simp only [prisma.projectUser, Bool.and_eq_true] at hRef
  exact hId ▸ hRef.1.1.1.1

omit [Runtime] in
/-- A value is overwritten, whatever project was named. -/
theorem setFieldValue_update (hValid : s.Valid) (projectId : Id) {fieldId : Id} (value : String)
    (updatedAt : Int) {r : ProjectFieldValue}
    (hFind : prisma.projectFieldValue.findFirst (fun x => x.fieldId == fieldId) s = some r) :
    ∃ row, (setFieldValue projectId fieldId value updatedAt).run s = (.ok row, { s with
      projectFieldValue := s.projectFieldValue.modify (fun x => Row.key x == Row.key r)
        (fun x => { x with value := some value, updatedAt }) fun _ => rfl }) := by
  obtain ⟨hMem, hSel⟩ := Model.findFirst_some hFind
  have hRef : prisma.projectFieldValue.references s
      { r with value := some value, updatedAt } = true :=
    hValid.projectFieldValue.references r hMem
  refine ⟨_, execute_run (Model.upsert_of_find hFind (Model.accepts_of hRef ?_))⟩
  intro r' hr' hNe
  by_contra hConflict
  have hField : r'.fieldId = r.fieldId := by simpa [prisma.projectFieldValue] using hConflict
  have hSame : r' = r := fieldValue_unique hValid hr' hMem hField
  have hKey : Row.key r' = Row.key r := congrArg Row.key hSame
  exact hNe hKey

omit [Runtime] in
/-- A field without a value gets one, in the project that was named. -/
theorem setFieldValue_create {projectId fieldId : Id} (value : String) (updatedAt : Int)
    (hFind : prisma.projectFieldValue.findFirst (fun x => x.fieldId == fieldId) s = none)
    (hField : s.projectField.has fieldId = true) (hProject : s.project.has projectId = true) :
    ∃ row, (setFieldValue projectId fieldId value updatedAt).run s = (.ok row, { s with
      projectFieldValue := s.projectFieldValue.insert
        (fun id => { id, fieldId, projectId, value := some value, updatedAt }) fun _ => rfl }) := by
  have hRef : ∀ id, prisma.projectFieldValue.references s
      { id, fieldId, projectId, value := some value, updatedAt } = true := by
    intro id
    simp [prisma.projectFieldValue, hField, hProject]
  refine ⟨_, execute_run (Model.upsert_of_none hFind (Model.accepts_of (hRef _) ?_))⟩
  intro r' hr' _
  exact Bool.eq_false_iff.mpr (List.find?_eq_none.mp hFind r' hr')

/-- When only allowed rows are touched, the condition holds. -/
theorem targetAllowed_of_touches (hValid : s.Valid) (hRole : user.role ≠ some "admin")
    {projectId fieldId : Id} {value : String} {updatedAt : Int}
    (hAllowed : Allows s user metadata { projectId := some projectId, fieldId := some fieldId })
    (hWrites : (setFieldValue projectId fieldId value updatedAt).wp
      (fun _ s' => TouchesOnly s s' (AllowedIn s user metadata)) s) :
    TargetAllowed s user metadata (.setFieldValue projectId fieldId value updatedAt) := by
  intro field hField hId
  cases hFind : prisma.projectFieldValue.findFirst (fun x => x.fieldId == fieldId) s with
  | some r =>
      obtain ⟨hMem, hSel⟩ := Model.findFirst_some hFind
      have hRowField : r.fieldId = fieldId := beq_iff_eq.mp hSel
      by_cases hSame : r.value = some value ∧ r.updatedAt = updatedAt
      · exact Or.inl ⟨r, hMem, hRowField, hSame⟩
      · right
        obtain ⟨row, hRun⟩ := setFieldValue_update hValid projectId value updatedAt hFind
        have hTouches := (wp_of_run hRun).mp hWrites
        have hGone : r ∉ (s.projectFieldValue.modify (fun x => Row.key x == Row.key r)
            (fun x => { x with value := some value, updatedAt }) fun _ => rfl).rows := by
          intro hStill
          obtain ⟨r', hr', hEq⟩ := Table.mem_modify.mp hStill
          split at hEq
          · rw [← hEq] at hSame
            exact hSame ⟨rfl, rfl⟩
          · rename_i hKey
            rw [hEq] at hKey
            exact hKey (beq_self_eq_true _)
        obtain ⟨hHere, field', hField', hId', hIn⟩ :=
          hTouches.fieldValue r (Or.inl ⟨hMem, hGone⟩)
        obtain rfl : field' = field := s.projectField.key_inj hField' hField
          (hId'.trans (hRowField.trans hId.symm))
        refine ⟨hIn, fun row' hRow' hRowField' => ?_⟩
        rw [fieldValue_unique hValid hRow' hMem (hRowField'.trans hRowField.symm)]
        exact hHere
  | none =>
      right
      have hNone : ∀ row ∈ s.projectFieldValue.rows, row.fieldId ≠ fieldId := by
        intro row hRow hRowField
        exact List.find?_eq_none.mp hFind row hRow (beq_iff_eq.mpr hRowField)
      refine ⟨?_, fun row hRow hRowField => absurd hRowField (hNone row hRow)⟩
      cases hSet : isSet (some projectId) with
      | false =>
          have hPos := isSet_of_pos (field_projectId_pos hValid hField)
          rw [← hId] at hAllowed
          refine (allows_iff_allowedIn hValid hRole ?_ hPos).mp hAllowed
          exact projectIdOf_fieldId hSet hField
      | true =>
          have hProject := project_of_allows hValid hRole (projectIdOf_projectId hSet) hSet hAllowed
          have hHas : s.projectField.has fieldId = true := Table.has_iff.mpr ⟨field, hField, hId⟩
          obtain ⟨row, hRun⟩ := setFieldValue_create value updatedAt hFind hHas hProject
          have hTouches := (wp_of_run hRun).mp hWrites
          obtain ⟨-, field', hField', hId', hIn⟩ :=
            hTouches.fieldValue _ (touched_new s.projectFieldValue _ fun _ => rfl)
          obtain rfl : field' = field := s.projectField.key_inj hField' hField
            (hId'.trans hId.symm)
          exact hIn

/-- **Where the guarded mutations write.** A call that the guard lets through touches rows of
projects only in which the user has the same right, exactly under this condition, which is
about `setFieldValue` alone. -/
theorem guarded_writes_allowed (hValid : s.Valid) (hRole : user.role ≠ some "admin")
    {op : ServiceOp} (hGuard : op.guard = some (metadata, args))
    (hAllowed : Allows s user metadata args) :
    WritesAllowed s user metadata op ↔ TargetAllowed s user metadata op := by
  unfold WritesAllowed
  cases op with
  | setFieldValue projectId fieldId value updatedAt =>
      cases hGuard
      refine wp_answering.trans ⟨targetAllowed_of_touches hValid hRole hAllowed, fun hTarget => ?_⟩
      exact touchesOnly_of_outcome (setFieldValue_touches hValid hRole hAllowed hTarget)
  | deleteWorkOrder workOrderId =>
      cases hGuard
      exact iff_of_true (wp_answering.mpr (deleteWorkOrder_touches hValid hRole hAllowed)) trivial
  | createSubTask taskId data =>
      cases hGuard
      exact iff_of_true (wp_answering.mpr (touchesOnly_of_outcome
        (createSubTask_touches hValid hRole data hAllowed))) trivial
  | updateSubTask id data =>
      cases hGuard
      exact iff_of_true (wp_answering.mpr (touchesOnly_of_outcome
        (updateSubTask_touches hValid hRole data hAllowed))) trivial
  | removeSubTask id =>
      cases hGuard
      exact iff_of_true (wp_answering.mpr (touchesOnly_of_outcome
        (removeSubTask_touches hValid hRole hAllowed))) trivial
  | _ => cases hGuard

end Guarded

section Neighbours

attribute [local instance] asciiRuntime

/-- The small site, whose role may also edit fields, beside a project with a field. -/
def neighbours : Store :=
  { site with
    project := site.project.insert (fun id =>
      { id, name := "Tunnel", description := none, image := none, status := "active"
        createdBy := 1 }) fun _ => rfl
    projectField := site.projectField.insert (fun id =>
      { id, projectId := 2, name := "depth", label := "Depth", fieldType := "text", options := none
        required := false, sortOrder := 0 }) fun _ => rfl
    permission := site.permission.insert (fun id =>
      { id, projectRoleId := 1, departmentId := none, resource := "PROJECT_FIELD"
        flags := { canEdit := true } }) fun _ => rfl }

theorem neighbours_valid : neighbours.Valid := by
  constructor <;> decide

/-- The member of the first project. -/
def neighbour : Viewer := ⟨1, some "user"⟩

/-- The field of the second project, under the name of the first. -/
def strayWrite : ServiceOp := .setFieldValue 1 1 "9 m" 0

theorem strayWrite_allowed :
    Allows neighbours neighbour ⟨"PROJECT_FIELD", .edit⟩
      { projectId := some 1, fieldId := some 1 } := rfl

/-- The guard lets a member of one project write a field of another. -/
theorem guarded_write_strays :
    neighbours.Valid ∧
      strayWrite.guard =
        some (⟨"PROJECT_FIELD", .edit⟩, { projectId := some 1, fieldId := some 1 }) ∧
      Allows neighbours neighbour ⟨"PROJECT_FIELD", .edit⟩
        { projectId := some 1, fieldId := some 1 } ∧
      ¬ WritesAllowed neighbours neighbour ⟨"PROJECT_FIELD", .edit⟩ strayWrite := by
  refine ⟨neighbours_valid, rfl, strayWrite_allowed, fun hWrites => ?_⟩
  have hRole : neighbour.role ≠ some "admin" := by decide
  have hTarget := targetAllowed_of_touches neighbours_valid hRole strayWrite_allowed
    (wp_answering.mp hWrites)
  have hField : (⟨1, 2, "depth", "Depth", "text", none, false, 0⟩ : ProjectField) ∈
      neighbours.projectField.rows := List.mem_singleton_self _
  rcases hTarget _ hField rfl with ⟨row, hRow, -⟩ | ⟨hIn, -⟩
  · cases hRow
  · obtain ⟨projectUser, hMember, -⟩ :=
      (canActivate_iff neighbours_valid hRole rfl (by decide)).mp hIn
    cases hMember

theorem guarded_writes_allowed_neighbours :
    WritesAllowed neighbours neighbour ⟨"PROJECT_FIELD", .edit⟩ strayWrite ↔
      TargetAllowed neighbours neighbour ⟨"PROJECT_FIELD", .edit⟩ strayWrite :=
  guarded_writes_allowed neighbours_valid (by decide) rfl strayWrite_allowed

end Neighbours

end Rooeel
