import Rooeel.Api.Privileges

/-!
# Outsiders

`outsiders_change_nothing`: requests whose callers are neither admins nor members of a project leave
its tasks, their subtasks and its work orders as they are, for any number of requests, in any
interleaving of their steps and with steps that fail.

A check and the write that it is for are different steps, with steps of others in between. What was
checked is still true then: nobody joins a project (`SameAccess`), and the row that was looked up
belongs to the same project for life (`Schema.Settled`). So the guarantee of every step, `Outside`,
is also what every request relies on.

Field values are left out: the guard of `setFieldValue` believes the project in the arguments, and
the statement follows the field.
-/

namespace Rooeel

open JavaScript Prog Schema TokenRuntime

/-! ## The contents of a project -/

/-- Tasks, subtasks and work orders of the project are as before. -/
structure Untouched (projectId : Id) (s s' : Store) : Prop where
  tasks : s'.task.rows.filter (fun r => r.projectId == projectId) =
    s.task.rows.filter fun r => r.projectId == projectId
  subTasks : ∀ task ∈ s.task.rows, task.projectId = projectId →
    s'.subTask.rows.filter (fun r => r.taskId == task.id) =
      s.subTask.rows.filter fun r => r.taskId == task.id
  workOrders : s'.workOrderPdf.rows.filter (fun r => r.projectId == projectId) =
    s.workOrderPdf.rows.filter fun r => r.projectId == projectId

/-- What requests of outsiders guarantee, and rely on. -/
structure Outside (projectId : Id) (s s' : Store) : Prop where
  access : SameAccess s s'
  owners : Store.schema.KeepsOwners s s'
  untouched : Untouched projectId s s'

/-- The row with the key does not belong to the project, and never will. -/
abbrev Foreign (projectId : Id) (e : Entity) (k : Id) (s : Store) : Prop :=
  Store.schema.Settled e (fun owners => (.project, projectId) ∉ owners) k s

/-- The subtask with the key is one of a task that does not belong to the project. -/
def ForeignSubTask (projectId id : Id) (s : Store) : Prop :=
  ∃ taskId, Foreign projectId .task taskId s ∧
    Store.schema.Settled .subTask (fun owners => owners = [(.task, taskId)]) id s

/-- A user who is not a member of the project. -/
structure Outsider (projectId : Id) (s : Store) (viewer : Viewer) : Prop where
  role : viewer.role ≠ some "admin"
  member : memberOf s projectId viewer.userId = none

section Contents

variable {projectId : Id} {s s' s'' : Store}

theorem Untouched.refl (projectId : Id) (s : Store) : Untouched projectId s s :=
  ⟨rfl, fun _ _ _ => rfl, rfl⟩

theorem Untouched.trans (h : Untouched projectId s s') (h' : Untouched projectId s' s'') :
    Untouched projectId s s'' where
  tasks := h'.tasks.trans h.tasks
  subTasks := fun task hTask hProject => by
    have hMem : task ∈ s.task.rows.filter fun r => r.projectId == projectId :=
      List.mem_filter.mpr ⟨hTask, beq_iff_eq.mpr hProject⟩
    rw [← h.tasks] at hMem
    rw [h'.subTasks task (List.mem_filter.mp hMem).1 hProject, h.subTasks task hTask hProject]
  workOrders := h'.workOrders.trans h.workOrders

theorem Outside.refl (projectId : Id) (s : Store) : Outside projectId s s :=
  ⟨.refl s, .refl s, .refl projectId s⟩

theorem Outside.trans (h : Outside projectId s s') (h' : Outside projectId s' s'') :
    Outside projectId s s'' :=
  ⟨h.access.trans h'.access, h.owners.trans h'.owners, h.untouched.trans h'.untouched⟩

theorem Outside.of_statement (h : Store.schema.Statement (· ∈ userWrites) s s')
    (hUntouched : Untouched projectId s s') : Outside projectId s s' :=
  ⟨sameAccess_of_statement h, h.owners Store.cascades, hUntouched⟩

theorem Outsider.keeps {viewer : Viewer} (h : Outsider projectId s viewer)
    (hOutside : Outside projectId s s') : Outsider projectId s' viewer :=
  ⟨h.role, by rw [hOutside.access.memberOf, h.member]⟩

theorem ForeignSubTask.keeps {id : Id} (h : ForeignSubTask projectId id s)
    (hOutside : Outside projectId s s') : ForeignSubTask projectId id s' := by
  obtain ⟨taskId, hTask, hSubTask⟩ := h
  exact ⟨taskId, hTask.keeps hOutside.owners, hSubTask.keeps hOutside.owners⟩

/-! ## Statements that do not concern the project -/

/-- The tables are not written at all. -/
theorem Outside.of_frame {writes : List (Write Entity)}
    (h : Store.schema.Statement (· ∈ writes) s s') (hUser : writes ⊆ userWrites)
    (hSpares : ∀ e ∈ [Entity.task, .subTask, .workOrderPdf], Spares Entity.Reach (· ∈ writes) e) :
    Outside projectId s s' := by
  refine .of_statement (h.mono fun _ hw => hUser hw) ?_
  have hTask : s'.task = s.task := h.frame (e := .task) Store.cascades (hSpares _ (by simp))
  have hSubTask : s'.subTask = s.subTask :=
    h.frame (e := .subTask) Store.cascades (hSpares _ (by simp))
  have hWorkOrder : s'.workOrderPdf = s.workOrderPdf :=
    h.frame (e := .workOrderPdf) Store.cascades (hSpares _ (by simp))
  constructor
  · rw [hTask]
  · exact fun _ _ _ => by rw [hSubTask]
  · rw [hWorkOrder]

theorem Outside.of_createTask {mk : Id → Task} {hmk : ∀ k, Row.key (mk k) = k} {r : Task}
    (hProject : ∀ k, (mk k).projectId ≠ projectId)
    (h : prisma.task.create mk hmk s = .ok (r, s')) : Outside projectId s s' := by
  refine .of_statement (.create (e := Entity.task) (by decide) h) ⟨?_, ?_, ?_⟩
  · exact Model.filter_create h fun k => beq_eq_false_iff_ne.mpr (hProject k)
  all_goals obtain ⟨-, -, rfl⟩ := Model.create_ok h
  · exact fun _ _ _ => rfl
  · rfl

/-- The task with the key belongs to another project. -/
theorem Foreign.task {id : Id} (h : Foreign projectId .task id s) {task : Task}
    (hTask : task ∈ s.task.rows) (hId : task.id = id) : task.projectId ≠ projectId := by
  rintro rfl
  exact h.2 task hTask hId (List.mem_singleton_self _)

theorem foreign_task {task : Task} (hTask : task ∈ s.task.rows)
    (hProject : task.projectId ≠ projectId) : Foreign projectId .task task.id s := by
  refine settled_of_mem (S := Store.schema) (e := Entity.task) hTask fun hOwner => hProject ?_
  cases List.mem_singleton.mp hOwner
  rfl

theorem Outside.of_updateTask {id : Id} (hForeign : Foreign projectId .task id s)
    {f : Task → Task} {hf : ∀ r, Row.key (f r) = Row.key r} {r : Task}
    (hEvolves : ∀ r, Entity.Evolves .task r (f r))
    (h : prisma.task.update (fun r => r.id == id) f hf s = .ok (r, s')) :
    Outside projectId s s' := by
  refine .of_statement (.update (e := Entity.task) (by decide) hEvolves h) ⟨?_, ?_, ?_⟩
  · refine Model.filter_update h fun x hx hSel => ?_
    have hOther := hForeign.task hx (beq_iff_eq.mp hSel)
    have hProject : (f x).projectId = x.projectId := (Prod.mk.inj (hEvolves x).1).1
    exact ⟨beq_eq_false_iff_ne.mpr hOther, beq_eq_false_iff_ne.mpr (hProject ▸ hOther)⟩
  all_goals obtain ⟨-, -, -, -, -, -, rfl⟩ := Model.update_ok h
  · exact fun _ _ _ => rfl
  · rfl

/-- The subtasks of the task go with it, but no others. -/
theorem Outside.of_deleteTask {id : Id} (hForeign : Foreign projectId .task id s) {r : Task}
    (h : prisma.task.delete (fun r => r.id == id) s = .ok (r, s')) : Outside projectId s s' := by
  obtain ⟨hr, hSel, rfl⟩ := Model.delete_ok h
  have hOther {x : Task} (hx : x ∈ s.task.rows) (hKey : (Row.key x == Row.key r) = true) :
      x.projectId ≠ projectId :=
    hForeign.task hx ((beq_iff_eq.mp hKey).trans (beq_iff_eq.mp hSel))
  refine .of_statement (.delete (S := Store.schema) (e := Entity.task) (by decide) _) ⟨?_, ?_, rfl⟩
  · exact Table.filter_erase_of_not fun x hx hKey => beq_eq_false_iff_ne.mpr (hOther hx hKey)
  · intro task hTask hProject
    refine Table.filter_erase_of_not fun x hx hGone => beq_eq_false_iff_ne.mpr ?_
    rintro hId
    obtain ⟨y, hy, hKey, hTaskId⟩ := keysOf_contains.mp hGone
    obtain rfl : y = task := s.task.key_inj hy hTask (hTaskId.trans hId)
    exact hOther hy hKey hProject

theorem Outside.of_createSubTask {taskId : Id} (hForeign : Foreign projectId .task taskId s)
    {mk : Id → SubTask} {hmk : ∀ k, Row.key (mk k) = k} {r : SubTask}
    (hTask : ∀ k, (mk k).taskId = taskId)
    (h : prisma.subTask.create mk hmk s = .ok (r, s')) : Outside projectId s s' := by
  refine .of_statement (.create (e := Entity.subTask) (by decide) h) ⟨?_, ?_, ?_⟩
  rotate_left
  · intro task hMem hProject
    refine Model.filter_create h fun k => beq_eq_false_iff_ne.mpr ?_
    rw [hTask]
    exact fun hId => hForeign.task hMem hId.symm hProject
  all_goals obtain ⟨-, -, rfl⟩ := Model.create_ok h
  · rfl
  · rfl

/-- The subtask with the key is one of a task of another project. -/
theorem ForeignSubTask.taskId {id : Id} (h : ForeignSubTask projectId id s) {r : SubTask}
    (hr : r ∈ s.subTask.rows) (hId : r.id = id) {task : Task} (hTask : task ∈ s.task.rows)
    (hProject : task.projectId = projectId) : r.taskId ≠ task.id := by
  obtain ⟨taskId, hForeign, hSettled⟩ := h
  have hOwners : Entity.owners .subTask r = [(.task, taskId)] := hSettled.2 r hr hId
  intro hSame
  simp only [Entity.owners, List.cons.injEq, Prod.mk.injEq, true_and, and_true] at hOwners
  exact hForeign.task hTask (hSame.symm.trans hOwners) hProject

theorem Outside.of_updateSubTask {id : Id} (hForeign : ForeignSubTask projectId id s)
    {f : SubTask → SubTask} {hf : ∀ r, Row.key (f r) = Row.key r} {r : SubTask}
    (hEvolves : ∀ r, Entity.Evolves .subTask r (f r))
    (h : prisma.subTask.update (fun r => r.id == id) f hf s = .ok (r, s')) :
    Outside projectId s s' := by
  refine .of_statement (.update (e := Entity.subTask) (by decide) hEvolves h) ⟨?_, ?_, ?_⟩
  rotate_left
  · intro task hMem hProject
    refine Model.filter_update h fun x hx hSel => ?_
    have hOther := hForeign.taskId hx (beq_iff_eq.mp hSel) hMem hProject
    have hTask : (f x).taskId = x.taskId := (Prod.mk.inj (hEvolves x)).1
    exact ⟨beq_eq_false_iff_ne.mpr hOther, beq_eq_false_iff_ne.mpr (hTask ▸ hOther)⟩
  all_goals obtain ⟨-, -, -, -, -, -, rfl⟩ := Model.update_ok h
  · rfl
  · rfl

theorem Outside.of_deleteSubTask {id : Id} (hForeign : ForeignSubTask projectId id s)
    {r : SubTask} (h : prisma.subTask.delete (fun r => r.id == id) s = .ok (r, s')) :
    Outside projectId s s' := by
  obtain ⟨hr, hSel, rfl⟩ := Model.delete_ok h
  refine .of_statement (.delete (S := Store.schema) (e := Entity.subTask) (by decide) _)
    ⟨rfl, fun task hTask hProject => ?_, rfl⟩
  refine Table.filter_erase_of_not fun x hx hKey => beq_eq_false_iff_ne.mpr ?_
  have hId : x.id = id := (beq_iff_eq.mp hKey).trans (beq_iff_eq.mp hSel)
  exact hForeign.taskId hx hId hTask hProject

theorem Outside.of_deleteWorkOrder {id : Id} (hForeign : Foreign projectId .workOrderPdf id s)
    {r : WorkOrderPdf} (h : prisma.workOrderPdf.delete (fun r => r.id == id) s = .ok (r, s')) :
    Outside projectId s s' := by
  obtain ⟨hr, hSel, rfl⟩ := Model.delete_ok h
  refine .of_statement (.delete (S := Store.schema) (e := Entity.workOrderPdf) (by decide) _)
    ⟨rfl, fun _ _ _ => rfl, ?_⟩
  refine Table.filter_erase_of_not fun x hx hKey => beq_eq_false_iff_ne.mpr ?_
  rintro rfl
  have hId : x.id = id := (beq_iff_eq.mp hKey).trans (beq_iff_eq.mp hSel)
  exact hForeign.2 x hx hId List.mem_cons_self

end Contents

/-! ## Mutations of tasks -/

/-- Every step is one that outsiders guarantee, while the others are. -/
abbrev SafeOutside {α : Type} (projectId : Id) (p : Service α) (s : Store) : Prop :=
  Safe (Outside projectId) (Outside projectId) p s

section Mutations

variable [Runtime] {projectId : Id} {s : Store} {α β : Type}

omit [Runtime] in
theorem safe_bind_outside {p : Service α} {f : α → Service β} (hp : SafeOutside projectId p s)
    (hf : ∀ a s', Outside projectId s s' → SafeOutside projectId (f a) s') :
    SafeOutside projectId (p >>= f) s :=
  safe_bind_since (.refl projectId) (fun _ _ _ h h' => h.trans h') (fun _ _ h => h) hp hf

omit [Runtime] in
/-- Programs that write other tables. -/
theorem safe_of_confined {writes : List (Write Entity)} {p : Service α} (h : Confined writes p)
    (hUser : writes ⊆ userWrites) (hSpares : ∀ e ∈ [Entity.task, .subTask, .workOrderPdf],
      Spares Entity.Reach (· ∈ writes) e) : SafeOutside projectId p s :=
  (h s).of_any fun _ _ hStatement => .of_frame hStatement hUser hSpares

omit [Runtime] in
/-- Programs that only read. -/
theorem safe_reads {p : Service α} (h : Confined [] p) : SafeOutside projectId p s :=
  safe_of_confined h (List.nil_subset _) (by decide)

/-- A check that begins with the membership fails in the project, as the user never joins. -/
theorem safe_member_bind {target userId : Id} {e : Exn} {k : ProjectUserContext → Service α}
    {g : α → Service β} (hOutsider : memberOf s projectId userId = none)
    (hk : target ≠ projectId → ∀ context s', Outside projectId s s' →
      SafeOutside projectId (k context >>= g) s') :
    SafeOutside projectId ((getProjectUserContext target userId >>= fun context =>
      match context with
      | none => throw e
      | some context => k context) >>= g) s := by
  unfold getProjectUserContext
  simp only [Prog.bind_assoc]
  refine safe_read_bind (.refl projectId) fun s₁ found hs₁ hFound => ?_
  cases found with
  | none => trivial
  | some projectUser =>
      have hTarget : target ≠ projectId := by
        rintro rfl
        have hMember : memberOf s₁ target userId = some projectUser := Except.ok.inj hFound
        rw [hs₁.access.memberOf, hOutsider] at hMember
        cases hMember
      dsimp only
      rw [Prog.bind_assoc]
      refine safe_bind_outside (safe_reads (confined_getAccessMap _)) fun map s₂ hs₂ => ?_
      exact hk hTarget _ s₂ (hs₁.trans hs₂)

omit [Runtime] in
/-- A statement on tasks or subtasks, as the last step. -/
theorem safe_statement {f : Store → Except DbError (α × Store)} {g : α → β}
    (hf : ∀ s₁ a s₂, Outside projectId s s₁ → f s₁ = .ok (a, s₂) → Outside projectId s₁ s₂) :
    SafeOutside projectId (execute f >>= fun a => pure (g a)) s :=
  safe_bind_outside (safe_atomic (.refl projectId) fun s₁ a s₂ hs₁ hOk =>
    hf s₁ a s₂ hs₁ (execute_ok hOk)) fun _ _ _ => trivial

variable {viewer : Viewer}

theorem safe_createTask (h : Outsider projectId s viewer) (target : Id) (data : CreateTaskInput) :
    SafeOutside projectId (createTask target data (some viewer)) s := by
  unfold createTask authorizeCreateTask
  rw [nonAdmin_some h.role]
  refine safe_member_bind h.member fun hTarget context s₁ hs₁ => ?_
  refine safe_bind_outside (safe_reads ?_) fun defaults s₂ hs₂ => ?_
  · exact confined_bind (confined_orTypeError _) fun _ =>
      confined_bind (confined_throwIf _ _) fun _ => confined_pure _
  · refine safe_throwIf_bind fun _ => safe_statement fun s₃ row s₄ hs₃ hOk => ?_
    exact .of_createTask (fun _ => hTarget) (includeSubtasks_ok hOk)

/-- The task that was found belongs to the same project when it is written. -/
theorem safe_updateTask (h : Outsider projectId s viewer) (id : Id) (data : UpdateTaskInput) :
    SafeOutside projectId (updateTask id data (some viewer)) s := by
  unfold updateTask authorizeUpdateTask
  refine safe_read_bind (.refl projectId) fun s₁ task hs₁ hFound => ?_
  obtain ⟨hTask, hId⟩ := Model.findFirst_some (found_of_ok hFound)
  rw [nonAdmin_some h.role]
  refine safe_member_bind (h.keeps hs₁).member fun hProject context s₂ hs₂ => ?_
  refine safe_bind_outside (safe_reads ?_) fun _ s₃ hs₃ => ?_
  · refine confined_bind (confined_orTypeError _) fun _ => confined_bind (confined_orTypeError _) ?_
    exact fun _ => confined_bind (confined_throwIf _ _) fun _ =>
      confined_bind (confined_throwIf _ _) fun _ => confined_throwIf _ _
  · refine safe_throwIf_bind fun _ => safe_statement fun s₄ row s₅ hs₄ hOk => ?_
    have hForeign : Foreign projectId .task id s₄ := by
      rw [← beq_iff_eq.mp hId]
      exact (foreign_task hTask hProject).keeps ((hs₂.trans hs₃).trans hs₄).owners
    refine .of_updateTask hForeign ?_ (includeSubtasks_ok hOk)
    exact fun _ => ⟨rfl, .refl _⟩

theorem safe_removeTask (h : Outsider projectId s viewer) (id : Id) :
    SafeOutside projectId (removeTask id (some viewer)) s := by
  unfold removeTask authorizeRemoveTask
  refine safe_read_bind (.refl projectId) fun s₁ task hs₁ hFound => ?_
  obtain ⟨hTask, hId⟩ := Model.findFirst_some (found_of_ok hFound)
  rw [nonAdmin_some h.role]
  refine safe_member_bind (h.keeps hs₁).member fun hProject context s₂ hs₂ => ?_
  refine safe_bind_outside (safe_reads (confined_bind (confined_orTypeError _) fun _ =>
    confined_throwIf _ _)) fun _ s₃ hs₃ => ?_
  refine safe_statement fun s₄ row s₅ hs₄ hOk => .of_deleteTask ?_ hOk
  rw [← beq_iff_eq.mp hId]
  exact (foreign_task hTask hProject).keeps ((hs₂.trans hs₃).trans hs₄).owners

/-! ## Mutations behind the permission guard -/

omit [Runtime] in
/-- The project of the arguments is found without a read, or in a single one. -/
theorem resolveProjectId_cases (metadata : PermissionMetadata) (args : GuardArgs) :
    (∃ v, resolveProjectId metadata args = pure v) ∨
      ∃ f, resolveProjectId metadata args = Prog.read f := by
  unfold resolveProjectId
  split_ifs
  all_goals first
    | exact Or.inl ⟨_, rfl⟩
    | exact Or.inr ⟨_, rfl⟩

omit [Runtime] in
theorem safe_resolveProjectId_bind {metadata : PermissionMetadata} {args : GuardArgs}
    {k : Option Id → Service β} (hk : ∀ s₁, Outside projectId s s₁ →
      SafeOutside projectId (k (projectIdOf s₁ metadata args)) s₁) :
    SafeOutside projectId (resolveProjectId metadata args >>= k) s := by
  have hRun := fun s₁ => congrArg Prod.fst (resolveProjectId_run s₁ metadata args)
  rcases resolveProjectId_cases metadata args with ⟨v, hPure⟩ | ⟨f, hRead⟩
  · rw [hPure] at hRun ⊢
    have hValue : v = projectIdOf s metadata args := Except.ok.inj (hRun s)
    change SafeOutside projectId (k v) s
    rw [hValue]
    exact hk s (.refl projectId s)
  · rw [hRead] at hRun ⊢
    refine safe_read_bind (.refl projectId) fun s₁ found hs₁ hFound => ?_
    have hValue : found = projectIdOf s₁ metadata args :=
      Except.ok.inj (hFound.symm.trans (hRun s₁))
    rw [hValue]
    exact hk s₁ hs₁

/-- The guard passes outsiders for other projects only. -/
theorem safe_canActivateUser_bind {viewer : Viewer} {metadata : PermissionMetadata}
    {args : GuardArgs} {k : Bool → Service β} (h : Outsider projectId s viewer)
    (hk : ∀ s₁ target, Outside projectId s s₁ → projectIdOf s₁ metadata args = some target →
      target ≠ projectId → ∀ s₂ allowed, Outside projectId s₁ s₂ →
        SafeOutside projectId (k allowed) s₂) :
    SafeOutside projectId (canActivateUser viewer (some metadata) args >>= k) s := by
  unfold canActivateUser
  rw [if_neg h.role]
  simp only [Prog.bind_assoc]
  refine safe_resolveProjectId_bind fun s₁ hs₁ => safe_throwIf_bind fun hSet => ?_
  cases hProject : projectIdOf s₁ metadata args with
  | none =>
      rw [hProject] at hSet
      exact absurd rfl hSet
  | some target =>
      refine safe_read_bind (.refl projectId) fun s₂ found hs₂ hFound => ?_
      have hGuard : guardMember s₂ target viewer.userId metadata.resourceKey = found :=
        Except.ok.inj hFound
      cases found with
      | none => trivial
      | some member =>
          have hTarget : target ≠ projectId := by
            rintro rfl
            rw [guardMember_none _ (h.keeps (hs₁.trans hs₂)).member] at hGuard
            cases hGuard
          dsimp only
          cases member.evaluate metadata with
          | error e => trivial
          | ok allowed => exact hk s₁ target hs₁ hProject hTarget s₂ allowed hs₂

omit [Runtime] in
/-- The file of the work order is deleted first. -/
theorem safe_deleteWorkOrder {id : Id} (hForeign : Foreign projectId .workOrderPdf id s) :
    SafeOutside projectId (deleteWorkOrder id) s := by
  refine safe_read_bind (.refl projectId) fun s₁ wo hs₁ _ => ?_
  refine safe_bind_outside (safe_of_confined (confined_objects (List.mem_singleton_self _) _)
    (by decide) (by decide)) fun _ s₂ hs₂ => safe_statement fun s₃ row s₄ hs₃ hOk => ?_
  exact .of_deleteWorkOrder (hForeign.keeps ((hs₁.trans hs₂).trans hs₃).owners) hOk

omit [Runtime] in
theorem safe_createSubTask {taskId : Id} (hForeign : Foreign projectId .task taskId s)
    (data : CreateSubTaskInput) : SafeOutside projectId (createSubTask taskId data) s := by
  refine safe_throwIf_bind fun _ => safe_atomic (.refl projectId) fun s₁ row s₂ hs₁ hOk => ?_
  exact .of_createSubTask (hForeign.keeps hs₁.owners) (fun _ => rfl) (execute_ok hOk)

omit [Runtime] in
theorem safe_updateSubTask {id : Id} (hForeign : ForeignSubTask projectId id s)
    (data : UpdateTaskInput) : SafeOutside projectId (updateSubTask id data) s := by
  refine safe_read_bind (.refl projectId) fun s₁ subTask hs₁ _ => safe_throwIf_bind fun _ => ?_
  refine safe_atomic (.refl projectId) fun s₂ row s₃ hs₂ hOk => ?_
  refine .of_updateSubTask (hForeign.keeps (hs₁.trans hs₂)) ?_ (execute_ok hOk)
  exact fun _ => rfl

omit [Runtime] in
theorem safe_removeSubTask {id : Id} (hForeign : ForeignSubTask projectId id s) :
    SafeOutside projectId (removeSubTask id) s := by
  refine safe_read_bind (.refl projectId) fun s₁ subTask hs₁ _ => ?_
  exact safe_statement fun s₂ row s₃ hs₂ hOk =>
    .of_deleteSubTask (hForeign.keeps (hs₁.trans hs₂)) hOk

/-! ### The project that the guard has found is that of the row -/

omit [Runtime] in
theorem foreign_workOrderId {metadata : PermissionMetadata} {id target : Id}
    (hProject : projectIdOf s metadata { workOrderId := some id } = some target)
    (hTarget : target ≠ projectId) : Foreign projectId .workOrderPdf id s := by
  unfold projectIdOf at hProject
  split_ifs at hProject
  obtain ⟨wo, hFind, rfl⟩ := Option.map_eq_some_iff.mp hProject
  obtain ⟨hMem, hKey⟩ := Table.find_eq_some.mp hFind
  rw [← show Row.key wo = id from hKey]
  refine settled_of_mem (S := Store.schema) (e := Entity.workOrderPdf) hMem fun hOwner => ?_
  rcases List.mem_cons.mp hOwner with hSame | hAdmin
  · cases hSame
    exact hTarget rfl
  · cases List.mem_singleton.mp hAdmin

omit [Runtime] in
theorem foreign_taskId {metadata : PermissionMetadata} {taskId target : Id}
    (hProject : projectIdOf s metadata { taskId := some taskId } = some target)
    (hTarget : target ≠ projectId) : Foreign projectId .task taskId s := by
  unfold projectIdOf at hProject
  split_ifs at hProject
  obtain ⟨task, hFind, rfl⟩ := Option.map_eq_some_iff.mp hProject
  obtain ⟨hMem, hKey⟩ := Table.find_eq_some.mp hFind
  rw [← show Row.key task = taskId from hKey]
  exact foreign_task hMem hTarget

omit [Runtime] in
theorem foreign_subTaskId {action : Action} {id target : Id}
    (hProject : projectIdOf s ⟨"SUBTASK", action⟩ { id := some id } = some target)
    (hTarget : target ≠ projectId) : ForeignSubTask projectId id s := by
  unfold projectIdOf at hProject
  split_ifs at hProject with hNone hSet hDepartment hTask
  · exact absurd hDepartment (by simp)
  · exact absurd hTask (by simp)
  obtain ⟨subTask, hFind, hTaskOf⟩ := Option.bind_eq_some_iff.mp hProject
  obtain ⟨task, hFindTask, rfl⟩ := Option.map_eq_some_iff.mp hTaskOf
  obtain ⟨hMem, hKey⟩ := Table.find_eq_some.mp hFind
  obtain ⟨hTaskMem, hTaskKey⟩ := Table.find_eq_some.mp hFindTask
  refine ⟨subTask.taskId, ?_, ?_⟩
  · rw [← hTaskKey]
    exact foreign_task hTaskMem hTarget
  · rw [← show Row.key subTask = id from hKey]
    exact settled_of_mem (S := Store.schema) (e := Entity.subTask) hMem rfl

/-- The mutations behind the guard, with the guard in front of them. -/
theorem safe_guarded {viewer : Viewer} (h : Outsider projectId s viewer) {op : ServiceOp}
    {metadata : PermissionMetadata} {args : GuardArgs} {e : Exn}
    (hGuard : op.guard = some (metadata, args)) :
    SafeOutside projectId (canActivateUser viewer (some metadata) args >>= fun allowed =>
      Prog.throwIf (allowed = false) e >>= fun _ => op.prog >>= fun _ => pure ()) s := by
  have hEnd {p : Service Answer} {s : Store} (hp : SafeOutside projectId p s) :
      SafeOutside projectId (p >>= fun _ => pure ()) s :=
    safe_bind_outside hp fun _ _ _ => trivial
  refine safe_canActivateUser_bind h fun s₁ target hs₁ hProject hTarget s₂ allowed hs₂ =>
    safe_throwIf_bind fun _ => hEnd ?_
  cases op with
  | setFieldValue target fieldId value updatedAt =>
      have hConfined : Confined [.put .projectFieldValue]
          (ServiceOp.setFieldValue target fieldId value updatedAt).prog :=
        (ServiceOp.setFieldValue target fieldId value updatedAt).confined
      exact safe_of_confined hConfined (by decide) (by decide)
  | deleteWorkOrder id =>
      cases hGuard
      refine safe_bind_outside (safe_deleteWorkOrder ?_) fun _ _ _ => trivial
      exact (foreign_workOrderId hProject hTarget).keeps hs₂.owners
  | createSubTask taskId data =>
      cases hGuard
      refine safe_bind_outside (safe_createSubTask ?_ data) fun _ _ _ => trivial
      exact (foreign_taskId hProject hTarget).keeps hs₂.owners
  | updateSubTask id data =>
      cases hGuard
      refine safe_bind_outside (safe_updateSubTask ?_ data) fun _ _ _ => trivial
      exact (foreign_subTaskId hProject hTarget).keeps hs₂
  | removeSubTask id =>
      cases hGuard
      refine safe_bind_outside (safe_removeSubTask ?_) fun _ _ _ => trivial
      exact (foreign_subTaskId hProject hTarget).keeps hs₂
  | _ => cases hGuard

end Mutations

/-! ## Requests of outsiders -/

/-- The mutations of tasks are open to users, and check the membership themselves. -/
inductive ServiceOp.OnTask : ServiceOp → Prop
  | createTask (target data viewer) : OnTask (.createTask target data viewer)
  | updateTask (id data viewer) : OnTask (.updateTask id data viewer)
  | removeTask (id viewer) : OnTask (.removeTask id viewer)

/-- An operation is behind a guard for admins, or writes other tables, or its membership is
checked: by the mutation, or by the permission guard. -/
theorem Operation.contents_cases (op : Operation) (transport : Transport) :
    op.Closed transport ∨
      (op.writes ⊆ userWrites ∧ ∀ e ∈ [Entity.task, .subTask, .workOrderPdf],
        Spares Entity.Reach (· ∈ op.writes) e) ∨
      (∃ task : ServiceOp, task.OnTask ∧ op = .service task ∧
        op.exposure transport = .strategy GqlUserGuard.handleRequest) ∨
      ∃ guarded : ServiceOp, ∃ metadata args, guarded.guard = some (metadata, args) ∧
        op = .service guarded ∧ op.exposure transport = .permission metadata args := by
  cases op with
  | service op =>
      cases transport <;> cases op <;>
        first
        | exact Or.inl (Or.inl rfl)
        | exact Or.inl (Or.inr ⟨_, rfl⟩)
        | exact Or.inr (Or.inl ⟨of_decide_eq_true rfl, of_decide_eq_true rfl⟩)
        | exact Or.inr (Or.inr (Or.inl ⟨_, by constructor, rfl, rfl⟩))
        | exact Or.inr (Or.inr (Or.inr ⟨_, _, _, rfl, rfl, rfl⟩))
  | account op =>
      cases transport <;> cases op <;>
        first
        | exact Or.inl (Or.inl rfl)
        | exact Or.inl (Or.inr ⟨_, rfl⟩)
        | exact Or.inr (Or.inl ⟨of_decide_eq_true rfl, of_decide_eq_true rfl⟩)

theorem safe_onTask [Runtime] {projectId : Id} {s : Store} {user : RequestUser}
    (h : Outsider projectId s user.viewer) {op : ServiceOp} (hOp : op.OnTask) :
    SafeOutside projectId (op.calledBy user).prog s := by
  cases hOp with
  | createTask target data =>
      exact safe_bind_outside (safe_createTask h target data) fun _ _ _ => trivial
  | updateTask id data =>
      exact safe_bind_outside (safe_updateTask h id data) fun _ _ _ => trivial
  | removeTask id => exact safe_bind_outside (safe_removeTask h id) fun _ _ _ => trivial

theorem onStore_bind {α β : Type} (p : Service α) (f : α → Service β) :
    onStore (p >>= f) = onStore p >>= fun a => onStore (f a) :=
  within_bind p f

theorem onStore_throwIf (c : Prop) [Decidable c] (e : Exn) :
    onStore (Prog.throwIf c e : Service Unit) = Prog.throwIf c e := by
  unfold Prog.throwIf
  split <;> rfl

/-- A step of a service is a step of the server. -/
theorem safe_onStore {projectId : Id} {s : Server} {α : Type} {p : Service α}
    (hp : SafeOutside projectId p s.store) : Safe (fun s s' => Outside projectId s.store s'.store)
      (fun s s' => Outside projectId s.store s'.store) (onStore p) s :=
  safe_within (fun _ _ => rfl) hp

section Requests

variable [Runtime] [PasswordRuntime] [TokenRuntime] [DecodeRuntime]
  [PassportRuntime]

theorem Request.safe_outsider {projectId : Id} (r : Request) (s : Server)
    (hCallers : ∀ payload, Bears r.authHeader payload →
      Outsider projectId s.store ⟨payload.sub, some payload.role⟩) :
    Safe (fun s s' => Outside projectId s.store s'.store)
      (fun s s' => Outside projectId s.store s'.store) r.handle s := by
  have hRefl (s : Server) : Outside projectId s.store s.store := .refl projectId s.store
  have hUser : ∀ payload, Bears r.authHeader payload → payload.role ≠ "admin" :=
    fun payload hBears hAdmin => (hCallers payload hBears).role (congrArg some hAdmin)
  rcases r.op.contents_cases r.transport with
    hClosed | ⟨hWrites, hSpares⟩ | ⟨op, hTask, hOp, hStrategy⟩ |
    ⟨op, metadata, args, hGuard, hOp, hPermission⟩
  · exact Request.safe_closed hRefl hClosed hUser s
  · exact (r.confined s).of_any fun _ _ hStatement => .of_frame hStatement hWrites hSpares
  · unfold Request.handle
    rw [hStrategy, hOp]
    refine safe_read_bind hRefl fun s₁ user hs₁ hOk => ?_
    obtain ⟨payload, hBears, hId, hRole, -⟩ := bears_of_strategy hOk
    have hViewer : user.viewer = ⟨payload.sub, some payload.role⟩ := by
      rw [RequestUser.viewer, hId, hRole]
    have hOutsider : Outsider projectId s₁.store user.viewer := by
      rw [hViewer]
      exact (hCallers payload hBears).keeps hs₁
    exact safe_onStore (safe_bind_outside (safe_onTask hOutsider hTask) fun _ _ _ => trivial)
  · unfold Request.handle
    rw [hPermission, hOp]
    refine safe_permission_bind hRefl fun payload hBears s₁ hs₁ => ?_
    have hSafe := safe_onStore (safe_guarded (e := .forbidden "Forbidden resource")
      ((hCallers payload hBears).keeps hs₁) hGuard)
    simpa only [Operation.prog, onStore_bind, onStore_throwIf] using hSafe

/-- **Outsiders change nothing**: when no caller is an admin or a member of the project, its tasks,
their subtasks and its work orders stay as they are, in every interleaving of the requests. -/
theorem outsiders_change_nothing {ι : Type} [DecidableEq ι] {requests : ι → Request}
    {s s' : Server} {projectId : Id} (hServed : Served requests s s')
    (hCallers : ∀ i payload, Bears (requests i).authHeader payload →
      payload.role ≠ "admin" ∧ memberOf s.store projectId payload.sub = none) :
    Untouched projectId s.store s'.store := by
  have hOutside : Outside projectId s.store s'.store :=
    hServed.relates (.refl projectId) (fun _ _ _ h h' => h.trans h') fun i =>
      (requests i).safe_outsider s fun payload hBears => by
        obtain ⟨hRole, hMember⟩ := hCallers i payload hBears
        exact ⟨fun hAdmin => hRole (Option.some.inj hAdmin), hMember⟩
  exact hOutside.untouched

end Requests

section Site

attribute [local instance] asciiRuntime siteTokens plainPassport saltedHashes benDecode

/-- The second project has a task with a subtask. -/
def tunnel : Store :=
  { neighbours with
    task := Table.empty.insert (fun id =>
      { id, projectId := 2, departmentId := none, title := "Drill", description := none
        status := "pending", type := "basic", formSchema := none, submissionData := none
        assignedTo := none }) fun _ => rfl
    subTask := Table.empty.insert (fun id =>
      { id, taskId := 1, title := "Measure", description := none, status := "pending"
        type := "basic", formSchema := none, submissionData := none, assignedTo := none })
      fun _ => rfl }

/-- The member of the first project removes the task of the second, and adds a subtask to it. -/
def strayRequests : Bool → Request
  | true => ⟨some "Bearer a", .graphql, .service (.removeTask 1 none)⟩
  | false => ⟨some "Bearer a", .graphql, .service (.createSubTask 1 { title := "Pump" })⟩

theorem outsiders_change_nothing_tunnel : Untouched 2 tunnel (serve strayRequests ⟨tunnel, [], 0⟩
    [true, false, true, false, true, false, true, false, true, false]).store := by
  refine outsiders_change_nothing (served_serve _ ⟨tunnel, [], 0⟩ _) fun i payload hBears => ?_
  have hHeader : (strayRequests i).authHeader = some "Bearer a" := by cases i <;> rfl
  rw [hHeader] at hBears
  rw [bears_member hBears]
  exact ⟨by decide, rfl⟩

end Site

end Rooeel
