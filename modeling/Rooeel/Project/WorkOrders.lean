import Rooeel.Project.ServiceOp

/-!
# Work orders and the files in the bucket

An uploaded work order is a row with the key of an object in the storage bucket. The row and
the object are written by two steps, and deleted by two: `deleteWorkOrder` deletes the object
and then the row.

Rows also go when a project or an admin is removed, by the referential actions of the schema,
and no object goes with them. So rows and objects correspond in all runs in which no such
removal takes a work order with it (`work_orders_stored`), and a removal that does leaves an
object behind that no row names.
-/

namespace Rooeel

open JavaScript Prog Table

/-! ## Operations -/

/-- The operations that create or delete work orders. -/
inductive FileOp where
  | uploadWorkOrder (projectId adminId : Id) (file : Upload)
  | deleteWorkOrder (workOrderId : Id)
  | removeProject (id : Id)
  | removeAdmin (id : Id)

namespace FileOp

def serviceOp : FileOp → ServiceOp
  | .uploadWorkOrder projectId adminId file => .uploadWorkOrder projectId adminId file
  | .deleteWorkOrder workOrderId => .deleteWorkOrder workOrderId
  | .removeProject id => .removeProject id
  | .removeAdmin id => .removeAdmin id

def prog [Runtime] (op : FileOp) : Service Answer := op.serviceOp.prog

/-- The key of an upload is new. -/
def Fresh (s : Store) : FileOp → Prop
  | .uploadWorkOrder _ _ file =>
      file.fileKey ∉ s.objects ∧ ∀ r ∈ s.workOrderPdf.rows, r.fileKey ≠ file.fileKey
  | _ => True

/-- No work order is deleted with a project or an admin. -/
def TakesNoFile (s : Store) : FileOp → Prop
  | .removeProject id => ∀ r ∈ s.workOrderPdf.rows, r.projectId ≠ id
  | .removeAdmin id => ∀ r ∈ s.workOrderPdf.rows, r.uploadedBy ≠ id ∧
      ∀ project ∈ s.project.rows, project.id = r.projectId → project.createdBy ≠ id
  | _ => True

end FileOp

/-- The objects are those that the rows name, each of them once. -/
structure Corresponds (s : Store) : Prop where
  stored : ∀ key, key ∈ s.objects ↔ ∃ r ∈ s.workOrderPdf.rows, r.fileKey = key
  distinct : (s.workOrderPdf.rows.map WorkOrderPdf.fileKey).Nodup

/-- A call that succeeds, or a step of another part of the program, which leaves work orders
and objects alone. -/
inductive FileStep [Runtime] (allowed : Store → FileOp → Prop) (s s' : Store) : Prop
  | call (op : FileOp) (answer : Answer) (hFresh : op.Fresh s) (hAllowed : allowed s op)
      (hRun : op.prog.run s = (.ok answer, s'))
  | other (hOrders : s'.workOrderPdf = s.workOrderPdf) (hObjects : s'.objects = s.objects)

/-- Rows and objects correspond in all runs that begin with a store in which they do. -/
def KeepsFiles [Runtime] (allowed : Store → FileOp → Prop) (s₀ : Store) : Prop :=
  Corresponds s₀ → ∀ s, Relation.ReflTransGen (FileStep allowed) s₀ s → Corresponds s

/-! ## What an operation keeps -/

section Steps

variable {s s' : Store}

/-- The work orders and the objects are the same. -/
structure SameFiles (s s' : Store) : Prop where
  orders : s'.workOrderPdf.rows = s.workOrderPdf.rows
  objects : s'.objects = s.objects

theorem SameFiles.trans {s'' : Store} (h : SameFiles s s') (h' : SameFiles s' s'') :
    SameFiles s s'' :=
  ⟨h'.orders.trans h.orders, h'.objects.trans h.objects⟩

theorem Corresponds.of_same (h : Corresponds s) (hSame : SameFiles s s') : Corresponds s' where
  stored := by
    rw [hSame.orders, hSame.objects]
    exact h.stored
  distinct := by
    rw [hSame.orders]
    exact h.distinct

/-- A new object and its row. -/
theorem Corresponds.upload (h : Corresponds s) {mk : Id → WorkOrderPdf}
    (hmk : ∀ k, Row.key (mk k) = k) {key : String} (hKey : ∀ k, (mk k).fileKey = key)
    (hFresh : ∀ r ∈ s.workOrderPdf.rows, r.fileKey ≠ key) :
    Corresponds { s with
      objects := s.objects ++ [key], workOrderPdf := s.workOrderPdf.insert mk hmk } where
  stored := by
    intro k
    rw [List.mem_append, List.mem_singleton, h.stored]
    constructor
    · rintro (⟨r, hr, rfl⟩ | rfl)
      · exact ⟨r, List.mem_append_left _ hr, rfl⟩
      · exact ⟨_, List.mem_append_right _ (List.mem_singleton_self _), hKey _⟩
    · rintro ⟨r, hr, rfl⟩
      rcases List.mem_append.mp hr with hOld | hNew
      · exact Or.inl ⟨r, hOld, rfl⟩
      · rw [List.mem_singleton.mp hNew]
        exact Or.inr (hKey _)
  distinct := by
    rw [rows_insert, List.map_append, List.map_singleton, hKey, List.nodup_append]
    refine ⟨h.distinct, List.nodup_singleton _, fun k hOld k' hNew => ?_⟩
    obtain ⟨r, hr, rfl⟩ := List.mem_map.mp hOld
    rw [List.mem_singleton.mp hNew]
    exact hFresh r hr

/-- An object and its row go together. -/
theorem Corresponds.delete (h : Corresponds s) {wo : WorkOrderPdf}
    (hMem : wo ∈ s.workOrderPdf.rows) :
    Corresponds { s with
      objects := s.objects.filter fun k => k != wo.fileKey
      workOrderPdf := s.workOrderPdf.erase fun r => Row.key r == Row.key wo } where
  stored := by
    intro k
    rw [List.mem_filter, h.stored, bne_iff_ne]
    constructor
    · rintro ⟨⟨r, hr, rfl⟩, hNe⟩
      refine ⟨r, mem_erase.mpr ⟨hr, beq_eq_false_iff_ne.mpr fun hSame => hNe ?_⟩, rfl⟩
      rw [s.workOrderPdf.key_inj hr hMem hSame]
    · rintro ⟨r, hr, rfl⟩
      obtain ⟨hOld, hOther⟩ := mem_erase.mp hr
      refine ⟨⟨r, hOld, rfl⟩, fun hSame => beq_eq_false_iff_ne.mp hOther ?_⟩
      rw [List.inj_on_of_nodup_map h.distinct hOld hMem hSame]
  distinct := (List.filter_sublist.map _).nodup h.distinct

/-! ### Deletions that take no work order -/

theorem sameFiles_eraseWorkOrders {p : WorkOrderPdf → Bool} (s : Store)
    (h : ∀ r ∈ s.workOrderPdf.rows, p r = false) : SameFiles s (eraseWorkOrders p s) :=
  ⟨List.filter_eq_self.mpr fun r hr => by rw [h r hr, Bool.not_false], rfl⟩

theorem sameFiles_eraseTasks (p : Task → Bool) (s : Store) : SameFiles s (eraseTasks p s) :=
  ⟨rfl, rfl⟩

theorem sameFiles_eraseFields (p : ProjectField → Bool) (s : Store) :
    SameFiles s (eraseFields p s) :=
  ⟨rfl, rfl⟩

theorem sameFiles_eraseDepartments (p : Department → Bool) (s : Store) :
    SameFiles s (eraseDepartments p s) :=
  ⟨rfl, rfl⟩

theorem sameFiles_eraseProjectRoles (p : ProjectRole → Bool) (s : Store) :
    SameFiles s (eraseProjectRoles p s) :=
  ⟨rfl, rfl⟩

theorem sameFiles_eraseProjects {p : Project → Bool} (s : Store)
    (h : ∀ r ∈ s.workOrderPdf.rows, (keysOf s.project p).contains r.projectId = false) :
    SameFiles s (eraseProjects p s) := by
  let gone := keysOf s.project p
  have hUsers : SameFiles s (eraseProjectUsers (fun r => gone.contains r.projectId) s) := ⟨rfl, rfl⟩
  have hTasks := hUsers.trans (sameFiles_eraseTasks (fun r => gone.contains r.projectId) _)
  have hFields := hTasks.trans (sameFiles_eraseFields (fun r => gone.contains r.projectId) _)
  have hValues : SameFiles s (eraseFieldValues (fun r => gone.contains r.projectId) _) :=
    hFields.trans ⟨rfl, rfl⟩
  have hOrders := hValues.trans (sameFiles_eraseWorkOrders _ (hValues.orders.symm ▸ h))
  have hDepartments :=
    hOrders.trans (sameFiles_eraseDepartments (fun r => gone.contains r.projectId) _)
  have hRoles :=
    hDepartments.trans (sameFiles_eraseProjectRoles (fun r => gone.contains r.projectId) _)
  exact hRoles.trans ⟨rfl, rfl⟩

theorem sameFiles_eraseAdmins {p : Admin → Bool} (s : Store)
    (hUploaded : ∀ r ∈ s.workOrderPdf.rows, (keysOf s.admin p).contains r.uploadedBy = false)
    (hProjects : ∀ r ∈ s.workOrderPdf.rows, (keysOf s.project fun project =>
      (keysOf s.admin p).contains project.createdBy).contains r.projectId = false) :
    SameFiles s (eraseAdmins p s) := by
  let gone := keysOf s.admin p
  have hRequests : SameFiles s (eraseUserRequests (fun r => gone.contains r.adminId) s) :=
    ⟨rfl, rfl⟩
  have hErased := hRequests.trans
    (sameFiles_eraseProjects (eraseUserRequests (fun r => gone.contains r.adminId) s) hProjects)
  have hOrders := hErased.trans
    (sameFiles_eraseWorkOrders _ (hErased.orders.symm ▸ hUploaded))
  exact hOrders.trans ⟨rfl, rfl⟩

/-- The key of the one row that is removed. -/
theorem keysOf_key {ρ : Type} [Row ρ] {t : Table ρ} {k k' : Id}
    (h : (keysOf t fun r => Row.key r == k).contains k' = true) : k' = k := by
  obtain ⟨r, -, hRow, rfl⟩ := keysOf_contains.mp h
  exact beq_iff_eq.mp hRow

/-! ### Calls that succeed -/

variable [Runtime]

theorem findOne_run_state {id : Id} {project : ProjectResponse}
    (hRun : (findOne id).run s = (.ok project, s')) : s' = s := by
  unfold findOne at hRun
  rw [query_bind_run] at hRun
  cases hFind : (prisma.project.findFirst (fun r => r.id == id) s).map (loadProject s) with
  | none => rw [hFind] at hRun; cases hRun
  | some view =>
      rw [hFind] at hRun
      cases hRun
      rfl

theorem uploadWorkOrder_corresponds (h : Corresponds s) {projectId adminId : Id} {file : Upload}
    (hFresh : ∀ r ∈ s.workOrderPdf.rows, r.fileKey ≠ file.fileKey) {row : WorkOrderPdf}
    (hRun : (uploadWorkOrder projectId adminId file).run s = (.ok row, s')) : Corresponds s' := by
  obtain ⟨project, s₁, hFind, hRest⟩ := of_run_bind_ok hRun
  obtain rfl := findOne_run_state hFind
  obtain ⟨_, s₂, hStore, hCreate⟩ := of_run_bind_ok hRest
  have hObject := of_execute_run hStore
  cases hObject
  obtain ⟨-, -, rfl⟩ := Model.create_ok (of_execute_run hCreate)
  exact h.upload _ (fun _ => rfl) hFresh

omit [Runtime] in
theorem deleteWorkOrder_corresponds (h : Corresponds s) {workOrderId : Id} {done : Bool}
    (hRun : (deleteWorkOrder workOrderId).run s = (.ok done, s')) : Corresponds s' := by
  obtain ⟨wo, s₁, hFind, hRest⟩ := of_run_bind_ok hRun
  obtain ⟨rfl, hFound⟩ := (wp_of_run hFind).mp
    (reads_findUniqueOrThrow prisma.workOrderPdf workOrderId)
  obtain ⟨hMem, hId⟩ := Model.findFirst_some hFound
  obtain ⟨_, s₂, hObject, hDelete⟩ := of_run_bind_ok hRest
  have hDeleted := of_execute_run hObject
  cases hDeleted
  obtain ⟨row, s₃, hRow, hDone⟩ := of_run_bind_ok hDelete
  cases hDone
  obtain ⟨hRowMem, hRowId, rfl⟩ := Model.delete_ok (of_execute_run hRow)
  obtain rfl : row = wo := s₁.workOrderPdf.key_inj hRowMem hMem
    ((beq_iff_eq.mp hRowId).trans (beq_iff_eq.mp hId).symm)
  exact h.delete hMem

theorem removeProject_corresponds (h : Corresponds s) {id : Id}
    (hNone : ∀ r ∈ s.workOrderPdf.rows, r.projectId ≠ id) {project : Project}
    (hRun : (removeProject id).run s = (.ok project, s')) : Corresponds s' := by
  obtain ⟨found, s₁, hFind, hDelete⟩ := of_run_bind_ok hRun
  obtain rfl := findOne_run_state hFind
  obtain ⟨-, hId, rfl⟩ := Model.delete_ok (of_execute_run hDelete)
  refine h.of_same (sameFiles_eraseProjects s₁ fun r hr => ?_)
  by_contra hGone
  exact hNone r hr ((keysOf_key (Bool.not_eq_false _ ▸ hGone)).trans (beq_iff_eq.mp hId))

omit [Runtime] in
theorem removeAdmin_corresponds (h : Corresponds s) {id : Id}
    (hNone : ∀ r ∈ s.workOrderPdf.rows, r.uploadedBy ≠ id ∧
      ∀ project ∈ s.project.rows, project.id = r.projectId → project.createdBy ≠ id)
    (hRun : (removeAdmin id).run s = (.ok (), s')) : Corresponds s' := by
  obtain ⟨found, s₁, hFind, hRest⟩ := of_run_bind_ok hRun
  cases hFind
  obtain ⟨_, s₂, hCheck, hDelete⟩ := of_run_bind_ok hRest
  rw [run_throwIf] at hCheck
  split at hCheck
  · cases hCheck
  · cases hCheck
    obtain ⟨admin, s₃, hAdmin, hDone⟩ := of_run_bind_ok hDelete
    cases hDone
    obtain ⟨-, hId, rfl⟩ := Model.delete_ok (of_execute_run hAdmin)
    have hAdminKey {k : Id}
        (hGone : (keysOf s.admin fun x => Row.key x == Row.key admin).contains k = true) :
        k = id :=
      (keysOf_key hGone).trans (beq_iff_eq.mp hId)
    refine h.of_same (sameFiles_eraseAdmins s (fun r hr => ?_) fun r hr => ?_)
    · exact Bool.eq_false_iff.mpr fun hGone => (hNone r hr).1 (hAdminKey hGone)
    · refine Bool.eq_false_iff.mpr fun hGone => ?_
      obtain ⟨project, hMem, hCreated, hKey⟩ := keysOf_contains.mp hGone
      exact (hNone r hr).2 project hMem hKey (hAdminKey hCreated)

/-- One step of a run. -/
theorem Corresponds.step (h : Corresponds s) (hStep : FileStep FileOp.TakesNoFile s s') :
    Corresponds s' := by
  cases hStep with
  | other hOrders hObjects => exact h.of_same ⟨congrArg Table.rows hOrders, hObjects⟩
  | call op answer hFresh hAllowed hRun =>
      cases op with
      | uploadWorkOrder projectId adminId file =>
          obtain ⟨row, s₁, hUpload, hDone⟩ := of_run_bind_ok hRun
          cases hDone
          exact uploadWorkOrder_corresponds h hFresh.2 hUpload
      | deleteWorkOrder workOrderId =>
          obtain ⟨done, s₁, hDelete, hDone⟩ := of_run_bind_ok hRun
          cases hDone
          exact deleteWorkOrder_corresponds h hDelete
      | removeProject id =>
          obtain ⟨project, s₁, hRemove, hDone⟩ := of_run_bind_ok hRun
          cases hDone
          exact removeProject_corresponds h hAllowed hRemove
      | removeAdmin id =>
          obtain ⟨_, s₁, hRemove, hDone⟩ := of_run_bind_ok hRun
          cases hDone
          exact removeAdmin_corresponds h hAllowed hRemove

end Steps

/-! ## All runs -/

/-- **Files and rows correspond**, in all runs of calls that succeed in which no project or
admin is removed with a work order. -/
theorem work_orders_stored [Runtime] (s₀ : Store) : KeepsFiles FileOp.TakesNoFile s₀ := by
  intro hStart s hReach
  induction hReach with
  | refl => exact hStart
  | tail _ hStep ih => exact ih.step hStep

section Site

attribute [local instance] asciiRuntime

/-- A work order of the bridge. -/
def sheet : Upload := ⟨"work-orders/1.pdf", "sheet.pdf", none, "2026-01-01"⟩

theorem site_corresponds : Corresponds site where
  stored := by
    intro key
    exact iff_of_false List.not_mem_nil fun ⟨_, hr, _⟩ => List.not_mem_nil hr
  distinct := List.nodup_nil

/-- The project is removed with its work order; the file stays. -/
theorem work_order_file_stays : ¬ KeepsFiles (fun _ _ => True) site := by
  intro h
  have hUpload : FileStep (fun _ _ => True) site
      ((FileOp.uploadWorkOrder 1 1 sheet).prog.run site).2 :=
    .call (.uploadWorkOrder 1 1 sheet) .other ⟨by decide, fun _ hr => nomatch hr⟩ trivial rfl
  have hRemove : FileStep (fun _ _ => True) ((FileOp.uploadWorkOrder 1 1 sheet).prog.run site).2
      ((FileOp.removeProject 1).prog.run ((FileOp.uploadWorkOrder 1 1 sheet).prog.run site).2).2 :=
    .call (.removeProject 1) .other trivial trivial rfl
  have hAfter := h site_corresponds _ (.tail (.single hUpload) hRemove)
  obtain ⟨r, hr, -⟩ := (hAfter.stored "work-orders/1.pdf").mp (by decide)
  exact List.not_mem_nil hr

/-- The store after the operations of a list, one after the other. -/
def playFiles (s : Store) (ops : List FileOp) : Store :=
  ops.foldl (fun s op => (op.prog.run s).2) s

/-- The work order is deleted before the project is removed: nothing is left. -/
theorem work_orders_stored_site :
    (playFiles site [.uploadWorkOrder 1 1 sheet]).objects = ["work-orders/1.pdf"] ∧
      (playFiles site
        [.uploadWorkOrder 1 1 sheet, .deleteWorkOrder 1, .removeProject 1]).objects = [] ∧
      Corresponds (playFiles site
        [.uploadWorkOrder 1 1 sheet, .deleteWorkOrder 1, .removeProject 1]) := by
  have hUpload : FileStep FileOp.TakesNoFile site
      (playFiles site [.uploadWorkOrder 1 1 sheet]) :=
    .call (.uploadWorkOrder 1 1 sheet) .other ⟨by decide, fun _ hr => nomatch hr⟩ trivial rfl
  have hDelete : FileStep FileOp.TakesNoFile (playFiles site [.uploadWorkOrder 1 1 sheet])
      (playFiles site [.uploadWorkOrder 1 1 sheet, .deleteWorkOrder 1]) :=
    .call (.deleteWorkOrder 1) .other trivial trivial rfl
  have hRemove : FileStep FileOp.TakesNoFile
      (playFiles site [.uploadWorkOrder 1 1 sheet, .deleteWorkOrder 1])
      (playFiles site [.uploadWorkOrder 1 1 sheet, .deleteWorkOrder 1, .removeProject 1]) :=
    .call (.removeProject 1) .other trivial (fun _ hr => nomatch hr) rfl
  exact ⟨by decide, by decide, work_orders_stored site site_corresponds _
    (.tail (.tail (.single hUpload) hDelete) hRemove)⟩

end Site

end Rooeel
