import Rooeel.Project.PresignedUrl
import Rooeel.Project.WorkOrders

/-!
# Work orders when a step fails

The two operations on work orders change the database and the bucket, one after the other.
`uploadWorkOrder` stores the file before the row, so a failure leaves at most a file without a
row. `deleteWorkOrder` deletes the file before the row, and a failure in between leaves the row
without its file: `files_stored_iff` says from which stores and for which failing step every row
still has its file.
-/

namespace Rooeel

open JavaScript Prog Table

/-- Every work order has its file. -/
def FilesStored (s : Store) : Prop := ∀ r ∈ s.workOrderPdf.rows, r.fileKey ∈ s.objects

section Code

variable [Runtime] [StorageRuntime]

/-! ## The operations with all their steps -/

def presignAll : List WorkOrderPdf → Service (List String)
  | [] => pure []
  | wo :: rest => do
    let fileUrl ← getPresignedUrl wo.fileKey (some wo.fileName)
    let urls ← presignAll rest
    pure (fileUrl :: urls)

/-- The row that `uploadWorkOrder` creates. -/
def uploadedRow (projectId adminId : Id) (file : Upload) (id : Id) : WorkOrderPdf where
  id := id
  projectId := projectId
  fileKey := file.fileKey
  fileName := displayName file.name file.originalname file.datePart
  uploadedBy := adminId

/-- `uploadWorkOrder` with the steps that only sign URLs. -/
def uploadWorkOrderWithUrl (projectId adminId : Id) (file : Upload) :
    Service (WorkOrderPdf × String) := do
  let project ← findOne projectId
  let _urls ← presignAll project.workOrders
  storeObject file.fileKey
  let workOrder ← create prisma.workOrderPdf (uploadedRow projectId adminId file)
  let fileUrl ← getPresignedUrl file.fileKey (some workOrder.fileName)
  pure (workOrder, fileUrl)

/-- A call of one of the operations. -/
inductive WorkOrderCall where
  | upload (projectId adminId : Id) (file : Upload)
  | delete (workOrderId : Id)

namespace WorkOrderCall

def prog : WorkOrderCall → Service Unit
  | .upload projectId adminId file =>
      uploadWorkOrderWithUrl projectId adminId file >>= fun _ => pure ()
  | .delete workOrderId => deleteWorkOrder workOrderId >>= fun _ => pure ()

/-- The store after a call of which the step after the first `k` fails. -/
def after (call : WorkOrderCall) (k : Nat) (e : Exn) (s : Store) : Store :=
  (call.prog.runWith (failingAt k e) s).2

omit [Runtime] [StorageRuntime] in
/-- A deletion stops before it deletes the file, or it also deletes the row, and no other row has
the file. -/
def Harmless (k : Nat) (s : Store) : WorkOrderCall → Prop
  | .upload _ _ _ => True
  | .delete workOrderId => ∀ wo ∈ s.workOrderPdf.rows, wo.id = workOrderId →
      k < 2 ∨ k ≠ 2 ∧ ∀ r ∈ s.workOrderPdf.rows, r.fileKey = wo.fileKey → r = wo

end WorkOrderCall

/-! ## Uploads -/

/-- Every step of the program leaves the files stored, if nothing else changes the store. -/
def StepsKeepFiles {α : Type} (p : Service α) (s : Store) : Prop :=
  Safe (· = ·) (fun a b => FilesStored a → FilesStored b) p s

omit [Runtime] in
theorem keepsFiles_presign (fileKey : String) (fileName : Option String) (s : Store) :
    StepsKeepFiles (getPresignedUrl fileKey fileName) s :=
  guarantees_read (fun _ h => h) _ s

omit [Runtime] in
theorem keepsFiles_presignAll (orders : List WorkOrderPdf) (s : Store) :
    StepsKeepFiles (presignAll orders) s := by
  induction orders generalizing s with
  | nil => exact guarantees_pure _ s
  | cons wo rest ih =>
      refine guarantees_bind (keepsFiles_presign _ _) (fun _ => ?_) s
      exact guarantees_bind ih fun _ => guarantees_pure _

omit [StorageRuntime] in
theorem keepsFiles_findOne (id : Id) (s : Store) : StepsKeepFiles (findOne id) s := by
  refine guarantees_bind (guarantees_read (fun _ h => h) _) (fun found => ?_) s
  cases found with
  | none => exact guarantees_throw _
  | some view => exact guarantees_pure _

theorem keepsFiles_upload (projectId adminId : Id) (file : Upload) (s : Store) :
    StepsKeepFiles (uploadWorkOrderWithUrl projectId adminId file) s := by
  refine guarantees_bind (keepsFiles_findOne projectId) (fun project => ?_) s
  refine guarantees_bind (keepsFiles_presignAll _) fun _ s => ?_
  refine safe_atomic_bind (fun _ h => h) fun s₁ _ s₂ _ hStore => ?_
  cases hStore
  refine ⟨fun hFiles r hr => List.mem_append_left _ (hFiles r hr), ?_⟩
  -- the row is written to a store that has its file
  refine safe_atomic_bind (fun _ h => h) ?_
  rintro _ workOrder s₃ rfl hCreate
  obtain ⟨rfl, -, rfl⟩ := Model.create_ok (execute_ok hCreate)
  refine ⟨fun hFiles r hr => ?_, ?_⟩
  · rcases List.mem_append.mp hr with hOld | hNew
    · exact hFiles r hOld
    · rw [List.mem_singleton.mp hNew]
      exact List.mem_append_right _ (List.mem_singleton_self _)
  · exact guarantees_bind (keepsFiles_presign _ _) (fun _ => guarantees_pure _) _

theorem filesStored_upload {s : Store} (hFiles : FilesStored s) (projectId adminId : Id)
    (file : Upload) (k : Nat) (e : Exn) :
    FilesStored ((WorkOrderCall.upload projectId adminId file).after k e s) := by
  have hSteps : StepsKeepFiles (WorkOrderCall.upload projectId adminId file).prog s :=
    safe_bind (keepsFiles_upload projectId adminId file s) fun _ => guarantees_pure _
  have hReach := safe_runWith (fun _ => rfl) hSteps (failingAt k e)
  unfold WorkOrderCall.after
  generalize (runWith _ _ s).2 = s' at hReach
  induction hReach with
  | refl => exact hFiles
  | tail _ hStep ih => exact hStep ih

/-! ## Deletions -/

omit [Runtime] [StorageRuntime] in
/-- The store without the file. -/
def withoutFile (fileKey : String) (s : Store) : Store :=
  { s with objects := s.objects.filter fun k => k != fileKey }

/-- The store without the file and the row. -/
def withoutWorkOrder (wo : WorkOrderPdf) (s : Store) : Store :=
  { withoutFile wo.fileKey s with
    workOrderPdf := s.workOrderPdf.erase fun r => Row.key r == Row.key wo }

theorem prog_delete (workOrderId : Id) :
    (WorkOrderCall.delete workOrderId).prog =
      findUniqueOrThrow prisma.workOrderPdf workOrderId >>= fun wo =>
        deleteFile wo.fileKey >>= fun _ =>
          delete prisma.workOrderPdf (fun r => r.id == workOrderId) >>= fun _ => pure () := by
  unfold WorkOrderCall.prog deleteWorkOrder
  simp only [Prog.bind_assoc]
  rfl

theorem delete_unknown {s : Store} {workOrderId : Id}
    (hNone : s.workOrderPdf.find workOrderId = none) (k : Nat) (e : Exn) :
    (WorkOrderCall.delete workOrderId).after k e s = s := by
  unfold WorkOrderCall.after
  rw [prog_delete, findUniqueOrThrow]
  cases k with
  | zero => rfl
  | succ k =>
      have hFirst : prisma.workOrderPdf.findFirst (fun r => Row.key r == workOrderId) s = none :=
        hNone
      rw [failingAt_succ, runWith_read_error]
      rw [hFirst]

/-- The deletion behind a lookup that found the work order. -/
theorem runWith_found {s : Store} {wo : WorkOrderPdf} {workOrderId : Id}
    (hFind : s.workOrderPdf.find workOrderId = some wo) (faults : List (Option Exn)) :
    (WorkOrderCall.delete workOrderId).prog.runWith (none :: faults) s =
      (deleteFile wo.fileKey >>= fun _ =>
        delete prisma.workOrderPdf (fun r => r.id == workOrderId) >>= fun _ =>
          pure ()).runWith faults s := by
  have hFirst : prisma.workOrderPdf.findFirst (fun r => Row.key r == workOrderId) s = some wo :=
    hFind
  rw [prog_delete, findUniqueOrThrow, runWith_read_ok]
  rw [hFirst]

omit [Runtime] [StorageRuntime] in
theorem delete_withoutFile {s : Store} {wo : WorkOrderPdf} {workOrderId : Id}
    (hFind : s.workOrderPdf.find workOrderId = some wo) :
    prisma.workOrderPdf.delete (fun r => r.id == workOrderId) (withoutFile wo.fileKey s) =
      .ok (wo, withoutWorkOrder wo s) := by
  have hFirst : prisma.workOrderPdf.findFirst (fun r => r.id == workOrderId)
      (withoutFile wo.fileKey s) = some wo := hFind
  unfold Model.delete
  rw [hFirst]
  rfl

theorem delete_found {s : Store} {wo : WorkOrderPdf} {workOrderId : Id}
    (hFind : s.workOrderPdf.find workOrderId = some wo) (k : Nat) (e : Exn) :
    (WorkOrderCall.delete workOrderId).after k e s =
      if k < 2 then s else if k = 2 then withoutFile wo.fileKey s else withoutWorkOrder wo s := by
  have hFile (faults : List (Option Exn)) :
      (WorkOrderCall.delete workOrderId).prog.runWith (none :: none :: faults) s =
        (delete prisma.workOrderPdf (fun r => r.id == workOrderId) >>= fun _ =>
          (pure () : Service Unit)).runWith faults (withoutFile wo.fileKey s) := by
    rw [runWith_found hFind, deleteFile, execute, runWith_atomic_bind]
    rfl
  unfold WorkOrderCall.after
  rcases lt_trichotomy k 2 with hBefore | rfl | hAfter
  · rw [if_pos hBefore]
    cases k with
    | zero => rfl
    | succ k =>
        obtain rfl : k = 0 := by omega
        rw [failingAt_succ, runWith_found hFind]
        rfl
  · rw [failingAt_succ, failingAt_succ, hFile]
    rfl
  · rw [if_neg (by omega), if_neg (by omega)]
    obtain ⟨n, rfl⟩ := Nat.exists_eq_add_of_le' hAfter
    rw [failingAt_succ, failingAt_succ, failingAt_succ, hFile, delete, execute,
      runWith_atomic_bind, delete_withoutFile hFind]
    rfl

/-! ## Both operations -/

omit [Runtime] [StorageRuntime] in
theorem filesStored_withoutFile {s : Store} {wo : WorkOrderPdf} (hMem : wo ∈ s.workOrderPdf.rows) :
    ¬ FilesStored (withoutFile wo.fileKey s) := by
  intro hFiles
  have hStored := (List.mem_filter.mp (hFiles wo hMem)).2
  simp at hStored

omit [Runtime] [StorageRuntime] in
theorem filesStored_withoutWorkOrder {s : Store} (hFiles : FilesStored s) {wo : WorkOrderPdf}
    (hMem : wo ∈ s.workOrderPdf.rows) :
    FilesStored (withoutWorkOrder wo s) ↔
      ∀ r ∈ s.workOrderPdf.rows, r.fileKey = wo.fileKey → r = wo := by
  constructor
  · intro hAfter r hr hKey
    by_contra hOther
    have hLeft : r ∈ (withoutWorkOrder wo s).workOrderPdf.rows := by
      refine mem_erase.mpr ⟨hr, beq_eq_false_iff_ne.mpr fun hSame => hOther ?_⟩
      exact s.workOrderPdf.key_inj hr hMem hSame
    have hStored := (List.mem_filter.mp (hAfter r hLeft)).2
    simp [hKey] at hStored
  · intro hSole r hr
    obtain ⟨hOld, hOther⟩ := mem_erase.mp hr
    refine List.mem_filter.mpr ⟨hFiles r hOld, bne_iff_ne.mpr fun hKey => ?_⟩
    rw [hSole r hOld hKey, beq_self_eq_true] at hOther
    cases hOther

/-- **When every row still has its file**: after an upload always, and after a deletion when it
stops before it deletes the file, or deletes the row as well and no other row has the file. -/
theorem files_stored_iff {s : Store} (hFiles : FilesStored s) (call : WorkOrderCall) (k : Nat)
    (e : Exn) : FilesStored (call.after k e s) ↔ call.Harmless k s := by
  cases call with
  | upload projectId adminId file =>
      exact iff_of_true (filesStored_upload hFiles projectId adminId file k e) trivial
  | delete workOrderId =>
      cases hFind : s.workOrderPdf.find workOrderId with
      | none =>
          rw [delete_unknown hFind]
          refine iff_of_true hFiles fun wo hMem hId => ?_
          have hOther := List.find?_eq_none.mp hFind wo hMem
          exact absurd (beq_iff_eq.mpr hId) hOther
      | some wo =>
          obtain ⟨hMem, hKey⟩ := find_eq_some.mp hFind
          have hSole : (WorkOrderCall.delete workOrderId).Harmless k s ↔
              (k < 2 ∨ k ≠ 2 ∧ ∀ r ∈ s.workOrderPdf.rows, r.fileKey = wo.fileKey → r = wo) := by
            constructor
            · intro h
              exact h wo hMem hKey
            · intro h wo' hMem' hId
              rw [s.workOrderPdf.key_inj hMem' hMem (hId.trans hKey.symm)]
              exact h
          rw [delete_found hFind, hSole]
          split
          · rename_i hBefore
            exact iff_of_true hFiles (Or.inl hBefore)
          · rename_i hNot
            rw [or_iff_right hNot]
            split
            · rename_i hRow
              exact iff_of_false (filesStored_withoutFile hMem) fun h => h.1 hRow
            · rename_i hLater
              rw [and_iff_right hLater]
              exact filesStored_withoutWorkOrder hFiles hMem

end Code

section Site

attribute [local instance] asciiRuntime

/-- A bucket whose URLs are the keys. -/
abbrev plainUrls : StorageRuntime where
  bucketName := "rooeel"
  getSignedUrl command _ := .ok command.key

attribute [local instance] plainUrls

/-- The small site with a work order. -/
def orderedSite : Store := ((WorkOrderCall.upload 1 1 sheet).prog.run site).2

theorem orderedSite_stored : FilesStored orderedSite := by
  unfold FilesStored
  decide +kernel

/-- The database is gone when the row is deleted. -/
theorem work_order_dangles :
    ¬ ∀ s, FilesStored s → ∀ (call : WorkOrderCall) (k : Nat) (e : Exn),
      FilesStored (call.after k e s) := by
  intro h
  have hAfter := h _ orderedSite_stored (.delete 1) 2 (.error "Connection terminated")
  exact absurd hAfter (by unfold FilesStored; decide +kernel)

theorem files_stored_site :
    FilesStored ((WorkOrderCall.delete 1).after 1 (.error "Failed to delete file from storage")
        orderedSite) ∧
      FilesStored ((WorkOrderCall.delete 1).after 3 (.error "") orderedSite) := by
  refine ⟨?_, ?_⟩
  · exact (files_stored_iff orderedSite_stored _ _ _).mpr fun _ _ _ => Or.inl (by decide)
  · have hSole : ∀ wo ∈ orderedSite.workOrderPdf.rows, ∀ r ∈ orderedSite.workOrderPdf.rows,
        r.fileKey = wo.fileKey → r = wo := by decide +kernel
    exact (files_stored_iff orderedSite_stored _ _ _).mpr fun wo hMem _ =>
      Or.inr ⟨by decide, hSole wo hMem⟩

end Site

end Rooeel
