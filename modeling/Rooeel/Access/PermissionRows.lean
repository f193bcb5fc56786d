import Rooeel.Access.Policies
import Rooeel.Lib.Exclusion

/-!
# One permission of a role for a resource

The unique index of permissions does not apply to rows without a department, so
`setPermission` looks such a row up first, and then changes it or creates it.

Nothing happens between the two steps of one call when the calls come one after the other.
With other calls in between, two of them can find no row and create one each. The invariant
`RowsInv` says that this is the only way to get two rows: a call that is about to create a row
still finds none, as long as no two calls are about to create the same row
(`one_permission_row`).
-/

namespace Rooeel

open JavaScript Prog Table

/-- No two permissions without a department are of one role and about one resource. -/
def OneRow (s : Store) : Prop :=
  ∀ a ∈ s.permission.rows, ∀ b ∈ s.permission.rows,
    a.departmentId = none → b.departmentId = none →
    a.projectRoleId = b.projectRoleId → a.resource = b.resource → a = b

/-- The arguments of a call of `setPermission` with `departmentId` null. -/
structure PermissionCall where
  roleId : Id
  resource : String
  flags : Flags

namespace PermissionCall

variable [Runtime]

/-- The name that the row carries. -/
def name (call : PermissionCall) : String := normalizePolicyResource call.resource

def key (call : PermissionCall) : Id × String := (call.roleId, call.name)

def policyFlags (call : PermissionCall) : Flags := buildPolicyFlags call.name call.flags

def prog (call : PermissionCall) : Service Answer :=
  PolicyCall.prog (.setPermission call.roleId call.resource none call.flags)

/-- The `where` clause of `findFirst`. -/
def selects (call : PermissionCall) (r : Permission) : Bool :=
  r.projectRoleId == call.roleId && r.resource == call.name && r.departmentId == none

/-- The rest of the call when there is no row. -/
def creating (call : PermissionCall) : Service Answer :=
  acknowledge (create prisma.permission fun id =>
    { id, projectRoleId := call.roleId, departmentId := none, resource := call.name
      flags := call.policyFlags })

/-- The rest of the call when the row `id` is there. -/
def updating (call : PermissionCall) (id : Id) : Service Answer :=
  acknowledge (update prisma.permission (fun r => r.id == id) fun r =>
    { r with flags := call.policyFlags })

variable {call : PermissionCall}

/-- A call with a configured resource reads before it writes. -/
theorem prog_allowed (h : call.name ∈ allowedPolicyResources) :
    call.prog = findUnique prisma.permission call.selects >>= fun existing =>
      existing.elim call.creating fun permission => call.updating permission.id := by
  change acknowledge (Prog.throwIf (call.name ∉ allowedPolicyResources) _ >>= _) = _
  rw [throwIf_bind, if_neg (not_not.mpr h)]
  change (findUnique prisma.permission call.selects >>= _) >>= _ = _
  rw [Prog.bind_assoc]
  congr 1
  funext existing
  cases existing with
  | none => rfl
  | some permission => rfl

theorem prog_refused (h : call.name ∉ allowedPolicyResources) :
    call.prog = throw (notConfigured call.name) := by
  change acknowledge (Prog.throwIf (call.name ∉ allowedPolicyResources) _ >>= _) = _
  rw [throwIf_bind, if_pos h]
  rfl

end PermissionCall

/-! ## What one statement keeps -/

section Statements

variable [Runtime] {s s' : Store} {call : PermissionCall}

theorem selects_iff {r : Permission} :
    call.selects r = true ↔
      r.projectRoleId = call.roleId ∧ r.resource = call.name ∧ r.departmentId = none := by
  simp only [PermissionCall.selects, Bool.and_eq_true, beq_iff_eq, and_assoc]

omit [Runtime] in
/-- After new flags every row is an old one, but for its flags. -/
theorem update_rows {sel : Permission → Bool} {flags : Flags} {row : Permission}
    (hUpdate : prisma.permission.update sel (fun r => { r with flags := flags }) (fun _ => rfl) s =
      .ok (row, s')) :
    ∃ f : Permission → Permission, ∀ r ∈ s'.permission.rows, ∃ x ∈ s.permission.rows, r = f x ∧
      r.projectRoleId = x.projectRoleId ∧ r.departmentId = x.departmentId ∧
      r.resource = x.resource := by
  obtain ⟨r₀, -, -, -, -, -, rfl⟩ := Model.update_ok hUpdate
  refine ⟨fun x => if Row.key x == Row.key r₀ then { x with flags := flags } else x, ?_⟩
  intro r hr
  obtain ⟨x, hx, rfl⟩ := List.mem_map.mp hr
  refine ⟨x, hx, rfl, ?_, ?_, ?_⟩ <;> split <;> rfl

omit [Runtime] in
/-- New flags make no second row. -/
theorem update_oneRow {sel : Permission → Bool} {flags : Flags} {row : Permission}
    (hUpdate : prisma.permission.update sel (fun r => { r with flags := flags }) (fun _ => rfl) s =
      .ok (row, s'))
    (hOne : OneRow s) : OneRow s' := by
  obtain ⟨f, hOld⟩ := update_rows hUpdate
  intro a ha b hb haNone hbNone hRole hResource
  obtain ⟨x, hx, rfl, hxRole, hxDepartment, hxResource⟩ := hOld a ha
  obtain ⟨y, hy, rfl, hyRole, hyDepartment, hyResource⟩ := hOld b hb
  have hSame : x = y := hOne x hx y hy (hxDepartment ▸ haNone) (hyDepartment ▸ hbNone)
    (hxRole.symm.trans (hRole.trans hyRole)) (hxResource.symm.trans (hResource.trans hyResource))
  rw [hSame]

/-- A call that finds no row finds none after new flags. -/
theorem update_missing {sel : Permission → Bool} {flags : Flags} {row : Permission}
    (hUpdate : prisma.permission.update sel (fun r => { r with flags := flags }) (fun _ => rfl) s =
      .ok (row, s'))
    (hMissing : ∀ r ∈ s.permission.rows, call.selects r = false) :
    ∀ r ∈ s'.permission.rows, call.selects r = false := by
  obtain ⟨f, hOld⟩ := update_rows hUpdate
  intro r hr
  obtain ⟨x, hx, -, hRole, hDepartment, hResource⟩ := hOld r hr
  have hNot := hMissing x hx
  rw [Bool.eq_false_iff, ne_eq, selects_iff] at hNot ⊢
  rwa [hRole, hDepartment, hResource]

/-- A row that is created where there is none is the only one. -/
theorem create_oneRow {row : Permission}
    (hCreate : prisma.permission.create (fun id =>
      { id, projectRoleId := call.roleId, departmentId := none, resource := call.name
        flags := call.policyFlags }) (fun _ => rfl) s = .ok (row, s'))
    (hMissing : ∀ r ∈ s.permission.rows, call.selects r = false) (hOne : OneRow s) :
    OneRow s' := by
  obtain ⟨-, -, rfl⟩ := Model.create_ok hCreate
  have hNew : ∀ r ∈ s.permission.rows, r.departmentId = none → r.projectRoleId = call.roleId →
      r.resource ≠ call.name := by
    intro r hr hNone hRole hResource
    have hSelected := selects_iff.mpr ⟨hRole, hResource, hNone⟩
    rw [hMissing r hr] at hSelected
    cases hSelected
  intro a ha b hb haNone hbNone hRole hResource
  rcases List.mem_append.mp ha with hOldA | hNewA
  · rcases List.mem_append.mp hb with hOldB | hNewB
    · exact hOne a hOldA b hOldB haNone hbNone hRole hResource
    · rw [List.mem_singleton.mp hNewB] at hRole hResource
      exact absurd hResource (hNew a hOldA haNone hRole)
  · rcases List.mem_append.mp hb with hOldB | hNewB
    · rw [List.mem_singleton.mp hNewA] at hRole hResource
      exact absurd hResource.symm (hNew b hOldB hbNone hRole.symm)
    · rw [List.mem_singleton.mp hNewA, List.mem_singleton.mp hNewB]

/-- A call with another key still finds no row. -/
theorem create_missing {other : PermissionCall} {row : Permission}
    (hCreate : prisma.permission.create (fun id =>
      { id, projectRoleId := call.roleId, departmentId := none, resource := call.name
        flags := call.policyFlags }) (fun _ => rfl) s = .ok (row, s'))
    (hKey : other.key ≠ call.key) (hMissing : ∀ r ∈ s.permission.rows, other.selects r = false) :
    ∀ r ∈ s'.permission.rows, other.selects r = false := by
  obtain ⟨-, -, rfl⟩ := Model.create_ok hCreate
  refine forall_insert (fun id : Id =>
    { id, projectRoleId := call.roleId, departmentId := none, resource := call.name
      flags := call.policyFlags }) (fun _ => rfl) hMissing ?_
  rw [Bool.eq_false_iff, ne_eq, selects_iff]
  rintro ⟨hRole, hResource, -⟩
  exact hKey (Prod.ext hRole.symm hResource.symm)

end Statements

/-! ## Where a call stands -/

/-- Where a call of `setPermission` stands. -/
inductive PermissionStage where
  | waiting
  | creating
  | updating (id : Id)
  | ended
  deriving DecidableEq

section Interleavings

variable [Runtime] {ι : Type} [DecidableEq ι] {s : Store} {calls : ι → PermissionCall}
  {c c' : Pool ι Store Exn Answer} {stage : ι → PermissionStage} {i : ι}

/-- Calls on a store, none of them started. -/
def permissionCalls (s : Store) (calls : ι → PermissionCall) : Pool ι Store Exn Answer :=
  Pool.start s fun i => (calls i).prog

/-- What a call is about to do. -/
def PermissionStage.Doing (call : PermissionCall) (c : Pool ι Store Exn Answer) (i : ι) :
    PermissionStage → Prop
  | .waiting => c.steps i = 0 ∧ c.proc i = call.prog
  | .creating => c.Running i ∧ c.proc i = call.creating
  | .updating id => c.proc i = call.updating id
  | .ended => c.Ended i

omit [DecidableEq ι] in
/-- What a call is about to do does not change when another one takes a step. -/
theorem PermissionStage.Doing.still {call : PermissionCall} {stage : PermissionStage}
    (h : stage.Doing call c i) (hProc : c'.proc i = c.proc i) (hSteps : c'.steps i = c.steps i) :
    stage.Doing call c' i := by
  cases stage with
  | waiting => exact ⟨hSteps.trans h.1, hProc.trans h.2⟩
  | creating =>
      refine ⟨⟨by rw [hSteps]; exact h.1.1, ?_⟩, hProc.trans h.2⟩
      rintro ⟨r, hDone⟩
      exact h.1.2 ⟨r, hProc.symm.trans hDone⟩
  | updating id => exact hProc.trans h
  | ended =>
      obtain ⟨r, hDone⟩ := h
      exact ⟨r, hProc.trans hDone⟩

/-- There is one row for each key, and none for the key of a call that is about to create its
row, which no other call is about to create too. -/
structure RowsInv (calls : ι → PermissionCall) (c : Pool ι Store Exn Answer)
    (stage : ι → PermissionStage) : Prop where
  doing : ∀ i, (stage i).Doing (calls i) c i
  one : OneRow c.state
  missing : ∀ i, stage i = .creating → ∀ r ∈ c.state.permission.rows, (calls i).selects r = false
  alone : ∀ i j, stage i = .creating → stage j = .creating → (calls i).key = (calls j).key → i = j

/-- An executed step. When a call looks for its row and there is none, no other call is about
to create that row. -/
def FindsAlone (calls : ι → PermissionCall) (c c' : Pool ι Store Exn Answer) : Prop :=
  ∃ i, c.exec i = some c' ∧
    (c.steps i = 0 → prisma.permission.findFirst (calls i).selects c.state = none →
      ∀ j, j ≠ i → (calls j).key = (calls i).key → c.Running j →
        c.proc j ≠ (calls j).creating)

/-- Call `i` has taken a step. -/
theorem RowsInv.move (h : RowsInv calls c stage) (hExec : c.exec i = some c')
    (next : PermissionStage) (hDoing : next.Doing (calls i) c' i) (hOne : OneRow c'.state)
    (hSelf : next = .creating → ∀ r ∈ c'.state.permission.rows, (calls i).selects r = false)
    (hOthers : ∀ j, j ≠ i → stage j = .creating →
      ∀ r ∈ c'.state.permission.rows, (calls j).selects r = false)
    (hAlone : next = .creating → ∀ j, j ≠ i → (calls j).key = (calls i).key →
      stage j ≠ .creating) :
    RowsInv calls c' (Function.update stage i next) := by
  have hStage {j : ι} (hj : j ≠ i) : Function.update stage i next j = stage j :=
    Function.update_of_ne hj _ _
  refine ⟨fun j => ?_, hOne, fun j => ?_, fun j k => ?_⟩
  · by_cases hj : j = i
    · subst hj
      rwa [Function.update_self]
    · obtain ⟨hProc, hSteps⟩ := Pool.exec_others hExec hj
      rw [hStage hj]
      exact (h.doing j).still hProc hSteps
  · by_cases hj : j = i
    · subst hj
      rw [Function.update_self]
      exact hSelf
    · rw [hStage hj]
      exact hOthers j hj
  · by_cases hj : j = i
    · by_cases hk : k = i
      · exact fun _ _ _ => hj.trans hk.symm
      · subst hj
        rw [Function.update_self, hStage hk]
        exact fun hNext hOther hKey => absurd hOther (hAlone hNext k hk hKey.symm)
    · by_cases hk : k = i
      · subst hk
        rw [Function.update_self, hStage hj]
        exact fun hOther hNext hKey => absurd hOther (hAlone hNext j hj hKey)
      · rw [hStage hj, hStage hk]
        exact h.alone j k

/-- A call that has ended, or goes on to change a row, with the rows as they were. -/
theorem RowsInv.stay (h : RowsInv calls c stage) (hExec : c.exec i = some c')
    (next : PermissionStage) (hDoing : next.Doing (calls i) c' i) (hNext : next ≠ .creating)
    (hState : c'.state = c.state) : RowsInv calls c' (Function.update stage i next) := by
  refine h.move hExec next hDoing ?_ (fun hIs => absurd hIs hNext) (fun j _ hj => ?_)
    fun hIs => absurd hIs hNext
  · rw [hState]
    exact h.one
  · rw [hState]
    exact h.missing j hj

/-- The lookup. -/
theorem RowsInv.step_waiting (h : RowsInv calls c stage) (hStage : stage i = .waiting)
    (hExec : c.exec i = some c')
    (hAlone : prisma.permission.findFirst (calls i).selects c.state = none →
      ∀ j, j ≠ i → (calls j).key = (calls i).key → c.Running j →
        c.proc j ≠ (calls j).creating) :
    ∃ stage', RowsInv calls c' stage' := by
  have hDoing := h.doing i
  rw [hStage] at hDoing
  by_cases hAllowed : (calls i).name ∈ allowedPolicyResources
  · obtain ⟨hState, hNext⟩ :=
      Pool.exec_read hExec (hDoing.2.trans (PermissionCall.prog_allowed hAllowed))
    cases hFind : prisma.permission.findFirst (calls i).selects c.state with
    | some permission =>
        rw [hFind] at hNext
        exact ⟨_, h.stay hExec (.updating permission.id) hNext (by simp) hState⟩
    | none =>
        rw [hFind] at hNext
        have hRunning : c'.Running i := by
          refine ⟨Nat.pos_of_ne_zero (Pool.steps_of_exec hExec), ?_⟩
          rintro ⟨r, hDone⟩
          cases hNext.symm.trans hDone
        refine ⟨_, h.move hExec .creating ⟨hRunning, hNext⟩ ?_ (fun _ => ?_) (fun j _ hj => ?_)
          fun _ j hj hKey hOther => ?_⟩
        · rw [hState]
          exact h.one
        · rw [hState]
          exact fun r hr => Bool.eq_false_iff.mpr (List.find?_eq_none.mp hFind r hr)
        · rw [hState]
          exact h.missing j hj
        · have hCreating := h.doing j
          rw [hOther] at hCreating
          exact hAlone hFind j hj hKey hCreating.1 hCreating.2
  · refine absurd ?_ (Pool.exec_ended hExec)
    exact ⟨_, hDoing.2.trans (PermissionCall.prog_refused hAllowed)⟩

/-- The row is created, or the statement fails. -/
theorem RowsInv.step_creating (h : RowsInv calls c stage) (hStage : stage i = .creating)
    (hExec : c.exec i = some c') : ∃ stage', RowsInv calls c' stage' := by
  have hDoing := h.doing i
  rw [hStage] at hDoing
  rcases exec_execute hExec hDoing.2 with ⟨row, hOk, hNext⟩ | ⟨e, -, hState, hNext⟩
  · have hMissing := h.missing i hStage
    refine ⟨_, h.move hExec .ended ⟨_, hNext⟩ (create_oneRow hOk hMissing h.one)
      (fun hIs => nomatch hIs) (fun j hj hCreating => ?_) fun hIs => nomatch hIs⟩
    refine create_missing hOk (fun hKey => ?_) (h.missing j hCreating)
    exact hj (h.alone j i hCreating hStage hKey)
  · exact ⟨_, h.stay hExec .ended ⟨_, hNext⟩ (by simp) hState⟩

/-- The flags are changed, or the statement fails. -/
theorem RowsInv.step_updating (h : RowsInv calls c stage) {id : Id}
    (hStage : stage i = .updating id) (hExec : c.exec i = some c') :
    ∃ stage', RowsInv calls c' stage' := by
  have hDoing := h.doing i
  rw [hStage] at hDoing
  rcases exec_execute hExec hDoing with ⟨row, hOk, hNext⟩ | ⟨e, -, hState, hNext⟩
  · refine ⟨_, h.move hExec .ended ⟨_, hNext⟩ ?_ (fun hIs => nomatch hIs)
      (fun j _ hj => ?_) fun hIs => nomatch hIs⟩
    · exact update_oneRow hOk h.one
    · exact update_missing hOk (h.missing j hj)
  · exact ⟨_, h.stay hExec .ended ⟨_, hNext⟩ (by simp) hState⟩

theorem RowsInv.step (h : RowsInv calls c stage) (hStep : FindsAlone calls c c') :
    ∃ stage', RowsInv calls c' stage' := by
  obtain ⟨i, hExec, hAlone⟩ := hStep
  cases hStage : stage i with
  | waiting =>
      have hDoing := h.doing i
      rw [hStage] at hDoing
      exact h.step_waiting hStage hExec (hAlone hDoing.1)
  | creating => exact h.step_creating hStage hExec
  | updating id => exact h.step_updating hStage hExec
  | ended =>
      have hEnded := h.doing i
      rw [hStage] at hEnded
      exact absurd hEnded (Pool.exec_ended hExec)

omit [DecidableEq ι] in
theorem RowsInv.start (hOne : OneRow s) (calls : ι → PermissionCall) :
    RowsInv calls (permissionCalls s calls) fun _ => .waiting where
  doing := fun _ => ⟨rfl, rfl⟩
  one := hOne
  missing := fun _ hIs => nomatch hIs
  alone := fun _ _ hIs => nomatch hIs

/-- In all runs of the calls there is one row for each key. -/
def KeepsOneRow (step : Pool ι Store Exn Answer → Pool ι Store Exn Answer → Prop) (s : Store)
    (calls : ι → PermissionCall) : Prop :=
  OneRow s → ∀ c, Relation.ReflTransGen step (permissionCalls s calls) c → OneRow c.state

/-- **One permission for the project**, in all runs of any number of calls in which no call
finds no row while another one is about to create it. -/
theorem one_permission_row (s : Store) (calls : ι → PermissionCall) :
    KeepsOneRow (FindsAlone calls) s calls := by
  intro hOne c hReach
  have hInv : ∃ stage, RowsInv calls c stage := by
    induction hReach with
    | refl => exact ⟨_, RowsInv.start hOne calls⟩
    | tail _ hStep ih =>
        obtain ⟨stage, hInv⟩ := ih
        exact hInv.step hStep
  obtain ⟨stage, hInv⟩ := hInv
  exact hInv.one

end Interleavings

section Site

attribute [local instance] asciiRuntime

/-- The role gets rights on tasks twice at once. -/
def bothPermissions : Bool → PermissionCall
  | true => ⟨1, "task", { canView := true }⟩
  | false => ⟨1, "TASK", { canView := true, canEdit := true }⟩

/-- The two calls, none of them started. -/
def permissionPool : Pool Bool Store Exn Answer := permissionCalls ungranted bothPermissions

theorem ungranted_oneRow : OneRow ungranted := fun _ ha => nomatch ha

/-- Both calls look for a row before the first of them creates it; both create one. -/
theorem permission_row_twice :
    (∀ i, (permissionPool.play [true, false, true, false]).Returned i .other) ∧
      ¬ KeepsOneRow Pool.Exec ungranted bothPermissions := by
  refine ⟨fun i => by cases i <;> rfl, fun h => ?_⟩
  have hReach := Pool.reach_play permissionPool [true, false, true, false]
  have hOne := h ungranted_oneRow _ hReach ⟨1, 1, none, "TASK", { canView := true }⟩
    (by decide +kernel) ⟨2, 1, none, "TASK", { canView := true, canEdit := true }⟩
    (by decide +kernel) rfl rfl rfl rfl
  exact absurd hOne (by decide)

/-- One after the other the second call finds the row of the first. -/
theorem one_permission_row_site :
    ∃ c, Relation.ReflTransGen (FindsAlone bothPermissions) permissionPool c ∧
      c.state.permission.rows = [⟨1, 1, none, "TASK", { canView := true, canEdit := true }⟩] ∧
      OneRow c.state := by
  have hStarted {c c' : Pool Bool Store Exn Answer} (i : Bool) (hExec : c.exec i = some c')
      (hSteps : c.steps i ≠ 0) : FindsAlone bothPermissions c c' :=
    ⟨i, hExec, fun hFirst => absurd hFirst hSteps⟩
  let created := permissionPool.play [true, true]
  have hFirst : FindsAlone bothPermissions permissionPool (permissionPool.play [true]) := by
    refine ⟨true, rfl, fun _ _ j _ _ hRunning => ?_⟩
    exact absurd hRunning.1 (by cases j <;> decide)
  have hSecond : FindsAlone bothPermissions created (created.play [false]) := by
    refine ⟨false, rfl, fun _ hNone => ?_⟩
    exact absurd hNone (by decide +kernel)
  have hReach : Relation.ReflTransGen (FindsAlone bothPermissions) permissionPool
      (created.play [false, false]) :=
    .tail (.tail (.tail (.single hFirst) (hStarted true rfl (by decide))) hSecond)
      (hStarted false rfl (by decide))
  exact ⟨_, hReach, by decide +kernel,
    one_permission_row ungranted bothPermissions ungranted_oneRow _ hReach⟩

end Site

end Rooeel
