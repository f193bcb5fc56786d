import Rooeel.Api.AllOrNothing

/-!
# What a removal removes

`removals_exact`: a request for one of the removals that was answered has deleted, with its last
step, one row of those that its selector names, the rows from which a chain of `Cascade` relations
leads to it, and the `SetNull` references to these rows; it has changed nothing else, and the keys
of the deleted rows never come back. This holds for each request among any others, in any
interleaving, with steps that fail.

`ServiceOp.ends_removal` and `AccountOp.ends_removal` go through the removals, and `Store.deletes`
says what a deletion deletes.
-/

namespace Rooeel

open JavaScript Prog Schema TokenRuntime

/-! ## Removals -/

/-- A selector of rows of one model. -/
abbrev Selector : Type := (e : Entity) × (e.Of → Bool)

/-- The row that a mutation deletes. -/
def ServiceOp.removal : ServiceOp → Option Selector
  | .removeProject id => some ⟨.project, fun r => r.id == id⟩
  | .deleteField id => some ⟨.projectField, fun r => r.id == id⟩
  | .unassignUser projectId userId => some ⟨.projectUser, isMember projectId userId⟩
  | .removeRole id => some ⟨.projectRole, fun r => r.id == id⟩
  | .removeDepartment id => some ⟨.department, fun r => r.id == id⟩
  | .removeDepartmentRole id => some ⟨.departmentRole, fun r => r.id == id⟩
  | .removeDepartmentRolePolicy id => some ⟨.departmentRolePolicy, fun r => r.id == id⟩
  | .removePermission id => some ⟨.permission, fun r => r.id == id⟩
  | .removeTask id _ => some ⟨.task, fun r => r.id == id⟩
  | .removeSubTask id => some ⟨.subTask, fun r => r.id == id⟩
  | .removeUser id => some ⟨.user, fun r => r.id == id⟩
  | .removeAdmin id => some ⟨.admin, fun r => r.id == id⟩
  | _ => none

def AccountOp.removal : AccountOp → Option Selector
  | .removeUser id => some ⟨.user, fun r => r.id == id⟩
  | .removeAdmin id => some ⟨.admin, fun r => r.id == id⟩
  | _ => none

def Operation.removal : Operation → Option Selector
  | .service op => op.removal
  | .account op => op.removal

@[simp] theorem Operation.removal_calledBy (op : Operation) (authHeader : Option String)
    (user : RequestUser) : (op.calledBy authHeader user).removal = op.removal := by
  cases op with
  | service op => cases op <;> rfl
  | account op => cases op <;> rfl

/-- A row that is selected is deleted, with the referential actions. -/
def Removes (selector : Selector) (s s' : Store) : Prop :=
  ∃ r ∈ (Store.schema.table selector.1 s).rows, selector.2 r = true ∧
    Erases selector.1 (fun x => Row.key x == Row.key r) s s'

theorem ends_delete {e : Entity} (sel : e.Of → Bool) :
    EndsIn (Removes ⟨e, sel⟩) (delete e.model sel) := by
  refine ends_execute fun s r s' hOk => ?_
  obtain ⟨hr, hSel, rfl⟩ := Model.delete_ok hOk
  exact ⟨r, hr, hSel, Store.deletes e _ s⟩

section Operations

variable [Runtime]

theorem ServiceOp.ends_removal (op : ServiceOp) {selector : Selector}
    (h : op.removal = some selector) : EndsIn (Removes selector) op.prog := by
  cases op with
  | removeProject =>
      cases h
      exact ends_answering (ends_bind (confined_findOne _) fun _ => ends_delete (e := .project) _)
  | deleteField =>
      cases h
      exact ends_answering (ends_removeById (ends_delete (e := .projectField) _))
  | unassignUser =>
      cases h
      exact ends_answering (ends_map _ (ends_delete (e := .projectUser) _))
  | removeRole =>
      cases h
      exact ends_answering (ends_removeById (ends_delete (e := .projectRole) _))
  | removeDepartment =>
      cases h
      exact ends_answering (ends_removeById (ends_delete (e := .department) _))
  | removeDepartmentRole =>
      cases h
      exact ends_answering (ends_removeById (ends_delete (e := .departmentRole) _))
  | removeDepartmentRolePolicy =>
      cases h
      exact ends_answering (ends_removeById (ends_delete (e := .departmentRolePolicy) _))
  | removePermission =>
      cases h
      exact ends_answering (ends_removeById (ends_delete (e := .permission) _))
  | removeTask =>
      cases h
      refine ends_answering (ends_bind (confined_read _) fun _ => ?_)
      exact ends_bind (confined_authorizeRemoveTask _ _) fun _ =>
        ends_map _ (ends_delete (e := .task) _)
  | removeSubTask =>
      cases h
      exact ends_answering (ends_removeById (ends_delete (e := .subTask) _))
  | removeUser =>
      cases h
      exact ends_answering (ends_bind (confined_read _) fun _ =>
        ends_bind (confined_throwIf _ _) fun _ => ends_delete (e := .user) _)
  | removeAdmin =>
      cases h
      exact ends_answering (ends_bind (confined_read _) fun _ =>
        ends_bind (confined_throwIf _ _) fun _ => ends_map _ (ends_delete (e := .admin) _))
  | _ => cases h

variable [PasswordRuntime] [TokenRuntime] [DecodeRuntime]

omit [Runtime] in
theorem AccountOp.ends_removal (op : AccountOp) {selector : Selector}
    (h : op.removal = some selector) : EndsInServer (Removes selector) op.prog := by
  cases op with
  | removeUser =>
      cases h
      exact ends_operation (ends_bind (confined_read _) fun _ =>
        ends_bind (confined_throwIf _ _) fun _ => ends_delete (e := .user) _)
  | removeAdmin =>
      cases h
      exact ends_operation (ends_bind (confined_read _) fun _ =>
        ends_bind (confined_throwIf _ _) fun _ => ends_map _ (ends_delete (e := .admin) _))
  | _ => cases h

theorem Operation.ends_removal (op : Operation) {selector : Selector}
    (h : op.removal = some selector) : EndsInServer (Removes selector) op.prog := by
  cases op with
  | service op => exact ends_onStore (ends_map _ (op.ends_removal h))
  | account op => exact op.ends_removal h

end Operations

/-! ## Deleted for good -/

/-- The keys of deleted rows were given out, and no row has them. -/
theorem settled_of_lost {chosen : ∀ e, Store.schema.Of e → Prop} {s s' : Store}
    (h : Deletes Store.referential chosen s s') {e : Entity} {k : Id}
    (hLost : Lost Store.referential chosen s e k) :
    Store.schema.Settled e (fun _ => False) k s' := by
  obtain ⟨r, hr, rfl, hDoomed⟩ := hLost
  refine ⟨?_, fun r' hr' hKey => ?_⟩
  · rw [h.next]
    exact (Store.schema.table e s).key_lt hr
  · obtain ⟨x, hx, hKept, rfl⟩ := h.mem_rows.mp hr'
    rw [Store.referential.key_clear] at hKey
    obtain rfl := (Store.schema.table e s).key_inj hx hr hKey
    exact hKept hDoomed

section Requests

variable [Runtime] [PasswordRuntime] [TokenRuntime] [DecodeRuntime]
  [PassportRuntime] {ι : Type} [DecidableEq ι] {requests : ι → Request} {s : Server}
  {steps : List (Pool ι Server Exn Unit × Pool ι Server Exn Unit)} {c : Pool ι Server Exn Unit}

/-- Rows change after a step as they change in a run. -/
theorem evolve_since (hRun : Pool.History KeepsStore (Pool.start s fun i => (requests i).handle)
    steps c) : ∀ m ∈ steps, Store.schema.Evolve m.2.state.store c.state.store := by
  refine hRun.since (R := fun s s' : Server => Store.schema.Evolve s.store s'.store)
    (fun s => .refl s.store) (fun _ _ _ h h' => h.trans h') (fun s s' hSame => ?_) fun i => ?_
  · rw [show s'.store = s.store from hSame]
    exact .refl s.store
  · exact ((requests i).safe s).of_any fun _ _ hStatement => hStatement.evolve Store.cascades

/-- **What a removal removes**: a request for a removal that has not been answered has changed
nothing; one that has been answered has deleted a row that it names with its last step, exactly with
the referential actions of the schema, and none of the deleted rows comes back. -/
theorem removals_exact
    (hRun : Pool.History KeepsStore (Pool.start s fun i => (requests i).handle) steps c) {i : ι}
    {selector : Selector} (hRemoval : (requests i).op.removal = some selector) :
    (¬ c.Returned i () → ∀ t ∈ Pool.Past steps i, t.2.store = t.1.store) ∧
      (c.Returned i () → ∃ before m after, steps = before ++ m :: after ∧
        (∀ t ∈ Pool.Past before i, t.2.store = t.1.store) ∧
        (∀ m' ∈ after, ¬ Pool.Moved m'.1 m'.2 i) ∧
        ∃ r ∈ (Store.schema.table selector.1 m.1.state.store).rows, selector.2 r = true ∧
          Erases selector.1 (fun x => Row.key x == Row.key r) m.1.state.store m.2.state.store ∧
          ∀ e k, Lost Store.referential
              (Only (S := Store.schema) selector.1 fun x => Row.key x == Row.key r)
              m.1.state.store e k →
            (Store.schema.table e c.state.store).has k = false) := by
  have hEnds : EndsInServer (Removes selector) (requests i).handle := by
    refine (requests i).ends ((requests i).op.ends_removal hRemoval) fun user => ?_
    exact Operation.ends_removal _ (by rw [Operation.removal_calledBy, hRemoval])
  obtain ⟨hNot, hReturned⟩ := committed_or_nothing hRun hEnds
  refine ⟨hNot, fun hDone => ?_⟩
  obtain ⟨before, m, after, hSteps, -, -, hRest, hBefore, r, hr, hSel, hErases⟩ := hReturned hDone
  refine ⟨before, m, after, hSteps, hBefore, hRest, r, hr, hSel, hErases, fun e k hLost => ?_⟩
  have hMem : m ∈ steps := by
    rw [hSteps]
    exact List.mem_append_right _ List.mem_cons_self
  have hSettled := (settled_of_lost hErases hLost).keeps (evolve_since hRun m hMem).owners
  refine Bool.eq_false_iff.mpr fun hHas => ?_
  obtain ⟨x, hx, hKey⟩ := Table.has_iff.mp hHas
  exact hSettled.2 x hx hKey

end Requests

section Site

attribute [local instance] asciiRuntime siteTokens plainPassport saltedHashes benDecode

/-- The admin removes the user, who logs in at the same time. -/
def removalRequests : Bool → Request
  | true => ⟨none, .graphql, .account (.login ⟨"ben@site", "y", none⟩ ⟨"j", 0, 0, 0, 0, 0, 0, 0⟩)⟩
  | false => ⟨some "Bearer b", .graphql, .account (.removeUser 1)⟩

def removalPool : Pool Bool Server Exn Unit :=
  (Pool.start siteServer fun i => (removalRequests i).handle).play [false, true, false, false]

theorem removalPool_returned : removalPool.Returned false () := by
  unfold Pool.Returned
  rfl

theorem removals_exact_site : ∃ steps,
    Pool.History KeepsStore (Pool.start siteServer fun i => (removalRequests i).handle) steps
      removalPool ∧
    ∃ m ∈ steps, Removes ⟨.user, fun r => r.id == 1⟩ m.1.state.store m.2.state.store := by
  have hReach : Relation.ReflTransGen (Pool.Step KeepsStore)
      (Pool.start siteServer fun i => (removalRequests i).handle) removalPool :=
    Pool.reach_of_exec (Pool.reach_play _ _)
  obtain ⟨steps, hRun⟩ := Pool.history_of_reach hReach
  have hRemoved := (removals_exact hRun (i := false) rfl).2 removalPool_returned
  obtain ⟨before, m, after, rfl, -, -, r, hr, hSel, hErases, -⟩ := hRemoved
  exact ⟨_, hRun, m, List.mem_append_right _ List.mem_cons_self, r, hr, hSel, hErases⟩

end Site

end Rooeel
