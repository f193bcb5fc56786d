import Rooeel.Lib.Commitment
import Rooeel.Api.Privileges

/-!
# Requests that happen completely or not at all

Most operations read, check, and end with one statement (`Operation.OneStatement`). A request for
one of them changes the store at most once, with the step with which it is answered; a request that
was refused, that failed on the way or is still running has changed nothing
(`requests_all_or_nothing`). This holds for each such request among any others, in any interleaving,
with steps that fail.

`Operation.once` goes through the operations. The others write two rows, a row and an object of the
storage bucket, or send a mail after the row is written.
-/

namespace Rooeel

open JavaScript Prog Schema TokenRuntime

/-! ## Programs of one statement -/

/-- The store is as before. -/
abbrev KeepsRows (s s' : Store) : Prop := s' = s

/-- The program only reads before its last step, and returns with a step in `commit`. -/
def EndsIn {α : Type} (commit : Store → Store → Prop) (p : Service α) : Prop :=
  ∀ past, Commits KeepsRows (fun _ s s' _ => commit s s') (fun _ _ => False) past p

/-- A program of the server, likewise; the cache and the clock may change. -/
def EndsInServer {α : Type} (commit : Store → Store → Prop) (p : Prog Server Exn α) : Prop :=
  ∀ past, Commits KeepsStore (fun _ s s' _ => commit s.store s'.store) (fun _ _ => False) past p

/-- The program only reads, and returns with one statement of the footprint. -/
abbrev Once {α : Type} (writes : List (Write Entity)) (p : Service α) : Prop :=
  EndsIn (Store.schema.Statement (· ∈ writes)) p

abbrev OnceServer {α : Type} (writes : List (Write Entity)) (p : Prog Server Exn α) : Prop :=
  EndsInServer (Store.schema.Statement (· ∈ writes)) p

theorem statement_nil {s s' : Store} (h : Store.schema.Statement (· ∈ ([] : List (Write Entity)))
    s s') : s' = s := by
  cases h with
  | same => rfl
  | create hWrites | update hWrites | updateMany hWrites | delete hWrites | outside hWrites =>
      cases hWrites

section Rules

variable {commit : Store → Store → Prop} {writes : List (Write Entity)} {α β : Type} {e : Entity}

theorem ends_throw (e : Exn) : EndsIn commit (throw e : Service α) := fun _ => commits_throw e

/-- A part without a footprint, in front. -/
theorem ends_bind {p : Service β} {f : β → Service α} (hp : Confined [] p)
    (hf : ∀ b, EndsIn commit (f b)) : EndsIn commit (p >>= f) := by
  have hReads : Guarantees (fun _ _ => True) KeepsRows p :=
    fun s => (hp s).mono fun _ _ => statement_nil
  exact fun past => commits_seq (learns_of_guarantees hReads) fun past' b _ => hf b past'

/-- What is made of the result does not matter. -/
theorem ends_map {p : Service β} (g : β → α) (hp : EndsIn commit p) :
    EndsIn commit (p >>= fun b => pure (g b)) :=
  fun past => commits_map (hp past)

theorem ends_answering {f : α → Answer} {p : Service α} (hp : EndsIn commit p) :
    EndsIn commit (answering f p) :=
  ends_map f hp

theorem ends_execute {f : Store → Except DbError (α × Store)}
    (h : ∀ s a s', f s = .ok (a, s') → commit s s') : EndsIn commit (execute f) :=
  fun _ => commits_statement (fun _ => rfl) fun s a s' hOk => h s a s' (execute_ok hOk)

/-- A deletion after a check that the row exists. -/
theorem ends_removeById {id : Id} {sel : e.Of → Bool} (h : EndsIn commit (delete e.model sel)) :
    EndsIn commit (do
      let _row ← findUniqueOrThrow e.model id
      let _deleted ← delete e.model sel
      pure true : Service Bool) :=
  ends_bind (confined_read _) fun _ => ends_map (fun _ => true) h

/-- A program of the store, on the server. -/
theorem ends_onStore {p : Service α} (hp : EndsIn commit p) : EndsInServer commit (onStore p) :=
  fun past => commits_within (fun _ _ => rfl) (hp (pastOf Server.store past))

theorem ends_operation {p : Service α} (hp : EndsIn commit p) : EndsInServer commit (operation p) :=
  ends_onStore (ends_map (fun _ => ()) hp)

/-- A guard in front. -/
theorem ends_guarded {p : Prog Server Exn β} {f : β → Prog Server Exn α}
    (hp : ConfinedServer [] p) (hf : ∀ b, EndsInServer commit (f b)) :
    EndsInServer commit (p >>= f) := by
  have hReads : Guarantees (fun _ _ => True) KeepsStore p :=
    fun s => (hp s).mono fun _ _ => statement_nil
  exact fun past => commits_seq (learns_of_guarantees hReads) fun past' b _ => hf b past'

/-! ### Statements -/

theorem once_create (h : .put e ∈ writes) {mk : Id → e.Of} {hmk : ∀ k, Row.key (mk k) = k} :
    Once writes (create e.model mk hmk) :=
  ends_execute fun _ _ _ hOk => .create h hOk

theorem once_update (h : .put e ∈ writes) {sel : e.Of → Bool} {f : e.Of → e.Of}
    {hf : ∀ r, Row.key (f r) = Row.key r} (hEvolves : ∀ r, e.Evolves r (f r)) :
    Once writes (update e.model sel f hf) :=
  ends_execute fun _ _ _ hOk => .update h hEvolves hOk

theorem once_upsert (h : .put e ∈ writes) {sel : e.Of → Bool} {f : e.Of → e.Of} {mk : Id → e.Of}
    {hf : ∀ r, Row.key (f r) = Row.key r} {hmk : ∀ k, Row.key (mk k) = k}
    (hEvolves : ∀ r, e.Evolves r (f r)) :
    Once writes (upsert e.model sel f mk hf hmk) :=
  ends_execute fun _ _ _ hOk => .upsert h hEvolves hOk

theorem once_delete (h : .erase e ∈ writes) {sel : e.Of → Bool} :
    Once writes (delete e.model sel) := by
  refine ends_execute fun s _ s' hOk => ?_
  obtain ⟨-, -, rfl⟩ := Model.delete_ok hOk
  exact .delete h _

theorem once_removeById (h : .erase e ∈ writes) {id : Id} {sel : e.Of → Bool} :
    Once writes (do
      let _row ← findUniqueOrThrow e.model id
      let _deleted ← delete e.model sel
      pure true : Service Bool) :=
  ends_removeById (once_delete h)

theorem once_includeSubtasks {statement : Store → Except DbError (Task × Store)}
    (h : ∀ s t s', statement s = .ok (t, s') → Store.schema.Statement (· ∈ writes) s s') :
    Once writes (includeSubtasks statement) :=
  ends_execute fun s row s' hRow => h s row.task s' (includeSubtasks_ok hRow)

end Rules

/-! ## The operations -/

def ServiceOp.OneStatement : ServiceOp → Prop
  | .uploadWorkOrder .. | .deleteWorkOrder .. => False
  | _ => True

def AccountOp.OneStatement : AccountOp → Prop
  | .resetUserPassword .. | .signup .. | .refreshTokens .. | .logout .. | .forgotPassword ..
  | .resetPassword .. | .requestReset .. | .redeemReset .. | .sendTemporaryPassword ..
  | .generatePassword .. | .approveRequest .. => False
  | _ => True

def Operation.OneStatement : Operation → Prop
  | .service op => op.OneStatement
  | .account op => op.OneStatement

section Operations

-- the rules are applied to the operations; what they are about is not computed
attribute [local irreducible] Confined EndsIn

variable [Runtime]

theorem once_setPermission (roleId : Id) (resource : String) (departmentId : Option Id)
    (flags : Flags) :
    Once [.put .permission] (setPermission roleId resource departmentId flags) := by
  refine ends_bind (confined_throwIf _ _) fun _ => ?_
  cases departmentId with
  | none =>
      refine ends_bind (confined_read _) fun existing => ?_
      cases existing with
      | none => exact once_create (e := .permission) (by simp)
      | some permission => exact once_update (e := .permission) (by simp) fun _ => rfl
  | some department => exact once_upsert (e := .permission) (by simp) fun _ => rfl

/-- **Every mutation is one statement**, but the two that also write to the storage bucket. -/
theorem ServiceOp.once (op : ServiceOp) (h : op.OneStatement) : Once op.writes op.prog := by
  cases op with
  | uploadWorkOrder | deleteWorkOrder => exact h.elim
  | createProject => exact ends_answering (once_create (e := .project) (by simp [writes]))
  | updateProject =>
      exact ends_answering (ends_bind (confined_findOne _) fun _ =>
        ends_bind (confined_throwIf _ _) fun _ =>
          once_update (e := .project) (by simp [writes]) fun _ => rfl)
  | removeProject =>
      exact ends_answering (ends_bind (confined_findOne _) fun _ =>
        once_delete (e := .project) (by simp [writes]))
  | createField =>
      exact ends_answering (ends_bind (confined_throwIf _ _) fun _ =>
        once_create (e := .projectField) (by simp [writes]))
  | deleteField => exact ends_answering (once_removeById (e := .projectField) (by simp [writes]))
  | setFieldValue =>
      exact ends_answering (once_upsert (e := .projectFieldValue) (by simp [writes]) fun _ => rfl)
  | assignUser =>
      refine ends_answering (ends_bind (confined_findOne _) fun _ => ?_)
      exact ends_bind (confined_read _) fun _ => ends_bind (confined_throwIf _ _) fun _ =>
        once_create (e := .projectUser) (by simp [writes])
  | unassignUser =>
      exact ends_answering (ends_map (fun _ => true)
        (once_delete (e := .projectUser) (by simp [writes])))
  | createRole =>
      refine ends_answering (ends_bind (confined_findOne _) fun _ => ?_)
      refine ends_bind (confined_requireName _) fun _ => ends_bind (confined_read _) fun _ => ?_
      exact ends_bind (confined_throwIf _ _) fun _ =>
        once_create (e := .projectRole) (by simp [writes])
  | updateRole =>
      refine ends_answering (ends_bind (confined_read _) fun _ => ?_)
      refine ends_bind (confined_requireName _) fun _ => ends_bind (confined_read _) fun _ => ?_
      exact ends_bind (confined_throwIf _ _) fun _ =>
        once_update (e := .projectRole) (by simp [writes]) fun _ => rfl
  | removeRole => exact ends_answering (once_removeById (e := .projectRole) (by simp [writes]))
  | setUserRole | unsetUserRole | removeUserFromDepartment | unsetUserDepartmentRole =>
      exact ends_answering (once_update (e := .projectUser) (by simp [writes]) fun _ => rfl)
  | createDepartment =>
      exact ends_answering (ends_bind (confined_findOne _) fun _ =>
        once_create (e := .department) (by simp [writes]))
  | updateDepartment =>
      exact ends_answering (ends_bind (confined_read _) fun _ =>
        once_update (e := .department) (by simp [writes]) fun _ => rfl)
  | removeDepartment =>
      exact ends_answering (once_removeById (e := .department) (by simp [writes]))
  | createDepartmentRole =>
      refine ends_answering (ends_bind (confined_read _) fun _ => ?_)
      exact ends_bind (confined_requireName _) fun _ =>
        once_create (e := .departmentRole) (by simp [writes])
  | updateDepartmentRole =>
      refine ends_answering (ends_bind (confined_read _) fun _ => ?_)
      refine ends_bind (confined_requireName _) fun _ => ends_bind (confined_read _) fun _ => ?_
      exact ends_bind (confined_throwIf _ _) fun _ =>
        once_update (e := .departmentRole) (by simp [writes]) fun _ => rfl
  | removeDepartmentRole =>
      exact ends_answering (once_removeById (e := .departmentRole) (by simp [writes]))
  | setDepartmentRolePolicy =>
      refine ends_answering (ends_bind (confined_read _) fun _ => ?_)
      refine ends_bind (confined_throwIf _ _) fun _ => ends_bind (confined_throwIf _ _) fun _ => ?_
      exact once_upsert (e := .departmentRolePolicy) (by simp [writes]) fun _ => rfl
  | removeDepartmentRolePolicy =>
      exact ends_answering (once_removeById (e := .departmentRolePolicy) (by simp [writes]))
  | assignUserToDepartment =>
      refine ends_answering (ends_bind (confined_read _) fun _ => ?_)
      exact ends_bind (confined_throwIf _ _) fun _ =>
        once_update (e := .projectUser) (by simp [writes]) fun _ => rfl
  | setUserDepartmentRole =>
      refine ends_answering (ends_bind (confined_read _) fun _ => ?_)
      refine ends_bind (confined_read _) fun _ => ends_bind (confined_throwIf _ _) fun _ => ?_
      exact once_update (e := .projectUser) (by simp [writes]) fun _ => rfl
  | setPermission => exact ends_answering (once_setPermission _ _ _ _)
  | removePermission =>
      exact ends_answering (once_removeById (e := .permission) (by simp [writes]))
  | createTask projectId data viewer =>
      refine ends_answering (ends_bind (confined_authorizeCreateTask _ _ _) fun _ => ?_)
      refine ends_bind (confined_throwIf _ _) fun _ => ends_map _ ?_
      exact once_includeSubtasks fun s t s' hOk => .create (e := Entity.task) (by simp [writes]) hOk
  | updateTask id data viewer =>
      refine ends_answering (ends_bind (confined_read _) fun _ => ?_)
      refine ends_bind (confined_authorizeUpdateTask _ _ _) fun _ => ?_
      refine ends_bind (confined_throwIf _ _) fun _ => ends_map _ ?_
      refine once_includeSubtasks fun s t s' hOk => .update (e := Entity.task) (by simp [writes])
        ?_ hOk
      exact fun _ => ⟨rfl, .refl _⟩
  | removeTask =>
      refine ends_answering (ends_bind (confined_read _) fun _ => ?_)
      exact ends_bind (confined_authorizeRemoveTask _ _) fun _ =>
        ends_map _ (once_delete (e := .task) (by simp [writes]))
  | createSubTask =>
      exact ends_answering (ends_bind (confined_throwIf _ _) fun _ =>
        once_create (e := .subTask) (by simp [writes]))
  | updateSubTask =>
      refine ends_answering (ends_bind (confined_read _) fun _ => ?_)
      exact ends_bind (confined_throwIf _ _) fun _ =>
        once_update (e := .subTask) (by simp [writes]) fun _ => rfl
  | removeSubTask => exact ends_answering (once_removeById (e := .subTask) (by simp [writes]))
  | removeUser =>
      exact ends_answering (ends_bind (confined_read _) fun _ =>
        ends_bind (confined_throwIf _ _) fun _ => once_delete (e := .user) (by simp [writes]))
  | removeAdmin =>
      exact ends_answering (ends_bind (confined_read _) fun _ =>
        ends_bind (confined_throwIf _ _) fun _ =>
          ends_map _ (once_delete (e := .admin) (by simp [writes])))

variable [TokenRuntime]

omit [Runtime] in
/-- The credentials are checked, and the session is stored. -/
theorem once_session {α : Type} {found : Service (Option AuthService.ValidatedAccount)}
    (hFound : Confined [] found) (call : AuthService.RefreshCall) (role : String)
    (answer : AuthService.ValidatedAccount → AuthService.TokenPair → α) :
    Once [.put .refreshToken] (found >>= fun account =>
      AuthService.orInvalid account >>= fun user =>
        AuthService.generateTokens call { id := user.id, email := user.email, role } >>=
          fun tokens => pure (answer user tokens)) := by
  refine ends_bind hFound fun account => ?_
  cases account with
  | none => exact ends_throw _
  | some user =>
      refine ends_bind (confined_pure user) fun user => ?_
      rw [AuthService.generateTokens_eq]
      split
      · exact ends_throw _
      · exact ends_map _ (ends_map _ (once_create (e := .refreshToken) (by simp)))

variable [PasswordRuntime] [DecodeRuntime]

omit [Runtime] in
theorem AccountOp.once (op : AccountOp) (h : op.OneStatement) : OnceServer op.writes op.prog := by
  cases op with
  | resetUserPassword | signup | refreshTokens | logout | forgotPassword | resetPassword
  | requestReset | redeemReset | sendTemporaryPassword | generatePassword | approveRequest =>
      exact h.elim
  | createAdmin => exact ends_operation (once_create (e := .admin) (by simp [writes]))
  | updateAdmin =>
      exact ends_operation (ends_bind (confined_read _) fun _ =>
        ends_bind (confined_throwIf _ _) fun _ => ends_bind (confined_throwIf _ _) fun _ =>
          once_update (e := .admin) (by simp [writes]) fun _ => trivial)
  | removeAdmin =>
      exact ends_operation (ends_bind (confined_read _) fun _ =>
        ends_bind (confined_throwIf _ _) fun _ =>
          ends_map _ (once_delete (e := .admin) (by simp [writes])))
  | createUser =>
      exact ends_operation (ends_bind (confined_read _) fun _ =>
        ends_bind (confined_throwIf _ _) fun _ => once_create (e := .user) (by simp [writes]))
  | updateUser =>
      exact ends_operation (ends_bind (confined_requireUser _) fun _ =>
        ends_bind (confined_throwIf _ _) fun _ =>
          once_update (e := .user) (by simp [writes]) fun _ => .inl rfl)
  | removeUser =>
      exact ends_operation (ends_bind (confined_read _) fun _ =>
        ends_bind (confined_throwIf _ _) fun _ => once_delete (e := .user) (by simp [writes]))
  | updateMyProfile =>
      exact ends_operation (ends_bind (confined_requireUser _) fun _ =>
        ends_bind (confined_requireFree _) fun _ =>
          once_update (e := .user) (by simp [writes]) fun _ => .inl rfl)
  | changeMyPassword =>
      refine ends_operation (ends_bind (confined_requireUser _) fun _ => ?_)
      exact ends_bind (confined_throwIf _ _) fun _ =>
        ends_map _ (once_update (e := .user) (by simp [writes]) fun _ => .inl rfl)
  | login input call =>
      exact ends_operation (once_session (confined_validate _ _ _) call _ _)
  | loginUser input call =>
      exact ends_operation (once_session (confined_bind (confined_read _) fun _ =>
        confined_pure _) call "user" fun _ tokens =>
          (⟨tokens.accessToken, tokens.refreshToken, tokens.expiresIn⟩ :
            AuthService.LoginUserResult))
  | createRequest =>
      refine ends_operation (ends_bind (confined_requireUser _) fun _ => ?_)
      refine ends_bind (confined_throwIf _ _) fun _ => ends_bind (confined_throwIf _ _)
        fun _ => ends_bind (confined_throwIf _ _) fun _ => ?_
      exact once_create (e := .userRequest) (by simp [writes])
  | rejectRequest =>
      refine ends_operation (ends_bind (confined_read _) fun found => ?_)
      refine ends_bind (confined_requirePending _ _ _ _) fun _ =>
        once_update (e := .userRequest) (by simp [writes]) fun _ => ⟨rfl, fun _ => ?_⟩
      exact (by decide : "rejected" ≠ "pending")

theorem Operation.once (op : Operation) (h : op.OneStatement) : OnceServer op.writes op.prog := by
  cases op with
  | service op => exact ends_onStore (ends_map _ (op.once h))
  | account op => exact op.once h

end Operations

/-! ## Requests -/

section Requests

variable [Runtime] [PasswordRuntime] [TokenRuntime] [DecodeRuntime]
  [PassportRuntime]

omit [Runtime] [PasswordRuntime] [TokenRuntime] [DecodeRuntime]
  [PassportRuntime] in
theorem Operation.oneStatement_calledBy {op : Operation} (h : op.OneStatement)
    (authHeader : Option String) (user : RequestUser) :
    (op.calledBy authHeader user).OneStatement := by
  cases op with
  | service op => cases op <;> exact h
  | account op => cases op <;> exact h

/-- The guards only read. -/
theorem Request.ends {commit : Store → Store → Prop} (r : Request)
    (h : EndsInServer commit r.op.prog)
    (hCalled : ∀ user, EndsInServer commit (r.op.calledBy r.authHeader user).prog) :
    EndsInServer commit r.handle := by
  unfold Request.handle
  split
  · exact fun _ => commits_throw _
  · exact h
  · exact ends_guarded (guarantees_read (fun _ => .same) _) hCalled
  · exact ends_guarded (confined_authenticatePermission _ _ _) fun _ => h

theorem Request.once (r : Request) (h : r.op.OneStatement) : OnceServer r.op.writes r.handle := by
  refine r.ends (r.op.once h) fun user => ?_
  have hCalled := (r.op.calledBy r.authHeader user).once
    (Operation.oneStatement_calledBy h r.authHeader user)
  rwa [Operation.calledBy_writes] at hCalled

variable {ι : Type} [DecidableEq ι] {requests : ι → Request} {s : Server}
  {steps : List (Pool ι Server Exn Unit × Pool ι Server Exn Unit)} {c : Pool ι Server Exn Unit}

/-- Whatever else is requested at the same time and whichever steps fail: the store has changed with
the step in which the request was answered, or not at all. -/
theorem committed_or_nothing {commit : Store → Store → Prop}
    (hRun : Pool.History KeepsStore (Pool.start s fun i => (requests i).handle) steps c) {i : ι}
    (hEnds : EndsInServer commit (requests i).handle) :
    (¬ c.Returned i () → ∀ t ∈ Pool.Past steps i, t.2.store = t.1.store) ∧
      (c.Returned i () → ∃ before m after, steps = before ++ m :: after ∧
        Pool.Moved m.1 m.2 i ∧ m.2.Returned i () ∧ (∀ m' ∈ after, ¬ Pool.Moved m'.1 m'.2 i) ∧
        (∀ t ∈ Pool.Past before i, t.2.store = t.1.store) ∧
        commit m.1.state.store m.2.state.store) := by
  have hFate : Pool.Fate KeepsStore (fun _ s s' _ => commit s.store s'.store) (fun _ _ => False)
      steps c i := hRun.fate (fun _ => rfl) (hEnds ∅)
  cases hFate with
  | going hCommits hGuar =>
      refine ⟨fun _ => hGuar, fun hReturned => ?_⟩
      exact (hCommits.of_done hReturned).elim
  | committed before m after hSteps hCommitted hReturned hRest =>
      refine ⟨fun hNot => absurd hReturned hNot, fun _ => ⟨before, m, after, hSteps, ?_⟩⟩
      exact ⟨hCommitted.moved, hCommitted.returned, hRest, hCommitted.before, hCommitted.commit⟩

/-- **All or nothing**: whatever else is requested at the same time and whichever steps fail, a
request for an operation of one statement that has not been answered has changed nothing, and one
that has been answered changed the store with its last step only, within its footprint. -/
theorem requests_all_or_nothing
    (hRun : Pool.History KeepsStore (Pool.start s fun i => (requests i).handle) steps c) {i : ι}
    (hOne : (requests i).op.OneStatement) :
    (¬ c.Returned i () → ∀ t ∈ Pool.Past steps i, t.2.store = t.1.store) ∧
      (c.Returned i () → ∃ before m after, steps = before ++ m :: after ∧
        Pool.Moved m.1 m.2 i ∧ m.2.Returned i () ∧ (∀ m' ∈ after, ¬ Pool.Moved m'.1 m'.2 i) ∧
        (∀ t ∈ Pool.Past before i, t.2.store = t.1.store) ∧
        Store.schema.Statement (· ∈ (requests i).op.writes) m.1.state.store m.2.state.store) :=
  committed_or_nothing hRun ((requests i).once hOne)

end Requests

section Site

attribute [local instance] asciiRuntime siteTokens plainPassport saltedHashes benDecode

/-- Two logins of the user, and the removal of the account by the admin. -/
def loginRequests : Nat → Request
  | 0 | 1 => ⟨none, .graphql, .account (.login ⟨"ben@site", "y", none⟩ ⟨"j", 0, 0, 0, 0, 0, 0, 0⟩)⟩
  | _ => ⟨some "Bearer b", .graphql, .account (.removeUser 1)⟩

/-- The second login is still running when the account is removed. -/
def loginPool : Pool Nat Server Exn Unit :=
  (Pool.start siteServer fun i => (loginRequests i).handle).play [0, 1, 0]

theorem loginPool_returned : loginPool.Returned 0 () := by
  unfold Pool.Returned
  rfl

theorem loginPool_running : ¬ loginPool.Returned 1 () := by
  unfold Pool.Returned
  intro h
  cases h

/-- The first login has stored a session in its last step, the second one nothing so far. -/
theorem requests_all_or_nothing_site : ∃ steps,
    Pool.History KeepsStore (Pool.start siteServer fun i => (loginRequests i).handle) steps
      loginPool ∧
    (∀ t ∈ Pool.Past steps 1, t.2.store = t.1.store) ∧
    ∃ before m after, steps = before ++ m :: after ∧ Pool.Moved m.1 m.2 0 ∧
      ∀ m' ∈ after, ¬ Pool.Moved m'.1 m'.2 0 := by
  have hReach : Relation.ReflTransGen (Pool.Step KeepsStore)
      (Pool.start siteServer fun i => (loginRequests i).handle) loginPool :=
    Pool.reach_of_exec (Pool.reach_play _ _)
  obtain ⟨steps, hRun⟩ := Pool.history_of_reach hReach
  have hFirst := (requests_all_or_nothing hRun (i := 0) trivial).2 loginPool_returned
  obtain ⟨before, m, after, hSteps, hMoved, -, hRest, -, -⟩ := hFirst
  exact ⟨steps, hRun, (requests_all_or_nothing hRun (i := 1) trivial).1 loginPool_running,
    before, m, after, hSteps, hMoved, hRest⟩

end Site

end Rooeel
