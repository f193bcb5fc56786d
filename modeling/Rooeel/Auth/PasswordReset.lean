import Rooeel.User.Accounts

/-!
# Redeeming a reset token

Two services redeem the tokens of a reset link: they look the token up, check it, look up the
user with the address of the token, write the password and mark the token. They differ in
their messages and in how the last statement names the row.

Nothing ties the marking to the check. When no call looks the token up while another one is
running, and the marking does not fail, one call at most changes a password. Without either
condition two calls can.
-/

namespace Rooeel

open JavaScript Prog Table

/-! ## The two methods -/

/-- The new password and the readings of the clock of one call. -/
structure ResetCall where
  secret : Secret
  checkedAt : Int
  usedAt : Int

/-- What the two methods differ in. -/
structure ResetMethod where
  invalid : Exn
  used : Exn
  expired : Exn
  unknownUser : Exn
  /-- The row that the last statement marks, by the argument and the row that was found. -/
  marks : String → PasswordResetToken → PasswordResetToken → Bool
  done : String

/-- The checks of the row. -/
def ResetMethod.requireUsable (m : ResetMethod) (checkedAt : Int)
    (record : Option PasswordResetToken) : Service PasswordResetToken :=
  match record with
  | none => throw m.invalid
  | some record => do
    Prog.throwIf (record.usedAt.isSome = true) m.used
    Prog.throwIf (record.expiresAt < checkedAt) m.expired
    pure record

def ResetMethod.resetPassword [PasswordRuntime] (m : ResetMethod) (token : String)
    (call : ResetCall) : Service String := do
  let found ← findUnique prisma.passwordResetToken fun r => r.token == token
  let record ← m.requireUsable call.checkedAt found
  match ← findUnique prisma.user fun u => u.email == record.email with
  | none => throw m.unknownUser
  | some user => do
    let _user ← update prisma.user (fun u => u.id == user.id) fun u =>
      { u with password := call.secret.hash }
    let _row ← update prisma.passwordResetToken (m.marks token record) fun r =>
      { r with usedAt := some call.usedAt }
    pure m.done

def AuthService.resetMethod : ResetMethod where
  invalid := .badRequest "Invalid or expired reset token"
  used := .badRequest "Reset token has already been used"
  expired := .badRequest "Reset token has expired"
  unknownUser := .badRequest "User not found"
  marks token _ r := r.token == token
  done := "Password reset successfully. You can now log in."

def AuthService.resetPassword [PasswordRuntime] (token : String) (call : ResetCall) :
    Service String :=
  AuthService.resetMethod.resetPassword token call

def PasswordResetService.resetMethod : ResetMethod where
  invalid := .notFound "Invalid or expired reset token"
  used := .badRequest "This reset link has already been used"
  expired := .badRequest "This reset link has expired"
  unknownUser := .notFound "User not found"
  marks _ record r := r.id == record.id
  done := "Password has been reset successfully. You can now log in with your new password."

def PasswordResetService.resetPassword [PasswordRuntime] (token : String) (call : ResetCall) :
    Service String :=
  PasswordResetService.resetMethod.resetPassword token call

/-- A call of one of the two methods. -/
inductive Redemption where
  | authService (call : ResetCall)
  | passwordResetService (call : ResetCall)

namespace Redemption

def call : Redemption → ResetCall
  | .authService call | .passwordResetService call => call

def method : Redemption → ResetMethod
  | .authService _ => AuthService.resetMethod
  | .passwordResetService _ => PasswordResetService.resetMethod

section Code

variable [PasswordRuntime]

def prog (token : String) : Redemption → Service String
  | .authService call => AuthService.resetPassword token call
  | .passwordResetService call => PasswordResetService.resetPassword token call

/-! ## The statements of a call -/

/-- The row of a token. -/
def tokenOf (token : String) (t : Table PasswordResetToken) : Option PasswordResetToken :=
  t.rows.find? fun r => r.token == token

/-- The last statement. -/
def markUsed (r : Redemption) (token : String) (record : PasswordResetToken) : Service String := do
  let _row ← update prisma.passwordResetToken (r.method.marks token record) fun x =>
    { x with usedAt := some r.call.usedAt }
  pure r.method.done

/-- The write of the password, and the last statement. -/
def setPassword (r : Redemption) (token : String) (record : PasswordResetToken) (user : User) :
    Service String := do
  let _user ← update prisma.user (fun u => u.id == user.id) fun u =>
    { u with password := r.call.secret.hash }
  markUsed r token record

/-- What follows the read of the user. -/
def withUser (r : Redemption) (token : String) (record : PasswordResetToken) :
    Option User → Service String
  | none => throw r.method.unknownUser
  | some user => setPassword r token record user

/-- What follows the checks. -/
def redeem (r : Redemption) (token : String) (record : PasswordResetToken) : Service String :=
  findUnique prisma.user (fun u => u.email == record.email) >>= withUser r token record

/-- What follows the lookup. -/
def afterLookup (r : Redemption) (token : String) (found : Option PasswordResetToken) :
    Service String :=
  r.method.requireUsable r.call.checkedAt found >>= redeem r token

theorem prog_eq (r : Redemption) (token : String) :
    r.prog token =
      query (fun s => tokenOf token s.passwordResetToken) >>= afterLookup r token := by
  cases r <;> rfl

/-- The checks of a row that was found, one after the other. -/
theorem afterLookup_some (r : Redemption) (token : String) (record : PasswordResetToken) :
    afterLookup r token (some record) =
      Prog.throwIf (record.usedAt.isSome = true) r.method.used >>= fun _ =>
        Prog.throwIf (record.expiresAt < r.call.checkedAt) r.method.expired >>= fun _ =>
          redeem r token record := by
  change (_ >>= _) >>= _ = _
  simp only [Prog.bind_assoc]
  rfl

theorem afterLookup_cases (r : Redemption) (token : String) (found : Option PasswordResetToken) :
    (∃ e, afterLookup r token found = throw e) ∨
      ∃ record, found = some record ∧ record.usedAt.isSome = false ∧
        afterLookup r token found = redeem r token record := by
  cases found with
  | none => exact Or.inl ⟨_, rfl⟩
  | some record =>
      rw [afterLookup_some, throwIf_bind, throwIf_bind]
      split
      · exact Or.inl ⟨_, rfl⟩
      · rename_i hUnused
        split
        · exact Or.inl ⟨_, rfl⟩
        · exact Or.inr ⟨record, rfl, Bool.eq_false_iff.mpr hUnused, rfl⟩

end Code

/-- The token is a unique column. -/
def UniqueTokens (t : Table PasswordResetToken) : Prop :=
  t.rows.Pairwise fun r r' => (r.token == r'.token) = false

/-- The last statement names the row that was found, and no constraint speaks against it. -/
theorem marks_record {s : Store} (hUnique : UniqueTokens s.passwordResetToken) {token : String}
    {record : PasswordResetToken} (hFind : tokenOf token s.passwordResetToken = some record)
    (r : Redemption) :
    prisma.passwordResetToken.findFirst (r.method.marks token record) s = some record ∧
      prisma.passwordResetToken.accepts s { record with usedAt := some r.call.usedAt } =
        .ok () := by
  have hSound : prisma.passwordResetToken.Sound s := ⟨fun _ _ => rfl, hUnique⟩
  have hMem : record ∈ s.passwordResetToken.rows := List.mem_of_find?_eq_some hFind
  constructor
  · cases r with
    | authService call => exact hFind
    | passwordResetService call => exact find_eq_some.mpr ⟨hMem, rfl⟩
  · refine Model.accepts_of rfl fun x hx hKey => ?_
    by_contra hConflict
    have hSame : x = record := hSound.eq_of_conflicts
      (fun a b => Bool.beq_comm) hx hMem (Bool.not_eq_false _ ▸ hConflict)
    have hId : x.id = record.id := congrArg PasswordResetToken.id hSame
    exact hKey hId

theorem tokenOf_mark {t : Table PasswordResetToken} {token : String}
    {record : PasswordResetToken} (usedAt : Int) (hFind : tokenOf token t = some record) :
    tokenOf token (t.modify (fun x => Row.key x == Row.key record)
      (fun x => { x with usedAt := some usedAt }) fun _ => rfl) =
      some { record with usedAt := some usedAt } := by
  unfold tokenOf at hFind ⊢
  rw [find?_modify]
  · rw [hFind, Option.map_some, if_pos (beq_self_eq_true _)]
  · exact fun _ => rfl

/-! ## The stages of a token -/

/-- What has become of a token: a call has found it usable, has written the password, has
marked it. -/
inductive Stage (ι : Type) where
  | unused
  | exposed (i : ι)
  | written (i : ι)
  | used (i : ι)

namespace Stage

variable {ι : Type}

def who : Stage ι → Option ι
  | .unused => none
  | .exposed i | .written i | .used i => some i

/-- The password has been written. -/
def Spent : Stage ι → Prop
  | .written _ | .used _ => True
  | _ => False

end Stage

/-- The passwords of the users. -/
def passwords (s : Store) : List (Id × String) := s.user.rows.map fun u => (u.id, u.password)

section Interleavings

variable [PasswordRuntime] {ι : Type} [DecidableEq ι]

/-- Calls with one token, none of them started. -/
def resetCalls (s : Store) (token : String) (calls : ι → Redemption) : Pool ι Store Exn String :=
  Pool.start s fun i => (calls i).prog token

/-- A call has found the row `record` usable, and is about to read the user or to write the
password. -/
def Exposed (token : String) (calls : ι → Redemption) (c : Pool ι Store Exn String) (i : ι)
    (record : PasswordResetToken) : Prop :=
  (c.steps i = 1 ∧ c.proc i = redeem (calls i) token record) ∨
    c.steps i = 2 ∧ ∃ user, c.proc i = setPassword (calls i) token record user

/-- Where the call that a stage is about stands. Up to the marking, the tokens are as in the
table `t`. -/
def Stage.Doing (t : Table PasswordResetToken) (token : String) (calls : ι → Redemption)
    (c : Pool ι Store Exn String) : Stage ι → Prop
  | .unused => c.state.passwordResetToken = t
  | .exposed i => c.state.passwordResetToken = t ∧ ∃ record, tokenOf token t = some record ∧
      Exposed token calls c i record
  | .written i => c.state.passwordResetToken = t ∧ ∃ record, tokenOf token t = some record ∧
      c.steps i = 3 ∧ c.proc i = markUsed (calls i) token record
  | .used i => (∃ record, tokenOf token c.state.passwordResetToken = some record ∧
      record.usedAt.isSome = true) ∧ c.Ended i

/-- The calls have brought the token to the stage. -/
structure At (t : Table PasswordResetToken) (token : String) (calls : ι → Redemption)
    (c : Pool ι Store Exn String) (stage : Stage ι) : Prop where
  idle : Pool.IdleBut (fun j => (calls j).prog token) c stage.who
  doing : stage.Doing t token calls c

/-- A step that writes a password spends the token, and a spent token stays so and writes no
password. -/
structure Stage.Next (c c' : Pool ι Store Exn String) (stage stage' : Stage ι) : Prop where
  keeps : stage.Spent → stage'.Spent ∧ passwords c'.state = passwords c.state
  spends : passwords c'.state ≠ passwords c.state → stage'.Spent

omit [PasswordRuntime] [DecidableEq ι] in
theorem Stage.Next.of_same {c c' : Pool ι Store Exn String} {stage stage' : Stage ι}
    (hUser : c'.state.user = c.state.user) (hSpent : stage.Spent → stage'.Spent) :
    Stage.Next c c' stage stage' := by
  have hSame : passwords c'.state = passwords c.state := by rw [passwords, hUser, passwords]
  exact ⟨fun h => ⟨hSpent h, hSame⟩, fun hChanged => absurd hSame hChanged⟩

/-- A call looks the token up only when no other call is running, and the marking of the token
does not fail: it is the fourth statement. -/
def OneReset (c c' : Pool ι Store Exn String) : Prop :=
  Pool.ExecUnless Pool.Running c c' ∨ ∃ i e, c.fault i e = some c' ∧ c.steps i ≠ 3

variable {t : Table PasswordResetToken} {token : String} {calls : ι → Redemption}
  {c c' : Pool ι Store Exn String} {stage : Stage ι} {i : ι}

/-- Another call fails, and leaves the token as it was. -/
theorem At.stay (h : At t token calls c stage) (hMoved : Pool.Moved c c' i)
    (hOther : stage.who ≠ some i) (hState : c'.state = c.state)
    (hFailed : ∃ e, c'.proc i = .done (.error e)) :
    At t token calls c' stage ∧ Stage.Next c c' stage stage := by
  refine ⟨⟨h.idle.moves hMoved (fun _ hj => Or.inl hj) (Or.inr hFailed), ?_⟩, ?_⟩
  · have hDoing := h.doing
    cases stage with
    | unused => exact (congrArg Store.passwordResetToken hState).trans hDoing
    | exposed k | written k | used k =>
        obtain ⟨hProc, hSteps⟩ := hMoved.others k fun hSame => hOther (congrArg some hSame)
        simpa only [Stage.Doing, Exposed, Pool.Ended, hProc, hSteps, hState] using hDoing
  · exact Stage.Next.of_same (by rw [hState]) id

/-- The call that a stage is about fails before it has written the password. -/
theorem At.release (h : At t token calls c (.exposed i)) (hMoved : Pool.Moved c c' i)
    (hState : c'.state = c.state) (hFailed : ∃ e, c'.proc i = .done (.error e)) :
    At t token calls c' .unused ∧ Stage.Next c c' (.exposed i) .unused := by
  refine ⟨⟨?_, ?_⟩, Stage.Next.of_same (by rw [hState]) False.elim⟩
  · exact h.idle.moves hMoved (fun j hj => Or.inr (Option.some.inj hj).symm) (Or.inr hFailed)
  · exact (congrArg Store.passwordResetToken hState).trans h.doing.1

/-- A failing statement, other than the marking. -/
theorem At.step_fault (h : At t token calls c stage) {e : Exn} (hFault : c.fault i e = some c')
    (hMark : c.steps i ≠ 3) :
    ∃ stage', At t token calls c' stage' ∧ Stage.Next c c' stage stage' := by
  have hMoved := Pool.moved_of_fault hFault
  have hState := Pool.state_of_fault hFault
  by_cases hWho : stage.who = some i
  · cases stage with
    | unused => cases hWho
    | exposed k =>
        obtain rfl := Option.some.inj hWho
        obtain ⟨-, record, -, ⟨-, hProc⟩ | ⟨-, user, hProc⟩⟩ := h.doing
        · exact ⟨_, h.release hMoved hState ⟨e, Pool.fault_read hFault hProc⟩⟩
        · exact ⟨_, h.release hMoved hState ⟨e, Pool.fault_atomic hFault hProc⟩⟩
    | written k =>
        obtain rfl := Option.some.inj hWho
        obtain ⟨-, record, -, hSteps, -⟩ := h.doing
        exact absurd hSteps hMark
    | used k =>
        obtain rfl := Option.some.inj hWho
        exact absurd h.doing.2 hMoved.running
  · obtain ⟨-, hProc⟩ := (h.idle i hWho).moves hMoved
    exact ⟨_, h.stay hMoved hWho hState ⟨e, Pool.fault_read hFault (hProc.trans (prog_eq _ _))⟩⟩

/-- The lookup, by a call that the stage is not about. -/
theorem At.exec_first (h : At t token calls c stage) (hExec : c.exec i = some c')
    (hWho : stage.who ≠ some i) :
    c'.state = c.state ∧ c'.steps i = 1 ∧
      c'.proc i = afterLookup (calls i) token (tokenOf token c.state.passwordResetToken) := by
  obtain ⟨hFirst, hProc⟩ := (h.idle i hWho).first hExec
  obtain ⟨hState, hNext⟩ := Pool.exec_read hExec (hProc.trans (prog_eq _ _))
  refine ⟨hState, ?_, hNext⟩
  rw [(Pool.moved_of_exec hExec).steps, hFirst]

/-- The lookup while the token is unused. -/
theorem At.step_unused (h : At t token calls c .unused) (hExec : c.exec i = some c') :
    ∃ stage', At t token calls c' stage' ∧ Stage.Next c c' .unused stage' := by
  have hMoved := Pool.moved_of_exec hExec
  have hWho : (Stage.unused (ι := ι)).who ≠ some i := fun hSome => nomatch hSome
  obtain ⟨hState, hSteps, hNext⟩ := h.exec_first hExec hWho
  rcases afterLookup_cases (calls i) token (tokenOf token c.state.passwordResetToken) with
    ⟨e, hThrow⟩ | ⟨record, hFind, -, hRedeem⟩
  · exact ⟨_, h.stay hMoved hWho hState ⟨e, hNext.trans hThrow⟩⟩
  · have hTokens : c.state.passwordResetToken = t := h.doing
    rw [hTokens] at hFind
    refine ⟨.exposed i, ⟨?_, ?_, record, hFind, Or.inl ⟨hSteps, hNext.trans hRedeem⟩⟩, ?_⟩
    · exact h.idle.exec hExec (fun _ hj => nomatch hj) (Or.inl rfl)
    · rw [hState]
      exact hTokens
    · exact Stage.Next.of_same (by rw [hState]) False.elim

/-- The call that has found the token usable reads the user, or writes the password. -/
theorem At.step_exposed (h : At t token calls c (.exposed i)) (hExec : c.exec i = some c') :
    ∃ stage', At t token calls c' stage' ∧ Stage.Next c c' (.exposed i) stage' := by
  have hMoved := Pool.moved_of_exec hExec
  have hIdle : Pool.IdleBut (fun j => (calls j).prog token) c' (some i) :=
    h.idle.exec hExec (fun _ hj => Or.inl hj) (Or.inl rfl)
  obtain ⟨hTokens, record, hFind, ⟨hSteps, hProc⟩ | ⟨hSteps, user, hProc⟩⟩ := h.doing
  · obtain ⟨hState, hNext⟩ := Pool.exec_read hExec hProc
    cases hUser : prisma.user.findFirst (fun u => u.email == record.email) c.state with
    | none =>
        rw [hUser] at hNext
        exact ⟨_, h.release hMoved hState ⟨_, hNext⟩⟩
    | some user =>
        rw [hUser] at hNext
        refine ⟨.exposed i, ⟨hIdle, ?_, record, hFind, Or.inr ⟨?_, user, hNext⟩⟩, ?_⟩
        · rw [hState]
          exact hTokens
        · rw [hMoved.steps, hSteps]
        · exact Stage.Next.of_same (by rw [hState]) id
  · rcases exec_execute hExec hProc with ⟨row, hOk, hNext⟩ | ⟨e, -, hState, hNext⟩
    · obtain ⟨u, -, -, -, -, -, hState⟩ := Model.update_ok hOk
      refine ⟨.written i, ⟨hIdle, ?_, record, hFind, ?_, hNext⟩, ?_⟩
      · rw [hState]
        exact hTokens
      · rw [hMoved.steps, hSteps]
      · exact ⟨False.elim, fun _ => trivial⟩
    · exact ⟨_, h.release hMoved hState ⟨_, hNext⟩⟩

/-- The marking succeeds. -/
theorem At.step_written (hUnique : UniqueTokens t) (h : At t token calls c (.written i))
    (hExec : c.exec i = some c') :
    ∃ stage', At t token calls c' stage' ∧ Stage.Next c c' (.written i) stage' := by
  obtain ⟨hTokens, record, hFind, -, hProc⟩ := h.doing
  rw [← hTokens] at hUnique hFind
  obtain ⟨hFound, hAccepts⟩ := marks_record hUnique hFind (calls i)
  rcases exec_execute hExec hProc with ⟨row, hOk, hNext⟩ | ⟨e, hError, -, -⟩
  · rw [Model.update_of_find hFound hAccepts] at hOk
    obtain ⟨-, hState⟩ := Prod.mk.inj (Except.ok.inj hOk)
    refine ⟨.used i, ⟨?_, ⟨{ record with usedAt := some (calls i).call.usedAt }, ?_, rfl⟩,
      _, hNext⟩, Stage.Next.of_same (by rw [← hState]; rfl) id⟩
    · exact h.idle.exec hExec (fun _ hj => Or.inl hj) (Or.inl rfl)
    · rw [← hState]
      exact tokenOf_mark _ hFind
  · rw [Model.update_of_find hFound hAccepts] at hError
    cases hError

/-- A call that finds the token marked fails. -/
theorem At.step_used {k : ι} (h : At t token calls c (.used k)) (hExec : c.exec i = some c')
    (hWho : (Stage.used k).who ≠ some i) :
    At t token calls c' (.used k) ∧ Stage.Next c c' (.used k) (.used k) := by
  obtain ⟨hState, -, hNext⟩ := h.exec_first hExec hWho
  obtain ⟨⟨record, hFind, hUsed⟩, -⟩ := h.doing
  rw [hFind] at hNext
  rcases afterLookup_cases (calls i) token (some record) with
    ⟨e, hThrow⟩ | ⟨_, hSame, hUnused, -⟩
  · exact h.stay (Pool.moved_of_exec hExec) hWho hState ⟨e, hNext.trans hThrow⟩
  · obtain rfl := Option.some.inj hSame
    rw [hUsed] at hUnused
    cases hUnused

/-- A step of a call that the stage is not about. -/
theorem At.step_other (h : At t token calls c stage) (hExec : c.exec i = some c')
    (hAlone : c.steps i = 0 → ∀ j, ¬ c.Running j) (hWho : stage.who ≠ some i) :
    ∃ stage', At t token calls c' stage' ∧ Stage.Next c c' stage stage' := by
  have hEnded := fun k => h.idle.ended_of_alone (k := k) (Pool.moved_of_exec hExec) hAlone hWho
  cases stage with
  | unused => exact h.step_unused hExec
  | used k => exact ⟨_, h.step_used hExec hWho⟩
  | exposed k =>
      obtain ⟨-, record, -, ⟨hSteps, hProc⟩ | ⟨hSteps, user, hProc⟩⟩ := h.doing
      · obtain ⟨r, hDone⟩ := hEnded k (by rw [hSteps]; decide)
        rw [hDone] at hProc
        cases hProc
      · obtain ⟨r, hDone⟩ := hEnded k (by rw [hSteps]; decide)
        rw [hDone] at hProc
        cases hProc
  | written k =>
      obtain ⟨-, record, -, hSteps, hProc⟩ := h.doing
      obtain ⟨r, hDone⟩ := hEnded k (by rw [hSteps]; decide)
      rw [hDone] at hProc
      cases hProc

theorem At.step (hUnique : UniqueTokens t) (h : At t token calls c stage) (hStep : OneReset c c') :
    ∃ stage', At t token calls c' stage' ∧ Stage.Next c c' stage stage' := by
  rcases hStep with ⟨i, hExec, hAlone⟩ | ⟨i, e, hFault, hMark⟩
  · by_cases hWho : stage.who = some i
    · cases stage with
      | unused => cases hWho
      | exposed k =>
          obtain rfl := Option.some.inj hWho
          exact h.step_exposed hExec
      | written k =>
          obtain rfl := Option.some.inj hWho
          exact h.step_written hUnique hExec
      | used k =>
          obtain rfl := Option.some.inj hWho
          exact absurd h.doing.2 (Pool.exec_ended hExec)
    · exact h.step_other hExec hAlone hWho
  · exact h.step_fault hFault hMark

/-! ## All interleavings -/

/-- Call `i` changes a password with its next step. -/
def Changes (c c' : Pool ι Store Exn String) (i : ι) : Prop :=
  c.exec i = some c' ∧ passwords c'.state ≠ passwords c.state

/-- At most one call changes a password, when the steps of the calls are taken in the orders
that `step` allows. -/
def WorksOnce (step : Pool ι Store Exn String → Pool ι Store Exn String → Prop)
    (c₀ : Pool ι Store Exn String) : Prop :=
  ∀ c₁ c₁' c₂ c₂' i j, Relation.ReflTransGen step c₀ c₁ → step c₁ c₁' → Changes c₁ c₁' i →
    Relation.ReflTransGen step c₁' c₂ → step c₂ c₂' → Changes c₂ c₂' j → i = j

theorem At.reach (hUnique : UniqueTokens t) (h : At t token calls c stage)
    (hReach : Relation.ReflTransGen OneReset c c') :
    ∃ stage', At t token calls c' stage' ∧ (stage.Spent → stage'.Spent) := by
  induction hReach with
  | refl => exact ⟨stage, h, id⟩
  | tail _ hStep ih =>
      obtain ⟨stage₁, hAt, hSpent⟩ := ih
      obtain ⟨stage₂, hAt', hNext⟩ := hAt.step hUnique hStep
      exact ⟨stage₂, hAt', fun h => (hNext.keeps (hSpent h)).1⟩

/-- **A reset token works once**, in every interleaving of any number of calls in which no call
looks it up while another one is running, and in which any statement but the marking can
fail. -/
theorem reset_token_works_once {s : Store} (hValid : s.Valid) (token : String)
    (calls : ι → Redemption) : WorksOnce OneReset (resetCalls s token calls) := by
  intro c₁ c₁' c₂ c₂' i j hReach hStep hFirst hReach' hStep' hSecond
  have hUnique : UniqueTokens s.passwordResetToken := hValid.passwordResetToken.unique
  have hStart : At s.passwordResetToken token calls (resetCalls s token calls) .unused :=
    ⟨Pool.idleBut_start _ _, rfl⟩
  obtain ⟨stage, hAt, -⟩ := hStart.reach hUnique hReach
  obtain ⟨stage', hAt', hNext⟩ := hAt.step hUnique hStep
  obtain ⟨stage₂, hAt₂, hSpent⟩ := hAt'.reach hUnique hReach'
  obtain ⟨_, -, hNext'⟩ := hAt₂.step hUnique hStep'
  exact absurd (hNext'.keeps (hSpent (hNext.spends hFirst.2))).2 hSecond.2

end Interleavings

section Site

attribute [local instance] saltedHashes

/-- The member of the small site has been sent a link. -/
def resetSite : Store :=
  { site with
    passwordResetToken := Table.empty.insert (fun id =>
      { id, email := "ben@site", token := "t", expiresAt := 1000, usedAt := none }) fun _ => rfl }

theorem resetSite_valid : resetSite.Valid := by
  constructor <;> decide

/-- A call of each service with the token of the link. -/
def bothResets : Bool → Redemption
  | true => .authService ⟨⟨"p", "0"⟩, 10, 11⟩
  | false => .passwordResetService ⟨⟨"q", "1"⟩, 10, 12⟩

/-- The two calls, none of them started. -/
def bothStart : Pool Bool Store Exn String := resetCalls resetSite "t" bothResets

/-- Both calls look the token up before the first of them marks it; both write the password. -/
theorem reset_token_works_twice : ¬ WorksOnce (Pool.Step fun _ _ => False) bothStart := by
  intro h
  have hReach := Pool.reach_play bothStart [true, true, false, false]
  refine absurd (h _ _ (bothStart.play [true, true, false, false, true]) _ true false
    (Pool.reach_of_exec hReach) (.exec true rfl) ⟨rfl, by decide⟩ .refl
    (.exec false rfl) ⟨rfl, by decide⟩) (by decide)

/-- A call looks the token up only when no other call is running; any statement can fail. -/
def OneAtATime (c c' : Pool Bool Store Exn String) : Prop :=
  Pool.ExecUnless Pool.Running c c' ∨ ∃ i e, c.fault i e = some c'

/-- One call writes the password, and its last statement fails; the other call starts then, and
writes the password again. -/
theorem reset_token_survives_failure : ¬ WorksOnce OneAtATime bothStart := by
  have hStarted {c c' : Pool Bool Store Exn String} (i : Bool) (hExec : c.exec i = some c')
      (hSteps : c.steps i ≠ 0) : OneAtATime c c' :=
    Or.inl ⟨i, hExec, fun hFirst => absurd hFirst hSteps⟩
  let written := bothStart.play [true, true, true]
  let failed : Pool Bool Store Exn String := (written.fault true (.prisma .invalid)).getD written
  have hFirst : OneAtATime bothStart (bothStart.play [true]) := by
    refine Or.inl ⟨true, rfl, fun _ j hRunning => ?_⟩
    exact absurd hRunning.1 (by cases j <;> decide)
  have hSecond : OneAtATime failed (failed.play [false]) := by
    refine Or.inl ⟨false, rfl, fun _ j hRunning => ?_⟩
    cases j with
    | true => exact hRunning.2 ⟨_, rfl⟩
    | false => exact absurd hRunning.1 (by decide)
  have hReach : Relation.ReflTransGen OneAtATime bothStart (bothStart.play [true, true]) :=
    .tail (.single hFirst) (hStarted true rfl (by decide))
  have hReach' : Relation.ReflTransGen OneAtATime written (failed.play [false, false]) :=
    .tail (.tail (.single (Or.inr ⟨true, _, rfl⟩)) hSecond) (hStarted false rfl (by decide))
  intro h
  have hSame := h _ _ _ (failed.play [false, false, false]) true false hReach
    (hStarted true rfl (by decide)) ⟨rfl, by decide⟩ hReach' (hStarted false rfl (by decide))
    ⟨rfl, by decide⟩
  exact absurd hSame (by decide)

/-- One after the other the first call succeeds, and the second finds the token used. -/
theorem reset_token_works_once_site :
    (bothStart.play [true, true, true, true, false]).proc false =
        .done (.error (.badRequest "This reset link has already been used")) ∧
      WorksOnce OneReset bothStart :=
  ⟨rfl, reset_token_works_once resetSite_valid "t" bothResets⟩

end Site

end Redemption

end Rooeel
