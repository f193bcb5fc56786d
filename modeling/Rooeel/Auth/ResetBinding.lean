import Rooeel.Auth.PasswordReset
import Rooeel.Auth.Refresh
import Rooeel.Request.Decision
import Rooeel.Project.Operations

/-!
# The account a reset token is issued for

A reset link is sent to a user, and its token is stored with the address of the user. Redeeming
it looks the user up again, by the address. In between, addresses can move from one account
to another.

A `ResetRun` is a sequence of calls that issue and redeem tokens and of operations on accounts.
`issuedFor` reads from it for which user and address a token was issued last; every token in
the store was issued for the address in its row.
-/

namespace Rooeel

open JavaScript Prog Table

/-! ## The email service -/

/-- `response.error`. -/
structure ProviderError where
  message : Option String
  name : Option String

/-- What becomes of `resend.emails.send`. -/
inductive ProviderOutcome where
  | throws (e : Exn)
  | answers (error : Option ProviderError)

def ProviderOutcome.send : ProviderOutcome → Service (Option ProviderError)
  | .throws e => throw e
  | .answers error => pure error

def ProviderError.errorMessage (error : ProviderError) : String :=
  AuthService.orDefault error.message
    (AuthService.orDefault error.name "Unknown email provider error")

/-- What the method catches goes to the log and is thrown again. -/
def EmailService.sendPasswordResetEmail (outcome : ProviderOutcome) : Service Unit :=
  tryCatch
    (do
      let providerError ← outcome.send
      match providerError with
      | none => pure ()
      | some error => throw (.error error.errorMessage))
    throw

/-- The exception of the method, if there is one. -/
def ProviderOutcome.mailError : ProviderOutcome → Option Exn
  | .throws e => some e
  | .answers none => none
  | .answers (some error) => some (.error error.errorMessage)

theorem sendPasswordResetEmail_eq (outcome : ProviderOutcome) :
    EmailService.sendPasswordResetEmail outcome = outcome.mailError.elim (pure ()) throw := by
  cases outcome with
  | throws e => rfl
  | answers error => cases error <;> rfl

theorem guarantees_sendPasswordResetEmail {rely guar : Store → Store → Prop}
    (outcome : ProviderOutcome) :
    Guarantees rely guar (EmailService.sendPasswordResetEmail outcome) := by
  rw [sendPasswordResetEmail_eq]
  cases outcome.mailError with
  | none => exact guarantees_pure _
  | some e => exact guarantees_throw e

/-! ## Issuing a token -/

/-- The random token, the readings of the clock, and what the email provider does. -/
structure IssueCall where
  rawToken : String
  checkedAt : Int
  now : Int
  outcome : ProviderOutcome

/-- `passwordResetToken.deleteMany`. -/
def deleteTokens (sel : PasswordResetToken → Bool) : Service Unit :=
  execute fun s => .ok ((), prisma.passwordResetToken.erase sel s)

/-- The row of a new token, which is valid for an hour. -/
def createToken (email : String) (call : IssueCall) : Service PasswordResetToken :=
  create prisma.passwordResetToken fun id =>
    { id, email, token := call.rawToken, expiresAt := call.now + 60 * 60 * 1000, usedAt := none }

def AuthService.forgotPassword (email : String) (call : IssueCall) : Service String := do
  let message := "If that email exists, a reset link has been sent."
  match ← UserService.findByEmail email with
  | none => pure message
  | some _ => do
    deleteTokens fun r => r.email == email
    let _row ← createToken email call
    EmailService.sendPasswordResetEmail call.outcome
    pure message

def PasswordResetService.requestReset (email : String) (call : IssueCall) : Service String := do
  let message := "If an account exists with this email, a password reset link has been sent."
  match ← UserService.findByEmail email with
  | none => pure message
  | some _ => do
    deleteTokens fun r => r.email == email && decide (r.expiresAt < call.checkedAt)
    deleteTokens fun r => r.email == email && r.usedAt.isNone
    let _row ← createToken email call
    EmailService.sendPasswordResetEmail call.outcome
    pure message

/-! ## Runs -/

/-- An operation of a run. -/
inductive ResetOp where
  | forgotPassword (email : String) (call : IssueCall)
  | requestReset (email : String) (call : IssueCall)
  | resetPassword (token : String) (r : Redemption)
  | createUser (input : CreateUserInput) (secret : Secret) (adminId : Id)
  | updateUser (id : Id) (input : UpdateUserInput) (salt : String)
  | removeUser (id : Id)
  | updateMyProfile (userId : Id) (input : UpdateUserInput)
  | approveRequest (id adminId : Id)

section Runs

variable [PasswordRuntime]

def ResetOp.prog : ResetOp → Service Unit
  | .forgotPassword email call => AuthService.forgotPassword email call >>= fun _ => pure ()
  | .requestReset email call => PasswordResetService.requestReset email call >>= fun _ => pure ()
  | .resetPassword token r => r.prog token >>= fun _ => pure ()
  | .createUser input secret adminId =>
      UserService.create input secret adminId >>= fun _ => pure ()
  | .updateUser id input salt => UserService.update id input salt >>= fun _ => pure ()
  | .removeUser id => Rooeel.removeUser id >>= fun _ => pure ()
  | .updateMyProfile userId input => UserService.updateMyProfile userId input >>= fun _ => pure ()
  | .approveRequest id adminId => RequestService.approveRequest id adminId >>= fun _ => pure ()

/-- An operation that was called, with the stores before and after it. -/
structure ResetEvent where
  op : ResetOp
  before : Store
  after : Store

/-- The operations of `events`, one after the other, lead from `s₀` to `s`; other parts of the
program, which leave the reset tokens alone, run in between. -/
inductive ResetRun (s₀ : Store) : List ResetEvent → Store → Prop
  | nil : ResetRun s₀ [] s₀
  | call {events : List ResetEvent} {s : Store} (op : ResetOp) (hBefore : ResetRun s₀ events s) :
      ResetRun s₀ (events ++ [⟨op, s, (op.prog.run s).2⟩]) (op.prog.run s).2
  | other {events : List ResetEvent} {s s' : Store} (hBefore : ResetRun s₀ events s)
      (hTokens : s'.passwordResetToken = s.passwordResetToken) : ResetRun s₀ events s'

/-- The operations of a list, one after the other: their events, and the store they lead to. -/
def playOps (s : Store) : List ResetOp → List ResetEvent × Store
  | [] => ([], s)
  | op :: rest =>
    (⟨op, s, (op.prog.run s).2⟩ :: (playOps (op.prog.run s).2 rest).1,
      (playOps (op.prog.run s).2 rest).2)

theorem ResetRun.play {s₀ s : Store} {events : List ResetEvent} (h : ResetRun s₀ events s)
    (ops : List ResetOp) : ResetRun s₀ (events ++ (playOps s ops).1) (playOps s ops).2 := by
  induction ops generalizing events s with
  | nil =>
      rw [playOps, List.append_nil]
      exact h
  | cons op rest ih =>
      have hRest := ih (h.call op)
      rw [List.append_assoc] at hRest
      exact hRest

theorem resetRun_play (s : Store) (ops : List ResetOp) :
    ResetRun s (playOps s ops).1 (playOps s ops).2 := by
  have hRun : ResetRun s ([] ++ (playOps s ops).1) (playOps s ops).2 := ResetRun.nil.play ops
  exact hRun

end Runs

/-- A user and the address a token was sent to. -/
structure Issue where
  userId : Id
  email : String
  deriving DecidableEq

/-- The user with the address. -/
def holder (s : Store) (email : String) : Option User :=
  prisma.user.findFirst (fun u => u.email == email) s

/-- The operation has created the row of the token: its key is new. -/
def ResetEvent.creates (e : ResetEvent) (token : String) : Bool :=
  (Redemption.tokenOf token e.after.passwordResetToken).any fun r =>
    decide (e.before.passwordResetToken.next ≤ r.id)

/-- The address that the operation issues a token for. -/
def ResetOp.recipient : ResetOp → Option String
  | .forgotPassword email _ | .requestReset email _ => some email
  | _ => none

/-- For whom the operation has issued the token, if it has. -/
def ResetEvent.issues (e : ResetEvent) (token : String) : Option Issue := do
  let email ← e.op.recipient
  let user ← holder e.before email
  if e.creates token then some ⟨user.id, email⟩ else none

/-- For whom the token was issued last. -/
def issuedFor (events : List ResetEvent) (token : String) : Option Issue :=
  events.reverse.findSome? fun e => e.issues token

/-! ## What an operation does to the tokens -/

/-- No token is new, and those that are left have their addresses. -/
structure TokensStay (s s' : Store) : Prop where
  next : s'.passwordResetToken.next = s.passwordResetToken.next
  rows : ∀ r' ∈ s'.passwordResetToken.rows, ∃ r ∈ s.passwordResetToken.rows,
    r.token = r'.token ∧ r.email = r'.email

theorem TokensStay.of_eq {s s' : Store} (h : s'.passwordResetToken = s.passwordResetToken) :
    TokensStay s s' := by
  refine ⟨by rw [h], fun r' hr' => ?_⟩
  rw [h] at hr'
  exact ⟨r', hr', rfl, rfl⟩

theorem TokensStay.refl (s : Store) : TokensStay s s := .of_eq rfl

theorem TokensStay.trans {s s' s'' : Store} (h : TokensStay s s') (h' : TokensStay s' s'') :
    TokensStay s s'' := by
  refine ⟨h'.next.trans h.next, fun r'' hr'' => ?_⟩
  obtain ⟨r', hr', hToken', hEmail'⟩ := h'.rows r'' hr''
  obtain ⟨r, hr, hToken, hEmail⟩ := h.rows r' hr'
  exact ⟨r, hr, hToken.trans hToken', hEmail.trans hEmail'⟩

theorem tokensStay_erase (sel : PasswordResetToken → Bool) (s : Store) :
    TokensStay s (prisma.passwordResetToken.erase sel s) :=
  ⟨rfl, fun r hr => ⟨r, (mem_erase.mp hr).1, rfl, rfl⟩⟩

/-- The program issues no token. -/
def LeavesTokens {α : Type} (p : Service α) : Prop := Guarantees (fun _ _ => True) TokensStay p

/-- The tokens are as they were, or some of them have been marked as used. -/
def MarksOnly (s s' : Store) : Prop :=
  s'.passwordResetToken = s.passwordResetToken ∨
    ∃ (p : PasswordResetToken → Bool) (usedAt : Int), s'.passwordResetToken =
      s.passwordResetToken.modify p (fun x => { x with usedAt := some usedAt }) fun _ => rfl

theorem MarksOnly.refl (s : Store) : MarksOnly s s := Or.inl rfl

theorem MarksOnly.stays {s s' : Store} (h : MarksOnly s s') : TokensStay s s' := by
  rcases h with hSame | ⟨p, usedAt, hMarked⟩
  · exact .of_eq hSame
  · refine ⟨by rw [hMarked]; rfl, fun x' hx' => ?_⟩
    rw [hMarked] at hx'
    obtain ⟨x, hx, rfl⟩ := List.mem_map.mp hx'
    refine ⟨x, hx, ?_⟩
    split <;> exact ⟨rfl, rfl⟩

/-- The program does no more to the tokens than to mark them. -/
def MarksTokens {α : Type} (p : Service α) : Prop := Guarantees (fun _ _ => True) MarksOnly p

theorem MarksTokens.leaves {α : Type} {p : Service α} (h : MarksTokens p) : LeavesTokens p :=
  fun s => (h s).mono fun _ _ hMarks => hMarks.stays

theorem marksTokens_execute {α : Type} {f : Store → Except DbError (α × Store)}
    (h : ∀ s a s', f s = .ok (a, s') → MarksOnly s s') : MarksTokens (execute f) :=
  guarantees_atomic .refl fun s a s' hOk => h s a s' (execute_ok hOk)

theorem marksTokens_query {α : Type} (f : Store → α) : MarksTokens (query f) :=
  guarantees_read .refl _

theorem marksTokens_updateUser (sel : User → Bool) (f : User → User) (hf) :
    MarksTokens (update prisma.user sel f hf) := by
  refine marksTokens_execute fun s _ s' hOk => ?_
  obtain ⟨-, -, -, -, -, -, rfl⟩ := Model.update_ok hOk
  exact Or.inl rfl

theorem marksTokens_createUser [PasswordRuntime] (input : CreateUserInput) (secret : Secret)
    (adminId : Id) : MarksTokens (UserService.create input secret adminId) := by
  refine guarantees_bind (marksTokens_query _) fun _ => ?_
  refine guarantees_bind (guarantees_throwIf _ _) fun _ => ?_
  refine marksTokens_execute fun s _ s' hOk => ?_
  obtain ⟨-, -, rfl⟩ := Model.create_ok hOk
  exact Or.inl rfl

theorem marksTokens_update [PasswordRuntime] (id : Id) (input : UpdateUserInput) (salt : String) :
    MarksTokens (UserService.update id input salt) := by
  refine guarantees_bind (UserService.guarantees_requireUser .refl _) fun _ => ?_
  exact guarantees_bind (guarantees_throwIf _ _) fun _ => marksTokens_updateUser _ _ _

theorem marksTokens_removeUser (id : Id) : MarksTokens (removeUser id) := by
  refine guarantees_bind (marksTokens_query _) fun _ => ?_
  refine guarantees_bind (guarantees_throwIf _ _) fun _ => ?_
  refine marksTokens_execute fun s _ s' hOk => ?_
  obtain ⟨-, -, rfl⟩ := Model.delete_ok hOk
  exact Or.inl rfl

theorem marksTokens_updateMyProfile (userId : Id) (input : UpdateUserInput) :
    MarksTokens (UserService.updateMyProfile userId input) := by
  refine guarantees_bind (UserService.guarantees_requireUser .refl _) fun user => ?_
  refine guarantees_bind ?_ fun _ => marksTokens_updateUser _ _ _
  cases UserService.newEmail input user with
  | none => exact guarantees_pure _
  | some email => exact guarantees_bind (marksTokens_query _) fun _ => guarantees_throwIf _ _

theorem marksTokens_approveRequest (id adminId : Id) :
    MarksTokens (RequestService.approveRequest id adminId) := by
  refine guarantees_bind (marksTokens_query _) fun found => ?_
  refine guarantees_bind (RequestService.guarantees_requirePending _ _ _ _) fun request => ?_
  refine guarantees_bind (guarantees_throwIf _ _) fun _ => guarantees_bind ?_ fun _ => ?_
  · rcases RequestService.updateRequestedColumn_cases request with
      ⟨-, e, hThrow⟩ | ⟨f, hf, -, hUpdate⟩
    · rw [hThrow]
      exact guarantees_throw _
    · rw [hUpdate]
      exact marksTokens_updateUser _ _ _
  · refine marksTokens_execute fun s _ s' hOk => ?_
    obtain ⟨-, -, -, -, -, -, rfl⟩ := Model.update_ok hOk
    exact Or.inl rfl

theorem marksTokens_resetPassword [PasswordRuntime] (token : String) (r : Redemption) :
    MarksTokens (r.prog token) := by
  rw [Redemption.prog_eq]
  refine guarantees_bind (marksTokens_query _) fun found => ?_
  rcases Redemption.afterLookup_cases r token found with ⟨e, hThrow⟩ | ⟨record, -, -, hRedeem⟩
  · rw [hThrow]
    exact guarantees_throw _
  · rw [hRedeem]
    refine guarantees_bind (marksTokens_query _) fun user => ?_
    cases user with
    | none => exact guarantees_throw _
    | some user =>
        refine guarantees_bind (marksTokens_updateUser _ _ _) fun _ => ?_
        refine guarantees_bind (marksTokens_execute fun s _ s' hOk => ?_) fun _ =>
          guarantees_pure _
        obtain ⟨x, -, -, -, -, -, rfl⟩ := Model.update_ok hOk
        exact Or.inr ⟨_, _, rfl⟩

/-- A program that issues no token, run alone. -/
theorem LeavesTokens.stays {α : Type} {p : Service α} (h : LeavesTokens p) (s : Store) :
    TokensStay s (p.run s).2 := by
  have hReach := safe_run (fun _ => trivial) (h s)
  generalize (p.run s).2 = s' at hReach
  induction hReach with
  | refl => exact .refl s
  | tail _ hStep ih => exact ih.trans hStep

/-! ## Calls that issue a token -/

/-- The row of a new token. -/
def newToken (email : String) (call : IssueCall) (id : Id) : PasswordResetToken :=
  { id, email, token := call.rawToken, expiresAt := call.now + 60 * 60 * 1000, usedAt := none }

/-- The store with a new token. -/
def withToken (email : String) (call : IssueCall) (s : Store) : Store :=
  { s with
    passwordResetToken := s.passwordResetToken.insert (newToken email call) fun _ => rfl }

/-- What follows the deletions. -/
def issueToken (email message : String) (call : IssueCall) : Service String := do
  let _row ← createToken email call
  EmailService.sendPasswordResetEmail call.outcome
  pure message

theorem issue_run {email message : String} {call : IssueCall} {s : Store}
    (hNew : ∀ r ∈ s.passwordResetToken.rows, r.token ≠ call.rawToken) :
    (issueToken email message call).run s =
      (call.outcome.mailError.elim (.ok message) .error, withToken email call s) := by
  have hAccepts : prisma.passwordResetToken.accepts s
      (newToken email call s.passwordResetToken.next) = .ok () :=
    Model.accepts_of rfl fun r hr _ => beq_eq_false_iff_ne.mpr (hNew r hr)
  have hCreate : (createToken email call).run s = (.ok (newToken email call _),
      withToken email call s) :=
    execute_run (Model.create_of hAccepts)
  unfold issueToken
  rw [run_bind_ok hCreate]
  rw [sendPasswordResetEmail_eq]
  cases call.outcome.mailError with
  | none => rfl
  | some e => rfl

theorem findByEmail_run (email : String) (s : Store) :
    (UserService.findByEmail email).run s = (.ok (holder s email), s) := rfl

theorem deleteTokens_run (sel : PasswordResetToken → Bool) (s : Store) :
    (deleteTokens sel).run s = (.ok (), prisma.passwordResetToken.erase sel s) := rfl

/-- What is left of a call once the rows are deleted: the insert is refused, or the token is
stored, and then the message may fail. -/
theorem issueToken_cases (email message : String) (call : IssueCall) (s : Store) :
    ((issueToken email message call).run s).2 = s ∨
      (∀ r ∈ s.passwordResetToken.rows, r.token ≠ call.rawToken) ∧
        ((issueToken email message call).run s).2 = withToken email call s := by
  by_cases hNew : ∀ r ∈ s.passwordResetToken.rows, r.token ≠ call.rawToken
  · rw [issue_run hNew]
    exact Or.inr ⟨hNew, rfl⟩
  · have hCreate : ∃ e, (createToken email call).run s = (.error e, s) := by
      unfold createToken create
      cases hResult : prisma.passwordResetToken.create (newToken email call) (fun _ => rfl) s with
      | error e => exact ⟨_, execute_run_error hResult⟩
      | ok out =>
          obtain ⟨row, s'⟩ := out
          obtain ⟨hRow, -, -⟩ := Model.create_ok hResult
          refine absurd (fun r hr => ?_) hNew
          have hApart := Model.create_unique hResult r hr
          rw [hRow] at hApart
          exact beq_eq_false_iff_ne.mp hApart
    obtain ⟨e, hRefused⟩ := hCreate
    unfold issueToken
    rw [run_bind_error hRefused]
    exact Or.inl rfl

/-- The selections of `AuthService.forgotPassword`. -/
def ownTokens (email : String) (r : PasswordResetToken) : Bool := r.email == email

/-- The selections of both deletions of `requestReset`. -/
def staleTokens (email : String) (call : IssueCall) (r : PasswordResetToken) : Bool :=
  r.email == email && decide (r.expiresAt < call.checkedAt) || r.email == email && r.usedAt.isNone

section Forgot

variable {email : String} {call : IssueCall} {s : Store}

/-- A call for an address that a user has deletes rows, and then issues the token. -/
theorem forgotPassword_known (hKnown : holder s email ≠ none) :
    (AuthService.forgotPassword email call).run s =
      (issueToken email "If that email exists, a reset link has been sent." call).run
        (prisma.passwordResetToken.erase (ownTokens email) s) := by
  obtain ⟨user, hHolder⟩ := Option.ne_none_iff_exists'.mp hKnown
  unfold AuthService.forgotPassword
  rw [run_bind_ok (findByEmail_run email s), hHolder]
  exact run_bind_ok (deleteTokens_run _ s)

theorem requestReset_known (hKnown : holder s email ≠ none) :
    (PasswordResetService.requestReset email call).run s =
      (issueToken email
        "If an account exists with this email, a password reset link has been sent." call).run
        (prisma.passwordResetToken.erase (staleTokens email call) s) := by
  obtain ⟨user, hHolder⟩ := Option.ne_none_iff_exists'.mp hKnown
  unfold PasswordResetService.requestReset
  rw [run_bind_ok (findByEmail_run email s), hHolder]
  change (deleteTokens _ >>= fun _ => deleteTokens _ >>= _).run s = _
  rw [run_bind_ok (deleteTokens_run _ s), run_bind_ok (deleteTokens_run _ _)]
  -- two deletions are one
  have hBoth : prisma.passwordResetToken.erase (fun r => r.email == email && r.usedAt.isNone)
      (prisma.passwordResetToken.erase
        (fun r => r.email == email && decide (r.expiresAt < call.checkedAt)) s) =
      prisma.passwordResetToken.erase (staleTokens email call) s := by
    simp only [prisma.passwordResetToken, erase_erase]
    rfl
  rw [hBoth]
  rfl

theorem forgotPassword_unknown (hUnknown : holder s email = none) :
    (AuthService.forgotPassword email call).run s =
      (.ok "If that email exists, a reset link has been sent.", s) := by
  unfold AuthService.forgotPassword
  rw [run_bind_ok (findByEmail_run email s), hUnknown]
  rfl

theorem requestReset_unknown (hUnknown : holder s email = none) :
    (PasswordResetService.requestReset email call).run s =
      (.ok "If an account exists with this email, a password reset link has been sent.", s) := by
  unfold PasswordResetService.requestReset
  rw [run_bind_ok (findByEmail_run email s), hUnknown]
  rfl

end Forgot

/-- The row of the token is new, it is the only one with the token, and a user has its
address. -/
structure TokenCreated (email : String) (call : IssueCall) (s s' : Store) : Prop where
  stays : ∃ t : Table PasswordResetToken, TokensStay s { s with passwordResetToken := t } ∧
    (∀ r ∈ t.rows, r.token ≠ call.rawToken) ∧
    s'.passwordResetToken.rows = t.rows ++
      [⟨t.next, email, call.rawToken, call.now + 60 * 60 * 1000, none⟩]
  known : (holder s email).isSome = true

/-- What a call that issues a token does. -/
def IssueOutcome (email : String) (call : IssueCall) (s s' : Store) : Prop :=
  TokensStay s s' ∨ TokenCreated email call s s'

theorem issueToken_outcome {email message : String} {call : IssueCall} {s : Store}
    (hKnown : holder s email ≠ none) (sel : PasswordResetToken → Bool) :
    IssueOutcome email call s
      ((issueToken email message call).run (prisma.passwordResetToken.erase sel s)).2 := by
  have hStays := tokensStay_erase sel s
  rcases issueToken_cases email message call (prisma.passwordResetToken.erase sel s) with
    hSame | ⟨hNew, hStored⟩
  · rw [hSame]
    exact Or.inl hStays
  · rw [hStored]
    exact Or.inr ⟨⟨_, hStays, hNew, rfl⟩, Option.isSome_iff_ne_none.mpr hKnown⟩

theorem forgotPassword_outcome (email : String) (call : IssueCall) (s : Store) :
    IssueOutcome email call s ((AuthService.forgotPassword email call).run s).2 := by
  by_cases hHolder : holder s email = none
  · rw [forgotPassword_unknown hHolder]
    exact Or.inl (.refl s)
  · rw [forgotPassword_known hHolder]
    exact issueToken_outcome hHolder _

theorem requestReset_outcome (email : String) (call : IssueCall) (s : Store) :
    IssueOutcome email call s ((PasswordResetService.requestReset email call).run s).2 := by
  by_cases hHolder : holder s email = none
  · rw [requestReset_unknown hHolder]
    exact Or.inl (.refl s)
  · rw [requestReset_known hHolder]
    exact issueToken_outcome hHolder _

/-- The answer is left out. -/
theorem run_acknowledged (p : Service String) (s : Store) :
    ((p >>= fun _ => (pure () : Service Unit)).run s).2 = (p.run s).2 := by
  rw [run_bind]
  split
  · rename_i hRun
    rw [hRun]
    rfl
  · rename_i hRun
    rw [hRun]

/-- An operation that issues no token. -/
theorem ResetOp.marks [PasswordRuntime] {op : ResetOp} (hNone : op.recipient = none) :
    MarksTokens op.prog := by
  cases op with
  | forgotPassword email call => cases hNone
  | requestReset email call => cases hNone
  | resetPassword token r =>
      exact guarantees_bind (marksTokens_resetPassword _ _) fun _ => guarantees_pure _
  | createUser input secret adminId =>
      exact guarantees_bind (marksTokens_createUser _ _ _) fun _ => guarantees_pure _
  | updateUser id input salt =>
      exact guarantees_bind (marksTokens_update _ _ _) fun _ => guarantees_pure _
  | removeUser id => exact guarantees_bind (marksTokens_removeUser _) fun _ => guarantees_pure _
  | updateMyProfile userId input =>
      exact guarantees_bind (marksTokens_updateMyProfile _ _) fun _ => guarantees_pure _
  | approveRequest id adminId =>
      exact guarantees_bind (marksTokens_approveRequest _ _) fun _ => guarantees_pure _

/-- An operation creates at most the token that it issues. -/
theorem ResetOp.outcome [PasswordRuntime] (op : ResetOp) (s : Store) :
    TokensStay s (op.prog.run s).2 ∨
      ∃ email call, op.recipient = some email ∧ TokenCreated email call s (op.prog.run s).2 := by
  cases op with
  | forgotPassword email call =>
      unfold prog
      rw [run_acknowledged]
      exact (forgotPassword_outcome email call s).imp id fun h => ⟨email, call, rfl, h⟩
  | requestReset email call =>
      unfold prog
      rw [run_acknowledged]
      exact (requestReset_outcome email call s).imp id fun h => ⟨email, call, rfl, h⟩
  | resetPassword token r => exact Or.inl ((ResetOp.marks rfl).leaves.stays s)
  | createUser input secret adminId => exact Or.inl ((ResetOp.marks rfl).leaves.stays s)
  | updateUser id input salt => exact Or.inl ((ResetOp.marks rfl).leaves.stays s)
  | removeUser id => exact Or.inl ((ResetOp.marks rfl).leaves.stays s)
  | updateMyProfile userId input => exact Or.inl ((ResetOp.marks rfl).leaves.stays s)
  | approveRequest id adminId => exact Or.inl ((ResetOp.marks rfl).leaves.stays s)

/-! ## For whom the tokens in the store were issued -/

theorem issuedFor_concat (events : List ResetEvent) (e : ResetEvent) (token : String) :
    issuedFor (events ++ [e]) token = (e.issues token).or (issuedFor events token) := by
  unfold issuedFor
  rw [List.reverse_append, List.reverse_singleton, List.singleton_append, List.findSome?_cons]
  cases e.issues token <;> rfl

/-- A token whose row is not new was not issued by the operation. -/
theorem ResetEvent.issues_eq_none {e : ResetEvent} {token : String}
    (h : ∀ r ∈ e.after.passwordResetToken.rows, r.token = token →
      r.id < e.before.passwordResetToken.next) : e.issues token = none := by
  have hCreates : e.creates token = false := by
    unfold creates
    cases hFind : Redemption.tokenOf token e.after.passwordResetToken with
    | none => rfl
    | some r =>
        have hLt := h r (List.mem_of_find?_eq_some hFind) (by simpa using List.find?_some hFind)
        simpa using hLt
  unfold issues
  cases e.op.recipient with
  | none => rfl
  | some email =>
      change (holder e.before email).bind _ = none
      cases holder e.before email with
      | none => rfl
      | some user => exact if_neg (Bool.eq_false_iff.mp hCreates)

/-- Every token in the store was issued for the address in its row. -/
def AllIssued (events : List ResetEvent) (s : Store) : Prop :=
  ∀ r ∈ s.passwordResetToken.rows, ∃ userId, issuedFor events r.token = some ⟨userId, r.email⟩

theorem AllIssued.stays {events : List ResetEvent} (e : ResetEvent)
    (h : AllIssued events e.before) (hStays : TokensStay e.before e.after) :
    AllIssued (events ++ [e]) e.after := by
  intro r' hr'
  have hNone : e.issues r'.token = none := by
    refine ResetEvent.issues_eq_none fun r hr _ => ?_
    rw [← hStays.next]
    exact key_lt _ hr
  obtain ⟨r, hr, hToken, hEmail⟩ := hStays.rows r' hr'
  obtain ⟨userId, hIssued⟩ := h r hr
  refine ⟨userId, ?_⟩
  rw [issuedFor_concat, hNone, Option.none_or, ← hToken, ← hEmail]
  exact hIssued

/-- The operation that has created the row of a token has issued it. -/
theorem ResetEvent.issues_of_created {e : ResetEvent} {email : String} {call : IssueCall}
    (hRecipient : e.op.recipient = some email)
    (hCreated : TokenCreated email call e.before e.after) :
    ∃ userId, e.issues call.rawToken = some ⟨userId, email⟩ := by
  obtain ⟨⟨t, hStays, hApart, hRows⟩, hKnown⟩ := hCreated
  obtain ⟨u, hHolder⟩ := Option.isSome_iff_exists.mp hKnown
  have hFind : Redemption.tokenOf call.rawToken e.after.passwordResetToken =
      some ⟨t.next, email, call.rawToken, call.now + 60 * 60 * 1000, none⟩ := by
    unfold Redemption.tokenOf
    rw [hRows, List.find?_append, List.find?_eq_none.mpr fun r hr => by simpa using hApart r hr]
    simp
  have hCreates : e.creates call.rawToken = true := by
    unfold ResetEvent.creates
    rw [hFind]
    have hNext : t.next = e.before.passwordResetToken.next := hStays.next
    simp [hNext]
  refine ⟨u.id, ?_⟩
  simp [ResetEvent.issues, hRecipient, hHolder, hCreates]

theorem AllIssued.created {events : List ResetEvent} (e : ResetEvent) {email : String}
    {call : IssueCall} (h : AllIssued events e.before) (hRecipient : e.op.recipient = some email)
    (hCreated : TokenCreated email call e.before e.after) : AllIssued (events ++ [e]) e.after := by
  obtain ⟨userId, hIssues⟩ := ResetEvent.issues_of_created hRecipient hCreated
  obtain ⟨⟨t, hStays, hApart, hRows⟩, -⟩ := hCreated
  intro r' hr'
  rw [hRows] at hr'
  rcases List.mem_append.mp hr' with hOld | hNew
  · have hNone : e.issues r'.token = none := by
      refine ResetEvent.issues_eq_none fun r hr hSame => ?_
      rw [hRows] at hr
      rcases List.mem_append.mp hr with hr | hr
      · rw [← hStays.next]
        exact t.key_lt hr
      · rw [List.mem_singleton.mp hr] at hSame
        exact absurd hSame.symm (hApart r' hOld)
    obtain ⟨r, hr, hToken, hEmail⟩ := hStays.rows r' hOld
    obtain ⟨userId, hIssued⟩ := h r hr
    refine ⟨userId, ?_⟩
    rw [issuedFor_concat, hNone, Option.none_or, ← hToken, ← hEmail]
    exact hIssued
  · obtain rfl := List.mem_singleton.mp hNew
    refine ⟨userId, ?_⟩
    rw [issuedFor_concat, hIssues]
    rfl

theorem ResetRun.allIssued [PasswordRuntime] {s₀ s : Store} {events : List ResetEvent}
    (hEmpty : s₀.passwordResetToken.rows = []) (hRun : ResetRun s₀ events s) :
    AllIssued events s := by
  induction hRun with
  | nil =>
      intro r hr
      rw [hEmpty] at hr
      exact absurd hr List.not_mem_nil
  | call op _ ih =>
      rename_i events s _
      rcases op.outcome s with hStays | ⟨email, call, hRecipient, hCreated⟩
      · exact AllIssued.stays ⟨op, s, _⟩ ih hStays
      · exact AllIssued.created ⟨op, s, _⟩ ih hRecipient hCreated
  | other _ hTokens ih =>
      intro r hr
      rw [hTokens] at hr
      exact ih r hr

/-! ## Redeeming -/

def passwordOf (s : Store) (id : Id) : Option String := (s.user.find id).map (·.password)

theorem passwordOf_modify {s : Store} {user : User} (hUser : user ∈ s.user.rows)
    (password : String) (id : Id) :
    passwordOf { s with
      user := s.user.modify (fun x => Row.key x == Row.key user) (fun u => { u with password })
        fun _ => rfl } id =
      if id = user.id then some password else passwordOf s id := by
  have hFind : (s.user.modify (fun x => Row.key x == Row.key user)
      (fun u => { u with password }) fun _ => rfl).find id =
        (s.user.find id).map fun r =>
          if Row.key r == Row.key user then { r with password } else r := by
    unfold find
    rw [find?_modify]
    exact fun _ => rfl
  rw [passwordOf, hFind]
  split
  · rename_i hSame
    have hUserFind : s.user.find id = some user := find_eq_some.mpr ⟨hUser, hSame.symm⟩
    rw [hUserFind, Option.map_some, if_pos (beq_self_eq_true _)]
    rfl
  · rename_i hOther
    rw [passwordOf]
    cases hOld : s.user.find id with
    | none => rfl
    | some x =>
        have hKey : Row.key x ≠ Row.key user := by
          rw [(find_eq_some.mp hOld).2]
          exact hOther
        rw [Option.map_some, if_neg (by simpa using hKey)]

/-- A call that succeeds sets the password of the user who has the address of the token. -/
theorem resetPassword_ok [PasswordRuntime] {r : Redemption} {token message : String}
    {s s' : Store} (h : (r.prog token).run s = (.ok message, s')) :
    ∃ record user, record ∈ s.passwordResetToken.rows ∧ record.token = token ∧
      holder s record.email = some user ∧
      ∀ id, passwordOf s' id =
        if id = user.id then some r.call.secret.hash else passwordOf s id := by
  rw [Redemption.prog_eq, query_bind_run] at h
  rcases Redemption.afterLookup_cases r token (Redemption.tokenOf token s.passwordResetToken) with
    ⟨e, hThrow⟩ | ⟨record, hFind, -, hRedeem⟩
  · rw [hThrow] at h
    cases h
  · rw [hRedeem] at h
    have hUser : (r.withUser token record (holder s record.email)).run s = (.ok message, s') := h
    cases hHolder : holder s record.email with
    | none =>
        rw [hHolder] at hUser
        cases hUser
    | some user =>
        rw [hHolder] at hUser
        obtain ⟨row, s₁, hWrite, hMark⟩ := of_run_bind_ok hUser
        obtain ⟨u, hMem, hId, -, -, -, hState⟩ := Model.update_ok (of_execute_run hWrite)
        obtain ⟨hMem', -⟩ := Model.findFirst_some hHolder
        obtain rfl : u = user := s.user.key_inj hMem hMem' (beq_iff_eq.mp hId)
        obtain ⟨row', s₂, hUpdate, hDone⟩ := of_run_bind_ok hMark
        obtain ⟨-, rfl⟩ := Prod.mk.inj hDone
        obtain ⟨x, -, -, -, -, -, hState'⟩ := Model.update_ok (of_execute_run hUpdate)
        refine ⟨record, u, List.mem_of_find?_eq_some hFind, ?_, hHolder, fun id => ?_⟩
        · simpa using List.find?_some hFind
        · rw [hState', hState]
          exact passwordOf_modify hMem _ _

/-- The operation changes the password of the user. -/
def ChangesPassword (s s' : Store) (id : Id) : Prop := passwordOf s' id ≠ passwordOf s id

instance (s s' : Store) (id : Id) : Decidable (ChangesPassword s s' id) :=
  inferInstanceAs (Decidable (passwordOf s' id ≠ passwordOf s id))

/-- The user for whom the token was issued still has the address. -/
def Issue.StillHeld (issue : Issue) (s : Store) : Prop :=
  (holder s issue.email).map (·.id) = some issue.userId

/-- The user with the address of the token happens to have the new hash already. -/
def Issue.AlreadySet (issue : Issue) (s : Store) (hashedPassword : String) : Prop :=
  (holder s issue.email).map (·.password) = some hashedPassword

/-- Every call of a run that redeems a token changes the password of no user but the one for
whom the token was issued. -/
def BoundToAccount [PasswordRuntime] (s₀ : Store) : Prop :=
  ∀ events s, ResetRun s₀ events s → ∀ r token message s',
    (Redemption.prog token r).run s = (.ok message, s') → ∃ issue,
      issuedFor events token = some issue ∧ ∀ id, ChangesPassword s s' id → id = issue.userId

/-- **A reset token changes the password of the user for whom it was issued**, and of no other,
if and only if that user still has the address to which it was sent (or nothing changes). -/
theorem reset_bound_to_account [PasswordRuntime] {s₀ s s' : Store} {events : List ResetEvent}
    {r : Redemption} {token message : String} (hEmpty : s₀.passwordResetToken.rows = [])
    (hRun : ResetRun s₀ events s) (hReset : (r.prog token).run s = (.ok message, s')) :
    ∃ issue, issuedFor events token = some issue ∧
      ((∀ id, ChangesPassword s s' id → id = issue.userId) ↔
        issue.StillHeld s ∨ issue.AlreadySet s r.call.secret.hash) := by
  obtain ⟨record, user, hMem, rfl, hHolder, hPasswords⟩ := resetPassword_ok hReset
  obtain ⟨userId, hIssued⟩ := hRun.allIssued hEmpty record hMem
  have hUser : user ∈ s.user.rows := (Model.findFirst_some hHolder).1
  have hOld : passwordOf s user.id = some user.password := by
    have hFind : s.user.find user.id = some user := find_eq_some.mpr ⟨hUser, rfl⟩
    rw [passwordOf, hFind]
    rfl
  have hChanges (id : Id) : ChangesPassword s s' id ↔
      id = user.id ∧ user.password ≠ r.call.secret.hash := by
    unfold ChangesPassword
    rw [hPasswords]
    split
    · rename_i hSame
      rw [hSame, hOld]
      simp [eq_comm]
    · rename_i hOther
      simp [hOther]
  refine ⟨⟨userId, record.email⟩, hIssued, ?_⟩
  simp only [hChanges, Issue.StillHeld, Issue.AlreadySet, hHolder, Option.map_some,
    Option.some.injEq]
  constructor
  · intro h
    by_cases hSame : user.password = r.call.secret.hash
    · exact Or.inr hSame
    · exact Or.inl (h user.id ⟨rfl, hSame⟩)
  · rintro (rfl | hSame) id ⟨hId, hNew⟩
    · exact hId
    · exact absurd hSame hNew

section Site

attribute [local instance] saltedHashes

/-- The member of the small site asks for a link. -/
def askForLink : ResetOp := .forgotPassword "ben@site" ⟨"t", 0, 0, .answers none⟩

/-- The member takes another address. -/
def moveAway : ResetOp := .updateMyProfile 1 { email := .value "ben@yard" }

/-- A new user gets the old address of the member. -/
def moveIn : ResetOp := .createUser ⟨"Cleo", "Roe", "ben@site"⟩ ⟨"z", "1"⟩ 1

/-- The link of the member is opened. -/
def openLink : Redemption := .authService ⟨⟨"p", "2"⟩, 10, 11⟩

/-- The link of the member sets the password of the user who has got the address since. -/
theorem reset_token_follows_address : ¬ BoundToAccount site := by
  intro h
  let moved := playOps site [askForLink, moveAway, moveIn]
  have hRun : ResetRun site moved.1 moved.2 := resetRun_play _ _
  have hDone : ((openLink.prog "t").run moved.2).1 = .ok openLink.method.done := by
    decide +kernel
  obtain ⟨issue, hIssued, hOnly⟩ := h _ _ hRun _ _ _ _ (Prod.fst_eq_iff.mp hDone)
  have hBen : issuedFor moved.1 "t" = some ⟨1, "ben@site"⟩ := by decide +kernel
  obtain rfl := Option.some.inj (hIssued.symm.trans hBen)
  exact absurd (hOnly 2 (by decide +kernel)) (by decide)

/-- Without the moves the link sets the password of the member. -/
theorem reset_bound_to_account_site :
    let asked := playOps site [askForLink]
    let s := ((openLink.prog "t").run asked.2).2
    passwordOf s 1 = some "2$p" ∧ ∃ issue, issuedFor asked.1 "t" = some issue ∧
      ((∀ id, ChangesPassword asked.2 s id → id = issue.userId) ↔
        issue.StillHeld asked.2 ∨ issue.AlreadySet asked.2 "2$p") := by
  intro asked s
  have hReset : (openLink.prog "t").run asked.2 = (.ok _, s) := rfl
  exact ⟨by decide, reset_bound_to_account rfl (resetRun_play _ _) hReset⟩

end Site

end Rooeel
