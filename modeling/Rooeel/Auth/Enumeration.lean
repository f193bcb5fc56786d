import Rooeel.Auth.ResetEquivalence
import Rooeel.User.ResetMail

/-!
# Finding out who has an account

Three methods send something to an address that anybody may enter: a reset link or a temporary
password. For an unknown address they answer as if the message had been sent. For a known one
they store a row and call the provider, and pass on what these throw: `hides_user_iff` says when
the two cannot be told apart.
-/

namespace Rooeel

open JavaScript Prog Table

/-- A method that anybody may call with an address, with what is random and what the clock says
in the call. -/
inductive ForgotOp where
  | authForgotPassword (rawToken : String) (checkedAt now : Int)
  | requestReset (rawToken : String) (checkedAt now : Int)
  | requestForgotPassword (secret : Secret)

namespace ForgotOp

def prog [PasswordRuntime] (email : String) (outcome : ProviderOutcome) : ForgotOp → Service String
  | .authForgotPassword rawToken checkedAt now =>
      AuthService.forgotPassword email ⟨rawToken, checkedAt, now, outcome⟩
  | .requestReset rawToken checkedAt now =>
      PasswordResetService.requestReset email ⟨rawToken, checkedAt, now, outcome⟩
  | .requestForgotPassword secret => RequestService.forgotPassword email secret outcome

/-- The answer of a call that does not throw. -/
def message : ForgotOp → String
  | .authForgotPassword _ _ _ => "If that email exists, a reset link has been sent."
  | .requestReset _ _ _ =>
      "If an account exists with this email, a password reset link has been sent."
  | .requestForgotPassword _ =>
      "If an account exists with this email, a temporary password has been sent."

/-- No row that the call leaves has the random token. -/
def TokenFree (email : String) (s : Store) : ForgotOp → Prop
  | .authForgotPassword rawToken _ _ =>
      ∀ r ∈ s.passwordResetToken.rows, r.token = rawToken → r.email = email
  | .requestReset rawToken checkedAt _ =>
      ∀ r ∈ s.passwordResetToken.rows, r.token = rawToken →
        r.email = email ∧ (r.expiresAt < checkedAt ∨ r.usedAt = none)
  | .requestForgotPassword _ => True

end ForgotOp

/-! ## Two stores -/

/-- The stores differ only in a user with the address, whom the second one has. -/
structure DifferInUser (email : String) (s s' : Store) : Prop where
  unknown : holder s email = none
  known : holder s' email ≠ none
  others : s'.user.rows.filter (fun u => u.email != email) = s.user.rows
  rest : s' = { s with user := s'.user }

/-- The call ends alike in both stores. -/
def HidesUser [PasswordRuntime] (op : ForgotOp) (email : String) (outcome : ProviderOutcome)
    (s s' : Store) : Prop :=
  ((op.prog email outcome).run s).1 = ((op.prog email outcome).run s').1

/-- The call never shows whether an address belongs to a user. -/
def ForgotOp.NoEnumeration [PasswordRuntime] (op : ForgotOp) : Prop :=
  ∀ email outcome s s', s.Valid → s'.Valid → DifferInUser email s s' →
    HidesUser op email outcome s s'

/-! ## The result of a call -/

section Calls

variable {email message : String} {call : IssueCall} {outcome : ProviderOutcome} {s s' : Store}

/-- The token is issued and sent when it is new and the provider takes the message. -/
theorem issue_ok_iff :
    ((issueToken email message call).run s).1 = .ok message ↔
      call.outcome.Sent ∧ ∀ r ∈ s.passwordResetToken.rows, r.token ≠ call.rawToken := by
  constructor
  · intro hOk
    obtain ⟨row, s₁, hCreate, -⟩ := of_run_bind_ok (Prod.ext hOk rfl)
    have hResult := of_execute_run hCreate
    obtain ⟨hRow, -, -⟩ := Model.create_ok hResult
    have hNew : ∀ r ∈ s.passwordResetToken.rows, r.token ≠ call.rawToken := by
      intro r hr
      have hApart := Model.create_unique hResult r hr
      rw [hRow] at hApart
      exact beq_eq_false_iff_ne.mp hApart
    refine ⟨mailError_eq_none.mp ?_, hNew⟩
    rw [issue_run hNew] at hOk
    cases hError : call.outcome.mailError with
    | none => rfl
    | some e =>
        rw [hError] at hOk
        cases hOk
  · rintro ⟨hSent, hNew⟩
    rw [issue_run hNew, hSent]
    rfl

/-- The token is new once the rows are deleted that have it. -/
theorem erase_free_iff {sel : PasswordResetToken → Bool} {rawToken : String} :
    (∀ r ∈ (prisma.passwordResetToken.erase sel s).passwordResetToken.rows, r.token ≠ rawToken) ↔
      ∀ r ∈ s.passwordResetToken.rows, r.token = rawToken → sel r = true := by
  constructor
  · intro hFree r hr hToken
    by_contra hKept
    exact hFree r (mem_erase.mpr ⟨hr, by simpa using hKept⟩) hToken
  · intro hDeleted r hr hToken
    obtain ⟨hMem, hKept⟩ := mem_erase.mp hr
    rw [hDeleted r hMem hToken] at hKept
    cases hKept

theorem storeAndSend_ok_iff {user : User} {hashedPassword : String} (hValid : s.Valid)
    (hUser : user ∈ s.user.rows) :
    ((storeAndSend user hashedPassword outcome message).run s).1 = .ok message ↔
      outcome.Sent := by
  unfold storeAndSend
  rw [run_bind_ok (updatePassword_run hValid hUser), sendPasswordResetEmail_eq,
    ← mailError_eq_none]
  cases outcome.mailError with
  | none => exact iff_of_true rfl rfl
  | some e => exact iff_of_false nofun nofun

variable [PasswordRuntime]

theorem ForgotOp.run_unknown (op : ForgotOp) (hUnknown : holder s email = none) :
    (op.prog email outcome).run s = (.ok op.message, s) := by
  cases op with
  | authForgotPassword rawToken checkedAt now => exact forgotPassword_unknown hUnknown
  | requestReset rawToken checkedAt now => exact requestReset_unknown hUnknown
  | requestForgotPassword secret => exact temporaryPassword_unknown hUnknown _ _

theorem ForgotOp.ok_of_known (op : ForgotOp) (hValid : s.Valid) (hKnown : holder s email ≠ none) :
    ((op.prog email outcome).run s).1 = .ok op.message ↔ outcome.Sent ∧ op.TokenFree email s := by
  cases op with
  | authForgotPassword rawToken checkedAt now =>
      unfold ForgotOp.prog
      rw [forgotPassword_known hKnown]
      refine issue_ok_iff.trans (and_congr_right fun _ => erase_free_iff.trans ?_)
      simp [ownTokens, TokenFree]
  | requestReset rawToken checkedAt now =>
      unfold ForgotOp.prog
      rw [requestReset_known hKnown]
      refine issue_ok_iff.trans (and_congr_right fun _ => erase_free_iff.trans ?_)
      simp [staleTokens, TokenFree, and_or_left]
  | requestForgotPassword secret =>
      obtain ⟨user, hHolder⟩ := Option.ne_none_iff_exists'.mp hKnown
      obtain ⟨hUser, -⟩ := Model.findFirst_some hHolder
      unfold ForgotOp.prog
      rw [temporaryPassword_known hHolder]
      exact (storeAndSend_ok_iff hValid hUser).trans (and_iff_left trivial).symm

/-- **When a call does not show whether an address belongs to a user**: when the provider takes
the message, and the random token is not that of a row that stays. -/
theorem hides_user_iff (op : ForgotOp) (outcome : ProviderOutcome) (hValid : s'.Valid)
    (hDiffer : DifferInUser email s s') :
    HidesUser op email outcome s s' ↔ outcome.Sent ∧ op.TokenFree email s := by
  have hTokens : s'.passwordResetToken = s.passwordResetToken := by rw [hDiffer.rest]
  have hFree : op.TokenFree email s' ↔ op.TokenFree email s := by
    unfold ForgotOp.TokenFree
    rw [hTokens]
  unfold HidesUser
  rw [op.run_unknown hDiffer.unknown, eq_comm, op.ok_of_known hValid hDiffer.known, hFree]

end Calls

section Site

attribute [local instance] saltedHashes

/-- The small site with another user. -/
def sharedSite : Store :=
  { site with
    user := site.user.insert (fun id =>
      { id, firstName := "Cleo", lastName := "Roe", email := "cleo@site", password := "z"
        createdBy := some 1 }) fun _ => rfl }

theorem sharedSite_valid : sharedSite.Valid := by
  constructor <;> decide

theorem differInUser_site : DifferInUser "cleo@site" site sharedSite := by
  refine ⟨rfl, nofun, rfl, rfl⟩

/-- While the provider refuses messages, each of the methods throws for the address of the new
user, and for no unknown one. -/
theorem users_enumerable :
    ¬ (ForgotOp.authForgotPassword "t" 0 0).NoEnumeration ∧
      ¬ (ForgotOp.requestReset "t" 0 0).NoEnumeration ∧
      ¬ (ForgotOp.requestForgotPassword ⟨"z", "0"⟩).NoEnumeration := by
  refine ⟨fun h => ?_, fun h => ?_, fun h => ?_⟩
  · exact nomatch h _ unverified _ _ site_valid sharedSite_valid differInUser_site
  · exact nomatch h _ unverified _ _ site_valid sharedSite_valid differInUser_site
  · exact nomatch h _ unverified _ _ site_valid sharedSite_valid differInUser_site

theorem hides_user_site :
    HidesUser (.requestReset "t" 0 0) "cleo@site" (.answers none) site sharedSite :=
  (hides_user_iff _ _ sharedSite_valid differInUser_site).mpr ⟨rfl, fun _ hr => nomatch hr⟩

end Site

end Rooeel
