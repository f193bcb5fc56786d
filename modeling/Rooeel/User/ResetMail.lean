import Rooeel.User.AccountInvariants

/-!
# A reset whose message is lost

`RequestService.forgotPassword` and `UserService.resetPassword` store the hash of a new password
and then send the password to the user. `sendPasswordResetEmail` throws when the provider does, and
when it answers with an error. By then the old password is gone:
`failed_reset_leaves_passwords` says when a reset that throws leaves the passwords as they were.
-/

namespace Rooeel

open JavaScript Prog Table

/-! ## The message -/

/-- The message is under way. -/
def ProviderOutcome.Sent (outcome : ProviderOutcome) : Prop := outcome = .answers none

theorem mailError_eq_none {outcome : ProviderOutcome} :
    outcome.mailError = none ↔ outcome.Sent := by
  cases outcome with
  | throws e => exact iff_of_false nofun nofun
  | answers error =>
      cases error with
      | none => exact iff_of_true rfl rfl
      | some error => exact iff_of_false nofun nofun

/-! ## Passwords after a call that throws -/

/-- A call that throws leaves the passwords of all users as they were. -/
def ThrowsBeforePasswords {α : Type} (s : Store) (p : Service α) : Prop :=
  ∀ e, (p.run s).1 = .error e → KeepsPasswords s (p.run s).2

section Calls

variable {α : Type} {s : Store} {user : User} {hashedPassword : String}

/-- A call that ends before it writes. -/
theorem throwsBeforePasswords_of_run {p : Service α} {r : Except Exn α} (hRun : p.run s = (r, s)) :
    ThrowsBeforePasswords s p := by
  intro e _
  rw [hRun]
  exact keepsPasswords_refl s

/-- The store with another password in one row. -/
def withPassword (s : Store) (user : User) (hashedPassword : String) : Store :=
  { s with
    user := s.user.modify (fun r => Row.key r == Row.key user)
      (UserService.passwordData hashedPassword) (UserService.passwordData_key hashedPassword) }

theorem keepsPasswords_withPassword (hUser : user ∈ s.user.rows) :
    KeepsPasswords s (withPassword s user hashedPassword) ↔ user.password = hashedPassword := by
  unfold KeepsPasswords Redemption.passwords withPassword
  rw [rows_modify, List.map_map, List.map_inj_left]
  constructor
  · intro h
    have hSame := h user hUser
    simp only [Function.comp, beq_self_eq_true, if_true] at hSame
    exact (congrArg Prod.snd hSame).symm
  · intro hSame r hr
    simp only [Function.comp]
    split
    · rename_i hKey
      rw [s.user.key_inj hr hUser (beq_iff_eq.mp hKey), ← hSame]
      rfl
    · rfl

/-- The write of a password succeeds. -/
theorem updatePassword_run (hValid : s.Valid) (hUser : user ∈ s.user.rows) :
    (update prisma.user (fun r => r.id == user.id) (UserService.passwordData hashedPassword)
      (UserService.passwordData_key hashedPassword)).run s =
        (.ok (UserService.passwordData hashedPassword user),
          withPassword s user hashedPassword) := by
  have hFind : s.user.find user.id = some user := find_eq_some.mpr ⟨hUser, rfl⟩
  have hFound : prisma.user.findFirst (fun r => r.id == user.id) s = some user := hFind
  have hId : (UserService.passwordData hashedPassword user).id = user.id := rfl
  have hCreator : (UserService.passwordData hashedPassword user).createdBy = user.createdBy := rfl
  have hAccepts :
      prisma.user.accepts s (UserService.passwordData hashedPassword user) = .ok () := by
    rw [accepts_user_iff hValid.user hFind hId hCreator, if_neg]
    exact fun hTaken => hTaken.1 rfl
  exact execute_run (Model.update_of_find hFound hAccepts)

/-- The write and the message, which come last in both methods. -/
def storeAndSend (user : User) (hashedPassword : String) (outcome : ProviderOutcome) (a : α) :
    Service α := do
  let _user ← update prisma.user (fun r => r.id == user.id)
    (UserService.passwordData hashedPassword) (UserService.passwordData_key hashedPassword)
  EmailService.sendPasswordResetEmail outcome
  pure a

theorem storeAndSend_throws (hValid : s.Valid) (hUser : user ∈ s.user.rows)
    (outcome : ProviderOutcome) (a : α) :
    ThrowsBeforePasswords s (storeAndSend user hashedPassword outcome a) ↔
      (outcome.Sent ∨ user.password = hashedPassword) := by
  unfold ThrowsBeforePasswords storeAndSend
  rw [run_bind_ok (updatePassword_run hValid hUser), ← keepsPasswords_withPassword hUser,
    sendPasswordResetEmail_eq, ← mailError_eq_none]
  cases outcome.mailError with
  | none => exact iff_of_true nofun (Or.inl rfl)
  | some e => exact ⟨fun h => Or.inr (h e rfl), fun h _ _ => h.resolve_left nofun⟩

omit hashedPassword in
/-- The user that a method has found is the only one that it could have found. -/
theorem forall_sole {P Q : User → Prop} (hUser : user ∈ s.user.rows) (hHolds : P user)
    (hSole : ∀ r ∈ s.user.rows, P r → r = user) : (∀ r ∈ s.user.rows, P r → Q r) ↔ Q user := by
  constructor
  · intro h
    exact h user hUser hHolds
  · intro h r hr hP
    rw [hSole r hr hP]
    exact h

variable [PasswordRuntime]

theorem temporaryPassword_unknown {email : String} (hUnknown : holder s email = none)
    (secret : Secret) (outcome : ProviderOutcome) :
    (RequestService.forgotPassword email secret outcome).run s =
      (.ok "If an account exists with this email, a temporary password has been sent.", s) := by
  have hFind : (UserService.findByEmail email).run s = (.ok (holder s email), s) := rfl
  unfold RequestService.forgotPassword
  rw [run_bind_ok hFind, hUnknown]
  rfl

theorem temporaryPassword_known {email : String} (hHolder : holder s email = some user)
    (secret : Secret) (outcome : ProviderOutcome) :
    (RequestService.forgotPassword email secret outcome).run s =
      (storeAndSend user secret.hash outcome
        "If an account exists with this email, a temporary password has been sent.").run s := by
  have hFind : (UserService.findByEmail email).run s = (.ok (holder s email), s) := rfl
  unfold RequestService.forgotPassword
  rw [run_bind_ok hFind, hHolder]
  rfl

theorem forgotPassword_throws (hValid : s.Valid) (email : String) (secret : Secret)
    (outcome : ProviderOutcome) :
    ThrowsBeforePasswords s (RequestService.forgotPassword email secret outcome) ↔
      outcome.Sent ∨ ∀ r ∈ s.user.rows, r.email = email → r.password = secret.hash := by
  cases hFind : holder s email with
  | none =>
      have hRun := temporaryPassword_unknown hFind secret outcome
      refine iff_of_true (throwsBeforePasswords_of_run hRun) (Or.inr fun r hr hEmail => ?_)
      exact absurd (beq_iff_eq.mpr hEmail) (List.find?_eq_none.mp hFind r hr)
  | some user =>
      obtain ⟨hUser, hSel⟩ := Model.findFirst_some hFind
      have hEmail : user.email = email := beq_iff_eq.mp hSel
      have hRun := temporaryPassword_known hFind secret outcome
      have hSole : ∀ r ∈ s.user.rows, r.email = email → r = user := fun r hr hSame =>
        hValid.user.eq_of_conflicts (fun a b => Bool.beq_comm) hr hUser
          (beq_iff_eq.mpr (hSame.trans hEmail.symm))
      rw [forall_sole hUser hEmail hSole, ThrowsBeforePasswords, hRun]
      exact storeAndSend_throws hValid hUser outcome _

theorem resetPassword_throws (hValid : s.Valid) (id adminId : Id) (secret : Secret)
    (outcome : ProviderOutcome) :
    ThrowsBeforePasswords s (UserService.resetPassword id adminId secret outcome) ↔
      outcome.Sent ∨ ∀ r ∈ s.user.rows, r.id = id →
        r.createdBy = some adminId → r.password = secret.hash := by
  cases hFind : prisma.user.findFirst (fun r => r.id == id) s with
  | none =>
      have hRun : (UserService.resetPassword id adminId secret outcome).run s =
          (.error (UserService.userNotFound id), s) := by
        unfold UserService.resetPassword UserService.requireUser UserService.findOne
        rw [Prog.bind_assoc, findUnique, query_bind_run, hFind]
        rfl
      refine iff_of_true (throwsBeforePasswords_of_run hRun) (Or.inr fun r hr hId => ?_)
      exact absurd (beq_iff_eq.mpr hId) (List.find?_eq_none.mp hFind r hr)
  | some user =>
      obtain ⟨hUser, hSel⟩ := Model.findFirst_some hFind
      obtain rfl : user.id = id := beq_iff_eq.mp hSel
      have hRun : (UserService.resetPassword user.id adminId secret outcome).run s =
          (throwIf (user.createdBy ≠ some adminId)
              (.forbidden "You can only reset passwords for users you created") >>= fun _ =>
            storeAndSend user secret.hash outcome user).run s := by
        unfold UserService.resetPassword UserService.requireUser UserService.findOne
        rw [Prog.bind_assoc, findUnique, query_bind_run, hFind]
        rfl
      have hSole : ∀ r ∈ s.user.rows, r.id = user.id → r = user := fun r hr hSame =>
        s.user.key_inj hr hUser hSame
      rw [forall_sole (P := fun r => r.id = user.id) hUser rfl hSole, ThrowsBeforePasswords, hRun,
        throwIf_bind]
      split
      · rename_i hOther
        exact iff_of_true (throwsBeforePasswords_of_run rfl)
          (Or.inr fun hOwner => absurd hOwner hOther)
      · rename_i hOwner
        rw [forall_prop_of_true (not_not.mp hOwner)]
        exact storeAndSend_throws hValid hUser outcome user

/-- **When a reset that throws leaves the passwords alone**: when its message has been sent, when
there is no user whose password it may set, and when the hash of the new password is the old one. -/
theorem failed_reset_leaves_passwords (hValid : s.Valid) (outcome : ProviderOutcome)
    (secret : Secret) :
    (∀ email, ThrowsBeforePasswords s (RequestService.forgotPassword email secret outcome) ↔
      outcome.Sent ∨ ∀ r ∈ s.user.rows, r.email = email → r.password = secret.hash) ∧
    ∀ id adminId, ThrowsBeforePasswords s (UserService.resetPassword id adminId secret outcome) ↔
      outcome.Sent ∨ ∀ r ∈ s.user.rows, r.id = id →
        r.createdBy = some adminId → r.password = secret.hash :=
  ⟨fun email => forgotPassword_throws hValid email secret outcome,
    fun id adminId => resetPassword_throws hValid id adminId secret outcome⟩

end Calls

section Site

attribute [local instance] saltedHashes

/-- The provider does not know the domain of the sender. -/
def unverified : ProviderOutcome := .answers (some ⟨some "Domain is not verified", none⟩)

/-- Both methods fail, and the member has a password that nobody has been told. -/
theorem password_lost :
    ((RequestService.forgotPassword "ben@site" ⟨"z", "0"⟩ unverified).run site).1 =
        .error (.error "Domain is not verified") ∧
      ¬ ThrowsBeforePasswords site
        (RequestService.forgotPassword "ben@site" ⟨"z", "0"⟩ unverified) ∧
      ¬ ThrowsBeforePasswords site (UserService.resetPassword 1 1 ⟨"z", "0"⟩ unverified) := by
  refine ⟨rfl, fun h => ?_, fun h => ?_⟩
  · exact absurd (h _ rfl) (by unfold KeepsPasswords; decide)
  · exact absurd (h _ rfl) (by unfold KeepsPasswords; decide)

/-- The admin resets the password of a user of another admin: that fails before the write. -/
theorem failed_reset_leaves_passwords_site :
    ThrowsBeforePasswords site
        (RequestService.forgotPassword "ben@site" ⟨"z", "0"⟩ (.answers none)) ∧
      ThrowsBeforePasswords site (UserService.resetPassword 1 2 ⟨"z", "0"⟩ unverified) := by
  refine ⟨?_, ?_⟩
  · exact ((failed_reset_leaves_passwords site_valid (.answers none) _).1 _).mpr (Or.inl rfl)
  · refine ((failed_reset_leaves_passwords site_valid unverified _).2 1 2).mpr (Or.inr ?_)
    decide

end Site

end Rooeel
