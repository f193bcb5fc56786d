import Rooeel.Store.Writes
import Rooeel.User.AccountEffects

/-!
# What the operations on accounts write

`AccountOp.writes` lists the tables of an operation on accounts, as `ServiceOp.writes` does for the
mutations, and `AccountOp.confined` says that every step of the operation is a statement within the
list. No operation but the removal of an account reaches the tables of the projects.
-/

namespace Rooeel

open JavaScript Prog Schema

/-- The tables in which an operation writes or deletes rows. -/
def AccountOp.writes : AccountOp → List (Write Entity)
  | .createAdmin .. | .updateAdmin .. => [.put .admin]
  | .removeAdmin .. => [.erase .admin]
  | .createUser .. | .updateUser .. | .resetUserPassword .. | .updateMyProfile ..
  | .changeMyPassword .. | .sendTemporaryPassword .. => [.put .user]
  | .removeUser .. => [.erase .user]
  | .signup .. => [.put .admin, .put .refreshToken]
  | .login .. | .loginUser .. | .refreshTokens .. | .logout .. => [.put .refreshToken]
  | .forgotPassword .. | .requestReset .. => [.erase .passwordResetToken, .put .passwordResetToken]
  | .resetPassword .. | .redeemReset .. => [.put .user, .put .passwordResetToken]
  | .createRequest .. | .rejectRequest .. => [.put .userRequest]
  | .generatePassword .. | .approveRequest .. => [.put .user, .put .userRequest]

/-- Every step of the program of the server is a statement with the footprint, or leaves the store
as it is. -/
def ConfinedServer {α : Type} (writes : List (Write Entity)) (p : Prog Server Exn α) : Prop :=
  Guarantees (fun _ _ => True)
    (fun s s' => Store.schema.Statement (· ∈ writes) s.store s'.store) p

theorem confined_onStore {α : Type} {writes : List (Write Entity)} {p : Service α}
    (h : Confined writes p) : ConfinedServer writes (onStore p) :=
  guarantees_within (fun _ _ => rfl) h

theorem confined_operation {α : Type} {writes : List (Write Entity)} {p : Service α}
    (h : Confined writes p) : ConfinedServer writes (operation p) :=
  confined_onStore (confined_bind h fun _ => confined_pure ())

theorem confined_sendPasswordResetEmail {writes : List (Write Entity)}
    (outcome : ProviderOutcome) :
    Confined writes (EmailService.sendPasswordResetEmail outcome) :=
  guarantees_sendPasswordResetEmail outcome

section Parts

-- the rules are applied to the operations; what they are about is not computed
attribute [local irreducible] Confined

variable {writes : List (Write Entity)}

theorem confined_requireUser (id : Id) : Confined writes (UserService.requireUser id) := by
  refine confined_bind (confined_read _) fun user => ?_
  cases user with
  | none => exact confined_throw _
  | some user => exact confined_pure user

theorem confined_requirePending (id adminId : Id) (refusal : String)
    (found : Option UserRequest) :
    Confined writes (RequestService.requirePending id adminId refusal found) := by
  rcases RequestService.requirePending_cases id adminId refusal found with
    ⟨e, hThrow, -⟩ | ⟨request, -, -, -, hPass⟩
  · rw [hThrow]
    exact confined_throw e
  · rw [hPass]
    exact confined_pure request

/-- The columns of a user, but not the admin who has created it. -/
theorem confined_updateUser (h : .put .user ∈ writes) {sel : User → Bool} {f : User → User}
    {hf : ∀ r, Row.key (f r) = Row.key r} (hCreator : ∀ r, (f r).createdBy = r.createdBy) :
    Confined writes (update prisma.user sel f hf) :=
  confined_update (e := .user) h fun r => Or.inl (hCreator r)

/-- The request is decided. -/
theorem confined_setStatus (h : .put .userRequest ∈ writes) {id : Id} {status : String}
    (hDecided : status ≠ "pending") : Confined writes (RequestService.setStatus id status) :=
  confined_update (e := .userRequest) h fun _ => ⟨rfl, fun _ => hDecided⟩

/-- An approved request keeps the admin of the user, or clears it. -/
theorem staysOrClears_requestedChange {request : UserRequest} {f : User → User}
    (hChange : RequestService.requestedChange request = some f) (r : User) :
    Entity.StaysOrClears r.createdBy (f r).createdBy := by
  unfold RequestService.requestedChange at hChange
  split at hChange
  · split_ifs at hChange
    cases hChange
    exact Or.inr rfl
  · split_ifs at hChange <;> cases hChange <;> exact Or.inl rfl

/-- Whatever the client makes of the statement, it is one on the user. -/
theorem confined_updateRequestedColumn (h : .put .user ∈ writes) (request : UserRequest) :
    Confined writes (RequestService.updateRequestedColumn request) := by
  rcases RequestService.updateRequestedColumn_cases request with
    ⟨-, e, hThrow⟩ | ⟨f, hf, hChange, hUpdate⟩
  · rw [hThrow]
    exact confined_throw e
  · rw [hUpdate]
    exact confined_update (e := .user) h (staysOrClears_requestedChange hChange)

theorem confined_deleteTokens (h : .erase .passwordResetToken ∈ writes)
    (sel : PasswordResetToken → Bool) : Confined writes (deleteTokens sel) := by
  refine confined_execute fun s _ s' hOk => ?_
  cases hOk
  exact .delete (S := Store.schema) (e := Entity.passwordResetToken) h sel

theorem confined_issue (h : .put .passwordResetToken ∈ writes) (email message : String)
    (call : IssueCall) :
    Confined writes (issueToken email message call) := by
  refine confined_bind (confined_create (e := .passwordResetToken) h) fun _ => ?_
  exact confined_bind (confined_sendPasswordResetEmail _) fun _ => confined_pure _

theorem confined_redemption [PasswordRuntime] (hUser : .put .user ∈ writes)
    (hToken : .put .passwordResetToken ∈ writes) (token : String) (r : Redemption) :
    Confined writes (r.prog token) := by
  rw [Redemption.prog_eq]
  refine confined_bind (confined_read _) fun found => ?_
  rcases Redemption.afterLookup_cases r token found with ⟨e, hThrow⟩ | ⟨record, -, -, hRedeem⟩
  · rw [hThrow]
    exact confined_throw e
  · rw [hRedeem]
    refine confined_bind (confined_read _) fun user => ?_
    cases user with
    | none => exact confined_throw _
    | some user =>
        refine confined_bind (confined_updateUser hUser fun _ => rfl) fun _ => ?_
        exact confined_bind (confined_update (e := .passwordResetToken) hToken
          fun _ => ⟨rfl, fun _ => rfl⟩)
          fun _ => confined_pure _

/-- The address is looked up, if it is a new one. -/
theorem confined_requireFree (email : Option String) :
    Confined writes (UserService.requireFree email) := by
  cases email with
  | none => exact confined_pure _
  | some email => exact confined_bind (confined_read _) fun _ => confined_throwIf _ _

theorem confined_validate [PasswordRuntime] (role email pass : String) :
    Confined writes (AuthService.validate role email pass) := by
  unfold AuthService.validate
  split
  · exact confined_bind (confined_read _) fun _ => confined_pure _
  · split
    · exact confined_bind (confined_read _) fun _ => confined_pure _
    · exact confined_pure _

section Tokens

variable [TokenRuntime]

theorem confined_generateTokens (h : .put .refreshToken ∈ writes) (call : AuthService.RefreshCall)
    (user : AuthService.TokenUser) : Confined writes (AuthService.generateTokens call user) := by
  rw [AuthService.generateTokens_eq]
  split
  · exact confined_throw _
  · exact confined_bind (confined_create (e := .refreshToken) h) fun _ => confined_pure _

theorem confined_refreshTokens (h : .put .refreshToken ∈ writes) (refreshToken : String)
    (call : AuthService.RefreshCall) :
    Confined writes (AuthService.refreshTokens refreshToken call) := by
  have hAccount (userType : String) (sub : Id) :
      Confined writes (AuthService.findAccount userType sub) := by
    unfold AuthService.findAccount
    split <;> exact confined_read _
  have hUse (sub : Id) (found : Option RefreshToken) :
      Confined writes (AuthService.useStoredToken call sub found) := by
    rcases AuthService.useStoredToken_cases call sub found with
      ⟨e, hThrow⟩ | ⟨r, -, -, hRevoke⟩
    · rw [hThrow]
      exact confined_throw e
    · rw [hRevoke]
      refine confined_bind (confined_update (e := .refreshToken) h
        fun _ => ⟨rfl, fun _ => rfl⟩) fun _ =>
        confined_bind (hAccount _ _) fun found => ?_
      cases found with
      | none => exact confined_throw _
      | some out => exact confined_pure _
  have hError (e : Exn) : Confined writes (AuthService.onError e) := by
    obtain ⟨e', hThrow⟩ := AuthService.onError_throw e
    rw [hThrow]
    exact confined_throw e'
  refine confined_bind (confined_tryCatch ?_ hError) fun user => confined_generateTokens h call user
  cases TokenRuntime.verify refreshToken call.verifiedAt with
  | none => exact confined_throw _
  | some payload =>
      refine confined_bind (confined_throwIf _ _) fun _ => ?_
      exact confined_bind (confined_read _) fun found => hUse payload.sub found

/-- What follows the credentials of a login. -/
theorem confined_session {α : Type} (h : .put .refreshToken ∈ writes)
    (found : Option AuthService.ValidatedAccount) (call : AuthService.RefreshCall) (role : String)
    (answer : AuthService.ValidatedAccount → AuthService.TokenPair → α) :
    Confined writes (AuthService.orInvalid found >>= fun user =>
      AuthService.generateTokens call { id := user.id, email := user.email, role } >>= fun tokens =>
        pure (answer user tokens)) := by
  cases found with
  | none => exact confined_throw _
  | some user =>
      exact confined_bind (confined_pure user) fun _ =>
        confined_bind (confined_generateTokens h call _) fun _ => confined_pure _

theorem confined_login [PasswordRuntime] (h : .put .refreshToken ∈ writes) (input : LoginInput)
    (call : AuthService.RefreshCall) : Confined writes (AuthService.login input call) :=
  confined_bind (confined_validate _ _ _) fun found => confined_session h found call _ _

end Tokens

omit writes in
/-- A logout is a statement on the cache and one on the tokens. -/
theorem guarantees_logout [DecodeRuntime] {rely guar : Server → Server → Prop}
    (hRefl : ∀ s, guar s s) (hCache : ∀ s cache, guar s { s with cache }) (accessToken : String)
    (user : RequestUser) (call : LogoutCall)
    (hRevoke : ∀ (s : Server) (revokedAt updatedAt : Int), guar s
      { s with store :=
        { s.store with
          refreshToken := s.store.refreshToken.modify (fun r => r.userId == user.userId)
            (fun r => r.revoke revokedAt updatedAt) fun _ => rfl } }) :
    Guarantees rely guar (logout accessToken user call) := by
  have hSet (key : String) (ttl now : Int) : Guarantees rely guar (cacheSet key ttl now) := by
    refine guarantees_atomic hRefl fun s _ s' hOk => ?_
    cases hOk
    exact hCache s _
  have hRest : Guarantees rely guar (do
      if user.userId ≠ 0 then revokeTokens user.userId call.revokedAt call.markedAt else pure ()
      pure "Logout successful" : Prog Server Exn String) := by
    split_ifs
    · refine guarantees_bind (guarantees_atomic hRefl fun s _ s' hOk => ?_) fun _ =>
        guarantees_pure _
      cases hOk
      exact hRevoke s _ _
    · exact guarantees_pure _
  refine guarantees_tryCatch ?_ fun _ => guarantees_pure _
  cases blacklistTtl accessToken user call.now with
  | none => exact hRest
  | some ttl => exact guarantees_bind (hSet _ _ _) fun _ => hRest

theorem confined_logout [DecodeRuntime] (accessToken : String) (user : RequestUser)
    (call : LogoutCall) : ConfinedServer [.put .refreshToken] (logout accessToken user call) :=
  guarantees_logout (fun _ => .same) (fun _ _ => .same) accessToken user call
    fun _ revokedAt updatedAt =>
      .updateMany (S := Store.schema) (e := Entity.refreshToken) (List.mem_singleton_self _)
        (fun r => r.userId == user.userId) (fun r => r.revoke revokedAt updatedAt)
        (fun _ => rfl) (fun _ => List.Subset.refl _) (fun _ => ⟨rfl, fun _ => rfl⟩) fun _ _ => rfl

variable [PasswordRuntime] [TokenRuntime] [DecodeRuntime]

/-- **Every operation on accounts keeps to its footprint.** -/
theorem AccountOp.confined (op : AccountOp) : ConfinedServer op.writes op.prog := by
  cases op with
  | createAdmin => exact confined_operation (confined_create (e := .admin) (by simp [writes]))
  | updateAdmin =>
      exact confined_operation (confined_bind (confined_read _) fun _ =>
        confined_bind (confined_throwIf _ _) fun _ => confined_bind (confined_throwIf _ _) fun _ =>
          confined_update (e := .admin) (by simp [writes]) fun _ => trivial)
  | removeAdmin =>
      exact confined_operation (confined_bind (confined_read _) fun _ =>
        confined_bind (confined_throwIf _ _) fun _ =>
          confined_bind (confined_delete (e := .admin) (by simp [writes])) fun _ =>
            confined_pure _)
  | createUser =>
      exact confined_operation (confined_bind (confined_read _) fun _ =>
        confined_bind (confined_throwIf _ _) fun _ =>
          confined_create (e := .user) (by simp [writes]))
  | updateUser =>
      exact confined_operation (confined_bind (confined_requireUser _) fun _ =>
        confined_bind (confined_throwIf _ _) fun _ =>
          confined_updateUser (by simp [writes]) fun _ => rfl)
  | removeUser =>
      exact confined_operation (confined_bind (confined_read _) fun _ =>
        confined_bind (confined_throwIf _ _) fun _ =>
          confined_delete (e := .user) (by simp [writes]))
  | resetUserPassword =>
      refine confined_operation (confined_bind (confined_requireUser _) fun _ => ?_)
      refine confined_bind (confined_throwIf _ _) fun _ => ?_
      exact confined_bind (confined_updateUser (by simp [writes]) fun _ => rfl) fun _ =>
        confined_bind (confined_sendPasswordResetEmail _) fun _ => confined_pure _
  | updateMyProfile =>
      exact confined_operation (confined_bind (confined_requireUser _) fun _ =>
        confined_bind (confined_requireFree _) fun _ =>
          confined_updateUser (by simp [writes]) fun _ => rfl)
  | changeMyPassword =>
      refine confined_operation (confined_bind (confined_requireUser _) fun _ => ?_)
      refine confined_bind (confined_throwIf _ _) fun _ => ?_
      exact confined_bind (confined_updateUser (by simp [writes]) fun _ => rfl) fun _ =>
        confined_pure _
  | signup =>
      refine confined_operation (confined_bind (confined_read _) fun _ => ?_)
      refine confined_bind (confined_throwIf _ _) fun _ => ?_
      refine confined_bind (confined_create (e := .admin) (by simp [writes])) fun admin => ?_
      exact confined_bind (confined_generateTokens (by simp [writes]) _ _) fun _ => confined_pure _
  | login input call => exact confined_operation (confined_login (by simp [writes]) input call)
  | loginUser input call =>
      refine confined_operation (confined_bind ?_ fun found =>
        confined_session (by simp [writes]) found call "user" fun _ tokens =>
          (⟨tokens.accessToken, tokens.refreshToken, tokens.expiresIn⟩ :
            AuthService.LoginUserResult))
      exact confined_bind (confined_read _) fun _ => confined_pure _
  | refreshTokens refreshToken call =>
      exact confined_operation (confined_refreshTokens (by simp [writes]) refreshToken call)
  | logout accessToken user call =>
      exact guarantees_bind (confined_logout accessToken user call) fun _ => guarantees_pure _
  | forgotPassword email call =>
      refine confined_operation (confined_bind (confined_read _) fun found => ?_)
      cases found with
      | none => exact confined_pure _
      | some user =>
          exact confined_bind (confined_deleteTokens (by simp [writes]) _) fun _ =>
            confined_issue (by simp [writes]) email _ call
  | requestReset email call =>
      refine confined_operation (confined_bind (confined_read _) fun found => ?_)
      cases found with
      | none => exact confined_pure _
      | some user =>
          refine confined_bind (confined_deleteTokens (by simp [writes]) _) fun _ => ?_
          exact confined_bind (confined_deleteTokens (by simp [writes]) _) fun _ =>
            confined_issue (by simp [writes]) email _ call
  | resetPassword token secret checkedAt usedAt =>
      exact confined_operation (confined_redemption (by simp [writes]) (by simp [writes]) token
        (.authService ⟨secret, checkedAt, usedAt⟩))
  | redeemReset token secret checkedAt usedAt =>
      exact confined_operation (confined_redemption (by simp [writes]) (by simp [writes]) token
        (.passwordResetService ⟨secret, checkedAt, usedAt⟩))
  | createRequest =>
      refine confined_operation (confined_bind (confined_requireUser _) fun _ => ?_)
      refine confined_bind (confined_throwIf _ _) fun _ => confined_bind (confined_throwIf _ _)
        fun _ => confined_bind (confined_throwIf _ _) fun _ => ?_
      exact confined_create (e := .userRequest) (by simp [writes])
  | sendTemporaryPassword =>
      refine confined_operation (confined_bind (confined_read _) fun found => ?_)
      cases found with
      | none => exact confined_pure _
      | some user =>
          exact confined_bind (confined_updateUser (by simp [writes]) fun _ => rfl)
            fun _ => confined_bind (confined_sendPasswordResetEmail _) fun _ => confined_pure _
  | generatePassword =>
      refine confined_operation (confined_bind (confined_read _) fun found => ?_)
      refine confined_bind (confined_requirePending _ _ _ _) fun request => ?_
      refine confined_bind (confined_throwIf _ _) fun _ => ?_
      refine confined_bind (confined_updateUser (by simp [writes]) fun _ => rfl)
        fun _ => ?_
      exact confined_bind (confined_setStatus (by simp [writes]) (by decide))
        fun _ => confined_pure _
  | approveRequest =>
      refine confined_operation (confined_bind (confined_read _) fun found => ?_)
      refine confined_bind (confined_requirePending _ _ _ _) fun request => ?_
      refine confined_bind (confined_throwIf _ _) fun _ => ?_
      exact confined_bind (confined_updateRequestedColumn (by simp [writes]) request) fun _ =>
        confined_setStatus (by simp [writes]) (by decide)
  | rejectRequest =>
      refine confined_operation (confined_bind (confined_read _) fun found => ?_)
      exact confined_bind (confined_requirePending _ _ _ _) fun _ =>
        confined_setStatus (by simp [writes]) (by decide)

end Parts

end Rooeel
