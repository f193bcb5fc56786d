import Mathlib.Logic.Equiv.List
import Rooeel.Lib.Success
import Rooeel.Auth.Lineage
import Rooeel.Api.RemovedAccounts

/-!
# Sessions that go on

`session_goes_on`: a client that renews its session in time stays logged in, whatever others request
in the meantime, in any interleaving. Three kinds of requests are excepted: those that remove the
account, those that log out a caller with its id, and those that use tokens of the client
(`Request.Spares`). What the other requests leave alone is `SparesLogin`, which is what the client
relies on, and `renewing_succeeds` is the induction on its renewals.

Without the exceptions the session may end: a logout revokes the tokens of the admin and of the user
with the id, and a token that another caller has used is revoked.
-/

namespace Rooeel

open JavaScript Prog Schema TokenRuntime

/-- Decoding reads the random id that was signed. -/
class LawfulDecode [TokenRuntime] [DecodeRuntime] : Prop where
  jti : ∀ payload expiresIn signedAt,
    (DecodeRuntime.decode (sign payload expiresIn signedAt)).map DecodedToken.jti =
      some payload.jti

/-- The rows of a token, by its hash. -/
def holders (hash : String) (s : Store) : List RefreshToken :=
  s.refreshToken.rows.filter fun r => r.token == hash

section Hashes

variable [TokenRuntime]

/-- The hash of a token with one of the random ids. -/
def HashOf (own : List String) (hash : String) : Prop :=
  ∃ payload expiresIn signedAt, payload.jti ∈ own ∧ hash = sha256 (sign payload expiresIn signedAt)

theorem hash_ne [DecodeRuntime] [LawfulDecode] [InjectiveHash] {own : List String} {hash : String}
    (h : HashOf own hash) {payload : Payload} (hOther : payload.jti ∉ own) (expiresIn : String)
    (signedAt : Int) : sha256 (sign payload expiresIn signedAt) ≠ hash := by
  obtain ⟨payload', expiresIn', signedAt', hOwn, rfl⟩ := h
  intro hSame
  have hJti := LawfulDecode.jti payload expiresIn signedAt
  rw [InjectiveHash.injective hSame, LawfulDecode.jti] at hJti
  exact hOther (Option.some.inj hJti ▸ hOwn)

/-- What others leave alone: the account, and the rows of the tokens with the random ids. -/
structure SparesLogin (kind : AccountKind) (id : Id) (own : List String) (s s' : Store) : Prop where
  evolve : Store.schema.Evolve s s'
  account : (Store.schema.table kind.entity s).has id = true →
    (Store.schema.table kind.entity s').has id = true
  tokens : ∀ hash, HashOf own hash → (∀ r ∈ holders hash s, r.userId = id) →
    holders hash s' = holders hash s

end Hashes

section Changes

variable [TokenRuntime] {kind : AccountKind} {id : Id} {own : List String} {s s' s'' : Store}

theorem SparesLogin.refl (kind : AccountKind) (id : Id) (own : List String) (s : Store) :
    SparesLogin kind id own s s :=
  ⟨.refl s, fun h => h, fun _ _ _ => rfl⟩

theorem SparesLogin.trans (h : SparesLogin kind id own s s') (h' : SparesLogin kind id own s' s'') :
    SparesLogin kind id own s s'' := by
  refine ⟨h.evolve.trans h'.evolve, fun hHas => h'.account (h.account hHas), ?_⟩
  intro hash hOwn hId
  have hSame := h.tokens hash hOwn hId
  exact (h'.tokens hash hOwn (by rwa [hSame])).trans hSame

omit [TokenRuntime] in
/-- No row owns an account. -/
theorem AccountKind.root (kind : AccountKind) (r : kind.entity.Of) :
    Store.referential.cascade kind.entity r = [] := by
  cases kind <;> rfl

omit [TokenRuntime] in
/-- An account is there until accounts of its kind are deleted. -/
theorem AccountKind.has_of_statement {writes : List (Write Entity)}
    (h : Store.schema.Statement (· ∈ writes) s s') (hNot : .erase kind.entity ∉ writes)
    (hHas : (Store.schema.table kind.entity s).has id = true) :
    (Store.schema.table kind.entity s').has id = true :=
  h.has_root Store.deletes kind.root hNot hHas

omit [TokenRuntime] in
/-- The tokens of a statement on other tables. -/
theorem holders_of_frame {writes : List (Write Entity)}
    (h : Store.schema.Statement (· ∈ writes) s s')
    (hSpares : Spares Entity.Reach (· ∈ writes) .refreshToken) (hash : String) :
    holders hash s' = holders hash s := by
  have hTable : s'.refreshToken = s.refreshToken :=
    h.frame (e := .refreshToken) Store.cascades hSpares
  rw [holders, hTable]
  rfl

/-- A statement on other tables. -/
theorem SparesLogin.of_frame {writes : List (Write Entity)}
    (h : Store.schema.Statement (· ∈ writes) s s')
    (hSpares : Spares Entity.Reach (· ∈ writes) .refreshToken)
    (hNot : .erase kind.entity ∉ writes) : SparesLogin kind id own s s' :=
  ⟨h.evolve Store.cascades, kind.has_of_statement h hNot,
    fun hash _ _ => holders_of_frame h hSpares hash⟩

/-- A statement on tokens. -/
theorem SparesLogin.of_tokens
    (h : Store.schema.Statement (· ∈ [Write.put Entity.refreshToken]) s s')
    (hTokens : ∀ hash, HashOf own hash → (∀ r ∈ holders hash s, r.userId = id) →
      holders hash s' = holders hash s) : SparesLogin kind id own s s' :=
  ⟨h.evolve Store.cascades, kind.has_of_statement h (by cases kind <;> decide), hTokens⟩

/-- Another account is deleted. -/
theorem SparesLogin.of_delete {e : Entity} {sel : e.Of → Bool} {r : e.Of}
    (hOther : ∀ r, sel r = true → (e, Row.key r) ≠ (kind.entity, id))
    (hSpares : ¬ e.Reach .refreshToken) (h : e.model.delete sel s = .ok (r, s')) :
    SparesLogin kind id own s s' := by
  have hStatement : Store.schema.Statement (· ∈ [Write.erase e]) s s' := by
    obtain ⟨-, -, rfl⟩ := Model.delete_ok h
    exact .delete (List.mem_singleton_self _) _
  refine ⟨hStatement.evolve Store.cascades, fun hHas => ?_, fun hash _ _ => ?_⟩
  · obtain ⟨hr, hSel, rfl⟩ := Model.delete_ok h
    refine (Store.deletes e _ s).has_root kind.root (fun x hKey hOnly => hOther r hSel ?_) hHas
    obtain rfl := hOnly.eq
    have hSame : Row.key x = Row.key r := beq_iff_eq.mp (only_iff.mp hOnly)
    exact Prod.ext rfl (hSame.symm.trans hKey)
  · refine holders_of_frame hStatement (fun w hw => ?_) hash
    obtain rfl := List.mem_singleton.mp hw
    exact hSpares

/-- A session with another token is stored. -/
theorem SparesLogin.of_create {mk : Id → RefreshToken} {hmk : ∀ k, Row.key (mk k) = k}
    {r : RefreshToken} (hOther : ∀ hash, HashOf own hash → ∀ k, (mk k).token ≠ hash)
    (h : prisma.refreshToken.create mk hmk s = .ok (r, s')) : SparesLogin kind id own s s' := by
  refine .of_tokens (.create (e := Entity.refreshToken) (List.mem_singleton_self _) h) ?_
  intro hash hOwn _
  exact Model.filter_create h fun k => beq_eq_false_iff_ne.mpr (hOther hash hOwn k)

/-- A session with another token is revoked. -/
theorem SparesLogin.of_revoke {rowId revokedAt updatedAt : Int} {r : RefreshToken}
    (hOther : ∀ hash, HashOf own hash → ∀ x ∈ s.refreshToken.rows, x.id = rowId → x.token ≠ hash)
    (h : prisma.refreshToken.update (fun x => x.id == rowId)
      (fun x => x.revoke revokedAt updatedAt) (fun _ => rfl) s = .ok (r, s')) :
    SparesLogin kind id own s s' := by
  have hEvolves (x : RefreshToken) :
      Entity.Evolves .refreshToken x (x.revoke revokedAt updatedAt) :=
    ⟨rfl, fun _ => rfl⟩
  refine .of_tokens (.update (e := Entity.refreshToken) (List.mem_singleton_self _) hEvolves h) ?_
  refine fun hash hOwn _ => Model.filter_update h fun x hx hSel => ?_
  have hApart := beq_eq_false_iff_ne.mpr (hOther hash hOwn x hx (beq_iff_eq.mp hSel))
  exact ⟨hApart, hApart⟩

/-- Somebody with another id logs out. -/
theorem SparesLogin.of_logout {userId : Id} (hOther : userId ≠ id) (revokedAt updatedAt : Int) :
    SparesLogin kind id own s { s with
      refreshToken := s.refreshToken.modify (fun r => r.userId == userId)
        (fun r => r.revoke revokedAt updatedAt) fun _ => rfl } := by
  refine .of_tokens (.updateMany (S := Store.schema) (e := Entity.refreshToken)
    (List.mem_singleton_self _) (fun r => r.userId == userId)
    (fun r => r.revoke revokedAt updatedAt) (fun _ => rfl)
    (fun _ => List.Subset.refl _) (fun _ => ⟨rfl, fun _ => rfl⟩) fun _ _ => rfl) ?_
  intro hash _ hId
  refine Table.filter_modify_of_not (fun r : RefreshToken => r.revoke revokedAt updatedAt)
    (fun _ => rfl) fun r hr hSel => ?_
  suffices hApart : (r.token == hash) = false from ⟨hApart, hApart⟩
  refine Bool.eq_false_iff.mpr fun hHash => hOther ?_
  exact (beq_iff_eq.mp hSel).symm.trans (hId r (List.mem_filter.mpr ⟨hr, hHash⟩))

end Changes

/-! ## What others request -/

section Others

variable [TokenRuntime] {kind : AccountKind} {id : Id} {own : List String} {s : Store}

/-- The program leaves the login alone, as long as no row moves to another token. -/
abbrev SparesLogins {α : Type} (kind : AccountKind) (id : Id) (own : List String) (p : Service α)
    (s : Store) : Prop :=
  Safe Store.schema.Evolve (SparesLogin kind id own) p s

theorem sparesLogins_of_confined {α : Type} {writes : List (Write Entity)} {p : Service α}
    (h : Confined writes p) (hSpares : Spares Entity.Reach (· ∈ writes) .refreshToken)
    (hNot : .erase kind.entity ∉ writes) : SparesLogins kind id own p s :=
  (h s).of_any fun _ _ hStatement => .of_frame hStatement hSpares hNot

theorem sparesLogins_delete {e : Entity} {sel : e.Of → Bool}
    (hOther : ∀ r, sel r = true → (e, Row.key r) ≠ (kind.entity, id))
    (hSpares : ¬ e.Reach .refreshToken) : SparesLogins kind id own (delete e.model sel) s :=
  guarantees_atomic (.refl kind id own)
    (fun _ _ _ hOk => .of_delete hOther hSpares (execute_ok hOk)) s

omit [TokenRuntime] in
theorem guarantees_findTokenUser {rely guar : Store → Store → Prop} (hRefl : ∀ s, guar s s)
    (userType : String) (sub : Id) :
    Guarantees rely guar (AuthService.findTokenUser userType sub) := by
  have hAccount : Guarantees rely guar (AuthService.findAccount userType sub) := by
    unfold AuthService.findAccount
    split <;> exact guarantees_read hRefl _
  refine guarantees_bind hAccount fun found => ?_
  cases found with
  | none => exact guarantees_throw _
  | some account => exact guarantees_pure _

omit [TokenRuntime] in
theorem AccountKind.entity_inj {kind' : AccountKind} (h : kind.entity = kind'.entity) :
    kind = kind' := by
  cases kind <;> cases kind' <;> first | rfl | cases h

omit [TokenRuntime] in
theorem AccountKind.not_reach (kind : AccountKind) : ¬ kind.entity.Reach .refreshToken := by
  cases kind <;> decide

/-- Another account is deleted. -/
theorem sparesLogins_deleteAccount (kind' : AccountKind) {k : Id}
    (hOther : (kind, id) ≠ (kind', k)) :
    SparesLogins kind id own (delete kind'.entity.model fun r => Row.key r == k) s := by
  refine sparesLogins_delete (fun r hSel hSame => ?_) kind'.not_reach
  obtain ⟨hEntity, hKey⟩ := Prod.mk.inj hSame
  have hId : Row.key r = k := beq_iff_eq.mp hSel
  exact hOther (Prod.ext (AccountKind.entity_inj hEntity).symm (hKey.symm.trans hId))

theorem sparesLogins_removeUser {k : Id} (hOther : (kind, id) ≠ (.user, k)) :
    SparesLogins kind id own (removeUser k) s :=
  safe_bind (guarantees_read (.refl kind id own) _ s) fun _ =>
    guarantees_bind (guarantees_throwIf _ _) fun _ _ => sparesLogins_deleteAccount .user hOther

theorem sparesLogins_removeAdmin {k : Id} (hOther : (kind, id) ≠ (.admin, k)) :
    SparesLogins kind id own (removeAdmin k) s :=
  safe_bind (guarantees_read (.refl kind id own) _ s) fun _ =>
    guarantees_bind (guarantees_throwIf _ _) fun _ =>
      guarantees_bind (fun _ => sparesLogins_deleteAccount .admin hOther) fun _ => guarantees_pure _

variable [DecodeRuntime] [LawfulTokens] [LawfulDecode] [InjectiveHash]

omit [LawfulTokens] in
theorem sparesLogins_generateTokens {call : AuthService.RefreshCall} (hOther : call.jti ∉ own)
    (user : AuthService.TokenUser) :
    SparesLogins kind id own (AuthService.generateTokens call user) s := by
  rw [AuthService.generateTokens_eq]
  split
  · exact guarantees_throw _ s
  · refine safe_bind (guarantees_atomic (.refl kind id own) (fun s r s' hOk => ?_) s)
      fun _ => guarantees_pure _
    exact .of_create (fun hash hOwn _ => hash_ne hOwn hOther _ _) (execute_ok hOk)

/-- Another token is revoked: the row that was found has had its token ever since. -/
theorem sparesLogins_refreshTokens {refreshToken : String} {call : AuthService.RefreshCall}
    (hOther : call.jti ∉ own)
    (hToken : ∀ payload, verify refreshToken call.verifiedAt = some payload → payload.jti ∉ own) :
    SparesLogins kind id own (AuthService.refreshTokens refreshToken call) s := by
  refine safe_bind (guarantees_tryCatch (fun s => ?_) (fun e s => ?_) s) fun user s =>
    sparesLogins_generateTokens hOther user
  · cases hVerify : verify refreshToken call.verifiedAt with
    | none => trivial
    | some payload =>
        refine safe_throwIf_bind fun _ => ?_
        refine safe_read_bind (.refl kind id own) fun s₁ found _ hOk => ?_
        cases hOk
        rcases AuthService.useStoredToken_cases call payload.sub (prisma.refreshToken.findFirst
          (fun r => r.token == sha256 refreshToken) s₁) with ⟨e, hThrow⟩ | ⟨r, hFound, -, hRevoke⟩
        · rw [hThrow]
          trivial
        · rw [hRevoke]
          obtain ⟨hr, hHash⟩ := Model.findFirst_some hFound
          refine safe_bind (safe_atomic (.refl kind id own) fun s₂ row s₃ hs₂ hUpdate => ?_)
            fun _ => guarantees_findTokenUser (.refl kind id own) _ _
          refine .of_revoke (fun hash hOwn x hx hId => ?_) (execute_ok hUpdate)
          have hOld : Row.key x < s₁.refreshToken.next :=
            Int.lt_of_le_of_lt (Int.le_of_eq hId) (s₁.refreshToken.key_lt hr)
          obtain ⟨x₁, hx₁, hKey, hColumns, -⟩ := (hs₂ .refreshToken).2 x hx hOld
          obtain rfl : x₁ = r := s₁.refreshToken.key_inj hx₁ hr (hKey.trans hId)
          have hSame : x.token = x₁.token := congrArg Prod.fst hColumns
          obtain ⟨expiresIn, signedAt, rfl⟩ := LawfulTokens.issued hVerify
          rw [hSame, beq_iff_eq.mp hHash]
          exact hash_ne hOwn (hToken payload hVerify) _ _
  · obtain ⟨e', hThrow⟩ := AuthService.onError_throw e
    rw [hThrow]
    trivial

omit [LawfulTokens] in
/-- What follows the credentials of a login. -/
theorem sparesLogins_session {α : Type} {found : Service (Option AuthService.ValidatedAccount)}
    (hFound : Confined [] found) {call : AuthService.RefreshCall} (hOther : call.jti ∉ own)
    (role : String) (answer : AuthService.ValidatedAccount → AuthService.TokenPair → α) :
    SparesLogins kind id own (found >>= fun account => AuthService.orInvalid account >>= fun user =>
      AuthService.generateTokens call { id := user.id, email := user.email, role } >>= fun tokens =>
        pure (answer user tokens)) s := by
  refine safe_bind (sparesLogins_of_confined hFound (by decide) List.not_mem_nil) fun account => ?_
  cases account with
  | none => exact guarantees_throw _
  | some user =>
      exact guarantees_bind (guarantees_pure user) fun user =>
        guarantees_bind (fun _ => sparesLogins_generateTokens hOther _) fun _ => guarantees_pure _

omit [LawfulTokens] in
theorem sparesLogins_signup [PasswordRuntime] (input : SignupInput) (secret : Secret)
    {call : AuthService.RefreshCall} (hOther : call.jti ∉ own) :
    SparesLogins kind id own (AuthService.signup input secret call) s := by
  refine safe_bind (guarantees_read (.refl kind id own) _ s) fun _ =>
    guarantees_bind (guarantees_throwIf _ _) fun _ => guarantees_bind (fun _ => ?_) fun admin => ?_
  · exact sparesLogins_of_confined (confined_create (e := .admin) (List.mem_singleton_self _))
      (by decide) (by cases kind <;> decide)
  · exact guarantees_bind (fun _ => sparesLogins_generateTokens hOther _) fun _ => guarantees_pure _

end Others

section Requests

variable [Runtime] [PasswordRuntime] [TokenRuntime] [DecodeRuntime]
  [PassportRuntime] {kind : AccountKind} {id : Id} {own : List String} {s : Server}

/-- Another account is removed. -/
def ServiceOp.Avoids (kind : AccountKind) (id : Id) : ServiceOp → Prop
  | .removeUser k => (kind, id) ≠ (.user, k)
  | .removeAdmin k => (kind, id) ≠ (.admin, k)
  | _ => True

omit [Runtime] [PasswordRuntime] [DecodeRuntime] [PassportRuntime] in
/-- Another account is removed, and other tokens are issued and presented. -/
def AccountOp.Avoids (kind : AccountKind) (id : Id) (own : List String) : AccountOp → Prop
  | .removeUser k => (kind, id) ≠ (.user, k)
  | .removeAdmin k => (kind, id) ≠ (.admin, k)
  | .signup _ _ call | .login _ call | .loginUser _ call => call.jti ∉ own
  | .refreshTokens refreshToken call => call.jti ∉ own ∧
      ∀ payload, verify refreshToken call.verifiedAt = some payload → payload.jti ∉ own
  | _ => True

omit [Runtime] [PasswordRuntime] [DecodeRuntime] [PassportRuntime] in
def Operation.Avoids (kind : AccountKind) (id : Id) (own : List String) : Operation → Prop
  | .service op => op.Avoids kind id
  | .account op => op.Avoids kind id own

omit [Runtime] [PasswordRuntime] [DecodeRuntime] in
/-- The request leaves the account and the tokens alone, and logs out no caller with the id. -/
structure Request.Spares (kind : AccountKind) (id : Id) (own : List String) (r : Request) :
    Prop where
  avoids : r.op.Avoids kind id own
  logout : ∀ accessToken user call, r.op = .account (.logout accessToken user call) →
    ∀ payload, Bears r.authHeader payload → payload.sub ≠ id

abbrev SparesLoginsServer {α : Type} (kind : AccountKind) (id : Id) (own : List String)
    (p : Prog Server Exn α) (s : Server) : Prop :=
  Safe (fun s s' => Store.schema.Evolve s.store s'.store)
    (fun s s' => SparesLogin kind id own s.store s'.store) p s

omit [Runtime] [PasswordRuntime] [DecodeRuntime] [PassportRuntime] in
theorem sparesLogins_operation {α : Type} {p : Service α}
    (h : SparesLogins kind id own p s.store) : SparesLoginsServer kind id own (operation p) s :=
  safe_within (fun _ _ => rfl) (safe_bind h fun _ => guarantees_pure ())

omit [PasswordRuntime] [DecodeRuntime] [PassportRuntime] in
theorem ServiceOp.sparesLogins (op : ServiceOp) (hAvoids : op.Avoids kind id) :
    SparesLoginsServer kind id own (onStore (op.prog >>= fun _ => pure ())) s := by
  have hFrame (hNot : .erase kind.entity ∉ op.writes) :
      SparesLoginsServer kind id own (onStore (op.prog >>= fun _ => pure ())) s :=
    safe_within (fun _ _ => rfl) (safe_bind
      (sparesLogins_of_confined op.confined op.spares_refreshToken hNot)
      fun _ => guarantees_pure ())
  cases op with
  | removeUser k =>
      exact safe_within (fun _ _ => rfl) (safe_bind (safe_bind (sparesLogins_removeUser hAvoids)
        fun _ => guarantees_pure _) fun _ => guarantees_pure ())
  | removeAdmin k =>
      exact safe_within (fun _ _ => rfl) (safe_bind (safe_bind (sparesLogins_removeAdmin hAvoids)
        fun _ => guarantees_pure _) fun _ => guarantees_pure ())
  | _ => exact hFrame (by cases kind <;> exact of_decide_eq_true rfl)

variable [LawfulTokens] [LawfulDecode] [InjectiveHash]

omit [Runtime] [PassportRuntime] in
theorem AccountOp.sparesLogins (op : AccountOp) (hAvoids : op.Avoids kind id own)
    (hLogout : ∀ accessToken user call, op = .logout accessToken user call → user.userId ≠ id) :
    SparesLoginsServer kind id own op.prog s := by
  have hFrame (hSpares : Spares Entity.Reach (· ∈ op.writes) .refreshToken)
      (hNot : .erase kind.entity ∉ op.writes) : SparesLoginsServer kind id own op.prog s :=
    (op.confined s).of_any fun _ _ h => .of_frame h hSpares hNot
  cases op with
  | removeUser k => exact sparesLogins_operation (sparesLogins_removeUser hAvoids)
  | removeAdmin k => exact sparesLogins_operation (sparesLogins_removeAdmin hAvoids)
  | signup input secret call =>
      exact sparesLogins_operation (sparesLogins_signup input secret hAvoids)
  | login input call =>
      exact sparesLogins_operation (sparesLogins_session (confined_validate _ _ _) hAvoids _ _)
  | loginUser input call =>
      refine sparesLogins_operation (sparesLogins_session ?_ hAvoids "user" fun _ tokens =>
        (⟨tokens.accessToken, tokens.refreshToken, tokens.expiresIn⟩ :
          AuthService.LoginUserResult))
      exact confined_bind (confined_read _) fun _ => confined_pure _
  | refreshTokens refreshToken call =>
      exact sparesLogins_operation (sparesLogins_refreshTokens hAvoids.1 hAvoids.2)
  | logout accessToken user call =>
      have hOther := hLogout accessToken user call rfl
      exact safe_bind (guarantees_logout (fun s => .refl kind id own s.store)
        (fun s _ => .refl kind id own s.store) accessToken user call
        (fun _ revokedAt updatedAt => .of_logout hOther revokedAt updatedAt) s)
        fun _ => guarantees_pure ()
  | _ => exact hFrame (of_decide_eq_true rfl) (by cases kind <;> exact of_decide_eq_true rfl)

omit [Runtime] [PasswordRuntime] [DecodeRuntime] [PassportRuntime] [LawfulTokens]
  [LawfulDecode] [InjectiveHash] in
theorem Operation.avoids_calledBy {op : Operation} (h : op.Avoids kind id own)
    (authHeader : Option String) (user : RequestUser) :
    (op.calledBy authHeader user).Avoids kind id own := by
  cases op with
  | service op => cases op <;> exact h
  | account op => cases op <;> exact h

omit [Runtime] [PasswordRuntime] [TokenRuntime] [DecodeRuntime] [PassportRuntime]
  [LawfulTokens] [LawfulDecode] [InjectiveHash] in
/-- Who calls is logged out. -/
theorem Operation.of_calledBy_logout {op : Operation} {authHeader : Option String}
    {user user' : RequestUser} {accessToken : String} {call : LogoutCall}
    (h : op.calledBy authHeader user = .account (.logout accessToken user' call)) :
    user' = user ∧
      ∃ accessToken' user' call', op = .account (.logout accessToken' user' call') := by
  cases op with
  | service op => cases h
  | account op =>
      cases op with
      | logout accessToken' user' call' =>
          cases h
          exact ⟨rfl, _, _, _, rfl⟩
      | _ => cases h

omit [PassportRuntime] in
theorem Operation.sparesLogins (op : Operation) (hAvoids : op.Avoids kind id own)
    (hLogout : ∀ accessToken user call, op = .account (.logout accessToken user call) →
      user.userId ≠ id) : SparesLoginsServer kind id own op.prog s := by
  cases op with
  | service op => exact op.sparesLogins hAvoids
  | account op =>
      exact op.sparesLogins hAvoids fun _ _ _ hOp => hLogout _ _ _ (congrArg Operation.account hOp)

/-- **A request leaves the login alone**, if it is none of the exceptions. -/
theorem Request.sparesLogins (r : Request) (hSpares : r.Spares kind id own) :
    SparesLoginsServer kind id own r.handle s := by
  obtain ⟨authHeader, transport, op⟩ := r
  obtain ⟨hAvoids, hLogout⟩ := hSpares
  unfold Request.handle
  split
  · trivial
  · rename_i hExposure
    refine op.sparesLogins hAvoids fun _ _ _ hOp => ?_
    -- a logout has a guard
    subst hOp
    cases transport <;> exact nomatch hExposure
  · rename_i handle hExposure
    obtain ⟨message, adminOnly, rfl⟩ := Operation.exposure_strategy hExposure
    refine safe_read_bind (fun s => .refl kind id own s.store) fun s' user _ hOk => ?_
    refine Operation.sparesLogins _ (Operation.avoids_calledBy hAvoids authHeader user) ?_
    intro accessToken user' call hCalled
    obtain ⟨rfl, accessToken', user'', call', hOp⟩ := Operation.of_calledBy_logout hCalled
    obtain ⟨payload, hBears, hId, -⟩ := bears_of_strategy hOk
    rw [hId]
    exact hLogout _ _ _ hOp payload hBears
  · rename_i metadata args hExposure
    have hChecks : ConfinedServer [] (authenticatePermission metadata args authHeader) :=
      confined_authenticatePermission metadata args authHeader
    refine safe_bind ((hChecks s).of_any fun _ _ h => .of_frame h (by decide) List.not_mem_nil) ?_
    intro _ s
    refine op.sparesLogins hAvoids fun _ _ _ hOp => ?_
    subst hOp
    cases transport <;> exact nomatch hExposure

end Requests

/-! ## The client -/

section Client

variable [TokenRuntime]

/-- Every call renews the session that the call before it has left; the last token is kept. -/
def renewing : String → List AuthService.RefreshCall → Service String
  | refreshToken, [] => pure refreshToken
  | refreshToken, call :: calls => do
    let pair ← AuthService.refreshTokens refreshToken call
    renewing pair.refreshToken calls

/-- The refresh token that a call issues, when the account has the address. -/
def refreshTokenOf (kind : AccountKind) (id : Id) (call : AuthService.RefreshCall)
    (email : String) : String :=
  (AuthService.issuedPair call ⟨id, email, kind.role⟩).refreshToken

/-- The session that the call has left: its token is stored once, and is not revoked. -/
structure LoggedIn (kind : AccountKind) (id : Id) (call : AuthService.RefreshCall)
    (refreshToken : String) (s : Store) : Prop where
  issued : ∃ email, refreshToken = refreshTokenOf kind id call email
  row : ∃ r, holders (sha256 refreshToken) s = [r] ∧ r.IsOf kind id ∧
    r.expiresAt = AuthService.expiryOf call ∧ r.revokedAt = none
  account : (Store.schema.table kind.entity s).has id = true

/-- No token of the calls is stored yet. -/
def Unissued (kind : AccountKind) (id : Id) (calls : List AuthService.RefreshCall) (s : Store) :
    Prop :=
  ∀ call ∈ calls, ∀ email, holders (sha256 (refreshTokenOf kind id call email)) s = []

/-- A call is made before the token of the call before it and the row of this token expire. Its
own row expires at a date. -/
structure InTime (kind : AccountKind) (id : Id) (last call : AuthService.RefreshCall) : Prop where
  token : ∀ email, Unexpired (refreshTokenOf kind id last email) call.verifiedAt
  row : call.checkedAt ≤ AuthService.expiryOf last
  date : JavaScript.isDate (AuthService.expiryOf call) = true

variable {kind : AccountKind} {id : Id} {own : List String} {s s' : Store}
  {last call : AuthService.RefreshCall} {calls : List AuthService.RefreshCall}

/-- The hash of a token of the client. -/
theorem hashOf_call (hOwn : call.jti ∈ own) (email : String) :
    HashOf own (sha256 (refreshTokenOf kind id call email)) :=
  ⟨AuthService.claims call ⟨id, email, kind.role⟩ "refresh", _, _, hOwn, rfl⟩

theorem LoggedIn.holders_eq {refreshToken : String} (h : LoggedIn kind id last refreshToken s)
    (hOwn : last.jti ∈ own) (hSpares : SparesLogin kind id own s s') :
    holders (sha256 refreshToken) s' = holders (sha256 refreshToken) s := by
  obtain ⟨r, hRow, hOf, -⟩ := h.row
  obtain ⟨email, rfl⟩ := h.issued
  refine hSpares.tokens _ (hashOf_call hOwn email) fun x hx => ?_
  rw [hRow] at hx
  rw [List.mem_singleton.mp hx]
  exact (Prod.mk.inj hOf).2

theorem LoggedIn.stays {refreshToken : String} (h : LoggedIn kind id last refreshToken s)
    (hOwn : last.jti ∈ own) (hSpares : SparesLogin kind id own s s') :
    LoggedIn kind id last refreshToken s' := by
  obtain ⟨r, hRow, hRest⟩ := h.row
  exact ⟨h.issued, ⟨r, (h.holders_eq hOwn hSpares).trans hRow, hRest⟩, hSpares.account h.account⟩

theorem Unissued.stays (h : Unissued kind id calls s) (hOwn : ∀ call ∈ calls, call.jti ∈ own)
    (hSpares : SparesLogin kind id own s s') : Unissued kind id calls s' := by
  intro call hCall email
  rw [hSpares.tokens _ (hashOf_call (hOwn call hCall) email) fun x hx => ?_]
  · exact h call hCall email
  · rw [h call hCall email] at hx
    exact absurd hx List.not_mem_nil

/-- The row of a stored token is found. -/
theorem LoggedIn.find {refreshToken : String} {r : RefreshToken}
    (hRow : holders (sha256 refreshToken) s = [r]) :
    prisma.refreshToken.findFirst (fun x => x.token == sha256 refreshToken) s = some r := by
  unfold Model.findFirst
  rw [← List.head?_filter]
  exact congrArg List.head? hRow

/-- The tokens of two calls of the client. -/
theorem hash_call_ne [DecodeRuntime] [LawfulDecode] [InjectiveHash]
    {call' : AuthService.RefreshCall} (hIds : call.jti ≠ call'.jti) (email email' : String) :
    sha256 (refreshTokenOf kind id call email) ≠ sha256 (refreshTokenOf kind id call' email') := by
  have hOther : (AuthService.claims call ⟨id, email, kind.role⟩ "refresh").jti ∉ [call'.jti] :=
    fun hMem => hIds (List.mem_singleton.mp hMem)
  exact hash_ne (hashOf_call (List.mem_singleton_self call'.jti) email') hOther _ _

/-- What is known of a token that has not expired. -/
theorem verify_call [LawfulTokens] {email : String} {now : Int}
    (h : Unexpired (refreshTokenOf kind id last email) now) :
    verify (refreshTokenOf kind id last email) now =
      some (AuthService.claims last ⟨id, email, kind.role⟩ "refresh") := by
  obtain ⟨payload, hVerify⟩ := Option.isSome_iff_exists.mp h
  rw [hVerify, LawfulTokens.signed hVerify]

/-! ### One renewal -/

/-- The account is there, and the tokens of the calls are not stored. -/
abbrev Awaits (kind : AccountKind) (id : Id) (calls : List AuthService.RefreshCall) (s : Store) :
    Prop :=
  (Store.schema.table kind.entity s).has id = true ∧ Unissued kind id calls s

theorem Awaits.stays (h : Awaits kind id calls s) (hOwn : ∀ call ∈ calls, call.jti ∈ own)
    (hSpares : SparesLogin kind id own s s') : Awaits kind id calls s' :=
  ⟨hSpares.account h.1, h.2.stays hOwn hSpares⟩

/-- The account, by its id and its kind. -/
abbrev Identified (kind : AccountKind) (id : Id) (calls : List AuthService.RefreshCall)
    (user : AuthService.TokenUser) (s : Store) : Prop :=
  (user.id, user.role) = (id, kind.role) ∧ Awaits kind id calls s

/-- The account is found. -/
theorem succeeds_findTokenUser (h : Awaits kind id calls s)
    (hOwn : ∀ call ∈ calls, call.jti ∈ own) :
    Succeeds (SparesLogin kind id own) (Identified kind id calls)
      (AuthService.findTokenUser kind.role id) s := by
  have hAccount : Succeeds (SparesLogin kind id own)
      (fun found s => (∃ email, found = some (id, email)) ∧ Awaits kind id calls s)
      (AuthService.findAccount kind.role id) s := by
    have hFound {ρ : Type} [Row ρ] (table : Store → Table ρ) (email : ρ → String)
        (hHas : ∀ s', SparesLogin kind id own s s' → (table s').has id = true) :
        Succeeds (SparesLogin kind id own)
          (fun found s => (∃ email, found = some (id, email)) ∧ Awaits kind id calls s)
          (query fun s => ((table s).find id).map fun r => (Row.key r, email r)) s := by
      refine succeeds_read fun s' hs' => ?_
      obtain ⟨r, hr, hKey⟩ := Table.has_iff.mp (hHas s' hs')
      have hFind : (table s').find id = some r := Table.find_eq_some.mpr ⟨hr, hKey⟩
      refine ⟨some (id, email r), ?_, fun s'' hs'' => ⟨⟨email r, rfl⟩, ?_⟩⟩
      · change Except.ok (((table s').find id).map fun r => (Row.key r, email r)) = _
        rw [hFind, Option.map_some, hKey]
      · exact (h.stays hOwn hs').stays hOwn hs''
    cases kind with
    | admin => exact hFound Store.admin Admin.email fun s' hs' => hs'.account h.1
    | user => exact hFound Store.user User.email fun s' hs' => hs'.account h.1
  refine succeeds_bind (.refl kind id own) hAccount ?_
  rintro found s' ⟨⟨email, rfl⟩, hAwaits⟩
  exact succeeds_pure fun s'' hs'' => ⟨rfl, hAwaits.stays hOwn hs''⟩

omit [TokenRuntime] in
/-- A row whose token no other row has can be written. -/
theorem accepts_of_holders {r : RefreshToken} (h : ∀ x ∈ holders r.token s, Row.key x = Row.key r) :
    prisma.refreshToken.accepts s r = .ok () := by
  refine Model.accepts_of rfl fun x hx hKey => Bool.eq_false_iff.mpr fun hConflict => ?_
  exact hKey (h x (List.mem_filter.mpr ⟨hx, hConflict⟩))

variable [DecodeRuntime] [LawfulTokens] [LawfulDecode] [InjectiveHash]

omit [LawfulTokens] in
/-- The tokens of the later calls have other hashes. -/
theorem Unissued.others (h : Unissued kind id calls s)
    (hIds : ((call :: calls).map AuthService.RefreshCall.jti).Nodup) (email : String)
    (hOthers : ∀ hash, sha256 (refreshTokenOf kind id call email) ≠ hash →
      holders hash s' = holders hash s) : Unissued kind id calls s' := by
  intro next hNext email'
  have hApart : call.jti ≠ next.jti := fun hSame =>
    (List.nodup_cons.mp hIds).1 (hSame ▸ List.mem_map_of_mem hNext)
  rw [hOthers _ (hash_call_ne hApart email email')]
  exact h next hNext email'

omit [LawfulTokens] in
/-- The next token is stored. -/
theorem succeeds_generateTokens (h : Awaits kind id (call :: calls) s)
    (hOwn : ∀ x ∈ call :: calls, x.jti ∈ own)
    (hIds : ((call :: calls).map AuthService.RefreshCall.jti).Nodup)
    (hDate : JavaScript.isDate (AuthService.expiryOf call) = true) (email : String) :
    Succeeds (SparesLogin kind id own)
      (fun pair s => LoggedIn kind id call pair.refreshToken s ∧ Unissued kind id calls s)
      (AuthService.generateTokens call ⟨id, email, kind.role⟩) s := by
  obtain ⟨hFirst, hRest⟩ := List.forall_mem_cons.mp hOwn
  let row := AuthService.issuedRow call ⟨id, email, kind.role⟩
  have hStored : Succeeds (SparesLogin kind id own)
      (fun _ s => LoggedIn kind id call (refreshTokenOf kind id call email) s ∧
        Unissued kind id calls s) (create prisma.refreshToken row) s := by
    refine succeeds_atomic fun s₁ hs₁ => ?_
    obtain ⟨hHas, hUnissued⟩ := h.stays hOwn hs₁
    have hNone := hUnissued call List.mem_cons_self email
    have hAccepts : prisma.refreshToken.accepts s₁ (row s₁.refreshToken.next) = .ok () :=
      accepts_of_holders fun x hx => by
        change x ∈ holders (sha256 (refreshTokenOf kind id call email)) s₁ at hx
        rw [hNone] at hx
        exact absurd hx List.not_mem_nil
    have hCreate : prisma.refreshToken.create row (fun _ => rfl) s₁ = .ok (row s₁.refreshToken.next,
        { s₁ with refreshToken := s₁.refreshToken.insert row fun _ => rfl }) :=
      Model.create_of hAccepts
    have hHolders : holders (sha256 (refreshTokenOf kind id call email))
        { s₁ with refreshToken := s₁.refreshToken.insert row fun _ => rfl } =
          [row s₁.refreshToken.next] := by
      change (s₁.refreshToken.rows ++ [row s₁.refreshToken.next]).filter _ = _
      rw [List.filter_append]
      change holders (sha256 (refreshTokenOf kind id call email)) s₁ ++ _ = _
      rw [hNone, List.nil_append]
      exact List.filter_cons_of_pos (beq_self_eq_true _)
    have hLive : LoggedIn kind id call (refreshTokenOf kind id call email)
        { s₁ with refreshToken := s₁.refreshToken.insert row fun _ => rfl } := by
      refine ⟨⟨email, rfl⟩, ⟨_, hHolders, rfl, rfl, rfl⟩, ?_⟩
      cases kind <;> exact hHas
    have hLater : Unissued kind id calls
        { s₁ with refreshToken := s₁.refreshToken.insert row fun _ => rfl } :=
      Unissued.others (fun x hx => hUnissued x (List.mem_cons_of_mem call hx)) hIds email
        fun hash hOther => Model.filter_create hCreate fun _ => beq_eq_false_iff_ne.mpr hOther
    refine ⟨_, _, congrArg (Except.mapError Exn.prisma) hCreate, fun s₂ hs₂ => ?_⟩
    exact ⟨hLive.stays hFirst hs₂, hLater.stays hRest hs₂⟩
  rw [AuthService.generateTokens_eq, if_neg (Bool.not_eq_false _ ▸ hDate)]
  refine succeeds_bind (.refl kind id own) hStored fun _ s' hs' => succeeds_pure fun s'' hs'' => ?_
  exact ⟨hs'.1.stays hFirst hs'', hs'.2.stays hRest hs''⟩

omit [LawfulTokens] in
/-- The row of the token is revoked. -/
theorem succeeds_revoke {r : RefreshToken} {email : String}
    (hLive : LoggedIn kind id last (refreshTokenOf kind id last email) s)
    (hRow : holders (sha256 (refreshTokenOf kind id last email)) s = [r])
    (hNext : Unissued kind id calls s) (hOwn : ∀ x ∈ last :: calls, x.jti ∈ own)
    (hIds : ((last :: calls).map AuthService.RefreshCall.jti).Nodup) (revokedAt updatedAt : Int) :
    Succeeds (SparesLogin kind id own) (fun _ s => Awaits kind id calls s)
      (update prisma.refreshToken (fun x => x.id == r.id)
        fun x => x.revoke revokedAt updatedAt) s := by
  obtain ⟨hFirst, hRest⟩ := List.forall_mem_cons.mp hOwn
  let mark (x : RefreshToken) : RefreshToken := x.revoke revokedAt updatedAt
  refine succeeds_atomic fun s₁ hs₁ => ?_
  have hRow₁ := (hLive.holders_eq hFirst hs₁).trans hRow
  have hMem : r ∈ holders (sha256 (refreshTokenOf kind id last email)) s₁ := by
    rw [hRow₁]
    exact List.mem_singleton_self r
  obtain ⟨hr, hHash⟩ := List.mem_filter.mp hMem
  have hToken : r.token = sha256 (refreshTokenOf kind id last email) := beq_iff_eq.mp hHash
  have hFind : prisma.refreshToken.findFirst (fun x => x.id == r.id) s₁ = some r :=
    Table.find_eq_some.mpr ⟨hr, rfl⟩
  have hAccepts : prisma.refreshToken.accepts s₁ (mark r) = .ok () :=
    accepts_of_holders fun x hx => by
      change x ∈ holders r.token s₁ at hx
      rw [hToken, hRow₁] at hx
      rw [List.mem_singleton.mp hx]
      rfl
  have hUpdate : prisma.refreshToken.update (fun x => x.id == r.id) mark (fun _ => rfl) s₁ =
      .ok (mark r, { s₁ with refreshToken :=
        s₁.refreshToken.modify (fun x => Row.key x == Row.key r) mark fun _ => rfl }) :=
    Model.update_of_find hFind hAccepts
  refine ⟨_, _, congrArg (Except.mapError Exn.prisma) hUpdate, fun s₂ hs₂ => ?_⟩
  have hNext₁ := hNext.stays hRest hs₁
  refine Awaits.stays ⟨?_, hNext₁.others hIds email fun hash hOther => ?_⟩ hRest hs₂
  · have hHas := hs₁.account hLive.account
    cases kind <;> exact hHas
  · refine Model.filter_update hUpdate fun x hx hSel => ?_
    obtain rfl : x = r := s₁.refreshToken.key_inj hx hr (beq_iff_eq.mp hSel)
    have hApart : (x.token == hash) = false := beq_eq_false_iff_ne.mpr (hToken ▸ hOther)
    exact ⟨hApart, hApart⟩

omit [LawfulTokens] in
/-- The row of the token is found and used. -/
theorem succeeds_useStoredToken {email : String}
    (hLive : LoggedIn kind id last (refreshTokenOf kind id last email) s)
    (hNext : Unissued kind id calls s) (hExpiry : call.checkedAt ≤ AuthService.expiryOf last)
    (hOwn : ∀ x ∈ last :: calls, x.jti ∈ own)
    (hIds : ((last :: calls).map AuthService.RefreshCall.jti).Nodup) :
    Succeeds (SparesLogin kind id own) (Identified kind id calls) (do
      let storedToken ← findUnique prisma.refreshToken fun r =>
        r.token == sha256 (refreshTokenOf kind id last email)
      AuthService.useStoredToken call id storedToken) s := by
  obtain ⟨hFirst, hRest⟩ := List.forall_mem_cons.mp hOwn
  refine succeeds_bind (.refl kind id own) (P := fun found s => ∃ r, found = some r ∧
    holders (sha256 (refreshTokenOf kind id last email)) s = [r] ∧
    LoggedIn kind id last (refreshTokenOf kind id last email) s ∧ Unissued kind id calls s)
    (succeeds_read fun s₁ hs₁ => ?_) ?_
  · have hLive₁ := hLive.stays hFirst hs₁
    obtain ⟨r, hRow, -⟩ := hLive₁.row
    refine ⟨_, rfl, fun s₂ hs₂ => ⟨r, LoggedIn.find hRow, ?_, hLive₁.stays hFirst hs₂,
      (hNext.stays hRest hs₁).stays hRest hs₂⟩⟩
    exact (hLive₁.holders_eq hFirst hs₂).trans hRow
  · rintro found s₁ ⟨r, rfl, hRow, hLive₁, hNext₁⟩
    obtain ⟨r', hRow', hOf, hExpires, hRevoked⟩ := hLive₁.row
    obtain rfl : r' = r := List.singleton_inj.mp (hRow'.symm.trans hRow)
    refine succeeds_throwIf_bind (by rw [hRevoked]; decide) ?_
    refine succeeds_throwIf_bind (Int.not_lt.mpr (hExpires ▸ hExpiry)) ?_
    refine succeeds_bind (.refl kind id own)
      (succeeds_revoke hLive₁ hRow hNext₁ hOwn hIds call.revokedAt call.markedAt) fun _ s₂ hs₂ => ?_
    rw [show r'.userType = kind.role from (Prod.mk.inj hOf).1]
    exact succeeds_findTokenUser hs₂ hRest

/-- **A renewal in time succeeds**, whatever the others do. -/
theorem succeeds_refreshTokens {refreshToken : String}
    (hLive : LoggedIn kind id last refreshToken s) (hNext : Unissued kind id (call :: calls) s)
    (hTime : InTime kind id last call) (hOwn : ∀ x ∈ last :: call :: calls, x.jti ∈ own)
    (hIds : ((last :: call :: calls).map AuthService.RefreshCall.jti).Nodup) :
    Succeeds (SparesLogin kind id own)
      (fun pair s => LoggedIn kind id call pair.refreshToken s ∧ Unissued kind id calls s)
      (AuthService.refreshTokens refreshToken call) s := by
  obtain ⟨hFirst, hRest⟩ := List.forall_mem_cons.mp hOwn
  obtain ⟨email, rfl⟩ := hLive.issued
  refine succeeds_bind (.refl kind id own) (P := Identified kind id (call :: calls))
    (succeeds_tryCatch ?_) ?_
  · rw [verify_call (hTime.token email)]
    exact succeeds_throwIf_bind (not_not.mpr rfl)
      (succeeds_useStoredToken hLive hNext hTime.row hOwn hIds)
  · rintro ⟨userId, email', role⟩ s₁ ⟨hPair, hAwaits⟩
    obtain ⟨rfl, rfl⟩ := Prod.mk.inj hPair
    exact succeeds_generateTokens hAwaits hRest (List.nodup_cons.mp hIds).2 hTime.date email'

/-- **Renewing again and again.** -/
theorem renewing_succeeds {refreshToken : String} (hLive : LoggedIn kind id last refreshToken s)
    (hNext : Unissued kind id calls s) (hTimes : (last :: calls).IsChain (InTime kind id))
    (hOwn : ∀ x ∈ last :: calls, x.jti ∈ own)
    (hIds : ((last :: calls).map AuthService.RefreshCall.jti).Nodup) :
    Succeeds (SparesLogin kind id own) (LoggedIn kind id (calls.getLastD last))
      (renewing refreshToken calls) s := by
  induction calls generalizing last refreshToken s with
  | nil =>
      have hFirst : last.jti ∈ own := hOwn last List.mem_cons_self
      exact succeeds_pure fun s' hs' => hLive.stays hFirst hs'
  | cons call calls ih =>
      obtain ⟨hTime, hLater⟩ := List.isChain_cons_cons.mp hTimes
      refine succeeds_bind (.refl kind id own)
        (succeeds_refreshTokens hLive hNext hTime hOwn hIds) fun pair s' hs' => ?_
      rw [List.getLastD_cons]
      exact ih hs'.1 hs'.2 hLater (List.forall_mem_cons.mp hOwn).2 (List.nodup_cons.mp hIds).2

omit [LawfulTokens] [LawfulDecode] [InjectiveHash] [DecodeRuntime] in
theorem confined_renewing (refreshToken : String) (calls : List AuthService.RefreshCall) :
    Confined [.put .refreshToken] (renewing refreshToken calls) := by
  induction calls generalizing refreshToken with
  | nil => exact confined_pure refreshToken
  | cons call calls ih =>
      exact confined_bind (confined_refreshTokens (List.mem_singleton_self _) refreshToken call)
        fun pair => ih pair.refreshToken

end Client

/-! ## The client among others -/

section Pool

variable [Runtime] [PasswordRuntime] [TokenRuntime] [DecodeRuntime]
  [PassportRuntime]

/-- The requests, and the client, which keeps its last token. -/
def clientPool {ι : Type} (requests : ι → Request) (s : Server) (refreshToken : String)
    (calls : List AuthService.RefreshCall) : Pool (Option ι) Server Exn (Option String) :=
  Pool.start s fun
    | none => onStore (renewing refreshToken calls >>= fun token => pure (some token))
    | some i => (requests i).handle >>= fun _ => pure none

variable [LawfulTokens] [LawfulDecode] [InjectiveHash] {ι : Type} [DecidableEq ι]
  {requests : ι → Request} {s : Server} {kind : AccountKind} {id : Id} {refreshToken : String}
  {last : AuthService.RefreshCall} {calls : List AuthService.RefreshCall}
  {c : Pool (Option ι) Server Exn (Option String)}

/-- **A client that renews its session in time stays logged in**, whatever else is requested, in any
interleaving, unless its account is removed, somebody with its id logs out, its tokens are used by
others, or one of its own steps fails: no renewal is refused, and the last one leaves a session. -/
theorem session_goes_on (hLive : LoggedIn kind id last refreshToken s.store)
    (hNext : Unissued kind id calls s.store) (hTimes : (last :: calls).IsChain (InTime kind id))
    (hIds : ((last :: calls).map AuthService.RefreshCall.jti).Nodup)
    (hSpares : ∀ i, (requests i).Spares kind id ((last :: calls).map AuthService.RefreshCall.jti))
    (hReach : Relation.ReflTransGen (Pool.StepFor KeepsStore none)
      (clientPool requests s refreshToken calls) c) :
    (∀ e, c.proc none ≠ .done (.error e)) ∧
      ∀ token, c.Returned none (some token) →
        LoggedIn kind id (calls.getLastD last) token c.state.store := by
  let own := (last :: calls).map AuthService.RefreshCall.jti
  have hOwn : ∀ x ∈ last :: calls, x.jti ∈ own := fun x hx => List.mem_map_of_mem hx
  have hClient : Succeeds (SparesLogin kind id own)
      (fun answer s => ∀ token, answer = some token →
        LoggedIn kind id (calls.getLastD last) token s)
      (renewing refreshToken calls >>= fun token => pure (some token)) s.store := by
    refine succeeds_bind (.refl kind id own) (renewing_succeeds hLive hNext hTimes hOwn hIds)
      fun token s' hs' => succeeds_pure fun s'' hs'' token' hToken => ?_
    obtain rfl := Option.some.inj hToken
    exact hs'.stays (hOwn _ List.getLastD_mem_cons) hs''
  have hSucceeds : Succeeds (fun s s' : Server => SparesLogin kind id own s.store s'.store)
      (fun answer s => ∀ token, answer = some token →
        LoggedIn kind id (calls.getLastD last) token s.store) (c.proc none) c.state := by
    refine Pool.succeeds_among (R := fun s s' : Server => Store.schema.Evolve s.store s'.store)
      (fun s => .refl s.store) (fun _ _ _ h h' => h.trans h') (fun _ _ h => h.evolve)
      (fun s => .refl kind id own s.store) (fun _ _ _ h h' => h.trans h') (fun s s' hSame => ?_)
      (fun i hOther => ?_) ?_ (succeeds_within (fun _ _ => rfl) hClient) hReach
    · rw [show s'.store = s.store from hSame]
      exact .refl kind id own s.store
    · cases i with
      | none => exact absurd rfl hOther
      | some i => exact safe_bind ((requests i).sparesLogins (hSpares i)) fun _ => guarantees_pure _
    · have hConfined := confined_onStore (confined_bind (confined_renewing refreshToken calls)
        fun token => confined_pure (some token)) s
      exact hConfined.of_any fun _ _ hStatement => hStatement.evolve Store.cascades
  refine ⟨fun e hError => ?_, fun token hReturned => ?_⟩
  · rw [hError] at hSucceeds
    exact hSucceeds
  · rw [show c.proc none = .done (.ok (some token)) from hReturned] at hSucceeds
    exact hSucceeds c.state (.refl kind id own c.state.store) token rfl

end Pool

section Site

/-- The claims as numbers, of which one is made. -/
def claimNumbers (payload : Payload) : Int × List Nat × List Nat × List Nat × List Nat :=
  (payload.sub, payload.email.toList.map Char.toNat, payload.role.toList.map Char.toNat,
    payload.jti.toList.map Char.toNat, payload.type.toList.map Char.toNat)

def claimsOf : Int × List Nat × List Nat × List Nat × List Nat → Payload
  | (sub, email, role, jti, type) =>
    { sub
      email := String.ofList (email.map Char.ofNat)
      role := String.ofList (role.map Char.ofNat)
      jti := String.ofList (jti.map Char.ofNat)
      type := String.ofList (type.map Char.ofNat) }

/-- The digits of the number. -/
def writeClaims (payload : Payload) : String :=
  String.ofList (Nat.toDigits 10 (Encodable.encode (claimNumbers payload)))

def readClaims (token : String) : Option Payload :=
  (Encodable.decode (Nat.ofDigitChars 10 token.toList 0)).map claimsOf

theorem readClaims_writeClaims (payload : Payload) :
    readClaims (writeClaims payload) = some payload := by
  have hText (s : String) : String.ofList ((s.toList.map Char.toNat).map Char.ofNat) = s := by
    simp [Function.comp_def]
  unfold readClaims writeClaims
  rw [String.toList_ofList, Nat.ofDigitChars_ten_toDigits, Encodable.encodek, Option.map_some]
  simp only [claimsOf, claimNumbers, hText]

/-- Tokens that can be read by everybody, and do not expire. -/
abbrev readableTokens : TokenRuntime where
  verify token _ := (readClaims token).filter fun payload => writeClaims payload == token
  sign payload _ _ := writeClaims payload
  sha256 token := "#" ++ token
  jwtAccessExpiry := none
  jwtRefreshExpiry := none

abbrev readableClaims : DecodeRuntime where
  decode token := (readClaims token).map fun payload => { jti := payload.jti, exp := 0 }

attribute [local instance] asciiRuntime readableTokens readableClaims plainPassport saltedHashes

theorem verify_readableTokens (payload : Payload) (now : Int) :
    TokenRuntime.verify (writeClaims payload) now = some payload := by
  change (readClaims (writeClaims payload)).filter _ = _
  rw [readClaims_writeClaims]
  exact Option.filter_some_pos (beq_self_eq_true _)

theorem lawful_readableTokens : LawfulTokens where
  issued := fun {token now payload} hVerify =>
    ⟨"", 0, (beq_iff_eq.mp (Option.mem_filter_iff.mp hVerify).2).symm⟩
  signed := fun {payload expiresIn signedAt now payload'} hVerify =>
    (Option.some.inj ((verify_readableTokens payload now).symm.trans hVerify)).symm
  noSpace := by
    intro payload _ _ c hc
    have hDigit : c.isDigit = true := by
      change c ∈ (writeClaims payload).toList at hc
      rw [writeClaims, String.toList_ofList] at hc
      exact Nat.isDigit_of_mem_toDigits (by decide) (by decide) hc
    have hBounds : 48 ≤ c.toNat ∧ c.toNat ≤ 57 := by
      simpa [Char.isDigit, UInt32.le_iff_toNat_le] using hDigit
    unfold isSpace
    simp only [Bool.or_eq_false_iff, Bool.and_eq_false_iff, beq_eq_false_iff_ne,
      decide_eq_false_iff_not]
    omega
  nonempty := by
    intro payload _ _ hEmpty
    have hNil := congrArg String.toList hEmpty
    change (writeClaims payload).toList = _ at hNil
    rw [writeClaims, String.toList_ofList] at hNil
    exact Nat.toDigits_ne_nil hNil

theorem injective_readableTokens : InjectiveHash where
  injective := fun h => String.append_right_inj _ |>.mp h

theorem lawful_readableClaims : LawfulDecode where
  jti := fun payload _ _ => by
    change ((readClaims (writeClaims payload)).map _).map _ = _
    rw [readClaims_writeClaims]
    rfl

/-- The member of the small site has logged in. -/
def benLogin : AuthService.RefreshCall := ⟨"0", 0, 0, 0, 0, 0, 0, 0⟩

def benRenewals : List AuthService.RefreshCall :=
  [⟨"1", 1, 1, 1, 1, 1, 1, 1⟩, ⟨"2", 2, 2, 2, 2, 2, 2, 2⟩]

def benToken : String := refreshTokenOf .user 1 benLogin "ben@site"

def benLoggedIn : Server where
  store := { site with
    refreshToken := Table.empty.insert (AuthService.issuedRow benLogin ⟨1, "ben@site", "user"⟩)
      fun _ => rfl }
  cache := []
  clock := 0

theorem benLoggedIn_token : LoggedIn .user 1 benLogin benToken benLoggedIn.store := by
  let row := AuthService.issuedRow benLogin ⟨1, "ben@site", "user"⟩ 1
  have hRow : holders (sha256 benToken) benLoggedIn.store = [row] :=
    List.filter_cons_of_pos (beq_self_eq_true _)
  exact ⟨⟨"ben@site", rfl⟩, ⟨row, hRow, rfl, rfl, rfl⟩, by decide⟩

/-- The tokens of the renewals are not stored. -/
theorem benRenewals_unissued : Unissued .user 1 benRenewals benLoggedIn.store := by
  have hDecode := lawful_readableClaims
  have hHash := injective_readableTokens
  intro call hCall email
  have hIds : benLogin.jti ≠ call.jti := by
    revert call
    decide
  have hOther : sha256 benToken ≠ sha256 (refreshTokenOf .user 1 call email) :=
    hash_call_ne hIds "ben@site" email
  refine List.filter_eq_nil_iff.mpr fun r hr => ?_
  rw [List.mem_singleton.mp hr]
  exact fun hSame => hOther (beq_iff_eq.mp hSame)

/-- The member logs in once more, and so does the admin with the same id. -/
def otherSessions : Bool → Request
  | true => ⟨none, .graphql, .account (.login ⟨"ben@site", "y", none⟩ ⟨"j", 0, 0, 0, 0, 0, 0, 0⟩)⟩
  | false =>
    ⟨none, .rest, .account (.login ⟨"ada@site", "x", some "admin"⟩ ⟨"k", 0, 0, 0, 0, 0, 0, 0⟩)⟩

theorem otherSessions_spare (i : Bool) :
    (otherSessions i).Spares .user 1
      ((benLogin :: benRenewals).map AuthService.RefreshCall.jti) := by
  cases i with
  | true => exact ⟨(by decide : "j" ∉ ["0", "1", "2"]), nofun⟩
  | false => exact ⟨(by decide : "k" ∉ ["0", "1", "2"]), nofun⟩

def afterRenewals : Pool (Option Bool) Server Exn (Option String) :=
  (clientPool otherSessions benLoggedIn benToken benRenewals).play
    [none, some true, none, some false, none, some true, none, some true, none, some false, none,
      none, none, none, none]

/-- The member renews the session twice. -/
theorem session_goes_on_site :
    (∀ e, afterRenewals.proc none ≠ .done (.error e)) ∧
      ∀ token, afterRenewals.Returned none (some token) →
        LoggedIn .user 1 ⟨"2", 2, 2, 2, 2, 2, 2, 2⟩ token afterRenewals.state.store := by
  have hTokens := lawful_readableTokens
  have hDecode := lawful_readableClaims
  have hHash := injective_readableTokens
  have hInTime (last call : AuthService.RefreshCall)
      (hRow : call.checkedAt ≤ AuthService.expiryOf last)
      (hDate : JavaScript.isDate (AuthService.expiryOf call) = true) :
      InTime .user 1 last call := by
    refine ⟨fun email => ?_, hRow, hDate⟩
    have hVerify := verify_readableTokens (AuthService.claims last ⟨1, email, "user"⟩ "refresh")
      call.verifiedAt
    exact Option.isSome_of_eq_some hVerify
  have hTimes : (benLogin :: benRenewals).IsChain (InTime .user 1) :=
    .cons_cons (hInTime benLogin ⟨"1", 1, 1, 1, 1, 1, 1, 1⟩ (by decide) (by decide))
      (.cons_cons (hInTime _ ⟨"2", 2, 2, 2, 2, 2, 2, 2⟩ (by decide) (by decide)) (.singleton _))
  have hReach : Relation.ReflTransGen (Pool.StepFor KeepsStore none)
      (clientPool otherSessions benLoggedIn benToken benRenewals) afterRenewals :=
    Pool.reachFor_of_exec (Pool.reach_play _ _)
  exact session_goes_on benLoggedIn_token benRenewals_unissued hTimes (by decide)
    otherSessions_spare hReach

end Site

end Rooeel
