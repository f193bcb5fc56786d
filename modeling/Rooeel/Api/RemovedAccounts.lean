import Rooeel.Lib.Delivery
import Rooeel.Task.Creator
import Rooeel.Api.Privileges

/-!
# Sessions of removed accounts

`removed_account_gets_no_session`: once an account is removed, no request that is made from then on
starts or renews a session for it, in any interleaving. A request stores a session only for an
account that it has read (`delivers_validate`, `delivers_findTokenUser`) or created, the number of a
removed account is never given out again (`Gone.keeps`), and `NoSession` is what every request
guarantees and relies on.

A login that has read the account before it is removed is not such a request: it still stores its
session.
-/

namespace Rooeel

open JavaScript Prog Schema TokenRuntime

def AccountKind.entity : AccountKind → Entity
  | .admin => .admin
  | .user => .user

/-- The number was given to an account, which has been removed. -/
abbrev Gone (kind : AccountKind) (id : Id) (s : Store) : Prop :=
  Store.schema.Settled kind.entity (fun _ => False) id s

/-- A session of the account. -/
def RefreshToken.IsOf (r : RefreshToken) (kind : AccountKind) (id : Id) : Prop :=
  (r.userType, r.userId) = (kind.role, id)

/-- No session of the account is added, if the account is gone. -/
structure NoSession (kind : AccountKind) (id : Id) (s s' : Store) : Prop where
  evolve : Store.schema.Evolve s s'
  fresh : Gone kind id s → ∀ r ∈ s'.refreshToken.rows, s.refreshToken.next ≤ r.id →
    ¬ r.IsOf kind id

section Changes

variable {kind : AccountKind} {id : Id} {s s' s'' : Store}

theorem Gone.keeps (h : Gone kind id s) (hEvolve : Store.schema.Evolve s s') : Gone kind id s' :=
  Settled.keeps h hEvolve.owners

theorem NoSession.refl (kind : AccountKind) (id : Id) (s : Store) : NoSession kind id s s :=
  ⟨.refl s, fun _ _ hr hNew => absurd (s.refreshToken.key_lt hr) (Int.not_lt.mpr hNew)⟩

/-- A session that was added is of the same account later. -/
theorem NoSession.trans (h : NoSession kind id s s') (h' : NoSession kind id s' s'') :
    NoSession kind id s s'' := by
  refine ⟨h.evolve.trans h'.evolve, fun hGone r'' hr'' hNew => ?_⟩
  by_cases hLate : s'.refreshToken.next ≤ r''.id
  · exact h'.fresh (hGone.keeps h.evolve) r'' hr'' hLate
  · have hOld : Row.key r'' < s'.refreshToken.next := Int.not_le.mp hLate
    obtain ⟨r', hr', hKey, hColumns, -⟩ := (h'.evolve .refreshToken).2 r'' hr'' hOld
    have hId : r'.id = r''.id := hKey
    simp only [Prod.mk.injEq] at hColumns
    rw [RefreshToken.IsOf, hColumns.2.1, hColumns.2.2.1]
    exact h.fresh hGone r' hr' (hId ▸ hNew)

/-- No row is added at all. -/
theorem NoSession.of_next (hEvolve : Store.schema.Evolve s s')
    (hNext : s'.refreshToken.next = s.refreshToken.next) : NoSession kind id s s' :=
  ⟨hEvolve, fun _ _ hr hNew =>
    absurd (s'.refreshToken.key_lt hr) (Int.not_lt.mpr (hNext ▸ hNew))⟩

theorem NoSession.of_frame {writes : List (Write Entity)}
    (h : Store.schema.Statement (· ∈ writes) s s')
    (hSpares : Spares Entity.Reach (· ∈ writes) .refreshToken) : NoSession kind id s s' :=
  .of_next (h.evolve Store.cascades)
    (congrArg Table.next (h.frame (e := .refreshToken) Store.cascades hSpares))

theorem NoSession.of_create {mk : Id → RefreshToken} {hmk : ∀ k, Row.key (mk k) = k}
    {r : RefreshToken} (hOther : ∀ k, ¬ (mk k).IsOf kind id)
    (h : prisma.refreshToken.create mk hmk s = .ok (r, s')) : NoSession kind id s s' := by
  have hStatement : Store.schema.Statement (· ∈ [Write.put Entity.refreshToken]) s s' :=
    .create (e := Entity.refreshToken) (List.mem_singleton_self _) h
  refine ⟨hStatement.evolve Store.cascades, fun _ x hx hNew => ?_⟩
  obtain ⟨-, -, rfl⟩ := Model.create_ok h
  rcases List.mem_append.mp hx with hOld | hLast
  · exact absurd (s.refreshToken.key_lt hOld) (Int.not_lt.mpr hNew)
  · rw [List.mem_singleton.mp hLast]
    exact hOther _

theorem NoSession.of_update {sel : RefreshToken → Bool} {f : RefreshToken → RefreshToken}
    {hf : ∀ r, Row.key (f r) = Row.key r} {r : RefreshToken}
    (hEvolves : ∀ r, Entity.Evolves .refreshToken r (f r))
    (h : prisma.refreshToken.update sel f hf s = .ok (r, s')) : NoSession kind id s s' := by
  have hStatement : Store.schema.Statement (· ∈ [Write.put Entity.refreshToken]) s s' :=
    .update (e := Entity.refreshToken) (List.mem_singleton_self _) hEvolves h
  refine .of_next (hStatement.evolve Store.cascades) ?_
  obtain ⟨-, -, -, -, -, -, rfl⟩ := Model.update_ok h
  rfl

theorem NoSession.of_revoke (p : RefreshToken → Bool) (revokedAt updatedAt : Int) :
    NoSession kind id s
      { s with
        refreshToken := s.refreshToken.modify p (fun r => r.revoke revokedAt updatedAt)
          fun _ => rfl } := by
  refine .of_next (evolve_put (S := Store.schema) (e := Entity.refreshToken) ?_) rfl
  exact .modify (Entity.evolves_refl _) _ _ _ _ fun _ => ⟨rfl, fun _ => rfl⟩

end Changes

/-! ## The operations that store sessions -/

section Operations

variable {kind : AccountKind} {id : Id} {s : Store}

/-- The program adds no session of the account, as long as the others do not. -/
abbrev Sessionless {α : Type} (kind : AccountKind) (id : Id) (p : Service α) (s : Store) : Prop :=
  Safe (NoSession kind id) (NoSession kind id) p s

/-- Likewise, and what it returns satisfies `post`. -/
abbrev SessionlessTo {α : Type} (kind : AccountKind) (id : Id) (post : α → Prop) (p : Service α)
    (s : Store) : Prop :=
  Delivers (NoSession kind id) (NoSession kind id) post p s

theorem sessionless_bind {α β : Type} {post : β → Prop} {p : Service β} {f : β → Service α}
    (hp : SessionlessTo kind id post p s)
    (hf : ∀ b s', post b → NoSession kind id s s' → Sessionless kind id (f b) s') :
    Sessionless kind id (p >>= f) s :=
  safe_bind_delivers (.refl kind id) (fun _ _ _ => .trans) (fun _ _ h => h) hp hf

theorem sessionlessTo_bind {α β : Type} {post : α → Prop} {P : β → Prop} {p : Service β}
    {f : β → Service α} (hp : SessionlessTo kind id P p s)
    (hf : ∀ b s', P b → NoSession kind id s s' → SessionlessTo kind id post (f b) s') :
    SessionlessTo kind id post (p >>= f) s :=
  delivers_bind (.refl kind id) (fun _ _ _ => .trans) (fun _ _ h => h) hp hf

/-- An account that is there has another number, or is of the other kind. -/
theorem Gone.other (hGone : Gone kind id s) (kind' : AccountKind) {r : kind'.entity.Of}
    (hr : r ∈ (Store.schema.table kind'.entity s).rows) :
    (kind'.role, Row.key r) ≠ (kind.role, id) := by
  intro hSame
  obtain ⟨hRole, hId⟩ := Prod.mk.inj hSame
  obtain rfl := AccountKind.role_inj hRole
  exact hGone.2 r hr hId

/-- The account of a token, which is read. -/
theorem delivers_findTokenUser (hGone : Gone kind id s) (userType : String) (sub : Id) :
    SessionlessTo kind id
      (fun user : AuthService.TokenUser => (user.role, user.id) ≠ (kind.role, id))
      (AuthService.findTokenUser userType sub) s := by
  have hAccount : SessionlessTo kind id (fun found : Option (Id × String) => ∀ account ∈ found,
      (userType, account.1) ≠ (kind.role, id)) (AuthService.findAccount userType sub) s := by
    unfold AuthService.findAccount
    split
    · rename_i hAdmin
      refine delivers_read (.refl kind id) fun s' found hs' hOk account hFound => ?_
      cases hOk
      obtain ⟨r, hFind, rfl⟩ := Option.mem_map.mp hFound
      rw [hAdmin]
      exact (hGone.keeps hs'.evolve).other .admin (List.mem_of_find?_eq_some hFind)
    · rename_i hUser
      refine delivers_read (.refl kind id) fun s' found hs' hOk account hFound hSame => ?_
      cases hOk
      obtain ⟨r, hFind, rfl⟩ := Option.mem_map.mp hFound
      obtain ⟨hRole, hId⟩ := Prod.mk.inj hSame
      cases kind with
      | admin => exact hUser hRole
      | user => exact (hGone.keeps hs'.evolve).2 r (List.mem_of_find?_eq_some hFind) hId
  refine sessionlessTo_bind hAccount fun found s' hFound _ => ?_
  cases found with
  | none => exact delivers_throw _
  | some account => exact delivers_pure (hFound account rfl)

variable [TokenRuntime]

theorem sessionless_generateTokens {user : AuthService.TokenUser}
    (hOther : (user.role, user.id) ≠ (kind.role, id)) (call : AuthService.RefreshCall) :
    Sessionless kind id (AuthService.generateTokens call user) s := by
  rw [AuthService.generateTokens_eq]
  split
  · trivial
  · refine safe_bind (safe_atomic (.refl kind id) fun s' r s'' _ hOk => ?_)
      fun _ => guarantees_pure _
    refine .of_create ?_ (execute_ok hOk)
    exact fun _ => hOther

theorem sessionless_refreshTokens (hGone : Gone kind id s) (refreshToken : String)
    (call : AuthService.RefreshCall) :
    Sessionless kind id (AuthService.refreshTokens refreshToken call) s := by
  refine sessionless_bind (delivers_tryCatch ?_ fun e s' => ?_) fun user s' hUser _ =>
    sessionless_generateTokens hUser call
  · cases verify refreshToken call.verifiedAt with
    | none => exact delivers_throw _
    | some payload =>
        refine sessionlessTo_bind (delivers_of_safe (guarantees_throwIf _ _ s)) fun _ s₁ _ hs₁ => ?_
        refine sessionlessTo_bind (delivers_of_safe (guarantees_read (.refl kind id) _ s₁))
          fun found s₂ _ hs₂ => ?_
        rcases AuthService.useStoredToken_cases call payload.sub found with
          ⟨e, hThrow⟩ | ⟨r, -, -, hRevoke⟩
        · rw [hThrow]
          exact delivers_throw e
        · rw [hRevoke]
          refine sessionlessTo_bind (P := fun _ => True) (delivers_atomic (.refl kind id)
            fun s₃ row s₄ _ hOk => ⟨?_, trivial⟩) fun _ s₃ _ hs₃ => ?_
          · refine .of_update ?_ (execute_ok hOk)
            exact fun _ => ⟨rfl, fun _ => rfl⟩
          · exact delivers_findTokenUser (hGone.keeps ((hs₁.trans hs₂).trans hs₃).evolve) _ _
  · obtain ⟨e', hThrow⟩ := AuthService.onError_throw e
    rw [hThrow]
    exact delivers_throw e'

variable [PasswordRuntime]

/-- A new admin has a new number. -/
theorem sessionless_signup (hGone : Gone kind id s) (input : SignupInput) (secret : Secret)
    (call : AuthService.RefreshCall) :
    Sessionless kind id (AuthService.signup input secret call) s := by
  refine sessionless_bind (delivers_of_safe (guarantees_read (.refl kind id) _ s))
    fun found s₁ _ hs₁ => safe_throwIf_bind fun _ => ?_
  have hCreate : SessionlessTo kind id (fun admin : Admin => ("admin", admin.id) ≠ (kind.role, id))
      (AdminService.create input secret) s₁ := by
    refine delivers_atomic (.refl kind id) fun s₂ admin s₃ hs₂ hOk => ⟨?_, fun hSame => ?_⟩
    · have hStatement : Store.schema.Statement (· ∈ [Write.put Entity.admin]) s₂ s₃ :=
        .create (e := Entity.admin) (List.mem_singleton_self _) (execute_ok hOk)
      exact .of_frame hStatement (by decide)
    · obtain ⟨rfl, -, -⟩ := Model.create_ok (execute_ok hOk)
      obtain ⟨hRole, hId⟩ := Prod.mk.inj hSame
      obtain rfl : AccountKind.admin = kind := AccountKind.role_inj hRole
      have hOld := (hGone.keeps (hs₁.trans hs₂).evolve).1
      exact absurd hOld (Int.not_lt.mpr (Int.le_of_eq hId))
  refine sessionless_bind hCreate fun admin s₂ hAdmin _ => ?_
  exact safe_bind (sessionless_generateTokens hAdmin call) fun _ => guarantees_pure _

omit [TokenRuntime] [PasswordRuntime] in
/-- The account with an address, if it has the password. -/
theorem delivers_found (hGone : Gone kind id s) (kind' : AccountKind)
    (sel hasPassword : kind'.entity.Of → Bool)
    (account : kind'.entity.Of → AuthService.ValidatedAccount)
    (hAccount : ∀ r, (account r).id = Row.key r) :
    SessionlessTo kind id (fun found => ∀ user ∈ found, (kind'.role, user.id) ≠ (kind.role, id))
      (findUnique kind'.entity.model sel >>= fun found =>
        pure ((found.filter hasPassword).map account)) s := by
  refine sessionlessTo_bind
    (P := fun found => ∀ r ∈ found, (kind'.role, Row.key r) ≠ (kind.role, id))
    (delivers_read (.refl kind id) fun s' found hs' hOk r hFound => ?_) fun found s' hFound _ => ?_
  · cases hOk
    exact (hGone.keeps hs'.evolve).other kind' (Model.findFirst_some hFound).1
  · refine delivers_pure fun user hUser => ?_
    obtain ⟨r, hr, rfl⟩ := Option.mem_map.mp hUser
    rw [hAccount]
    exact hFound r (Option.mem_filter_iff.mp hr).1

omit [TokenRuntime] in
theorem delivers_validate (hGone : Gone kind id s) (role email pass : String) :
    SessionlessTo kind id (fun found => ∀ user ∈ found, (role, user.id) ≠ (kind.role, id))
      (AuthService.validate role email pass) s := by
  unfold AuthService.validate
  split
  · rename_i hRole
    rw [hRole]
    exact delivers_found hGone .admin _ _ _ fun _ => rfl
  · split
    · rename_i hRole
      rw [hRole]
      exact delivers_found hGone .user _ _ _ fun _ => rfl
    · exact delivers_pure fun _ hNone => nomatch hNone

omit [PasswordRuntime] in
/-- What follows the credentials of a login. -/
theorem sessionless_session {α : Type} (role : String)
    {found : Service (Option AuthService.ValidatedAccount)}
    (hFound : SessionlessTo kind id (fun found => ∀ user ∈ found,
      (role, user.id) ≠ (kind.role, id)) found s) (call : AuthService.RefreshCall)
    (answer : AuthService.ValidatedAccount → AuthService.TokenPair → α) :
    Sessionless kind id (found >>= fun account => AuthService.orInvalid account >>= fun user =>
      AuthService.generateTokens call { id := user.id, email := user.email, role } >>= fun tokens =>
        pure (answer user tokens)) s := by
  refine sessionless_bind hFound fun account s' hAccount _ => ?_
  cases account with
  | none => trivial
  | some user =>
      change Sessionless kind id (AuthService.generateTokens call ⟨user.id, user.email, role⟩ >>=
        fun tokens => pure (answer user tokens)) s'
      exact safe_bind (sessionless_generateTokens (hAccount user rfl) call)
        fun _ => guarantees_pure _

end Operations

/-! ## Requests -/

section Requests

variable [Runtime] [PasswordRuntime] [TokenRuntime] [DecodeRuntime]
  [PassportRuntime] {kind : AccountKind} {id : Id} {s : Server}

/-- A program of the server that adds no session of the account. -/
abbrev SessionlessServer {α : Type} (kind : AccountKind) (id : Id) (p : Prog Server Exn α)
    (s : Server) : Prop :=
  Safe (fun s s' => NoSession kind id s.store s'.store)
    (fun s s' => NoSession kind id s.store s'.store) p s

omit [Runtime] [PasswordRuntime] [TokenRuntime] [DecodeRuntime]
  [PassportRuntime] in
theorem sessionless_operation {α : Type} {p : Service α} (h : Sessionless kind id p s.store) :
    SessionlessServer kind id (operation p) s :=
  safe_within (fun _ _ => rfl) (safe_bind h fun _ => guarantees_pure ())

omit [Runtime] [PassportRuntime] in
theorem AccountOp.sessionless (hGone : Gone kind id s.store) (op : AccountOp) :
    SessionlessServer kind id op.prog s := by
  have hFrame (hSpares : Spares Entity.Reach (· ∈ op.writes) .refreshToken) :
      SessionlessServer kind id op.prog s :=
    (op.confined s).of_any fun _ _ h => .of_frame h hSpares
  cases op with
  | signup input secret call =>
      exact sessionless_operation (sessionless_signup hGone input secret call)
  | login input call =>
      exact sessionless_operation (sessionless_session _ (delivers_validate hGone _ _ _) call _)
  | loginUser input call =>
      exact sessionless_operation (sessionless_session "user"
        (delivers_found hGone .user _ _ _ fun _ => rfl) call fun _ tokens =>
          (⟨tokens.accessToken, tokens.refreshToken, tokens.expiresIn⟩ :
            AuthService.LoginUserResult))
  | refreshTokens refreshToken call =>
      exact sessionless_operation (sessionless_refreshTokens hGone refreshToken call)
  | logout accessToken user call =>
      exact safe_bind (guarantees_logout (fun s => .refl kind id s.store)
        (fun s _ => .refl kind id s.store) accessToken user call
        (fun _ revokedAt updatedAt => .of_revoke _ revokedAt updatedAt) s)
        fun _ => guarantees_pure ()
  | _ => exact hFrame (of_decide_eq_true rfl)

omit [Runtime] [PasswordRuntime] [TokenRuntime] [DecodeRuntime]
  [PassportRuntime] in
/-- No mutation of the project service reaches the sessions. -/
theorem ServiceOp.spares_refreshToken (op : ServiceOp) :
    Spares Entity.Reach (· ∈ op.writes) .refreshToken := by
  cases op <;> exact of_decide_eq_true rfl

/-- A request for an operation that does not reach the sessions. -/
theorem Request.sessionless_frame (r : Request)
    (hSpares : Spares Entity.Reach (· ∈ r.op.writes) .refreshToken) :
    SessionlessServer kind id r.handle s :=
  (r.confined s).of_any fun _ _ h => .of_frame h hSpares

theorem Request.sessionless (hGone : Gone kind id s.store) (r : Request) :
    SessionlessServer kind id r.handle s := by
  obtain ⟨authHeader, transport, op⟩ := r
  cases op with
  | service op => exact Request.sessionless_frame _ op.spares_refreshToken
  | account op =>
      unfold Request.handle
      split
      · trivial
      · exact op.sessionless hGone
      · exact safe_read_bind (fun s => .refl kind id s.store) fun s' user hs' _ =>
          (op.calledBy authHeader user).sessionless (hGone.keeps hs'.evolve)
      · rename_i hGuard
        cases transport <;> cases op <;> exact nomatch hGuard

/-- **A removed account gets no session**: once it is gone, no request starts or renews a session
for it. Every row of the account was there before. -/
theorem removed_account_gets_no_session {ι : Type} [DecidableEq ι] {requests : ι → Request}
    {s' : Server} (hServed : Served requests s s') (hGone : Gone kind id s.store) :
    ∀ r' ∈ s'.store.refreshToken.rows, r'.IsOf kind id →
      ∃ r ∈ s.store.refreshToken.rows, r.id = r'.id ∧ Entity.Evolves .refreshToken r r' := by
  have hNone : NoSession kind id s.store s'.store := hServed.relates (.refl kind id)
    (fun _ _ _ => .trans) fun i => (requests i).sessionless hGone
  intro r' hr' hOf
  refine (hNone.evolve .refreshToken).2 r' hr' (Int.not_le.mp fun hNew => ?_)
  exact hNone.fresh hGone r' hr' hNew hOf

end Requests

section Site

attribute [local instance] asciiRuntime siteTokens plainPassport saltedHashes benDecode

/-- The site without its user. -/
def benRemoved : Server := ⟨eraseUsers (fun r => r.id == 1) site, [], 0⟩

theorem benRemoved_gone : Gone .user 1 benRemoved.store := by
  refine ⟨by decide, fun r hr => ?_⟩
  cases hr

/-- The user tries to log in twice, and the admin whose number is the same logs in. -/
def lateLogins : Nat → Request
  | 0 | 1 => ⟨none, .graphql, .account (.login ⟨"ben@site", "y", none⟩ ⟨"j", 0, 0, 0, 0, 0, 0, 0⟩)⟩
  | _ => ⟨none, .rest, .account (.login ⟨"ada@site", "x", some "admin"⟩ ⟨"k", 0, 0, 0, 0, 0, 0, 0⟩)⟩

def afterLateLogins : Server := serve lateLogins benRemoved [0, 2, 1, 2, 0]

/-- There is a session, but it is the one of the admin. -/
theorem removed_account_gets_no_session_site :
    (∃ r ∈ afterLateLogins.store.refreshToken.rows, r.IsOf .admin 1) ∧
      ∀ r ∈ afterLateLogins.store.refreshToken.rows, ¬ r.IsOf .user 1 := by
  refine ⟨⟨_, List.mem_singleton_self _, rfl⟩, fun r hr hOf => ?_⟩
  obtain ⟨r₀, hr₀, -, -⟩ :=
    removed_account_gets_no_session (served_serve _ _ _) benRemoved_gone r hr hOf
  cases hr₀

end Site

end Rooeel
