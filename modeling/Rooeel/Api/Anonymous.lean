import Rooeel.Api.Privileges

/-!
# Requests without a token

Eight operations are open to everybody: to sign up and to log in, to renew a session, and the ways
back to a forgotten password. `PublicChanges` is what they do together: admins and tokens are added,
passwords of users are replaced. `requests_anonymous` says so for any number of requests that bear
no valid token at all, in any interleaving; what is behind a guard ends there.
-/

namespace Rooeel

open JavaScript Prog Schema TokenRuntime

/-! ## What changes in public -/

def publicTables : List Entity := [.admin, .user, .refreshToken, .passwordResetToken]

def User.withoutPassword (u : User) : User := { u with password := "" }

/-- Accounts stay, but for the passwords of users; admins may join. -/
structure PublicChanges (s s' : Store) : Prop where
  frame : ∀ e, e ∉ publicTables → Store.schema.table e s' = Store.schema.table e s
  admins : ∀ r ∈ s.admin.rows, r ∈ s'.admin.rows
  users : s'.user.rows.map User.withoutPassword = s.user.rows.map User.withoutPassword

namespace PublicChanges

variable {s s' s'' : Store}

theorem refl (s : Store) : PublicChanges s s := ⟨fun _ _ => rfl, fun _ hr => hr, rfl⟩

theorem trans (h : PublicChanges s s') (h' : PublicChanges s' s'') : PublicChanges s s'' where
  frame := fun e he => (h'.frame e he).trans (h.frame e he)
  admins := fun r hr => h'.admins r (h.admins r hr)
  users := h'.users.trans h.users

/-- The footprint of the statements on tokens. -/
def tokenWrites : List (Write Entity) :=
  [.put .refreshToken, .put .passwordResetToken, .erase .passwordResetToken]

/-- What is outside the footprint, as far as it lies outside the accounts. -/
theorem frame_of {writes : List (Write Entity)} (h : Store.schema.Statement (· ∈ writes) s s')
    (hSpares : ∀ e, e ∉ publicTables → Spares Entity.Reach (· ∈ writes) e) (e : Entity)
    (he : e ∉ publicTables) : Store.schema.table e s' = Store.schema.table e s :=
  h.frame Store.cascades (hSpares e he)

theorem of_tokens (h : Store.schema.Statement (· ∈ tokenWrites) s s') : PublicChanges s s' := by
  have hAdmin : s'.admin = s.admin := h.frame (e := .admin) Store.cascades (by decide)
  have hUser : s'.user = s.user := h.frame (e := .user) Store.cascades (by decide)
  refine ⟨frame_of h fun e => by cases e <;> decide, fun r hr => ?_, ?_⟩
  · rwa [hAdmin]
  · rw [hUser]

/-- An admin joins. -/
theorem of_create {mk : Id → Admin} {hmk : ∀ k, Row.key (mk k) = k} {r : Admin}
    (h : prisma.admin.create mk hmk s = .ok (r, s')) : PublicChanges s s' := by
  have hStatement : Store.schema.Statement (· ∈ [Write.put Entity.admin]) s s' :=
    .create (e := Entity.admin) (List.mem_singleton_self _) h
  refine ⟨frame_of hStatement fun e => by cases e <;> decide, ?_, ?_⟩
  · obtain ⟨-, -, rfl⟩ := Model.create_ok h
    exact fun r hr => List.mem_append_left _ hr
  · rw [show s'.user = s.user from hStatement.frame (e := .user) Store.cascades (by decide)]

/-- A password is replaced. -/
theorem of_password {sel : User → Bool} {f : User → User} {hf : ∀ r, Row.key (f r) = Row.key r}
    {r : User} (hPassword : ∀ r, (f r).withoutPassword = r.withoutPassword)
    (h : prisma.user.update sel f hf s = .ok (r, s')) : PublicChanges s s' := by
  have hStatement : Store.schema.Statement (· ∈ [Write.put Entity.user]) s s' := by
    refine .update (e := Entity.user) (List.mem_singleton_self _) ?_ h
    intro x
    have hCreator := congrArg User.createdBy (hPassword x)
    exact Or.inl hCreator
  refine ⟨frame_of hStatement fun e => by cases e <;> decide, ?_, ?_⟩
  · rw [show s'.admin = s.admin from hStatement.frame (e := .admin) Store.cascades (by decide)]
    exact fun r hr => hr
  · obtain ⟨r₀, -, -, -, -, -, rfl⟩ := Model.update_ok h
    change ((s.user.modify (fun x => Row.key x == Row.key r₀) f hf).rows.map _) = _
    rw [Table.rows_modify, List.map_map]
    refine List.map_congr_left fun x _ => ?_
    rw [Function.comp_apply]
    split
    · exact hPassword x
    · rfl

end PublicChanges

/-- Every step of the program changes as much. -/
abbrev Public {α : Type} (p : Service α) : Prop := Guarantees (fun _ _ => True) PublicChanges p

section Rules

variable {α β : Type}

theorem public_read (f : Store → Except Exn α) : Public (Prog.read f : Service α) :=
  guarantees_read PublicChanges.refl f

theorem public_of_tokens {p : Service α} (h : Confined PublicChanges.tokenWrites p) : Public p :=
  fun s => (h s).mono fun _ _ => PublicChanges.of_tokens

theorem public_create {mk : Id → Admin} {hmk : ∀ k, Row.key (mk k) = k} :
    Public (create prisma.admin mk hmk) :=
  guarantees_atomic PublicChanges.refl fun _ _ _ hOk => .of_create (execute_ok hOk)

theorem public_password {sel : User → Bool} {f : User → User} {hf : ∀ r, Row.key (f r) = Row.key r}
    (hPassword : ∀ r, (f r).withoutPassword = r.withoutPassword) :
    Public (update prisma.user sel f hf) :=
  guarantees_atomic PublicChanges.refl fun _ _ _ hOk => .of_password hPassword (execute_ok hOk)

theorem public_redemption [PasswordRuntime] (token : String) (r : Redemption) :
    Public (r.prog token) := by
  rw [Redemption.prog_eq]
  refine guarantees_bind (public_read _) fun found => ?_
  rcases Redemption.afterLookup_cases r token found with ⟨e, hThrow⟩ | ⟨record, -, -, hRedeem⟩
  · rw [hThrow]
    exact guarantees_throw e
  · rw [hRedeem]
    refine guarantees_bind (public_read _) fun user => ?_
    cases user with
    | none => exact guarantees_throw _
    | some user =>
        refine guarantees_bind (public_password fun _ => rfl) fun _ => public_of_tokens ?_
        exact confined_bind (confined_update (e := .passwordResetToken) (by decide)
          fun _ => ⟨rfl, fun _ => rfl⟩) fun _ => confined_pure _

/-- A method of the services, as an operation of the server. -/
def PublicServer (p : Prog Server Exn α) : Prop :=
  Guarantees (fun _ _ => True) (fun s s' => PublicChanges s.store s'.store) p

theorem public_operation {p : Service α} (h : Public p) : PublicServer (operation p) :=
  guarantees_within (fun _ _ => rfl) (guarantees_bind h fun _ => guarantees_pure ())

end Rules

/-! ## The operations that are open to everybody -/

section Requests

variable [PasswordRuntime] [TokenRuntime] [DecodeRuntime]

theorem public_tokenOp {op : AccountOp} (h : op.writes ⊆ PublicChanges.tokenWrites) :
    PublicServer op.prog :=
  fun s => (op.confined s).mono fun _ _ hStatement =>
    .of_tokens (hStatement.mono fun _ hw => h hw)

/-- An operation that has no guard in one of the transports. -/
theorem AccountOp.public (op : AccountOp)
    (hOpen : op.graphql = .unguarded ∨ op.rest = .unguarded) : PublicServer op.prog := by
  cases op with
  | signup input secret call =>
      refine public_operation (guarantees_bind (public_read _) fun _ => ?_)
      refine guarantees_bind (guarantees_throwIf _ _) fun _ => ?_
      refine guarantees_bind public_create fun admin => public_of_tokens ?_
      exact confined_bind (confined_generateTokens (by decide) _ _) fun _ => confined_pure _
  | resetPassword token secret checkedAt usedAt =>
      exact public_operation (public_redemption token
        (.authService ⟨secret, checkedAt, usedAt⟩))
  | redeemReset token secret checkedAt usedAt =>
      exact public_operation (public_redemption token
        (.passwordResetService ⟨secret, checkedAt, usedAt⟩))
  | sendTemporaryPassword =>
      refine public_operation (guarantees_bind (public_read _) fun found => ?_)
      cases found with
      | none => exact guarantees_pure _
      | some user =>
          refine guarantees_bind (public_password fun _ => rfl) fun _ => public_of_tokens ?_
          exact confined_bind (confined_sendPasswordResetEmail _) fun _ => confined_pure _
  | login | refreshTokens | forgotPassword | requestReset =>
      exact public_tokenOp (by simp [writes, PublicChanges.tokenWrites])
  | _ => exact absurd hOpen (by simp [graphql, rest])

variable [Runtime] [PassportRuntime]

/-- A request without a valid token ends at its guard, or is open to everybody. -/
theorem Request.safe_anonymous (r : Request)
    (hAnonymous : ∀ payload, ¬ Bears r.authHeader payload) (s : Server) :
    Safe (fun _ _ => True) (fun s s' => PublicChanges s.store s'.store) r.handle s := by
  unfold Request.handle
  split
  · trivial
  · rename_i hExposure
    obtain ⟨account, hOp, hOpen⟩ := Operation.exposure_unguarded hExposure
    rw [hOp]
    exact account.public hOpen s
  · rename_i handle hExposure
    obtain ⟨message, adminOnly, rfl⟩ := Operation.exposure_strategy hExposure
    refine safe_read_bind (fun s => .refl s.store) fun s' user _ hOk => ?_
    obtain ⟨payload, hBears, -⟩ := bears_of_strategy hOk
    exact absurd hBears (hAnonymous payload)
  · refine safe_permission_bind (fun s => .refl s.store) fun payload hBears => ?_
    exact absurd hBears (hAnonymous payload)

/-- **Without a token** only admins and tokens are added, and passwords of users replaced. -/
theorem requests_anonymous {ι : Type} [DecidableEq ι] {requests : ι → Request} {s s' : Server}
    (hServed : Served requests s s')
    (hAnonymous : ∀ i payload, ¬ Bears (requests i).authHeader payload) :
    PublicChanges s.store s'.store :=
  hServed.relates .refl (fun _ _ _ h h' => h.trans h') fun i =>
    ((requests i).safe_anonymous (hAnonymous i) s).of_rely fun _ _ _ => trivial

end Requests

section Site

attribute [local instance] asciiRuntime siteTokens plainPassport saltedHashes benDecode

/-- Somebody asks for a temporary password of the member, and somebody signs up. -/
def publicRequests : Bool → Request
  | true => ⟨none, .rest, .account (.sendTemporaryPassword "ben@site" ⟨"12345678", "0"⟩
      (.answers none))⟩
  | false => ⟨some "Bearer x", .graphql,
      .account (.signup ⟨"Cy", "Lee", "cy@site"⟩ ⟨"12345678", "1"⟩ ⟨"1", 0, 0, 0, 0, 0, 0, 0⟩)⟩

theorem anonymous_publicRequests (i : Bool) (payload : Payload) :
    ¬ Bears (publicRequests i).authHeader payload := by
  rintro ⟨token, now, hVerify, hToken⟩
  cases i with
  | true => rcases hToken with hToken | ⟨header, hHeader, -⟩ <;> contradiction
  | false =>
      have hX : token = "x" := by
        rcases hToken with hToken | ⟨header, hHeader, hToken⟩
        · exact (Option.some.inj hToken).symm
        · cases hHeader
          exact hToken.symm
      rw [hX] at hVerify
      exact nomatch hVerify

theorem requests_anonymous_site : PublicChanges siteServer.store
    (serve publicRequests siteServer [true, true, false, false, false, true]).store :=
  requests_anonymous (served_serve _ _ _) anonymous_publicRequests

end Site

end Rooeel
