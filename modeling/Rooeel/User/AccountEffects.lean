import Rooeel.User.AccountOps

/-!
# What an operation does to the accounts

`AccountOp.effect` says once which rows of the tables of admins, users and requests a method may
write: every row afterwards is an old row, an old row that the method may change in this way
(`WritesAdmin`, `WritesUser`), or a row that it may create. What holds along runs is read off
from there.
-/

namespace Rooeel

open JavaScript Prog Table

/-! ## Which rows an operation may write -/

/-- The change of the user that an approved request may ask for. -/
inductive RequestService.Applies (request : UserRequest) (r : User) : User → Prop
  | firstName {value : String} (hType : request.requestType = "firstName")
      (hValue : request.requestedValue = some value) :
      Applies request r { r with firstName := value }
  | lastName {value : String} (hType : request.requestType = "lastName")
      (hValue : request.requestedValue = some value) :
      Applies request r { r with lastName := value }
  | email {value : String} (hType : request.requestType = "email")
      (hValue : request.requestedValue = some value) :
      Applies request r { r with email := value }
  | createdBy (hType : request.requestType = "createdBy") :
      Applies request r { r with createdBy := none }

/-- A request of the user that the admin has to decide. -/
structure Addressed (s : Store) (id adminId userId : Id) (request : UserRequest) : Prop where
  mem : request ∈ s.userRequest.rows
  id : request.id = id
  adminId : request.adminId = adminId
  status : request.status = "pending"
  userId : request.userId = userId

namespace AccountOp

section Writes

variable [PasswordRuntime]

/-- The admin that the operation may create. -/
def CreatesAdmin : AccountOp → Admin → Prop
  | .createAdmin input secret, r' | .signup input secret _, r' =>
      ∃ id, r' = AdminService.createData input secret id
  | _, _ => False

/-- The change of an admin that the operation may make. -/
def WritesAdmin : AccountOp → Admin → Admin → Prop
  | .updateAdmin id input salt, r, r' =>
      r.id = id ∧ r' = AdminService.updateData input salt r
  | _, _, _ => False

/-- The user that the operation may create. -/
def CreatesUser : AccountOp → User → Prop
  | .createUser adminId input secret, r' => ∃ id, r' =
      ⟨id, input.firstName, input.lastName, input.email, secret.hash, some adminId⟩
  | _, _ => False

/-- The change of a user that the operation may make. -/
def WritesUser (s : Store) (r r' : User) : AccountOp → Prop
  | .removeAdmin id => s.admin.has id = true ∧
      r' = { r with createdBy := r.createdBy.filter fun k => k != id }
  | .updateUser _ id input salt =>
      r.id = id ∧ r' = UserService.updateData input salt r
  | .resetUserPassword adminId id secret _ => r.id = id ∧ r.createdBy = some adminId ∧
      r' = UserService.passwordData secret.hash r
  | .updateMyProfile userId input => r.id = userId ∧ r' =
      { r with
        firstName := input.firstName.toOption.getD r.firstName
        lastName := input.lastName.toOption.getD r.lastName
        email := input.email.toOption.getD r.email }
  | .changeMyPassword userId _ secret =>
      r.id = userId ∧ r' = UserService.passwordData secret.hash r
  | .resetPassword _ secret _ _ | .redeemReset _ secret _ _ | .sendTemporaryPassword _ secret _ =>
      r' = UserService.passwordData secret.hash r
  | .generatePassword adminId id secret =>
      (∃ request, Addressed s id adminId r.id request) ∧
        r' = UserService.passwordData secret.hash r
  | .approveRequest adminId id =>
      ∃ request, Addressed s id adminId r.id request ∧ RequestService.Applies request r r'
  | _ => False

omit [PasswordRuntime] in
/-- The request that the operation may create. -/
def CreatesRequest (s : Store) (r' : UserRequest) : AccountOp → Prop
  | .createRequest userId dto => r'.userId = userId ∧ r'.requestType = dto.requestType ∧
      ∃ u ∈ s.user.rows, u.id = userId ∧ u.createdBy = some r'.adminId
  | _ => False

omit [PasswordRuntime] in
/-- The requests to an admin go with the admin. -/
def KeepsRequest (s : Store) (r : UserRequest) : AccountOp → Prop
  | .removeAdmin id => s.admin.has id = true → r.adminId ≠ id
  | _ => True

end Writes

end AccountOp

/-- Where the rows of the accounts and of the requests come from. -/
structure AccountEffect [PasswordRuntime] (op : AccountOp) (s s' : Store) : Prop where
  admin : ∀ r' ∈ s'.admin.rows,
    (∃ r ∈ s.admin.rows, r' = r ∨ op.WritesAdmin r r') ∨ op.CreatesAdmin r'
  user : ∀ r' ∈ s'.user.rows,
    (∃ r ∈ s.user.rows, r'.id = r.id ∧ (r' = r ∨ op.WritesUser s r r')) ∨
      s.user.next ≤ r'.id ∧ op.CreatesUser r'
  next : s.user.next ≤ s'.user.next
  request : ∀ r' ∈ s'.userRequest.rows,
    (∃ r ∈ s.userRequest.rows, r' = { r with status := r'.status } ∧ op.KeepsRequest s r) ∨
      op.CreatesRequest s r'

namespace AccountEffect

variable [PasswordRuntime] {op : AccountOp} {s s₁ s' : Store}

/-- Before the first write. An admin that is there is not removed without its requests. -/
theorem none (hKeeps : ∀ r, op.KeepsRequest s r) (h : SameAccounts s s') :
    AccountEffect op s s' where
  admin := fun r hr => Or.inl ⟨r, h.admin ▸ hr, Or.inl rfl⟩
  user := fun r hr => Or.inl ⟨r, h.user ▸ hr, rfl, Or.inl rfl⟩
  next := by rw [h.user]
  request := fun r hr => Or.inl ⟨r, h.userRequest ▸ hr, rfl, hKeeps r⟩

/-- Later statements on other tables do not matter. -/
theorem andThen (h : AccountEffect op s s₁) (hSame : SameAccounts s₁ s') :
    AccountEffect op s s' where
  admin := by rw [hSame.admin]; exact h.admin
  user := by rw [hSame.user]; exact h.user
  next := by rw [hSame.user]; exact h.next
  request := by rw [hSame.userRequest]; exact h.request

/-- The status of a request changes last. -/
theorem setStatus (h : AccountEffect op s s₁) {id : Id} {status : String} {row : UserRequest}
    (hUpdate : prisma.userRequest.update (fun r => r.id == id)
      (fun r => { r with status }) (fun _ => rfl) s₁ = .ok (row, s')) :
    AccountEffect op s s' := by
  obtain ⟨-, -, -, -, -, -, rfl⟩ := Model.update_ok hUpdate
  refine { h with request := ?_ }
  refine forall_modify _ (fun r => { r with status }) (fun _ => rfl) h.request fun r hr _ => ?_
  rcases h.request r hr with ⟨r₀, hr₀, hSame, hKeeps⟩ | hCreates
  · refine Or.inl ⟨r₀, hr₀, ?_, hKeeps⟩
    rw [hSame]
  · refine Or.inr ?_
    cases op with
    | createRequest userId dto => exact hCreates
    | _ => exact hCreates.elim

theorem writeAdmin (hKeeps : ∀ r, op.KeepsRequest s r) {sel : Admin → Bool} {f : Admin → Admin}
    {hf : ∀ r, Row.key (f r) = Row.key r} {row : Admin}
    (hUpdate : prisma.admin.update sel f hf s = .ok (row, s'))
    (hWrites : ∀ r ∈ s.admin.rows, sel r = true → op.WritesAdmin r (f r)) :
    AccountEffect op s s' := by
  obtain ⟨r, hr, hSel, -, -, -, rfl⟩ := Model.update_ok hUpdate
  refine { none hKeeps (SameAccounts.refl s) with admin := ?_ }
  refine forall_modify _ f hf (fun x hx => Or.inl ⟨x, hx, Or.inl rfl⟩) fun x hx hKey => ?_
  obtain rfl : x = r := s.admin.key_inj hx hr (beq_iff_eq.mp hKey)
  exact Or.inl ⟨x, hx, Or.inr (hWrites x hx hSel)⟩

theorem writeUser (hKeeps : ∀ r, op.KeepsRequest s r) {sel : User → Bool} {f : User → User}
    {hf : ∀ r, Row.key (f r) = Row.key r} {row : User}
    (hUpdate : prisma.user.update sel f hf s = .ok (row, s'))
    (hWrites : ∀ r, prisma.user.findFirst sel s = some r → op.WritesUser s r (f r)) :
    AccountEffect op s s' := by
  obtain ⟨r, hr, -, hFind, -, -, rfl⟩ := Model.update_ok hUpdate
  refine { none hKeeps (SameAccounts.refl s) with user := ?_, next := Int.le_refl _ }
  refine forall_modify _ f hf (fun x hx => Or.inl ⟨x, hx, rfl, Or.inl rfl⟩) fun x hx hKey => ?_
  obtain rfl : x = r := s.user.key_inj hx hr (beq_iff_eq.mp hKey)
  exact Or.inl ⟨x, hx, hf x, Or.inr (hWrites x hFind)⟩

theorem newAdmin (hKeeps : ∀ r, op.KeepsRequest s r) {mk : Id → Admin}
    {hmk : ∀ k, Row.key (mk k) = k} {row : Admin}
    (hCreate : prisma.admin.create mk hmk s = .ok (row, s'))
    (hCreates : ∀ k, op.CreatesAdmin (mk k)) : AccountEffect op s s' := by
  obtain ⟨-, -, rfl⟩ := Model.create_ok hCreate
  refine { none hKeeps (SameAccounts.refl s) with admin := ?_ }
  exact forall_insert mk hmk (fun x hx => Or.inl ⟨x, hx, Or.inl rfl⟩) (Or.inr (hCreates _))

theorem newUser (hKeeps : ∀ r, op.KeepsRequest s r) {mk : Id → User}
    {hmk : ∀ k, Row.key (mk k) = k} {row : User}
    (hCreate : prisma.user.create mk hmk s = .ok (row, s'))
    (hCreates : ∀ k, op.CreatesUser (mk k)) : AccountEffect op s s' := by
  obtain ⟨-, -, rfl⟩ := Model.create_ok hCreate
  refine { none hKeeps (SameAccounts.refl s) with user := ?_, next := ?_ }
  · refine forall_insert mk hmk (fun x hx => Or.inl ⟨x, hx, rfl, Or.inl rfl⟩) ?_
    exact Or.inr ⟨Int.le_of_eq (hmk _).symm, hCreates _⟩
  · change s.user.next ≤ s.user.next + 1
    omega

theorem newRequest (hKeeps : ∀ r, op.KeepsRequest s r) {mk : Id → UserRequest}
    {hmk : ∀ k, Row.key (mk k) = k} {row : UserRequest}
    (hCreate : prisma.userRequest.create mk hmk s = .ok (row, s'))
    (hCreates : ∀ k, op.CreatesRequest s (mk k)) : AccountEffect op s s' := by
  obtain ⟨-, -, rfl⟩ := Model.create_ok hCreate
  refine { none hKeeps (SameAccounts.refl s) with request := ?_ }
  exact forall_insert mk hmk (fun x hx => Or.inl ⟨x, hx, rfl, hKeeps x⟩) (Or.inr (hCreates _))

/-- The users of a removed admin have no admin any more. -/
theorem eraseAdmin {id : Id} {admin : Admin} (hMem : admin ∈ s.admin.rows) (hId : admin.id = id) :
    AccountEffect (.removeAdmin id) s (eraseAdmins (fun r => Row.key r == Row.key admin) s) := by
  have hGone (k : Id) :
      (keysOf s.admin fun r => Row.key r == Row.key admin).contains k = (k == id) := by
    rw [Bool.eq_iff_iff, keysOf_contains, beq_iff_eq]
    constructor
    · rintro ⟨r, -, hSame, rfl⟩
      exact (beq_iff_eq.mp hSame).trans hId
    · rintro rfl
      exact ⟨admin, hMem, beq_self_eq_true _, hId⟩
  have hHas : s.admin.has id = true := has_iff.mpr ⟨admin, hMem, hId⟩
  refine ⟨?_, ?_, Int.le_refl _, ?_⟩
  · exact forall_erase _ fun r hr => Or.inl ⟨r, hr, Or.inl rfl⟩
  · intro r' hr'
    obtain ⟨r, hr, rfl⟩ := List.mem_map.mp hr'
    refine Or.inl ⟨r, hr, rfl, Or.inr ⟨hHas, ?_⟩⟩
    have hClear : clearRef (keysOf s.admin fun r => Row.key r == Row.key admin) r.createdBy =
        r.createdBy.filter fun k => k != id := by
      unfold clearRef
      congr 1
      funext k
      rw [hGone]
      rfl
    rw [← hClear]
    rfl
  · intro r hr
    obtain ⟨hOld, hKept⟩ := mem_erase.mp hr
    rw [hGone] at hKept
    exact Or.inl ⟨r, hOld, rfl, fun _ => beq_eq_false_iff_ne.mp hKept⟩

end AccountEffect

/-! ## What the methods do -/

/-- The program writes other tables only. -/
def KeepsAccounts {α : Type} (p : Service α) : Prop :=
  Guarantees (fun _ _ => True) SameAccounts p

theorem keepsAccounts_query {α : Type} (f : Store → α) : KeepsAccounts (query f) :=
  guarantees_read SameAccounts.refl _

theorem keepsAccounts_execute {α : Type} {f : Store → Except DbError (α × Store)}
    (h : ∀ s a s', f s = .ok (a, s') → SameAccounts s s') : KeepsAccounts (execute f) :=
  guarantees_atomic SameAccounts.refl fun s a s' hOk => h s a s' (execute_ok hOk)

section Tokens

variable [TokenRuntime]

theorem keepsAccounts_generateTokens (call : AuthService.RefreshCall)
    (user : AuthService.TokenUser) : KeepsAccounts (AuthService.generateTokens call user) := by
  rw [AuthService.generateTokens_eq]
  split
  · exact guarantees_throw _
  · refine guarantees_bind (keepsAccounts_execute fun s _ s' hOk => ?_) fun _ => guarantees_pure _
    obtain ⟨-, -, rfl⟩ := Model.create_ok hOk
    exact ⟨rfl, rfl, rfl⟩

theorem keepsAccounts_refreshTokens (refreshToken : String) (call : AuthService.RefreshCall) :
    KeepsAccounts (AuthService.refreshTokens refreshToken call) := by
  have hAccount (userType : String) (sub : Id) :
      KeepsAccounts (AuthService.findAccount userType sub) := by
    unfold AuthService.findAccount
    split
    · exact keepsAccounts_query _
    · exact keepsAccounts_query _
  have hUse (sub : Id) (found : Option RefreshToken) :
      KeepsAccounts (AuthService.useStoredToken call sub found) := by
    rcases AuthService.useStoredToken_cases call sub found with
      ⟨e, hThrow⟩ | ⟨r, -, -, hRevoke⟩
    · rw [hThrow]
      exact guarantees_throw e
    · rw [hRevoke]
      refine guarantees_bind (keepsAccounts_execute fun s _ s' hOk => ?_) fun _ =>
        guarantees_bind (hAccount _ _) fun found => ?_
      · obtain ⟨-, -, -, -, -, -, rfl⟩ := Model.update_ok hOk
        exact ⟨rfl, rfl, rfl⟩
      · cases found with
        | none => exact guarantees_throw _
        | some out => exact guarantees_pure _
  have hError (e : Exn) : KeepsAccounts (AuthService.onError e) := by
    obtain ⟨e', hThrow⟩ := AuthService.onError_throw e
    rw [hThrow]
    exact guarantees_throw e'
  refine guarantees_bind (guarantees_tryCatch ?_ hError) fun user =>
    keepsAccounts_generateTokens call user
  cases TokenRuntime.verify refreshToken call.verifiedAt with
  | none => exact guarantees_throw _
  | some payload =>
      refine guarantees_bind (guarantees_throwIf _ _) fun _ => ?_
      exact guarantees_bind (keepsAccounts_query _) fun found => hUse payload.sub found

/-- What follows the credentials of a login. -/
theorem keepsAccounts_session {α : Type} (found : Option AuthService.ValidatedAccount)
    (call : AuthService.RefreshCall) (role : String)
    (answer : AuthService.ValidatedAccount → AuthService.TokenPair → α) :
    KeepsAccounts (AuthService.orInvalid found >>= fun user =>
      AuthService.generateTokens call { id := user.id, email := user.email, role } >>= fun tokens =>
        pure (answer user tokens)) := by
  cases found with
  | none => exact guarantees_throw _
  | some user =>
      exact guarantees_bind (guarantees_pure user) fun _ =>
        guarantees_bind (keepsAccounts_generateTokens call _) fun _ => guarantees_pure _

variable [PasswordRuntime]

omit [TokenRuntime] in
theorem keepsAccounts_validateUser (email pass : String) :
    KeepsAccounts (AuthService.validateUser email pass) :=
  guarantees_bind (keepsAccounts_query _) fun _ => guarantees_pure _

theorem keepsAccounts_login (input : LoginInput) (call : AuthService.RefreshCall) :
    KeepsAccounts (AuthService.login input call) := by
  have hValidate (role : String) :
      KeepsAccounts (AuthService.validate role input.email input.password) := by
    unfold AuthService.validate
    split
    · exact guarantees_bind (keepsAccounts_query _) fun _ => guarantees_pure _
    · split
      · exact keepsAccounts_validateUser _ _
      · exact guarantees_pure _
  exact guarantees_bind (hValidate _) fun found => keepsAccounts_session found call _ _

theorem keepsAccounts_loginUser (input : LoginInput) (call : AuthService.RefreshCall) :
    KeepsAccounts (AuthService.loginUser input call) :=
  guarantees_bind (keepsAccounts_validateUser _ _) fun found =>
    keepsAccounts_session found call "user" fun _ tokens =>
      (⟨tokens.accessToken, tokens.refreshToken, tokens.expiresIn⟩ : AuthService.LoginUserResult)

end Tokens

theorem keepsAccounts_issue (email message : String) (call : IssueCall) :
    KeepsAccounts (issueToken email message call) := by
  refine guarantees_bind (keepsAccounts_execute fun s _ s' hOk => ?_) fun _ =>
    guarantees_bind (guarantees_sendPasswordResetEmail _) fun _ => guarantees_pure _
  obtain ⟨-, -, rfl⟩ := Model.create_ok hOk
  exact ⟨rfl, rfl, rfl⟩

theorem keepsAccounts_deleteTokens (sel : PasswordResetToken → Bool) :
    KeepsAccounts (deleteTokens sel) := by
  refine keepsAccounts_execute fun s _ s' hOk => ?_
  cases hOk
  exact ⟨rfl, rfl, rfl⟩

theorem keepsAccounts_forgotPassword (email : String) (call : IssueCall) :
    KeepsAccounts (AuthService.forgotPassword email call) := by
  refine guarantees_bind (keepsAccounts_query _) fun found => ?_
  cases found with
  | none => exact guarantees_pure _
  | some user =>
      exact guarantees_bind (keepsAccounts_deleteTokens _) fun _ => keepsAccounts_issue email _ call

theorem keepsAccounts_requestReset (email : String) (call : IssueCall) :
    KeepsAccounts (PasswordResetService.requestReset email call) := by
  refine guarantees_bind (keepsAccounts_query _) fun found => ?_
  cases found with
  | none => exact guarantees_pure _
  | some user =>
      exact guarantees_bind (keepsAccounts_deleteTokens _) fun _ =>
        guarantees_bind (keepsAccounts_deleteTokens _) fun _ => keepsAccounts_issue email _ call

/-- The user that most methods look up first. -/
theorem leaves_requireUser {α : Type} {P : Store → Prop} {s : Store} {id : Id}
    {k : User → Service α} (hStop : P s)
    (h : ∀ user, prisma.user.findFirst (fun r => r.id == id) s = some user → Leaves P (k user) s) :
    Leaves P (UserService.requireUser id >>= k) s := by
  unfold UserService.requireUser UserService.findOne
  rw [Prog.bind_assoc]
  refine leaves_query ?_
  cases hFind : prisma.user.findFirst (fun r => r.id == id) s with
  | none => exact leaves_throw hStop
  | some user => exact h user hFind

namespace AccountOp

variable [PasswordRuntime] {s : Store}

/-! ### Admins -/

theorem createAdmin_effect (input : SignupInput) (secret : Secret) :
    Leaves (AccountEffect (.createAdmin input secret) s)
      (AdminService.create input secret) s :=
  leaves_execute (.none (fun _ => trivial) (.refl s)) fun _ _ hOk =>
    .newAdmin (fun _ => trivial) hOk fun k => ⟨k, rfl⟩

theorem updateAdmin_effect (id : Id) (input : UpdateAdminInput) (salt : String) :
    Leaves (AccountEffect (.updateAdmin id input salt) s)
      (AdminService.update id input salt) s := by
  have hStop : AccountEffect (.updateAdmin id input salt) s s := .none (fun _ => trivial) (.refl s)
  refine leaves_query (leaves_throwIf hStop fun _ => leaves_throwIf hStop fun _ => ?_)
  exact leaves_execute hStop fun _ _ hOk =>
    .writeAdmin (fun _ => trivial) hOk fun r _ hSel => ⟨beq_iff_eq.mp hSel, rfl⟩

theorem removeAdmin_effect (id : Id) :
    Leaves (AccountEffect (.removeAdmin id) s) (Rooeel.removeAdmin id) s := by
  have hStop (hGone : s.admin.has id = false) : AccountEffect (.removeAdmin id) s s :=
    .none (fun _ hHas => absurd hHas (Bool.eq_false_iff.mp hGone)) (.refl s)
  refine leaves_query ?_
  cases hFind : prisma.admin.findFirst (fun r => r.id == id) s with
  | none =>
      have hGone : s.admin.has id = false := by
        refine Bool.eq_false_iff.mpr fun hHas => ?_
        obtain ⟨r, hr, hKey⟩ := has_iff.mp hHas
        exact List.find?_eq_none.mp hFind r hr (beq_iff_eq.mpr hKey)
      exact leaves_throwIf (hStop hGone) fun hNone => absurd rfl hNone
  | some admin =>
      obtain ⟨hMem, hKey⟩ := Model.findFirst_some hFind
      have hHas : s.admin.has id = true := has_iff.mpr ⟨admin, hMem, beq_iff_eq.mp hKey⟩
      have hDelete : prisma.admin.delete (fun r => r.id == id) s =
          .ok (admin, eraseAdmins (fun r => Row.key r == Row.key admin) s) := by
        simp only [Model.delete, hFind]
        rfl
      refine leaves_iff.mpr ?_
      change AccountEffect (.removeAdmin id) s
        ((execute (prisma.admin.delete fun r => r.id == id) >>= fun _ => pure ()).run s).2
      rw [Prog.run_bind_ok (execute_run hDelete)]
      exact .eraseAdmin hMem (beq_iff_eq.mp hKey)

theorem signup_effect [TokenRuntime] (input : SignupInput) (secret : Secret)
    (call : AuthService.RefreshCall) :
    Leaves (AccountEffect (.signup input secret call) s)
      (AuthService.signup input secret call) s := by
  have hStop : AccountEffect (.signup input secret call) s s := .none (fun _ => trivial) (.refl s)
  refine leaves_query (leaves_throwIf hStop fun _ => ?_)
  refine leaves_execute_bind hStop fun admin s' hOk => ?_
  have hNew : AccountEffect (.signup input secret call) s s' :=
    .newAdmin (fun _ => trivial) hOk fun k => ⟨k, rfl⟩
  have hTokens : KeepsAccounts (AuthService.generateTokens call
      { id := admin.id, email := admin.email, role := "admin" }) :=
    keepsAccounts_generateTokens call _
  exact leaves_guarantees (guarantees_bind hTokens fun _ => guarantees_pure _)
    (fun _ _ hSame h => h.andThen hSame) hNew

/-! ### Users -/

theorem createUser_effect (adminId : Id) (input : CreateUserInput) (secret : Secret) :
    Leaves (AccountEffect (.createUser adminId input secret) s)
      (UserService.create input secret adminId) s := by
  have hStop : AccountEffect (.createUser adminId input secret) s s :=
    .none (fun _ => trivial) (.refl s)
  refine leaves_query (leaves_throwIf hStop fun _ => ?_)
  exact leaves_execute hStop fun _ _ hOk => .newUser (fun _ => trivial) hOk fun k => ⟨k, rfl⟩

theorem updateUser_effect (adminId id : Id) (input : UpdateUserInput) (salt : String) :
    Leaves (AccountEffect (.updateUser adminId id input salt) s)
      (UserService.update id input salt) s := by
  have hStop : AccountEffect (.updateUser adminId id input salt) s s :=
    .none (fun _ => trivial) (.refl s)
  refine leaves_requireUser hStop fun _ _ => leaves_throwIf hStop fun _ => ?_
  exact leaves_execute hStop fun _ _ hOk =>
    .writeUser (fun _ => trivial) hOk fun r hFind =>
      ⟨beq_iff_eq.mp (Model.findFirst_some hFind).2, rfl⟩

theorem removeUser_effect (id : Id) :
    Leaves (AccountEffect (.removeUser id) s) (Rooeel.removeUser id) s := by
  have hStop : AccountEffect (.removeUser id) s s := .none (fun _ => trivial) (.refl s)
  refine leaves_query (leaves_throwIf hStop fun _ => leaves_execute hStop fun _ s' hOk => ?_)
  obtain ⟨-, -, rfl⟩ := Model.delete_ok hOk
  refine { hStop with user := ?_, request := ?_ }
  · exact forall_erase _ fun r hr => Or.inl ⟨r, hr, rfl, Or.inl rfl⟩
  · exact forall_erase _ fun r hr => Or.inl ⟨r, hr, rfl, trivial⟩

theorem resetUserPassword_effect (adminId id : Id) (secret : Secret) (outcome : ProviderOutcome) :
    Leaves (AccountEffect (.resetUserPassword adminId id secret outcome) s)
      (UserService.resetPassword id adminId secret outcome) s := by
  have hStop : AccountEffect (.resetUserPassword adminId id secret outcome) s s :=
    .none (fun _ => trivial) (.refl s)
  refine leaves_requireUser hStop fun user hUser => leaves_throwIf hStop fun hOwner => ?_
  refine leaves_execute_bind hStop fun _ s' hOk => ?_
  have hWritten : AccountEffect (.resetUserPassword adminId id secret outcome) s s' := by
    refine .writeUser (fun _ => trivial) hOk fun r hFind => ?_
    obtain rfl := Option.some.inj (hUser.symm.trans hFind)
    exact ⟨beq_iff_eq.mp (Model.findFirst_some hFind).2, not_not.mp hOwner, rfl⟩
  exact leaves_guarantees
    (guarantees_bind (guarantees_sendPasswordResetEmail _) fun _ => guarantees_pure _)
    (fun _ _ hSame h => h.andThen hSame) hWritten

theorem updateMyProfile_effect (userId : Id) (input : UpdateUserInput) :
    Leaves (AccountEffect (.updateMyProfile userId input) s)
      (UserService.updateMyProfile userId input) s := by
  have hStop : AccountEffect (.updateMyProfile userId input) s s :=
    .none (fun _ => trivial) (.refl s)
  refine leaves_requireUser hStop fun user hUser => ?_
  have hWrite : Leaves (AccountEffect (.updateMyProfile userId input) s)
      (Rooeel.update prisma.user (fun r => r.id == userId) fun r =>
        { r with
          firstName := input.firstName.toOption.getD user.firstName
          lastName := input.lastName.toOption.getD user.lastName
          email := input.email.toOption.getD user.email }) s := by
    refine leaves_execute hStop fun _ _ hOk => .writeUser (fun _ => trivial) hOk fun r hFind => ?_
    obtain rfl := Option.some.inj (hUser.symm.trans hFind)
    exact ⟨beq_iff_eq.mp (Model.findFirst_some hFind).2, rfl⟩
  cases UserService.newEmail input user with
  | none => exact hWrite
  | some email =>
      unfold UserService.requireFree
      rw [Prog.bind_assoc]
      exact leaves_query (leaves_throwIf hStop fun _ => hWrite)

theorem changeMyPassword_effect (userId : Id) (currentPassword : String) (secret : Secret) :
    Leaves (AccountEffect (.changeMyPassword userId currentPassword secret) s)
      (UserService.changeMyPassword userId currentPassword secret) s := by
  have hStop : AccountEffect (.changeMyPassword userId currentPassword secret) s s :=
    .none (fun _ => trivial) (.refl s)
  refine leaves_requireUser hStop fun _ _ => leaves_throwIf hStop fun _ => ?_
  refine leaves_execute_bind hStop fun _ _ hOk => leaves_pure ?_
  exact .writeUser (fun _ => trivial) hOk fun r hFind =>
    ⟨beq_iff_eq.mp (Model.findFirst_some hFind).2, rfl⟩

theorem sendTemporaryPassword_effect (email : String) (secret : Secret)
    (outcome : ProviderOutcome) :
    Leaves (AccountEffect (.sendTemporaryPassword email secret outcome) s)
      (RequestService.forgotPassword email secret outcome) s := by
  have hStop : AccountEffect (.sendTemporaryPassword email secret outcome) s s :=
    .none (fun _ => trivial) (.refl s)
  refine leaves_query ?_
  cases prisma.user.findFirst (fun r => r.email == email) s with
  | none => exact leaves_pure hStop
  | some user =>
      refine leaves_execute_bind hStop fun _ s' hOk => ?_
      have hWritten : AccountEffect (.sendTemporaryPassword email secret outcome) s s' :=
        .writeUser (fun _ => trivial) hOk fun _ _ => rfl
      exact leaves_guarantees
        (guarantees_bind (guarantees_sendPasswordResetEmail _) fun _ => guarantees_pure _)
        (fun _ _ hSame h => h.andThen hSame) hWritten

/-! ### Reset tokens -/

/-- Redeeming a token, by a method that may write the password. -/
theorem redemption_effect (op : AccountOp) (hKeeps : ∀ r, op.KeepsRequest s r) (token : String)
    (r : Redemption)
    (hWrites : ∀ u, op.WritesUser s u { u with password := r.call.secret.hash }) :
    Leaves (AccountEffect op s) (r.prog token) s := by
  have hStop : AccountEffect op s s := .none hKeeps (.refl s)
  rw [Redemption.prog_eq]
  refine leaves_query ?_
  rcases Redemption.afterLookup_cases r token
      (Redemption.tokenOf token s.passwordResetToken) with ⟨e, hThrow⟩ | ⟨record, -, -, hRedeem⟩
  · rw [hThrow]
    exact leaves_throw hStop
  · rw [hRedeem]
    refine leaves_query ?_
    cases prisma.user.findFirst (fun u => u.email == record.email) s with
    | none => exact leaves_throw hStop
    | some user =>
        refine leaves_execute_bind hStop fun _ s' hOk => ?_
        have hWritten : AccountEffect op s s' := .writeUser hKeeps hOk fun u _ => hWrites u
        refine leaves_execute_bind hWritten fun _ _ hMark => leaves_pure ?_
        obtain ⟨-, -, -, -, -, -, rfl⟩ := Model.update_ok hMark
        exact hWritten.andThen ⟨rfl, rfl, rfl⟩

/-! ### Requests -/

theorem createRequest_effect (userId : Id) (dto : CreateRequestDto) :
    Leaves (AccountEffect (.createRequest userId dto) s)
      (RequestService.createRequest userId dto) s := by
  have hStop : AccountEffect (.createRequest userId dto) s s := .none (fun _ => trivial) (.refl s)
  refine leaves_requireUser hStop fun user hUser => ?_
  refine leaves_throwIf hStop fun hAdmin => leaves_throwIf hStop fun _ => ?_
  refine leaves_throwIf hStop fun _ => leaves_execute hStop fun _ _ hOk => ?_
  obtain ⟨hMem, hKey⟩ := Model.findFirst_some hUser
  refine .newRequest (fun _ => trivial) hOk fun k =>
    ⟨rfl, rfl, user, hMem, beq_iff_eq.mp hKey, ?_⟩
  cases hCreatedBy : user.createdBy with
  | none => exact absurd (by rw [hCreatedBy]; rfl) hAdmin
  | some adminId => rfl

omit [PasswordRuntime] in
/-- The request that an admin decides, or the exception of the checks. -/
theorem leaves_requirePending {α : Type} {P : Store → Prop} {id adminId : Id} {refusal : String}
    {k : UserRequest → Service α} (hStop : P s)
    (h : ∀ request, Addressed s id adminId request.userId request → Leaves P (k request) s) :
    Leaves P (RequestService.findOne id >>= fun found =>
      RequestService.requirePending id adminId refusal found >>= k) s := by
  refine leaves_query ?_
  rcases RequestService.requirePending_cases id adminId refusal
    (prisma.userRequest.findFirst (fun r => r.id == id) s) with
    ⟨e, hThrow, -⟩ | ⟨request, hFind, hAdmin, hStatus, hPass⟩
  · rw [hThrow]
    exact leaves_throw hStop
  · obtain ⟨hMem, hId⟩ := Model.findFirst_some hFind
    rw [hPass]
    exact h request ⟨hMem, beq_iff_eq.mp hId, hAdmin, hStatus, rfl⟩

theorem generatePassword_effect (adminId id : Id) (secret : Secret) :
    Leaves (AccountEffect (.generatePassword adminId id secret) s)
      (RequestService.generatePassword id adminId secret) s := by
  have hStop : AccountEffect (.generatePassword adminId id secret) s s :=
    .none (fun _ => trivial) (.refl s)
  refine leaves_requirePending hStop fun request hRequest => leaves_throwIf hStop fun _ => ?_
  refine leaves_execute_bind hStop fun _ s' hOk => ?_
  have hWritten : AccountEffect (.generatePassword adminId id secret) s s' := by
    refine .writeUser (fun _ => trivial) hOk fun r hFind => ⟨⟨request, ?_⟩, rfl⟩
    rw [beq_iff_eq.mp (Model.findFirst_some hFind).2]
    exact hRequest
  exact leaves_execute_bind hWritten fun _ _ hStatus => leaves_pure (hWritten.setStatus hStatus)

omit [PasswordRuntime] in
/-- The request is not for a password, so the column that is written is another one. -/
theorem applies_requestedChange {request : UserRequest}
    (hType : request.requestType ∉ RequestService.passwordRequestTypes) {f : User → User}
    (hChange : RequestService.requestedChange request = some f) (r : User) :
    RequestService.Applies request r (f r) := by
  unfold RequestService.requestedChange at hChange
  cases hValue : request.requestedValue with
  | none =>
      simp only [hValue] at hChange
      split_ifs at hChange with hCreatedBy
      rw [← Option.some.inj hChange]
      exact .createdBy hCreatedBy
  | some value =>
      simp only [hValue] at hChange
      split_ifs at hChange with hFirst hLast hEmail hPassword
      · rw [← Option.some.inj hChange]
        exact .firstName hFirst hValue
      · rw [← Option.some.inj hChange]
        exact .lastName hLast hValue
      · rw [← Option.some.inj hChange]
        exact .email hEmail hValue
      · rw [hPassword] at hType
        exact absurd List.mem_cons_self hType

theorem approveRequest_effect (adminId id : Id) :
    Leaves (AccountEffect (.approveRequest adminId id) s)
      (RequestService.approveRequest id adminId) s := by
  have hStop : AccountEffect (.approveRequest adminId id) s s := .none (fun _ => trivial) (.refl s)
  refine leaves_requirePending hStop fun request hRequest => leaves_throwIf hStop fun hType => ?_
  rcases RequestService.updateRequestedColumn_cases request with
    ⟨-, e, hThrow⟩ | ⟨f, hf, hChange, hUpdate⟩
  · rw [hThrow]
    exact leaves_throw hStop
  · rw [hUpdate]
    refine leaves_execute_bind hStop fun _ s' hOk => ?_
    have hWritten : AccountEffect (.approveRequest adminId id) s s' := by
      refine .writeUser (fun _ => trivial) hOk fun r hFind => ⟨request, ?_, ?_⟩
      · rw [beq_iff_eq.mp (Model.findFirst_some hFind).2]
        exact hRequest
      · exact applies_requestedChange hType hChange r
    exact leaves_execute hWritten fun _ _ hStatus => hWritten.setStatus hStatus

theorem rejectRequest_effect (adminId id : Id) :
    Leaves (AccountEffect (.rejectRequest adminId id) s)
      (RequestService.rejectRequest id adminId) s := by
  have hStop : AccountEffect (.rejectRequest adminId id) s s := .none (fun _ => trivial) (.refl s)
  exact leaves_requirePending hStop fun _ _ =>
    leaves_execute hStop fun _ _ hStatus => hStop.setStatus hStatus

/-! ### Every operation -/

variable [TokenRuntime] [DecodeRuntime]

omit [TokenRuntime] [DecodeRuntime] in
theorem operation_effect {op : AccountOp} {α : Type} {p : Service α} {server : Server}
    (h : Leaves (AccountEffect op server.store) p server.store) :
    AccountEffect op server.store ((operation p).run server).2.store := by
  have hEnd : Leaves (AccountEffect op server.store) (p >>= fun _ => pure ()) server.store :=
    leaves_bind h (fun _ _ h => leaves_pure h) fun _ h => h
  have hRun : ((operation p).run server).2.store =
      ((p >>= fun _ => pure ()).run server.store).2 :=
    (within_run (fun _ _ => rfl) (p >>= fun _ => pure ()) server).2
  rw [hRun]
  exact leaves_iff.mp hEnd

omit [TokenRuntime] [DecodeRuntime] in
/-- An operation on other tables. -/
theorem keeps_effect (op : AccountOp) (hKeeps : ∀ s r, op.KeepsRequest s r) {α : Type}
    {p : Service α} (hp : KeepsAccounts p) (server : Server) :
    AccountEffect op server.store ((operation p).run server).2.store :=
  operation_effect (leaves_guarantees hp (fun _ _ hSame h => h.andThen hSame)
    (.none (hKeeps _) (.refl _)))

omit [PasswordRuntime] [TokenRuntime] in
theorem logout_effect (accessToken : String) (user : RequestUser) (call : LogoutCall)
    (server : Server) :
    SameAccounts server.store ((Rooeel.logout accessToken user call).run server).2.store := by
  unfold Rooeel.logout
  cases blacklistTtl accessToken user call.now with
  | none =>
      dsimp only
      split_ifs <;> exact ⟨rfl, rfl, rfl⟩
  | some ttl =>
      dsimp only
      split_ifs <;> exact ⟨rfl, rfl, rfl⟩

/-- **What an operation does to the accounts and the requests.** -/
theorem effect (op : AccountOp) (server : Server) :
    AccountEffect op server.store (op.prog.run server).2.store := by
  cases op with
  | createAdmin input secret => exact operation_effect (createAdmin_effect input secret)
  | updateAdmin id input salt => exact operation_effect (updateAdmin_effect id input salt)
  | removeAdmin id => exact operation_effect (removeAdmin_effect id)
  | createUser adminId input secret =>
      exact operation_effect (createUser_effect adminId input secret)
  | updateUser adminId id input salt =>
      exact operation_effect (updateUser_effect adminId id input salt)
  | removeUser id => exact operation_effect (removeUser_effect id)
  | resetUserPassword adminId id secret outcome =>
      exact operation_effect (resetUserPassword_effect adminId id secret outcome)
  | updateMyProfile userId input => exact operation_effect (updateMyProfile_effect userId input)
  | changeMyPassword userId currentPassword secret =>
      exact operation_effect (changeMyPassword_effect userId currentPassword secret)
  | signup input secret call => exact operation_effect (signup_effect input secret call)
  | login input call =>
      exact keeps_effect (.login input call) (fun _ _ => trivial) (keepsAccounts_login input call) _
  | loginUser input call =>
      exact keeps_effect (.loginUser input call) (fun _ _ => trivial)
        (keepsAccounts_loginUser input call) _
  | refreshTokens refreshToken call =>
      exact keeps_effect (.refreshTokens refreshToken call) (fun _ _ => trivial)
        (keepsAccounts_refreshTokens refreshToken call) _
  | logout accessToken user call =>
      have hSame := logout_effect accessToken user call server
      refine .none (fun _ => trivial) ?_
      change SameAccounts server.store
        ((Rooeel.logout accessToken user call >>= fun _ => pure ()).run server).2.store
      rw [Prog.run_bind]
      generalize (Rooeel.logout accessToken user call).run server = out at hSame
      obtain ⟨result, server'⟩ := out
      cases result with
      | ok message => exact hSame
      | error e => exact hSame
  | forgotPassword email call =>
      exact keeps_effect (.forgotPassword email call) (fun _ _ => trivial)
        (keepsAccounts_forgotPassword email call) _
  | requestReset email call =>
      exact keeps_effect (.requestReset email call) (fun _ _ => trivial)
        (keepsAccounts_requestReset email call) _
  | resetPassword token secret checkedAt usedAt =>
      exact operation_effect (redemption_effect (.resetPassword token secret checkedAt usedAt)
        (fun _ => trivial) token (.authService ⟨secret, checkedAt, usedAt⟩) fun _ => rfl)
  | redeemReset token secret checkedAt usedAt =>
      exact operation_effect (redemption_effect (.redeemReset token secret checkedAt usedAt)
        (fun _ => trivial) token (.passwordResetService ⟨secret, checkedAt, usedAt⟩)
        fun _ => rfl)
  | createRequest userId dto => exact operation_effect (createRequest_effect userId dto)
  | sendTemporaryPassword email secret outcome =>
      exact operation_effect (sendTemporaryPassword_effect email secret outcome)
  | generatePassword adminId id secret =>
      exact operation_effect (generatePassword_effect adminId id secret)
  | approveRequest adminId id => exact operation_effect (approveRequest_effect adminId id)
  | rejectRequest adminId id => exact operation_effect (rejectRequest_effect adminId id)

end AccountOp

/-- What the operations keep that are allowed in a run, the run keeps. -/
theorem AccountTransition.invariant [PasswordRuntime] [TokenRuntime] [DecodeRuntime]
    {allowed : Store → AccountOp → Prop} {I : Store → Prop} {start s : Server}
    (hSame : ∀ s s', SameAccounts s s' → I s → I s')
    (hEffect : ∀ op s s', allowed s op → AccountEffect op s s' → I s → I s')
    (hStart : I start.store)
    (hRun : Relation.ReflTransGen (AccountTransition allowed) start s) : I s.store := by
  induction hRun with
  | refl => exact hStart
  | tail _ hStep ih =>
      cases hStep with
      | call op hAllowed => exact hEffect op _ _ hAllowed (op.effect _) ih
      | other hElse => exact hSame _ _ hElse ih

end Rooeel
