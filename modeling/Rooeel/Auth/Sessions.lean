import Rooeel.Lib.History
import Rooeel.Auth.Login
import Rooeel.Auth.Logout

/-!
# Sessions

The calls of `signup`, `login`, `loginUser`, `refreshTokens` and `logout`. The columns of a
refresh token that are written once are its `Session`. A call that returns tokens commits with
the row of its refresh token; before, it has looked up or created the account, or looked up the
row of the token that it was given (`SessionCall.Explains`).
-/

namespace Rooeel

open JavaScript TokenRuntime Prog

/-! ## The calls -/

inductive SessionCall where
  | signup (input : SignupInput) (secret : Secret) (call : AuthService.RefreshCall)
  | login (input : LoginInput) (call : AuthService.RefreshCall)
  | loginUser (input : LoginInput) (call : AuthService.RefreshCall)
  | refreshTokens (refreshToken : String) (call : AuthService.RefreshCall)
  | logout (accessToken : String) (user : RequestUser) (call : LogoutCall)

inductive SessionAnswer where
  | signup (result : AuthService.SignupResult)
  | login (result : AuthService.LoginResult)
  | loginUser (result : AuthService.LoginUserResult)
  | refreshTokens (pair : AuthService.TokenPair)
  | logout (message : String)

structure IssuedTokens where
  accessToken : String
  refreshToken : String

/-- The tokens in an answer. -/
def SessionAnswer.issued : SessionAnswer → Option IssuedTokens
  | .signup r => some ⟨r.accessToken, r.refreshToken⟩
  | .login r => some ⟨r.accessToken, r.refreshToken⟩
  | .loginUser r => some ⟨r.accessToken, r.refreshToken⟩
  | .refreshTokens r => some ⟨r.accessToken, r.refreshToken⟩
  | .logout _ => none

/-- A service method, as a program of the server. -/
def onStore {α : Type} (p : Service α) : Prog Server Exn α :=
  p.within Server.store fun store s => { s with store }

def SessionCall.prog [TokenRuntime] [PasswordRuntime] [DecodeRuntime] :
    SessionCall → Prog Server Exn SessionAnswer
  | .signup input secret call =>
      onStore (AuthService.signup input secret call >>= fun r => pure (.signup r))
  | .login input call => onStore (AuthService.login input call >>= fun r => pure (.login r))
  | .loginUser input call =>
      onStore (AuthService.loginUser input call >>= fun r => pure (.loginUser r))
  | .refreshTokens refreshToken call =>
      onStore (AuthService.refreshTokens refreshToken call >>= fun r => pure (.refreshTokens r))
  | .logout accessToken user call =>
      Rooeel.logout accessToken user call >>= fun message => pure (.logout message)

/-! ## Who is authenticated -/

/-- The pair that a token carries. -/
@[ext]
structure Subject where
  sub : Id
  role : String

/-- The token was signed for the pair. -/
def Carries [TokenRuntime] (token : String) (subject : Subject) : Prop :=
  ∃ payload expiresIn signedAt, token = sign payload expiresIn signedAt ∧
    payload.sub = subject.sub ∧ payload.role = subject.role

/-- An account of the role has the address and the password. -/
def HasCredentials [PasswordRuntime] (role email pass : String) (subject : Subject) (s : Store) :
    Prop :=
  (role = "admin" ∧ subject.role = "admin" ∧ ∃ r ∈ s.admin.rows, r.email = email ∧
      PasswordRuntime.compare pass r.password = true ∧ subject.sub = r.id) ∨
    (role = "user" ∧ subject.role = "user" ∧ ∃ r ∈ s.user.rows, r.email = email ∧
      PasswordRuntime.compare pass r.password = true ∧ subject.sub = r.id)

/-- With the step a signup creates its admin, or a login finds an account with its password. -/
def SessionCall.Authenticates [PasswordRuntime] (call : SessionCall) (subject : Subject)
    (step : Store × Store) : Prop :=
  match call with
  | .signup input secret _ => ∃ admin, prisma.admin.create
      (AdminService.createData input secret) (fun _ => rfl) step.1 = .ok (admin, step.2) ∧
        subject = ⟨admin.id, "admin"⟩
  | .login input _ =>
      HasCredentials (AuthService.loginRole input) input.email input.password subject step.1
  | .loginUser input _ => HasCredentials "user" input.email input.password subject step.1
  | .refreshTokens _ _ | .logout _ _ _ => False

/-- With the step the row of the presented token is found. The id is that of the token, the
role that of the row. -/
def SessionCall.Presents [TokenRuntime] (call : SessionCall) (subject : Subject)
    (step : Store × Store) : Prop :=
  match call with
  | .refreshTokens refreshToken call => ∃ payload r,
      verify refreshToken call.verifiedAt = some payload ∧ r ∈ step.1.refreshToken.rows ∧
        r.token = sha256 refreshToken ∧ subject = ⟨payload.sub, r.userType⟩
  | _ => False

/-- Why a call issues tokens for the pair. -/
def SessionCall.Explains [TokenRuntime] [PasswordRuntime] (call : SessionCall)
    (past : Set (Store × Store)) (subject : Subject) : Prop :=
  ∃ step ∈ past, call.Authenticates subject step ∨ call.Presents subject step

theorem SessionCall.Authenticates.role [PasswordRuntime] {call : SessionCall} {subject : Subject}
    {step : Store × Store} (h : call.Authenticates subject step) :
    subject.role = "admin" ∨ subject.role = "user" := by
  have hCredentials {role email pass : String} {s : Store}
      (h : HasCredentials role email pass subject s) :
      subject.role = "admin" ∨ subject.role = "user" :=
    h.imp (fun hAdmin => hAdmin.2.1) fun hUser => hUser.2.1
  cases call with
  | signup input secret call =>
      obtain ⟨admin, -, rfl⟩ := h
      exact Or.inl rfl
  | login input call => exact hCredentials h
  | loginUser input call => exact hCredentials h
  | refreshTokens refreshToken call => exact h.elim
  | logout accessToken user call => exact h.elim

/-! ## The sessions of a store -/

/-- The columns of a refresh token that are written once. -/
structure Session where
  token : String
  userId : Id
  userType : String

def RefreshToken.session (r : RefreshToken) : Session := ⟨r.token, r.userId, r.userType⟩

def sessions (s : Store) : List Session := s.refreshToken.rows.map RefreshToken.session

def SameSessions (s s' : Store) : Prop := sessions s' = sessions s

theorem sameSessions_refl (s : Store) : SameSessions s s := rfl

/-- A revocation changes no session. -/
theorem sessions_modify (s : Store) (sel : RefreshToken → Bool) (revokedAt updatedAt : Int) :
    sessions { s with
      refreshToken := s.refreshToken.modify sel (fun r => r.revoke revokedAt updatedAt)
        fun _ => rfl } = sessions s := by
  unfold sessions
  rw [Table.rows_modify, List.map_map]
  refine List.map_congr_left fun r _ => ?_
  simp only [Function.comp]
  split <;> rfl

/-- The tokens of a new session, for a pair that the past of the call explains. -/
def IssuesFor [TokenRuntime] [PasswordRuntime] (call : SessionCall)
    (past : Set (Store × Store)) (s s' : Store) (tokens : IssuedTokens) : Prop :=
  ∃ subject, call.Explains past subject ∧ Carries tokens.accessToken subject ∧
    Carries tokens.refreshToken subject ∧
    (∀ x ∈ sessions s, x.token ≠ sha256 tokens.refreshToken) ∧
    sessions s' = sessions s ++ [⟨sha256 tokens.refreshToken, subject.sub, subject.role⟩]

/-- A method that answers with tokens which the call may issue. -/
abbrev Issues [TokenRuntime] [PasswordRuntime] {α : Type} (call : SessionCall)
    (tokens : α → IssuedTokens) (past : Set (Store × Store)) (p : Service α) : Prop :=
  Commits SameSessions (fun past s s' r => IssuesFor call past s s' (tokens r))
    (fun _ _ => False) past p

/-! ## What the methods do -/

section Methods

variable {past : Set (Store × Store)}

theorem learns_query {α : Type} (f : Store → α) :
    Learns SameSessions (fun past a => ∃ s, (s, s) ∈ past ∧ a = f s) past (query f) := by
  refine learns_read sameSessions_refl fun s a hResult => ?_
  exact ⟨s, Set.mem_insert _ _, (Except.ok.inj hResult).symm⟩

variable [TokenRuntime] [PasswordRuntime]

/-- Issuing tokens is one statement, which creates a session with a new hash. -/
theorem issues_generateTokens (call : AuthService.RefreshCall) {user : AuthService.TokenUser}
    {sessionCall : SessionCall} (hExplains : sessionCall.Explains past ⟨user.id, user.role⟩) :
    Issues sessionCall (fun pair => ⟨pair.accessToken, pair.refreshToken⟩) past
      (AuthService.generateTokens call user) := by
  rw [AuthService.generateTokens_eq]
  split
  · exact commits_throw _
  · refine commits_atomic sameSessions_refl fun s row s' hCreate => ?_
    have hRow := execute_ok hCreate
    obtain ⟨rfl, -, rfl⟩ := Model.create_ok hRow
    refine ⟨⟨user.id, user.role⟩, hExplains, ⟨_, _, _, rfl, rfl, rfl⟩, ⟨_, _, _, rfl, rfl, rfl⟩,
      ?_, ?_⟩
    · intro x hx hSame
      obtain ⟨r, hMem, rfl⟩ := List.mem_map.mp hx
      have hApart : (r.token == sha256 (AuthService.issuedPair call user).refreshToken) = false :=
        Model.create_unique hRow r hMem
      exact (beq_eq_false_iff_ne.mp hApart) hSame
    · exact List.map_append

omit [TokenRuntime] [PasswordRuntime] in
/-- A row is looked up, and stands for an account when it matches. -/
theorem learns_matching {ρ : Type} (find : Store → Option ρ) (isMatch : ρ → Bool)
    (account : ρ → AuthService.ValidatedAccount)
    {P : AuthService.ValidatedAccount → Store → Prop}
    (hRow : ∀ s r, find s = some r → isMatch r = true → P (account r) s) :
    Learns SameSessions (fun past found => ∀ a, found = some a → ∃ step ∈ past, P a step.1) past
      (query find >>= fun row => pure ((row.filter isMatch).map account)) := by
  refine commits_bind (learns_query _) fun past found _ hFound => ?_
  obtain ⟨s, hStep, rfl⟩ := hFound
  refine commits_pure fun a hAccount => ⟨_, hStep, ?_⟩
  obtain ⟨r, hFilter, rfl⟩ := Option.map_eq_some_iff.mp hAccount
  obtain ⟨hFind, hMatch⟩ := Option.filter_eq_some_iff.mp hFilter
  exact hRow s r hFind hMatch

omit [TokenRuntime] in
theorem learns_validateAdmin (email pass : String) :
    Learns SameSessions (fun past found => ∀ account, found = some account → ∃ step ∈ past,
      HasCredentials "admin" email pass ⟨account.id, "admin"⟩ step.1) past
      (AuthService.validateAdmin email pass) := by
  refine learns_matching _ _ _ fun s r hFind hCompare => Or.inl ⟨rfl, rfl, ?_⟩
  obtain ⟨hMem, hEmail⟩ := Model.findFirst_some hFind
  exact ⟨r, hMem, beq_iff_eq.mp hEmail, hCompare, rfl⟩

omit [TokenRuntime] in
theorem learns_validateUser (email pass : String) :
    Learns SameSessions (fun past found => ∀ account, found = some account → ∃ step ∈ past,
      HasCredentials "user" email pass ⟨account.id, "user"⟩ step.1) past
      (AuthService.validateUser email pass) := by
  refine learns_matching _ _ _ fun s r hFind hCompare => Or.inr ⟨rfl, rfl, ?_⟩
  obtain ⟨hMem, hEmail⟩ := Model.findFirst_some hFind
  exact ⟨r, hMem, beq_iff_eq.mp hEmail, hCompare, rfl⟩

omit [TokenRuntime] in
theorem learns_validate (role email pass : String) :
    Learns SameSessions (fun past found => ∀ account, found = some account → ∃ step ∈ past,
      HasCredentials role email pass ⟨account.id, role⟩ step.1) past
      (AuthService.validate role email pass) := by
  unfold AuthService.validate
  split
  · rename_i hAdmin
    rw [hAdmin]
    exact learns_validateAdmin email pass
  · split
    · rename_i hUser
      rw [hUser]
      exact learns_validateUser email pass
    · exact commits_pure fun account hAccount => nomatch hAccount

omit [TokenRuntime] [PasswordRuntime] in
theorem learns_orInvalid (found : Option AuthService.ValidatedAccount) :
    Learns SameSessions (fun _ account => found = some account) past
      (AuthService.orInvalid found) := by
  cases found with
  | none => exact commits_throw _
  | some account => exact commits_pure rfl

omit [TokenRuntime] in
theorem learns_createAdmin (input : SignupInput) (secret : Secret) :
    Learns SameSessions (fun past admin => ∃ step ∈ past, prisma.admin.create
      (AdminService.createData input secret) (fun _ => rfl) step.1 = .ok (admin, step.2))
      past (AdminService.create input secret) := by
  refine learns_atomic sameSessions_refl fun s admin s' hCreate => ?_
  have hRow := execute_ok hCreate
  obtain ⟨-, -, hState⟩ := Model.create_ok hRow
  refine ⟨?_, (s, s'), Set.mem_insert _ _, hRow⟩
  rw [hState]
  rfl

theorem issues_signup (input : SignupInput) (secret : Secret) (call : AuthService.RefreshCall) :
    Issues (.signup input secret call) (fun r => ⟨r.accessToken, r.refreshToken⟩) past
      (AuthService.signup input secret call) := by
  refine commits_bind (learns_query _) fun past existingAdmin _ _ => ?_
  refine commits_bind learns_throwIf fun past _ _ _ => ?_
  refine commits_bind (learns_createAdmin input secret) fun past admin _ hAdmin => ?_
  refine commits_map (issues_generateTokens call ?_)
  obtain ⟨step, hStep, hCreate⟩ := hAdmin
  exact ⟨step, hStep, Or.inl ⟨admin, hCreate, rfl⟩⟩

theorem issues_login (input : LoginInput) (call : AuthService.RefreshCall) :
    Issues (.login input call) (fun r => ⟨r.accessToken, r.refreshToken⟩) past
      (AuthService.login input call) := by
  refine commits_bind (learns_validate _ _ _) fun past found _ hFound => ?_
  refine commits_bind (learns_orInvalid found) fun past' account hSub hAccount => ?_
  refine commits_map (issues_generateTokens call ?_)
  obtain ⟨step, hStep, hCredentials⟩ := hFound account hAccount
  exact ⟨step, hSub hStep, Or.inl hCredentials⟩

theorem issues_loginUser (input : LoginInput) (call : AuthService.RefreshCall) :
    Issues (.loginUser input call) (fun r => ⟨r.accessToken, r.refreshToken⟩) past
      (AuthService.loginUser input call) := by
  refine commits_bind (learns_validateUser _ _) fun past found _ hFound => ?_
  refine commits_bind (learns_orInvalid found) fun past' account hSub hAccount => ?_
  refine commits_map (issues_generateTokens call ?_)
  obtain ⟨step, hStep, hCredentials⟩ := hFound account hAccount
  exact ⟨step, hSub hStep, Or.inl hCredentials⟩

omit [TokenRuntime] [PasswordRuntime] in
/-- The account of the token has its id and the role of the row. -/
theorem learns_findTokenUser (userType : String) (sub : Id) :
    Learns SameSessions (fun _ user => user.id = sub ∧ user.role = userType) past
      (AuthService.findTokenUser userType sub) := by
  have hAccount : Learns SameSessions (fun _ found => ∀ out, found = some out → out.1 = sub) past
      (AuthService.findAccount userType sub) := by
    unfold AuthService.findAccount
    split
    · refine learns_read sameSessions_refl fun s found hResult out hOut => ?_
      obtain rfl := Except.ok.inj hResult
      obtain ⟨r, hFind, rfl⟩ := Option.map_eq_some_iff.mp hOut
      exact (Table.find_eq_some.mp hFind).2
    · refine learns_read sameSessions_refl fun s found hResult out hOut => ?_
      obtain rfl := Except.ok.inj hResult
      obtain ⟨r, hFind, rfl⟩ := Option.map_eq_some_iff.mp hOut
      exact (Table.find_eq_some.mp hFind).2
  refine commits_bind hAccount fun past found _ hFound => ?_
  cases found with
  | none => exact commits_throw _
  | some out => exact commits_pure ⟨hFound out rfl, rfl⟩

omit [TokenRuntime] [PasswordRuntime] in
theorem learns_useStoredToken (call : AuthService.RefreshCall) (sub : Id)
    (found : Option RefreshToken) :
    Learns SameSessions (fun _ user => ∃ r, found = some r ∧ user.id = sub ∧ user.role = r.userType)
      past (AuthService.useStoredToken call sub found) := by
  rcases AuthService.useStoredToken_cases call sub found with
    ⟨e, hThrow⟩ | ⟨r, hFind, -, hRevoke⟩
  · rw [hThrow]
    exact commits_throw e
  · rw [hRevoke]
    have hUpdate : Learns SameSessions (fun _ _ => True) past
        (update prisma.refreshToken (fun x => x.id == r.id) fun x =>
          x.revoke call.revokedAt call.markedAt) := by
      refine learns_atomic sameSessions_refl fun s row s' hOk => ⟨?_, trivial⟩
      obtain ⟨-, -, -, -, -, -, rfl⟩ := Model.update_ok (execute_ok hOk)
      exact sessions_modify s _ _ _
    refine commits_bind hUpdate fun past _ _ _ => ?_
    exact learns_mono (learns_findTokenUser r.userType sub) fun _ user hUser => ⟨r, hFind, hUser⟩

omit [TokenRuntime] [PasswordRuntime] in
theorem learns_onError (e : Exn) {post : Set (Store × Store) → AuthService.TokenUser → Prop} :
    Learns SameSessions post past (AuthService.onError e) := by
  obtain ⟨e', hThrow⟩ := AuthService.onError_throw e
  rw [hThrow]
  exact commits_throw e'

theorem issues_refreshTokens (refreshToken : String) (call : AuthService.RefreshCall) :
    Issues (.refreshTokens refreshToken call) (fun r => ⟨r.accessToken, r.refreshToken⟩) past
      (AuthService.refreshTokens refreshToken call) := by
  have hIssue (past : Set (Store × Store)) (user : AuthService.TokenUser)
      (hExplains : (SessionCall.refreshTokens refreshToken call).Explains past
        ⟨user.id, user.role⟩) :
      Issues (.refreshTokens refreshToken call) (fun r => ⟨r.accessToken, r.refreshToken⟩) past
        (AuthService.generateTokens call user) :=
    issues_generateTokens call hExplains
  refine commits_seq (learns_tryCatch ?_ fun past e => learns_onError e) hIssue
  cases hVerify : verify refreshToken call.verifiedAt with
  | none => exact commits_throw _
  | some payload =>
      refine commits_bind learns_throwIf fun past _ _ _ => ?_
      refine commits_bind (learns_query _) fun past storedToken _ hStored => ?_
      obtain ⟨s, hStep, hFind⟩ := hStored
      refine learns_mono
        (learns_frame (learns_useStoredToken call payload.sub storedToken)) ?_
      rintro past' user ⟨hSub, r, rfl, hId, hRole⟩
      obtain ⟨hMem, hToken⟩ := Model.findFirst_some hFind.symm
      refine ⟨(s, s), hSub hStep, Or.inr ⟨payload, r, hVerify, hMem, beq_iff_eq.mp hToken, ?_⟩⟩
      rw [hId, hRole]

end Methods

/-! ## What the calls do -/

/-- The rest of the server issues no tokens and keeps those that there are. -/
def KeepsSessions (s s' : Server) : Prop := SameSessions s.store s'.store

theorem keepsSessions_refl (s : Server) : KeepsSessions s s := rfl

theorem learns_logout [DecodeRuntime] {past : Set (Server × Server)} (accessToken : String)
    (user : RequestUser) (call : LogoutCall) :
    Learns KeepsSessions (fun _ _ => True) past (logout accessToken user call) := by
  have hCache (key : String) (ttl now : Int) (past : Set (Server × Server)) :
      Learns KeepsSessions (fun _ _ => True) past (cacheSet key ttl now) := by
    refine learns_atomic keepsSessions_refl fun s _ s' hOk => ⟨?_, trivial⟩
    cases hOk
    rfl
  have hRevoke (past : Set (Server × Server)) :
      Learns KeepsSessions (fun _ _ => True) past
        (revokeTokens user.userId call.revokedAt call.markedAt) := by
    refine learns_atomic keepsSessions_refl fun s _ s' hOk => ⟨?_, trivial⟩
    cases hOk
    exact sessions_modify s.store _ _ _
  have hEnd (past : Set (Server × Server)) :
      Learns KeepsSessions (fun _ _ => True) past (do
        if user.userId ≠ 0 then revokeTokens user.userId call.revokedAt call.markedAt else pure ()
        pure "Logout successful") := by
    split
    · exact commits_seq (hRevoke past) fun _ _ _ => commits_pure trivial
    · exact commits_pure trivial
  unfold logout
  refine learns_tryCatch ?_ fun past e => commits_pure trivial
  cases blacklistTtl accessToken user call.now with
  | none => exact hEnd past
  | some ttl => exact commits_seq (hCache _ _ _ past) fun past _ _ => hEnd past

section Calls

variable [TokenRuntime] [PasswordRuntime]

/-- The last step of a call that returns tokens. -/
def SessionCall.Commit (call : SessionCall) (past : Set (Server × Server)) (s s' : Server)
    (answer : SessionAnswer) : Prop :=
  ∃ tokens, answer.issued = some tokens ∧
    IssuesFor call (pastOf Server.store past) s.store s'.store tokens

/-- A method that issues tokens, as a call. -/
theorem commits_onStore {α : Type} {call : SessionCall} {p : Service α} {tokens : α → IssuedTokens}
    {answer : α → SessionAnswer} (hAnswer : ∀ r, (answer r).issued = some (tokens r))
    (hp : ∀ past, Issues call tokens past p)
    (past : Set (Server × Server)) :
    Commits KeepsSessions call.Commit (fun _ answer => answer.issued = none) past
      (onStore (p >>= fun r => pure (answer r))) := by
  have hStore : Commits SameSessions
      (fun past s s' answer => ∃ tokens, answer.issued = some tokens ∧
        IssuesFor call past s s' tokens)
      (fun _ answer => answer.issued = none) (pastOf Server.store past)
      (p >>= fun r => pure (answer r)) := by
    refine commits_map ((hp _).mono ?_ fun _ _ hFalse => hFalse.elim)
    exact fun _ _ _ r hIssues => ⟨tokens r, hAnswer r, hIssues⟩
  exact commits_within (fun _ _ => rfl) hStore

variable [DecodeRuntime]

/-- **A call commits when it returns tokens**, and changes no session before. -/
theorem SessionCall.commits (call : SessionCall) (past : Set (Server × Server)) :
    Commits KeepsSessions call.Commit (fun _ answer => answer.issued = none) past call.prog := by
  cases call with
  | signup input secret call =>
      exact commits_onStore (fun _ => rfl) (fun _ => issues_signup input secret call) past
  | login input call =>
      exact commits_onStore (fun _ => rfl) (fun _ => issues_login input call) past
  | loginUser input call =>
      exact commits_onStore (fun _ => rfl) (fun _ => issues_loginUser input call) past
  | refreshTokens refreshToken call =>
      exact commits_onStore (fun _ => rfl) (fun _ => issues_refreshTokens refreshToken call) past
  | logout accessToken user call =>
      exact commits_seq (learns_logout accessToken user call) fun _ _ _ => commits_pure rfl

end Calls

end Rooeel
