import Rooeel.Service

/-!
# Rotating refresh tokens

`refreshTokens` looks the hash of the token up, revokes the row, reads the account and creates
the row of the next token. The lookup tests that the row is not revoked; the revocation does
not. A call is exposed in between (`Rotating`). When no call looks a token up while another
call is exposed, the token is used once; otherwise two calls can rotate it.

The signing library, the hash and the configuration are parameters. A call brings the random
id of its tokens and the readings of the clock, in milliseconds.
-/

namespace Rooeel

open JavaScript Prog Table

/-- The claims of a token. -/
structure Payload where
  sub : Id
  email : String
  role : String
  jti : String
  type : String
  deriving DecidableEq

/-- The row with what a revocation writes. -/
abbrev RefreshToken.revoke (r : RefreshToken) (revokedAt updatedAt : Int) : RefreshToken :=
  { r with revokedAt := some revokedAt, updatedAt }

class TokenRuntime where
  /-- `jwtService.verify` at a time; `none` is the exception. -/
  verify : String → Int → Option Payload
  /-- `jwtService.sign` with an `expiresIn` at a time. -/
  sign : Payload → String → Int → String
  sha256 : String → String
  /-- `configService.get('JWT_ACCESS_EXPIRY')`. -/
  jwtAccessExpiry : Option String
  /-- `configService.get('JWT_REFRESH_EXPIRY')`. -/
  jwtRefreshExpiry : Option String

namespace AuthService

open TokenRuntime

structure TokenPair where
  accessToken : String
  refreshToken : String
  expiresIn : Int
  refreshExpiresIn : Int

/-- The account that the tokens are for; `role` is `admin` or `user`. -/
structure TokenUser where
  id : Id
  email : String
  role : String

/-- The random id and the readings of the clock of one call. The last two are the database
client's own, when it writes `updatedAt`. -/
structure RefreshCall where
  jti : String
  verifiedAt : Int
  checkedAt : Int
  revokedAt : Int
  signedAt : Int
  storedAt : Int
  markedAt : Int
  writtenAt : Int

/-- The seconds of `<digits><unit>`, else 900. -/
def parseExpiry (expiry : String) : Int :=
  match expiry.toList.reverse with
  | unit :: last :: rest =>
    let digits := (last :: rest).reverse
    if digits.all Char.isDigit then
      let value : Int := digits.foldl (fun n d => 10 * n + (d.toNat - '0'.toNat)) 0
      match unit with
      | 's' => value
      | 'm' => value * 60
      | 'h' => value * 60 * 60
      | 'd' => value * 60 * 60 * 24
      | _ => 900
    else 900
  | _ => 900

/-- `value || fallback` of a setting. -/
def orDefault (value : Option String) (fallback : String) : String :=
  match value with
  | some s => if s = "" then fallback else s
  | none => fallback

section Refresh

variable [TokenRuntime]

def generateTokens (call : RefreshCall) (user : TokenUser) : Service TokenPair := do
  let accessExpiry := orDefault jwtAccessExpiry "15m"
  let refreshExpiry := orDefault jwtRefreshExpiry "7d"
  let payload (type : String) : Payload :=
    { sub := user.id, email := user.email, role := user.role, jti := call.jti, type }
  let accessToken := sign (payload "access") accessExpiry call.signedAt
  let refreshToken := sign (payload "refresh") refreshExpiry call.signedAt
  let expiresAt := call.storedAt + parseExpiry refreshExpiry * 1000
  Prog.throwIf (isDate expiresAt = false) (.prisma .invalid)
  let _row ← create prisma.refreshToken fun id =>
    { id
      token := sha256 refreshToken
      userId := user.id
      userType := user.role
      expiresAt
      revokedAt := none
      updatedAt := call.writtenAt }
  pure
    { accessToken
      refreshToken
      expiresIn := parseExpiry accessExpiry
      refreshExpiresIn := parseExpiry refreshExpiry }

/-- The claims of the tokens that a call issues. -/
def claims (call : RefreshCall) (user : TokenUser) (type : String) : Payload where
  sub := user.id
  email := user.email
  role := user.role
  jti := call.jti
  type := type

/-- The tokens that a call issues. -/
def issuedPair (call : RefreshCall) (user : TokenUser) : TokenPair where
  accessToken := sign (claims call user "access") (orDefault jwtAccessExpiry "15m") call.signedAt
  refreshToken := sign (claims call user "refresh") (orDefault jwtRefreshExpiry "7d") call.signedAt
  expiresIn := parseExpiry (orDefault jwtAccessExpiry "15m")
  refreshExpiresIn := parseExpiry (orDefault jwtRefreshExpiry "7d")

/-- The expiry of the row that a call stores. -/
def expiryOf (call : RefreshCall) : Int :=
  call.storedAt + parseExpiry (orDefault jwtRefreshExpiry "7d") * 1000

/-- The row that a call stores. -/
def issuedRow (call : RefreshCall) (user : TokenUser) (id : Id) : RefreshToken where
  id := id
  token := sha256 (issuedPair call user).refreshToken
  userId := user.id
  userType := user.role
  expiresAt := expiryOf call
  revokedAt := none
  updatedAt := call.writtenAt

/-- Issuing tokens is one statement, unless the tokens would expire at no date. -/
theorem generateTokens_eq (call : RefreshCall) (user : TokenUser) :
    generateTokens call user =
      if isDate (expiryOf call) = false then throw (.prisma .invalid)
      else create prisma.refreshToken (issuedRow call user) >>= fun _ =>
        pure (issuedPair call user) :=
  throwIf_bind _ _ _

/-- What `generateTokens` leaves: one row more, with the hash of the refresh token. -/
theorem generateTokens_ok {call : RefreshCall} {user : TokenUser} {s s' : Store}
    {pair : TokenPair} (hRun : (generateTokens call user).run s = (.ok pair, s')) :
    pair = issuedPair call user ∧
      s'.refreshToken.rows = s.refreshToken.rows ++ [issuedRow call user s.refreshToken.next] := by
  rw [generateTokens_eq] at hRun
  split at hRun
  · cases hRun
  · obtain ⟨row, s₁, hCreate, hRest⟩ := of_run_bind_ok hRun
    obtain ⟨rfl, -, rfl⟩ := Model.create_ok (of_execute_run hCreate)
    cases hRest
    exact ⟨rfl, rfl⟩

/-- `adminService.findOne` or `userService.findOne`: the id and the address. -/
def findAccount (userType : String) (sub : Id) : Service (Option (Id × String)) :=
  if userType = "admin" then
    query fun s => (s.admin.find sub).map fun r => (r.id, r.email)
  else
    query fun s => (s.user.find sub).map fun r => (r.id, r.email)

/-- The account of a stored token. -/
def findTokenUser (userType : String) (sub : Id) : Service TokenUser := do
  match ← findAccount userType sub with
  | none => throw (.unauthorized "User not found")
  | some (id, email) => pure { id, email, role := userType }

/-- What follows the lookup, up to the account. -/
def useStoredToken (call : RefreshCall) (sub : Id) (storedToken : Option RefreshToken) :
    Service TokenUser :=
  match storedToken with
  | none => throw (.unauthorized "Token has been revoked or does not exist")
  | some storedToken => do
    Prog.throwIf (storedToken.revokedAt.isSome = true)
      (.unauthorized "Token has been revoked or does not exist")
    Prog.throwIf (storedToken.expiresAt < call.checkedAt) (.unauthorized "Token has expired")
    let _row ← update prisma.refreshToken (fun r => r.id == storedToken.id) fun r =>
      r.revoke call.revokedAt call.markedAt
    findTokenUser storedToken.userType sub

/-- The handler: errors that are not `UnauthorizedException` are not shown. -/
def onError : Exn → Service TokenUser
  | .unauthorized message => throw (.unauthorized message)
  | _ => throw (.unauthorized "Invalid refresh token")

/-- The tokens are generated outside the handler: the source returns their promise without
awaiting it. -/
def refreshTokens (refreshToken : String) (call : RefreshCall) : Service TokenPair := do
  let user ← tryCatch (do
    match verify refreshToken call.verifiedAt with
    | none => throw (.unauthorized "Invalid refresh token")
    | some payload => do
      Prog.throwIf (payload.type ≠ "refresh") (.unauthorized "Invalid token type")
      let tokenHash := sha256 refreshToken
      let storedToken ← findUnique prisma.refreshToken fun r => r.token == tokenHash
      useStoredToken call payload.sub storedToken) onError
  generateTokens call user

end Refresh

/-! ## What the steps of a call do to the token -/

/-- The row of the presented token, by its hash. -/
def storedTokenOf (hash : String) (s : Store) : Option RefreshToken :=
  prisma.refreshToken.findFirst (fun r => r.token == hash) s

def Revoked (hash : String) (s : Store) : Prop :=
  ∃ r, storedTokenOf hash s = some r ∧ r.revokedAt.isSome = true

/-- The step leaves a revoked token revoked. -/
def KeepsRevoked (hash : String) (s s' : Store) : Prop := Revoked hash s → Revoked hash s'

/-- The rest of a call leaves a revoked token revoked, whatever happens in between. -/
def LeavesRevoked {α : Type} (hash : String) (p : Service α) : Prop :=
  Guarantees (fun _ _ => True) (KeepsRevoked hash) p

theorem leavesRevoked_read {α : Type} (hash : String) (f : Store → Except Exn α) :
    LeavesRevoked hash (Prog.read f) :=
  guarantees_read (fun _ h => h) f

theorem leavesRevoked_findTokenUser (hash userType : String) (sub : Id) :
    LeavesRevoked hash (findTokenUser userType sub) := by
  have hRead : LeavesRevoked hash (findAccount userType sub) := by
    unfold findAccount
    split
    · exact leavesRevoked_read hash _
    · exact leavesRevoked_read hash _
  refine guarantees_bind hRead fun user => ?_
  cases user with
  | none => exact guarantees_throw _
  | some out => exact guarantees_pure _

/-- A new row comes after the revoked one. -/
theorem revoked_insert {hash : String} {s : Store} (h : Revoked hash s) (mk : Id → RefreshToken)
    (hmk : ∀ k, Row.key (mk k) = k) :
    Revoked hash { s with refreshToken := s.refreshToken.insert mk hmk } := by
  obtain ⟨r, hFind, hRevoked⟩ := h
  refine ⟨r, ?_, hRevoked⟩
  change List.find? _ (s.refreshToken.rows ++ _) = _
  rw [List.find?_append]
  exact congrArg (Option.or · _) hFind

theorem leavesRevoked_generateTokens [TokenRuntime] (hash : String) (call : RefreshCall)
    (user : TokenUser) : LeavesRevoked hash (generateTokens call user) := by
  rw [generateTokens_eq]
  split
  · exact guarantees_throw _
  refine guarantees_bind (guarantees_atomic (fun _ h => h) ?_) fun _ => guarantees_pure _
  intro s row s' hCreate hRevoked
  obtain ⟨-, -, rfl⟩ := Model.create_ok (execute_ok hCreate)
  exact revoked_insert hRevoked _ _

theorem onError_throw (e : Exn) : ∃ e', onError e = throw e' := by
  cases e with
  | unauthorized message => exact ⟨_, rfl⟩
  | _ => exact ⟨_, rfl⟩

/-- The row that the hash names is found again when it has been revoked. -/
theorem storedTokenOf_revoke {hash : String} {s : Store} {r : RefreshToken}
    (revokedAt updatedAt : Int) (hFind : storedTokenOf hash s = some r) :
    storedTokenOf hash { s with
      refreshToken := s.refreshToken.modify (fun x => Row.key x == Row.key r)
        (fun x => x.revoke revokedAt updatedAt) fun _ => rfl } =
      some (r.revoke revokedAt updatedAt) := by
  have hFound : s.refreshToken.rows.find? (fun x => x.token == hash) = some r := hFind
  unfold storedTokenOf Model.findFirst prisma.refreshToken
  rw [find?_modify]
  · rw [hFound, Option.map_some, if_pos (beq_self_eq_true _)]
  · exact fun _ => rfl

/-- The revocation of the row that the hash names. -/
theorem revoked_of_update {hash : String} {s s' : Store} {r row : RefreshToken}
    {revokedAt updatedAt : Int}
    (hFind : storedTokenOf hash s = some r)
    (hUpdate : prisma.refreshToken.update (fun x => x.id == r.id)
      (fun x => x.revoke revokedAt updatedAt) (fun _ => rfl) s = .ok (row, s')) :
    Revoked hash s' := by
  obtain ⟨r', hMem', hId, -, -, -, rfl⟩ := Model.update_ok hUpdate
  obtain ⟨hMem, -⟩ := Model.findFirst_some hFind
  obtain rfl : r' = r := s.refreshToken.key_inj hMem' hMem (beq_iff_eq.mp hId)
  exact ⟨r'.revoke revokedAt updatedAt, storedTokenOf_revoke revokedAt updatedAt hFind, rfl⟩

/-! ## The stages of a token -/

section Interleavings

variable [TokenRuntime]

/-- What follows the lookup. -/
def afterLookup (call : RefreshCall) (sub : Id) (found : Option RefreshToken) : Service TokenPair :=
  tryCatch (useStoredToken call sub found) onError >>= generateTokens call

/-- A call fails at once, or starts with the lookup. -/
theorem refreshTokens_cases (refreshToken : String) (call : RefreshCall) :
    (∃ e, refreshTokens refreshToken call = .done (.error e)) ∨
      ∃ sub fail, refreshTokens refreshToken call =
        .step id (fun s => afterLookup call sub (storedTokenOf (sha256 refreshToken) s)) fail := by
  unfold refreshTokens
  cases verify refreshToken call.verifiedAt with
  | none => exact Or.inl ⟨_, rfl⟩
  | some payload =>
      dsimp only
      rw [throwIf_bind]
      split
      · exact Or.inl ⟨_, rfl⟩
      · exact Or.inr ⟨payload.sub, _, rfl⟩

/-- The revocation of the row `r`, and what follows it inside the handler. -/
def revoke (call : RefreshCall) (sub : Id) (r : RefreshToken) : Service TokenUser := do
  let _row ← update prisma.refreshToken (fun x => x.id == r.id) fun x =>
    x.revoke call.revokedAt call.markedAt
  findTokenUser r.userType sub

omit [TokenRuntime] in
theorem useStoredToken_cases (call : RefreshCall) (sub : Id) (found : Option RefreshToken) :
    (∃ e, useStoredToken call sub found = throw e) ∨
      ∃ r, found = some r ∧ r.revokedAt.isSome = false ∧
        useStoredToken call sub found = revoke call sub r := by
  cases found with
  | none => exact Or.inl ⟨_, rfl⟩
  | some r =>
      simp only [useStoredToken, throwIf_bind]
      split
      · exact Or.inl ⟨_, rfl⟩
      · rename_i hLive
        split
        · exact Or.inl ⟨_, rfl⟩
        · exact Or.inr ⟨r, rfl, Bool.eq_false_iff.mpr hLive, rfl⟩

/-- An error of the first part is the error of the call, or stands for it. -/
theorem afterLookup_throw {call : RefreshCall} {sub : Id} {found : Option RefreshToken} {e : Exn}
    (h : useStoredToken call sub found = throw e) :
    ∃ e', afterLookup call sub found = .done (.error e') := by
  obtain ⟨e', hError⟩ := onError_throw e
  refine ⟨e', ?_⟩
  unfold afterLookup
  rw [h]
  change onError e >>= _ = _
  rw [hError]
  rfl

/-- What has become of a token: some call is about to revoke it, or has done so. -/
inductive Stage (ι : Type) where
  | unused
  | exposed (i : ι)
  | used (i : ι)

def Stage.who {ι : Type} : Stage ι → Option ι
  | .unused => none
  | .exposed i | .used i => some i

variable {ι : Type} [DecidableEq ι]

/-- Calls with one token, none of them started. -/
def refreshCalls (s : Store) (refreshToken : String) (calls : ι → RefreshCall) :
    Pool ι Store Exn TokenPair :=
  Pool.start s fun i => refreshTokens refreshToken (calls i)

/-- Where the call that a stage is about stands. -/
def Stage.Doing (hash : String) (calls : ι → RefreshCall) (c : Pool ι Store Exn TokenPair) :
    Stage ι → Prop
  | .unused => True
  | .exposed i => c.steps i = 1 ∧ ∃ sub r, storedTokenOf hash c.state = some r ∧
      c.proc i = tryCatch (revoke (calls i) sub r) onError >>= generateTokens (calls i)
  | .used i => Revoked hash c.state ∧ LeavesRevoked hash (c.proc i)

/-- The calls have brought the token to the stage. -/
structure At (refreshToken : String) (calls : ι → RefreshCall) (c : Pool ι Store Exn TokenPair)
    (stage : Stage ι) : Prop where
  idle : Pool.IdleBut (fun j => refreshTokens refreshToken (calls j)) c stage.who
  doing : stage.Doing (sha256 refreshToken) calls c

/-- The call has looked the token up and found it usable, and has not revoked it yet. -/
def Rotating (c : Pool ι Store Exn TokenPair) (i : ι) : Prop := c.steps i = 1 ∧ ¬ c.Ended i

/-- A call looks the token up only when no other call is between its lookup and its
revocation. -/
def OneRotation : Pool ι Store Exn TokenPair → Pool ι Store Exn TokenPair → Prop :=
  Pool.ExecUnless Rotating

variable {refreshToken : String} {calls : ι → RefreshCall} {c c' : Pool ι Store Exn TokenPair}
  {stage : Stage ι} {i : ι}

/-- A call that is not the one the stage is about looks the token up. -/
theorem At.exec_first (h : At refreshToken calls c stage) (hExec : c.exec i = some c')
    (hOther : stage.who ≠ some i) :
    c.steps i = 0 ∧ c'.steps i = 1 ∧ c'.state = c.state ∧ ∃ sub,
      c'.proc i = afterLookup (calls i) sub (storedTokenOf (sha256 refreshToken) c.state) := by
  obtain ⟨hFirst, hProc⟩ := (h.idle i hOther).first hExec
  rcases refreshTokens_cases refreshToken (calls i) with ⟨e, hFailed⟩ | ⟨sub, fail, hStep⟩
  · exact absurd ⟨_, hProc.trans hFailed⟩ (Pool.exec_ended hExec)
  · have hAdvance := Pool.advance_of_exec hExec (hProc.trans hStep)
    refine ⟨hFirst, ?_, hAdvance.state, sub, hAdvance.proc⟩
    rw [hAdvance.steps, hFirst]

/-- The lookup by the first call, or by one after others have failed. -/
theorem At.step_unused (h : At refreshToken calls c .unused) (hExec : c.exec i = some c') :
    ∃ stage', At refreshToken calls c' stage' := by
  obtain ⟨-, hSteps, hState, sub, hProc⟩ := h.exec_first hExec (by simp [Stage.who])
  rcases useStoredToken_cases (calls i) sub (storedTokenOf (sha256 refreshToken) c.state) with
    ⟨e, hThrow⟩ | ⟨r, hFind, -, hRevoke⟩
  · obtain ⟨e', hFailed⟩ := afterLookup_throw hThrow
    have hEnd : ∃ e, c'.proc i = .done (.error e) := ⟨e', hProc.trans hFailed⟩
    exact ⟨.unused, h.idle.exec hExec (fun _ hj => nomatch hj) (Or.inr hEnd), trivial⟩
  · refine ⟨.exposed i, ?_, hSteps, sub, r, ?_, ?_⟩
    · exact h.idle.exec hExec (fun _ hj => nomatch hj) (Or.inl rfl)
    · rw [hState]
      exact hFind
    · rw [hProc, afterLookup, hRevoke]

/-- The revocation. When it is refused, the call fails and leaves the token as it was. -/
theorem At.step_exposed (h : At refreshToken calls c (.exposed i)) (hExec : c.exec i = some c') :
    ∃ stage', At refreshToken calls c' stage' := by
  obtain ⟨-, sub, r, hFind, hProc⟩ := h.doing
  rcases Pool.exec_tryCatch_atomic hExec hProc with ⟨row, hOk, hNext⟩ | ⟨e, -, -, hNext⟩
  · refine ⟨.used i, h.idle.exec hExec (fun _ hj => Or.inl hj) (Or.inl rfl), ?_, ?_⟩
    · exact revoked_of_update hFind (execute_ok hOk)
    · rw [hNext]
      have hError : ∀ e, LeavesRevoked (sha256 refreshToken) (onError e) := by
        intro e
        obtain ⟨e', hThrow⟩ := onError_throw e
        rw [hThrow]
        exact guarantees_throw e'
      exact guarantees_bind (guarantees_tryCatch (leavesRevoked_findTokenUser _ _ _) hError)
        fun _ => leavesRevoked_generateTokens _ _ _
  · obtain ⟨e', hThrow⟩ := onError_throw e
    rw [hThrow] at hNext
    have hEnd : ∃ e, c'.proc i = .done (.error e) := ⟨e', hNext⟩
    refine ⟨.unused, ?_, trivial⟩
    exact h.idle.exec hExec (fun j hj => Or.inr (Option.some.inj hj).symm) (Or.inr hEnd)

/-- The call that has revoked the token goes on; the others find it revoked. -/
theorem At.step_used {k : ι} (h : At refreshToken calls c (.used k)) (hExec : c.exec i = some c') :
    At refreshToken calls c' (.used k) := by
  obtain ⟨hRevoked, hLeaves⟩ := h.doing
  by_cases hSame : i = k
  · subst hSame
    obtain ⟨hKeeps, hLeaves'⟩ := Pool.exec_guarantees hExec hLeaves
    exact ⟨h.idle.exec hExec (fun _ hj => Or.inl hj) (Or.inl rfl), hKeeps hRevoked, hLeaves'⟩
  · have hOther : (Stage.used k).who ≠ some i := fun hWho => hSame (Option.some.inj hWho).symm
    obtain ⟨-, -, hState, sub, hProc⟩ := h.exec_first hExec hOther
    obtain ⟨r, hFind, hIsRevoked⟩ := hRevoked
    rcases useStoredToken_cases (calls i) sub (storedTokenOf (sha256 refreshToken) c.state) with
      ⟨e, hThrow⟩ | ⟨r', hFind', hLive, -⟩
    · obtain ⟨e', hFailed⟩ := afterLookup_throw hThrow
      have hEnd : ∃ e, c'.proc i = .done (.error e) := ⟨e', hProc.trans hFailed⟩
      refine ⟨h.idle.exec hExec (fun _ hj => Or.inl hj) (Or.inr hEnd), ?_, ?_⟩
      · rw [hState]
        exact ⟨r, hFind, hIsRevoked⟩
      · rw [(Pool.exec_others hExec fun h => hSame h.symm).1]
        exact hLeaves
    · obtain rfl := Option.some.inj (hFind.symm.trans hFind')
      rw [hIsRevoked] at hLive
      cases hLive

theorem At.step (h : At refreshToken calls c stage) (hStep : OneRotation c c') :
    ∃ stage', At refreshToken calls c' stage' := by
  obtain ⟨i, hExec, hAlone⟩ := hStep
  cases stage with
  | unused => exact h.step_unused hExec
  | used k => exact ⟨_, h.step_used hExec⟩
  | exposed k =>
      by_cases hSame : k = i
      · subst hSame
        exact h.step_exposed hExec
      · -- `i` would have to look the token up while `k` is exposed
        obtain ⟨hSteps, sub, r, -, hProc⟩ := h.doing
        have hRotating : Rotating c k := by
          refine ⟨hSteps, ?_⟩
          rintro ⟨result, hDone⟩
          rw [hDone] at hProc
          cases hProc
        have hOther : (Stage.exposed k).who ≠ some i := fun hWho => hSame (Option.some.inj hWho)
        exact absurd hRotating (hAlone (h.exec_first hExec hOther).1 k)

/-! ## All interleavings -/

/-- No two calls succeed, when the database executes their steps in the orders that `step`
allows. -/
def SingleUse (step : Pool ι Store Exn TokenPair → Pool ι Store Exn TokenPair → Prop)
    (c₀ : Pool ι Store Exn TokenPair) : Prop :=
  ∀ c, Relation.ReflTransGen step c₀ c → ∀ i j pair pair',
    c.Returned i pair → c.Returned j pair' → i = j

theorem refreshTokens_not_returned (refreshToken : String) (call : RefreshCall) (pair : TokenPair) :
    refreshTokens refreshToken call ≠ .done (.ok pair) := by
  intro hDone
  rcases refreshTokens_cases refreshToken call with ⟨e, hFailed⟩ | ⟨sub, fail, hStep⟩
  · rw [hFailed] at hDone
    cases hDone
  · rw [hStep] at hDone
    cases hDone

theorem At.reach {s : Store}
    (hReach : Relation.ReflTransGen OneRotation (refreshCalls s refreshToken calls) c) :
    ∃ stage, At refreshToken calls c stage := by
  induction hReach with
  | refl => exact ⟨.unused, Pool.idleBut_start _ _, trivial⟩
  | tail _ hStep ih =>
      obtain ⟨stage, hAt⟩ := ih
      exact hAt.step hStep

/-- **A refresh token is used once**, in every interleaving of any number of calls in which no
call looks it up while another one is between its lookup and its revocation. -/
theorem refresh_token_single_use (s : Store) (refreshToken : String) (calls : ι → RefreshCall) :
    SingleUse OneRotation (refreshCalls s refreshToken calls) := by
  intro c hReach i j pair pair' hi hj
  obtain ⟨stage, hAt⟩ := At.reach hReach
  exact hAt.idle.returned_unique (fun k => refreshTokens_not_returned refreshToken (calls k)) hi hj

end Interleavings

section Site

/-- Signing that is readable: a token is its type and its random id. -/
abbrev plainTokens : TokenRuntime where
  verify token _ :=
    if token = "refresh.0" then some ⟨1, "ben@site", "user", "0", "refresh"⟩ else none
  sign payload _ _ := payload.type ++ "." ++ payload.jti
  sha256 token := "#" ++ token
  jwtAccessExpiry := none
  jwtRefreshExpiry := some "7d"

attribute [local instance] plainTokens

/-- The member of the small site is logged in. -/
def sessionSite : Store :=
  { site with
    refreshToken := Table.empty.insert (fun id =>
      { id, token := "#refresh.0", userId := 1, userType := "user", expiresAt := 1000
        revokedAt := none, updatedAt := 0 }) fun _ => rfl }

/-- Two calls with the token of the session. -/
def bothRotations : Bool → RefreshCall
  | true => ⟨"1", 10, 11, 12, 13, 14, 12, 14⟩
  | false => ⟨"2", 10, 11, 12, 13, 14, 12, 14⟩

example : parseExpiry "15m" = 900 ∧ parseExpiry "7d" = 604800 ∧ parseExpiry "1w" = 900 := by decide

/-- Both calls look the token up before the first of them revokes it; both return tokens. -/
theorem refresh_token_used_twice :
    ¬ SingleUse Pool.Exec (refreshCalls sessionSite "refresh.0" bothRotations) := by
  intro h
  have hReach := Pool.reach_play (refreshCalls sessionSite "refresh.0" bothRotations)
    [true, false, true, false, true, true, false, false]
  exact absurd (h _ hReach true false _ _ rfl rfl) (by decide)

end Site

end AuthService

end Rooeel
