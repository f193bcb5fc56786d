import Rooeel.Auth.Guards
import Rooeel.Lib.Interleaving

/-!
# Logging out

`logout` blacklists the random id of the session in the cache, for as long as the access token
is valid, and revokes the refresh tokens of the user. Its errors are swallowed. The guards
behind `JwtStrategy` ask the cache; `ProjectPermissionGuard` does not.

A `ServerRun` is a sequence of logouts and requests, with everything else that happens in
between: the clock goes on, the store changes, and the cache may lose entries.
-/

namespace Rooeel

open JavaScript TokenRuntime Prog

/-- The state that requests see. -/
structure Server where
  store : Store
  cache : Cache
  clock : Int

/-- The claims of `jwtService.decode` that `logout` reads. -/
structure DecodedToken where
  jti : String
  exp : Int

class DecodeRuntime where
  /-- `jwtService.decode`: the claims, without verification. -/
  decode : String → Option DecodedToken

/-- The readings of the clock of one call. The last is the database client's own, when it writes
`updatedAt`. -/
structure LogoutCall where
  now : Int
  setAt : Int
  revokedAt : Int
  markedAt : Int

section Code

variable [DecodeRuntime]

/-- The seconds for which the session is blacklisted, if it is. -/
def blacklistTtl (accessToken : String) (user : RequestUser) (now : Int) : Option Int :=
  if accessToken = "" ∨ user.jti = "" then none
  else
    match DecodeRuntime.decode accessToken with
    | none => none
    | some decoded =>
      let exp := decoded.exp * 1000
      let ttl := max 0 ((exp - now) / 1000)
      if decoded.jti ≠ "" ∧ 0 < ttl then some ttl else none

omit [DecodeRuntime] in
/-- A statement on the cache. -/
def cacheSet (key : String) (ttl now : Int) : Prog Server Exn Unit :=
  Prog.atomic fun s => .ok ((), { s with cache := s.cache.setFor key ttl now })

omit [DecodeRuntime] in
/-- `refreshToken.updateMany`: the tokens of all accounts with the id. -/
def revokeTokens (userId : Id) (revokedAt updatedAt : Int) : Prog Server Exn Unit :=
  Prog.atomic fun s => .ok ((), { s with store :=
    { s.store with
      refreshToken := s.store.refreshToken.modify (fun r => r.userId == userId)
        (fun r => r.revoke revokedAt updatedAt) fun _ => rfl } })

def logout (accessToken : String) (user : RequestUser) (call : LogoutCall) :
    Prog Server Exn String :=
  tryCatch (do
    match blacklistTtl accessToken user call.now with
    | some ttl => cacheSet (blacklistKey user.jti) (ttl * 1000) call.setAt
    | none => pure ()
    if user.userId ≠ 0 then revokeTokens user.userId call.revokedAt call.markedAt else pure ()
    pure "Logout successful") fun _ => pure "Logout successful"

theorem logout_run {accessToken : String} {user : RequestUser} {call : LogoutCall} {ttl : Int}
    (hTtl : blacklistTtl accessToken user call.now = some ttl) (s : Server) :
    ((logout accessToken user call).run s).2.cache =
      s.cache.setFor (blacklistKey user.jti) (ttl * 1000) call.setAt := by
  unfold logout
  rw [hTtl]
  dsimp only
  split_ifs <;> rfl

/-- **A logout blacklists the session** until the last second of its token. -/
theorem logout_blacklists {accessToken : String} {user : RequestUser} {call : LogoutCall}
    {decoded : DecodedToken} (hToken : accessToken ≠ "") (hUser : user.jti ≠ "")
    (hDecode : DecodeRuntime.decode accessToken = some decoded) (hJti : decoded.jti ≠ "")
    (hSet : call.now ≤ call.setAt) {now : Int} (hStart : call.now ≤ now)
    (hEnd : now ≤ decoded.exp * 1000 - 1000) (s : Server) :
    Blacklisted ((logout accessToken user call).run s).2.cache now user.jti := by
  have hPositive : 0 < (decoded.exp * 1000 - call.now) / 1000 := by omega
  have hTtl : blacklistTtl accessToken user call.now =
      some (max 0 ((decoded.exp * 1000 - call.now) / 1000)) := by
    simp only [blacklistTtl, hToken, hUser, or_self, if_false, hDecode]
    rw [if_pos ⟨hJti, by omega⟩]
  refine ⟨hUser, ?_⟩
  rw [logout_run hTtl, Cache.isLive, Cache.setFor, Record.get_set_self, Option.any_some,
    decide_eq_true_eq]
  omega

end Code

/-! ## Runs -/

/-- What happens elsewhere: the cache gets no new entry for a session. -/
structure Elsewhere (s s' : Server) : Prop where
  clock : s.clock ≤ s'.clock
  cache : ∀ jti expiresAt, Record.get s'.cache (blacklistKey jti) = some expiresAt →
    Record.get s.cache (blacklistKey jti) = some expiresAt

/-- An entry of a run: a logout that has completed, or a request with the state in which its
guard checked it and the outcome. -/
inductive ServerEvent where
  | logout (accessToken : String)
  | request (guard : RequestGuard) (token : String) (seen : Server) (outcome : Except Exn Unit)

section Runs

variable [Runtime] [TokenRuntime] [PassportRuntime] [DecodeRuntime]

/-- Steps of a logout may fail, and other things may happen between them. A request is checked
in the state at hand; when it passes, its handler changes the store. -/
inductive ServerRun (start : Server) : List ServerEvent → Server → Prop
  | nil : ServerRun start [] start
  | logout {events : List ServerEvent} {s : Server} {token message : String} {user : RequestUser}
      {call : LogoutCall} {c : Pool Unit Server Exn String} (hBefore : ServerRun start events s)
      (hUser : authenticateJwt s.cache s.clock (some ("Bearer " ++ token)) = .ok (some user))
      (hReach : Relation.ReflTransGen (Pool.Step Elsewhere)
        (Pool.start s fun _ => logout token user call) c)
      (hDone : c.Returned () message) :
      ServerRun start (events ++ [.logout token]) c.state
  | request {events : List ServerEvent} {s : Server} {token : String} (guard : RequestGuard)
      (store : Store) (hBefore : ServerRun start events s) :
      ServerRun start
        (events ++ [.request guard token s
          (guard.check s.store s.cache s.clock (some ("Bearer " ++ token)))])
        { s with store }
  | other {events : List ServerEvent} {s s' : Server} (hBefore : ServerRun start events s)
      (hElsewhere : Elsewhere s s') : ServerRun start events s'

/-- The outcome of a request of a run. -/
theorem ServerRun.outcome {start s seen : Server} {events before after : List ServerEvent}
    {guard : RequestGuard} {token : String} {outcome : Except Exn Unit}
    (h : ServerRun start events s)
    (hEvents : events = before ++ .request guard token seen outcome :: after) :
    outcome = guard.check seen.store seen.cache seen.clock (some ("Bearer " ++ token)) := by
  induction h generalizing after with
  | nil => exact absurd hEvents (by simp)
  | logout _ _ _ _ ih =>
      rcases trace_split hEvents with ⟨-, hEvent, -⟩ | ⟨rest, -, hRest⟩
      · cases hEvent
      · exact ih hRest
  | request _ _ _ ih =>
      rcases trace_split hEvents with ⟨-, hEvent, -⟩ | ⟨rest, -, hRest⟩
      · cases hEvent
        rfl
      · exact ih hRest
  | other _ _ ih => exact ih hEvents

/-! ## Requests after a logout -/

omit [PassportRuntime] [DecodeRuntime] in
/-- The permission guard turns a caller away for what its token and its rows say: the token has
expired, or its role is not admin and the rows do not permit what the annotation asks for. -/
def RequestGuard.TurnsAway (guard : RequestGuard) (s : Store) (now : Int) (token : String) : Prop :=
  match guard with
  | .projectPermission metadata args => ∀ payload, verify token now = some payload →
      payload.role ≠ "admin" ∧ ∃ m, metadata = some m ∧ ¬ Permitted s payload.sub m args
  | _ => True

section Checks

variable [LawfulTokens] [LawfulPassport] {payload : Payload} {expiresIn : String} {signedAt : Int}

omit [Runtime] [DecodeRuntime] in
/-- The strategy lets no request with a blacklisted token through. -/
theorem authenticateJwt_blacklisted {cache : Cache} {now : Int}
    (hListed : Blacklisted cache now payload.jti) (user : RequestUser) :
    authenticateJwt cache now (some ("Bearer " ++ sign payload expiresIn signedAt)) ≠
      .ok (some user) := by
  have hToken := LawfulPassport.bearer (LawfulTokens.nonempty payload expiresIn signedAt)
    (LawfulTokens.noSpace payload expiresIn signedAt)
  simp only [authenticateJwt, Option.bind_some, hToken]
  cases hVerify : verify (sign payload expiresIn signedAt) now with
  | none => simp
  | some payload' =>
      obtain rfl := LawfulTokens.signed hVerify
      dsimp only
      rw [validate_blacklisted hListed]
      intro hUser
      cases hUser

omit [TokenRuntime] [PassportRuntime] [DecodeRuntime] [LawfulTokens] [LawfulPassport] [Runtime] in
theorem handleRequest_ok {message : String} {adminOnly : Bool}
    {result : Except Exn (Option RequestUser)} {user : RequestUser}
    (h : handleRequest message adminOnly result = .ok user) : result = .ok (some user) := by
  unfold handleRequest at h
  split at h
  · cases h
  · cases h
  · split at h
    · cases h
    · rw [Except.ok.inj h]

omit [DecodeRuntime] [LawfulPassport] in
/-- What the permission guard lets through: the cache plays no part in it. -/
theorem check_projectPermission (metadata : Option PermissionMetadata) (args : GuardArgs)
    (s : Store) (cache : Cache) (now : Int) :
    (RequestGuard.projectPermission metadata args).check s cache now
        (some ("Bearer " ++ sign payload expiresIn signedAt)) ≠ .ok () ↔
      (RequestGuard.projectPermission metadata args).TurnsAway s now
        (sign payload expiresIn signedAt) := by
  have hSpace := LawfulTokens.noSpace payload expiresIn signedAt
  simp only [RequestGuard.TurnsAway]
  cases hVerify : verify (sign payload expiresIn signedAt) now with
  | none =>
      have hRole : verifyRole now (sign payload expiresIn signedAt) = none := by
        rw [verifyRole, hVerify, Option.map_none]
      refine iff_of_true (fun hOk => ?_) fun _ hSome => by cases hSome
      simp only [RequestGuard.check, canActivate, authenticate_bearer _ hSpace, hRole] at hOk
      cases hOk
  | some payload' =>
      have hRole : verifyRole now (sign payload expiresIn signedAt) =
          some ⟨payload'.sub, some payload'.role⟩ := by
        rw [verifyRole, hVerify, Option.map_some]
      simp only [RequestGuard.check, canActivate, authenticate_bearer _ hSpace, hRole,
        Option.some.injEq, forall_eq']
      have hRefused := canActivateUser_refused ⟨payload'.sub, some payload'.role⟩ metadata args s
      simp only [ne_eq, Option.some.injEq] at hRefused
      rw [ne_eq payload'.role, ← hRefused]
      generalize ((canActivateUser _ metadata args).run s).1 = outcome
      rcases outcome with e | _ | _
      · simp
      · simp
      · simp

omit [DecodeRuntime] [LawfulTokens] [LawfulPassport] in
/-- A guard behind the strategy lets through what the strategy does. -/
theorem check_usesStrategy {guard : RequestGuard} (hStrategy : guard.usesStrategy = true)
    {s : Store} {cache : Cache} {now : Int} {authHeader : Option String}
    (h : guard.check s cache now authHeader = .ok ()) :
    ∃ user, authenticateJwt cache now authHeader = .ok (some user) := by
  have hHandle {message : String} {adminOnly : Bool}
      (h : (handleRequest message adminOnly (authenticateJwt cache now authHeader)).map
        (fun _ => ()) = .ok ()) :
      ∃ user, authenticateJwt cache now authHeader = .ok (some user) := by
    cases hResult : handleRequest message adminOnly (authenticateJwt cache now authHeader) with
    | error e =>
        rw [hResult] at h
        cases h
    | ok user => exact ⟨user, handleRequest_ok hResult⟩
  cases guard with
  | projectPermission metadata args => cases hStrategy
  | gqlUser | gqlAdmin | restAuth | restAdmin | jwtAuth => exact hHandle h

/-- **When a request after a logout is rejected.** In every run, a request that bears the token
of a session that has logged out, while the cache says so, is rejected by the guards that ask
the cache; the permission guard rejects it only if it would have rejected it anyway. -/
theorem logout_honoured {start s seen : Server} {events before between after : List ServerEvent}
    {token : String} {guard : RequestGuard} {outcome : Except Exn Unit}
    (hRun : ServerRun start events s)
    (hEvents : events =
      (before ++ .logout token :: between) ++ .request guard token seen outcome :: after)
    (hToken : token = sign payload expiresIn signedAt)
    (hListed : Blacklisted seen.cache seen.clock payload.jti) :
    outcome ≠ .ok () ↔
      guard.usesStrategy = true ∨ guard.TurnsAway seen.store seen.clock token := by
  rw [hRun.outcome hEvents, hToken]
  cases hStrategy : guard.usesStrategy with
  | true =>
      refine iff_of_true (fun hOk => ?_) (Or.inl rfl)
      obtain ⟨user, hUser⟩ := check_usesStrategy hStrategy hOk
      exact authenticateJwt_blacklisted hListed user hUser
  | false =>
      rw [or_iff_right Bool.false_ne_true]
      cases guard with
      | projectPermission metadata args => exact check_projectPermission metadata args _ _ _
      | gqlUser | gqlAdmin | restAuth | restAdmin | jwtAuth => cases hStrategy

end Checks

end Runs

section Site

attribute [local instance] asciiRuntime benTokens plainPassport

/-- The access token of the member expires after a quarter of an hour. -/
abbrev benDecode : DecodeRuntime where
  decode token := if token = "a" then some ⟨"0", 900⟩ else none

attribute [local instance] benDecode

/-- The member of the small site is logged in. -/
def loggedIn : Server := ⟨mintedSite, [], 1000⟩

def benLogout : Pool Unit Server Exn String :=
  Pool.start loggedIn fun _ => logout "a" ⟨1, "ben@site", "user", "0"⟩ ⟨1000, 1001, 1002, 1003⟩

/-- The state after the logout. -/
def loggedOut : Server := (benLogout.play [(), ()]).state

/-- The logout, and a request after it. -/
def afterLogout (guard : RequestGuard) : List ServerEvent :=
  [.logout "a"] ++ [.request guard "a" loggedOut
    (guard.check loggedOut.store loggedOut.cache loggedOut.clock (some ("Bearer " ++ "a")))]

theorem run_afterLogout (guard : RequestGuard) :
    ServerRun loggedIn (afterLogout guard) loggedOut := by
  have hLogout : ServerRun loggedIn ([] ++ [.logout "a"]) loggedOut :=
    .logout .nil rfl (Pool.reach_of_exec (Pool.reach_play benLogout [(), ()])) rfl
  exact .request guard loggedOut.store hLogout

theorem blacklisted_loggedOut : Blacklisted loggedOut.cache loggedOut.clock "0" :=
  ⟨by decide, by decide⟩

/-- The member's next query is rejected. -/
theorem logout_honoured_site :
    RequestGuard.gqlUser.check loggedOut.store loggedOut.cache loggedOut.clock
      (some ("Bearer " ++ "a")) ≠ .ok () := by
  have hTokens := lawful_benTokens
  have hPassport := lawful_plainPassport
  have hToken : "a" = sign (benClaims "access") "" 0 := by decide
  exact (@logout_honoured _ _ _ _ _ _ _ _ _ _ _ _ _ [] [] [] _ _ _
    (run_afterLogout .gqlUser) rfl hToken blacklisted_loggedOut).mpr (Or.inl rfl)

/-- The fields of the project are still open to the token, behind the permission guard. -/
theorem logout_ignored :
    ServerRun loggedIn (afterLogout (.projectPermission (some ⟨"PROJECT_FIELD", .view⟩)
        { projectId := some 1 })) loggedOut ∧
      Blacklisted loggedOut.cache loggedOut.clock "0" ∧
      (RequestGuard.projectPermission (some ⟨"PROJECT_FIELD", .view⟩)
        { projectId := some 1 }).check loggedOut.store loggedOut.cache loggedOut.clock
          (some ("Bearer " ++ "a")) = .ok () :=
  ⟨run_afterLogout _, blacklisted_loggedOut, by decide +kernel⟩

end Site

end Rooeel
