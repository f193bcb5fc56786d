import Rooeel.Access.Guard
import Rooeel.Auth.Refresh
import Mathlib.Data.List.TakeWhile

/-!
# The guards of the requests

Five guards authenticate a request through `JwtStrategy`, which verifies the bearer token and
asks the cache whether the token has been revoked. `ProjectPermissionGuard` verifies the token
on its own. Neither looks at the type of the token.

The signing library and the header parser of the strategy are parameters; what is assumed of
them is in `LawfulTokens` and `LawfulPassport`. The cache is an object of entries with the
time, in milliseconds, at which they expire.
-/

namespace Rooeel

open JavaScript TokenRuntime

/-! ## The cache -/

/-- The keys that are set to `true`, and when they expire. -/
abbrev Cache := Record Int

/-- `cacheManager.get` at a time. -/
def Cache.isLive (cache : Cache) (key : String) (now : Int) : Bool :=
  (Record.get cache key).any fun expiresAt => now < expiresAt

/-- `cacheManager.set` with a time to live, at a time. -/
def Cache.setFor (cache : Cache) (key : String) (ttl now : Int) : Cache :=
  Record.set cache key (now + ttl)

/-- The entry that revokes the tokens with a random id. -/
def blacklistKey (jti : String) : String := "blacklist:" ++ jti

/-! ## What the libraries promise -/

/-- Verification accepts only tokens that were signed with the secret, and returns the claims
that were signed. Tokens are made of letters, digits, dashes, underscores and dots. -/
class LawfulTokens [TokenRuntime] : Prop where
  issued : ∀ {token now payload}, verify token now = some payload →
    ∃ expiresIn signedAt, token = sign payload expiresIn signedAt
  signed : ∀ {payload expiresIn signedAt now payload'},
    verify (sign payload expiresIn signedAt) now = some payload' → payload' = payload
  noSpace : ∀ payload expiresIn signedAt,
    ∀ c ∈ (sign payload expiresIn signedAt).toList, isSpace c = false
  nonempty : ∀ payload expiresIn signedAt, sign payload expiresIn signedAt ≠ ""

/-- Verification accepts exactly the unexpired tokens, so the moments before the expiry of a
token are those at which it verifies. -/
def Unexpired [TokenRuntime] (token : String) (now : Int) : Prop :=
  (verify token now).isSome = true

instance [TokenRuntime] (token : String) (now : Int) : Decidable (Unexpired token now) :=
  inferInstanceAs (Decidable (_ = true))

class PassportRuntime where
  /-- `ExtractJwt.fromAuthHeaderAsBearerToken()`. -/
  fromAuthHeaderAsBearerToken : String → Option String

/-- A header is the scheme and a token, with space in between. -/
class LawfulPassport [PassportRuntime] : Prop where
  bearer : ∀ {token : String}, token ≠ "" → (∀ c ∈ token.toList, isSpace c = false) →
    PassportRuntime.fromAuthHeaderAsBearerToken ("Bearer " ++ token) = some token

/-! ## The strategy -/

/-- The `user` object of a request behind the strategy. -/
structure RequestUser where
  userId : Id
  email : String
  role : String
  jti : String
  deriving DecidableEq

section Code

variable [TokenRuntime] [PassportRuntime]

omit [TokenRuntime] [PassportRuntime] in
/-- `JwtStrategy.validate`. -/
def validate (cache : Cache) (now : Int) (payload : Payload) : Except Exn RequestUser :=
  if payload.jti ≠ "" ∧ cache.isLive (blacklistKey payload.jti) now = true then
    .error (.unauthorized "Token has been revoked")
  else
    .ok { userId := payload.sub, email := payload.email, role := payload.role, jti := payload.jti }

/-- The strategy, as far as `handleRequest`: no user when there is no valid token. -/
def authenticateJwt (cache : Cache) (now : Int) (authHeader : Option String) :
    Except Exn (Option RequestUser) :=
  match authHeader.bind PassportRuntime.fromAuthHeaderAsBearerToken with
  | none => .ok none
  | some token =>
    match verify token now with
    | none => .ok none
    | some payload => (validate cache now payload).map some

omit [TokenRuntime] [PassportRuntime] in
/-- The `handleRequest` methods: an error of the strategy is thrown as it is. -/
def handleRequest (message : String) (adminOnly : Bool) :
    Except Exn (Option RequestUser) → Except Exn RequestUser
  | .error e => .error e
  | .ok none => .error (.unauthorized message)
  | .ok (some user) =>
    if adminOnly = true ∧ user.role ≠ "admin" then .error (.forbidden "Admin access required")
    else .ok user

omit [TokenRuntime] [PassportRuntime] in
def GqlUserGuard.handleRequest := Rooeel.handleRequest "Authentication required" false

omit [TokenRuntime] [PassportRuntime] in
def GqlAdminGuard.handleRequest := Rooeel.handleRequest "Authentication required" true

omit [TokenRuntime] [PassportRuntime] in
def RestAuthGuard.handleRequest :=
  Rooeel.handleRequest "Authentication required for REST resource" false

omit [TokenRuntime] [PassportRuntime] in
def RestAdminGuard.handleRequest := Rooeel.handleRequest "Authentication required" true

omit [TokenRuntime] [PassportRuntime] in
/-- The method of the base class. -/
def JwtAuthGuard.handleRequest := Rooeel.handleRequest "Unauthorized" false

/-! ## The guards -/

/-- The guard in front of an operation. That of `ProjectPermissionGuard` comes with the
annotation and the arguments of the resolver. -/
inductive RequestGuard where
  | gqlUser
  | gqlAdmin
  | restAuth
  | restAdmin
  | jwtAuth
  | projectPermission (metadata : Option PermissionMetadata) (args : GuardArgs)

/-- The guard authenticates through `JwtStrategy`. -/
def RequestGuard.usesStrategy : RequestGuard → Bool
  | .projectPermission _ _ => false
  | _ => true

/-- `jwtService.verify` as `ProjectPermissionGuard` uses it. -/
def verifyRole (now : Int) (token : String) : Option JwtPayload :=
  (verify token now).map fun payload => ⟨payload.sub, some payload.role⟩

/-- The outcome of a guard. -/
def RequestGuard.check [Runtime] (guard : RequestGuard) (s : Store) (cache : Cache) (now : Int)
    (authHeader : Option String) : Except Exn Unit :=
  let user := authenticateJwt cache now authHeader
  match guard with
  | .gqlUser => (GqlUserGuard.handleRequest user).map fun _ => ()
  | .gqlAdmin => (GqlAdminGuard.handleRequest user).map fun _ => ()
  | .restAuth => (RestAuthGuard.handleRequest user).map fun _ => ()
  | .restAdmin => (RestAdminGuard.handleRequest user).map fun _ => ()
  | .jwtAuth => (JwtAuthGuard.handleRequest user).map fun _ => ()
  | .projectPermission metadata args =>
    match ((canActivate (verifyRole now) authHeader metadata args).run s).1 with
    | .error e => .error e
    | .ok true => .ok ()
    | .ok false => .error (.forbidden "Forbidden resource")

/-! ## Who is authenticated -/

omit [TokenRuntime] [PassportRuntime] in
/-- The guard does not take the credential. -/
def Refused (outcome : Except Exn Unit) : Prop :=
  ∃ message, outcome = .error (.unauthorized message)

omit [TokenRuntime] [PassportRuntime] in
/-- The token of the payload has been revoked, and the cache still says so. -/
def Blacklisted (cache : Cache) (now : Int) (jti : String) : Prop :=
  jti ≠ "" ∧ cache.isLive (blacklistKey jti) now = true

omit [TokenRuntime] [PassportRuntime] in
theorem validate_blacklisted {cache : Cache} {now : Int} {payload : Payload}
    (h : Blacklisted cache now payload.jti) :
    validate cache now payload = .error (.unauthorized "Token has been revoked") :=
  if_pos h

omit [PassportRuntime] in
theorem verified_noSpace [LawfulTokens] {token : String} {now : Int} {payload : Payload}
    (h : verify token now = some payload) :
    token ≠ "" ∧ ∀ c ∈ token.toList, isSpace c = false := by
  obtain ⟨expiresIn, signedAt, rfl⟩ := LawfulTokens.issued h
  exact ⟨LawfulTokens.nonempty _ _ _, LawfulTokens.noSpace _ _ _⟩

/-- A request that bears a valid token reaches `validate`. -/
theorem authenticateJwt_bearer [LawfulTokens] [LawfulPassport] (cache : Cache) {token : String}
    {now : Int} {payload : Payload} (h : verify token now = some payload) :
    authenticateJwt cache now (some ("Bearer " ++ token)) =
      (validate cache now payload).map some := by
  obtain ⟨hNonempty, hSpace⟩ := verified_noSpace h
  simp only [authenticateJwt, Option.bind_some, LawfulPassport.bearer hNonempty hSpace, h]

omit [TokenRuntime] [PassportRuntime] in
/-- A valid token is refused when it is blacklisted. -/
theorem refused_handleRequest (message : String) (adminOnly : Bool) (cache : Cache) (now : Int)
    (payload : Payload) :
    Refused ((handleRequest message adminOnly ((validate cache now payload).map some)).map
      fun _ => ()) ↔ Blacklisted cache now payload.jti := by
  unfold validate
  split_ifs with hListed
  · exact iff_of_true ⟨_, rfl⟩ hListed
  · refine iff_of_false ?_ hListed
    rintro ⟨other, hRefused⟩
    simp only [Except.map, handleRequest] at hRefused
    split_ifs at hRefused
    all_goals cases hRefused

omit [TokenRuntime] [PassportRuntime] in
/-- The second word of a header is the token. -/
theorem bearerToken_bearer {token : String} (hSpace : ∀ c ∈ token.toList, isSpace c = false) :
    bearerToken ("Bearer " ++ token) = token := by
  have hTake : token.toList.takeWhile (fun c => c != ' ') = token.toList := by
    refine List.takeWhile_eq_self_iff.mpr fun c hc => bne_iff_ne.mpr ?_
    rintro rfl
    exact absurd (hSpace _ hc) (by decide)
  have hDrop : ("Bearer ".toList ++ token.toList).drop 7 = token.toList := rfl
  rw [bearerToken, String.toList_append, hDrop, hTake, String.ofList_toList]

omit [TokenRuntime] [PassportRuntime] in
theorem startsWith_bearer (token : String) : ("Bearer " ++ token).startsWith "Bearer " = true := by
  rw [String.startsWith_string_iff, String.toList_append]
  exact List.prefix_append _ _

omit [TokenRuntime] [PassportRuntime] in
/-- The permission guard reads the token behind the scheme. -/
theorem authenticate_bearer (verify : String → Option JwtPayload) {token : String}
    (hSpace : ∀ c ∈ token.toList, isSpace c = false) :
    authenticate verify (some ("Bearer " ++ token)) =
      match verify token with
      | none => .error (.unauthorized "Invalid token")
      | some payload => .ok ⟨payload.sub, payload.role⟩ := by
  cases hVerify : verify token with
  | none =>
      simp only [authenticate, startsWith_bearer, Bool.not_true, Bool.false_eq_true, if_false,
        bearerToken_bearer hSpace, hVerify]
  | some payload =>
      simp only [authenticate, startsWith_bearer, Bool.not_true, Bool.false_eq_true, if_false,
        bearerToken_bearer hSpace, hVerify]

omit [TokenRuntime] [PassportRuntime] in
/-- The rows of a member permit or forbid. -/
theorem evaluate_not_refused [Runtime] (member : GuardMember) (metadata : PermissionMetadata)
    (message : String) : member.evaluate metadata ≠ .error (.unauthorized message) := by
  intro hThrow
  unfold GuardMember.evaluate evaluatePermission at hThrow
  dsimp only at hThrow
  split_ifs at hThrow
  all_goals cases hThrow

omit [TokenRuntime] [PassportRuntime] in
/-- After authentication the permission guard forbids, it does not refuse. -/
theorem canActivateUser_not_refused [Runtime] (user : Viewer)
    (metadata : Option PermissionMetadata) (args : GuardArgs) (s : Store) (message : String) :
    ((canActivateUser user metadata args).run s).1 ≠ .error (.unauthorized message) := by
  intro hThrow
  unfold canActivateUser at hThrow
  split at hThrow
  · cases hThrow
  · cases metadata with
    | none => cases hThrow
    | some metadata =>
        dsimp only at hThrow
        rw [Prog.run_bind_ok (resolveProjectId_run s metadata args), Prog.throwIf_bind] at hThrow
        split at hThrow
        · cases hThrow
        · rw [query_bind_run] at hThrow
          cases hMember : guardMember s ((projectIdOf s metadata args).getD 0) user.userId
              metadata.resourceKey with
          | none =>
              rw [hMember] at hThrow
              cases hThrow
          | some member =>
              rw [hMember] at hThrow
              have hDecision := evaluate_not_refused member metadata message
              dsimp only at hThrow
              cases hResult : member.evaluate metadata with
              | ok allowed =>
                  rw [hResult] at hThrow
                  cases hThrow
              | error e =>
                  rw [hResult] at hThrow hDecision
                  exact hDecision hThrow

/-- **Which guards refuse a valid token**: those behind the strategy, when it is blacklisted. -/
theorem check_refused [Runtime] [LawfulTokens] [LawfulPassport] (guard : RequestGuard) (s : Store)
    (cache : Cache) {token : String} {now : Int} {payload : Payload}
    (h : verify token now = some payload) :
    Refused (guard.check s cache now (some ("Bearer " ++ token))) ↔
      guard.usesStrategy = true ∧ Blacklisted cache now payload.jti := by
  cases guard with
  | projectPermission metadata args =>
      refine iff_of_false ?_ (fun hStrategy => Bool.false_ne_true hStrategy.1)
      rintro ⟨message, hRefused⟩
      have hRole : verifyRole now token = some ⟨payload.sub, some payload.role⟩ := by
        rw [verifyRole, h, Option.map_some]
      have hForbids := canActivateUser_not_refused ⟨payload.sub, some payload.role⟩ metadata args s
        message
      simp only [RequestGuard.check, canActivate,
        authenticate_bearer _ (verified_noSpace h).2, hRole] at hRefused
      split at hRefused
      · rename_i e hError
        cases hRefused
        exact hForbids hError
      all_goals cases hRefused
  | gqlUser | gqlAdmin | restAuth | restAdmin | jwtAuth =>
      simp only [RequestGuard.usesStrategy, true_and]
      rw [RequestGuard.check, authenticateJwt_bearer cache h]
      exact refused_handleRequest _ _ cache now payload

/-- **When a refresh token does not authenticate a request.** It carries the random id of its
access token, and is refused as long as the cache says that the session has ended, by the
guards that ask the cache. Its type is not looked at, nor is its row. -/
theorem refresh_token_refused [Runtime] [LawfulTokens] [LawfulPassport]
    {call : AuthService.RefreshCall} {user : AuthService.TokenUser} {s₀ s₁ : Store}
    {pair : AuthService.TokenPair}
    (hMint : (AuthService.generateTokens call user).run s₀ = (.ok pair, s₁)) {now : Int}
    (hUnexpired : Unexpired pair.refreshToken now) (guard : RequestGuard) (s : Store)
    (cache : Cache) :
    Refused (guard.check s cache now (some ("Bearer " ++ pair.refreshToken))) ↔
      guard.usesStrategy = true ∧ Blacklisted cache now call.jti := by
  obtain ⟨payload, hVerify⟩ := Option.isSome_iff_exists.mp hUnexpired
  have hClaims : payload = AuthService.claims call user "refresh" := by
    rw [(AuthService.generateTokens_ok hMint).1] at hVerify
    exact LawfulTokens.signed hVerify
  rw [check_refused guard s cache hVerify, hClaims]
  rfl

end Code

section Site

attribute [local instance] asciiRuntime

/-- The claims of the tokens of the member of the small site. -/
def benClaims (type : String) : Payload := ⟨1, "ben@site", "user", "0", type⟩

/-- Signing for one session: the access token is valid for a quarter of an hour, the refresh
token for a week. -/
abbrev benTokens : TokenRuntime where
  verify token now :=
    if token = "a" ∧ now < 900000 then some (benClaims "access")
    else if token = "r" ∧ now < 604800000 then some (benClaims "refresh")
    else none
  sign payload _ _ :=
    if payload = benClaims "access" then "a" else if payload = benClaims "refresh" then "r" else "x"
  sha256 token := "#" ++ token
  jwtAccessExpiry := none
  jwtRefreshExpiry := none

abbrev plainPassport : PassportRuntime where
  fromAuthHeaderAsBearerToken header := some (bearerToken header)

attribute [local instance] benTokens plainPassport

theorem lawful_benTokens : LawfulTokens where
  issued := by
    intro token now payload h
    simp only [verify] at h
    split_ifs at h with hAccess hRefresh
    · obtain rfl := Option.some.inj h
      exact ⟨"", 0, hAccess.1⟩
    · obtain rfl := Option.some.inj h
      exact ⟨"", 0, hRefresh.1⟩
  signed := by
    intro payload expiresIn signedAt now payload' h
    simp only [verify, sign] at h
    split_ifs at h with hAccess hRefresh
    all_goals simp_all
  noSpace := by
    intro payload expiresIn signedAt c hc
    simp only [sign] at hc
    split_ifs at hc
    all_goals
      obtain rfl := List.mem_singleton.mp hc
      rfl
  nonempty := by
    intro payload expiresIn signedAt
    simp only [sign]
    split_ifs <;> decide

theorem lawful_plainPassport : LawfulPassport where
  bearer := fun _ hSpace => congrArg some (bearerToken_bearer hSpace)

/-- The session of the member. -/
def benCall : AuthService.RefreshCall := ⟨"0", 0, 0, 0, 0, 0, 0, 0⟩

def benUser : AuthService.TokenUser := ⟨1, "ben@site", "user"⟩

/-- The store after the member has logged in. -/
def mintedSite : Store := ((AuthService.generateTokens benCall benUser).run site).2

/-- After the member has logged out, its refresh token is refused for some time. -/
theorem refresh_token_refused_site :
    ∃ pair, (AuthService.generateTokens benCall benUser).run site = (.ok pair, mintedSite) ∧
      Refused (RequestGuard.gqlUser.check mintedSite [(blacklistKey "0", 900000)] 1000
        (some ("Bearer " ++ pair.refreshToken))) := by
  have hTokens := lawful_benTokens
  have hPassport := lawful_plainPassport
  have hMint : (AuthService.generateTokens benCall benUser).run site =
    (.ok (AuthService.issuedPair benCall benUser), mintedSite) := rfl
  have hListed : Blacklisted [(blacklistKey "0", 900000)] 1000 benCall.jti :=
    ⟨by decide, by decide⟩
  exact ⟨_, hMint, (refresh_token_refused hMint (by decide) .gqlUser _ _).mpr ⟨rfl, hListed⟩⟩

/-- Without a logout the refresh token is as good as the access token, for a week. -/
theorem refresh_token_accepted :
    ∃ pair, (AuthService.generateTokens benCall benUser).run site = (.ok pair, mintedSite) ∧
      Unexpired pair.refreshToken 604799999 ∧
      RequestGuard.gqlUser.check mintedSite [] 604799999 (some ("Bearer " ++ pair.refreshToken)) =
        .ok () := by
  refine ⟨AuthService.issuedPair benCall benUser, rfl, by decide, ?_⟩
  decide

end Site

end Rooeel
