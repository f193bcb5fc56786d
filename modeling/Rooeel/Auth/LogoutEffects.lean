import Rooeel.Auth.Logout

/-!
# What a logout does

A logout answers with its message whatever happens. This module is about what it has done by
then: for how long the session is blacklisted (`blacklist_covers_token`), which rows have been
revoked (`logout_revokes_only`), and what is left undone when the cache or the database fails
(`logout_reported`).
-/

namespace Rooeel

open JavaScript TokenRuntime Prog

section Code

variable [DecodeRuntime]

/-! ## The two effects -/

/-- The session is blacklisted when its token has a random id and a second left. -/
def LastsFor (accessToken jti : String) (now : Int) : Prop :=
  accessToken ≠ "" ∧ jti ≠ "" ∧ ∃ decoded, DecodeRuntime.decode accessToken = some decoded ∧
    decoded.jti = jti ∧ now + 1000 ≤ decoded.exp * 1000

/-- How long the session is blacklisted: until the last whole second of its token. -/
theorem blacklistTtl_of_decode {accessToken : String} {user : RequestUser} {now : Int}
    {decoded : DecodedToken} (hToken : accessToken ≠ "") (hUser : user.jti ≠ "")
    (hDecode : DecodeRuntime.decode accessToken = some decoded) (hJti : decoded.jti ≠ "")
    (hLeft : now + 1000 ≤ decoded.exp * 1000) :
    blacklistTtl accessToken user now = some ((decoded.exp * 1000 - now) / 1000) := by
  have hPositive : 0 < (decoded.exp * 1000 - now) / 1000 := by omega
  have hMax : max 0 ((decoded.exp * 1000 - now) / 1000) = (decoded.exp * 1000 - now) / 1000 := by
    omega
  simp only [blacklistTtl, hToken, hUser, or_self, if_false, hDecode, hMax]
  rw [if_pos ⟨hJti, hPositive⟩]

theorem blacklistTtl_pos {accessToken : String} {user : RequestUser} {now ttl : Int}
    (h : blacklistTtl accessToken user now = some ttl) : 0 < ttl := by
  unfold blacklistTtl at h
  split at h
  · cases h
  · split at h
    · cases h
    · dsimp only at h
      split_ifs at h with hSet
      rw [← Option.some.inj h]
      exact hSet.2

/-- A token in its last second is not blacklisted. -/
theorem blacklistTtl_of_expiring {accessToken : String} {user : RequestUser} {now : Int}
    {decoded : DecodedToken} (hDecode : DecodeRuntime.decode accessToken = some decoded)
    (hLeft : decoded.exp * 1000 < now + 1000) : blacklistTtl accessToken user now = none := by
  unfold blacklistTtl
  split
  · rfl
  · simp only [hDecode]
    refine if_neg fun hSet => ?_
    have hPositive := hSet.2
    omega

/-- The state after the cache has been written. -/
def blacklisted (accessToken : String) (user : RequestUser) (call : LogoutCall) (s : Server) :
    Server :=
  (blacklistTtl accessToken user call.now).elim s fun ttl =>
    { s with cache := s.cache.setFor (blacklistKey user.jti) (ttl * 1000) call.setAt }

omit [DecodeRuntime] in
/-- The state after the rows have been written. -/
def revoked (user : RequestUser) (call : LogoutCall) (s : Server) : Server :=
  if user.userId ≠ 0 then
    { s with store :=
      { s.store with
        refreshToken := s.store.refreshToken.modify (fun r => r.userId == user.userId)
          (fun r => r.revoke call.revokedAt call.markedAt) fun _ => rfl } }
  else s

omit [DecodeRuntime] in
theorem revoked_cache (user : RequestUser) (call : LogoutCall) (s : Server) :
    (revoked user call s).cache = s.cache := by
  unfold revoked
  split_ifs <;> rfl

/-- The entry is live until its time is over. -/
theorem blacklisted_iff {accessToken : String} {user : RequestUser} {call : LogoutCall}
    {ttl : Int} (hTtl : blacklistTtl accessToken user call.now = some ttl) (hUser : user.jti ≠ "")
    (s : Server) (now : Int) :
    Blacklisted (blacklisted accessToken user call s).cache now user.jti ↔
      now < call.setAt + ttl * 1000 := by
  rw [Blacklisted, and_iff_right hUser, blacklisted, hTtl, Option.elim_some, Cache.isLive,
    Cache.setFor, Record.get_set_self, Option.any_some, decide_eq_true_eq]

/-- A logout in a state in which everything works. -/
theorem logout_run_eq (accessToken : String) (user : RequestUser) (call : LogoutCall)
    (s : Server) :
    (logout accessToken user call).run s =
      (.ok "Logout successful", revoked user call (blacklisted accessToken user call s)) := by
  unfold logout revoked blacklisted
  cases blacklistTtl accessToken user call.now with
  | none =>
      dsimp only [Option.elim_none]
      split_ifs <;> rfl
  | some ttl =>
      dsimp only [Option.elim_some]
      split_ifs <;> rfl

/-! ## The life of the token -/

section Lifetime

variable [TokenRuntime] [PassportRuntime] [LawfulTokens] [LawfulPassport]

omit [DecodeRuntime] in
/-- A request that bears the token, at a time when it may have expired. -/
theorem authenticateJwt_eq {token : String} {validAt : Int} {payload : Payload}
    (hValid : verify token validAt = some payload) (cache : Cache) (now : Int) :
    authenticateJwt cache now (some ("Bearer " ++ token)) =
      (verify token now).elim (.ok none) fun payload => (validate cache now payload).map some := by
  obtain ⟨hNonempty, hSpace⟩ := verified_noSpace hValid
  simp only [authenticateJwt, Option.bind_some, LawfulPassport.bearer hNonempty hSpace]
  cases verify token now <;> rfl

omit [DecodeRuntime] [TokenRuntime] [PassportRuntime] [LawfulTokens] [LawfulPassport] in
theorem validate_accepted {cache : Cache} {now : Int} {payload : Payload}
    (h : ¬ Blacklisted cache now payload.jti) :
    validate cache now payload = .ok
      { userId := payload.sub, email := payload.email, role := payload.role, jti := payload.jti } :=
  if_neg h

omit [DecodeRuntime] in
/-- The strategy accepts a token that is valid and not blacklisted. -/
theorem accepts_iff {token : String} {exp : Int} {payload : Payload}
    (hVerify : ∀ now, verify token now = if now / 1000 < exp then some payload else none)
    (cache : Cache) (now : Int) :
    (∃ user, authenticateJwt cache now (some ("Bearer " ++ token)) = .ok (some user)) ↔
      now / 1000 < exp ∧ ¬ Blacklisted cache now payload.jti := by
  have hLast : verify token (exp * 1000 - 1) = some payload := by
    rw [hVerify, if_pos (by omega)]
  rw [authenticateJwt_eq hLast, hVerify now]
  by_cases hLive : now / 1000 < exp
  · rw [if_pos hLive, and_iff_right hLive, Option.elim_some]
    by_cases hListed : Blacklisted cache now payload.jti
    · rw [validate_blacklisted hListed]
      exact iff_of_false (fun ⟨_, hUser⟩ => by cases hUser) (not_not.mpr hListed)
    · rw [validate_accepted hListed]
      exact iff_of_true ⟨_, rfl⟩ hListed
  · rw [if_neg hLive]
    exact iff_of_false (fun ⟨_, hUser⟩ => by cases hUser) fun hAccepted => hLive hAccepted.1

omit [DecodeRuntime] in
/-- The user of a request is what the token says. -/
theorem accepted_jti {token : String} {exp : Int} {payload : Payload} {user : RequestUser}
    (hVerify : ∀ now, verify token now = if now / 1000 < exp then some payload else none)
    {cache : Cache} {now : Int}
    (hUser : authenticateJwt cache now (some ("Bearer " ++ token)) = .ok (some user)) :
    user.jti = payload.jti := by
  obtain ⟨hLive, hListed⟩ := (accepts_iff hVerify cache now).mp ⟨user, hUser⟩
  have hValid : verify token now = some payload := by rw [hVerify, if_pos hLive]
  rw [authenticateJwt_bearer cache hValid, validate_accepted hListed] at hUser
  rw [← Option.some.inj (Except.ok.inj hUser)]

/-- **When the blacklist covers the life of the token.** The time to live is rounded down to
seconds, so the entry reaches the expiry of the token when the logout happens at a whole
second; otherwise the token is good again for the rest of its last second. -/
theorem blacklist_covers_token {s s' : Server} {token message : String}
    {exp t revokedAt updatedAt : Int} {payload : Payload} {user : RequestUser}
    (hVerify : ∀ now, verify token now = if now / 1000 < exp then some payload else none)
    (hDecode : DecodeRuntime.decode token = some ⟨payload.jti, exp⟩)
    (hUser : authenticateJwt s.cache t (some ("Bearer " ++ token)) = .ok (some user))
    (hLogout : (logout token user ⟨t, t, revokedAt, updatedAt⟩).run s = (.ok message, s')) :
    (∀ t', t ≤ t' → ∀ accepted,
        authenticateJwt s'.cache t' (some ("Bearer " ++ token)) ≠ .ok (some accepted)) ↔
      payload.jti ≠ "" ∧ t % 1000 = 0 := by
  obtain ⟨hLive, hListed⟩ := (accepts_iff hVerify s.cache t).mp ⟨user, hUser⟩
  have hJti := accepted_jti hVerify hUser
  have hToken : token ≠ "" := by
    have hValid : verify token t = some payload := by rw [hVerify, if_pos hLive]
    exact (verified_noSpace hValid).1
  rw [logout_run_eq] at hLogout
  obtain rfl := (Prod.mk.inj hLogout).2
  have hAccepted (t' : Int) :
      (∀ accepted, authenticateJwt (revoked user ⟨t, t, revokedAt, updatedAt⟩
        (blacklisted token user ⟨t, t, revokedAt, updatedAt⟩ s)).cache t'
          (some ("Bearer " ++ token)) ≠ .ok (some accepted)) ↔
        (t' / 1000 < exp →
          Blacklisted (blacklisted token user ⟨t, t, revokedAt, updatedAt⟩ s).cache t'
            payload.jti) := by
    rw [revoked_cache, ← not_exists, accepts_iff hVerify, not_and, not_not]
  simp only [hAccepted]
  by_cases hName : payload.jti = ""
  · -- a token without a random id is not blacklisted
    refine iff_of_false (fun h => ?_) fun h => h.1 hName
    exact (h t (Int.le_refl t) hLive).1 hName
  rw [and_iff_right hName, ← hJti]
  have hName' : user.jti ≠ "" := hJti ▸ hName
  by_cases hLeft : t + 1000 ≤ exp * 1000
  · have hTtl : blacklistTtl token user t = some ((exp * 1000 - t) / 1000) :=
      blacklistTtl_of_decode hToken hName' hDecode hName hLeft
    have hEntry := @blacklisted_iff _ token user ⟨t, t, revokedAt, updatedAt⟩ _ hTtl hName' s
    dsimp only at hEntry
    simp only [hEntry]
    constructor
    · intro h
      -- the last millisecond at which the token verifies
      have hLast := h (exp * 1000 - 1) (by omega) (by omega)
      omega
    · intro hWhole t' hLater hVerifies
      omega
  · have hTtl : blacklistTtl token user t = none :=
      blacklistTtl_of_expiring hDecode (Int.not_le.mp hLeft)
    have hSame : blacklisted token user ⟨t, t, revokedAt, updatedAt⟩ s = s := by
      rw [blacklisted, hTtl, Option.elim_none]
    rw [hSame]
    refine iff_of_false (fun h => ?_) (by omega)
    exact hListed (hJti ▸ h t (Int.le_refl t) hLive)

end Lifetime

/-! ## The rows -/

omit [DecodeRuntime] in
theorem blacklisted_store [DecodeRuntime] (accessToken : String) (user : RequestUser)
    (call : LogoutCall) (s : Server) : (blacklisted accessToken user call s).store = s.store := by
  unfold blacklisted
  cases blacklistTtl accessToken user call.now <;> rfl

omit [DecodeRuntime] in
/-- The row carries the times that the logout writes. -/
def LogoutCall.MarkedAlready (call : LogoutCall) (r : RefreshToken) : Prop :=
  r.revokedAt = some call.revokedAt ∧ r.updatedAt = call.markedAt

omit [DecodeRuntime] in
theorem revoke_eq_self_iff {call : LogoutCall} {r : RefreshToken} :
    r.revoke call.revokedAt call.markedAt = r ↔ call.MarkedAlready r := by
  constructor
  · intro hSame
    exact ⟨by rw [← hSame], by rw [← hSame]⟩
  · rintro ⟨hRevoked, hUpdated⟩
    rw [RefreshToken.revoke, ← hRevoked, ← hUpdated]

omit [DecodeRuntime] in
/-- A row that is found as it was: it is not of the user, or it carries the same times. -/
theorem revoked_find {user : RequestUser} {call : LogoutCall} {s : Server} {r : RefreshToken}
    (hr : r ∈ s.store.refreshToken.rows) :
    (revoked user call s).store.refreshToken.find r.id = some r ↔
      (user.userId ≠ 0 → r.userId = user.userId → call.MarkedAlready r) := by
  unfold revoked
  split_ifs with hId
  · have hFind := Table.find_modify_self (fun r => r.userId == user.userId)
      (fun r => r.revoke call.revokedAt call.markedAt) (fun _ => rfl) hr
    rw [beq_iff_eq, revoke_eq_self_iff] at hFind
    exact hFind.trans ⟨fun h _ => h, fun h => h hId⟩
  · exact iff_of_true (Table.find_eq_some.mpr ⟨hr, rfl⟩) fun hNot => absurd hNot hId

/-- **When a logout revokes only the sessions of the caller.** The rows are selected by the id
alone, so there must be no row of another kind of account with the same id, except rows that
carry the same times already. -/
theorem logout_revokes_only {s s' : Server} {accessToken message : String} {user : RequestUser}
    {call : LogoutCall} (hLogout : (logout accessToken user call).run s = (.ok message, s')) :
    (∀ r ∈ s.store.refreshToken.rows, (r.userType, r.userId) ≠ (user.role, user.userId) →
        s'.store.refreshToken.find r.id = some r) ↔
      user.userId = 0 ∨ ∀ r ∈ s.store.refreshToken.rows, r.userId = user.userId →
        r.userType ≠ user.role → call.MarkedAlready r := by
  rw [logout_run_eq] at hLogout
  obtain rfl := (Prod.mk.inj hLogout).2
  have hStore := blacklisted_store accessToken user call s
  rw [← hStore, or_iff_not_imp_left]
  constructor
  · intro h hId r hr hUser hType
    have hApart : (r.userType, r.userId) ≠ (user.role, user.userId) :=
      fun hSame => hType (congrArg Prod.fst hSame)
    exact (revoked_find hr).mp (h r hr hApart) hId hUser
  · intro h r hr hApart
    refine (revoked_find hr).mpr fun hId hUser => h hId r hr hUser fun hType => hApart ?_
    rw [hType, hUser]

/-! ## What is left undone -/

/-- The errors of the statements of a logout, in the order of the statements. -/
def logoutFaults (accessToken : String) (user : RequestUser) (call : LogoutCall)
    (cacheError databaseError : Option Exn) : List (Option Exn) :=
  (blacklistTtl accessToken user call.now).elim [databaseError] fun _ =>
    [cacheError, databaseError]

/-- An error of the cache also keeps the rows from being written. -/
theorem logout_runWith (accessToken : String) (user : RequestUser) (call : LogoutCall)
    (cacheError databaseError : Option Exn) (s : Server) :
    (logout accessToken user call).runWith
        (logoutFaults accessToken user call cacheError databaseError) s =
      (.ok "Logout successful",
        if (blacklistTtl accessToken user call.now).isSome = true ∧ cacheError.isSome = true then s
        else if databaseError.isSome = true then blacklisted accessToken user call s
        else revoked user call (blacklisted accessToken user call s)) := by
  by_cases hId : user.userId ≠ 0
  · simp only [logout, logoutFaults, revoked, blacklisted, if_pos hId]
    cases blacklistTtl accessToken user call.now with
    | none => cases databaseError <;> rfl
    | some ttl => cases cacheError <;> cases databaseError <;> rfl
  · simp only [logout, logoutFaults, revoked, blacklisted, if_neg hId]
    cases blacklistTtl accessToken user call.now with
    | none => cases databaseError <;> rfl
    | some ttl => cases cacheError <;> cases databaseError <;> rfl

omit [DecodeRuntime] in
/-- All rows of the account are revoked. -/
def SessionsRevoked (user : RequestUser) (s : Server) : Prop :=
  ∀ r ∈ s.store.refreshToken.rows, r.userType = user.role → r.userId = user.userId →
    r.revokedAt.isSome = true

omit [DecodeRuntime] in
theorem sessionsRevoked_revoked {user : RequestUser} {call : LogoutCall} {s : Server} :
    SessionsRevoked user (revoked user call s) ↔ user.userId ≠ 0 ∨ SessionsRevoked user s := by
  unfold revoked
  split_ifs with hId
  · refine iff_of_true ?_ (Or.inl hId)
    intro r hr _ hUser
    obtain ⟨x, -, rfl⟩ := List.mem_map.mp hr
    split at hUser
    · rename_i hx
      rw [if_pos hx]
      rfl
    · rename_i hx
      exact absurd (beq_iff_eq.mpr hUser) hx
  · rw [or_iff_right hId]

/-- The cache write is attempted when the token lasts. -/
theorem LastsFor.ttl {accessToken : String} {user : RequestUser} {now : Int}
    (h : LastsFor accessToken user.jti now) :
    (blacklistTtl accessToken user now).isSome = true := by
  obtain ⟨hToken, hUser, decoded, hDecode, hJti, hLeft⟩ := h
  rw [blacklistTtl_of_decode hToken hUser hDecode (hJti ▸ hUser) hLeft, Option.isSome_some]

/-- The entry is there right after it has been written. -/
theorem LastsFor.blacklisted {accessToken : String} {user : RequestUser} {call : LogoutCall}
    (h : LastsFor accessToken user.jti call.now) (s : Server) :
    Blacklisted (blacklisted accessToken user call s).cache call.setAt user.jti := by
  obtain ⟨ttl, hTtl⟩ := Option.isSome_iff_exists.mp h.ttl
  have hPos := blacklistTtl_pos hTtl
  rw [blacklisted_iff hTtl h.2.1]
  omega

/-- **When a reported logout has happened.** The message is the same in all cases. All that it
says is true when the cache, if it is written, and the database work, or when what they failed
to do was done before. -/
theorem logout_reported (accessToken : String) (user : RequestUser) (call : LogoutCall)
    (cacheError databaseError : Option Exn) (s : Server) :
    ∃ s', (logout accessToken user call).runWith
        (logoutFaults accessToken user call cacheError databaseError) s =
          (.ok "Logout successful", s') ∧
      ((SessionsRevoked user s' ∧
          (LastsFor accessToken user.jti call.now →
            Blacklisted s'.cache call.setAt user.jti)) ↔
        (((blacklistTtl accessToken user call.now).isSome = true → cacheError = none) ∧
            databaseError = none ∧ user.userId ≠ 0 ∨ SessionsRevoked user s) ∧
          (LastsFor accessToken user.jti call.now →
            cacheError = none ∨ Blacklisted s.cache call.setAt user.jti)) := by
  refine ⟨_, logout_runWith accessToken user call cacheError databaseError s, ?_⟩
  have hKept : SessionsRevoked user (blacklisted accessToken user call s) ↔
      SessionsRevoked user s := by
    rw [SessionsRevoked, SessionsRevoked, blacklisted_store]
  have hSet : ¬ ((blacklistTtl accessToken user call.now).isSome = true ∧
      cacheError.isSome = true) → LastsFor accessToken user.jti call.now → cacheError = none :=
    fun hNot hLasts => Option.not_isSome_iff_eq_none.mp fun hError => hNot ⟨hLasts.ttl, hError⟩
  split_ifs with hCacheError hDatabaseError
  · -- the cache fails, and nothing is done
    obtain ⟨hTtl, hError⟩ := hCacheError
    have hSome : cacheError ≠ none := Option.isSome_iff_ne_none.mp hError
    simp only [hTtl, true_imp_iff, hSome, false_and, false_or]
  · -- the database fails
    have hSome : databaseError ≠ none := Option.isSome_iff_ne_none.mp hDatabaseError
    simp only [hSome, false_and, and_false, false_or]
    rw [hKept]
    refine and_congr_right fun _ => iff_of_true (fun hLasts => hLasts.blacklisted s) ?_
    exact fun hLasts => Or.inl (hSet hCacheError hLasts)
  · have hNone : databaseError = none := Option.not_isSome_iff_eq_none.mp hDatabaseError
    have hWrites : (blacklistTtl accessToken user call.now).isSome = true → cacheError = none :=
      fun hTtl => Option.not_isSome_iff_eq_none.mp fun hError => hCacheError ⟨hTtl, hError⟩
    rw [sessionsRevoked_revoked, hKept, revoked_cache]
    refine and_congr ?_ (iff_of_true (fun hLasts => hLasts.blacklisted s) ?_)
    · exact or_congr_left ⟨fun hId => ⟨hWrites, hNone, hId⟩, fun h => h.2.2⟩
    · exact fun hLasts => Or.inl (hWrites hLasts.ttl)

end Code

section Site

attribute [local instance] asciiRuntime benTokens plainPassport benDecode

/-- The member of the small site, as the strategy knows it. -/
def benRequest : RequestUser := ⟨1, "ben@site", "user", "0"⟩

theorem verify_ben (now : Int) :
    verify "a" now = if now / 1000 < 900 then some (benClaims "access") else none := by
  have hSame : now < 900000 ↔ now / 1000 < 900 := by omega
  simp only [verify, true_and, hSame]
  split_ifs
  · rfl
  · simp_all
  · rfl

/-- A logout at a whole second. -/
theorem blacklist_covers_token_site :
    ∃ message s',
      (logout "a" benRequest ⟨1000, 1000, 1000, 1000⟩).run loggedIn = (.ok message, s') ∧
      ∀ t', 1000 ≤ t' → ∀ accepted,
        authenticateJwt s'.cache t' (some ("Bearer " ++ "a")) ≠ .ok (some accepted) := by
  have hTokens := lawful_benTokens
  have hPassport := lawful_plainPassport
  have hLogout := logout_run_eq "a" benRequest ⟨1000, 1000, 1000, 1000⟩ loggedIn
  have hUser : authenticateJwt loggedIn.cache 1000 (some ("Bearer " ++ "a")) =
    .ok (some benRequest) := rfl
  exact ⟨_, _, hLogout,
    (blacklist_covers_token verify_ben rfl hUser hLogout).mpr ⟨by decide, by decide⟩⟩

/-- A logout half a second later: the entry is gone before the token expires. -/
theorem blacklist_gap :
    ∃ message s', (authenticateJwt loggedIn.cache 1500 (some ("Bearer " ++ "a")) =
        .ok (some benRequest)) ∧
      (logout "a" benRequest ⟨1500, 1500, 1500, 1500⟩).run loggedIn = (.ok message, s') ∧
      authenticateJwt s'.cache 899999 (some ("Bearer " ++ "a")) = .ok (some benRequest) :=
  ⟨_, _, rfl, rfl, rfl⟩

/-- The member and an admin are logged in. -/
def withAdmin (adminId : Id) : Server :=
  { loggedIn with
    store := ((AuthService.generateTokens ⟨"1", 0, 0, 0, 0, 0, 0, 0⟩
      ⟨adminId, "ada@site", "admin"⟩).run mintedSite).2 }

/-- The session of an admin with another id stays as it was. -/
theorem logout_revokes_only_site :
    ∃ message s', (logout "a" benRequest ⟨1000, 1001, 1002, 1003⟩).run (withAdmin 2) =
        (.ok message, s') ∧
      ∃ r ∈ (withAdmin 2).store.refreshToken.rows, (r.userType, r.userId) = ("admin", 2) ∧
        r.revokedAt = none ∧ s'.store.refreshToken.find r.id = some r := by
  have hLogout := logout_run_eq "a" benRequest ⟨1000, 1001, 1002, 1003⟩ (withAdmin 2)
  have hMem : (⟨2, _, 2, "admin", _, none, _⟩ : RefreshToken) ∈
      (withAdmin 2).store.refreshToken.rows := List.mem_cons_of_mem _ List.mem_cons_self
  refine ⟨_, _, hLogout, _, hMem, rfl, rfl, ?_⟩
  refine (logout_revokes_only hLogout).mpr (Or.inr fun r hr hUser hType => ?_) _ hMem (by decide)
  -- the row of the member is of the kind of the caller, the other one has another id
  rcases List.mem_cons.mp hr with rfl | hAdmin
  · exact absurd rfl hType
  · rw [List.mem_singleton.mp hAdmin] at hUser
    exact absurd hUser (by decide)

/-- The logout of the member ends the session of the admin with the same id. -/
theorem logout_revokes_admin :
    ∃ message s', (logout "a" benRequest ⟨1000, 1001, 1002, 1003⟩).run (withAdmin 1) =
        (.ok message, s') ∧
      ∃ r ∈ (withAdmin 1).store.refreshToken.rows, (r.userType, r.userId) = ("admin", 1) ∧
        r.revokedAt = none ∧ (s'.store.refreshToken.find r.id).map RefreshToken.revokedAt =
          some (some 1002) :=
  ⟨_, _, rfl, _, List.mem_cons_of_mem _ List.mem_cons_self, rfl, rfl, rfl⟩

/-- The cache fails: the session goes on, and the client is told that it has ended. -/
theorem logout_misreported :
    ∃ s', (logout "a" benRequest ⟨1000, 1001, 1002, 1003⟩).runWith
        (logoutFaults "a" benRequest ⟨1000, 1001, 1002, 1003⟩
          (some (.error "cache unavailable")) none)
        loggedIn = (.ok "Logout successful", s') ∧
      ¬ (SessionsRevoked benRequest s' ∧
        (LastsFor "a" "0" 1000 → Blacklisted s'.cache 1001 "0")) := by
  refine ⟨_, rfl, fun hDone => ?_⟩
  have hRevoked := hDone.1 _ List.mem_cons_self rfl rfl
  cases hRevoked

end Site

end Rooeel
