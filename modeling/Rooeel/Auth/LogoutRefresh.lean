import Rooeel.Auth.Lineage

/-!
# Logging out during a refresh

The revocation of a logout meets the rows that are there. A call of `refreshTokens` that has
found its token usable stores its row later, and does not look again.

When no call is in between at the revocation, all calls have ended or have not started. From
then on, a call that starts finds its token revoked (`LoggedOut`), so the user has no refresh
token left (`logout_defeats_refresh`).
-/

namespace Rooeel

open JavaScript TokenRuntime Prog AuthService

/-! ## The calls -/

/-- A logout, and calls of `refreshTokens` at the same time. -/
structure LogoutRace (ι : Type) where
  accessToken : String
  user : RequestUser
  logoutCall : LogoutCall
  refreshToken : ι → String
  refreshCall : ι → RefreshCall

/-- The rows with the hash are for the id. -/
def RowsOf (s : Store) (hash : String) (userId : Id) : Prop :=
  ∀ x ∈ sessions s, x.token = hash → x.userId = userId

/-- The refresh token is for the id: so it says itself, and so does its row. -/
structure TokenOf [TokenRuntime] (s : Store) (userId : Id) (refreshToken : String) : Prop where
  signed : ∀ now payload, verify refreshToken now = some payload → payload.sub = userId
  stored : RowsOf s (sha256 refreshToken) userId

/-- New rows for the id change nothing. -/
theorem RowsOf.grows {s s' : Store} {hash : String} {userId : Id} (h : RowsOf s hash userId)
    (hRows : ∀ x ∈ sessions s', x ∈ sessions s ∨ x.userId = userId) : RowsOf s' hash userId := by
  intro x hx hToken
  rcases hRows x hx with hOld | hNew
  · exact h x hOld hToken
  · exact hNew

namespace LogoutRace

variable {ι : Type}

def calls (race : LogoutRace ι) : Option ι → SessionCall
  | none => .logout race.accessToken race.user race.logoutCall
  | some i => .refreshTokens (race.refreshToken i) (race.refreshCall i)

/-- The calls present refresh tokens of the user who logs out. -/
def OwnTokens [TokenRuntime] (race : LogoutRace ι) (s : Store) : Prop :=
  ∀ i, TokenOf s race.user.userId (race.refreshToken i)

/-- The rest of the logout, from the revocation on. -/
def revoking (race : LogoutRace ι) : Prog Server Exn SessionAnswer :=
  tryCatch (do
    revokeTokens race.user.userId race.logoutCall.revokedAt race.logoutCall.markedAt
    pure "Logout successful") (fun _ => pure "Logout successful") >>= fun message =>
      pure (.logout message)

/-- An executed step. When it is the revocation, no call of `refreshTokens` is between its
lookup and its row. -/
def RevokesAlone [DecidableEq ι] (race : LogoutRace ι) (c c' : SessionPool (Option ι)) : Prop :=
  ∃ j, c.exec j = some c' ∧
    (j = none → c.proc none = race.revoking → ∀ i, ¬ c.Running (some i))

variable [TokenRuntime] [PasswordRuntime] [DecodeRuntime]

/-- When all calls have ended, the rows for the user are revoked, and so are those of the tokens
that the calls have returned. -/
def LogoutDefeats (race : LogoutRace ι)
    (step : SessionPool (Option ι) → SessionPool (Option ι) → Prop) (s : Server) : Prop :=
  ∀ c, Relation.ReflTransGen step (sessionCalls s race.calls) c → (∀ j, c.Ended j) →
    ∀ r ∈ c.state.store.refreshToken.rows,
      (r.userId = race.user.userId ∨
        ∃ i tokens, Issued c i tokens ∧ r.token = sha256 tokens.refreshToken) →
      r.revokedAt.isSome = true

/-! ## What one step does -/

omit [TokenRuntime] [PasswordRuntime] [DecodeRuntime] in
theorem revoking_eq (race : LogoutRace ι) : ∃ upd fail,
    race.revoking = .step upd (fun _ => .done (.ok (.logout "Logout successful"))) fail ∧
      ∀ s, (upd s).store.refreshToken = s.store.refreshToken.modify
        (fun r => r.userId == race.user.userId)
        (fun r => r.revoke race.logoutCall.revokedAt race.logoutCall.markedAt) fun _ => rfl :=
  ⟨_, _, rfl, fun _ => rfl⟩

/-- The logout begins with the revocation, or comes to it with its first step. -/
theorem logout_eq {race : LogoutRace ι} (hUser : race.user.userId ≠ 0) :
    (race.calls none).prog = race.revoking ∨ ∃ upd fail,
      (race.calls none).prog = .step upd (fun _ => race.revoking) fail := by
  have hProg : (race.calls none).prog =
      logout race.accessToken race.user race.logoutCall >>= fun message =>
        pure (.logout message) := rfl
  rw [hProg]
  unfold logout
  rw [if_pos hUser]
  cases blacklistTtl race.accessToken race.user race.logoutCall.now with
  | none => exact Or.inl rfl
  | some ttl => exact Or.inr ⟨_, _, rfl⟩

variable [DecidableEq ι] {race : LogoutRace ι} {c c' : SessionPool (Option ι)} {s : Store}

/-- A call that finds its token revoked fails. -/
theorem lookup_refused {j : Option ι} {refreshToken : String} {call : RefreshCall}
    (hExec : c.exec j = some c')
    (hProc : c.proc j = (SessionCall.refreshTokens refreshToken call).prog)
    (hRevoked : ∀ r ∈ c.state.store.refreshToken.rows, r.token = sha256 refreshToken →
      r.revokedAt.isSome = true) : c'.state = c.state ∧ c'.Ended j := by
  have hProg : (SessionCall.refreshTokens refreshToken call).prog =
      onStore (refreshTokens refreshToken call >>= fun r => pure (.refreshTokens r)) := rfl
  rw [hProg] at hProc
  rcases refreshTokens_cases refreshToken call with ⟨e, hFailed⟩ | ⟨sub, fail, hStep⟩
  · rw [hFailed] at hProc
    exact absurd ⟨_, hProc⟩ (Pool.exec_ended hExec)
  · rw [hStep] at hProc
    have hAdvance := Pool.advance_of_exec hExec hProc
    refine ⟨hAdvance.state, ?_⟩
    rcases useStoredToken_cases call sub (storedTokenOf (sha256 refreshToken) c.state.store) with
      ⟨e, hThrow⟩ | ⟨r, hFind, hLive, -⟩
    · obtain ⟨e', hFailed⟩ := afterLookup_throw hThrow
      have hNext := hAdvance.proc
      dsimp only at hNext
      rw [hFailed] at hNext
      exact ⟨_, hNext⟩
    · obtain ⟨hMem, hToken⟩ := Model.findFirst_some hFind
      rw [hRevoked r hMem (beq_iff_eq.mp hToken)] at hLive
      cases hLive

/-! ## What holds in every run -/

/-- The rows of the tokens that are presented or have been returned are for the user. -/
structure Owned (race : LogoutRace ι) (c : SessionPool (Option ι)) : Prop where
  presented : ∀ i, RowsOf c.state.store (sha256 (race.refreshToken i)) race.user.userId
  returned : ∀ j tokens, Issued c j tokens →
    RowsOf c.state.store (sha256 tokens.refreshToken) race.user.userId

omit [DecodeRuntime] [DecidableEq ι] in
/-- The calls issue tokens for the user only. -/
theorem explains_sub (hOwn : race.OwnTokens s) {j : Option ι} {past : Set (Store × Store)}
    {subject : Subject} (h : (race.calls j).Explains past subject) :
    subject.sub = race.user.userId := by
  obtain ⟨step, -, hAuthenticates | hPresents⟩ := h
  · cases j with
    | none => exact hAuthenticates.elim
    | some i => exact hAuthenticates.elim
  · cases j with
    | none => exact hPresents.elim
    | some i =>
        obtain ⟨payload, r, hVerify, -, -, rfl⟩ := hPresents
        exact (hOwn i).signed _ payload hVerify

omit [PasswordRuntime] [DecodeRuntime] [DecidableEq ι] in
theorem Owned.same (h : race.Owned c) (hSame : KeepsSessions c.state c'.state)
    (hIssued : ∀ j tokens, Issued c' j tokens ↔ Issued c j tokens) : race.Owned c' := by
  have hSessions : sessions c'.state.store = sessions c.state.store := hSame
  have hRows : ∀ x ∈ sessions c'.state.store,
      x ∈ sessions c.state.store ∨ x.userId = race.user.userId := by
    rw [hSessions]
    exact fun x hx => Or.inl hx
  refine ⟨fun i => (h.presented i).grows hRows, fun j tokens hNow => ?_⟩
  exact (h.returned j tokens ((hIssued j tokens).mp hNow)).grows hRows

omit [DecodeRuntime] [DecidableEq ι] in
/-- A call stores the row of its tokens and returns them. -/
theorem Owned.commit (hOwn : race.OwnTokens s) (h : race.Owned c) {j : Option ι}
    {past : Set (Server × Server)} {answer : SessionAnswer} (hMoved : Pool.Moved c c' j)
    (hReturned : c'.Returned j answer)
    (hCommit : (race.calls j).Commit past c.state c'.state answer) : race.Owned c' := by
  obtain ⟨tokens, hTokens, subject, hExplains, -, -, hFresh, hSessions⟩ := hCommit
  have hRows : ∀ x ∈ sessions c'.state.store,
      x ∈ sessions c.state.store ∨ x.userId = race.user.userId := by
    intro x hx
    rw [hSessions] at hx
    refine (List.mem_append.mp hx).imp_right fun hNew => ?_
    rw [List.mem_singleton.mp hNew]
    exact explains_sub hOwn hExplains
  refine ⟨fun i => (h.presented i).grows hRows, fun k tokens' hNow => ?_⟩
  rcases (issued_of_returned hMoved hReturned k tokens').mp hNow with hOld | ⟨-, hNew⟩
  · exact (h.returned k tokens' hOld).grows hRows
  · -- the hash is new, so the row of these tokens is the only one with it
    obtain rfl := Option.some.inj (hTokens.symm.trans hNew)
    have hNone : RowsOf c.state.store (sha256 tokens.refreshToken) race.user.userId :=
      fun x hx hToken => absurd hToken (hFresh x hx)
    exact hNone.grows hRows

omit [DecodeRuntime] [DecidableEq ι] in
theorem Owned.change (hOwn : race.OwnTokens s) (h : race.Owned c)
    {steps : List (SessionPool (Option ι) × SessionPool (Option ι))}
    (hChange : Pool.Change KeepsSessions KeepsSessions (fun j => (race.calls j).Commit)
      (fun _ _ answer => answer.issued = none) steps c c') : race.Owned c' := by
  rcases hChange with ⟨j, hMoved, hSame, hQuiet⟩ | ⟨j, answer, hMoved, hReturned, hCommit⟩ |
    ⟨hSame, hProc⟩
  · exact h.same hSame (issued_of_quiet hMoved hQuiet)
  · exact h.commit hOwn hMoved hReturned hCommit
  · refine h.same hSame fun j tokens => ?_
    unfold Issued Pool.Returned
    rw [hProc]

/-! ## Before and after the revocation -/

/-- The revocation is still to come. -/
structure Pending (race : LogoutRace ι) (c : SessionPool (Option ι)) : Prop where
  logout : c.proc none = (race.calls none).prog ∨ c.proc none = race.revoking
  waiting : ∀ i, c.steps (some i) = 0 → c.proc (some i) = (race.calls (some i)).prog

/-- The user has no refresh token, and no call is about to store one. -/
structure LoggedOut (race : LogoutRace ι) (c : SessionPool (Option ι)) : Prop where
  ended : c.Ended none
  revoked : ∀ r ∈ c.state.store.refreshToken.rows, r.userId = race.user.userId →
    r.revokedAt.isSome = true
  idle : ∀ i, c.proc (some i) = (race.calls (some i)).prog ∨ c.Ended (some i)

omit [DecidableEq ι] in
theorem Pending.not_ended (hUser : race.user.userId ≠ 0) (h : race.Pending c) :
    ¬ c.Ended none := by
  rintro ⟨r, hDone⟩
  obtain ⟨_, _, hRevoking, -⟩ := race.revoking_eq
  have hNot : race.revoking ≠ .done r := by
    rw [hRevoking]
    exact fun hSame => nomatch hSame
  rcases h.logout with hProc | hProc
  · rcases logout_eq hUser with hFirst | ⟨upd, fail, hFirst⟩
    · exact hNot (hFirst.symm.trans (hProc.symm.trans hDone))
    · cases hFirst.symm.trans (hProc.symm.trans hDone)
  · exact hNot (hProc.symm.trans hDone)

/-- The revocation. -/
theorem Pending.revoke (h : race.Pending c) (hExec : c.exec none = some c')
    (hProc : c.proc none = race.revoking) (hAlone : ∀ i, ¬ c.Running (some i)) :
    race.LoggedOut c' := by
  obtain ⟨upd, fail, hRevoking, hRows⟩ := race.revoking_eq
  have hAdvance := Pool.advance_of_exec hExec (hProc.trans hRevoking)
  refine ⟨⟨_, hAdvance.proc⟩, fun r hr hId => ?_, fun i => ?_⟩
  · rw [hAdvance.state, hRows, Table.rows_modify] at hr
    obtain ⟨x, -, rfl⟩ := List.mem_map.mp hr
    split at hId
    · rename_i hSelected
      rw [if_pos hSelected]
      rfl
    · rename_i hNot
      exact absurd (beq_iff_eq.mpr hId) hNot
  · obtain ⟨hSame, -⟩ := hAdvance.others (some i) (Option.some_ne_none i)
    unfold Pool.Ended
    rw [hSame]
    by_cases hFirst : c.steps (some i) = 0
    · exact Or.inl (h.waiting i hFirst)
    · right
      by_contra hNot
      exact hAlone i ⟨Nat.pos_of_ne_zero hFirst, hNot⟩

theorem Pending.step (hUser : race.user.userId ≠ 0) (h : race.Pending c)
    (hStep : race.RevokesAlone c c') : race.Pending c' ∨ race.LoggedOut c' := by
  obtain ⟨j, hExec, hAlone⟩ := hStep
  have hWaiting : ∀ i, c'.steps (some i) = 0 → c'.proc (some i) = (race.calls (some i)).prog := by
    intro i hFirst
    have hOther : some i ≠ j := by
      rintro rfl
      exact Pool.steps_of_exec hExec hFirst
    obtain ⟨hProc, hSteps⟩ := Pool.exec_others hExec hOther
    rw [hProc]
    exact h.waiting i (hSteps.symm.trans hFirst)
  cases j with
  | some i =>
      refine Or.inl ⟨?_, hWaiting⟩
      rw [(Pool.exec_others hExec (Option.some_ne_none i).symm).1]
      exact h.logout
  | none =>
      rcases h.logout with hProc | hProc
      · rcases logout_eq hUser with hFirst | ⟨upd, fail, hFirst⟩
        · have hRevoking := hProc.trans hFirst
          exact Or.inr (h.revoke hExec hRevoking (hAlone rfl hRevoking))
        · have hAdvance := Pool.advance_of_exec hExec (hProc.trans hFirst)
          exact Or.inl ⟨Or.inr hAdvance.proc, hWaiting⟩
      · exact Or.inr (h.revoke hExec hProc (hAlone rfl hProc))

/-- A call that starts after the revocation finds its token revoked. -/
theorem LoggedOut.step (hOwned : race.Owned c) (h : race.LoggedOut c)
    (hStep : race.RevokesAlone c c') : race.LoggedOut c' := by
  obtain ⟨j, hExec, -⟩ := hStep
  cases j with
  | none => exact absurd h.ended (Pool.exec_ended hExec)
  | some i =>
      have hRunning := Pool.exec_ended hExec
      have hProc := (h.idle i).resolve_right hRunning
      obtain ⟨hState, hEnded⟩ := lookup_refused hExec hProc fun r hr hToken =>
        h.revoked r hr (hOwned.presented i r.session (List.mem_map_of_mem hr) hToken)
      refine ⟨?_, ?_, fun k => ?_⟩
      · obtain ⟨r, hDone⟩ := h.ended
        exact ⟨r, (Pool.exec_others hExec (Option.some_ne_none i).symm).1.trans hDone⟩
      · rw [hState]
        exact h.revoked
      · by_cases hSame : k = i
        · subst hSame
          exact Or.inr hEnded
        · have hOther : some k ≠ some i := fun h => hSame (Option.some.inj h)
          rw [Pool.Ended, (Pool.exec_others hExec hOther).1]
          exact h.idle k

/-! ## All interleavings -/

theorem reach_history {s : Server}
    (hReach : Relation.ReflTransGen race.RevokesAlone (sessionCalls s race.calls) c) :
    ∃ steps, Pool.History KeepsSessions (sessionCalls s race.calls) steps c := by
  have hExec : race.RevokesAlone ≤ Pool.Exec := fun _ _ hStep => hStep.imp fun _ h => h.1
  exact Pool.history_of_reach
    (Pool.reach_of_exec (Relation.ReflTransGen.mono hExec _ _ hReach))

omit [DecidableEq ι] in
theorem Owned.start {s : Server} (hOwn : race.OwnTokens s.store) :
    race.Owned (sessionCalls s race.calls) := by
  refine ⟨fun i => (hOwn i).stored, ?_⟩
  rintro j tokens ⟨answer, hReturned, hIssued⟩
  have hQuiet : answer.issued = none :=
    Prog.Commits.of_done ((race.calls j).commits ∅) hReturned
  rw [hIssued] at hQuiet
  cases hQuiet

theorem Owned.reach {s : Server} (hOwn : race.OwnTokens s.store)
    (hReach : Relation.ReflTransGen race.RevokesAlone (sessionCalls s race.calls) c) :
    race.Owned c := by
  induction hReach with
  | refl => exact Owned.start hOwn
  | tail hBefore hStep ih =>
      obtain ⟨steps, hRun⟩ := reach_history hBefore
      obtain ⟨j, hExec, -⟩ := hStep
      exact ih.change hOwn (hRun.change keepsSessions_refl
        (fun j => (race.calls j).commits ∅) (.exec j hExec))

/-- **A logout defeats the refreshes**, in every interleaving in which no call is between its
lookup and its row when the logout revokes. -/
theorem logout_defeats_refresh (s : Server) (race : LogoutRace ι)
    (hUser : race.user.userId ≠ 0) (hOwn : race.OwnTokens s.store) :
    race.LogoutDefeats race.RevokesAlone s := by
  intro c hReach hEnded r hr hWhose
  have hPhase : race.Pending c ∨ race.LoggedOut c := by
    clear hEnded hr hWhose
    induction hReach with
    | refl => exact Or.inl ⟨Or.inl rfl, fun _ _ => rfl⟩
    | tail hBefore hStep ih =>
        rcases ih with hPending | hLoggedOut
        · exact hPending.step hUser hStep
        · exact Or.inr (hLoggedOut.step (Owned.reach hOwn hBefore) hStep)
  have hLoggedOut := hPhase.resolve_left fun hPending =>
    hPending.not_ended hUser (hEnded none)
  refine hLoggedOut.revoked r hr ?_
  rcases hWhose with hId | ⟨i, tokens, hIssued, hToken⟩
  · exact hId
  · exact (Owned.reach hOwn hReach).returned i tokens hIssued r.session
      (List.mem_map_of_mem hr) hToken

end LogoutRace

section Site

attribute [local instance] benTokens benDecode saltedHashes

/-- The member logs out while its page renews the session. -/
def benRace : LogoutRace Unit where
  accessToken := "a"
  user := ⟨1, "ben@site", "user", "0"⟩
  logoutCall := ⟨1000, 1001, 1002, 1002⟩
  refreshToken _ := "r"
  refreshCall _ := ⟨"1", 1000, 1001, 1002, 1003, 1003, 1002, 1003⟩

/-- The two calls, none of them started. -/
def benRacing : SessionPool (Option Unit) := sessionCalls loggedIn benRace.calls

theorem benRace_own : benRace.OwnTokens loggedIn.store := by
  have hStored : ∀ x ∈ sessions loggedIn.store, x.userId = 1 := by decide
  refine fun _ => ⟨fun now payload hVerify => ?_, fun x hx _ => hStored x hx⟩
  change verify "r" now = some payload at hVerify
  simp only [verify] at hVerify
  split_ifs at hVerify with hAccess hRefresh
  · exact absurd hAccess.1 (by decide)
  · rw [← Option.some.inj hVerify]
    rfl

/-- The refresh has ended when the logout revokes; the row that it has stored is revoked too. -/
theorem logout_defeats_refresh_site :
    ∃ c, Relation.ReflTransGen benRace.RevokesAlone benRacing c ∧
      Issued c (some ()) ⟨"x", "x"⟩ ∧
      ∀ r ∈ c.state.store.refreshToken.rows, r.userId = 1 → r.revokedAt.isSome = true := by
  have hRefresh {c c' : SessionPool (Option Unit)} (hExec : c.exec (some ()) = some c') :
      benRace.RevokesAlone c c' := ⟨_, hExec, fun h => nomatch h⟩
  have hLogout {c c' : SessionPool (Option Unit)} (hExec : c.exec none = some c')
      (hEnded : c.Ended (some ())) : benRace.RevokesAlone c c' :=
    ⟨_, hExec, fun _ _ _ hRunning => hRunning.2 hEnded⟩
  let c := benRacing.play [some (), some (), some (), some (), none, none]
  have hReach : Relation.ReflTransGen benRace.RevokesAlone benRacing c :=
    .tail (.tail (.tail (.tail (.tail (.single (hRefresh rfl)) (hRefresh rfl)) (hRefresh rfl))
      (hRefresh rfl)) (hLogout rfl ⟨_, rfl⟩)) (hLogout rfl ⟨_, rfl⟩)
  have hEnded (j : Option Unit) : c.Ended j := by
    cases j with
    | none => exact ⟨_, rfl⟩
    | some _ => exact ⟨_, rfl⟩
  exact ⟨c, hReach, ⟨_, rfl, rfl⟩, fun r hr hId =>
    LogoutRace.logout_defeats_refresh loggedIn benRace (by decide) benRace_own c hReach hEnded r hr
      (Or.inl hId)⟩

/-- The refresh looks its token up before the revocation and stores its row after it: the member
still has a refresh token. -/
theorem refresh_survives_logout :
    benRace.user.userId ≠ 0 ∧ benRace.OwnTokens loggedIn.store ∧
      ¬ benRace.LogoutDefeats Pool.Exec loggedIn := by
  refine ⟨by decide, benRace_own, fun h => ?_⟩
  have hReach := Pool.reach_play benRacing [some (), none, none, some (), some (), some ()]
  have hEnded (j : Option Unit) :
      (benRacing.play [some (), none, none, some (), some (), some ()]).Ended j := by
    cases j with
    | none => exact ⟨_, rfl⟩
    | some _ => exact ⟨_, rfl⟩
  have hRevoked := h _ hReach hEnded ⟨2, "#x", 1, "user", 604801003, none, 1003⟩ (by decide)
    (Or.inl rfl)
  exact absurd hRevoked (by decide)

end Site

end Rooeel
