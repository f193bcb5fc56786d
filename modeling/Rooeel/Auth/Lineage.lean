import Rooeel.Auth.Sessions

/-!
# Where tokens come from

Session calls run in any order, with steps that fail and with the rest of the server in between,
which creates no refresh tokens. `Lineage` ties the rows of the refresh tokens to the calls that
have returned them, and each of these calls to the signup or login at the head of its refresh
chain.
-/

namespace Rooeel

open JavaScript TokenRuntime Prog

/-! ## Where tokens come from -/

/-- Two signed tokens with the same hash are one. -/
class InjectiveHash [TokenRuntime] : Prop where
  injective : ∀ {payload payload' expiresIn expiresIn' signedAt signedAt'},
    sha256 (sign payload expiresIn signedAt) = sha256 (sign payload' expiresIn' signedAt') →
      sign payload expiresIn signedAt = sign payload' expiresIn' signedAt'

abbrev SessionPool (ι : Type) := Pool ι Server Exn SessionAnswer

section Lineage

variable [TokenRuntime] {ι : Type}

/-- Call `i` has returned the tokens. -/
def Issued (c : SessionPool ι) (i : ι) (tokens : IssuedTokens) : Prop :=
  ∃ answer, c.Returned i answer ∧ answer.issued = some tokens

/-- Call `i` presents the refresh token that call `j` has returned. -/
def Rotates (calls : ι → SessionCall) (c : SessionPool ι) (j i : ι) : Prop :=
  ∃ tokens call, Issued c j tokens ∧ calls i = .refreshTokens tokens.refreshToken call

/-- The refresh chain of call `i` begins with call `root`, which presents no token. -/
def Heads (calls : ι → SessionCall) (c : SessionPool ι) (root i : ι) : Prop :=
  (∀ refreshToken call, calls root ≠ .refreshTokens refreshToken call) ∧
    Relation.ReflTransGen (Rotates calls c) root i

/-- Both tokens carry the pair, and so does the row that is stored for them. -/
structure Belongs (s : Store) (tokens : IssuedTokens) (subject : Subject) : Prop where
  access : Carries tokens.accessToken subject
  refresh : Carries tokens.refreshToken subject
  stored : ⟨sha256 tokens.refreshToken, subject.sub, subject.role⟩ ∈ sessions s

/-- One of its own steps has authenticated the pair for call `i`. -/
def Authenticated [PasswordRuntime] (calls : ι → SessionCall)
    (steps : List (SessionPool ι × SessionPool ι)) (i : ι) (subject : Subject) : Prop :=
  ∃ step ∈ pastOf Server.store (Pool.Past steps i), (calls i).Authenticates subject step

/-- Call `i` has authenticated the pair, or presents a token that belongs to it. -/
def Source [PasswordRuntime] (calls : ι → SessionCall)
    (steps : List (SessionPool ι × SessionPool ι)) (c : SessionPool ι) (i : ι)
    (subject : Subject) : Prop :=
  Authenticated calls steps i subject ∨
    ∃ j tokens call, Issued c j tokens ∧ calls i = .refreshTokens tokens.refreshToken call ∧
      Belongs c.state.store tokens subject

/-- The rows are those of the tokens that have been returned, and each of these has a source. -/
structure Lineage [PasswordRuntime] (calls : ι → SessionCall)
    (steps : List (SessionPool ι × SessionPool ι)) (c : SessionPool ι) : Prop where
  apart : ((sessions c.state.store).map Session.token).Nodup
  known : ∀ x ∈ sessions c.state.store, ∃ i tokens, Issued c i tokens ∧
    x.token = sha256 tokens.refreshToken
  seen : ∀ i, ∀ step ∈ pastOf Server.store (Pool.Past steps i),
    sessions step.1 ⊆ sessions c.state.store
  source : ∀ i tokens, Issued c i tokens → ∃ subject, Belongs c.state.store tokens subject ∧
    Source calls steps c i subject
  head : ∀ i tokens, Issued c i tokens → ∃ root, Heads calls c root i

variable {calls : ι → SessionCall} {c c' : SessionPool ι}
  {steps : List (SessionPool ι × SessionPool ι)} {i : ι}

/-- What verifies carries what it says. -/
theorem Carries.of_verify [LawfulTokens] {token : String} {now : Int} {payload : Payload}
    {subject : Subject} (h : Carries token subject) (hVerify : verify token now = some payload) :
    payload.sub = subject.sub ∧ payload.role = subject.role := by
  obtain ⟨signed, expiresIn, signedAt, rfl, hSub, hRole⟩ := h
  rw [LawfulTokens.signed hVerify]
  exact ⟨hSub, hRole⟩

/-- A token belongs to one pair. -/
theorem Belongs.unique {s : Store} (hApart : ((sessions s).map Session.token).Nodup)
    {tokens tokens' : IssuedTokens} {subject subject' : Subject} (h : Belongs s tokens subject)
    (h' : Belongs s tokens' subject') (hSame : tokens'.refreshToken = tokens.refreshToken) :
    subject' = subject := by
  have hRow := List.inj_on_of_nodup_map hApart h'.stored h.stored (congrArg sha256 hSame)
  obtain ⟨-, hSub, hRole⟩ := Session.mk.inj hRow
  exact Subject.ext hSub hRole

variable [PasswordRuntime]

/-- A presented token whose row is there was returned by a call, and belongs to the pair that
the next tokens are issued for. -/
theorem Lineage.presented [LawfulTokens] [InjectiveHash] (h : Lineage calls steps c)
    {token : String} {now : Int} {payload : Payload} (hVerify : verify token now = some payload)
    {x : Session} (hMem : x ∈ sessions c.state.store) (hHash : x.token = sha256 token) :
    ∃ j tokens, Issued c j tokens ∧ tokens.refreshToken = token ∧
      Belongs c.state.store tokens ⟨payload.sub, x.userType⟩ := by
  obtain ⟨j, tokens, hIssued, hToken⟩ := h.known x hMem
  obtain ⟨subject, hBelongs, -⟩ := h.source j tokens hIssued
  have hSame : tokens.refreshToken = token := by
    obtain ⟨signed, expiresIn, signedAt, hSigned, -⟩ := hBelongs.refresh
    obtain ⟨expiresIn', signedAt', hVerified⟩ := LawfulTokens.issued hVerify
    rw [hHash, hSigned, hVerified] at hToken
    rw [hSigned, hVerified]
    exact (InjectiveHash.injective hToken).symm
  have hSub : payload.sub = subject.sub := by
    rw [← hSame] at hVerify
    exact (hBelongs.refresh.of_verify hVerify).1
  have hRow : x = ⟨sha256 tokens.refreshToken, subject.sub, subject.role⟩ :=
    List.inj_on_of_nodup_map h.apart hMem hBelongs.stored hToken
  have hPair : subject = ⟨payload.sub, x.userType⟩ := by
    rw [hRow, hSub]
  exact ⟨j, tokens, hIssued, hSame, hPair ▸ hBelongs⟩

/-! ### What a step keeps -/

/-- What was returned, stored and done stays so. -/
structure Grows (steps : List (SessionPool ι × SessionPool ι)) (c : SessionPool ι)
    (steps' : List (SessionPool ι × SessionPool ι)) (c' : SessionPool ι) : Prop where
  issued : ∀ i tokens, Issued c i tokens → Issued c' i tokens
  sessions : sessions c.state.store ⊆ sessions c'.state.store
  past : ∀ i, Pool.Past steps i ⊆ Pool.Past steps' i

section Grows

variable {steps' : List (SessionPool ι × SessionPool ι)}

omit [PasswordRuntime] in
theorem Belongs.grows (hGrows : Grows steps c steps' c') {tokens : IssuedTokens}
    {subject : Subject} (h : Belongs c.state.store tokens subject) :
    Belongs c'.state.store tokens subject :=
  ⟨h.access, h.refresh, hGrows.sessions h.stored⟩

theorem Source.grows (hGrows : Grows steps c steps' c') {subject : Subject}
    (h : Source calls steps c i subject) : Source calls steps' c' i subject := by
  rcases h with ⟨step, hStep, hAuthenticates⟩ | ⟨j, tokens, call, hIssued, hCall, hBelongs⟩
  · exact Or.inl ⟨step, Set.image_mono (hGrows.past i) hStep, hAuthenticates⟩
  · exact Or.inr ⟨j, tokens, call, hGrows.issued j tokens hIssued, hCall, hBelongs.grows hGrows⟩

omit [TokenRuntime] [PasswordRuntime] in
theorem Heads.grows (hGrows : Grows steps c steps' c') {root : ι} (h : Heads calls c root i) :
    Heads calls c' root i := by
  have hRotates : Rotates calls c ≤ Rotates calls c' := by
    rintro j k ⟨tokens, call, hIssued, hCall⟩
    exact ⟨tokens, call, hGrows.issued j tokens hIssued, hCall⟩
  exact ⟨h.1, Relation.ReflTransGen.mono hRotates _ _ h.2⟩

end Grows

/-- Steps see the sessions that there are, and those only become more. -/
theorem Lineage.seen_step (h : Lineage calls steps c)
    (hMore : sessions c.state.store ⊆ sessions c'.state.store) (i : ι) :
    ∀ step ∈ pastOf Server.store (Pool.Past (steps ++ [(c, c')]) i),
      sessions step.1 ⊆ sessions c'.state.store := by
  rintro - ⟨t, hPast, rfl⟩
  by_cases hMoved : Pool.Moved c c' i
  · rw [Pool.past_moved hMoved] at hPast
    rcases hPast with rfl | hOld
    · exact hMore
    · exact List.Subset.trans (h.seen i _ ⟨t, hOld, rfl⟩) hMore
  · rw [Pool.past_not_moved hMoved] at hPast
    exact List.Subset.trans (h.seen i _ ⟨t, hPast, rfl⟩) hMore

omit [TokenRuntime] [PasswordRuntime] in
theorem past_grows (i : ι) : Pool.Past steps i ⊆ Pool.Past (steps ++ [(c, c')]) i := by
  rintro - ⟨m, hMem, hMoved, rfl⟩
  exact ⟨m, List.mem_append_left _ hMem, hMoved, rfl⟩

/-- Tokens with a source have a head. -/
theorem Lineage.heads (h : Lineage calls steps c) {subject : Subject}
    (hSource : Source calls steps c i subject) : ∃ root, Heads calls c root i := by
  rcases hSource with ⟨step, -, hAuthenticates⟩ | ⟨j, tokens, call, hIssued, hCall, -⟩
  · refine ⟨i, ?_, .refl⟩
    intro refreshToken call hCall
    rw [hCall] at hAuthenticates
    exact hAuthenticates
  · obtain ⟨root, hRoot, hChain⟩ := h.head j tokens hIssued
    exact ⟨root, hRoot, hChain.tail ⟨tokens, call, hIssued, hCall⟩⟩

/-- What has to be shown of a step: the new rows and the new tokens are accounted for. -/
theorem Lineage.grows (h : Lineage calls steps c) (hGrows : Grows steps c (steps ++ [(c, c')]) c')
    (hApart : ((sessions c'.state.store).map Session.token).Nodup)
    (hKnown : ∀ x ∈ sessions c'.state.store, x ∈ sessions c.state.store ∨
      ∃ i tokens, Issued c' i tokens ∧ x.token = sha256 tokens.refreshToken)
    (hIssued : ∀ i tokens, Issued c' i tokens → Issued c i tokens ∨
      ∃ subject, Belongs c'.state.store tokens subject ∧ Source calls steps c i subject) :
    Lineage calls (steps ++ [(c, c')]) c' := by
  have hSource (i : ι) (tokens : IssuedTokens) (hNow : Issued c' i tokens) :
      ∃ subject, Belongs c'.state.store tokens subject ∧ Source calls steps c i subject := by
    rcases hIssued i tokens hNow with hOld | hNew
    · obtain ⟨subject, hBelongs, hSource⟩ := h.source i tokens hOld
      exact ⟨subject, hBelongs.grows hGrows, hSource⟩
    · exact hNew
  refine ⟨hApart, fun x hx => ?_, h.seen_step hGrows.sessions, fun i tokens hNow => ?_,
    fun i tokens hNow => ?_⟩
  · rcases hKnown x hx with hOld | hNew
    · obtain ⟨i, tokens, hIssued, hToken⟩ := h.known x hOld
      exact ⟨i, tokens, hGrows.issued i tokens hIssued, hToken⟩
    · exact hNew
  · obtain ⟨subject, hBelongs, hSource⟩ := hSource i tokens hNow
    exact ⟨subject, hBelongs, hSource.grows hGrows⟩
  · obtain ⟨subject, -, hSource⟩ := hSource i tokens hNow
    obtain ⟨root, hHeads⟩ := h.heads hSource
    exact ⟨root, hHeads.grows hGrows⟩

/-- A step after which the same tokens have been returned, and the sessions are the same. -/
theorem Lineage.same (h : Lineage calls steps c)
    (hSame : SameSessions c.state.store c'.state.store)
    (hIssued : ∀ i tokens, Issued c' i tokens ↔ Issued c i tokens) :
    Lineage calls (steps ++ [(c, c')]) c' := by
  have hSessions : sessions c'.state.store = sessions c.state.store := hSame
  have hMore : sessions c.state.store ⊆ sessions c'.state.store := by
    rw [hSessions]
    exact List.Subset.refl _
  refine h.grows ⟨fun i tokens => (hIssued i tokens).mpr, hMore, past_grows⟩ ?_ ?_ ?_
  · rw [hSessions]
    exact h.apart
  · rw [hSessions]
    exact fun x hx => Or.inl hx
  · exact fun i tokens hNow => Or.inl ((hIssued i tokens).mp hNow)

/-- The source of the tokens that a call is about to return. -/
theorem Lineage.explained [LawfulTokens] [InjectiveHash] (h : Lineage calls steps c)
    {subject : Subject}
    (hExplains : (calls i).Explains (pastOf Server.store (Pool.Past steps i)) subject) :
    Source calls steps c i subject := by
  obtain ⟨step, hStep, hAuthenticates | hPresents⟩ := hExplains
  · exact Or.inl ⟨step, hStep, hAuthenticates⟩
  · cases hCall : calls i with
    | refreshTokens refreshToken call =>
        rw [hCall] at hPresents
        obtain ⟨payload, r, hVerify, hMem, hHash, rfl⟩ := hPresents
        have hSession : r.session ∈ sessions c.state.store :=
          h.seen i step hStep (List.mem_map_of_mem hMem)
        obtain ⟨j, tokens, hIssued, rfl, hBelongs⟩ := h.presented hVerify hSession hHash
        exact Or.inr ⟨j, tokens, call, hIssued, hCall, hBelongs⟩
    | signup | login | loginUser | logout =>
        rw [hCall] at hPresents
        exact hPresents.elim

section Moved

omit [TokenRuntime] [PasswordRuntime]

theorem not_issued_of_moved (hMoved : Pool.Moved c c' i) (tokens : IssuedTokens) :
    ¬ Issued c i tokens := by
  rintro ⟨answer, hDone, -⟩
  exact hMoved.running ⟨_, hDone⟩

theorem issued_of_other (hMoved : Pool.Moved c c' i) {j : ι} (hOther : j ≠ i)
    (tokens : IssuedTokens) : Issued c' j tokens ↔ Issued c j tokens := by
  unfold Issued Pool.Returned
  rw [(hMoved.others j hOther).1]

/-- A step after which its call has returned no tokens. -/
theorem issued_of_quiet (hMoved : Pool.Moved c c' i)
    (hQuiet : ∀ answer, c'.Returned i answer → answer.issued = none) (j : ι)
    (tokens : IssuedTokens) : Issued c' j tokens ↔ Issued c j tokens := by
  by_cases hSame : j = i
  · subst hSame
    refine iff_of_false ?_ (not_issued_of_moved hMoved tokens)
    rintro ⟨answer, hReturned, hIssued⟩
    rw [hQuiet answer hReturned] at hIssued
    cases hIssued
  · exact issued_of_other hMoved hSame tokens

/-- A step with which its call returns. -/
theorem issued_of_returned (hMoved : Pool.Moved c c' i) {answer : SessionAnswer}
    (hReturned : c'.Returned i answer) (j : ι) (tokens : IssuedTokens) :
    Issued c' j tokens ↔ Issued c j tokens ∨ (j = i ∧ answer.issued = some tokens) := by
  by_cases hSame : j = i
  · subst hSame
    rw [or_iff_right (not_issued_of_moved hMoved tokens)]
    constructor
    · rintro ⟨answer', hReturned', hIssued⟩
      unfold Pool.Returned at hReturned hReturned'
      rw [hReturned] at hReturned'
      cases hReturned'
      exact ⟨rfl, hIssued⟩
    · rintro ⟨-, hIssued⟩
      exact ⟨answer, hReturned, hIssued⟩
  · rw [issued_of_other hMoved hSame, or_iff_left fun hNew => hSame hNew.1]

end Moved

/-- The step of a call that stores the row of its tokens and returns them. -/
theorem Lineage.commit [LawfulTokens] [InjectiveHash] (h : Lineage calls steps c)
    (hMoved : Pool.Moved c c' i) {answer : SessionAnswer} (hReturned : c'.Returned i answer)
    (hCommit : (calls i).Commit (Pool.Past steps i) c.state c'.state answer) :
    Lineage calls (steps ++ [(c, c')]) c' := by
  obtain ⟨tokens, hTokens, subject, hExplains, hAccess, hRefresh, hFresh, hSessions⟩ := hCommit
  have hMore : sessions c.state.store ⊆ sessions c'.state.store := by
    rw [hSessions]
    exact List.subset_append_left _ _
  have hIssued : Issued c' i tokens := ⟨answer, hReturned, hTokens⟩
  have hBelongs : Belongs c'.state.store tokens subject := by
    refine ⟨hAccess, hRefresh, ?_⟩
    rw [hSessions]
    exact List.mem_append_right _ (List.mem_singleton_self _)
  have hNow := issued_of_returned hMoved hReturned
  refine h.grows ⟨fun j tokens' hOld => (hNow j tokens').mpr (Or.inl hOld), hMore, past_grows⟩
    ?_ ?_ ?_
  · rw [hSessions, List.map_append, List.map_singleton]
    refine h.apart.append (List.nodup_singleton _) ?_
    rw [List.disjoint_singleton]
    intro hOld
    obtain ⟨x, hx, hSame⟩ := List.mem_map.mp hOld
    exact hFresh x hx hSame
  · intro x hx
    rw [hSessions] at hx
    rcases List.mem_append.mp hx with hOld | hNew
    · exact Or.inl hOld
    · rw [List.mem_singleton.mp hNew]
      exact Or.inr ⟨i, tokens, hIssued, rfl⟩
  · intro j tokens' hIssued'
    rcases (hNow j tokens').mp hIssued' with hOld | ⟨rfl, hNew⟩
    · exact Or.inl hOld
    · rw [← Option.some.inj (hTokens.symm.trans hNew)]
      exact Or.inr ⟨subject, hBelongs, h.explained hExplains⟩

/-! ## All interleavings -/

/-- The rows with the hash of the token, of which there are some, are for the pair. -/
def StoredFor (s : Store) (refreshToken : String) (subject : Subject) : Prop :=
  (∃ r ∈ s.refreshToken.rows, r.token = sha256 refreshToken) ∧
    ∀ r ∈ s.refreshToken.rows, r.token = sha256 refreshToken →
      r.userId = subject.sub ∧ r.userType = subject.role

omit [PasswordRuntime] in
theorem Belongs.storedFor {s : Store} (hApart : ((sessions s).map Session.token).Nodup)
    {tokens : IssuedTokens} {subject : Subject} (h : Belongs s tokens subject) :
    StoredFor s tokens.refreshToken subject := by
  refine ⟨?_, fun r hMem hHash => ?_⟩
  · obtain ⟨r, hMem, hRow⟩ := List.mem_map.mp h.stored
    exact ⟨r, hMem, congrArg Session.token hRow⟩
  · have hRow := List.inj_on_of_nodup_map hApart (List.mem_map_of_mem hMem) h.stored hHash
    obtain ⟨-, hSub, hRole⟩ := Session.mk.inj hRow
    exact ⟨hSub, hRole⟩

/-- All tokens of a refresh chain belong to one pair. -/
theorem Lineage.chain (h : Lineage calls steps c) {root : ι} {tokens : IssuedTokens}
    {subject : Subject} (hChain : Relation.ReflTransGen (Rotates calls c) root i)
    (hIssued : Issued c i tokens) (hBelongs : Belongs c.state.store tokens subject) :
    ∃ tokens', Issued c root tokens' ∧ Belongs c.state.store tokens' subject := by
  induction hChain using Relation.ReflTransGen.head_induction_on with
  | refl => exact ⟨tokens, hIssued, hBelongs⟩
  | @head j k hRotates hRest ih =>
      obtain ⟨tokens₁, hIssued₁, hBelongs₁⟩ := ih
      obtain ⟨tokens₀, call, hIssued₀, hCall⟩ := hRotates
      obtain ⟨subject₁, hOwner, hSource⟩ := h.source k tokens₁ hIssued₁
      obtain rfl := hBelongs₁.unique h.apart hOwner rfl
      rcases hSource with ⟨step, -, hAuthenticates⟩ | ⟨l, tokens₂, call', -, hCall', hBelongs₂⟩
      · rw [hCall] at hAuthenticates
        exact hAuthenticates.elim
      · rw [hCall] at hCall'
        obtain ⟨hSame, -⟩ := SessionCall.refreshTokens.inj hCall'
        obtain ⟨subject₀, hBelongs₀, -⟩ := h.source j tokens₀ hIssued₀
        rw [hBelongs₂.unique h.apart hBelongs₀ hSame] at hBelongs₀
        exact ⟨tokens₀, hIssued₀, hBelongs₀⟩

section Runs

variable [DecodeRuntime] [LawfulTokens] [InjectiveHash] [DecidableEq ι]

/-- Calls that have not started, on a server. -/
def sessionCalls (s : Server) (calls : ι → SessionCall) : SessionPool ι :=
  Pool.start s fun i => (calls i).prog

theorem Lineage.of_run {s : Server} (hEmpty : s.store.refreshToken.rows = [])
    (hRun : Pool.History KeepsSessions (sessionCalls s calls) steps c) :
    Lineage calls steps c := by
  induction hRun with
  | start =>
      have hNone (i : ι) (tokens : IssuedTokens) :
          ¬ Issued (sessionCalls s calls) i tokens := by
        rintro ⟨answer, hReturned, hIssued⟩
        have hQuiet : answer.issued = none :=
          Prog.Commits.of_done ((calls i).commits ∅) hReturned
        rw [hIssued] at hQuiet
        cases hQuiet
      have hSessions : sessions (sessionCalls s calls).state.store = [] :=
        congrArg (List.map RefreshToken.session) hEmpty
      refine ⟨?_, ?_, ?_, fun i tokens h => absurd h (hNone i tokens),
        fun i tokens h => absurd h (hNone i tokens)⟩
      · rw [hSessions]
        exact List.nodup_nil
      · intro x hx
        rw [hSessions] at hx
        exact absurd hx List.not_mem_nil
      · rintro i - ⟨t, ⟨m, hMem, -⟩, rfl⟩
        exact absurd hMem List.not_mem_nil
  | step hBefore hStep ih =>
      have hChange := hBefore.change keepsSessions_refl (fun i => (calls i).commits ∅) hStep
      rcases hChange with ⟨i, hMoved, hSame, hQuiet⟩ | ⟨i, answer, hMoved, hReturned, hCommit⟩ |
        ⟨hSame, hProc⟩
      · exact ih.same hSame (issued_of_quiet hMoved hQuiet)
      · exact ih.commit hMoved hReturned hCommit
      · refine ih.same hSame fun j tokens => ?_
        unfold Issued Pool.Returned
        rw [hProc]

/-- **No privilege drift.** In every run, the tokens that a call has returned carry one pair of
an id and a role, which is `admin` or `user`; the row that is stored for them has this pair;
and the signup or login at the head of their refresh chain has authenticated it. -/
theorem no_privilege_drift {s : Server} (hEmpty : s.store.refreshToken.rows = [])
    (hRun : Pool.History KeepsSessions (sessionCalls s calls) steps c) {tokens : IssuedTokens}
    (hIssued : Issued c i tokens) :
    ∃ subject, (subject.role = "admin" ∨ subject.role = "user") ∧
      Carries tokens.accessToken subject ∧ Carries tokens.refreshToken subject ∧
      StoredFor c.state.store tokens.refreshToken subject ∧ (∃ root, Heads calls c root i) ∧
      ∀ root, Heads calls c root i →
        (∃ tokens', Issued c root tokens') ∧ Authenticated calls steps root subject := by
  have hLineage := Lineage.of_run hEmpty hRun
  obtain ⟨subject, hBelongs, -⟩ := hLineage.source i tokens hIssued
  have hHead (root : ι) (hHeads : Heads calls c root i) :
      (∃ tokens', Issued c root tokens') ∧ Authenticated calls steps root subject := by
    obtain ⟨tokens', hIssued', hBelongs'⟩ := hLineage.chain hHeads.2 hIssued hBelongs
    obtain ⟨subject', hOwner, hSource⟩ := hLineage.source root tokens' hIssued'
    obtain rfl := hBelongs'.unique hLineage.apart hOwner rfl
    rcases hSource with hAuthenticated | ⟨j, tokens₀, call, -, hCall, -⟩
    · exact ⟨⟨tokens', hIssued'⟩, hAuthenticated⟩
    · exact absurd hCall (hHeads.1 _ _)
  obtain ⟨root, hHeads⟩ := hLineage.head i tokens hIssued
  obtain ⟨-, step, -, hAuthenticates⟩ := hHead root hHeads
  exact ⟨subject, hAuthenticates.role, hBelongs.access, hBelongs.refresh,
    hBelongs.storedFor hLineage.apart, ⟨root, hHeads⟩, hHead⟩

end Runs

end Lineage

section Site

attribute [local instance] benTokens benDecode saltedHashes

theorem injective_benTokens : InjectiveHash where
  injective := fun h => String.append_right_inj _ |>.mp h

/-- The member of the small site logs in, and rotates its token. -/
def benCalls : Bool → SessionCall
  | true => .login ⟨"ben@site", "y", none⟩ benCall
  | false => .refreshTokens "r" ⟨"1", 10, 11, 12, 13, 14, 12, 14⟩

def benSessions : SessionPool Bool := sessionCalls ⟨site, [], 0⟩ benCalls

/-- The tokens after the rotation belong to the member, who has logged in. -/
theorem no_privilege_drift_site :
    let c := benSessions.play [true, true, false, false, false, false]
    ∃ steps, Pool.History KeepsSessions benSessions steps c ∧ Issued c false ⟨"x", "x"⟩ ∧
      ∃ subject, (subject.role = "admin" ∨ subject.role = "user") ∧
        Carries "x" subject ∧ Carries "x" subject ∧ StoredFor c.state.store "x" subject ∧
        (∃ root, Heads benCalls c root false) ∧
        ∀ root, Heads benCalls c root false →
          (∃ tokens', Issued c root tokens') ∧ Authenticated benCalls steps root subject := by
  intro c
  have hTokens := lawful_benTokens
  have hHash := injective_benTokens
  have hReach : Relation.ReflTransGen (Pool.Step KeepsSessions) benSessions c :=
    Pool.reach_of_exec (Pool.reach_play benSessions _)
  obtain ⟨steps, hRun⟩ := Pool.history_of_reach hReach
  have hIssued : Issued c false ⟨"x", "x"⟩ := ⟨_, rfl, rfl⟩
  exact ⟨steps, hRun, hIssued, no_privilege_drift rfl hRun hIssued⟩

end Site

end Rooeel
