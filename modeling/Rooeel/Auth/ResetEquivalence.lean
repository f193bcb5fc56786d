import Rooeel.Auth.ResetBinding

/-!
# Two services for one task

`AuthService` and `PasswordResetService` both issue and redeem reset tokens, and a request may
be served by either. They delete different rows when they issue a token: `AuthService` all
rows with the address, `PasswordResetService` the expired and the unused ones. So the stores
drift apart, but only in rows of used tokens, which no request can redeem (`SameButUsed`).

One request keeps two such stores so, whichever service serves it in each of them
(`SameButUsed.step`). With that, what can be observed along two runs with the same requests is
the same (`reset_services_interchangeable`).
-/

namespace Rooeel

open JavaScript Prog Table

/-! ## Requests -/

/-- The services that issue and redeem reset tokens. -/
inductive ResetService where
  | authService
  | passwordResetService

/-- A request, with what is random and what the clock says while it is served. -/
inductive ResetRequest where
  | forgot (email : String) (call : IssueCall)
  | reset (token : String) (call : ResetCall)

def ResetService.redemption (call : ResetCall) : ResetService → Redemption
  | .authService => .authService call
  | .passwordResetService => .passwordResetService call

def ResetRequest.prog [PasswordRuntime] : ResetService → ResetRequest → Service String
  | .authService, .forgot email call => AuthService.forgotPassword email call
  | .passwordResetService, .forgot email call => PasswordResetService.requestReset email call
  | service, .reset token call => (service.redemption call).prog token

def unusedTokens (s : Store) : List PasswordResetToken :=
  s.passwordResetToken.rows.filter fun r => r.usedAt.isNone

/-- What can be observed after a request. -/
structure Observed where
  succeeded : Bool
  passwords : List (Id × String)
  unused : List PasswordResetToken
  deriving DecidableEq

def observe (result : Except Exn String × Store) : Observed where
  succeeded := result.1.isOk
  passwords := Redemption.passwords result.2
  unused := unusedTokens result.2

/-- What is observed after each request of a sequence, each of them served by the service next
to it. -/
def observations [PasswordRuntime] (s : Store) : List (ResetService × ResetRequest) → List Observed
  | [] => []
  | (service, request) :: rest =>
    observe ((request.prog service).run s) ::
      observations ((request.prog service).run s).2 rest

/-- The random token of a request. -/
def ResetRequest.rawToken : ResetRequest → Option String
  | .forgot _ call => some call.rawToken
  | .reset _ _ => none

/-- The random tokens of the requests are new, and no two are the same. -/
structure FreshTokens (s : Store) (requests : List ResetRequest) : Prop where
  distinct : (requests.filterMap ResetRequest.rawToken).Nodup
  new : ∀ raw ∈ requests.filterMap ResetRequest.rawToken,
    ∀ r ∈ s.passwordResetToken.rows, r.token ≠ raw

/-! ## Issuing a token -/

/-- The rows that are deleted in favour of a new token: rows with the address only, and all
unused ones of them. -/
structure Replaces (email : String) (sel : PasswordResetToken → Bool) : Prop where
  own : ∀ r, sel r = true → r.email = email
  unused : ∀ r, r.email = email → r.usedAt = none → sel r = true

theorem replaces_ownTokens (email : String) : Replaces email (ownTokens email) where
  own := fun _ hSel => beq_iff_eq.mp hSel
  unused := fun _ hOwn _ => beq_iff_eq.mpr hOwn

theorem replaces_staleTokens (email : String) (call : IssueCall) :
    Replaces email (staleTokens email call) where
  own := by
    intro r hSel
    simp only [staleTokens, Bool.or_eq_true, Bool.and_eq_true, beq_iff_eq] at hSel
    exact hSel.elim And.left And.left
  unused := by
    intro r hOwn hUnused
    simp [staleTokens, hOwn, hUnused]

/-- The request is answered at once when nobody has the address. Otherwise the selected rows are
deleted, and the new token is stored. -/
def Forgets (email : String) (call : IssueCall) (sel : PasswordResetToken → Bool)
    (p : Service String) (s : Store) : Prop :=
  ∃ message, (holder s email = none ∧ p.run s = (.ok message, s)) ∨
    (holder s email ≠ none ∧ p.run s =
      (call.outcome.mailError.elim (.ok message) .error,
        withToken email call (prisma.passwordResetToken.erase sel s)))

section Forgot

variable {email : String} {call : IssueCall} {s : Store}

theorem forgotPassword_run (hNew : ∀ r ∈ s.passwordResetToken.rows, r.token ≠ call.rawToken) :
    Forgets email call (ownTokens email) (AuthService.forgotPassword email call) s := by
  refine ⟨"If that email exists, a reset link has been sent.", ?_⟩
  by_cases hHolder : holder s email = none
  · exact Or.inl ⟨hHolder, forgotPassword_unknown hHolder⟩
  · rw [forgotPassword_known hHolder]
    exact Or.inr ⟨hHolder, issue_run fun r hr => hNew r (mem_erase.mp hr).1⟩

theorem requestReset_run (hNew : ∀ r ∈ s.passwordResetToken.rows, r.token ≠ call.rawToken) :
    Forgets email call (staleTokens email call) (PasswordResetService.requestReset email call)
      s := by
  refine ⟨"If an account exists with this email, a password reset link has been sent.", ?_⟩
  by_cases hHolder : holder s email = none
  · exact Or.inl ⟨hHolder, requestReset_unknown hHolder⟩
  · rw [requestReset_known hHolder]
    exact Or.inr ⟨hHolder, issue_run fun r hr => hNew r (mem_erase.mp hr).1⟩

/-- Either service deletes rows that the new token replaces, and stores it. -/
theorem forgot_run [PasswordRuntime]
    (hNew : ∀ r ∈ s.passwordResetToken.rows, r.token ≠ call.rawToken) (service : ResetService) :
    ∃ sel, Replaces email sel ∧
      Forgets email call sel ((ResetRequest.forgot email call).prog service) s := by
  cases service with
  | authService => exact ⟨_, replaces_ownTokens email, forgotPassword_run hNew⟩
  | passwordResetService => exact ⟨_, replaces_staleTokens email call, requestReset_run hNew⟩

end Forgot

/-! ## Redeeming a token -/

/-- The row of an unused token. -/
def unusedOf (token : String) (s : Store) : Option PasswordResetToken :=
  (unusedTokens s).find? fun r => r.token == token

/-- The unused row of a token is the row of the token. -/
theorem unusedOf_eq_some {s : Store} (hUnique : Redemption.UniqueTokens s.passwordResetToken)
    {token : String} {record : PasswordResetToken} :
    unusedOf token s = some record ↔
      Redemption.tokenOf token s.passwordResetToken = some record ∧ record.usedAt = none := by
  have hSound : prisma.passwordResetToken.Sound s := ⟨fun _ _ => rfl, hUnique⟩
  -- two rows with the token are one
  have hSame {a b : PasswordResetToken} (ha : a ∈ s.passwordResetToken.rows)
      (hb : b ∈ s.passwordResetToken.rows) (haToken : a.token = token) (hbToken : b.token = token) :
      a = b :=
    hSound.eq_of_conflicts (fun _ _ => Bool.beq_comm) ha hb
      (beq_iff_eq.mpr (haToken.trans hbToken.symm))
  have hFound {rows : List PasswordResetToken} {r : PasswordResetToken}
      (h : (rows.find? fun r => r.token == token) = some r) : r ∈ rows ∧ r.token = token :=
    ⟨List.mem_of_find?_eq_some h, by simpa using List.find?_some h⟩
  have hExists {rows : List PasswordResetToken} {r : PasswordResetToken} (hr : r ∈ rows)
      (hToken : r.token = token) : ∃ r', (rows.find? fun r => r.token == token) = some r' := by
    refine Option.isSome_iff_exists.mp (List.find?_isSome.mpr ⟨r, hr, ?_⟩)
    exact beq_iff_eq.mpr hToken
  constructor
  · intro hUnused
    obtain ⟨hMem, hToken⟩ := hFound hUnused
    obtain ⟨hRow, hNone⟩ := List.mem_filter.mp hMem
    obtain ⟨r, hFind⟩ := hExists hRow hToken
    obtain ⟨hr, hrToken⟩ := hFound hFind
    rw [hSame hr hRow hrToken hToken] at hFind
    exact ⟨hFind, Option.isNone_iff_eq_none.mp hNone⟩
  · rintro ⟨hFind, hNone⟩
    obtain ⟨hRow, hToken⟩ := hFound hFind
    have hMem : record ∈ unusedTokens s :=
      List.mem_filter.mpr ⟨hRow, Option.isNone_iff_eq_none.mpr hNone⟩
    obtain ⟨r, hUnused⟩ := hExists hMem hToken
    obtain ⟨hr, hrToken⟩ := hFound hUnused
    rw [hSame (List.mem_filter.mp hr).1 hRow hrToken hToken] at hUnused
    exact hUnused

section Redeem

variable [PasswordRuntime]

theorem key_password (call : ResetCall) (u : User) :
    Row.key { u with password := call.secret.hash } = Row.key u := rfl

omit [PasswordRuntime] in
theorem key_usedAt (call : ResetCall) (x : PasswordResetToken) :
    Row.key { x with usedAt := some call.usedAt } = Row.key x := rfl

/-- The store after the write of the password, when the checks pass and the write succeeds. -/
def writePassword (record : PasswordResetToken) (call : ResetCall) (s : Store) : Option Store :=
  if record.expiresAt < call.checkedAt then none
  else
    (holder s record.email).bind fun user =>
      (prisma.user.update (fun u => u.id == user.id)
        (fun u => { u with password := call.secret.hash }) (key_password call) s).toOption.map
        Prod.snd

/-- The store with the row marked as used. -/
def marked (record : PasswordResetToken) (call : ResetCall) (s : Store) : Store :=
  { s with
    passwordResetToken := s.passwordResetToken.modify (fun x => Row.key x == Row.key record)
      (fun x => { x with usedAt := some call.usedAt }) (key_usedAt call) }

/-- The store after a token was redeemed; `none` when it is not. -/
def redeemed (token : String) (call : ResetCall) (s : Store) : Option Store :=
  (unusedOf token s).bind fun record => (writePassword record call s).map (marked record call)

theorem writePassword_tokens {record : PasswordResetToken} {call : ResetCall} {s s₁ : Store}
    (h : writePassword record call s = some s₁) :
    s₁.passwordResetToken = s.passwordResetToken := by
  unfold writePassword at h
  split at h
  · cases h
  · obtain ⟨user, -, hUpdate⟩ := Option.bind_eq_some_iff.mp h
    obtain ⟨⟨row, s₂⟩, hOk, rfl⟩ := Option.map_eq_some_iff.mp hUpdate
    generalize hResult : prisma.user.update _ _ _ s = result at hOk
    cases result with
    | error e => cases hOk
    | ok out =>
        cases hOk
        obtain ⟨-, -, -, -, -, -, rfl⟩ := Model.update_ok hResult
        rfl

omit [PasswordRuntime] in
/-- A token that is unknown or used has no unused row. -/
theorem unusedOf_eq_none {s : Store} (hUnique : Redemption.UniqueTokens s.passwordResetToken)
    {token : String}
    (hUsed : ∀ record, Redemption.tokenOf token s.passwordResetToken = some record →
      record.usedAt.isSome = true) : unusedOf token s = none := by
  refine Option.eq_none_iff_forall_ne_some.mpr fun record hUnused => ?_
  obtain ⟨hFound, hNot⟩ := (unusedOf_eq_some hUnique).mp hUnused
  have hSome := hUsed record hFound
  rw [hNot] at hSome
  cases hSome

/-- What follows the checks of a row that is not expired. -/
theorem redeem_run {r : Redemption} {token : String} {record : PasswordResetToken} {s : Store}
    (hUnique : Redemption.UniqueTokens s.passwordResetToken)
    (hFind : Redemption.tokenOf token s.passwordResetToken = some record)
    (hExpires : ¬ record.expiresAt < r.call.checkedAt) :
    (writePassword record r.call s = none ∧
        ∃ e, (Redemption.redeem r token record).run s = (.error e, s)) ∨
      ∃ s₁, writePassword record r.call s = some s₁ ∧
        (Redemption.redeem r token record).run s =
          (.ok r.method.done, marked record r.call s₁) := by
  have hRead : (findUnique prisma.user fun u => u.email == record.email).run s =
      (.ok (holder s record.email), s) := rfl
  have hWrite : writePassword record r.call s = (holder s record.email).bind fun user =>
      (prisma.user.update (fun u => u.id == user.id)
        (fun u => { u with password := r.call.secret.hash }) (fun _ => rfl) s).toOption.map
        Prod.snd := if_neg hExpires
  unfold Redemption.redeem
  rw [run_bind_ok hRead]
  cases hUser : holder s record.email with
  | none =>
      rw [hUser] at hWrite
      exact Or.inl ⟨hWrite, _, rfl⟩
  | some user =>
      rw [hUser, Option.bind_some] at hWrite
      change (_ ∧ ∃ e, (Redemption.setPassword r token record user).run s = _) ∨
        ∃ s₁, _ ∧ (Redemption.setPassword r token record user).run s = _
      unfold Redemption.setPassword
      cases hUpdate : prisma.user.update (fun u => u.id == user.id)
          (fun u => { u with password := r.call.secret.hash }) (fun _ => rfl) s with
      | error e =>
          rw [hUpdate] at hWrite
          exact Or.inl ⟨hWrite, _, run_bind_error (execute_run_error hUpdate)⟩
      | ok out =>
          obtain ⟨row, s₁⟩ := out
          rw [hUpdate] at hWrite
          refine Or.inr ⟨s₁, hWrite, ?_⟩
          have hTokens := writePassword_tokens hWrite
          obtain ⟨hFirst, hAccepts⟩ := Redemption.marks_record (s := s₁) (hTokens ▸ hUnique)
            (hTokens ▸ hFind) r
          have hMark : (update prisma.passwordResetToken (r.method.marks token record) fun x =>
              { x with usedAt := some r.call.usedAt }).run s₁ = (.ok _, marked record r.call s₁) :=
            execute_run (Model.update_of_find hFirst hAccepts)
          refine (run_bind_ok (execute_run hUpdate)).trans ?_
          exact run_bind_ok hMark

/-- Either service redeems an unused token, and no other. -/
theorem reset_run (service : ResetService) (token : String) (call : ResetCall) {s : Store}
    (hUnique : Redemption.UniqueTokens s.passwordResetToken) :
    (redeemed token call s = none ∧
        ∃ e, ((ResetRequest.reset token call).prog service).run s = (.error e, s)) ∨
      ∃ s₁ message, redeemed token call s = some s₁ ∧
        ((ResetRequest.reset token call).prog service).run s = (.ok message, s₁) := by
  have hProg : (ResetRequest.reset token call).prog service =
      (service.redemption call).prog token := by
    cases service <;> rfl
  have hCall : (service.redemption call).call = call := by
    cases service <;> rfl
  generalize service.redemption call = r at hProg hCall
  subst hCall
  have hRead : (query fun s => Redemption.tokenOf token s.passwordResetToken).run s =
      (.ok (Redemption.tokenOf token s.passwordResetToken), s) := rfl
  rw [hProg, Redemption.prog_eq, run_bind_ok hRead, redeemed]
  cases hFind : Redemption.tokenOf token s.passwordResetToken with
  | none =>
      have hNone : unusedOf token s = none := by
        refine unusedOf_eq_none hUnique fun record hFound => ?_
        cases hFind.symm.trans hFound
      rw [hNone]
      exact Or.inl ⟨rfl, _, rfl⟩
  | some record =>
      rw [Redemption.afterLookup_some, throwIf_bind, throwIf_bind]
      split
      · rename_i hUsed
        have hNone : unusedOf token s = none := by
          refine unusedOf_eq_none hUnique fun other hFound => ?_
          rw [← Option.some.inj (hFind.symm.trans hFound)]
          exact hUsed
        rw [hNone]
        exact Or.inl ⟨rfl, _, rfl⟩
      · rename_i hNot
        have hUnused : unusedOf token s = some record :=
          (unusedOf_eq_some hUnique).mpr ⟨hFind, Option.not_isSome_iff_eq_none.mp hNot⟩
        rw [hUnused, Option.bind_some]
        split
        · rename_i hExpired
          rw [writePassword, if_pos hExpired]
          exact Or.inl ⟨rfl, _, rfl⟩
        · rename_i hExpires
          rcases redeem_run hUnique hFind hExpires with ⟨hWrite, hRun⟩ | ⟨s₁, hWrite, hRun⟩
          · rw [hWrite]
            exact Or.inl ⟨rfl, hRun⟩
          · rw [hWrite]
            exact Or.inr ⟨_, _, rfl, hRun⟩

end Redeem

/-! ## Stores that differ in used tokens -/

/-- A row keeps its token. -/
theorem uniqueTokens_marked {record : PasswordResetToken} {call : ResetCall} {s : Store}
    (h : Redemption.UniqueTokens s.passwordResetToken) :
    Redemption.UniqueTokens (marked record call s).passwordResetToken := by
  have hToken (r : PasswordResetToken) :
      (if Row.key r == Row.key record then { r with usedAt := some call.usedAt } else r).token =
        r.token := by
    split <;> rfl
  refine List.pairwise_map.mpr (h.imp fun {a b} hab => ?_)
  rw [hToken, hToken]
  exact hab

/-- A new token is none of the others. -/
theorem uniqueTokens_withToken {email : String} {call : IssueCall} {s : Store}
    {sel : PasswordResetToken → Bool} (h : Redemption.UniqueTokens s.passwordResetToken)
    (hNew : ∀ r ∈ s.passwordResetToken.rows, r.token ≠ call.rawToken) :
    Redemption.UniqueTokens
      (withToken email call (prisma.passwordResetToken.erase sel s)).passwordResetToken := by
  refine List.pairwise_append.mpr
    ⟨h.sublist List.filter_sublist, List.pairwise_singleton _ _, fun r hr new hMem => ?_⟩
  rw [List.mem_singleton.mp hMem]
  exact beq_eq_false_iff_ne.mpr (hNew r (mem_erase.mp hr).1)

/-- The stores are the same but for rows of used tokens. -/
structure SameButUsed (s s' : Store) : Prop where
  rest : s' = { s with passwordResetToken := s'.passwordResetToken }
  next : s'.passwordResetToken.next = s.passwordResetToken.next
  unused : unusedTokens s' = unusedTokens s
  unique : Redemption.UniqueTokens s.passwordResetToken
  unique' : Redemption.UniqueTokens s'.passwordResetToken

theorem unusedTokens_withToken {email : String} {call : IssueCall} {s : Store}
    {sel : PasswordResetToken → Bool} (hSel : Replaces email sel) :
    unusedTokens (withToken email call (prisma.passwordResetToken.erase sel s)) =
      ((unusedTokens s).filter fun r => !(r.email == email)) ++
        [newToken email call s.passwordResetToken.next] := by
  change List.filter _ ((s.passwordResetToken.rows.filter fun r => !sel r) ++ [_]) = _
  rw [List.filter_append, List.filter_filter, unusedTokens, List.filter_filter]
  congr 1
  refine List.filter_congr fun r _ => ?_
  cases hUsed : r.usedAt with
  | some usedAt => simp
  | none =>
      rw [Option.isNone_none, Bool.true_and, Bool.and_true, Bool.not_inj_iff, Bool.eq_iff_iff,
        beq_iff_eq]
      exact ⟨hSel.own r, fun hOwn => hSel.unused r hOwn hUsed⟩

theorem filter_unused_map (p : PasswordResetToken → Bool) (usedAt : Int)
    (rows : List PasswordResetToken) :
    (rows.map fun r => if p r then { r with usedAt := some usedAt } else r).filter
        (fun r => r.usedAt.isNone) =
      (rows.filter fun r => r.usedAt.isNone).filter fun r => !p r := by
  induction rows with
  | nil => rfl
  | cons r rest ih =>
      rw [List.map_cons, List.filter_cons, List.filter_cons, ih]
      by_cases hMarked : p r = true
      · rw [if_pos hMarked]
        cases hUsed : r.usedAt with
        | none => simp [hMarked]
        | some usedAt => simp
      · rw [if_neg hMarked]
        cases hUsed : r.usedAt with
        | none => simp [hMarked]
        | some usedAt => simp

theorem unusedTokens_marked (record : PasswordResetToken) (call : ResetCall) (s : Store) :
    unusedTokens (marked record call s) =
      (unusedTokens s).filter fun r => !(Row.key r == Row.key record) :=
  filter_unused_map _ _ _

/-- A change of a user does not look at the tokens. -/
theorem updateUser_withTokens (sel : User → Bool) (f : User → User)
    (hf : ∀ r, Row.key (f r) = Row.key r) (s : Store) (t : Table PasswordResetToken) :
    prisma.user.update sel f hf { s with passwordResetToken := t } =
      (prisma.user.update sel f hf s).map fun out =>
        (out.1, { out.2 with passwordResetToken := t }) := by
  have hFirst : prisma.user.findFirst sel { s with passwordResetToken := t } =
      prisma.user.findFirst sel s := rfl
  have hAccepts (r : User) : prisma.user.accepts { s with passwordResetToken := t } r =
      prisma.user.accepts s r := rfl
  unfold Model.update
  rw [hFirst]
  cases prisma.user.findFirst sel s with
  | none => rfl
  | some r =>
      simp only [hAccepts]
      cases prisma.user.accepts s (f r) with
      | error e => rfl
      | ok u => rfl

/-- The write of a password does not look at the tokens. -/
theorem writePassword_withTokens [PasswordRuntime] (record : PasswordResetToken)
    (call : ResetCall) (s : Store) (t : Table PasswordResetToken) :
    writePassword record call { s with passwordResetToken := t } =
      (writePassword record call s).map fun s₁ => { s₁ with passwordResetToken := t } := by
  have hHolder : holder { s with passwordResetToken := t } record.email =
      holder s record.email := rfl
  unfold writePassword
  split
  · rfl
  · rw [hHolder]
    cases holder s record.email with
    | none => rfl
    | some user =>
        rw [Option.bind_some, Option.bind_some, updateUser_withTokens]
        cases prisma.user.update _ _ _ s with
        | error e => rfl
        | ok out => rfl

namespace SameButUsed

variable {s s' : Store}

theorem refl (hUnique : Redemption.UniqueTokens s.passwordResetToken) : SameButUsed s s :=
  ⟨rfl, rfl, rfl, hUnique, hUnique⟩

theorem passwords_eq (h : SameButUsed s s') : Redemption.passwords s' = Redemption.passwords s := by
  rw [h.rest]
  rfl

theorem unusedOf_eq (h : SameButUsed s s') (token : String) :
    unusedOf token s' = unusedOf token s := by
  rw [unusedOf, h.unused, unusedOf]

theorem holder_eq (h : SameButUsed s s') (email : String) : holder s' email = holder s email := by
  rw [h.rest]
  rfl

variable [PasswordRuntime]

/-- A token is redeemed in both stores or in none. -/
theorem redeemed_cases (h : SameButUsed s s') (token : String) (call : ResetCall) :
    (redeemed token call s = none ∧ redeemed token call s' = none) ∨
      ∃ s₁ s₁', redeemed token call s = some s₁ ∧ redeemed token call s' = some s₁' ∧
        SameButUsed s₁ s₁' := by
  rw [redeemed, redeemed, h.unusedOf_eq]
  cases unusedOf token s with
  | none => exact Or.inl ⟨rfl, rfl⟩
  | some record =>
      have hWrite : writePassword record call s' = (writePassword record call s).map fun s₁ =>
          { s₁ with passwordResetToken := s'.passwordResetToken } := by
        rw [← writePassword_withTokens, ← h.rest]
      rw [Option.bind_some, Option.bind_some, hWrite]
      cases hWritten : writePassword record call s with
      | none => exact Or.inl ⟨rfl, rfl⟩
      | some s₁ =>
          have hTokens := writePassword_tokens hWritten
          have hUnused : unusedTokens s₁ = unusedTokens s := by
            rw [unusedTokens, hTokens, unusedTokens]
          refine Or.inr ⟨_, _, rfl, rfl, ⟨rfl, ?_, ?_, ?_, ?_⟩⟩
          · change s'.passwordResetToken.next = s₁.passwordResetToken.next
            rw [hTokens]
            exact h.next
          · rw [unusedTokens_marked, unusedTokens_marked, hUnused]
            exact congrArg _ h.unused
          · exact uniqueTokens_marked (hTokens ▸ h.unique)
          · exact uniqueTokens_marked h.unique'

/-- Whichever services serve a request in the two stores, what is observed after it is the
same, and the stores are again the same but for used tokens. -/
theorem step (h : SameButUsed s s') (request : ResetRequest) (service service' : ResetService)
    (hNew : ∀ raw, request.rawToken = some raw → ∀ r ∈ s.passwordResetToken.rows, r.token ≠ raw)
    (hNew' : ∀ raw, request.rawToken = some raw →
      ∀ r ∈ s'.passwordResetToken.rows, r.token ≠ raw) :
    ((request.prog service').run s').1.isOk = ((request.prog service).run s).1.isOk ∧
      SameButUsed ((request.prog service).run s).2 ((request.prog service').run s').2 := by
  cases request with
  | forgot email call =>
      obtain ⟨sel, hSel, message, hServed⟩ := forgot_run (hNew _ rfl) service
      obtain ⟨sel', hSel', message', hServed'⟩ := forgot_run (hNew' _ rfl) service'
      rw [h.holder_eq] at hServed'
      rcases hServed with ⟨hNone, hRun⟩ | ⟨hSome, hRun⟩
      · obtain ⟨-, hRun'⟩ := hServed'.resolve_right fun hOther => hOther.1 hNone
        rw [hRun, hRun']
        exact ⟨rfl, h⟩
      · obtain ⟨-, hRun'⟩ := hServed'.resolve_left fun hOther => hSome hOther.1
        rw [hRun, hRun']
        refine ⟨by cases call.outcome.mailError <;> rfl, ?_, ?_, ?_, ?_, ?_⟩
        · rw [h.rest]
          rfl
        · change s'.passwordResetToken.next + 1 = s.passwordResetToken.next + 1
          rw [h.next]
        · rw [unusedTokens_withToken hSel, unusedTokens_withToken hSel', h.unused, h.next]
        · exact uniqueTokens_withToken h.unique (hNew _ rfl)
        · exact uniqueTokens_withToken h.unique' (hNew' _ rfl)
  | reset token call =>
      have hServed := reset_run service token call h.unique
      have hServed' := reset_run service' token call h.unique'
      rcases h.redeemed_cases token call with ⟨hNone, hNone'⟩ | ⟨s₁, s₁', hSome, hSome', hSame⟩
      · rw [hNone] at hServed
        rw [hNone'] at hServed'
        obtain ⟨-, e, hRun⟩ := hServed.resolve_right (by simp)
        obtain ⟨-, e', hRun'⟩ := hServed'.resolve_right (by simp)
        rw [hRun, hRun']
        exact ⟨rfl, h⟩
      · rw [hSome] at hServed
        rw [hSome'] at hServed'
        obtain ⟨_, message, hEq, hRun⟩ := hServed.resolve_left (by simp)
        obtain ⟨_, message', hEq', hRun'⟩ := hServed'.resolve_left (by simp)
        obtain rfl := Option.some.inj hEq
        obtain rfl := Option.some.inj hEq'
        rw [hRun, hRun']
        exact ⟨rfl, hSame⟩

end SameButUsed

/-! ## Runs -/

/-- A request leaves old tokens, and its own. -/
theorem tokens_after [PasswordRuntime] (service : ResetService) (request : ResetRequest) {s : Store}
    (hNew : ∀ raw, request.rawToken = some raw →
      ∀ r ∈ s.passwordResetToken.rows, r.token ≠ raw) :
    ∀ r ∈ ((request.prog service).run s).2.passwordResetToken.rows,
      (∃ r₀ ∈ s.passwordResetToken.rows, r₀.token = r.token) ∨
        request.rawToken = some r.token := by
  intro r hr
  cases request with
  | forgot email call =>
      obtain ⟨sel, -, message, ⟨-, hRun⟩ | ⟨-, hRun⟩⟩ := forgot_run (hNew _ rfl) service
      · rw [hRun] at hr
        exact Or.inl ⟨r, hr, rfl⟩
      · rw [hRun] at hr
        rcases List.mem_append.mp hr with hOld | hOwn
        · exact Or.inl ⟨r, (mem_erase.mp hOld).1, rfl⟩
        · rw [List.mem_singleton.mp hOwn]
          exact Or.inr rfl
  | reset token call =>
      have hProg : (ResetRequest.reset token call).prog service =
          (service.redemption call).prog token := by
        cases service <;> rfl
      rw [hProg] at hr
      obtain ⟨r₀, hr₀, hToken, -⟩ := (LeavesTokens.stays
        (marksTokens_resetPassword token (service.redemption call)).leaves s).rows r hr
      exact Or.inl ⟨r₀, hr₀, hToken⟩

namespace FreshTokens

variable [PasswordRuntime] {s : Store} {request : ResetRequest} {rest : List ResetRequest}

omit [PasswordRuntime] in
theorem head (h : FreshTokens s (request :: rest)) :
    ∀ raw, request.rawToken = some raw → ∀ r ∈ s.passwordResetToken.rows, r.token ≠ raw := by
  intro raw hRaw
  refine h.new raw ?_
  rw [List.filterMap_cons_some hRaw]
  exact List.mem_cons_self

/-- The tokens of the requests to come are still new after a request. -/
theorem step (h : FreshTokens s (request :: rest)) (service : ResetService) :
    FreshTokens ((request.prog service).run s).2 rest := by
  have hSub : (rest.filterMap ResetRequest.rawToken).Sublist
      ((request :: rest).filterMap ResetRequest.rawToken) :=
    (List.sublist_cons_self request rest).filterMap _
  refine ⟨hSub.nodup h.distinct, fun raw hRaw r hr hSame => ?_⟩
  rcases tokens_after service request h.head r hr with ⟨r₀, hr₀, hOld⟩ | hOwn
  · exact h.new raw (hSub.subset hRaw) r₀ hr₀ (hOld.trans hSame)
  · have hDistinct := h.distinct
    rw [List.filterMap_cons_some hOwn, hSame] at hDistinct
    exact (List.nodup_cons.mp hDistinct).1 hRaw

end FreshTokens

/-- Two runs from stores that are the same but for used tokens. -/
theorem SameButUsed.observations_eq [PasswordRuntime] {s s' : Store} (h : SameButUsed s s')
    {calls calls' : List (ResetService × ResetRequest)}
    (hSame : calls.map Prod.snd = calls'.map Prod.snd)
    (hFresh : FreshTokens s (calls.map Prod.snd))
    (hFresh' : FreshTokens s' (calls.map Prod.snd)) :
    observations s' calls' = observations s calls := by
  induction calls generalizing s s' calls' with
  | nil =>
      rw [List.map_eq_nil_iff.mp hSame.symm]
      rfl
  | cons call rest ih =>
      obtain ⟨service, request⟩ := call
      cases calls' with
      | nil => cases hSame
      | cons call' rest' =>
          obtain ⟨service', request'⟩ := call'
          obtain ⟨hRequest, hRest⟩ := List.cons.inj hSame
          obtain rfl : request = request' := hRequest
          obtain ⟨hOk, hAfter⟩ := h.step request service service' hFresh.head hFresh'.head
          have hTail := ih hAfter hRest (hFresh.step service) (hFresh'.step service')
          have hObserved : observe ((request.prog service').run s') =
              observe ((request.prog service).run s) := by
            rw [observe, observe, hOk, hAfter.passwords_eq, hAfter.unused]
          rw [observations, observations, hObserved, hTail]

/-- **The two services are interchangeable.** Whichever service serves each request of a
sequence, the requests succeed or fail alike, and after each of them the passwords and the
unused tokens are the same. -/
theorem reset_services_interchangeable [PasswordRuntime] {s : Store}
    (hUnique : Redemption.UniqueTokens s.passwordResetToken)
    {calls calls' : List (ResetService × ResetRequest)}
    (hSame : calls.map Prod.snd = calls'.map Prod.snd)
    (hFresh : FreshTokens s (calls.map Prod.snd)) :
    observations s calls = observations s calls' :=
  ((SameButUsed.refl hUnique).observations_eq hSame hFresh hFresh).symm

section Site

attribute [local instance] saltedHashes

/-- The member redeems the link, forgets the password again, and tries the first link once
more before the second. -/
def twoLinks : List ResetRequest :=
  [.reset "t" ⟨⟨"p", "0"⟩, 10, 11⟩, .forgot "ben@site" ⟨"u", 20, 20, .answers none⟩,
    .reset "t" ⟨⟨"q", "1"⟩, 30, 31⟩, .reset "u" ⟨⟨"q", "2"⟩, 40, 41⟩]

/-- `AuthService` serves all requests, or every second one. -/
theorem reset_services_interchangeable_site :
    observations Redemption.resetSite (twoLinks.map fun r => (.authService, r)) =
      observations Redemption.resetSite (List.zip [.passwordResetService, .passwordResetService,
        .authService, .passwordResetService] twoLinks) ∧
      (observations Redemption.resetSite (twoLinks.map fun r => (.authService, r))).map
        Observed.succeeded = [true, true, false, true] := by
  refine ⟨reset_services_interchangeable ?_ rfl ⟨by decide, by decide⟩, by decide⟩
  exact Redemption.resetSite_valid.passwordResetToken.unique

end Site

end Rooeel
