import Rooeel.Auth.ResetEquivalence

/-!
# One live link for an address

A token can be redeemed while its row is unused. A call that issues a token for an address first
deletes the unused rows of the address, whichever service serves it, and nothing else makes a
row unused. So along a run there is never more than one unused row for an address, and a token
that has been replaced is refused from then on (`one_live_link`).
-/

namespace Rooeel

open JavaScript Prog Table

/-- No address has two unused tokens. -/
def OneLiveLink (s : Store) : Prop :=
  ∀ email, ((unusedTokens s).filter fun r => r.email == email).length ≤ 1

/-- The token has no unused row. -/
def Dead (token : String) (s : Store) : Prop := ∀ r ∈ unusedTokens s, r.token ≠ token

/-- Neither service redeems the token. -/
def Unredeemable [PasswordRuntime] (token : String) (s : Store) : Prop :=
  ∀ r : Redemption, ∃ e, (r.prog token).run s = (.error e, s)

theorem Dead.unredeemable [PasswordRuntime] {token : String} {s : Store} (h : Dead token s) :
    Unredeemable token s := by
  intro r
  rw [Redemption.prog_eq, query_bind_run]
  cases hFind : Redemption.tokenOf token s.passwordResetToken with
  | none => exact ⟨_, rfl⟩
  | some record =>
      have hMem : record ∈ s.passwordResetToken.rows := List.mem_of_find?_eq_some hFind
      have hToken : record.token = token := by simpa using List.find?_some hFind
      have hUsed : record.usedAt.isSome = true := by
        by_contra hUnused
        have hNone : record.usedAt.isNone = true := by simpa using hUnused
        exact h record (List.mem_filter.mpr ⟨hMem, hNone⟩) hToken
      rw [Redemption.afterLookup_some, throwIf_bind, if_pos hUsed]
      exact ⟨_, rfl⟩

/-! ## What an operation does to the unused tokens -/

/-- A token was issued, and the unused rows of the address were replaced by its row. -/
structure LinkReplaced (email : String) (call : IssueCall) (s s' : Store) : Prop where
  created : TokenCreated email call s s'
  unused : unusedTokens s' = ((unusedTokens s).filter fun r => !(r.email == email)) ++
    [newToken email call s.passwordResetToken.next]

/-- No row has become unused, or a token has replaced the others of its address. -/
def LinkStep (op : ResetOp) (s s' : Store) : Prop :=
  (TokensStay s s' ∧ (unusedTokens s').Sublist (unusedTokens s)) ∨
    ∃ email call, op.recipient = some email ∧ LinkReplaced email call s s'

theorem unused_erase (sel : PasswordResetToken → Bool) (s : Store) :
    (unusedTokens (prisma.passwordResetToken.erase sel s)).Sublist (unusedTokens s) :=
  List.filter_sublist.filter _

theorem unused_marks {s s' : Store} (h : MarksOnly s s') :
    (unusedTokens s').Sublist (unusedTokens s) := by
  rcases h with hSame | ⟨p, usedAt, hMarked⟩
  · rw [unusedTokens, hSame, unusedTokens]
  · rw [unusedTokens, hMarked, rows_modify, filter_unused_map]
    exact List.filter_sublist

section Steps

variable {email message : String} {call : IssueCall} {sel : PasswordResetToken → Bool} {s : Store}

theorem linkStep_issue {op : ResetOp} (hOp : op.recipient = some email)
    (hKnown : holder s email ≠ none) (hSel : Replaces email sel) :
    LinkStep op s
      ((issueToken email message call).run (prisma.passwordResetToken.erase sel s)).2 := by
  rcases issueToken_cases email message call (prisma.passwordResetToken.erase sel s) with
    hSame | ⟨hNew, hStored⟩
  · rw [hSame]
    exact Or.inl ⟨tokensStay_erase sel s, unused_erase sel s⟩
  · rw [hStored]
    refine Or.inr ⟨email, call, hOp, ⟨⟨_, tokensStay_erase sel s, hNew, rfl⟩, ?_⟩, ?_⟩
    · exact Option.isSome_iff_ne_none.mpr hKnown
    · exact unusedTokens_withToken hSel

theorem linkStep_marks [PasswordRuntime] {op : ResetOp} (hNone : op.recipient = none) (s : Store) :
    LinkStep op s (op.prog.run s).2 := by
  have hMarks := ResetOp.marks hNone
  refine Or.inl ⟨hMarks.leaves.stays s, ?_⟩
  have hLeaves : Leaves (fun s' => (unusedTokens s').Sublist (unusedTokens s)) op.prog s :=
    leaves_guarantees hMarks (fun _ _ hMark hSub => (unused_marks hMark).trans hSub)
      (List.Sublist.refl _)
  exact leaves_iff.mp hLeaves

theorem ResetOp.linkStep [PasswordRuntime] (op : ResetOp) (s : Store) :
    LinkStep op s (op.prog.run s).2 := by
  cases hRecipient : op.recipient with
  | none => exact linkStep_marks hRecipient s
  | some _ =>
      cases op with
      | forgotPassword email call =>
          unfold prog
          rw [run_acknowledged]
          by_cases hHolder : holder s email = none
          · rw [forgotPassword_unknown hHolder]
            exact Or.inl ⟨.refl s, List.Sublist.refl _⟩
          · rw [forgotPassword_known hHolder]
            exact linkStep_issue rfl hHolder (replaces_ownTokens email)
      | requestReset email call =>
          unfold prog
          rw [run_acknowledged]
          by_cases hHolder : holder s email = none
          · rw [requestReset_unknown hHolder]
            exact Or.inl ⟨.refl s, List.Sublist.refl _⟩
          · rw [requestReset_known hHolder]
            exact linkStep_issue rfl hHolder (replaces_staleTokens email call)
      | _ => cases hRecipient

/-- An operation that issues a token for an address replaces the unused rows of the address. -/
theorem ResetEvent.replaces {e : ResetEvent} {token : String} {issue : Issue}
    (hStep : LinkStep e.op e.before e.after) (hIssues : e.issues token = some issue) :
    ∃ call, e.op.recipient = some issue.email ∧
      LinkReplaced issue.email call e.before e.after := by
  rcases hStep with ⟨hStays, -⟩ | ⟨email, call, hRecipient, hReplaced⟩
  · have hNone : e.issues token = none := by
      refine ResetEvent.issues_eq_none fun r hr _ => ?_
      rw [← hStays.next]
      exact key_lt _ hr
    cases hNone.symm.trans hIssues
  · refine ⟨call, ?_⟩
    have hEmail : issue.email = email := by
      unfold issues at hIssues
      obtain ⟨recipient, hSome, hRest⟩ := Option.bind_eq_some_iff.mp hIssues
      obtain ⟨user, -, hIssue⟩ := Option.bind_eq_some_iff.mp hRest
      obtain rfl := Option.some.inj (hRecipient.symm.trans hSome)
      split at hIssue
      · rw [← Option.some.inj hIssue]
      · cases hIssue
    rw [hEmail]
    exact ⟨hRecipient, hReplaced⟩

theorem OneLiveLink.step {op : ResetOp} {s' : Store} (h : OneLiveLink s)
    (hStep : LinkStep op s s') : OneLiveLink s' := by
  intro email
  rcases hStep with ⟨-, hSub⟩ | ⟨recipient, call, -, hReplaced⟩
  · exact (hSub.filter _).length_le.trans (h email)
  · rw [hReplaced.unused, List.filter_append]
    by_cases hSame : recipient = email
    · have hOld : ((unusedTokens s).filter fun r => !(r.email == recipient)).filter
          (fun r => r.email == email) = [] := by
        rw [hSame, List.filter_filter]
        simp
      rw [hOld, List.nil_append]
      exact List.length_filter_le _ _
    · have hNew : [newToken recipient call s.passwordResetToken.next].filter
          (fun r => r.email == email) = [] := by
        simpa [newToken] using hSame
      rw [hNew, List.append_nil]
      exact (List.filter_sublist.filter _).length_le.trans (h email)

/-- A token that is dead stays so until it is issued again. -/
theorem Dead.step {e : ResetEvent} {token : String} (h : Dead token e.before)
    (hStep : LinkStep e.op e.before e.after) (hNot : e.issues token = none) :
    Dead token e.after := by
  intro r hr
  rcases hStep with ⟨-, hSub⟩ | ⟨email, call, hRecipient, hReplaced⟩
  · exact h r (hSub.subset hr)
  · rw [hReplaced.unused] at hr
    rcases List.mem_append.mp hr with hOld | hNew
    · exact h r (List.mem_filter.mp hOld).1
    · rw [List.mem_singleton.mp hNew]
      rintro rfl
      obtain ⟨userId, hIssues⟩ := ResetEvent.issues_of_created hRecipient hReplaced.created
      cases hNot.symm.trans hIssues

/-- A token is dead once another one is issued for its address. -/
theorem LinkReplaced.dead {e : ResetEvent} {events : List ResetEvent} {token : String}
    {userId : Id} (hReplaced : LinkReplaced email call e.before e.after)
    (hAll : AllIssued events e.before) (hIssued : issuedFor events token = some ⟨userId, email⟩)
    (hOther : call.rawToken ≠ token) : Dead token e.after := by
  intro r hr hToken
  rw [hReplaced.unused] at hr
  rcases List.mem_append.mp hr with hOld | hNew
  · obtain ⟨hMem, hEmail⟩ := List.mem_filter.mp hOld
    obtain ⟨userId, hOwn⟩ := hAll r (List.mem_filter.mp hMem).1
    rw [hToken, hIssued] at hOwn
    have hSame : email = r.email := congrArg Issue.email (Option.some.inj hOwn)
    simp [hSame] at hEmail
  · rw [List.mem_singleton.mp hNew] at hToken
    exact hOther hToken

end Steps

/-! ## Runs -/

section Runs

variable [PasswordRuntime]

theorem ResetRun.oneLiveLink {s₀ s : Store} {events : List ResetEvent}
    (hEmpty : s₀.passwordResetToken.rows = []) (hRun : ResetRun s₀ events s) : OneLiveLink s := by
  induction hRun with
  | nil =>
      intro email
      rw [unusedTokens, hEmpty]
      exact Nat.zero_le 1
  | call op _ ih => exact ih.step (op.linkStep _)
  | other _ hTokens ih =>
      unfold OneLiveLink unusedTokens
      rw [hTokens]
      exact ih

theorem ResetRun.dead {s s' : Store} {later : List ResetEvent} {token : String}
    (hDead : Dead token s) (hRun : ResetRun s later s')
    (hNot : ∀ e ∈ later, e.issues token = none) : Dead token s' := by
  induction hRun with
  | nil => exact hDead
  | call op _ ih =>
      rename_i events s₁ _
      have hBefore := ih fun e he => hNot e (List.mem_append_left _ he)
      have hLast := hNot ⟨op, s₁, (op.prog.run s₁).2⟩
        (List.mem_append_right _ (List.mem_singleton_self _))
      exact Dead.step (e := ⟨op, s₁, (op.prog.run s₁).2⟩) hBefore (op.linkStep s₁) hLast
  | other _ hTokens ih =>
      unfold Dead unusedTokens
      rw [hTokens]
      exact ih hNot

/-- The operation, called in the store. -/
def ResetOp.event (op : ResetOp) (s : Store) : ResetEvent := ⟨op, s, (op.prog.run s).2⟩

/-- **One live link for an address.** In every reachable store an address has at most one unused
token. After an operation that issues a token for an address, every token that was issued for the
address before, and is not issued anew, is refused from then on. -/
theorem one_live_link {s₀ s : Store} {events : List ResetEvent}
    (hEmpty : s₀.passwordResetToken.rows = []) (hRun : ResetRun s₀ events s) :
    OneLiveLink s ∧
      ∀ (op : ResetOp) (later : List ResetEvent) (s' : Store) (token token' email : String)
        (userId userId' : Id), issuedFor events token = some ⟨userId, email⟩ →
        (op.event s).issues token' = some ⟨userId', email⟩ →
        ResetRun (op.event s).after later s' →
        (∀ e ∈ op.event s :: later, e.issues token = none) → Unredeemable token s' := by
  refine ⟨hRun.oneLiveLink hEmpty, ?_⟩
  intro op later s' token token' email userId userId' hIssued hIssues hLater hNot
  have hStep : LinkStep op (op.event s).before (op.event s).after := op.linkStep s
  obtain ⟨call, hRecipient, hReplaced⟩ := ResetEvent.replaces hStep hIssues
  have hOther : call.rawToken ≠ token := by
    rintro rfl
    obtain ⟨_, hAgain⟩ := ResetEvent.issues_of_created hRecipient hReplaced.created
    cases (hNot _ List.mem_cons_self).symm.trans hAgain
  have hDead : Dead token (op.event s).after :=
    hReplaced.dead (hRun.allIssued hEmpty) hIssued hOther
  exact (hLater.dead hDead fun e he => hNot e (List.mem_cons_of_mem _ he)).unredeemable

end Runs

section Site

attribute [local instance] saltedHashes

/-- The member asks the other service for a link, and the message fails. -/
def askAgain : ResetOp := .requestReset "ben@site" ⟨"u", 20, 20, .throws (.error "Quota exceeded")⟩

/-- The first link is dead although no second one has arrived, and stays so when the member asks
once more. -/
theorem one_live_link_site :
    let asked := playOps site [askForLink]
    let later := playOps (askAgain.event asked.2).after
      [.forgotPassword "ben@site" ⟨"v", 30, 30, .answers none⟩]
    OneLiveLink asked.2 ∧ Unredeemable "t" later.2 := by
  intro asked later
  obtain ⟨hOne, hReplaced⟩ := one_live_link rfl (resetRun_play site [askForLink])
  have hIssued : issuedFor asked.1 "t" = some ⟨1, "ben@site"⟩ := by decide +kernel
  have hIssues : (askAgain.event asked.2).issues "u" = some ⟨1, "ben@site"⟩ := by decide +kernel
  have hNot : ∀ e ∈ askAgain.event asked.2 :: later.1, e.issues "t" = none := by decide +kernel
  exact ⟨hOne, hReplaced askAgain later.1 later.2 "t" "u" "ben@site" 1 1 hIssued hIssues
    (resetRun_play _ _) hNot⟩

end Site

end Rooeel
