import Rooeel.Request.Atomicity
import Rooeel.User.AccountOps

/-!
# Every pending request can be granted

The admin of a pending request is told to grant it with one of two calls: `generatePassword` for
the two types that are about passwords, `approveRequest` for the others. The call does what the
row says, so it depends on what `createRequest` has stored: a request for a name or an address
that does not say which one is stuck (`noneStuck_iff`). `no_request_stuck` says that the call
succeeds in every state that is reached by creating and deciding requests which do say so. The
validator does not ask for that (`request_without_value`).
-/

namespace Rooeel

open JavaScript Prog Table

namespace RequestService

/-! ## The operations -/

/-- One of the four methods with its arguments. -/
inductive RequestOp where
  | createRequest (userId : Id) (dto : CreateRequestDto)
  | decide (id : Id) (call : Call)

def RequestOp.prog [PasswordRuntime] : RequestOp → Service Unit
  | .createRequest userId dto => RequestService.createRequest userId dto >>= fun _ => pure ()
  | .decide id call => call.prog id >>= fun _ => pure ()

/-- The validator accepts the input. -/
def RequestOp.Validated : RequestOp → Prop
  | .createRequest _ dto => dto.Validated
  | .decide _ _ => True

/-- A request for a name or an address says which one. -/
def RequestOp.Valued : RequestOp → Prop
  | .createRequest _ dto =>
      dto.requestType ∉ passwordRequestTypes → dto.requestedValue ≠ none
  | .decide _ _ => True

/-- The call that grants the request. -/
def designated (request : UserRequest) (secret : Secret) : Application :=
  if request.requestType ∈ passwordRequestTypes then .generatePassword request.adminId secret
  else .approveRequest request.adminId

/-- No other user holds the requested address. -/
def Free (s : Store) (request : UserRequest) : Prop :=
  request.requestType = "email" →
    ∀ u ∈ s.user.rows, u.id ≠ request.userId → request.requestedValue ≠ some u.email

/-- The call that grants a pending request succeeds, when nothing else happens meanwhile. -/
def NoneStuck [PasswordRuntime] (s : Store) : Prop :=
  ∀ request ∈ s.userRequest.rows, request.status = "pending" → Free s request →
    ∀ secret, ∃ answer s',
      ((designated request secret).call.prog request.id).run s = (.ok answer, s')

/-! ## What the rows are like -/

/-- The users and the requests satisfy their constraints, and every request says what it is
for. -/
structure Grantable (s : Store) : Prop where
  user : prisma.user.Sound s
  references : ∀ q ∈ s.userRequest.rows, prisma.userRequest.references s q = true
  type : ∀ q ∈ s.userRequest.rows, q.requestType ∈ requestTypes
  value : ∀ q ∈ s.userRequest.rows, q.requestType ∉ passwordRequestTypes → q.requestedValue ≠ none

/-- A step that does not break this. -/
def KeepsGrantable (s s' : Store) : Prop := Grantable s → Grantable s'

theorem keepsGrantable_refl (s : Store) : KeepsGrantable s s := id

/-- The stores have the same admins and users with the same ids. -/
theorem references_eq {s s' : Store} (hAdmin : s'.admin = s.admin)
    (hUser : ∀ k, s'.user.has k = s.user.has k) (q : UserRequest) :
    prisma.userRequest.references s' q = prisma.userRequest.references s q := by
  change (s'.user.has _ && s'.admin.has _) = (s.user.has _ && s.admin.has _)
  rw [hAdmin, hUser]

theorem keepsGrantable_same {s s' : Store} (hSame : SameAccounts s s') : KeepsGrantable s s' := by
  intro h
  have hReferences (q : UserRequest) :=
    references_eq hSame.admin (fun k => congrArg (Table.has · k) hSame.user) q
  refine ⟨⟨?_, ?_⟩, ?_, ?_, ?_⟩
  · change ∀ r ∈ s'.user.rows, refOk s'.admin r.createdBy = true
    rw [hSame.user, hSame.admin]
    exact h.user.references
  · change s'.user.rows.Pairwise _
    rw [hSame.user]
    exact h.user.unique
  · intro q hq
    rw [hReferences]
    exact h.references q (hSame.userRequest ▸ hq)
  · rw [hSame.userRequest]
    exact h.type
  · rw [hSame.userRequest]
    exact h.value

/-! ## One step -/

theorem keepsGrantable_updateUser (userId : Id) (f : User → User)
    (hf : ∀ r, Row.key (f r) = Row.key r) :
    Guarantees (fun _ _ => True) KeepsGrantable (updateUser userId f hf) := by
  refine guarantees_atomic keepsGrantable_refl fun s _ s' hOk h => ?_
  have hUpdate := execute_ok hOk
  obtain ⟨r, -, -, -, -, -, hState⟩ := Model.update_ok hUpdate
  have hUser : prisma.user.Sound s' := by
    refine h.user.update (fun a b => Bool.beq_comm) hUpdate fun _ => ?_
    rw [hState]
    rfl
  rw [hState] at hUser ⊢
  refine ⟨hUser, fun q hq => Eq.trans (references_eq ?_ ?_ q) (h.references q hq), h.type, h.value⟩
  · rfl
  · exact fun k => has_modify _ f hf k

theorem keepsGrantable_setStatus (id : Id) (status : String) :
    Guarantees (fun _ _ => True) KeepsGrantable (setStatus id status) := by
  refine guarantees_atomic keepsGrantable_refl fun s _ s' hOk h => ?_
  obtain ⟨-, -, -, -, -, -, rfl⟩ := Model.update_ok (execute_ok hOk)
  let write (r : UserRequest) : UserRequest := { r with status }
  refine ⟨⟨h.user.references, h.user.unique⟩, ?_, ?_, ?_⟩
  · exact forall_modify _ write (fun _ => rfl) h.references fun q hq _ => h.references q hq
  · exact forall_modify _ write (fun _ => rfl) h.type fun q hq _ => h.type q hq
  · exact forall_modify _ write (fun _ => rfl) h.value fun q hq _ => h.value q hq

theorem keepsGrantable_decide [PasswordRuntime] (id : Id) (call : Call) :
    Guarantees (fun _ _ => True) KeepsGrantable (call.prog id) := by
  obtain ⟨k, hProg, hSettles⟩ := call.prog_read id
  rw [hProg]
  refine guarantees_bind (guarantees_read keepsGrantable_refl _) fun found => ?_
  have hEnd (status : String) (answer : UserRequest → Answer) :
      Guarantees (fun _ _ => True) KeepsGrantable
        (setStatus id status >>= fun r => pure (answer r)) :=
    guarantees_bind (keepsGrantable_setStatus id status) fun _ => guarantees_pure _
  have hSettled := hSettles found
  generalize k found = p at hSettled
  rcases hSettled with ⟨e, rfl⟩ | ⟨-, hDecides⟩
  · exact guarantees_throw e
  · cases hDecides with
    | reject answer => exact hEnd _ answer
    | apply userId f hf answer =>
        exact guarantees_bind (keepsGrantable_updateUser userId f hf) fun _ => hEnd _ answer

/-- The row is made from the input, and the database checks where it points. -/
theorem keepsGrantable_createRequest [PasswordRuntime] (userId : Id) {dto : CreateRequestDto}
    (hDto : dto.Validated)
    (hValued : dto.requestType ∉ passwordRequestTypes → dto.requestedValue ≠ none) :
    Guarantees (fun _ _ => True) KeepsGrantable (createRequest userId dto) := by
  refine guarantees_bind (UserService.guarantees_requireUser keepsGrantable_refl userId)
    fun user => ?_
  refine guarantees_bind (guarantees_throwIf _ _) fun _ => ?_
  refine guarantees_bind (guarantees_throwIf _ _) fun _ => ?_
  refine guarantees_bind (guarantees_throwIf _ _) fun _ => ?_
  refine guarantees_atomic keepsGrantable_refl fun s _ s' hOk h => ?_
  obtain ⟨rfl, hRef, rfl⟩ := Model.create_ok (execute_ok hOk)
  refine ⟨⟨h.user.references, h.user.unique⟩, ?_, ?_, ?_⟩
  · exact forall_insert _ (fun _ => rfl) h.references hRef
  · exact forall_insert _ (fun _ => rfl) h.type hDto.requestType
  · refine forall_insert _ (fun _ => rfl) h.value fun hType => ?_
    change (if dto.requestType ∈ passwordRequestTypes then some "[HIDDEN]"
      else dto.requestedValue) ≠ none
    rw [if_neg hType]
    exact hValued hType

theorem RequestOp.keepsGrantable [PasswordRuntime] {op : RequestOp} (hOp : op.Validated)
    (hValued : op.Valued) : Guarantees (fun _ _ => True) KeepsGrantable op.prog := by
  cases op with
  | createRequest userId dto =>
      exact guarantees_bind (keepsGrantable_createRequest userId hOp hValued) fun _ =>
        guarantees_pure _
  | decide id call =>
      exact guarantees_bind (keepsGrantable_decide id call) fun _ => guarantees_pure _

/-! ## The call that grants a request -/

section Grant

variable [PasswordRuntime]

/-- A call whose write the database accepts succeeds. -/
theorem Application.succeeds (call : Application) {s : Store} {request : UserRequest} {user : User}
    {f : User → User} (hPending : request.status = "pending")
    (hFind : s.userRequest.find request.id = some request)
    (hRef : prisma.userRequest.references s request = true)
    (hWrites : call.Writes s request {} user f) :
    ∃ answer s', (call.call.prog request.id).run s = (.ok answer, s') := by
  obtain ⟨k, hProg, hGoes⟩ := call.prog_read hPending
  have hRun : (call.call.prog request.id).run s = (k (some request)).runWith [none, none] s := by
    rw [← runWith_replicate_none 3, hProg]
    change (k (s.userRequest.find request.id)).runWith [none, none] s = _
    rw [hFind]
  rw [hRun]
  cases hGoes with
  | stop e hNot hStop =>
      have hNone := hNot hWrites.admin
      rw [hWrites.change] at hNone
      cases hNone
  | apply f' hf answer hAdmin hChange hApply =>
      obtain rfl : f' = f := Option.some.inj (hChange.symm.trans hWrites.change)
      obtain ⟨s₁, hFirst, -, hRequests, hRefs⟩ :=
        runWith_updateUser hWrites.found hWrites.accepts [none]
      rw [hApply, hFirst]
      obtain ⟨result, s', hSecond, -, -⟩ :=
        runWith_setStatus answer (hRequests ▸ hFind) ((hRefs request).trans hRef)
      exact ⟨result, s', hSecond⟩

/-- What a request asks for is a change of the password, a name, or the address. -/
theorem designated_change {request : UserRequest} (hType : request.requestType ∈ requestTypes)
    (hValue : request.requestType ∉ passwordRequestTypes → request.requestedValue ≠ none)
    (secret : Secret) :
    ∃ f, (designated request secret).change request = some f ∧
      ∀ r, (f r).id = r.id ∧ (f r).createdBy = r.createdBy ∧ ((f r).email = r.email ∨
        request.requestType = "email" ∧ request.requestedValue = some (f r).email) := by
  unfold designated
  by_cases hPassword : request.requestType ∈ passwordRequestTypes
  · rw [if_pos hPassword]
    exact ⟨_, if_pos hPassword, fun r => ⟨rfl, rfl, Or.inl rfl⟩⟩
  · obtain ⟨value, hSome⟩ := Option.ne_none_iff_exists'.mp (hValue hPassword)
    rw [if_neg hPassword, Application.change, if_neg hPassword, requestedChange, hSome]
    dsimp only
    split_ifs with hFirst hLast hEmail hOld
    · exact ⟨_, rfl, fun r => ⟨rfl, rfl, Or.inl rfl⟩⟩
    · exact ⟨_, rfl, fun r => ⟨rfl, rfl, Or.inl rfl⟩⟩
    · exact ⟨_, rfl, fun r => ⟨rfl, rfl, Or.inr ⟨hEmail, rfl⟩⟩⟩
    · exact absurd (hOld ▸ List.mem_cons_self) hPassword
    · refine absurd ?_ hPassword
      simpa [requestTypes, passwordRequestTypes, hFirst, hLast, hEmail] using hType

/-- Whoever asks for the address that no other user holds, or for something else, gets it. -/
theorem designated_succeeds {s : Store} (hSound : prisma.user.Sound s) {request : UserRequest}
    (hRequest : request ∈ s.userRequest.rows)
    (hRef : prisma.userRequest.references s request = true)
    (hType : request.requestType ∈ requestTypes)
    (hValue : request.requestType ∉ passwordRequestTypes → request.requestedValue ≠ none)
    (hPending : request.status = "pending") (hFree : Free s request) (secret : Secret) :
    ∃ answer s', ((designated request secret).call.prog request.id).run s = (.ok answer, s') := by
  have hHas : s.user.has request.userId = true := (Bool.and_eq_true_iff.mp hRef).1
  obtain ⟨user, hUser, hKey⟩ := has_iff.mp hHas
  obtain ⟨f, hChange, hSame⟩ := designated_change hType hValue secret
  obtain ⟨hId, hCreator, hEmail⟩ := hSame user
  have hAdmin : request.adminId = (designated request secret).adminId := by
    unfold designated
    split <;> rfl
  have hFind : s.user.find request.userId = some user := find_eq_some.mpr ⟨hUser, hKey⟩
  have hAccepts : prisma.user.accepts s (f user) = .ok () := by
    rw [accepts_user_iff hSound hFind hId hCreator, if_neg]
    rintro ⟨hChanged, r, hr, hTaken⟩
    rcases hEmail with hKept | ⟨hEmailType, hSome⟩
    · exact hChanged hKept.symm
    · refine hFree hEmailType r hr (fun hOwn => hChanged ?_) ?_
      · rw [s.user.key_inj hUser hr (hKey.trans hOwn.symm)] at hTaken ⊢
        exact hTaken
      · rw [hSome, hTaken]
  exact Application.succeeds _ hPending (find_eq_some.mpr ⟨hRequest, rfl⟩) hRef
    ⟨hAdmin, hChange, hFind, hAccepts, rfl, rfl⟩

theorem Grantable.noneStuck {s : Store} (h : Grantable s) : NoneStuck s := by
  intro request hRequest hPending hFree
  exact designated_succeeds h.user hRequest (h.references request hRequest)
    (h.type request hRequest) (h.value request hRequest) hPending hFree

/-- A request for a name or an address that does not say which one cannot be granted. -/
theorem designated_fails {s : Store} {request : UserRequest}
    (hRequest : request ∈ s.userRequest.rows) (hType : request.requestType ∈ requestTypes)
    (hOther : request.requestType ∉ passwordRequestTypes) (hNone : request.requestedValue = none)
    (hPending : request.status = "pending") (secret : Secret) :
    ∃ e, ((designated request secret).call.prog request.id).run s = (.error e, s) := by
  obtain ⟨k, hProg, hGoes⟩ := (designated request secret).prog_read hPending
  have hFind : prisma.userRequest.findFirst (fun r => r.id == request.id) s = some request :=
    find_eq_some.mpr ⟨hRequest, rfl⟩
  rw [hProg, findOne, findUnique, query_bind_run, hFind]
  cases hGoes with
  | stop e hNot hStop =>
      rw [hStop]
      exact ⟨e, rfl⟩
  | apply f hf answer hAdmin hChange hApply =>
      have hCreatedBy : request.requestType ≠ "createdBy" := by
        intro hSame
        rw [hSame] at hType
        exact absurd hType (by decide)
      rw [designated, if_neg hOther, Application.change, if_neg hOther, requestedChange, hNone]
        at hChange
      rw [if_neg hCreatedBy] at hChange
      cases hChange

/-- The requests that are stuck are those for a name or an address that do not say which one. -/
theorem noneStuck_iff {s : Store} (hValid : s.Valid)
    (hTypes : ∀ q ∈ s.userRequest.rows, q.requestType ∈ requestTypes) :
    NoneStuck s ↔ ∀ q ∈ s.userRequest.rows, q.status = "pending" →
      q.requestType ∉ passwordRequestTypes → q.requestedValue ≠ none := by
  constructor
  · intro h q hq hPending hOther hNone
    have hFree : Free s q := fun _ u _ _ hSame => nomatch hNone.symm.trans hSame
    obtain ⟨answer, s', hOk⟩ := h q hq hPending hFree ⟨"", ""⟩
    obtain ⟨e, hError⟩ := designated_fails hq (hTypes q hq) hOther hNone hPending ⟨"", ""⟩
    cases congrArg Prod.fst (hOk.symm.trans hError)
  · intro h q hq hPending hFree
    exact designated_succeeds hValid.user hq (hValid.userRequest.references q hq) (hTypes q hq)
      (h q hq hPending) hPending hFree

end Grant

theorem Grantable.start {s : Store} (hValid : s.Valid) (hNone : s.userRequest.rows = []) :
    Grantable s where
  user := hValid.user
  references := hValid.userRequest.references
  type := by simp [hNone]
  value := by simp [hNone]

/-- **No request is stuck**: in every state that is reached from a store without requests, in
every interleaving of any number of the four operations, with steps that fail and whatever the
rest of the program does to the other tables, when every request for a name or an address says
which one. -/
theorem no_request_stuck [PasswordRuntime] {ι : Type} [DecidableEq ι] {start : Store}
    (hValid : start.Valid) (hNone : start.userRequest.rows = []) {ops : ι → RequestOp}
    (hOps : ∀ i, (ops i).Validated) (hValued : ∀ i, (ops i).Valued) {c : Pool ι Store Exn Unit}
    (hReach : Relation.ReflTransGen (Pool.Step SameAccounts)
      (Pool.start start fun i => (ops i).prog) c) : NoneStuck c.state := by
  have hInvariant := Pool.invariant (R := fun _ _ => True) (I := Grantable) (fun _ => trivial)
    (fun _ _ _ _ _ => trivial) (fun s s' h hGuar => ⟨trivial, hGuar h⟩)
    (fun s s' h hSame => ⟨trivial, keepsGrantable_same hSame h⟩) (Grantable.start hValid hNone)
    (fun i => (RequestOp.keepsGrantable (hOps i) (hValued i)) start) hReach
  exact hInvariant.2.noneStuck

section Site

attribute [local instance] saltedHashes

/-- The member asks for an address. -/
def askForAddress (address : Option String) : Unit → RequestOp :=
  fun _ => .createRequest 1 ⟨"email", address, none⟩

/-- The request has been created. -/
def addressAsked (address : Option String) : Pool Unit Store Exn Unit :=
  (Pool.start site fun i => (askForAddress address i).prog).play [(), ()]

theorem reach_addressAsked (address : Option String) :
    Relation.ReflTransGen (Pool.Step SameAccounts)
      (Pool.start site fun i => (askForAddress address i).prog) (addressAsked address) :=
  Pool.reach_of_exec (Pool.reach_play _ _)

theorem validated_askForAddress {address : Option String}
    (h : ∀ s, address = some s → 1 ≤ s.length) (i : Unit) :
    (askForAddress address i).Validated where
  requestType := show "email" ∈ requestTypes by decide
  requestedValue := h
  currentPassword := fun _ hNone => nomatch hNone

/-- The member asks for an address and does not say which one. The validator accepts that, and
the admin cannot approve the request. -/
theorem request_without_value :
    ¬ ∀ start : Store, start.Valid → start.userRequest.rows = [] → ∀ ops : Unit → RequestOp,
      (∀ i, (ops i).Validated) → ∀ c, Relation.ReflTransGen (Pool.Step SameAccounts)
        (Pool.start start fun i => (ops i).prog) c → NoneStuck c.state := by
  intro h
  have hStuck := h site site_valid rfl (askForAddress none)
    (validated_askForAddress fun _ hNone => nomatch hNone) _ (reach_addressAsked none)
  have hRequest : (⟨1, 1, 1, "email", some "ben@site", none, "pending"⟩ : UserRequest) ∈
      (addressAsked none).state.userRequest.rows := by decide
  obtain ⟨answer, s', hRun⟩ := hStuck _ hRequest rfl (fun _ _ _ _ => nofun) ⟨"", ""⟩
  exact nomatch congrArg Prod.fst hRun

theorem no_request_stuck_site :
    (addressAsked (some "ben@yard")).state.userRequest.rows.map UserRequest.status = ["pending"] ∧
      NoneStuck (addressAsked (some "ben@yard")).state := by
  refine ⟨by decide, no_request_stuck site_valid rfl (validated_askForAddress ?_)
    (fun _ _ => Option.some_ne_none _) (reach_addressAsked (some "ben@yard"))⟩
  intro s hSame
  rw [← Option.some.inj hSame]
  decide

end Site

end RequestService

end Rooeel
