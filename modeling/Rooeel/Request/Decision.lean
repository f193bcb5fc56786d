import Rooeel.User.Accounts

/-!
# Deciding a change request

`approveRequest`, `rejectRequest` and `generatePassword` read the request, check that it is
pending, and write: a rejection writes the status, the other two write the user and then the
status. Nothing ties the writes to the read.

`Stage` is what should happen to one request: one call takes it up, and either rejects it, or
applies it to the user and approves it. When no call reads the request while another one is
between its read and its end, every interleaving follows the stages (`At.step`), so the
request is decided once. Without that condition it is not.
-/

namespace Rooeel

open JavaScript Prog Table

namespace RequestService

/-! ## The three methods -/

/-- `PASSWORD_REQUEST_TYPES`. -/
def passwordRequestTypes : List String := ["password", "password_reset"]

/-- `findOne`. The names of the user and the admin that it includes only go to the log. -/
def findOne (id : Id) : Service (Option UserRequest) :=
  findUnique prisma.userRequest fun r => r.id == id

/-- The checks that the three methods begin with. -/
def requirePending (id adminId : Id) (refusal : String) (request : Option UserRequest) :
    Service UserRequest :=
  match request with
  | none => throw (.notFound s!"Request with ID {id} not found")
  | some request => do
    let status := request.status
    Prog.throwIf (request.adminId ≠ adminId) (.forbidden refusal)
    Prog.throwIf (status ≠ "pending") (.badRequest s!"Request is already {status}")
    pure request

def updateUser (userId : Id) (f : User → User)
    (hf : ∀ r, Row.key (f r) = Row.key r := by intro; rfl) : Service User :=
  update prisma.user (fun r => r.id == userId) f hf

def setStatus (id : Id) (status : String) : Service UserRequest :=
  update prisma.userRequest (fun r => r.id == id) fun r => { r with status }

/-- The statement with `updateData[request.requestType] = request.requestedValue`. Only
`createdBy` may be set to `null`. The client refuses a text in a column of numbers, and names
that are not columns of the user. -/
def updateRequestedColumn (request : UserRequest) : Service User :=
  match request.requestedValue with
  | none =>
    if request.requestType = "createdBy" then
      updateUser request.userId fun r => { r with createdBy := none }
    else throw (.prisma .invalid)
  | some value =>
    if request.requestType = "firstName" then
      updateUser request.userId fun r => { r with firstName := value }
    else if request.requestType = "lastName" then
      updateUser request.userId fun r => { r with lastName := value }
    else if request.requestType = "email" then
      updateUser request.userId fun r => { r with email := value }
    else if request.requestType = "password" then
      updateUser request.userId fun r => { r with password := value }
    else throw (.prisma .invalid)

structure GeneratePasswordResult where
  message : String
  generatedPassword : String
  requestId : Id
  userId : Id

/-- The random password is an argument. -/
def generatePassword [PasswordRuntime] (id adminId : Id) (secret : Secret) :
    Service GeneratePasswordResult := do
  let found ← findOne id
  let request ← requirePending id adminId
    "You can only generate passwords for your own users' requests" found
  let requestType := request.requestType
  Prog.throwIf (requestType ∉ passwordRequestTypes)
    (.badRequest s!"Generate password is only valid for password requests, not '{requestType}'")
  let _user ← updateUser request.userId fun r => { r with password := secret.hash }
  let _request ← setStatus id "approved"
  pure
    { message := "Password generated and applied successfully. " ++
        "Share this password with the user — it will not be shown again."
      generatedPassword := secret.password
      requestId := id
      userId := request.userId }

def approveRequest (id adminId : Id) : Service UserRequest := do
  let found ← findOne id
  let request ← requirePending id adminId "You can only approve requests from your users" found
  Prog.throwIf (request.requestType ∈ passwordRequestTypes)
    (.badRequest "Use POST /request/:id/generate-password to handle password requests")
  let _user ← updateRequestedColumn request
  setStatus id "approved"

def rejectRequest (id adminId : Id) : Service UserRequest := do
  let found ← findOne id
  let _request ← requirePending id adminId "You can only reject requests from your users" found
  setStatus id "rejected"

/-! ## Calls -/

/-- A call of one of the three methods on one request. -/
inductive Call where
  | generatePassword (adminId : Id) (secret : Secret)
  | approveRequest (adminId : Id)
  | rejectRequest (adminId : Id)

inductive Answer where
  | password (result : GeneratePasswordResult)
  | request (request : UserRequest)

def Call.prog [PasswordRuntime] (id : Id) : Call → Service Answer
  | .generatePassword adminId secret => do
    let result ← RequestService.generatePassword id adminId secret
    pure (.password result)
  | .approveRequest adminId => do
    let request ← RequestService.approveRequest id adminId
    pure (.request request)
  | .rejectRequest adminId => do
    let request ← RequestService.rejectRequest id adminId
    pure (.request request)

/-- What follows the checks: the rejection, or the write of the user and the approval. -/
inductive Decides (id : Id) : Service Answer → Prop
  | reject (answer : UserRequest → Answer) :
      Decides id (setStatus id "rejected" >>= fun r => pure (answer r))
  | apply (userId : Id) (f : User → User) (hf) (answer : UserRequest → Answer) :
      Decides id (updateUser userId f hf >>= fun _ =>
        setStatus id "approved" >>= fun r => pure (answer r))

/-- What a call makes of the request that it has read. -/
def Settles (id : Id) (found : Option UserRequest) (p : Service Answer) : Prop :=
  (∃ e, p = throw e) ∨ (∃ request, found = some request ∧ request.status = "pending") ∧ Decides id p

/-- The checks fail, or the request goes to the admin and is pending. -/
theorem requirePending_cases (id adminId : Id) (refusal : String) (found : Option UserRequest) :
    (∃ e, requirePending id adminId refusal found = throw e ∧ ∀ request, found = some request →
      ¬ (request.adminId = adminId ∧ request.status = "pending")) ∨
    ∃ request, found = some request ∧ request.adminId = adminId ∧ request.status = "pending" ∧
      requirePending id adminId refusal found = pure request := by
  cases found with
  | none => exact Or.inl ⟨_, rfl, fun _ hNone => nomatch hNone⟩
  | some request =>
      simp only [requirePending, throwIf_bind]
      split
      · rename_i hOther
        refine Or.inl ⟨_, rfl, fun r hSame hPasses => hOther ?_⟩
        rw [Option.some.inj hSame]
        exact hPasses.1
      · rename_i hAdmin
        split
        · rename_i hSettled
          refine Or.inl ⟨_, rfl, fun r hSame hPasses => hSettled ?_⟩
          rw [Option.some.inj hSame]
          exact hPasses.2
        · rename_i hPending
          exact Or.inr ⟨request, rfl, not_not.mp hAdmin, not_not.mp hPending, rfl⟩

theorem guarantees_requirePending {rely guar : Store → Store → Prop} (id adminId : Id)
    (refusal : String) (found : Option UserRequest) :
    Guarantees rely guar (requirePending id adminId refusal found) := by
  rcases requirePending_cases id adminId refusal found with
    ⟨e, hThrow, -⟩ | ⟨request, -, -, -, hPass⟩
  · rw [hThrow]
    exact guarantees_throw e
  · rw [hPass]
    exact guarantees_pure request

theorem settles_requirePending {id adminId : Id} {refusal : String} {found : Option UserRequest}
    {k : UserRequest → Service Answer}
    (h : ∀ request, (∃ e, k request = throw e) ∨ Decides id (k request)) :
    Settles id found (requirePending id adminId refusal found >>= k) := by
  rcases requirePending_cases id adminId refusal found with
    ⟨e, hThrow, -⟩ | ⟨request, hFound, -, hPending, hPass⟩
  · rw [hThrow]
    exact Or.inl ⟨e, rfl⟩
  · rw [hPass]
    rcases h request with hThrow | hDecides
    · exact Or.inl hThrow
    · exact Or.inr ⟨⟨request, hFound, hPending⟩, hDecides⟩

/-- What `updateRequestedColumn` makes of the user, unless the client refuses the statement. -/
def requestedChange (request : UserRequest) : Option (User → User) :=
  match request.requestedValue with
  | none =>
    if request.requestType = "createdBy" then some fun r => { r with createdBy := none } else none
  | some value =>
    if request.requestType = "firstName" then some fun r => { r with firstName := value }
    else if request.requestType = "lastName" then some fun r => { r with lastName := value }
    else if request.requestType = "email" then some fun r => { r with email := value }
    else if request.requestType = "password" then some fun r => { r with password := value }
    else none

theorem updateRequestedColumn_cases (request : UserRequest) :
    (requestedChange request = none ∧ ∃ e, updateRequestedColumn request = throw e) ∨
      ∃ f hf, requestedChange request = some f ∧
        updateRequestedColumn request = updateUser request.userId f hf := by
  unfold requestedChange updateRequestedColumn
  cases request.requestedValue with
  | none =>
      dsimp only
      split_ifs
      · exact Or.inr ⟨fun r => { r with createdBy := none }, fun _ => rfl, rfl, rfl⟩
      · exact Or.inl ⟨rfl, _, rfl⟩
  | some value =>
      dsimp only
      split_ifs
      · exact Or.inr ⟨fun r => { r with firstName := value }, fun _ => rfl, rfl, rfl⟩
      · exact Or.inr ⟨fun r => { r with lastName := value }, fun _ => rfl, rfl, rfl⟩
      · exact Or.inr ⟨fun r => { r with email := value }, fun _ => rfl, rfl, rfl⟩
      · exact Or.inr ⟨fun r => { r with password := value }, fun _ => rfl, rfl, rfl⟩
      · exact Or.inl ⟨rfl, _, rfl⟩

/-- Every call reads the request first. -/
theorem Call.prog_read [PasswordRuntime] (id : Id) (call : Call) :
    ∃ k, call.prog id = findOne id >>= k ∧ ∀ found, Settles id found (k found) := by
  cases call with
  | generatePassword adminId secret =>
      refine ⟨_, by
        simp only [Call.prog, RequestService.generatePassword, Prog.bind_assoc]
        rfl, fun found => ?_⟩
      refine settles_requirePending fun request => ?_
      rw [throwIf_bind]
      split
      · exact Or.inl ⟨_, rfl⟩
      · exact Or.inr (.apply _ _ _ _)
  | approveRequest adminId =>
      refine ⟨_, by
        simp only [Call.prog, RequestService.approveRequest, Prog.bind_assoc]
        rfl, fun found => ?_⟩
      refine settles_requirePending fun request => ?_
      rw [throwIf_bind]
      split
      · exact Or.inl ⟨_, rfl⟩
      · rcases updateRequestedColumn_cases request with ⟨-, e, hThrow⟩ | ⟨f, hf, -, hUpdate⟩
        · rw [hThrow]
          exact Or.inl ⟨e, rfl⟩
        · rw [hUpdate]
          exact Or.inr (.apply _ f hf _)
  | rejectRequest adminId =>
      refine ⟨_, by
        simp only [Call.prog, RequestService.rejectRequest, Prog.bind_assoc]
        rfl, fun found => ?_⟩
      exact settles_requirePending fun request => Or.inr (.reject _)

/-! ## The stages of a request -/

/-- What has become of the request, and by which call. -/
inductive Stage (ι : Type) where
  | undecided
  | taken (i : ι)
  | applied (i : ι)
  | approved (i : ι)
  | rejected (i : ι)

namespace Stage

variable {ι : Type}

def who : Stage ι → Option ι
  | .undecided => none
  | .taken i | .applied i | .approved i | .rejected i => some i

/-- The status of the request, when it was `initial` before all calls. -/
def status (initial : Option String) : Stage ι → Option String
  | .approved _ => some "approved"
  | .rejected _ => some "rejected"
  | _ => initial

/-- The user has been written. -/
def Applied : Stage ι → Prop
  | .applied _ | .approved _ => True
  | _ => False

inductive Next (initial : Option String) : Stage ι → Stage ι → Prop
  | stay (stage : Stage ι) : Next initial stage stage
  | take (i : ι) (h : initial = some "pending") : Next initial .undecided (.taken i)
  | release (i : ι) : Next initial (.taken i) .undecided
  | apply (i : ι) : Next initial (.taken i) (.applied i)
  | approve (i : ι) (h : initial = some "pending") : Next initial (.applied i) (.approved i)
  | reject (i : ι) (h : initial = some "pending") : Next initial (.taken i) (.rejected i)

variable {initial : Option String} {a b : Stage ι}

theorem Next.settled (h : Next initial a b) (hSettled : a.status initial ≠ some "pending") :
    b.status initial = a.status initial := by
  cases h with
  | approve i hPending | reject i hPending => exact absurd hPending hSettled
  | _ => rfl

/-- The status changes once. -/
theorem settled_of_reach (h : Relation.ReflTransGen (Next initial) a b)
    (hSettled : a.status initial ≠ some "pending") : b.status initial = a.status initial := by
  induction h with
  | refl => rfl
  | tail _ hNext ih => rw [hNext.settled (by rwa [ih]), ih]

/-- What was applied is not rejected any more. -/
theorem applied_of_reach (h : Relation.ReflTransGen (Next initial) a b) (hApplied : a.Applied) :
    b.Applied := by
  induction h with
  | refl => exact hApplied
  | tail _ hNext ih =>
      cases hNext with
      | stay => exact ih
      | approve => trivial
      | take | release | apply | reject => exact ih.elim

end Stage

/-- The status of the request, if it exists. -/
def statusOf (s : Store) (id : Id) : Option String := (s.userRequest.find id).map (·.status)

/-- The user and the admin of the request exist. -/
def Sound (s : Store) (id : Id) : Prop :=
  ∀ r, s.userRequest.find id = some r → prisma.userRequest.references s r = true

section Interleavings

variable [PasswordRuntime] {ι : Type} [DecidableEq ι]

/-- Calls on one request, none of them started. -/
def requestCalls (s : Store) (id : Id) (calls : ι → Call) : Pool ι Store Exn Answer :=
  Pool.start s fun i => (calls i).prog id

/-- Where the call that a stage is about stands. -/
def Stage.Doing (id : Id) (initial : Option String) (c : Pool ι Store Exn Answer) :
    Stage ι → Prop
  | .undecided => True
  | .taken i => initial = some "pending" ∧ c.steps i ≠ 0 ∧ Decides id (c.proc i)
  | .applied i => initial = some "pending" ∧ c.steps i ≠ 0 ∧ ∃ answer : UserRequest → Answer,
      c.proc i = setStatus id "approved" >>= fun r => pure (answer r)
  | .approved i | .rejected i => c.Ended i

/-- The calls on `s₀` have brought the request to the stage. -/
structure At (s₀ : Store) (id : Id) (calls : ι → Call) (c : Pool ι Store Exn Answer)
    (stage : Stage ι) : Prop where
  idle : Pool.IdleBut (fun j => (calls j).prog id) c stage.who
  status : statusOf c.state id = stage.status (statusOf s₀ id)
  user : ¬ stage.Applied → c.state.user = s₀.user
  sound : Sound c.state id
  doing : stage.Doing id (statusOf s₀ id) c

variable {s₀ : Store} {id : Id} {calls : ι → Call} {c c' : Pool ι Store Exn Answer}
  {stage : Stage ι} {i : ι}

/-! ## What one step of a call does -/

omit [PasswordRuntime] in
/-- The write of the status succeeds, because the request is still there. -/
theorem exec_setStatus {status : String} {answer : UserRequest → Answer} {r : UserRequest}
    (hExec : c.exec i = some c')
    (hProc : c.proc i = setStatus id status >>= fun r => pure (answer r))
    (hFind : c.state.userRequest.find id = some r)
    (hRef : prisma.userRequest.references c.state r = true) :
    statusOf c'.state id = some status ∧ c'.state.user = c.state.user ∧ Sound c'.state id ∧
      c'.Ended i := by
  have hAccepts : prisma.userRequest.accepts c.state { r with status } = .ok () :=
    Model.accepts_of hRef fun _ _ _ => rfl
  have hFound : prisma.userRequest.findFirst (fun r => r.id == id) c.state = some r := hFind
  rcases exec_execute hExec hProc with ⟨row, hOk, hNext⟩ | ⟨e, hError, -, -⟩
  · rw [Model.update_of_find hFound hAccepts] at hOk
    obtain ⟨-, hState⟩ := Prod.mk.inj (Except.ok.inj hOk)
    rw [← hState]
    have hFind' := Table.find_modify_key (fun r => { r with status }) (fun _ => rfl) hFind
    refine ⟨congrArg (Option.map UserRequest.status) hFind', rfl, fun r' hr' => ?_, _, hNext⟩
    obtain rfl := Option.some.inj (hFind'.symm.trans hr')
    exact hRef
  · rw [Model.update_of_find hFound hAccepts] at hError
    cases hError

omit [PasswordRuntime] in
/-- The write of the user succeeds or fails; the request is as before. -/
theorem exec_updateUser {userId : Id} {f : User → User} {hf} {k : Service Answer}
    (hExec : c.exec i = some c') (hProc : c.proc i = updateUser userId f hf >>= fun _ => k) :
    (c'.proc i = k ∨ c'.state.user = c.state.user ∧ ∃ e, c'.proc i = .done (.error e)) ∧
      c'.state.userRequest = c.state.userRequest ∧
      ∀ r, prisma.userRequest.references c'.state r = prisma.userRequest.references c.state r := by
  rcases exec_execute hExec hProc with ⟨row, hOk, hNext⟩ | ⟨e, -, hState, hNext⟩
  · obtain ⟨u, -, -, -, -, -, hState⟩ := Model.update_ok hOk
    rw [hState]
    refine ⟨Or.inl hNext, rfl, fun r => ?_⟩
    change ((c.state.user.modify _ f hf).has _ && _) = _
    rw [Table.has_modify]
    rfl
  · rw [hState]
    exact ⟨Or.inr ⟨rfl, _, hNext⟩, rfl, fun _ => rfl⟩

/-- A call that is not the one the stage is about reads the request. -/
theorem At.exec_first (h : At s₀ id calls c stage) (hExec : c.exec i = some c')
    (hOther : stage.who ≠ some i) :
    c.steps i = 0 ∧ c'.state = c.state ∧ Settles id (c.state.userRequest.find id) (c'.proc i) := by
  obtain ⟨hFirst, hProc⟩ := (h.idle i hOther).first hExec
  obtain ⟨k, hRead, hSettles⟩ := (calls i).prog_read id
  obtain ⟨hState, hNext⟩ := Pool.exec_read hExec (hProc.trans hRead)
  refine ⟨hFirst, hState, ?_⟩
  rw [hNext]
  exact hSettles _

/-! ## One step -/

/-- Another call reads the request, and fails because it is not pending any more, or for
another reason. -/
theorem At.stay (h : At s₀ id calls c stage) (hExec : c.exec i = some c')
    (hOther : stage.who ≠ some i) (hState : c'.state = c.state)
    (hFailed : ∃ e, c'.proc i = .done (.error e)) : At s₀ id calls c' stage where
  idle := h.idle.exec hExec (fun _ hj => Or.inl hj) (Or.inr hFailed)
  status := by rw [hState]; exact h.status
  user := by rw [hState]; exact h.user
  sound := by rw [hState]; exact h.sound
  doing := by
    have hDoing := h.doing
    cases stage with
    | undecided => trivial
    | taken k | applied k | approved k | rejected k =>
        obtain ⟨hProc, hSteps⟩ := Pool.exec_others hExec fun hSame => hOther (congrArg some hSame)
        simpa only [Stage.Doing, Pool.Ended, hProc, hSteps] using hDoing

/-- The first step of a call, when no other one is under way. -/
theorem At.step_undecided (h : At s₀ id calls c .undecided) (hExec : c.exec i = some c') :
    ∃ stage', At s₀ id calls c' stage' ∧ Stage.Next (statusOf s₀ id) .undecided stage' := by
  obtain ⟨hFirst, hState, hSettles⟩ := h.exec_first hExec (by simp [Stage.who])
  rcases hSettles with hFailed | ⟨⟨request, hFind, hPending⟩, hDecides⟩
  · exact ⟨_, h.stay hExec (by simp [Stage.who]) hState hFailed, .stay _⟩
  · have hInitial : statusOf s₀ id = some "pending" := by
      rw [← hPending]
      exact h.status.symm.trans (congrArg (Option.map UserRequest.status) hFind)
    refine ⟨.taken i, ?_, .take i hInitial⟩
    refine ⟨?_, ?_, ?_, ?_, hInitial, Pool.steps_of_exec hExec, hDecides⟩
    · exact h.idle.exec hExec (fun _ hj => nomatch hj) (Or.inl rfl)
    · rw [hState]; exact h.status
    · rw [hState]; exact h.user
    · rw [hState]; exact h.sound

/-- The call that has taken the request up goes on; no other one starts. -/
theorem At.step_taken (h : At s₀ id calls c (.taken i)) (hExec : c.exec i = some c') :
    ∃ stage', At s₀ id calls c' stage' ∧ Stage.Next (statusOf s₀ id) (.taken i) stage' := by
  obtain ⟨hInitial, hSteps, hDecides⟩ := h.doing
  have hPending : statusOf c.state id = some "pending" := h.status.trans hInitial
  obtain ⟨request, hFind, -⟩ := Option.map_eq_some_iff.mp hPending
  have hSteps' : c'.steps i ≠ 0 := Pool.steps_of_exec hExec
  generalize hProc : c.proc i = p at hDecides
  cases hDecides with
  | reject answer =>
      obtain ⟨hStatus, hUser, hSound, hEnded⟩ :=
        exec_setStatus hExec hProc hFind (h.sound request hFind)
      refine ⟨.rejected i, ?_, .reject i hInitial⟩
      exact ⟨h.idle.exec hExec (fun _ hj => Or.inl hj) (Or.inl rfl), hStatus,
        fun hNot => hUser.trans (h.user hNot), hSound, hEnded⟩
  | apply userId f hf answer =>
      obtain ⟨hNext, hRequests, hRef⟩ := exec_updateUser hExec hProc
      have hStatus : statusOf c'.state id = statusOf s₀ id := by
        rw [statusOf, hRequests]
        exact h.status
      have hSound : Sound c'.state id := by
        intro r hr
        rw [hRequests] at hr
        rw [hRef]
        exact h.sound r hr
      rcases hNext with hNext | ⟨hUser, hFailed⟩
      · refine ⟨.applied i, ?_, .apply i⟩
        refine ⟨h.idle.exec hExec (fun _ hj => Or.inl hj) (Or.inl rfl), hStatus, ?_, hSound, ?_⟩
        · exact fun hNot => absurd trivial hNot
        · exact ⟨hInitial, hSteps', answer, hNext⟩
      · refine ⟨.undecided, ?_, .release i⟩
        refine ⟨?_, hStatus, fun hNot => hUser.trans (h.user hNot), hSound, trivial⟩
        exact h.idle.exec hExec (fun j hj => Or.inr (Option.some.inj hj).symm) (Or.inr hFailed)

theorem At.step_applied (h : At s₀ id calls c (.applied i)) (hExec : c.exec i = some c') :
    ∃ stage', At s₀ id calls c' stage' ∧ Stage.Next (statusOf s₀ id) (.applied i) stage' := by
  obtain ⟨hInitial, hSteps, answer, hProc⟩ := h.doing
  have hPending : statusOf c.state id = some "pending" := h.status.trans hInitial
  obtain ⟨request, hFind, -⟩ := Option.map_eq_some_iff.mp hPending
  obtain ⟨hStatus, -, hSound, hEnded⟩ :=
    exec_setStatus hExec hProc hFind (h.sound request hFind)
  refine ⟨.approved i, ?_, .approve i hInitial⟩
  exact ⟨h.idle.exec hExec (fun _ hj => Or.inl hj) (Or.inl rfl), hStatus,
    fun hNot => absurd trivial hNot, hSound, hEnded⟩

/-- A call that reads a decided request fails. -/
theorem At.step_decided (h : At s₀ id calls c stage) (hExec : c.exec i = some c')
    (hOther : stage.who ≠ some i)
    (hDecided : stage.status (statusOf s₀ id) ≠ some "pending") :
    At s₀ id calls c' stage := by
  obtain ⟨-, hState, hSettles⟩ := h.exec_first hExec hOther
  rcases hSettles with hFailed | ⟨⟨request, hFind, hPending⟩, -⟩
  · exact h.stay hExec hOther hState hFailed
  · refine absurd (h.status.symm.trans ?_) hDecided
    exact (congrArg (Option.map UserRequest.status) hFind).trans (congrArg some hPending)

/-- A call reads the request only when no other call is between its read and its end. -/
def OneAtATime : Pool ι Store Exn Answer → Pool ι Store Exn Answer → Prop :=
  Pool.ExecUnless Pool.Running

/-- Every step follows the stages. -/
theorem At.step (h : At s₀ id calls c stage) (hStep : OneAtATime c c') :
    ∃ stage', At s₀ id calls c' stage' ∧ Stage.Next (statusOf s₀ id) stage stage' := by
  obtain ⟨i, hExec, hAlone⟩ := hStep
  have hMoved := Pool.moved_of_exec hExec
  by_cases hWho : stage.who = some i
  · cases stage with
    | undecided => cases hWho
    | taken k =>
        obtain rfl := Option.some.inj hWho
        exact h.step_taken hExec
    | applied k =>
        obtain rfl := Option.some.inj hWho
        exact h.step_applied hExec
    | approved k | rejected k =>
        obtain rfl := Option.some.inj hWho
        exact absurd h.doing (Pool.exec_ended hExec)
  · cases stage with
    | undecided => exact h.step_undecided hExec
    | approved k =>
        exact ⟨_, h.step_decided hExec hWho (by simp [Stage.status]), .stay _⟩
    | rejected k =>
        exact ⟨_, h.step_decided hExec hWho (by simp [Stage.status]), .stay _⟩
    | taken k =>
        obtain ⟨-, hSteps, hDecides⟩ := h.doing
        obtain ⟨r, hDone⟩ := h.idle.ended_of_alone hMoved hAlone hWho hSteps
        rw [hDone] at hDecides
        cases hDecides
    | applied k =>
        obtain ⟨-, hSteps, answer, hProc⟩ := h.doing
        obtain ⟨r, hDone⟩ := h.idle.ended_of_alone hMoved hAlone hWho hSteps
        rw [hDone] at hProc
        cases hProc

/-! ## All interleavings -/

theorem At.reach (h : At s₀ id calls c stage) (hReach : Relation.ReflTransGen OneAtATime c c') :
    ∃ stage', At s₀ id calls c' stage' ∧
      Relation.ReflTransGen (Stage.Next (statusOf s₀ id)) stage stage' := by
  induction hReach with
  | refl => exact ⟨stage, h, .refl⟩
  | tail _ hStep ih =>
      obtain ⟨stage₁, hAt, hNexts⟩ := ih
      obtain ⟨stage₂, hAt', hNext⟩ := hAt.step hStep
      exact ⟨stage₂, hAt', hNexts.tail hNext⟩

omit [DecidableEq ι] in
theorem At.start (hValid : s₀.Valid) : At s₀ id calls (requestCalls s₀ id calls) .undecided where
  idle := Pool.idleBut_start _ _
  status := rfl
  user := fun _ => rfl
  sound := fun r hr => hValid.userRequest.references r (Table.find_eq_some.mp hr).1
  doing := trivial

omit [DecidableEq ι] in
/-- A stage with an applied request is not one of a rejected request. -/
theorem At.not_rejected (h : At s₀ id calls c stage) (hApplied : stage.Applied) :
    statusOf c.state id ≠ some "rejected" := by
  rw [h.status]
  cases stage with
  | applied k =>
      obtain ⟨hInitial, -⟩ := h.doing
      simp [Stage.status, hInitial]
  | approved k => simp [Stage.status]
  | undecided | taken k | rejected k => exact hApplied.elim

/-- No call returns without having read the request. -/
theorem prog_not_returned (id : Id) (call : Call) (answer : Answer) :
    call.prog id ≠ .done (.ok answer) := by
  obtain ⟨k, hRead, -⟩ := call.prog_read id
  rw [hRead]
  intro hDone
  cases hDone

/-- What is promised of calls on one request, when the database executes their steps in the
orders that `step` allows: one call succeeds, the status leaves `pending` once and stays, and
the user of a rejected request is as before in every store on the way. -/
structure DecidedOnce (step : Pool ι Store Exn Answer → Pool ι Store Exn Answer → Prop) (id : Id)
    (c₀ : Pool ι Store Exn Answer) : Prop where
  one : ∀ c, Relation.ReflTransGen step c₀ c → ∀ i j answer answer',
    c.Returned i answer → c.Returned j answer' → i = j
  settled : ∀ c c', Relation.ReflTransGen step c₀ c → Relation.ReflTransGen step c c' →
    statusOf c.state id ≠ some "pending" → statusOf c'.state id = statusOf c.state id
  untouched : ∀ c c', Relation.ReflTransGen step c₀ c → Relation.ReflTransGen step c c' →
    statusOf c'.state id = some "rejected" → c.state.user = c₀.state.user

/-- **A change request is decided once**, in every interleaving of any number of calls in
which no call reads the request while another one is between its read and its end. -/
theorem change_request_decided_once (hValid : s₀.Valid) (id : Id) (calls : ι → Call) :
    DecidedOnce OneAtATime id (requestCalls s₀ id calls) where
  one := by
    intro c hReach i j answer answer' hi hj
    obtain ⟨stage, hAt, -⟩ := (At.start hValid).reach hReach
    exact hAt.idle.returned_unique (fun k => prog_not_returned id (calls k)) hi hj
  settled := by
    intro c c' hReach hReach' hSettled
    obtain ⟨stage, hAt, -⟩ := (At.start hValid).reach hReach
    obtain ⟨stage', hAt', hNexts⟩ := hAt.reach hReach'
    rw [hAt.status] at hSettled ⊢
    rw [hAt'.status]
    exact Stage.settled_of_reach hNexts hSettled
  untouched := by
    intro c c' hReach hReach' hRejected
    obtain ⟨stage, hAt, -⟩ := (At.start hValid).reach hReach
    obtain ⟨stage', hAt', hNexts⟩ := hAt.reach hReach'
    refine hAt.user fun hApplied => ?_
    exact hAt'.not_rejected (Stage.applied_of_reach hNexts hApplied) hRejected

end Interleavings

section Site

attribute [local instance] saltedHashes

/-- The member of the small site asks for another address. -/
def addressSite : Store :=
  { site with
    userRequest := Table.empty.insert (fun id =>
      { id, userId := 1, adminId := 1, requestType := "email", currentValue := some "ben@site"
        requestedValue := some "ben@yard", status := "pending" }) fun _ => rfl }

theorem addressSite_valid : addressSite.Valid := by
  constructor <;> decide

/-- The admin approves and rejects the request at once. -/
def bothCalls : Bool → Call
  | true => .approveRequest 1
  | false => .rejectRequest 1

/-- Both calls read the pending request before the first of them writes; both succeed. -/
theorem request_decided_twice :
    ¬ DecidedOnce Pool.Exec 1 (requestCalls addressSite 1 bothCalls) := by
  intro h
  have hReach := Pool.reach_play (requestCalls addressSite 1 bothCalls)
    [true, false, true, true, false]
  exact absurd (h.one _ hReach true false _ _ rfl rfl) (by decide)

/-- One after the other the approval succeeds, and the rejection finds it decided. -/
theorem change_request_decided_once_address :
    ((requestCalls addressSite 1 bothCalls).play [true, true, true, false]).proc false =
        .done (.error (.badRequest "Request is already approved")) ∧
      DecidedOnce OneAtATime 1 (requestCalls addressSite 1 bothCalls) :=
  ⟨rfl, change_request_decided_once addressSite_valid 1 bothCalls⟩

end Site

end RequestService

end Rooeel
