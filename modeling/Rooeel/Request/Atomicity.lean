import Rooeel.Request.Decision

/-!
# Faults while a request is decided

`approveRequest` and `generatePassword` write the user with one statement and the status with
another one, and there is no transaction around the two. `decided_atomically` says for every
choice of failing steps whether the rows change together. They do not when the second statement
fails after the first one has changed the user, nor when the user has been approved what its row
contains already.
-/

namespace Rooeel

open JavaScript Prog Table

namespace RequestService

/-! ## The calls that write the user -/

inductive Application where
  | generatePassword (adminId : Id) (secret : Secret)
  | approveRequest (adminId : Id)

namespace Application

def call : Application → Call
  | .generatePassword adminId secret => .generatePassword adminId secret
  | .approveRequest adminId => .approveRequest adminId

def adminId : Application → Id
  | .generatePassword adminId _ | .approveRequest adminId => adminId

/-- What the call makes of the user, if the request has the right type for it. -/
def change [PasswordRuntime] (request : UserRequest) : Application → Option (User → User)
  | .generatePassword _ secret =>
    if request.requestType ∈ passwordRequestTypes then
      some (UserService.passwordData secret.hash)
    else none
  | .approveRequest _ =>
    if request.requestType ∈ passwordRequestTypes then none else requestedChange request

end Application

/-- Which steps of a call fail, and how: it has three. -/
structure Faults where
  read : Option Exn := none
  write : Option Exn := none
  status : Option Exn := none

def Faults.steps (faults : Faults) : List (Option Exn) :=
  [faults.read, faults.write, faults.status]

/-- A call that throws leaves both rows as they were; one that succeeds has changed both. -/
def Atomically (request : UserRequest) (s : Store) : Except Exn Answer × Store → Prop
  | (.error _, s') => s'.user.find request.userId = s.user.find request.userId ∧
      s'.userRequest.find request.id = s.userRequest.find request.id
  | (.ok _, s') => s'.user.find request.userId ≠ s.user.find request.userId ∧
      statusOf s' request.id ≠ statusOf s request.id

/-- The call gets as far as to write the user, and the database accepts what it writes. -/
structure Application.Writes [PasswordRuntime] (call : Application) (s : Store)
    (request : UserRequest) (faults : Faults) (user : User) (f : User → User) : Prop where
  admin : request.adminId = call.adminId
  change : call.change request = some f
  found : s.user.find request.userId = some user
  accepts : prisma.user.accepts s (f user) = .ok ()
  read : faults.read = none
  write : faults.write = none

/-! ## The steps of a call -/

/-- What a call makes of the pending request that it has read: it writes the user and the status,
or it stops. -/
inductive Application.Goes [PasswordRuntime] (call : Application) (request : UserRequest)
    (p : Service Answer) : Prop
  | apply (f : User → User) (hf) (answer : UserRequest → Answer)
      (hAdmin : request.adminId = call.adminId) (hChange : call.change request = some f)
      (hProg : p = updateUser request.userId f hf >>= fun _ =>
        setStatus request.id "approved" >>= fun r => pure (answer r))
  | stop (e : Exn) (hNot : request.adminId = call.adminId → call.change request = none)
      (hProg : p = throw e)

theorem Application.goes_requirePending [PasswordRuntime] (call : Application)
    {request : UserRequest} (hPending : request.status = "pending") {refusal : String}
    {k : UserRequest → Service Answer}
    (h : request.adminId = call.adminId → call.Goes request (k request)) :
    call.Goes request (requirePending request.id call.adminId refusal (some request) >>= k) := by
  rcases requirePending_cases request.id call.adminId refusal (some request) with
    ⟨e, hThrow, hNot⟩ | ⟨found, hFound, hAdmin, -, hPass⟩
  · rw [hThrow]
    exact .stop e (fun hAdmin => absurd ⟨hAdmin, hPending⟩ (hNot request rfl)) rfl
  · obtain rfl := Option.some.inj hFound
    rw [hPass]
    exact h hAdmin

theorem Application.prog_read [PasswordRuntime] (call : Application) {request : UserRequest}
    (hPending : request.status = "pending") :
    ∃ k, call.call.prog request.id = findOne request.id >>= k ∧
      call.Goes request (k (some request)) := by
  cases call with
  | generatePassword adminId secret =>
      refine ⟨_, by
        simp only [call, Call.prog, RequestService.generatePassword, Prog.bind_assoc]
        rfl, ?_⟩
      refine goes_requirePending (.generatePassword adminId secret) hPending fun hAdmin => ?_
      rw [throwIf_bind]
      split
      · rename_i hType
        exact .stop _ (fun _ => if_neg hType) rfl
      · rename_i hType
        exact .apply _ _ _ hAdmin (if_pos (not_not.mp hType)) rfl
  | approveRequest adminId =>
      refine ⟨_, by
        simp only [call, Call.prog, RequestService.approveRequest, Prog.bind_assoc]
        rfl, ?_⟩
      refine goes_requirePending (.approveRequest adminId) hPending fun hAdmin => ?_
      rw [throwIf_bind]
      split
      · rename_i hType
        exact .stop _ (fun _ => if_pos hType) rfl
      · rename_i hType
        have hSame : change request (.approveRequest adminId) = requestedChange request :=
          if_neg hType
        rcases updateRequestedColumn_cases request with ⟨hNone, e, hThrow⟩ | ⟨f, hf, hSome, hUpdate⟩
        · rw [hThrow]
          exact .stop e (fun _ => hSame.trans hNone) rfl
        · rw [hUpdate]
          exact .apply f hf _ hAdmin (hSame.trans hSome) rfl

/-- What is left after the write of the user. -/
theorem runWith_setStatus {s : Store} {request : UserRequest} (answer : UserRequest → Answer)
    (hFind : s.userRequest.find request.id = some request)
    (hRef : prisma.userRequest.references s request = true) :
    ∃ result s', (setStatus request.id "approved" >>= fun r => pure (answer r)).runWith [none] s =
        (.ok result, s') ∧ s'.user = s.user ∧ statusOf s' request.id = some "approved" := by
  have hAccepts : prisma.userRequest.accepts s { request with status := "approved" } = .ok () :=
    Model.accepts_of hRef fun _ _ _ => rfl
  have hFound : prisma.userRequest.findFirst (fun r => r.id == request.id) s = some request := hFind
  rw [setStatus, update, execute, runWith_atomic_bind, Model.update_of_find hFound hAccepts]
  refine ⟨_, _, rfl, rfl, ?_⟩
  exact congrArg (Option.map UserRequest.status)
    (find_modify_key (fun r => { r with status := "approved" }) (fun _ => rfl) hFind)

/-- A write of the user that the database refuses has no effect. -/
theorem runWith_updateUser_refused {s : Store} {userId : Id} {f : User → User}
    {hf : ∀ r, Row.key (f r) = Row.key r} {k : User → Service Answer} {user : User}
    {e : DbError} (hFind : s.user.find userId = some user)
    (hRefused : prisma.user.accepts s (f user) = .error e) (faults : List (Option Exn)) :
    (updateUser userId f hf >>= k).runWith (none :: faults) s = (.error (.prisma e), s) := by
  have hFound : prisma.user.findFirst (fun r => r.id == userId) s = some user := hFind
  rw [updateUser, update, execute, runWith_atomic_bind, Model.update_refused hFound hRefused]
  rfl

theorem runWith_updateUser {s : Store} {userId : Id} {f : User → User}
    {hf : ∀ r, Row.key (f r) = Row.key r} {k : User → Service Answer} {user : User}
    (hFind : s.user.find userId = some user) (hAccepts : prisma.user.accepts s (f user) = .ok ())
    (faults : List (Option Exn)) :
    ∃ s', (updateUser userId f hf >>= k).runWith (none :: faults) s =
        (k (f user)).runWith faults s' ∧
      s'.user.find userId = some (f user) ∧ s'.userRequest = s.userRequest ∧
      ∀ r, prisma.userRequest.references s' r = prisma.userRequest.references s r := by
  have hFound : prisma.user.findFirst (fun r => r.id == userId) s = some user := hFind
  rw [updateUser, update, execute, runWith_atomic_bind, Model.update_of_find hFound hAccepts]
  refine ⟨_, rfl, find_modify_key f hf hFind, rfl, fun r => ?_⟩
  change ((s.user.modify _ f hf).has _ && _) = _
  rw [has_modify]
  rfl

/-! ## The two rows -/

/-- The last step of a call, after the user has been written. -/
theorem atomically_setStatus {s s₁ : Store} {request : UserRequest} {user user' : User}
    {answer : UserRequest → Answer} {status : Option Exn} (hPending : request.status = "pending")
    (hFind : s.userRequest.find request.id = some request)
    (hRef : prisma.userRequest.references s₁ request = true)
    (hUser : s.user.find request.userId = some user)
    (hUser' : s₁.user.find request.userId = some user')
    (hRequests : s₁.userRequest = s.userRequest) :
    Atomically request s
        ((setStatus request.id "approved" >>= fun r => pure (answer r)).runWith [status] s₁) ↔
      (status = none ↔ user' ≠ user) := by
  cases status with
  | some e =>
      change (s₁.user.find request.userId = s.user.find request.userId ∧
        s₁.userRequest.find request.id = s.userRequest.find request.id) ↔ _
      rw [hUser, hUser', hRequests, Option.some_inj, and_iff_left rfl]
      simp
  | none =>
      obtain ⟨result, s', hRun, hSame, hStatus⟩ :=
        runWith_setStatus answer (hRequests ▸ hFind) hRef
      have hOld : statusOf s request.id = some "pending" := by
        rw [← hPending]
        exact congrArg (Option.map UserRequest.status) hFind
      rw [hRun]
      change (s'.user.find request.userId ≠ s.user.find request.userId ∧
        statusOf s' request.id ≠ statusOf s request.id) ↔ _
      rw [hSame, hUser, hUser', hStatus, hOld, Ne, Option.some_inj, and_iff_left (by decide)]
      simp

/-- Both writes of a call, one after the other. -/
theorem atomically_apply {s : Store} {request : UserRequest} {user : User} {f : User → User}
    {hf : ∀ r, Row.key (f r) = Row.key r} {answer : UserRequest → Answer}
    {write status : Option Exn} (hPending : request.status = "pending")
    (hFind : s.userRequest.find request.id = some request)
    (hRef : prisma.userRequest.references s request = true)
    (hUser : s.user.find request.userId = some user) :
    Atomically request s ((updateUser request.userId f hf >>= fun _ =>
        setStatus request.id "approved" >>= fun r => pure (answer r)).runWith [write, status] s) ↔
      (write = none → prisma.user.accepts s (f user) = .ok () →
        (status = none ↔ f user ≠ user)) := by
  cases write with
  | some e => exact iff_of_true ⟨rfl, rfl⟩ nofun
  | none =>
      cases hAccepts : prisma.user.accepts s (f user) with
      | error e =>
          rw [runWith_updateUser_refused hUser hAccepts]
          exact iff_of_true ⟨rfl, rfl⟩ nofun
      | ok _ =>
          obtain ⟨s₁, hRun, hUser', hRequests, hRefs⟩ :=
            runWith_updateUser hUser hAccepts [status]
          rw [hRun, atomically_setStatus hPending hFind ((hRefs request).trans hRef) hUser hUser'
            hRequests]
          exact ⟨fun h _ _ => h, fun h => h rfl rfl⟩

/-- **When a request is decided atomically**: when the last step fails exactly in the calls whose
write of the user changes nothing. -/
theorem decided_atomically [PasswordRuntime] {s : Store} (hValid : s.Valid) {request : UserRequest}
    (hRequest : request ∈ s.userRequest.rows) (hPending : request.status = "pending")
    (call : Application) (faults : Faults) :
    Atomically request s ((call.call.prog request.id).runWith faults.steps s) ↔
      ∀ user f, call.Writes s request faults user f → (faults.status = none ↔ f user ≠ user) := by
  obtain ⟨read, write, status⟩ := faults
  obtain ⟨k, hProg, hGoes⟩ := call.prog_read hPending
  have hFind : s.userRequest.find request.id = some request := find_eq_some.mpr ⟨hRequest, rfl⟩
  have hRef := hValid.userRequest.references request hRequest
  obtain ⟨user, hMem, hKey⟩ := has_iff.mp (Bool.and_eq_true_iff.mp hRef).1
  have hUser : s.user.find request.userId = some user := find_eq_some.mpr ⟨hMem, hKey⟩
  rw [hProg]
  cases read with
  | some e => exact iff_of_true ⟨rfl, rfl⟩ fun user f hWrites => nomatch hWrites.read
  | none =>
      change Atomically request s
        ((k (s.userRequest.find request.id)).runWith [write, status] s) ↔ _
      rw [hFind]
      cases hGoes with
      | stop e hNot hStop =>
          rw [hStop]
          refine iff_of_true ⟨rfl, rfl⟩ fun user f hWrites => ?_
          have hNone := hNot hWrites.admin
          rw [hWrites.change] at hNone
          cases hNone
      | apply f hf answer hAdmin hChange hApply =>
          rw [hApply, atomically_apply hPending hFind hRef hUser]
          constructor
          · intro h user' f' hWrites
            obtain rfl : f' = f := Option.some.inj (hWrites.change.symm.trans hChange)
            obtain rfl : user' = user := Option.some.inj (hWrites.found.symm.trans hUser)
            exact h hWrites.write hWrites.accepts
          · intro h hWrite hAccepts
            exact h user f ⟨hAdmin, hChange, hUser, hAccepts, rfl, hWrite⟩

section Site

attribute [local instance] saltedHashes

/-- The request of the member for another address. -/
def addressRequest : UserRequest := ⟨1, 1, 1, "email", some "ben@site", some "ben@yard", "pending"⟩

theorem addressRequest_mem : addressRequest ∈ addressSite.userRequest.rows := by decide

/-- The admin approves the request; some of the steps may fail. -/
def approveAddress (faults : Faults) : Except Exn Answer × Store :=
  ((Application.approveRequest 1).call.prog addressRequest.id).runWith faults.steps addressSite

def connectionLost : Faults := { status := some (.error "connection lost") }

/-- The approval fails, the member has the new address, and the request is pending. -/
theorem applied_but_pending :
    (∃ e, (approveAddress connectionLost).1 = .error e) ∧
      (approveAddress connectionLost).2.user.rows.map User.email = ["ben@yard"] ∧
      statusOf (approveAddress connectionLost).2 1 = some "pending" ∧
      ¬ Atomically addressRequest addressSite (approveAddress connectionLost) := by
  refine ⟨⟨_, rfl⟩, by decide, by decide, fun h => ?_⟩
  have hUser : (approveAddress connectionLost).2.user.find 1 = addressSite.user.find 1 := h.1
  exact absurd hUser (by decide)

theorem decided_atomically_address :
    Atomically addressRequest addressSite (approveAddress {}) := by
  refine (decided_atomically addressSite_valid addressRequest_mem rfl (.approveRequest 1) {}).mpr ?_
  intro user f hWrites
  obtain rfl := Option.some.inj hWrites.found
  obtain rfl := Option.some.inj hWrites.change
  exact iff_of_true rfl (by decide)

end Site

end RequestService

end Rooeel
