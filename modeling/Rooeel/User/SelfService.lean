import Rooeel.User.Accounts
import Rooeel.Project.Lists
import Rooeel.Auth.Guards
import Rooeel.Request.Decision

/-!
# Self-service

Six operations act on the account of the caller: the profile, the password, the change requests
and the projects. Admins and users pass the same guards, and the operations take the id of the
caller for the id of a user, whatever the role.

`OwnOnly` says that an operation answers the same on stores that agree on the account of the
caller, and writes nothing else. It holds for users, and not for admins, whose id may be the id
of some user as well.
-/

namespace Rooeel

open JavaScript Prog Table

/-! ## The operations -/

/-- `CreateRequestDto`. -/
structure CreateRequestDto where
  requestType : String
  requestedValue : Option String
  currentPassword : Option String

/-- `select: { id, firstName, lastName, email }`. -/
structure Contact where
  id : Id
  firstName : String
  lastName : String
  email : String
  deriving DecidableEq

def userContact (s : Store) (id : Id) : Option Contact :=
  (s.user.find id).map fun r => ⟨r.id, r.firstName, r.lastName, r.email⟩

def adminContact (s : Store) (id : Id) : Option Contact :=
  (s.admin.find id).map fun r => ⟨r.id, r.firstName, r.lastName, r.email⟩

namespace RequestService

/-- `user[requestType]`. -/
def currentValueOf (user : User) (requestType : String) : Option String :=
  if requestType = "firstName" then some user.firstName
  else if requestType = "lastName" then some user.lastName
  else if requestType = "email" then some user.email
  else none

def createRequest [PasswordRuntime] (userId : Id) (dto : CreateRequestDto) :
    Service UserRequest := do
  let user ← UserService.requireUser userId
  Prog.throwIf (isSet user.createdBy = false)
    (.badRequest "User does not have an assigned admin")
  let currentPassword := dto.currentPassword.getD ""
  Prog.throwIf (dto.requestType = "password" ∧ currentPassword = "")
    (.badRequest "Current password is required for password change requests")
  Prog.throwIf (dto.requestType = "password" ∧
      ¬ PasswordRuntime.compare currentPassword user.password)
    (.badRequest "Current password is incorrect")
  create prisma.userRequest fun id =>
    { id
      userId
      adminId := user.createdBy.getD 0
      requestType := dto.requestType
      currentValue := if dto.requestType ∈ passwordRequestTypes then none
        else currentValueOf user dto.requestType
      requestedValue := if dto.requestType ∈ passwordRequestTypes then some "[HIDDEN]"
        else dto.requestedValue
      status := "pending" }

/-- The requests of a user, newest first, with the names of their admins. -/
def findAllByUser (userId : Id) : Service (List (UserRequest × Option Contact)) :=
  query fun s => (prisma.userRequest.findMany (fun r => r.userId == userId) s).reverse.map fun r =>
    (r, adminContact s r.adminId)

end RequestService

/-- An entry of `getUserProjects` with the names of the admin and of the members that are shown. -/
structure NamedProject where
  project : ProjectResponse
  admin : Option (Id × String × String)
  users : List (Option Contact)

def projectAdmin (s : Store) (project : Project) : Option (Id × String × String) :=
  (s.admin.find project.createdBy).map fun r => (r.id, r.firstName, r.lastName)

def withNames (s : Store) (response : ProjectResponse) : NamedProject where
  project := response
  admin := projectAdmin s response.project
  users := response.users.map fun r => userContact s r.userId

/-- A self-service operation with its arguments. -/
inductive SelfOp where
  | me
  | updateMyProfile (input : UpdateUserInput)
  | changeMyPassword (currentPassword : String) (secret : Secret)
  | createRequest (dto : CreateRequestDto)
  | findMyRequests
  | myProjects

inductive SelfAnswer where
  | found (user : Option User)
  | user (user : User)
  | changed
  | request (request : UserRequest)
  | requests (requests : List (UserRequest × Option Contact))
  | projects (projects : List NamedProject)

section Code

variable [Runtime] [PasswordRuntime]

/-- The handler of the operation. The names in the projects are part of the query that the list
of projects begins with; here they are read at its end. -/
def SelfOp.prog (userId : Id) : SelfOp → Service SelfAnswer
  | .me => UserService.findOne userId >>= fun user => pure (.found user)
  | .updateMyProfile input =>
      UserService.updateMyProfile userId input >>= fun user => pure (.user user)
  | .changeMyPassword currentPassword secret =>
      UserService.changeMyPassword userId currentPassword secret >>= fun _ => pure .changed
  | .createRequest dto =>
      RequestService.createRequest userId dto >>= fun request => pure (.request request)
  | .findMyRequests =>
      RequestService.findAllByUser userId >>= fun requests => pure (.requests requests)
  | .myProjects =>
      getUserProjects userId >>= fun projects =>
        query fun s => .projects (projects.map (withNames s))

omit [Runtime] [PasswordRuntime] in
/-- The guard in front of the operation: two are REST, the others GraphQL. -/
def SelfOp.authenticate [TokenRuntime] [PassportRuntime] (op : SelfOp) (cache : Cache) (now : Int)
    (authHeader : Option String) : Except Exn RequestUser :=
  match op with
  | .createRequest _ | .findMyRequests =>
      RestAuthGuard.handleRequest (authenticateJwt cache now authHeader)
  | _ => GqlUserGuard.handleRequest (authenticateJwt cache now authHeader)

/-- A request: the guard, and the handler with the id of the caller. -/
def SelfOp.handle [TokenRuntime] [PassportRuntime] (op : SelfOp) (cache : Cache) (now : Int)
    (authHeader : Option String) : Service SelfAnswer :=
  match op.authenticate cache now authHeader with
  | .error e => throw e
  | .ok user => op.prog user.userId

end Code

/-! ## The data of an account -/

/-- The stores agree on the data of a user: the row, the requests, and the projects of which it
is a member, with its rights there and the names that go with them. -/
structure SameUser (n : Id) (s s' : Store) : Prop where
  user : s.user.find n = s'.user.find n
  requests : (s.userRequest.rows.filter fun r => r.userId == n) =
    s'.userRequest.rows.filter fun r => r.userId == n
  requestAdmins : ∀ r ∈ s.userRequest.rows, r.userId = n →
    adminContact s r.adminId = adminContact s' r.adminId
  projects : memberProjects s n = memberProjects s' n
  rights : ∀ r ∈ s.projectUser.rows, r.userId = n →
    r.membership.permissions s = r.membership.permissions s' ∧
      r.membership.policies s = r.membership.policies s'
  projectAdmins : ∀ view ∈ memberProjects s n, projectAdmin s view.project =
    projectAdmin s' view.project
  members : ∀ view ∈ memberProjects s n, ∀ r ∈ view.users,
    userContact s r.userId = userContact s' r.userId

/-- The stores agree on the account with id `n` in the table of the role, and on what belongs to
no account: which addresses are taken, and the id of the next request. -/
structure SameAccount (role : String) (n : Id) (s s' : Store) : Prop where
  addresses : ∀ email, (∃ r ∈ s.user.rows, r.email = email) ↔ ∃ r ∈ s'.user.rows, r.email = email
  nextRequest : s.userRequest.next = s'.userRequest.next
  account : if role = "admin" then s.admin.find n = s'.admin.find n else SameUser n s s'

/-- The operation has written the row and the requests of a user only. -/
structure UserWrites (n : Id) (s s' : Store) : Prop where
  tables : s' = { s with user := s'.user, userRequest := s'.userRequest }
  users : ∀ r, Touched s.user s'.user r → r.id = n
  requests : ∀ r, Touched s.userRequest s'.userRequest r → r.userId = n

/-- The operation has written the row of an admin only. -/
structure AdminWrites (n : Id) (s s' : Store) : Prop where
  tables : s' = { s with admin := s'.admin }
  admins : ∀ r, Touched s.admin s'.admin r → r.id = n

/-- An operation reads and writes the account with id `n` in the table of the role. -/
structure OwnOnly (role : String) (n : Id) (p : Service SelfAnswer) : Prop where
  reads : ∀ s s', s.Valid → s'.Valid → SameAccount role n s s' → (p.run s).1 = (p.run s').1
  writes : ∀ s, s.Valid →
    if role = "admin" then AdminWrites n s (p.run s).2 else UserWrites n s (p.run s).2

/-! ## What an operation reads -/

/-- The program ends the same on both stores. -/
def Alike {α : Type} (s s' : Store) (p : Service α) : Prop := (p.run s).1 = (p.run s').1

section Reads

variable {α β : Type} {s s' : Store} {n : Id}

theorem alike_throw (e : Exn) : Alike s s' (throw e : Service α) := rfl

theorem alike_query {f : Store → α} (h : f s = f s') : Alike s s' (query f) :=
  congrArg Except.ok h

/-- Queries come first, and the rest depends on what they return. -/
theorem alike_query_bind {f : Store → α} {k : α → Service β} (h : f s = f s')
    (hk : Alike s s' (k (f s))) : Alike s s' (query f >>= k) := by
  unfold Alike
  rw [query_bind_run, query_bind_run, ← h]
  exact hk

theorem alike_throwIf {c : Prop} [Decidable c] {e : Exn} {k : Unit → Service β}
    (hk : ¬ c → Alike s s' (k ())) : Alike s s' (Prog.throwIf c e >>= k) := by
  rw [throwIf_bind]
  split
  · exact alike_throw e
  · rename_i hPass
    exact hk hPass

/-- The last part of a program, and a value made of what it returns. -/
theorem alike_map {p : Service α} {f : α → β} (h : Alike s s' p) :
    Alike s s' (p >>= fun a => pure (f a)) := by
  have hRun (s : Store) : ((p >>= fun a => pure (f a)).run s).1 = (p.run s).1.map f := by
    rw [run_bind]
    cases p.run s with
    | mk result s₁ => cases result <;> rfl
  unfold Alike
  rw [hRun, hRun, h]

theorem alike_requireUser {k : User → Service β} (h : s.user.find n = s'.user.find n)
    (hk : ∀ user, s.user.find n = some user → Alike s s' (k user)) :
    Alike s s' (UserService.requireUser n >>= k) := by
  unfold UserService.requireUser
  rw [Prog.bind_assoc]
  refine alike_query_bind h ?_
  change Alike s s' (UserService.orNotFound n (s.user.find n) >>= k)
  cases hFind : s.user.find n with
  | none => exact alike_throw _
  | some user => exact hk user hFind

/-- Whether another user has an address depends on the addresses in use, and on the own one. -/
theorem taken_iff (hSound : prisma.user.Sound s) {user : User} (hFind : s.user.find n = some user)
    (email : String) :
    (∃ r ∈ s.user.rows, r.id ≠ n ∧ r.email = email) ↔
      user.email ≠ email ∧ ∃ r ∈ s.user.rows, r.email = email := by
  obtain ⟨hMem, hKey⟩ := find_eq_some.mp hFind
  constructor
  · rintro ⟨r, hr, hOther, rfl⟩
    refine ⟨fun hSame => hOther ?_, r, hr, rfl⟩
    have hEq : user = r := hSound.eq_of_conflicts (fun a b => Bool.beq_comm) hMem hr
      (beq_iff_eq.mpr hSame)
    rw [← hEq]
    exact hKey
  · rintro ⟨hOwn, r, hr, rfl⟩
    refine ⟨r, hr, fun hSame => hOwn ?_, rfl⟩
    rw [s.user.key_inj hMem hr (hKey.trans hSame.symm)]

/-- The constraints of the own row, after a change that keeps its creator. -/
theorem accepts_user_iff (hSound : prisma.user.Sound s) {user after : User}
    (hFind : s.user.find n = some user) (hId : after.id = user.id)
    (hCreator : after.createdBy = user.createdBy) :
    prisma.user.accepts s after =
      if user.email ≠ after.email ∧ ∃ r ∈ s.user.rows, r.email = after.email then
        .error .unique
      else .ok () := by
  obtain ⟨hMem, hKey⟩ := find_eq_some.mp hFind
  have hRef : prisma.user.references s after = true := by
    have hOld := hSound.references user hMem
    simp only [prisma.user] at hOld ⊢
    rw [hCreator]
    exact hOld
  have hOwn : after.id = n := hId.trans hKey
  split
  · rename_i hTaken
    obtain ⟨r, hr, hOther, hEmail⟩ := (taken_iff hSound hFind _).mpr hTaken
    refine Model.accepts_conflict hRef hr (fun hSame => hOther ?_) (beq_iff_eq.mpr hEmail)
    exact hSame.trans hOwn
  · rename_i hFree
    refine Model.accepts_of hRef fun r hr hOther => ?_
    by_contra hConflict
    refine hFree ((taken_iff hSound hFind _).mp ⟨r, hr, fun hSame => hOther ?_, ?_⟩)
    · exact hSame.trans hOwn.symm
    · exact beq_iff_eq.mp (Bool.not_eq_false _ ▸ hConflict)

theorem alike_updateUser (hValid : s.Valid) (hValid' : s'.Valid)
    (hUser : s.user.find n = s'.user.find n)
    (hAddresses : ∀ email,
      (∃ r ∈ s.user.rows, r.email = email) ↔ ∃ r ∈ s'.user.rows, r.email = email)
    (f : User → User) (hf : ∀ r, Row.key (f r) = Row.key r)
    (hCreator : ∀ r, (f r).createdBy = r.createdBy) :
    Alike s s' (update prisma.user (fun r => r.id == n) f hf) := by
  have hUpdate : (prisma.user.update (fun r => r.id == n) f hf s).map Prod.fst =
      (prisma.user.update (fun r => r.id == n) f hf s').map Prod.fst := by
    cases hFind : s.user.find n with
    | none =>
        have hFirst : prisma.user.findFirst (fun r => r.id == n) s = none := hFind
        have hFirst' : prisma.user.findFirst (fun r => r.id == n) s' = none :=
          hUser.symm.trans hFind
        simp only [Model.update, hFirst, hFirst']
    | some user =>
        have hFind' : s'.user.find n = some user := hUser.symm.trans hFind
        have hFirst : prisma.user.findFirst (fun r => r.id == n) s = some user := hFind
        have hFirst' : prisma.user.findFirst (fun r => r.id == n) s' = some user := hFind'
        simp only [Model.update, hFirst, hFirst',
          accepts_user_iff hValid.user hFind (hf user) (hCreator user),
          accepts_user_iff hValid'.user hFind' (hf user) (hCreator user), hAddresses]
        split <;> rfl
  unfold Alike update
  rw [execute_result, execute_result, hUpdate]

theorem alike_requireFree
    (hAddresses : ∀ email,
      (∃ r ∈ s.user.rows, r.email = email) ↔ ∃ r ∈ s'.user.rows, r.email = email)
    (email : Option String) {k : Unit → Service β} (hk : Alike s s' (k ())) :
    Alike s s' (UserService.requireFree email >>= k) := by
  cases email with
  | none => exact hk
  | some email =>
      have hFound (s : Store) :
          (prisma.user.findFirst (fun r => r.email == email) s).isSome = true ↔
            ∃ r ∈ s.user.rows, r.email = email := by
        simp only [Model.findFirst, List.find?_isSome, beq_iff_eq]
        rfl
      unfold UserService.requireFree
      dsimp only
      rw [Prog.bind_assoc]
      unfold Alike UserService.findByEmail findUnique
      rw [query_bind_run, query_bind_run, throwIf_bind, throwIf_bind]
      by_cases hTaken : ∃ r ∈ s.user.rows, r.email = email
      · rw [if_pos ((hFound s).mpr hTaken), if_pos ((hFound s').mpr ((hAddresses _).mp hTaken))]
        rfl
      · rw [if_neg fun h => hTaken ((hFound s).mp h),
          if_neg fun h => hTaken ((hAddresses _).mpr ((hFound s').mp h))]
        exact hk

/-- The request of a user whose admin exists is created, with the next id. -/
theorem createRow_result (hValid : s.Valid) {user : User} (hFind : s.user.find n = some user)
    {adminId : Id} (hAdmin : user.createdBy = some adminId) (mk : Id → UserRequest) (hmk)
    (hUser : ∀ id, (mk id).userId = n ∧ (mk id).adminId = adminId) :
    ((create prisma.userRequest mk hmk).run s).1 = .ok (mk s.userRequest.next) := by
  obtain ⟨hMem, hKey⟩ := find_eq_some.mp hFind
  have hHas : s.user.has n = true := has_iff.mpr ⟨user, hMem, hKey⟩
  have hRef := hValid.user.references user hMem
  simp only [prisma.user, hAdmin, refOk, Option.all_some] at hRef
  have hAccepts : prisma.userRequest.accepts s (mk s.userRequest.next) = .ok () := by
    refine Model.accepts_of ?_ fun _ _ _ => rfl
    simp only [prisma.userRequest, (hUser _).1, (hUser _).2, hHas, hRef, Bool.and_self]
  unfold create
  rw [execute_result, Model.create_of hAccepts]
  rfl

end Reads

section Users

variable [Runtime] [PasswordRuntime] {s s' : Store} {n : Id}

omit [Runtime] [PasswordRuntime] in
theorem alike_updateMyProfile (hValid : s.Valid) (hValid' : s'.Valid)
    (hUser : s.user.find n = s'.user.find n)
    (hAddresses : ∀ email,
      (∃ r ∈ s.user.rows, r.email = email) ↔ ∃ r ∈ s'.user.rows, r.email = email)
    (input : UpdateUserInput) : Alike s s' (UserService.updateMyProfile n input) := by
  refine alike_requireUser hUser fun user _ => alike_requireFree hAddresses _ ?_
  exact alike_updateUser hValid hValid' hUser hAddresses _ _ fun _ => rfl

omit [Runtime] in
theorem alike_changeMyPassword (hValid : s.Valid) (hValid' : s'.Valid)
    (hUser : s.user.find n = s'.user.find n)
    (hAddresses : ∀ email,
      (∃ r ∈ s.user.rows, r.email = email) ↔ ∃ r ∈ s'.user.rows, r.email = email)
    (currentPassword : String) (secret : Secret) :
    Alike s s' (UserService.changeMyPassword n currentPassword secret) := by
  refine alike_requireUser hUser fun user _ => alike_throwIf fun _ => alike_map ?_
  exact alike_updateUser hValid hValid' hUser hAddresses _ _ fun _ => rfl

omit [Runtime] in
theorem alike_createRequest (hValid : s.Valid) (hValid' : s'.Valid)
    (hUser : s.user.find n = s'.user.find n) (hNext : s.userRequest.next = s'.userRequest.next)
    (dto : CreateRequestDto) : Alike s s' (RequestService.createRequest n dto) := by
  refine alike_requireUser hUser fun user hFind => ?_
  refine alike_throwIf fun hAssigned => alike_throwIf fun _ => alike_throwIf fun _ => ?_
  cases hAdmin : user.createdBy with
  | none => exact absurd (by simp [isSet, hAdmin]) hAssigned
  | some adminId =>
      unfold Alike
      rw [createRow_result hValid hFind hAdmin _ _ fun _ => ⟨rfl, rfl⟩,
        createRow_result hValid' (hUser.symm.trans hFind) hAdmin _ _ fun _ => ⟨rfl, rfl⟩, hNext]

omit [Runtime] [PasswordRuntime] in
theorem alike_findAllByUser (hSame : SameUser n s s') :
    Alike s s' (RequestService.findAllByUser n) := by
  refine alike_query ?_
  have hRequests : prisma.userRequest.findMany (fun r => r.userId == n) s =
      prisma.userRequest.findMany (fun r => r.userId == n) s' := hSame.requests
  rw [← hRequests]
  refine List.map_congr_left fun r hr => ?_
  obtain ⟨hMem, hOwn⟩ := List.mem_filter.mp (List.mem_reverse.mp hr)
  rw [hSame.requestAdmins r hMem (beq_iff_eq.mp hOwn)]

omit [PasswordRuntime] in
/-- A project of a user looks the same in both stores. -/
theorem viewedBy_same (hSame : SameUser n s s') {view : ProjectView}
    (hView : view ∈ memberProjects s n) : view.viewedBy s n = view.viewedBy s' n := by
  unfold ProjectView.viewedBy
  cases hFind : view.users.find? fun user => user.userId == n with
  | none => rfl
  | some membership =>
      have hOwn : membership.userId = n := by simpa using List.find?_some hFind
      have hMem : membership ∈ s.projectUser.rows := by
        obtain ⟨r, -, -, project, -, rfl⟩ := mem_memberProjects.mp hView
        exact (List.mem_filter.mp (List.mem_of_find?_eq_some hFind)).1
      obtain ⟨hPermissions, hPolicies⟩ := hSame.rights membership hMem hOwn
      dsimp only
      rw [Membership.accessMap, Membership.accessMap, hPermissions, hPolicies]

omit [PasswordRuntime] in
theorem viewedBy_project (view : ProjectView) (s : Store) (userId : Id) :
    (view.viewedBy s userId).project = view.project := by
  unfold ProjectView.viewedBy
  split <;> rfl

omit [PasswordRuntime] in
/-- The members that are shown are members of the project. -/
theorem viewedBy_users {view : ProjectView} {s : Store} {userId : Id} {r : ProjectUser}
    (h : r ∈ (view.viewedBy s userId).users) : r ∈ view.users := by
  unfold ProjectView.viewedBy at h
  split at h
  · exact absurd h List.not_mem_nil
  · simp only [ProjectView.restrict] at h
    split at h
    · exact h
    · exact (List.mem_filter.mp h).1

theorem myProjects_run (n : Id) (s : Store) : (SelfOp.myProjects.prog n).run s =
    (answerIf ((memberProjects s n).all fun view => view.readable n)
      (.projects ((memberProjects s n).map fun view => withNames s (view.viewedBy s n))), s) := by
  unfold SelfOp.prog
  rw [run_bind, getUserProjects_run]
  cases (memberProjects s n).all fun view => view.readable n with
  | false => rfl
  | true =>
      change (Except.ok (SelfAnswer.projects (List.map _ (List.map _ _))), s) = _
      rw [List.map_map]
      rfl

theorem alike_myProjects (hSame : SameUser n s s') : Alike s s' (SelfOp.myProjects.prog n) := by
  unfold Alike
  rw [myProjects_run, myProjects_run, ← hSame.projects]
  refine congrArg (fun projects => answerIf _ (SelfAnswer.projects projects)) ?_
  refine List.map_congr_left fun view hView => ?_
  rw [← viewedBy_same hSame hView]
  unfold withNames
  rw [viewedBy_project, hSame.projectAdmins view hView]
  congr 1
  exact List.map_congr_left fun r hr => hSame.members view hView r (viewedBy_users hr)

/-- On stores that agree on a user, the operations answer it the same. -/
theorem SelfOp.alike (op : SelfOp) (hValid : s.Valid) (hValid' : s'.Valid)
    (hAddresses : ∀ email,
      (∃ r ∈ s.user.rows, r.email = email) ↔ ∃ r ∈ s'.user.rows, r.email = email)
    (hNext : s.userRequest.next = s'.userRequest.next) (hSame : SameUser n s s') :
    Alike s s' (op.prog n) := by
  cases op with
  | me => exact alike_map (alike_query hSame.user)
  | updateMyProfile input =>
      exact alike_map (alike_updateMyProfile hValid hValid' hSame.user hAddresses input)
  | changeMyPassword currentPassword secret =>
      exact alike_map (alike_changeMyPassword hValid hValid' hSame.user hAddresses _ _)
  | createRequest dto =>
      exact alike_map (alike_createRequest hValid hValid' hSame.user hNext dto)
  | findMyRequests => exact alike_map (alike_findAllByUser hSame)
  | myProjects => exact alike_myProjects hSame

/-! ## What an operation writes -/

omit [Runtime] [PasswordRuntime] in
theorem UserWrites.refl (n : Id) (s : Store) : UserWrites n s s :=
  ⟨rfl, fun _ h => absurd h not_touched_self, fun _ h => absurd h not_touched_self⟩

omit [Runtime] [PasswordRuntime] in
theorem AdminWrites.refl (n : Id) (s : Store) : AdminWrites n s s :=
  ⟨rfl, fun _ h => absurd h not_touched_self⟩

/-- The call writes the data of the user, or fails without effect. -/
abbrev WritesUser {α : Type} (n : Id) (s : Store) (p : Service α) : Prop :=
  p.wp (Outcome s fun _ s' => UserWrites n s s') s

omit [Runtime] [PasswordRuntime] in
theorem writesUser_query {α : Type} (f : Store → α) : WritesUser n s (query f) :=
  wp_read.mpr (UserWrites.refl n s)

omit [Runtime] [PasswordRuntime] in
theorem reads_requireUser (n : Id) : Reads s (fun _ => True) (UserService.requireUser n) := by
  refine reads_bind (reads_findUnique _ _) fun found _ => ?_
  cases found with
  | none => exact reads_throw _
  | some user => exact reads_pure trivial

omit [Runtime] [PasswordRuntime] in
theorem reads_requireFree (email : Option String) :
    Reads s (fun _ => True) (UserService.requireFree email) := by
  cases email with
  | none => exact reads_pure trivial
  | some email =>
      refine reads_bind (reads_findUnique _ _) fun _ _ => ?_
      exact reads_mono reads_throwIf fun _ _ => trivial

omit [Runtime] [PasswordRuntime] in
theorem writesUser_update (f : User → User) (hf : ∀ r, Row.key (f r) = Row.key r) :
    WritesUser n s (update prisma.user (fun r => r.id == n) f hf) := by
  refine outcome_execute fun row s' hOk => ?_
  obtain ⟨user, -, hId, -, -, -, rfl⟩ := Model.update_ok hOk
  refine ⟨rfl, fun r hTouched => ?_, fun r hTouched => absurd hTouched not_touched_self⟩
  have hModify : Touched s.user (s.user.modify (fun x => Row.key x == Row.key user) f hf) r :=
    hTouched
  obtain ⟨r₀, -, hKey, -, hSame⟩ := touched_modify hModify
  have hOwn : Row.key r₀ = n := (beq_iff_eq.mp hKey).trans (beq_iff_eq.mp hId)
  rcases hSame with rfl | rfl
  · exact hOwn
  · exact (hf r₀).trans hOwn

/-- What the operations write for a user. -/
theorem SelfOp.writesUser (op : SelfOp) (s : Store) : WritesUser n s (op.prog n) := by
  cases op with
  | me => exact outcome_map (writesUser_query _)
  | updateMyProfile input =>
      refine outcome_map (outcome_bind (reads_requireUser n) fun user _ => ?_)
      exact outcome_bind (reads_requireFree _) fun _ _ => writesUser_update _ _
  | changeMyPassword currentPassword secret =>
      refine outcome_map (outcome_bind (reads_requireUser n) fun user _ => ?_)
      exact outcome_bind reads_throwIf fun _ _ => outcome_map (writesUser_update _ _)
  | createRequest dto =>
      refine outcome_map (outcome_bind (reads_requireUser n) fun user _ => ?_)
      refine outcome_bind reads_throwIf fun _ _ => outcome_bind reads_throwIf fun _ _ => ?_
      refine outcome_bind reads_throwIf fun _ _ => outcome_execute fun row s' hOk => ?_
      obtain ⟨-, -, rfl⟩ := Model.create_ok hOk
      refine ⟨rfl, fun r hTouched => absurd hTouched not_touched_self, fun r hTouched => ?_⟩
      rw [touched_insert hTouched]
  | findMyRequests => exact outcome_map (writesUser_query _)
  | myProjects =>
      have hReads : Reads s (fun _ => True) (getUserProjects n) :=
        reads_answerIf (getUserProjects_run n s) trivial
      exact outcome_bind hReads fun _ _ => writesUser_query _

theorem SelfOp.userWrites (op : SelfOp) (n : Id) (s : Store) :
    UserWrites n s ((op.prog n).run s).2 := by
  have hWrites : WritesUser n s (op.prog n) := op.writesUser s
  generalize hRun : (op.prog n).run s = out
  obtain ⟨result, s'⟩ := out
  have hOutcome := (wp_of_run hRun).mp hWrites
  cases result with
  | ok answer => exact hOutcome
  | error e =>
      have hSame : s' = s := hOutcome
      rw [hSame]
      exact UserWrites.refl n s

/-! ## Admins whose id is the id of a user -/

omit [Runtime] [PasswordRuntime] in
theorem requireUser_missing {α : Type} (hMissing : s.user.find n = none) (k : User → Service α) :
    (UserService.requireUser n >>= k).run s =
      (.error (UserService.userNotFound n), s) := by
  have hFirst : prisma.user.findFirst (fun r => r.id == n) s = none := hMissing
  unfold UserService.requireUser UserService.findOne findUnique
  rw [Prog.bind_assoc, query_bind_run, hFirst]
  rfl

omit [Runtime] [PasswordRuntime] in
theorem requireUser_found {α : Type} {user : User} (hFind : s.user.find n = some user)
    (k : User → Service α) : (UserService.requireUser n >>= k).run s = (k user).run s := by
  have hFirst : prisma.user.findFirst (fun r => r.id == n) s = some user := hFind
  unfold UserService.requireUser UserService.findOne findUnique
  rw [Prog.bind_assoc, query_bind_run, hFirst]
  rfl

/-- The program never says that a row is not found. -/
def NeverMissing {α : Type} (p : Service α) : Prop :=
  ∀ s, p.wp (fun result _ => ∀ message, result ≠ .error (.notFound message)) s

omit [Runtime] [PasswordRuntime] in
theorem neverMissing_pure {α : Type} (a : α) : NeverMissing (pure a : Service α) := by
  intro s
  exact wp_pure.mpr fun message h => nomatch h

omit [Runtime] [PasswordRuntime] in
theorem neverMissing_query {α : Type} (f : Store → α) : NeverMissing (query f) := by
  intro s
  exact wp_read.mpr fun message h => nomatch h

omit [Runtime] [PasswordRuntime] in
theorem neverMissing_execute {α : Type} (f : Store → Except DbError (α × Store)) :
    NeverMissing (execute f) := by
  intro s
  refine wp_atomic.mpr ⟨fun a s' _ message h => (nomatch h), fun e he message h => ?_⟩
  cases hf : f s with
  | ok out => rw [hf] at he; cases he
  | error e' =>
      rw [hf] at he
      cases he
      cases h

omit [Runtime] [PasswordRuntime] in
theorem neverMissing_throwIf {c : Prop} [Decidable c] {e : Exn}
    (he : ∀ message, e ≠ .notFound message) : NeverMissing (Prog.throwIf c e) := by
  intro s
  refine wp_throwIf.mpr ⟨fun _ message h => ?_, fun _ message h => nomatch h⟩
  exact he message (Except.error.inj h)

omit [Runtime] [PasswordRuntime] in
theorem neverMissing_bind {α β : Type} {p : Service α} {k : α → Service β} (hp : NeverMissing p)
    (hk : ∀ a, NeverMissing (k a)) : NeverMissing (p >>= k) := by
  intro s
  refine wp_seq (hp s) (fun a s' _ => hk a s') fun e s' he message h => ?_
  exact he message (congrArg Except.error (Except.error.inj h))

omit [Runtime] [PasswordRuntime] in
theorem NeverMissing.result {α : Type} {p : Service α} (h : NeverMissing p) (s : Store)
    (message : String) : (p.run s).1 ≠ .error (.notFound message) :=
  (wp_of_run rfl).mp (h s) message

/-- An operation only reads, or begins with the user and finds everything after that. -/
theorem SelfOp.cases_begin (op : SelfOp) (n : Id) :
    op = .me ∨ op = .findMyRequests ∨ op = .myProjects ∨
      ∃ k, op.prog n = UserService.requireUser n >>= k ∧ ∀ user, NeverMissing (k user) := by
  cases op with
  | me => exact Or.inl rfl
  | findMyRequests => exact Or.inr (Or.inl rfl)
  | myProjects => exact Or.inr (Or.inr (Or.inl rfl))
  | updateMyProfile input =>
      refine Or.inr (Or.inr (Or.inr ⟨_, Prog.bind_assoc _ _ _, fun user => ?_⟩))
      refine neverMissing_bind (neverMissing_bind ?_ fun _ => neverMissing_execute _) fun _ =>
        neverMissing_pure _
      cases UserService.newEmail input user with
      | none => exact neverMissing_pure _
      | some email =>
          exact neverMissing_bind (neverMissing_query _) fun _ =>
            neverMissing_throwIf fun _ h => nomatch h
  | changeMyPassword currentPassword secret =>
      refine Or.inr (Or.inr (Or.inr ⟨_, Prog.bind_assoc _ _ _, fun user => ?_⟩))
      refine neverMissing_bind (neverMissing_bind ?_ fun _ => ?_) fun _ => neverMissing_pure _
      · exact neverMissing_throwIf fun _ h => nomatch h
      · exact neverMissing_bind (neverMissing_execute _) fun _ => neverMissing_pure _
  | createRequest dto =>
      refine Or.inr (Or.inr (Or.inr ⟨_, Prog.bind_assoc _ _ _, fun user => ?_⟩))
      refine neverMissing_bind ?_ fun _ => neverMissing_pure _
      refine neverMissing_bind (neverMissing_throwIf fun _ h => nomatch h) fun _ => ?_
      refine neverMissing_bind (neverMissing_throwIf fun _ h => nomatch h) fun _ => ?_
      refine neverMissing_bind (neverMissing_throwIf fun _ h => nomatch h) fun _ => ?_
      exact neverMissing_execute _

/-- No user has an id that is not positive: the operations find nothing, and write nothing. -/
theorem SelfOp.run_nonpositive (op : SelfOp) (hId : n ≤ 0) :
    ∃ answer, ∀ s : Store, s.Valid → (op.prog n).run s = (answer, s) := by
  have hMissing (s : Store) : s.user.find n = none := by
    refine List.find?_eq_none.mpr fun r hr => ?_
    intro hKey
    rw [← beq_iff_eq.mp hKey] at hId
    exact absurd (s.user.key_pos hr) (Int.not_lt.mpr hId)
  have hNoUser (s : Store) : ¬ s.user.has n = true := fun hHas =>
    absurd (pos_of_has hHas) (Int.not_lt.mpr hId)
  rcases op.cases_begin n with rfl | rfl | rfl | ⟨k, hProg, -⟩
  · refine ⟨.ok (.found none), fun s _ => ?_⟩
    have hRun : (SelfOp.me.prog n).run s = (.ok (.found (s.user.find n)), s) := rfl
    rw [hRun, hMissing]
  · refine ⟨.ok (.requests []), fun s hValid => ?_⟩
    have hNone : prisma.userRequest.findMany (fun r => r.userId == n) s = [] := by
      refine List.filter_eq_nil_iff.mpr fun r hr hOwn => hNoUser s ?_
      have hRef := hValid.userRequest.references r hr
      simp only [prisma.userRequest, Bool.and_eq_true] at hRef
      rw [← beq_iff_eq.mp hOwn]
      exact hRef.1
    unfold SelfOp.prog RequestService.findAllByUser
    rw [query_bind_run, hNone]
    rfl
  · refine ⟨.ok (.projects []), fun s hValid => ?_⟩
    have hRows : s.projectUser.rows.filter (fun r => r.userId == n) = [] := by
      refine List.filter_eq_nil_iff.mpr fun r hr hOwn => hNoUser s ?_
      have hRef := hValid.projectUser.references r hr
      simp only [prisma.projectUser, Bool.and_eq_true] at hRef
      rw [← beq_iff_eq.mp hOwn]
      exact hRef.1.1.1.2
    rw [myProjects_run, memberProjects, hRows]
    rfl
  · refine ⟨.error (UserService.userNotFound n), fun s _ => ?_⟩
    rw [hProg]
    exact requireUser_missing (hMissing s) k

end Users

/-! ## A user and an admin with one id -/

/-- A table of one row. -/
def sole {ρ : Type} [Row ρ] (r : ρ) (h : 0 < Row.key r) : Table ρ where
  rows := [r]
  next := Row.key r + 1
  next_pos := by omega
  nodup := List.nodup_singleton _
  bounds := by
    intro r' hr'
    rw [List.mem_singleton.mp hr']
    omega

section Collision

variable [Runtime] [PasswordRuntime] {n m : Id} (hn : 0 < n) (hm : 0 < m)

/-- Admin `n` has created user `m`, who has a request and a project. -/
def collision : Store where
  admin := sole ⟨n, "Ada", "Orr", "ada@site", "x"⟩ hn
  user := sole ⟨m, "Ben", "Fry", "ben@site", "y", some n⟩ hm
  userRequest := sole ⟨1, m, n, "lastName", some "Fry", some "Frye", "pending"⟩ Int.zero_lt_one
  project := sole ⟨1, "Bridge", none, none, "active", n⟩ Int.zero_lt_one
  projectUser := sole ⟨1, 1, m, none, none, none⟩ Int.zero_lt_one

omit [Runtime] [PasswordRuntime] in
theorem has_sole {ρ : Type} [Row ρ] (r : ρ) (h : 0 < Row.key r) :
    (sole r h).has (Row.key r) = true :=
  has_iff.mpr ⟨r, List.mem_singleton_self r, rfl⟩

omit [Runtime] [PasswordRuntime] in
theorem collision_valid : (collision hn hm).Valid where
  admin := Model.sound_of_singleton rfl rfl
  user := Model.sound_of_singleton rfl (has_sole _ hn)
  passwordResetToken := Model.sound_of_nil rfl
  refreshToken := Model.sound_of_nil rfl
  userRequest := Model.sound_of_singleton rfl (by
    simp only [prisma.userRequest, Bool.and_eq_true]
    exact ⟨has_sole _ hm, has_sole _ hn⟩)
  project := Model.sound_of_singleton rfl (has_sole _ hn)
  workOrderPdf := Model.sound_of_nil rfl
  projectField := Model.sound_of_nil rfl
  projectFieldValue := Model.sound_of_nil rfl
  department := Model.sound_of_nil rfl
  departmentRole := Model.sound_of_nil rfl
  departmentRolePolicy := Model.sound_of_nil rfl
  projectRole := Model.sound_of_nil rfl
  permission := Model.sound_of_nil rfl
  projectUser := Model.sound_of_singleton rfl (by
    simp only [prisma.projectUser, Bool.and_eq_true]
    exact ⟨⟨⟨⟨has_sole _ Int.zero_lt_one, has_sole _ hm⟩, rfl⟩, rfl⟩, rfl⟩)
  task := Model.sound_of_nil rfl
  subTask := Model.sound_of_nil rfl

omit [Runtime] [PasswordRuntime] in
/-- An admin sees no difference in its own data, whichever user there is. -/
theorem collision_same {m' : Id} (hm' : 0 < m') :
    SameAccount "admin" n (collision hn hm) (collision hn hm') where
  addresses := by simp [collision, sole]
  nextRequest := rfl
  account := rfl

/-- The operations find the user with the id of the admin, or no user. -/
theorem collision_apart (op : SelfOp) (hNext : 0 < n + 1) :
    ¬ Alike (collision hn hn) (collision hn hNext) (op.prog n) := by
  have hNe : n + 1 ≠ n := Int.ne_of_gt (Int.lt_succ n)
  have hFound : (collision hn hn).user.find n = some ⟨n, "Ben", "Fry", "ben@site", "y", some n⟩ :=
    find_eq_some.mpr ⟨List.mem_singleton_self _, rfl⟩
  have hMissing : (collision hn hNext).user.find n = none := by
    refine List.find?_eq_none.mpr fun r hr hKey => ?_
    rw [List.mem_singleton.mp hr] at hKey
    exact hNe (beq_iff_eq.mp hKey)
  intro hAlike
  rcases op.cases_begin n with rfl | rfl | rfl | ⟨k, hProg, hNever⟩
  · have hFoundSame : Except.ok (SelfAnswer.found ((collision hn hn).user.find n)) =
        (Except.ok (SelfAnswer.found ((collision hn hNext).user.find n)) : Except Exn _) := hAlike
    rw [hFound, hMissing] at hFoundSame
    cases hFoundSame
  · have hRequests (s : Store) : ((SelfOp.findMyRequests.prog n).run s).1 =
        .ok (.requests ((prisma.userRequest.findMany (fun r => r.userId == n) s).reverse.map
          fun r => (r, adminContact s r.adminId))) := rfl
    have hOwn : (prisma.userRequest.findMany (fun r => r.userId == n) (collision hn hn)) ≠ [] := by
      simp [Model.findMany, prisma.userRequest, collision, sole]
    have hNone :
        prisma.userRequest.findMany (fun r => r.userId == n) (collision hn hNext) = [] := by
      simp [Model.findMany, prisma.userRequest, collision, sole, hNe]
    rw [Alike, hRequests, hRequests, hNone] at hAlike
    have hLists := SelfAnswer.requests.inj (Except.ok.inj hAlike)
    exact hOwn (by simpa using hLists)
  · have hOwn : memberProjects (collision hn hn) n ≠ [] := by
      simp [memberProjects, collision, sole, find, Row.key]
    have hNone : memberProjects (collision hn hNext) n = [] := by
      simp [memberProjects, collision, sole, hNe]
    -- there are no tasks that could be unreadable
    have hReadable : (memberProjects (collision hn hn) n).all
        (fun view => view.readable n) = true := by
      refine List.all_eq_true.mpr fun view hView => ?_
      obtain ⟨-, -, -, project, -, rfl⟩ := mem_memberProjects.mp hView
      unfold ProjectView.readable
      split <;> rfl
    rw [Alike, myProjects_run, myProjects_run, hNone, hReadable] at hAlike
    have hLists := SelfAnswer.projects.inj (Except.ok.inj hAlike)
    exact hOwn (by simpa using hLists)
  · unfold Alike at hAlike
    rw [hProg, requireUser_found hFound, requireUser_missing hMissing] at hAlike
    exact (hNever _).result _ _ hAlike

end Collision

/-! ## Which tokens act on their own account -/

section Tokens

variable [Runtime] [PasswordRuntime]

/-- For a role other than `admin`, or an id that no user has. -/
theorem SelfOp.ownOnly_iff (op : SelfOp) (role : String) (n : Id) :
    OwnOnly role n (op.prog n) ↔ role ≠ "admin" ∨ n ≤ 0 := by
  constructor
  · intro hOwn
    by_contra hNot
    obtain ⟨hAdmin, hPos⟩ := not_or.mp hNot
    have hn : 0 < n := Int.not_le.mp hPos
    have hNext : 0 < n + 1 := Int.lt_add_one_of_le (Int.le_of_lt hn)
    obtain rfl := not_not.mp hAdmin
    exact collision_apart hn op hNext (hOwn.reads _ _ (collision_valid hn hn)
      (collision_valid hn hNext) (collision_same hn hn hNext))
  · intro hWhen
    by_cases hAdmin : role = "admin"
    · have hId := hWhen.resolve_left (not_not.mpr hAdmin)
      obtain ⟨answer, hRun⟩ := op.run_nonpositive hId
      refine ⟨fun s s' hValid hValid' _ => ?_, fun s hValid => ?_⟩
      · rw [hRun s hValid, hRun s' hValid']
      · rw [if_pos hAdmin, hRun s hValid]
        exact AdminWrites.refl n s
    · refine ⟨fun s s' hValid hValid' hSame => ?_, fun s _ => ?_⟩
      · have hUser := hSame.account
        rw [if_neg hAdmin] at hUser
        exact op.alike hValid hValid' hSame.addresses hSame.nextRequest hUser
      · rw [if_neg hAdmin]
        exact op.userWrites n s

/-- **Self-service acts on the account of the caller** if and only if the caller is not an
admin, or has an id that no user can have. -/
theorem self_service_own_account [TokenRuntime] [PassportRuntime] (op : SelfOp) {cache : Cache}
    {now : Int} {authHeader : Option String} {user : RequestUser}
    (hAccepted : op.authenticate cache now authHeader = .ok user) :
    OwnOnly user.role user.userId (op.handle cache now authHeader) ↔
      user.role ≠ "admin" ∨ user.userId ≤ 0 := by
  have hHandle : op.handle cache now authHeader = op.prog user.userId := by
    unfold SelfOp.handle
    rw [hAccepted]
  rw [hHandle]
  exact op.ownOnly_iff user.role user.userId

end Tokens

section Site

/-- Two access tokens: of the member of the small site and of its admin, who have one id. -/
abbrev siteTokens : TokenRuntime where
  verify token _ :=
    if token = "a" then some (benClaims "access")
    else if token = "b" then some ⟨1, "ada@site", "admin", "1", "access"⟩
    else none
  sign _ _ _ := ""
  sha256 token := "#" ++ token
  jwtAccessExpiry := none
  jwtRefreshExpiry := none

attribute [local instance] asciiRuntime siteTokens plainPassport saltedHashes

/-- The profile that an admin asks for is that of the user with its id. -/
theorem self_service_of_admin :
    ∃ user, SelfOp.me.authenticate [] 0 (some "Bearer b") = .ok user ∧
      (user.userId, user.role) = (1, "admin") ∧
      ¬ OwnOnly user.role user.userId (SelfOp.me.handle [] 0 (some "Bearer b")) := by
  refine ⟨⟨1, "ada@site", "admin", "1"⟩, by decide, rfl, fun hOwn => ?_⟩
  rcases (SelfOp.ownOnly_iff .me "admin" 1).mp hOwn with hRole | hId
  · exact hRole rfl
  · exact absurd hId (by decide)

theorem self_service_own_account_site :
    ∃ user, SelfOp.me.authenticate [] 0 (some "Bearer a") = .ok user ∧
      (OwnOnly user.role user.userId (SelfOp.me.handle [] 0 (some "Bearer a")) ↔
        user.role ≠ "admin" ∨ user.userId ≤ 0) := by
  refine ⟨⟨1, "ben@site", "user", "0"⟩, by decide, ?_⟩
  exact self_service_own_account .me (by decide)

end Site

end Rooeel
