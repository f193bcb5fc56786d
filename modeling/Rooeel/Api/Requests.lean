import Rooeel.User.AccountWrites
import Rooeel.Project.GuardedWrites

/-!
# Requests

The operations that write, as the resolvers (`graphql`) and the controllers (`rest`) expose them:
which guard stands in front of each, and what it takes from the caller. A `Request` is an exposed
operation with the `Authorization` header that comes with it, and `Request.handle` is what the
server does with it: the guard, and then the operation. Reads are not requests here.
-/

namespace Rooeel

open JavaScript Prog TokenRuntime

/-! ## Operations and their guards -/

inductive Operation where
  | service (op : ServiceOp)
  | account (op : AccountOp)

inductive Transport where
  | graphql
  | rest

/-- What stands in front of a handler: nothing at all, a guard behind `JwtStrategy` with its
`handleRequest`, or `ProjectPermissionGuard` with the annotation and the arguments. -/
inductive Exposure where
  | absent
  | unguarded
  | strategy (handleRequest : Except Exn (Option RequestUser) → Except Exn RequestUser)
  | permission (metadata : PermissionMetadata) (args : GuardArgs)

/-- `ProjectResolver`, with `removeUser` of `UserResolver` and `removeAdmin` of `AdminResolver`. -/
def ServiceOp.graphql (op : ServiceOp) : Exposure :=
  match op with
  | .uploadWorkOrder .. => .absent
  | .createTask .. | .updateTask .. | .removeTask .. => .strategy GqlUserGuard.handleRequest
  | op =>
    match op.guard with
    | some (metadata, args) => .permission metadata args
    | none => .strategy GqlAdminGuard.handleRequest

/-- `ProjectController`, with `remove` of `UserController`. -/
def ServiceOp.rest : ServiceOp → Exposure
  | .uploadWorkOrder .. | .deleteWorkOrder .. | .removeUser .. =>
      .strategy RestAdminGuard.handleRequest
  | _ => .absent

/-- `AdminResolver`, `UserResolver` and `AuthResolver`. -/
def AccountOp.graphql : AccountOp → Exposure
  | .createAdmin .. | .updateAdmin .. | .removeAdmin .. | .createUser .. | .updateUser ..
  | .removeUser .. | .resetUserPassword .. => .strategy GqlAdminGuard.handleRequest
  | .updateMyProfile .. | .changeMyPassword .. => .strategy GqlUserGuard.handleRequest
  | .logout .. => .strategy JwtAuthGuard.handleRequest
  | .signup .. | .login .. | .refreshTokens .. | .forgotPassword .. | .resetPassword .. =>
      .unguarded
  | _ => .absent

/-- `UserController`, `AuthController`, `RequestController` and `PasswordResetController`. -/
def AccountOp.rest : AccountOp → Exposure
  | .createUser .. | .updateUser .. | .removeUser .. | .resetUserPassword ..
  | .generatePassword .. | .approveRequest .. | .rejectRequest .. =>
      .strategy RestAdminGuard.handleRequest
  | .updateMyProfile .. | .changeMyPassword .. | .createRequest .. | .logout .. =>
      .strategy RestAuthGuard.handleRequest
  | .signup .. | .login .. | .refreshTokens .. | .sendTemporaryPassword .. | .requestReset ..
  | .redeemReset .. => .unguarded
  | _ => .absent

def Operation.exposure (op : Operation) (transport : Transport) : Exposure :=
  match op, transport with
  | .service op, .graphql => op.graphql
  | .service op, .rest => op.rest
  | .account op, .graphql => op.graphql
  | .account op, .rest => op.rest

/-- The guards behind the strategy differ in the message, and in whether they are for admins. -/
theorem Operation.exposure_strategy {op : Operation} {transport : Transport}
    {handle : Except Exn (Option RequestUser) → Except Exn RequestUser}
    (h : op.exposure transport = .strategy handle) :
    ∃ message adminOnly, handle = handleRequest message adminOnly := by
  cases op with
  | service op =>
      cases transport <;> cases op <;>
        first
        | exact ⟨_, _, (Exposure.strategy.inj h).symm⟩
        | exact nomatch h
  | account op =>
      cases transport <;> cases op <;>
        first
        | exact ⟨_, _, (Exposure.strategy.inj h).symm⟩
        | exact nomatch h

/-- Only operations on accounts are open to everybody. -/
theorem Operation.exposure_unguarded {op : Operation} {transport : Transport}
    (h : op.exposure transport = .unguarded) :
    ∃ account : AccountOp, op = .account account ∧
      (account.graphql = .unguarded ∨ account.rest = .unguarded) := by
  cases op with
  | service op => cases transport <;> cases op <;> exact nomatch h
  | account op =>
      cases transport with
      | graphql => exact ⟨op, rfl, Or.inl h⟩
      | rest => exact ⟨op, rfl, Or.inr h⟩

/-! ## What an operation takes from its caller -/

/-- The `user` object of a request, as the services take it. -/
def RequestUser.viewer (user : RequestUser) : Viewer := ⟨user.userId, some user.role⟩

def ServiceOp.calledBy (user : RequestUser) : ServiceOp → ServiceOp
  | .createProject _ input => .createProject user.userId input
  | .uploadWorkOrder projectId _ file => .uploadWorkOrder projectId user.userId file
  | .createTask projectId data _ => .createTask projectId data (some user.viewer)
  | .updateTask id data _ => .updateTask id data (some user.viewer)
  | .removeTask id _ => .removeTask id (some user.viewer)
  | op => op

/-- `replace('Bearer ', '')`: the first place is replaced. -/
def dropBearer : List Char → List Char
  | [] => []
  | c :: rest =>
    if "Bearer ".toList.isPrefixOf (c :: rest) then (c :: rest).drop 7 else c :: dropBearer rest

/-- `authorization?.replace('Bearer ', '') || ''`. -/
def accessTokenOf (authHeader : Option String) : String :=
  authHeader.elim "" fun header => String.ofList (dropBearer header.toList)

def AccountOp.calledBy (authHeader : Option String) (user : RequestUser) : AccountOp → AccountOp
  | .createUser _ input secret => .createUser user.userId input secret
  | .updateUser _ id input salt => .updateUser user.userId id input salt
  | .resetUserPassword _ id secret outcome => .resetUserPassword user.userId id secret outcome
  | .updateMyProfile _ input => .updateMyProfile user.userId input
  | .changeMyPassword _ currentPassword secret =>
      .changeMyPassword user.userId currentPassword secret
  | .logout _ _ call => .logout (accessTokenOf authHeader) user call
  | .createRequest _ dto => .createRequest user.userId dto
  | .generatePassword _ id secret => .generatePassword user.userId id secret
  | .approveRequest _ id => .approveRequest user.userId id
  | .rejectRequest _ id => .rejectRequest user.userId id
  | op => op

def Operation.calledBy (authHeader : Option String) (user : RequestUser) : Operation → Operation
  | .service op => .service (op.calledBy user)
  | .account op => .account (op.calledBy authHeader user)

/-! ## Requests -/

section Code

variable [Runtime] [PasswordRuntime] [TokenRuntime] [DecodeRuntime]
  [PassportRuntime]

def Operation.prog : Operation → Prog Server Exn Unit
  | .service op => onStore (op.prog >>= fun _ => pure ())
  | .account op => op.prog

omit [Runtime] [PasswordRuntime] [DecodeRuntime] in
/-- A guard behind `JwtStrategy`. -/
def authenticateStrategy
    (handleRequest : Except Exn (Option RequestUser) → Except Exn RequestUser)
    (authHeader : Option String) : Prog Server Exn RequestUser :=
  Prog.read fun s => handleRequest (authenticateJwt s.cache s.clock authHeader)

omit [PasswordRuntime] [DecodeRuntime] [PassportRuntime] in
/-- `ProjectPermissionGuard`: the token is verified, and the rows are read one after the other. -/
def authenticatePermission (metadata : PermissionMetadata) (args : GuardArgs)
    (authHeader : Option String) : Prog Server Exn Unit := do
  let now ← Prog.read fun s : Server => .ok s.clock
  let allowed ← onStore (canActivate (verifyRole now) authHeader (some metadata) args)
  Prog.throwIf (allowed = false) (.forbidden "Forbidden resource")

/-- An exposed operation with the header that comes with it. -/
structure Request where
  authHeader : Option String
  transport : Transport
  op : Operation

def Request.handle (r : Request) : Prog Server Exn Unit :=
  match r.op.exposure r.transport with
  | .absent => throw (.notFound "Not Found")
  | .unguarded => r.op.prog
  | .strategy handleRequest => do
    let user ← authenticateStrategy handleRequest r.authHeader
    (r.op.calledBy r.authHeader user).prog
  | .permission metadata args => do
    authenticatePermission metadata args r.authHeader
    r.op.prog

end Code

/-! ## What a request may write -/

def Operation.writes : Operation → List (Write Entity)
  | .service op => op.writes
  | .account op => op.writes

@[simp] theorem ServiceOp.calledBy_writes (user : RequestUser) (op : ServiceOp) :
    (op.calledBy user).writes = op.writes := by
  cases op <;> rfl

@[simp] theorem AccountOp.calledBy_writes (authHeader : Option String) (user : RequestUser)
    (op : AccountOp) : (op.calledBy authHeader user).writes = op.writes := by
  cases op <;> rfl

@[simp] theorem Operation.calledBy_writes (authHeader : Option String) (user : RequestUser)
    (op : Operation) : (op.calledBy authHeader user).writes = op.writes := by
  cases op with
  | service op => exact op.calledBy_writes user
  | account op => exact op.calledBy_writes authHeader user

section Writes

variable [Runtime] [PasswordRuntime] [TokenRuntime] [DecodeRuntime]

theorem Operation.confined (op : Operation) : ConfinedServer op.writes op.prog := by
  cases op with
  | service op =>
      exact confined_onStore (confined_bind op.confined fun _ => confined_pure ())
  | account op => exact op.confined

theorem Operation.confined_calledBy (op : Operation) (authHeader : Option String)
    (user : RequestUser) : ConfinedServer op.writes (op.calledBy authHeader user).prog := by
  have h := (op.calledBy authHeader user).confined
  rwa [Operation.calledBy_writes] at h

variable [PassportRuntime]

omit [PasswordRuntime] [DecodeRuntime] [PassportRuntime] in
/-- The permission guard only reads. -/
theorem confined_authenticatePermission {writes : List (Write Entity)}
    (metadata : PermissionMetadata) (args : GuardArgs) (authHeader : Option String) :
    ConfinedServer writes (authenticatePermission metadata args authHeader) := by
  have hRow {ρ : Type} [Row ρ] (m : Model Store ρ) (project : ρ → Id) (id : Id) :
      Confined writes (projectOfRow m project id) :=
    confined_bind (confined_read _) fun _ => confined_pure _
  have hResolve : Confined writes (resolveProjectId metadata args) := by
    unfold resolveProjectId
    split_ifs
    all_goals first | exact confined_pure _ | exact hRow _ _ _ | exact confined_read _
  refine guarantees_bind (guarantees_read (fun _ => .same) _) fun now => ?_
  refine guarantees_bind (confined_onStore ?_) fun _ => guarantees_throwIf _ _
  unfold canActivate
  split
  · exact confined_throw _
  · rename_i user _
    unfold canActivateUser
    split_ifs
    · exact confined_pure _
    · refine confined_bind hResolve fun projectId => ?_
      refine confined_bind (confined_throwIf _ _) fun _ => ?_
      refine confined_bind (confined_read _) fun found => ?_
      cases found with
      | none => exact confined_throw _
      | some member =>
          dsimp only
          split
          · exact confined_pure _
          · exact confined_throw _

/-- **A request writes what its operation writes.** -/
theorem Request.confined (r : Request) : ConfinedServer r.op.writes r.handle := by
  unfold Request.handle
  split
  · exact guarantees_throw _
  · exact r.op.confined
  · exact guarantees_bind (guarantees_read (fun _ => .same) _) fun user =>
      r.op.confined_calledBy r.authHeader user
  · exact guarantees_bind (confined_authenticatePermission _ _ _) fun _ => r.op.confined

end Writes

end Rooeel
