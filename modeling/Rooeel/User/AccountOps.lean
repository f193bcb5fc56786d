import Rooeel.Auth.Sessions
import Rooeel.Auth.ResetBinding
import Rooeel.User.SelfService

/-!
# The operations on accounts

`AccountOp` is any method of the services for admins, users, authentication, requests and
password resets that writes, with its arguments, and `AccountOp.Validated` says that the
validators accept its input. An `AccountTransition` is one operation that runs alone, or anything
else that leaves accounts and requests as they are.

The validation of addresses is a parameter.
-/

namespace Rooeel

open JavaScript Prog Table

/-! ## Inputs -/

class AccountRuntime where
  /-- The validator behind `@IsEmail()`. -/
  isEmail : String → Bool

/-- The fields of `CreateAdminInput` and `SignupInput` are the same, and so are those of
`UpdateAdminInput` and `UpdateUserInput`. -/
abbrev UpdateAdminInput := UpdateUserInput

/-- `@IsOptional()`: a value that is left out or `null` is not checked further. -/
def Arg.Optional {α : Type} (P : α → Prop) : Arg α → Prop
  | .value a => P a
  | _ => True

section Inputs

variable [AccountRuntime]

open AccountRuntime

/-- The validators of `CreateUserInput`, `CreateAdminInput` and `SignupInput`. -/
structure ValidAccount (firstName lastName email password : String) : Prop where
  firstName : firstName ≠ ""
  lastName : lastName ≠ ""
  email : isEmail email = true
  password : 8 ≤ password.length

/-- The validators of `UpdateUserInput` and `UpdateAdminInput`. -/
structure UpdateUserInput.Validated (input : UpdateUserInput) : Prop where
  firstName : input.firstName.Optional fun s => s ≠ ""
  lastName : input.lastName.Optional fun s => s ≠ ""
  email : input.email.Optional fun s => isEmail s = true
  password : input.password.Optional fun s => 8 ≤ s.length

end Inputs

/-- The values of `@IsIn` in `CreateRequestDto`. -/
def requestTypes : List String := ["firstName", "lastName", "email", "password", "password_reset"]

/-- The validators of `CreateRequestDto`. -/
structure CreateRequestDto.Validated (dto : CreateRequestDto) : Prop where
  requestType : dto.requestType ∈ requestTypes
  requestedValue : ∀ s, dto.requestedValue = some s → 1 ≤ s.length
  currentPassword : ∀ s, dto.currentPassword = some s → 6 ≤ s.length

/-! ## The remaining methods -/

namespace AdminService

def findOne (id : Id) : Service (Option Admin) := findUnique prisma.admin fun r => r.id == id

/-- The columns of `update`. -/
def updateData [PasswordRuntime] (input : UpdateAdminInput) (salt : String) (r : Admin) : Admin :=
  { r with
    firstName := input.firstName.assignD r.firstName
    lastName := input.lastName.assignD r.lastName
    email := input.email.assignD r.email
    password := input.password.toOption.elim r.password fun password =>
      if password = "" then password else PasswordRuntime.hash password salt }

def update [PasswordRuntime] (id : Id) (input : UpdateAdminInput) (salt : String) :
    Service Admin := do
  let admin ← findOne id
  Prog.throwIf (admin.isNone = true) (.notFound s!"Admin with ID {id} not found")
  Prog.throwIf (input.firstName.isNull ∨ input.lastName.isNull ∨ input.email.isNull ∨
    input.password.isNull) (.prisma .invalid)
  Rooeel.update prisma.admin (fun r => r.id == id) (updateData input salt)

end AdminService

def UserService.resetPassword [PasswordRuntime] (id adminId : Id) (secret : Secret)
    (outcome : ProviderOutcome) : Service User := do
  let user ← requireUser id
  Prog.throwIf (user.createdBy ≠ some adminId)
    (.forbidden "You can only reset passwords for users you created")
  let _user ← Rooeel.update prisma.user (fun r => r.id == id) (passwordData secret.hash)
    (passwordData_hash_key secret)
  EmailService.sendPasswordResetEmail outcome
  pure user

/-- The temporary password is sent to the user, and its hash is stored. -/
def RequestService.forgotPassword [PasswordRuntime] (email : String) (secret : Secret)
    (outcome : ProviderOutcome) : Service String := do
  let message := "If an account exists with this email, a temporary password has been sent."
  match ← UserService.findByEmail email with
  | none => pure message
  | some user => do
    let _user ← updateUser user.id (UserService.passwordData secret.hash)
      (UserService.passwordData_hash_key secret)
    EmailService.sendPasswordResetEmail outcome
    pure message

/-! ## Operations as data -/

/-- A method with its arguments. The admin who updates a user is not an argument of the method. -/
inductive AccountOp where
  | createAdmin (input : SignupInput) (secret : Secret)
  | updateAdmin (id : Id) (input : UpdateAdminInput) (salt : String)
  | removeAdmin (id : Id)
  | createUser (adminId : Id) (input : CreateUserInput) (secret : Secret)
  | updateUser (adminId id : Id) (input : UpdateUserInput) (salt : String)
  | removeUser (id : Id)
  | resetUserPassword (adminId id : Id) (secret : Secret) (outcome : ProviderOutcome)
  | updateMyProfile (userId : Id) (input : UpdateUserInput)
  | changeMyPassword (userId : Id) (currentPassword : String) (secret : Secret)
  | signup (input : SignupInput) (secret : Secret) (call : AuthService.RefreshCall)
  | login (input : LoginInput) (call : AuthService.RefreshCall)
  | loginUser (input : LoginInput) (call : AuthService.RefreshCall)
  | refreshTokens (refreshToken : String) (call : AuthService.RefreshCall)
  | logout (accessToken : String) (user : RequestUser) (call : LogoutCall)
  | forgotPassword (email : String) (call : IssueCall)
  | resetPassword (token : String) (secret : Secret) (checkedAt usedAt : Int)
  | requestReset (email : String) (call : IssueCall)
  | redeemReset (token : String) (secret : Secret) (checkedAt usedAt : Int)
  | createRequest (userId : Id) (dto : CreateRequestDto)
  | sendTemporaryPassword (email : String) (secret : Secret) (outcome : ProviderOutcome)
  | generatePassword (adminId id : Id) (secret : Secret)
  | approveRequest (adminId id : Id)
  | rejectRequest (adminId id : Id)

/-- A method of the services, as an operation of the server. -/
def operation {α : Type} (p : Service α) : Prog Server Exn Unit :=
  onStore (p >>= fun _ => pure ())

section Code

variable [PasswordRuntime] [TokenRuntime] [DecodeRuntime]

def AccountOp.prog : AccountOp → Prog Server Exn Unit
  | .createAdmin input secret => operation (AdminService.create input secret)
  | .updateAdmin id input salt => operation (AdminService.update id input salt)
  | .removeAdmin id => operation (Rooeel.removeAdmin id)
  | .createUser adminId input secret => operation (UserService.create input secret adminId)
  | .updateUser _ id input salt => operation (UserService.update id input salt)
  | .removeUser id => operation (Rooeel.removeUser id)
  | .resetUserPassword adminId id secret outcome =>
      operation (UserService.resetPassword id adminId secret outcome)
  | .updateMyProfile userId input => operation (UserService.updateMyProfile userId input)
  | .changeMyPassword userId currentPassword secret =>
      operation (UserService.changeMyPassword userId currentPassword secret)
  | .signup input secret call => operation (AuthService.signup input secret call)
  | .login input call => operation (AuthService.login input call)
  | .loginUser input call => operation (AuthService.loginUser input call)
  | .refreshTokens refreshToken call => operation (AuthService.refreshTokens refreshToken call)
  | .logout accessToken user call => Rooeel.logout accessToken user call >>= fun _ => pure ()
  | .forgotPassword email call => operation (AuthService.forgotPassword email call)
  | .resetPassword token secret checkedAt usedAt =>
      operation (AuthService.resetPassword token ⟨secret, checkedAt, usedAt⟩)
  | .requestReset email call => operation (PasswordResetService.requestReset email call)
  | .redeemReset token secret checkedAt usedAt =>
      operation (PasswordResetService.resetPassword token ⟨secret, checkedAt, usedAt⟩)
  | .createRequest userId dto => operation (RequestService.createRequest userId dto)
  | .sendTemporaryPassword email secret outcome =>
      operation (RequestService.forgotPassword email secret outcome)
  | .generatePassword adminId id secret =>
      operation (RequestService.generatePassword id adminId secret)
  | .approveRequest adminId id => operation (RequestService.approveRequest id adminId)
  | .rejectRequest adminId id => operation (RequestService.rejectRequest id adminId)

omit [PasswordRuntime] [TokenRuntime] [DecodeRuntime] in
/-- The validators accept the inputs. -/
def AccountOp.Validated [AccountRuntime] : AccountOp → Prop
  | .createAdmin input secret | .signup input secret _ =>
      ValidAccount input.firstName input.lastName input.email secret.password
  | .createUser _ input secret =>
      ValidAccount input.firstName input.lastName input.email secret.password
  | .updateAdmin _ input _ | .updateUser _ _ input _ | .updateMyProfile _ input =>
      input.Validated
  | .createRequest _ dto => dto.Validated
  | _ => True

end Code

/-! ## Runs -/

/-- The accounts and the requests are as before. -/
structure SameAccounts (s s' : Store) : Prop where
  admin : s'.admin = s.admin
  user : s'.user = s.user
  userRequest : s'.userRequest = s.userRequest

theorem SameAccounts.refl (s : Store) : SameAccounts s s := ⟨rfl, rfl, rfl⟩

/-- One operation that is allowed in the store at hand, or a step of another part of the
program. -/
inductive AccountTransition [PasswordRuntime] [TokenRuntime] [DecodeRuntime]
    (allowed : Store → AccountOp → Prop) (s : Server) : Server → Prop
  | call (op : AccountOp) (hAllowed : allowed s.store op) :
      AccountTransition allowed s (op.prog.run s).2
  | other {s' : Server} (hSame : SameAccounts s.store s'.store) : AccountTransition allowed s s'

end Rooeel
