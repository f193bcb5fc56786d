import Rooeel.Auth.Refresh
import Rooeel.User.Accounts

/-!
# Signing up and logging in

The methods that start a session. Each looks an account up, or creates one, and issues tokens
for it. The hash of a new password is an argument, because it depends on a random salt.
-/

namespace Rooeel

open JavaScript Prog

/-- `SignupInput`; the password is an argument of its own, with its salt. -/
structure SignupInput where
  firstName : String
  lastName : String
  email : String
  deriving DecidableEq

structure LoginInput where
  email : String
  password : String
  role : Option String := none
  deriving DecidableEq

namespace AdminService

def findByEmail (email : String) : Service (Option Admin) :=
  findUnique prisma.admin fun r => r.email == email

/-- The row of a new admin. -/
def createData [PasswordRuntime] (input : SignupInput) (secret : Secret) (id : Id) : Admin where
  id := id
  firstName := input.firstName
  lastName := input.lastName
  email := input.email
  password := secret.hash

def create [PasswordRuntime] (input : SignupInput) (secret : Secret) : Service Admin :=
  Rooeel.create prisma.admin (createData input secret)

end AdminService

namespace AuthService

/-- An account without its password. An admin has no `createdBy`. -/
structure ValidatedAccount where
  id : Id
  firstName : String
  lastName : String
  email : String
  createdBy : Option Id := none

structure SignupResult where
  accessToken : String
  refreshToken : String
  expiresIn : Int
  admin : ValidatedAccount

structure LoginResult where
  accessToken : String
  refreshToken : String
  expiresIn : Int
  user : ValidatedAccount
  role : String

structure LoginUserResult where
  accessToken : String
  refreshToken : String
  expiresIn : Int

/-- `loginInput.role || 'user'`. -/
def loginRole (input : LoginInput) : String := orDefault input.role "user"

/-- The account, or the exception of the methods that log in. -/
def orInvalid (user : Option ValidatedAccount) : Service ValidatedAccount :=
  match user with
  | none => throw (.unauthorized "Invalid credentials")
  | some user => pure user

section Code

variable [TokenRuntime] [PasswordRuntime]

def signup (input : SignupInput) (secret : Secret) (call : RefreshCall) :
    Service SignupResult := do
  let existingAdmin ← AdminService.findByEmail input.email
  Prog.throwIf (existingAdmin.isSome = true) (.conflict "Admin with this email already exists")
  let admin ← AdminService.create input secret
  let tokens ← generateTokens call { id := admin.id, email := admin.email, role := "admin" }
  pure
    { accessToken := tokens.accessToken
      refreshToken := tokens.refreshToken
      expiresIn := tokens.expiresIn
      admin :=
        { id := admin.id
          firstName := admin.firstName
          lastName := admin.lastName
          email := admin.email } }

omit [TokenRuntime] in
def validateAdmin (email pass : String) : Service (Option ValidatedAccount) := do
  let admin ← AdminService.findByEmail email
  pure <| (admin.filter fun r => PasswordRuntime.compare pass r.password).map fun r =>
    { id := r.id, firstName := r.firstName, lastName := r.lastName, email := r.email }

omit [TokenRuntime] in
def validateUser (email pass : String) : Service (Option ValidatedAccount) := do
  let user ← UserService.findByEmail email
  pure <| (user.filter fun r => PasswordRuntime.compare pass r.password).map fun r =>
    { id := r.id
      firstName := r.firstName
      lastName := r.lastName
      email := r.email
      createdBy := r.createdBy }

omit [TokenRuntime] in
/-- The account with the role that a login asks for. -/
def validate (role email pass : String) : Service (Option ValidatedAccount) :=
  if role = "admin" then validateAdmin email pass
  else if role = "user" then validateUser email pass
  else pure none

def login (input : LoginInput) (call : RefreshCall) : Service LoginResult := do
  let role := loginRole input
  let found ← validate role input.email input.password
  let user ← orInvalid found
  let tokens ← generateTokens call { id := user.id, email := user.email, role }
  pure
    { accessToken := tokens.accessToken
      refreshToken := tokens.refreshToken
      expiresIn := tokens.expiresIn
      user
      role }

def loginUser (input : LoginInput) (call : RefreshCall) : Service LoginUserResult := do
  let found ← validateUser input.email input.password
  let user ← orInvalid found
  let tokens ← generateTokens call { id := user.id, email := user.email, role := "user" }
  pure
    { accessToken := tokens.accessToken
      refreshToken := tokens.refreshToken
      expiresIn := tokens.expiresIn }

end Code

end AuthService

end Rooeel
