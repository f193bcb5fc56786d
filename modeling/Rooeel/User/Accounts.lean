import Rooeel.Service

/-!
# User accounts

The methods of the user service that write accounts. The password service is a parameter; a new
password comes with the random salt that it is hashed with.
-/

namespace Rooeel

open JavaScript Prog

/-- `CreateUserInput`; the password is an argument of its own, with its salt. -/
structure CreateUserInput where
  firstName : String
  lastName : String
  email : String
  deriving DecidableEq

structure UpdateUserInput where
  firstName : Arg String := .undefined
  lastName : Arg String := .undefined
  email : Arg String := .undefined
  password : Arg String := .undefined
  deriving DecidableEq

class PasswordRuntime where
  /-- `passwordService.compare`: the password, and the stored hash. -/
  compare : String → String → Bool
  /-- `passwordService.hash`: the password, and the random salt. -/
  hash : String → String → String

/-- A password, and the salt with which it is hashed. -/
structure Secret where
  password : String
  salt : String
  deriving DecidableEq

def Secret.hash [PasswordRuntime] (secret : Secret) : String :=
  PasswordRuntime.hash secret.password secret.salt

/-- The column is an output of `passwordService.hash`. -/
def IsHash [PasswordRuntime] (column : String) : Prop := ∃ secret : Secret, column = secret.hash

/-- Hashing that is readable. -/
abbrev saltedHashes : PasswordRuntime where
  compare password hash :=
    (hash.toList.reverse.takeWhile fun c => c != '$').reverse == password.toList
  hash password salt := salt ++ "$" ++ password

namespace UserService

def findOne (id : Id) : Service (Option User) := findUnique prisma.user fun r => r.id == id

def findByEmail (email : String) : Service (Option User) :=
  findUnique prisma.user fun r => r.email == email

def userNotFound (id : Id) : Exn := .notFound s!"User with ID {id} not found"

def orNotFound (id : Id) (user : Option User) : Service User :=
  match user with
  | none => throw (userNotFound id)
  | some user => pure user

/-- The user of `findOne`, or the exception of the methods that begin with it. -/
def requireUser (id : Id) : Service User := findOne id >>= orNotFound id

theorem guarantees_requireUser {rely guar : Store → Store → Prop} (hRefl : ∀ s, guar s s)
    (id : Id) : Guarantees rely guar (requireUser id) := by
  refine guarantees_bind (guarantees_read hRefl _) fun user => ?_
  cases user with
  | none => exact guarantees_throw _
  | some user => exact guarantees_pure user

def create [PasswordRuntime] (input : CreateUserInput) (secret : Secret) (adminId : Id) :
    Service User := do
  let existingUser ← findByEmail input.email
  Prog.throwIf (existingUser.isSome = true) (.conflict "User with this email already exists")
  Rooeel.create prisma.user fun id =>
    { id
      firstName := input.firstName
      lastName := input.lastName
      email := input.email
      password := secret.hash
      createdBy := some adminId }

/-- The columns of `update`. The client refuses `null` in them; an empty password is not
hashed. -/
def updateData [PasswordRuntime] (input : UpdateUserInput) (salt : String) (r : User) : User :=
  { r with
    firstName := input.firstName.assignD r.firstName
    lastName := input.lastName.assignD r.lastName
    email := input.email.assignD r.email
    password := match input.password with
      | .value password => if password = "" then password else PasswordRuntime.hash password salt
      | _ => r.password }

def update [PasswordRuntime] (id : Id) (input : UpdateUserInput) (salt : String) :
    Service User := do
  let _user ← requireUser id
  Prog.throwIf (input.firstName.isNull ∨ input.lastName.isNull ∨ input.email.isNull ∨
    input.password.isNull) (.prisma .invalid)
  Rooeel.update prisma.user (fun r => r.id == id) (updateData input salt)

/-- The address that `updateMyProfile` looks up, if it does. -/
def newEmail (input : UpdateUserInput) (user : User) : Option String :=
  match input.email with
  | .value email => if email ≠ "" ∧ email ≠ user.email then some email else none
  | _ => none

/-- No user has the address. -/
def requireFree (email : Option String) : Service Unit :=
  match email with
  | none => pure ()
  | some email => do
    let existingUser ← findByEmail email
    Prog.throwIf (existingUser.isSome = true) (.conflict "Email is already in use")

def updateMyProfile (userId : Id) (input : UpdateUserInput) : Service User := do
  let user ← requireUser userId
  requireFree (newEmail input user)
  Rooeel.update prisma.user (fun r => r.id == userId) fun r =>
    { r with
      firstName := input.firstName.toOption.getD user.firstName
      lastName := input.lastName.toOption.getD user.lastName
      email := input.email.toOption.getD user.email }

/-- The columns of `changeMyPassword`. -/
def passwordData (hashedPassword : String) (r : User) : User :=
  { r with password := hashedPassword }

theorem passwordData_key (hashedPassword : String) (r : User) :
    Row.key (passwordData hashedPassword r) = Row.key r := rfl

theorem passwordData_hash_key [PasswordRuntime] (secret : Secret) (r : User) :
    Row.key (passwordData secret.hash r) = Row.key r := passwordData_key secret.hash r

/-- The message of the method. -/
def changeMyPassword [PasswordRuntime] (userId : Id) (currentPassword : String)
    (secret : Secret) : Service String := do
  let user ← requireUser userId
  Prog.throwIf (¬ PasswordRuntime.compare currentPassword user.password)
    (.forbidden "Current password is incorrect")
  let _user ← Rooeel.update prisma.user (fun r => r.id == userId) (passwordData secret.hash)
    (passwordData_hash_key secret)
  pure "Password changed successfully"

end UserService

end Rooeel
