import Rooeel.User.AccountEffects

/-!
# Invariants of the accounts

Three laws about the columns of the accounts, for runs of all operations.

* Every password is stored as a hash. Two methods copy a whole input and hash its password only
  when it is not empty, which the validators see to; `approveRequest` writes a column that a
  stored row names, but never that of the password.
* An admin changes the passwords of its own users only, as long as `updateUser` does not carry a
  password for a user of another admin. The password requests of a user go to the admin who
  created the user (`RequestsOwned`).
* The address of every user satisfies `IsEmail`, as long as no request for another address is
  approved that does not: `createRequest` does not validate it.
-/

namespace Rooeel

open JavaScript Prog Table AccountRuntime

section Laws

variable [AccountRuntime] [PasswordRuntime]

/-! ## Passwords -/

/-- Every password column is an output of `passwordService.hash`. -/
structure PasswordsHashed (s : Store) : Prop where
  admin : ∀ r ∈ s.admin.rows, IsHash r.password
  user : ∀ r ∈ s.user.rows, IsHash r.password

omit [AccountRuntime] in
theorem isHash_hash (secret : Secret) : IsHash secret.hash := ⟨secret, rfl⟩

omit [AccountRuntime] in
theorem UserService.updateData_password (input : UpdateUserInput) (salt : String) (r : User) :
    (UserService.updateData input salt r).password =
      input.password.toOption.elim r.password fun password =>
        if password = "" then password else PasswordRuntime.hash password salt := by
  unfold UserService.updateData
  cases input.password <;> rfl

/-- A validated input changes the password to a hash, or leaves it as it is. -/
theorem isHash_update {input : UpdateUserInput} (hInput : input.Validated) (salt : String)
    {old : String} (h : IsHash old) :
    IsHash (input.password.toOption.elim old fun password =>
      if password = "" then password else PasswordRuntime.hash password salt) := by
  have hLength := hInput.password
  cases hArg : input.password with
  | value password =>
      rw [hArg] at hLength
      have hNonempty : password ≠ "" := by
        rintro rfl
        exact absurd (show 8 ≤ "".length from hLength) (by decide)
      simp only [Arg.toOption, Option.elim_some]
      rw [if_neg hNonempty]
      exact isHash_hash ⟨password, salt⟩
  | undefined => exact h
  | null => exact h

omit [AccountRuntime] [PasswordRuntime] in
/-- An approved request leaves the password alone. -/
theorem RequestService.Applies.password {request : UserRequest} {r r' : User}
    (h : RequestService.Applies request r r') : r'.password = r.password := by
  cases h <;> rfl

theorem AccountOp.isHash_admin {op : AccountOp} (hOp : op.Validated) {r r' : Admin}
    (hWrites : op.WritesAdmin r r') (h : IsHash r.password) : IsHash r'.password := by
  cases op with
  | updateAdmin id input salt =>
      obtain ⟨-, rfl⟩ := hWrites
      exact isHash_update hOp salt h
  | _ => exact hWrites.elim

theorem AccountOp.isHash_user {op : AccountOp} (hOp : op.Validated) {s : Store} {r r' : User}
    (hWrites : op.WritesUser s r r') (h : IsHash r.password) : IsHash r'.password := by
  cases op with
  | removeAdmin id =>
      obtain ⟨-, rfl⟩ := hWrites
      exact h
  | updateUser adminId id input salt =>
      obtain ⟨-, rfl⟩ := hWrites
      rw [UserService.updateData_password]
      exact isHash_update hOp salt h
  | resetUserPassword adminId id secret outcome =>
      obtain ⟨-, -, rfl⟩ := hWrites
      exact isHash_hash secret
  | updateMyProfile userId input =>
      obtain ⟨-, rfl⟩ := hWrites
      exact h
  | changeMyPassword userId currentPassword secret =>
      obtain ⟨-, rfl⟩ := hWrites
      exact isHash_hash secret
  | resetPassword token secret checkedAt usedAt | redeemReset token secret checkedAt usedAt
  | sendTemporaryPassword token secret outcome =>
      obtain rfl := hWrites
      exact isHash_hash secret
  | generatePassword adminId id secret =>
      obtain ⟨-, rfl⟩ := hWrites
      exact isHash_hash secret
  | approveRequest adminId id =>
      obtain ⟨request, -, hApplies⟩ := hWrites
      rw [hApplies.password]
      exact h
  | _ => exact hWrites.elim

theorem PasswordsHashed.effect {op : AccountOp} {s s' : Store} (hOp : op.Validated)
    (hEffect : AccountEffect op s s') (h : PasswordsHashed s) : PasswordsHashed s' where
  admin := by
    intro r' hr'
    rcases hEffect.admin r' hr' with ⟨r, hr, rfl | hWrites⟩ | hCreates
    · exact h.admin r' hr
    · exact op.isHash_admin hOp hWrites (h.admin r hr)
    · cases op with
      | createAdmin input secret | signup input secret call =>
          obtain ⟨id, rfl⟩ := hCreates
          exact isHash_hash secret
      | _ => exact hCreates.elim
  user := by
    intro r' hr'
    rcases hEffect.user r' hr' with ⟨r, hr, -, rfl | hWrites⟩ | ⟨-, hCreates⟩
    · exact h.user r' hr
    · exact op.isHash_user hOp hWrites (h.user r hr)
    · cases op with
      | createUser adminId input secret =>
          obtain ⟨id, rfl⟩ := hCreates
          exact isHash_hash secret
      | _ => exact hCreates.elim

/-- The users and their passwords are as before. -/
def KeepsPasswords (s s' : Store) : Prop := Redemption.passwords s' = Redemption.passwords s

omit [AccountRuntime] [PasswordRuntime] in
theorem keepsPasswords_refl (s : Store) : KeepsPasswords s s := rfl

omit [AccountRuntime] [PasswordRuntime] in
/-- No statement of `approveRequest` writes a password, whatever happens in between. -/
theorem approveRequest_keeps_passwords (id adminId : Id) :
    Guarantees (fun _ _ => True) KeepsPasswords (RequestService.approveRequest id adminId) := by
  have hUpdate (userId : Id) (f : User → User) (hf : ∀ r, Row.key (f r) = Row.key r)
      (hPassword : ∀ r, (f r).password = r.password) :
      Guarantees (fun _ _ => True) KeepsPasswords (RequestService.updateUser userId f hf) := by
    refine guarantees_atomic keepsPasswords_refl fun s _ s' hOk => ?_
    obtain ⟨r, -, -, -, -, -, rfl⟩ := Model.update_ok (execute_ok hOk)
    change ((s.user.modify _ f hf).rows.map fun u => (u.id, u.password)) = _
    rw [rows_modify, List.map_map]
    refine List.map_congr_left fun u _ => ?_
    simp only [Function.comp]
    split
    · rw [hPassword]
      exact congrArg (fun k => (k, u.password)) (hf u)
    · rfl
  refine guarantees_bind (guarantees_read keepsPasswords_refl _) fun found => ?_
  refine guarantees_bind (RequestService.guarantees_requirePending _ _ _ _) fun request => ?_
  rw [throwIf_bind]
  split
  · exact guarantees_throw _
  · rename_i hType
    have hStatus : Guarantees (fun _ _ => True) KeepsPasswords
        (RequestService.setStatus id "approved") := by
      refine guarantees_atomic keepsPasswords_refl fun s _ s' hOk => ?_
      obtain ⟨-, -, -, -, -, -, rfl⟩ := Model.update_ok (execute_ok hOk)
      rfl
    refine guarantees_bind ?_ fun _ => hStatus
    rcases RequestService.updateRequestedColumn_cases request with
      ⟨-, e, hThrow⟩ | ⟨f, hf, hChange, hColumn⟩
    · rw [hThrow]
      exact guarantees_throw _
    · rw [hColumn]
      exact hUpdate _ f hf fun r =>
        (AccountOp.applies_requestedChange hType hChange r).password

section Passwords

variable [TokenRuntime] [DecodeRuntime]

/-- **Passwords are stored as hashes only**, in every state that the operations reach with
validated inputs; and approving a request writes no password, whatever its row contains. -/
theorem passwords_stored_as_hashes {start s : Server} (hStart : PasswordsHashed start.store)
    (hRun : Relation.ReflTransGen (AccountTransition fun _ op => op.Validated) start s) :
    PasswordsHashed s.store ∧ ∀ id adminId, Guarantees (fun _ _ => True) KeepsPasswords
      (RequestService.approveRequest id adminId) := by
  refine ⟨?_, approveRequest_keeps_passwords⟩
  refine AccountTransition.invariant ?_ (fun op _ _ hOp hEffect h => h.effect hOp hEffect) hStart
    hRun
  intro s s' hSame h
  exact ⟨hSame.admin ▸ h.admin, hSame.user ▸ h.user⟩

end Passwords

/-! ## Owners -/

/-- The requests are of the types that the validator accepts, and each goes to the admin who
created the user. No user is going to get the id of a request that is there. -/
structure RequestsOwned (s : Store) : Prop where
  type : ∀ q ∈ s.userRequest.rows, q.requestType ∈ requestTypes
  known : ∀ q ∈ s.userRequest.rows, q.userId < s.user.next
  owner : ∀ q ∈ s.userRequest.rows, ∀ u ∈ s.user.rows, u.id = q.userId →
    u.createdBy = some q.adminId

/-- The admin who performs the operation. -/
def AccountOp.admin : AccountOp → Option Id
  | .createUser adminId _ _ | .updateUser adminId _ _ _ | .resetUserPassword adminId _ _ _
  | .generatePassword adminId _ _ | .approveRequest adminId _ | .rejectRequest adminId _ =>
      some adminId
  | _ => none

/-- An update of a user carries no password, or the admin has created the user. -/
def AccountOp.RespectsOwner (s : Store) : AccountOp → Prop
  | .updateUser adminId id input _ => input.password.toOption = none ∨
      ∀ u ∈ s.user.rows, u.id = id → u.createdBy = some adminId
  | _ => True

/-- Whoever changes a password is the creator of the user, if it is an admin. -/
def ByOwner (op : AccountOp) (s s' : Store) : Prop :=
  ∀ u ∈ s.user.rows, ∀ u' ∈ s'.user.rows, u'.id = u.id → u'.password ≠ u.password →
    ∀ a, op.admin = some a → u.createdBy = some a

omit [AccountRuntime] in
/-- The owner of a user with a request stays, unless the owner is removed, and then the request
is removed too. -/
theorem AccountOp.createdBy_kept {op : AccountOp} {s : Store} {q : UserRequest} {u u' : User}
    (hOwned : RequestsOwned s) (hKeeps : op.KeepsRequest s q) (hu : u.createdBy = some q.adminId)
    (hWrites : op.WritesUser s u u') :
    u'.createdBy = some q.adminId := by
  cases op with
  | removeAdmin id =>
      obtain ⟨hHas, rfl⟩ := hWrites
      have hOther : q.adminId ≠ id := hKeeps hHas
      simp [hu, Option.filter, hOther]
  | updateUser adminId id input salt =>
      obtain ⟨-, rfl⟩ := hWrites
      exact hu
  | resetUserPassword adminId id secret outcome =>
      obtain ⟨-, -, rfl⟩ := hWrites
      exact hu
  | updateMyProfile userId input =>
      obtain ⟨-, rfl⟩ := hWrites
      exact hu
  | changeMyPassword userId currentPassword secret =>
      obtain ⟨-, rfl⟩ := hWrites
      exact hu
  | resetPassword token secret checkedAt usedAt | redeemReset token secret checkedAt usedAt
  | sendTemporaryPassword token secret outcome =>
      obtain rfl := hWrites
      exact hu
  | generatePassword adminId id secret =>
      obtain ⟨-, rfl⟩ := hWrites
      exact hu
  | approveRequest adminId id =>
      obtain ⟨request, hRequest, hApplies⟩ := hWrites
      cases hApplies with
      | createdBy hType =>
          have hListed := hOwned.type request hRequest.mem
          rw [hType] at hListed
          exact absurd hListed (by decide)
      | firstName | lastName | email => exact hu
  | _ => exact hWrites.elim

theorem RequestsOwned.effect {op : AccountOp} {s s' : Store} (hOp : op.Validated)
    (hEffect : AccountEffect op s s') (h : RequestsOwned s) : RequestsOwned s' := by
  have hOld {q' : UserRequest} (hq' : q' ∈ s'.userRequest.rows) :
      (∃ q ∈ s.userRequest.rows, q' = { q with status := q'.status } ∧ op.KeepsRequest s q) ∨
        op.CreatesRequest s q' := hEffect.request q' hq'
  refine ⟨fun q' hq' => ?_, fun q' hq' => ?_, fun q' hq' u' hu' hUser => ?_⟩
  · rcases hOld hq' with ⟨q, hq, hSame, -⟩ | hCreates
    · rw [hSame]
      exact h.type q hq
    · cases op with
      | createRequest userId dto =>
          obtain ⟨-, hType, -⟩ := hCreates
          rw [hType]
          exact hOp.requestType
      | _ => exact hCreates.elim
  · rcases hOld hq' with ⟨q, hq, hSame, -⟩ | hCreates
    · rw [hSame]
      exact Int.lt_of_lt_of_le (h.known q hq) hEffect.next
    · cases op with
      | createRequest userId dto =>
          obtain ⟨hUser, -, u, hu, hId, -⟩ := hCreates
          rw [hUser, ← hId]
          exact Int.lt_of_lt_of_le (s.user.key_lt hu) hEffect.next
      | _ => exact hCreates.elim
  · rcases hOld hq' with ⟨q, hq, hSame, hKeeps⟩ | hCreates
    · rw [hSame] at hUser ⊢
      rcases hEffect.user u' hu' with ⟨u, hu, hId, hWrites⟩ | ⟨hNew, -⟩
      · have hOwner := h.owner q hq u hu (hId.symm.trans hUser)
        rcases hWrites with rfl | hWrites
        · exact hOwner
        · have hKept : u'.createdBy = some q.adminId := op.createdBy_kept h hKeeps hOwner hWrites
          exact hKept
      · have hKnown := h.known q hq
        exact absurd hKnown (Int.not_lt.mpr (hUser ▸ hNew))
    · cases op with
      | createRequest userId dto =>
          obtain ⟨hSame, -, u, hu, hId, hOwner⟩ := hCreates
          rcases hEffect.user u' hu' with ⟨u₀, hu₀, -, rfl | hWrites⟩ | ⟨-, hNew⟩
          · have hKey : u'.id = u.id := hUser.trans (hSame.trans hId.symm)
            rw [s.user.key_inj hu₀ hu hKey]
            exact hOwner
          · exact hWrites.elim
          · exact hNew.elim
      | _ => exact hCreates.elim

omit [AccountRuntime] in
/-- One operation. -/
theorem RequestsOwned.byOwner {op : AccountOp} {s s' : Store} (h : RequestsOwned s)
    (hRespects : op.RespectsOwner s) (hEffect : AccountEffect op s s') : ByOwner op s s' := by
  intro u hu u' hu' hId hChanged a hAdmin
  rcases hEffect.user u' hu' with ⟨r, hr, hSame, hWrites⟩ | ⟨hNew, -⟩
  · obtain rfl : r = u := s.user.key_inj hr hu (hSame.symm.trans hId)
    rcases hWrites with rfl | hWrites
    · exact absurd rfl hChanged
    · cases op with
      | updateUser adminId id input salt =>
          obtain ⟨hKey, rfl⟩ := hWrites
          rcases hRespects with hNone | hOwn
          · rw [UserService.updateData_password, hNone] at hChanged
            exact absurd rfl hChanged
          · obtain rfl := Option.some.inj hAdmin
            exact hOwn r hr hKey
      | resetUserPassword adminId id secret outcome =>
          obtain rfl := Option.some.inj hAdmin
          exact hWrites.2.1
      | generatePassword adminId id secret =>
          obtain ⟨⟨request, hRequest⟩, -⟩ := hWrites
          obtain rfl := Option.some.inj hAdmin
          rw [← hRequest.adminId]
          exact h.owner request hRequest.mem r hr hRequest.userId.symm
      | approveRequest adminId id =>
          obtain ⟨request, -, hApplies⟩ := hWrites
          exact absurd hApplies.password hChanged
      | createUser | rejectRequest => exact hWrites.elim
      | _ => cases hAdmin
  · have hOld := s.user.key_lt hu
    have hNext : s.user.next ≤ u.id := hId ▸ hNew
    exact absurd hOld (Int.not_lt.mpr hNext)

section Owners

variable [TokenRuntime] [DecodeRuntime]

/-- **Only the owner changes the password of a user**, in every reachable state and by every
operation that is not an update of a user of another admin with a password. -/
theorem password_changed_by_owner {start s : Server} (hStart : RequestsOwned start.store)
    (hRun : Relation.ReflTransGen (AccountTransition fun _ op => op.Validated) start s)
    {op : AccountOp} (hRespects : op.RespectsOwner s.store) :
    ByOwner op s.store (op.prog.run s).2.store := by
  have hOwned : RequestsOwned s.store := by
    refine AccountTransition.invariant ?_ (fun op _ _ hOp hEffect h => h.effect hOp hEffect)
      hStart hRun
    intro s s' hSame h
    refine ⟨?_, ?_, ?_⟩
    · rw [hSame.userRequest]
      exact h.type
    · rw [hSame.userRequest, hSame.user]
      exact h.known
    · rw [hSame.userRequest, hSame.user]
      exact h.owner
  exact hOwned.byOwner hRespects (op.effect s)

end Owners

/-! ## Addresses -/

/-- The address of every user satisfies `IsEmail`. -/
def EmailsValid (s : Store) : Prop := ∀ u ∈ s.user.rows, isEmail u.email = true

/-- A request for another address that is approved asks for one that satisfies `IsEmail`. -/
def AccountOp.ApprovesEmail (s : Store) : AccountOp → Prop
  | .approveRequest adminId id => ∀ request userId value, Addressed s id adminId userId request →
      request.requestType = "email" → request.requestedValue = some value → isEmail value = true
  | _ => True

/-- An address that is written satisfies `IsEmail`. -/
theorem AccountOp.isEmail_user {op : AccountOp} (hOp : op.Validated) {s : Store} {u u' : User}
    (hApproves : op.ApprovesEmail s) (hWrites : op.WritesUser s u u')
    (hEmail : isEmail u.email = true) : isEmail u'.email = true := by
  cases op with
  | removeAdmin id =>
      obtain ⟨-, rfl⟩ := hWrites
      exact hEmail
  | updateUser adminId id input salt =>
      obtain ⟨-, rfl⟩ := hWrites
      have hInput := hOp.email
      unfold UserService.updateData
      cases hArg : input.email with
      | value email =>
          rw [hArg] at hInput
          exact hInput
      | undefined | null => exact hEmail
  | updateMyProfile userId input =>
      obtain ⟨-, rfl⟩ := hWrites
      have hInput := hOp.email
      cases hArg : input.email with
      | value email =>
          rw [hArg] at hInput
          exact hInput
      | undefined | null => exact hEmail
  | resetUserPassword adminId id secret outcome =>
      obtain ⟨-, -, rfl⟩ := hWrites
      exact hEmail
  | changeMyPassword userId currentPassword secret =>
      obtain ⟨-, rfl⟩ := hWrites
      exact hEmail
  | resetPassword token secret checkedAt usedAt | redeemReset token secret checkedAt usedAt
  | sendTemporaryPassword token secret outcome =>
      obtain rfl := hWrites
      exact hEmail
  | generatePassword adminId id secret =>
      obtain ⟨-, rfl⟩ := hWrites
      exact hEmail
  | approveRequest adminId id =>
      obtain ⟨request, hRequest, hApplies⟩ := hWrites
      cases hApplies with
      | email hType hValue => exact hApproves request _ _ hRequest hType hValue
      | firstName | lastName | createdBy => exact hEmail
  | _ => exact hWrites.elim

theorem EmailsValid.effect {op : AccountOp} {s s' : Store} (hOp : op.Validated)
    (hApproves : op.ApprovesEmail s) (hEffect : AccountEffect op s s') (h : EmailsValid s) :
    EmailsValid s' := by
  intro u' hu'
  rcases hEffect.user u' hu' with ⟨u, hu, -, rfl | hWrites⟩ | ⟨-, hCreates⟩
  · exact h u' hu
  · exact AccountOp.isEmail_user hOp hApproves hWrites (h u hu)
  · cases op with
    | createUser adminId input secret =>
        obtain ⟨id, rfl⟩ := hCreates
        exact hOp.email
    | _ => exact hCreates.elim

section Addresses

variable [TokenRuntime] [DecodeRuntime]

/-- **Every user can log in with the address it has**, in every run whose approved requests for
another address ask for one that satisfies `IsEmail`. -/
theorem emails_valid {start s : Server} (hStart : EmailsValid start.store)
    (hRun : Relation.ReflTransGen
      (AccountTransition fun store op => op.Validated ∧ op.ApprovesEmail store) start s) :
    EmailsValid s.store := by
  refine AccountTransition.invariant ?_ (fun op _ _ hOp hEffect h => h.effect hOp.1 hOp.2 hEffect)
    hStart hRun
  intro s s' hSame h
  rw [EmailsValid, hSame.user]
  exact h

end Addresses

end Laws

/-! ## A small run -/

section Site

abbrev plainAddresses : AccountRuntime where
  isEmail s := s.toList.contains '@'

attribute [local instance] plainAddresses saltedHashes AuthService.plainTokens benDecode

/-- The operations of a list, one after the other. -/
def operate (s : Server) : List AccountOp → Server
  | [] => s
  | op :: rest => operate (op.prog.run s).2 rest

theorem reach_operate {allowed : Store → AccountOp → Prop} (s : Server) (ops : List AccountOp)
    (hOps : ∀ op ∈ ops, ∀ store, allowed store op) :
    Relation.ReflTransGen (AccountTransition allowed) s (operate s ops) := by
  induction ops generalizing s with
  | nil => exact .refl
  | cons op rest ih =>
      have hRest := ih (op.prog.run s).2 fun x hx => hOps x (List.mem_cons_of_mem _ hx)
      exact .head (.call op (hOps op List.mem_cons_self _)) hRest

/-- A server before the first account. -/
def newServer : Server := ⟨{}, [], 0⟩

def createAda : AccountOp := .createAdmin ⟨"Ada", "Orr", "ada@site"⟩ ⟨"password", "0"⟩

def createCy : AccountOp := .createAdmin ⟨"Cy", "Lee", "cy@site"⟩ ⟨"password", "1"⟩

/-- Ada creates a user. -/
def createBen : AccountOp := .createUser 1 ⟨"Ben", "Fry", "ben@site"⟩ ⟨"password", "2"⟩

/-- The user asks for another address. -/
def askFor (address : String) : AccountOp := .createRequest 1 ⟨"email", some address, none⟩

theorem validated_createAda : createAda.Validated := by
  constructor <;> decide

theorem validated_createCy : createCy.Validated := by
  constructor <;> decide

theorem validated_createBen : createBen.Validated := by
  constructor <;> decide

theorem validated_askFor {address : String} (h : 1 ≤ address.length) :
    (askFor address).Validated where
  requestType := show "email" ∈ requestTypes by decide
  requestedValue := fun s hValue => Option.some.inj hValue ▸ h
  currentPassword := fun s hNone => by cases hNone

theorem newServer_hashed : PasswordsHashed newServer.store :=
  ⟨fun _ h => (nomatch h), fun _ h => (nomatch h)⟩

theorem newServer_owned : RequestsOwned newServer.store :=
  ⟨fun _ h => (nomatch h), fun _ h => (nomatch h), fun _ h => (nomatch h)⟩

theorem newServer_emails : EmailsValid newServer.store := fun _ h => nomatch h

/-- Three operations that are allowed at any time. -/
theorem reach_three {allowed : Store → AccountOp → Prop} {first second third : AccountOp}
    (hFirst : ∀ store, allowed store first) (hSecond : ∀ store, allowed store second)
    (hThird : ∀ store, allowed store third) :
    Relation.ReflTransGen (AccountTransition allowed) newServer
      (operate newServer [first, second, third]) := by
  refine reach_operate newServer _ fun op hOp => ?_
  rcases List.mem_cons.mp hOp with rfl | hOp
  · exact hFirst
  · rcases List.mem_cons.mp hOp with rfl | hOp
    · exact hSecond
    · rw [List.mem_singleton.mp hOp]
      exact hThird

/-- The accounts of the three. -/
def manned : Server := operate newServer [createAda, createCy, createBen]

theorem reach_manned :
    Relation.ReflTransGen (AccountTransition fun _ op => op.Validated) newServer manned :=
  reach_three (fun _ => validated_createAda) (fun _ => validated_createCy)
    fun _ => validated_createBen

theorem passwords_stored_as_hashes_site :
    Redemption.passwords manned.store = [(1, "2$password")] ∧ PasswordsHashed manned.store :=
  ⟨by decide, (passwords_stored_as_hashes newServer_hashed reach_manned).1⟩

/-- Ada resets the password of her user. -/
def resetBen : AccountOp := .resetUserPassword 1 1 ⟨"12345678", "3"⟩ (.answers none)

theorem password_changed_by_owner_site :
    Redemption.passwords (resetBen.prog.run manned).2.store = [(1, "3$12345678")] ∧
      ByOwner resetBen manned.store (resetBen.prog.run manned).2.store :=
  ⟨by decide, password_changed_by_owner newServer_owned reach_manned trivial⟩

/-- Cy updates the user of Ada, with a password. -/
def updateBen : AccountOp := .updateUser 2 1 { password := .value "12345678" } "3"

theorem validated_updateBen : updateBen.Validated :=
  ⟨trivial, trivial, trivial, show 8 ≤ "12345678".length by decide⟩

/-- An admin changes the password of a user of another admin. -/
theorem password_changed_by_other_admin :
    ¬ ∀ s, Relation.ReflTransGen (AccountTransition fun _ op => op.Validated) newServer s →
      ∀ op : AccountOp, op.Validated → ByOwner op s.store (op.prog.run s).2.store := by
  intro h
  have hBen : (⟨1, "Ben", "Fry", "ben@site", "2$password", some 1⟩ : User) ∈
      manned.store.user.rows := by decide
  have hUpdated : (⟨1, "Ben", "Fry", "ben@site", "3$12345678", some 1⟩ : User) ∈
      (updateBen.prog.run manned).2.store.user.rows := by decide
  have hOwner := h manned reach_manned updateBen validated_updateBen _ hBen _ hUpdated rfl
    (by decide) 2 rfl
  exact absurd hOwner (by decide)

/-- The user has asked for another address. -/
def asked (address : String) : Server := operate newServer [createAda, createBen, askFor address]

def approval : AccountOp := .approveRequest 1 1

theorem approves_asked : approval.ApprovesEmail (asked "ben@yard").store := by
  intro request userId value hRequest _ hValue
  have hRows : (asked "ben@yard").store.userRequest.rows =
      [⟨1, 1, 1, "email", some "ben@site", some "ben@yard", "pending"⟩] := by decide
  have hMem := hRequest.mem
  rw [hRows] at hMem
  rw [List.mem_singleton.mp hMem] at hValue
  rw [← Option.some.inj hValue]
  decide

theorem emails_valid_site :
    (approval.prog.run (asked "ben@yard")).2.store.user.rows.map User.email = ["ben@yard"] ∧
      EmailsValid (approval.prog.run (asked "ben@yard")).2.store := by
  refine ⟨by decide, emails_valid newServer_emails (.tail (reach_three ?_ ?_ ?_)
    (.call approval ⟨trivial, approves_asked⟩))⟩
  · exact fun _ => ⟨validated_createAda, trivial⟩
  · exact fun _ => ⟨validated_createBen, trivial⟩
  · exact fun _ => ⟨validated_askFor (by decide), trivial⟩

/-- The admin approves a request for an address that is none. -/
theorem email_invalid :
    ¬ ∀ s, Relation.ReflTransGen (AccountTransition fun _ op => op.Validated) newServer s →
      EmailsValid s.store := by
  intro h
  have hAsked : Relation.ReflTransGen (AccountTransition fun _ op => op.Validated) newServer
      (asked "ben") :=
    reach_three (fun _ => validated_createAda) (fun _ => validated_createBen)
      fun _ => validated_askFor (by decide)
  have hBen : (⟨1, "Ben", "Fry", "ben", "2$password", some 1⟩ : User) ∈
      (approval.prog.run (asked "ben")).2.store.user.rows := by decide
  exact absurd (h _ (.tail hAsked (.call approval trivial)) _ hBen) (by decide)

end Site

end Rooeel
