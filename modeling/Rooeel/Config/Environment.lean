import Rooeel.Auth.Refresh

/-!
# The environment and the storage backend

`validateEnv` runs when the application starts and decides from `USE_MINIO` which variables of the
storage backend must be set. The constructor of `StorageService` reads `USE_MINIO` again. The two
readings differ in the default and in the case of letters (`SwitchAgrees`), and where they differ
the credentials of the client are variables that nobody has checked.

`ConfigModule` is set up with `validateEnv`, so `configService.get` reads the environment that
`validateEnv` returns.
-/

namespace Rooeel

open JavaScript
open AuthService (orDefault)

/-- `type Env = Record<string, string | undefined>` -/
abbrev Env := String → Option String

/-- The variable is set, and its value is not blank. -/
def Given (env : Env) (key : String) : Prop := ∃ value, env key = some value ∧ trim value ≠ ""

instance (env : Env) (key : String) : Decidable (Given env key) :=
  decidable_of_iff ((env key).any fun value => trim value ≠ "") <| by
    rw [Option.any_eq_true]
    simp only [Given, decide_eq_true_eq]

/-! ## Validation -/

def requireVar (env : Env) (key : String) : Except Exn String :=
  match env key with
  | some value =>
    if value = "" ∨ trim value = "" then
      throw (.error ("Missing required environment variable: " ++ key))
    else pure value
  | none => throw (.error ("Missing required environment variable: " ++ key))

/-- Calls of `requireVar` one after the other. -/
def requireVars (env : Env) : List String → Except Exn Unit
  | [] => pure ()
  | key :: rest => do
    let _value ← requireVar env key
    requireVars env rest

/-- The switch as `validateEnv` reads it. -/
def useMinio [Runtime] (env : Env) : Bool :=
  toLowerCase (orDefault (env "USE_MINIO") "true") == "true"

/-- The variables that a backend needs. -/
def backendVars (minio : Bool) : List String :=
  if minio then ["MINIO_ROOT_USER", "MINIO_ROOT_PASSWORD", "MINIO_BUCKET"]
  else ["AWS_REGION", "AWS_ACCESS_KEY_ID", "AWS_SECRET_ACCESS_KEY", "MINIO_BUCKET"]

def validateEnv [Runtime] (env : Env) : Except Exn Env := do
  let nodeEnv := orDefault (env "NODE_ENV") "development"
  if nodeEnv ∉ ["development", "test", "production"] then
    throw (.error "NODE_ENV must be one of: development, test, production")
  requireVars env
    ["DATABASE_URL", "JWT_SECRET", "JWT_ACCESS_EXPIRY", "JWT_REFRESH_EXPIRY", "FRONTEND_URL"]
  requireVars env (backendVars (useMinio env))
  return env

theorem requireVar_of_given {env : Env} {key : String} (h : Given env key) :
    ∃ value, requireVar env key = .ok value := by
  obtain ⟨value, hValue, hBlank⟩ := h
  refine ⟨value, ?_⟩
  have hEmpty : value ≠ "" := by
    rintro rfl
    exact hBlank trim_empty
  simp only [requireVar, hValue, hEmpty, hBlank, or_self, if_false]
  rfl

/-- The error names the variable. -/
theorem requireVar_of_not_given {env : Env} {key : String} (h : ¬ Given env key) :
    requireVar env key =
      .error (.error ("Missing required environment variable: " ++ key)) := by
  unfold requireVar
  rcases hValue : env key with _ | value
  · rfl
  · have hBlank : trim value = "" := by
      by_contra hText
      exact h ⟨value, hValue, hText⟩
    simp only [hBlank, or_true, if_true]
    rfl

/-- The first variable that is missing decides the error. -/
theorem requireVars_cases (env : Env) (keys : List String) :
    (requireVars env keys = .ok () ∧ ∀ key ∈ keys, Given env key) ∨
    (∃ key ∈ keys, ¬ Given env key ∧ requireVars env keys =
      .error (.error ("Missing required environment variable: " ++ key))) := by
  induction keys with
  | nil => exact .inl ⟨rfl, fun key h => absurd h List.not_mem_nil⟩
  | cons key rest ih =>
    by_cases hKey : Given env key
    · obtain ⟨value, hValue⟩ := requireVar_of_given hKey
      have hStep : requireVars env (key :: rest) = requireVars env rest := by
        simp only [requireVars, hValue]
        rfl
      rw [hStep]
      rcases ih with ⟨hRest, hAll⟩ | ⟨other, hOther, hMissing, hRest⟩
      · exact .inl ⟨hRest, List.forall_mem_cons.mpr ⟨hKey, hAll⟩⟩
      · exact .inr ⟨other, List.mem_cons_of_mem _ hOther, hMissing, hRest⟩
    · refine .inr ⟨key, List.mem_cons_self, hKey, ?_⟩
      simp only [requireVars, requireVar_of_not_given hKey]
      rfl

/-- The variables that `validateEnv` requires. -/
def required [Runtime] (env : Env) : List String :=
  ["DATABASE_URL", "JWT_SECRET", "JWT_ACCESS_EXPIRY", "JWT_REFRESH_EXPIRY", "FRONTEND_URL"] ++
    backendVars (useMinio env)

/-- The values of `NODE_ENV` that are known. -/
def KnownEnv (env : Env) : Prop :=
  orDefault (env "NODE_ENV") "development" ∈ ["development", "test", "production"]

instance (env : Env) : Decidable (KnownEnv env) := inferInstanceAs (Decidable (_ ∈ _))

theorem requireVars_append (env : Env) (keys more : List String) :
    requireVars env (keys ++ more) =
      requireVars env keys >>= fun _ => requireVars env more := by
  induction keys with
  | nil => rfl
  | cons key rest ih =>
    rw [List.cons_append, requireVars, requireVars, bind_assoc]
    simp only [ih]

/-- A known environment is left to `requireVar`. -/
theorem validateEnv_known [Runtime] {env : Env} (h : KnownEnv env) :
    validateEnv env = requireVars env (required env) >>= fun _ => pure env := by
  rw [required, requireVars_append, bind_assoc]
  unfold KnownEnv at h
  unfold validateEnv
  simp only [h, not_true_eq_false, if_false]

theorem validateEnv_unknown [Runtime] {env : Env} (h : ¬ KnownEnv env) :
    validateEnv env = .error (.error "NODE_ENV must be one of: development, test, production") := by
  unfold KnownEnv at h
  unfold validateEnv
  simp only [h, not_false_eq_true, if_true]
  rfl

/-- An environment passes when its `NODE_ENV` is known and what is required is given. It is
returned as it is. -/
theorem validateEnv_eq_ok [Runtime] {env accepted : Env} :
    validateEnv env = .ok accepted ↔
      accepted = env ∧ KnownEnv env ∧ ∀ key ∈ required env, Given env key := by
  by_cases hKnown : KnownEnv env
  · rw [validateEnv_known hKnown]
    rcases requireVars_cases env (required env) with ⟨hRun, hAll⟩ | ⟨key, hKey, hMissing, hRun⟩
    · rw [hRun]
      constructor
      · intro h
        cases h
        exact ⟨rfl, hKnown, hAll⟩
      · rintro ⟨rfl, -, -⟩
        rfl
    · rw [hRun]
      constructor
      · intro h
        cases h
      · rintro ⟨-, -, hAll⟩
        exact absurd (hAll key hKey) hMissing
  · rw [validateEnv_unknown hKnown]
    constructor
    · intro h
      cases h
    · rintro ⟨-, h, -⟩
      exact absurd h hKnown

/-! ## The storage service -/

structure Credentials where
  accessKeyId : Option String
  secretAccessKey : Option String

/-- What an `S3Client` is made from. -/
structure S3Config where
  region : String
  endpoint : Option String
  forcePathStyle : Bool
  credentials : Credentials

structure StorageService where
  isMinio : Bool
  bucketName : String
  s3Client : S3Config
  presignClient : S3Config

/-- `endpoint.startsWith('http') ? endpoint : 'http://' + endpoint` -/
def normalizedEndpoint (endpoint : String) : String :=
  if endpoint.startsWith "http" then endpoint else "http://" ++ endpoint

/-- The constructor, with `configService.get`. -/
def StorageService.new (get : Env) : StorageService :=
  let isMinio := get "USE_MINIO" == some "true"
  let region := orDefault (get "AWS_REGION") "us-east-1"
  let s3Config : S3Config :=
    if isMinio then
      { region
        endpoint := some (normalizedEndpoint (orDefault (get "MINIO_ENDPOINT") "localhost:9000"))
        forcePathStyle := true
        credentials :=
          { accessKeyId := some (orDefault (get "MINIO_ROOT_USER") "minioadmin")
            secretAccessKey := some (orDefault (get "MINIO_ROOT_PASSWORD") "minioadmin") } }
    else
      { region
        endpoint := none
        forcePathStyle := false
        credentials :=
          { accessKeyId := get "AWS_ACCESS_KEY_ID"
            secretAccessKey := get "AWS_SECRET_ACCESS_KEY" } }
  let presignConfig : S3Config :=
    if isMinio then
      { s3Config with
        endpoint := some
          (normalizedEndpoint (orDefault (get "MINIO_PUBLIC_ENDPOINT") "localhost:9000")) }
    else s3Config
  { isMinio
    bucketName := orDefault (get "MINIO_BUCKET") "rooeel"
    s3Client := s3Config
    presignClient := presignConfig }

/-! ## The backend and what was required for it -/

/-- Both credentials are values of the environment that are not blank. -/
def Supplied (env : Env) (c : Credentials) : Prop :=
  ∀ credential ∈ [c.accessKeyId, c.secretAccessKey],
    ∃ value, credential = some value ∧ trim value ≠ "" ∧ ∃ key, env key = some value

/-- The storage service uses the backend whose variables were required, and its clients have
credentials. -/
structure StorageFits [Runtime] (env : Env) : Prop where
  backend : (StorageService.new env).isMinio = useMinio env
  s3Client : Supplied env (StorageService.new env).s3Client.credentials
  presignClient : Supplied env (StorageService.new env).presignClient.credentials

/-- The switch is `true` as it stands, or it is set and not even `true` in capital letters. -/
def SwitchAgrees [Runtime] (env : Env) : Prop :=
  env "USE_MINIO" = some "true" ∨
    ∃ value, env "USE_MINIO" = some value ∧ value ≠ "" ∧ toLowerCase value ≠ "true"

theorem toLowerCase_true [Runtime] : toLowerCase "true" = "true" :=
  Runtime.toLowerCase_ascii "true" rfl

theorem new_isMinio {env : Env} :
    (StorageService.new env).isMinio = true ↔ env "USE_MINIO" = some "true" := by
  simp only [StorageService.new, beq_iff_eq]

theorem useMinio_absent [Runtime] {env : Env}
    (h : ∀ value, env "USE_MINIO" = some value → value = "") : useMinio env = true := by
  have hDefault : orDefault (env "USE_MINIO") "true" = "true" := by
    rcases hValue : env "USE_MINIO" with _ | value
    · rfl
    · rw [h value hValue]
      rfl
  rw [useMinio, hDefault, toLowerCase_true]
  rfl

theorem useMinio_present [Runtime] {env : Env} {value : String}
    (hValue : env "USE_MINIO" = some value) (hText : value ≠ "") :
    useMinio env = true ↔ toLowerCase value = "true" := by
  simp only [useMinio, orDefault, hValue, hText, if_false, beq_iff_eq]

/-- A switch that selects MinIO also requires its variables. -/
theorem useMinio_of_isMinio [Runtime] {env : Env}
    (h : (StorageService.new env).isMinio = true) : useMinio env = true :=
  (useMinio_present (new_isMinio.mp h) (by decide)).mpr toLowerCase_true

theorem backend_iff [Runtime] {env : Env} :
    (StorageService.new env).isMinio = useMinio env ↔ SwitchAgrees env := by
  constructor
  · intro h
    by_cases hMinio : (StorageService.new env).isMinio = true
    · exact .inl (new_isMinio.mp hMinio)
    · have hOff : ¬ useMinio env = true := h ▸ hMinio
      obtain ⟨value, hValue, hText⟩ : ∃ value, env "USE_MINIO" = some value ∧ value ≠ "" := by
        by_contra hNone
        refine hOff (useMinio_absent fun value hValue => ?_)
        by_contra hText
        exact hNone ⟨value, hValue, hText⟩
      refine .inr ⟨value, hValue, hText, fun hTrue => ?_⟩
      exact hOff ((useMinio_present hValue hText).mpr hTrue)
  · rintro (hTrue | ⟨value, hValue, hText, hOther⟩)
    · have hMinio := new_isMinio.mpr hTrue
      rw [hMinio, useMinio_of_isMinio hMinio]
    · have hOff : ¬ useMinio env = true := fun h => hOther ((useMinio_present hValue hText).mp h)
      have hAws : ¬ (StorageService.new env).isMinio = true :=
        fun h => hOff (useMinio_of_isMinio h)
      rw [Bool.eq_false_iff.mpr hOff, Bool.eq_false_iff.mpr hAws]

/-! ## Credentials -/

def minioCredentials (env : Env) : Credentials where
  accessKeyId := some (orDefault (env "MINIO_ROOT_USER") "minioadmin")
  secretAccessKey := some (orDefault (env "MINIO_ROOT_PASSWORD") "minioadmin")

def awsCredentials (env : Env) : Credentials where
  accessKeyId := env "AWS_ACCESS_KEY_ID"
  secretAccessKey := env "AWS_SECRET_ACCESS_KEY"

theorem new_credentials (env : Env) :
    (StorageService.new env).s3Client.credentials =
      if (StorageService.new env).isMinio then minioCredentials env else awsCredentials env := by
  by_cases h : (env "USE_MINIO" == some "true") = true
  · simp only [StorageService.new, h, if_true]
    rfl
  · simp only [StorageService.new, h, Bool.false_eq_true, if_false]
    rfl

/-- The client that signs requests has the credentials of the other one. -/
theorem presign_credentials (env : Env) :
    (StorageService.new env).presignClient.credentials =
      (StorageService.new env).s3Client.credentials := by
  by_cases h : (env "USE_MINIO" == some "true") = true
  · simp only [StorageService.new, h, if_true]
  · simp only [StorageService.new, h, Bool.false_eq_true, if_false]

theorem Given.orDefault_eq {env : Env} {key : String} (h : Given env key) (fallback : String) :
    env key = some (orDefault (env key) fallback) ∧ trim (orDefault (env key) fallback) ≠ "" := by
  obtain ⟨value, hValue, hBlank⟩ := h
  have hText : value ≠ "" := by
    rintro rfl
    exact hBlank trim_empty
  have hRead : orDefault (env key) fallback = value := by
    simp only [orDefault, hValue, hText, if_false]
  rw [hRead]
  exact ⟨hValue, hBlank⟩

theorem supplied_of_values {env : Env} {user secret userKey secretKey : String}
    (hUser : env userKey = some user) (hUserText : trim user ≠ "")
    (hSecret : env secretKey = some secret) (hSecretText : trim secret ≠ "") :
    Supplied env ⟨some user, some secret⟩ := by
  refine List.forall_mem_cons.mpr ⟨⟨user, rfl, hUserText, userKey, hUser⟩, ?_⟩
  refine List.forall_mem_cons.mpr ⟨⟨secret, rfl, hSecretText, secretKey, hSecret⟩, ?_⟩
  exact fun credential h => absurd h List.not_mem_nil

theorem supplied_minio {env : Env} (hUser : Given env "MINIO_ROOT_USER")
    (hPassword : Given env "MINIO_ROOT_PASSWORD") : Supplied env (minioCredentials env) := by
  obtain ⟨hUserValue, hUserText⟩ := hUser.orDefault_eq "minioadmin"
  obtain ⟨hPasswordValue, hPasswordText⟩ := hPassword.orDefault_eq "minioadmin"
  exact supplied_of_values hUserValue hUserText hPasswordValue hPasswordText

theorem supplied_aws_iff {env : Env} :
    Supplied env (awsCredentials env) ↔
      Given env "AWS_ACCESS_KEY_ID" ∧ Given env "AWS_SECRET_ACCESS_KEY" := by
  constructor
  · intro h
    obtain ⟨key, hKey, hKeyText, -⟩ := h _ List.mem_cons_self
    obtain ⟨secret, hSecret, hSecretText, -⟩ := h _ (List.mem_cons_of_mem _ List.mem_cons_self)
    exact ⟨⟨key, hKey, hKeyText⟩, ⟨secret, hSecret, hSecretText⟩⟩
  · rintro ⟨⟨key, hKey, hKeyText⟩, ⟨secret, hSecret, hSecretText⟩⟩
    rw [awsCredentials, hKey, hSecret]
    exact supplied_of_values hKey hKeyText hSecret hSecretText

/-- The variables of the backend that was required. -/
theorem given_of_accepted [Runtime] {env accepted : Env} (h : validateEnv env = .ok accepted)
    {key : String} (hKey : key ∈ backendVars (useMinio env)) : Given env key :=
  (validateEnv_eq_ok.mp h).2.2 key (List.mem_append_right _ hKey)

/-- The credentials are there when the switch agrees, and otherwise only if the variables of AWS
happen to be set as well. -/
theorem supplied_iff [Runtime] {env accepted : Env} (h : validateEnv env = .ok accepted) :
    Supplied env (StorageService.new env).s3Client.credentials ↔
      SwitchAgrees env ∨ (Given env "AWS_ACCESS_KEY_ID" ∧ Given env "AWS_SECRET_ACCESS_KEY") := by
  rw [new_credentials]
  by_cases hMinio : (StorageService.new env).isMinio = true
  · have hAgrees : SwitchAgrees env := .inl (new_isMinio.mp hMinio)
    have hUse := useMinio_of_isMinio hMinio
    rw [if_pos hMinio]
    refine iff_of_true (supplied_minio ?_ ?_) (.inl hAgrees)
    · exact given_of_accepted h (by rw [hUse]; exact List.mem_cons_self)
    · exact given_of_accepted h (by rw [hUse]; exact List.mem_cons_of_mem _ List.mem_cons_self)
  · rw [if_neg hMinio, supplied_aws_iff]
    refine ⟨.inr, ?_⟩
    rintro (hAgrees | hGiven)
    · have hUse : useMinio env = false := by
        rw [← backend_iff.mpr hAgrees]
        exact Bool.eq_false_iff.mpr hMinio
      constructor
      · exact given_of_accepted h (by rw [hUse]; decide)
      · exact given_of_accepted h (by rw [hUse]; decide)
    · exact hGiven

/-- **The backend that is configured.** In an environment that was accepted, the storage service
uses the backend whose variables were required, with credentials from the environment, exactly
when the switch is `true` as it stands or is set to something else than `true` in any case. -/
theorem storage_fits_iff [Runtime] {env accepted : Env} (h : validateEnv env = .ok accepted) :
    StorageFits accepted ↔ SwitchAgrees accepted := by
  obtain ⟨rfl, -⟩ := validateEnv_eq_ok.mp h
  constructor
  · intro hFits
    exact backend_iff.mp hFits.backend
  · intro hAgrees
    have hSupplied := (supplied_iff h).mpr (.inl hAgrees)
    refine ⟨backend_iff.mpr hAgrees, hSupplied, ?_⟩
    rw [presign_credentials]
    exact hSupplied

section Site

attribute [local instance] asciiRuntime

/-- The settings of a development machine, with the switch. -/
def localEnv (switch : Option String) (key : String) : Option String :=
  if key = "USE_MINIO" then switch
  else List.lookup key
    [("DATABASE_URL", "postgresql://localhost/rooeel"), ("JWT_SECRET", "secret"),
      ("JWT_ACCESS_EXPIRY", "15m"), ("JWT_REFRESH_EXPIRY", "7d"),
      ("FRONTEND_URL", "http://localhost:3000"), ("MINIO_ROOT_USER", "minioadmin"),
      ("MINIO_ROOT_PASSWORD", "minioadmin"), ("MINIO_BUCKET", "rooeel")]

theorem storage_fits_local :
    StorageFits (localEnv (some "true")) ∧ ¬ StorageFits (localEnv (some "True")) := by
  have hTrue : validateEnv (localEnv (some "true")) = .ok (localEnv (some "true")) :=
    validateEnv_eq_ok.mpr ⟨rfl, by decide, by decide⟩
  have hCapital : validateEnv (localEnv (some "True")) = .ok (localEnv (some "True")) :=
    validateEnv_eq_ok.mpr ⟨rfl, by decide, by decide⟩
  refine ⟨(storage_fits_iff hTrue).mpr (.inl rfl), ?_⟩
  rw [storage_fits_iff hCapital]
  rintro (h | ⟨value, hValue, -, hOther⟩)
  · exact absurd h (by decide)
  · cases hValue
    exact hOther rfl

/-- Without the switch the variables of MinIO are required, and AWS is used without
credentials. -/
theorem unset_switch_breaks_storage :
    validateEnv (localEnv none) = .ok (localEnv none) ∧ useMinio (localEnv none) = true ∧
      (StorageService.new (localEnv none)).isMinio = false ∧
      (StorageService.new (localEnv none)).s3Client.credentials.accessKeyId = none ∧
      (StorageService.new (localEnv none)).s3Client.credentials.secretAccessKey = none ∧
      ¬ StorageFits (localEnv none) := by
  have hAccepted : validateEnv (localEnv none) = .ok (localEnv none) :=
    validateEnv_eq_ok.mpr ⟨rfl, by decide, by decide⟩
  refine ⟨hAccepted, rfl, rfl, rfl, rfl, ?_⟩
  intro hFits
  exact absurd hFits.backend (by decide)

end Site

end Rooeel
