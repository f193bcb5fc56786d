import Rooeel.Lib.Regex
import Rooeel.Config.Environment

/-!
# The refresh token in the cookies

The resolver reads the refresh token from the `Cookie` header with a regular expression, which may
begin to match at the start of the header or at any semicolon. A header is made of cookies, and a
semicolon in it is always one between two of them, so the expression matches a whole cookie and
never inside one (`extract_header`). So `refreshTokens` gets the value of the first cookie with the
name of its own (`refreshTokens_header`).
-/

namespace Rooeel

open JavaScript Regex

/-! ## Cookies -/

/-- A cookie of a request. -/
structure Cookie where
  name : String
  value : String
  name_nonempty : name ≠ ""
  name_plain : ∀ c ∈ name.toList, c ≠ ';' ∧ c ≠ '=' ∧ isSpace c = false
  value_nonempty : value ≠ ""
  value_plain : ∀ c ∈ value.toList, c ≠ ';'

namespace Cookie

def pair (cookie : Cookie) : String := cookie.name ++ "=" ++ cookie.value

/-- The header of a request with the cookies. -/
def header (cookies : List Cookie) : String := String.intercalate "; " (cookies.map pair)

/-- What stands behind the first cookie of a header. -/
def behind : List Cookie → List Char
  | [] => []
  | cookie :: rest => ';' :: ' ' :: (cookie.pair.toList ++ behind rest)

theorem toList_pair (cookie : Cookie) :
    cookie.pair.toList = cookie.name.toList ++ '=' :: cookie.value.toList := by
  unfold pair
  rw [String.toList_append, String.toList_append, List.append_assoc]
  rfl

theorem toList_header (cookie : Cookie) (rest : List Cookie) :
    (header (cookie :: rest)).toList = cookie.pair.toList ++ behind rest := by
  unfold header
  rw [String.toList_intercalate]
  induction rest generalizing cookie with
  | nil => simp [behind]
  | cons next rest ih =>
    rw [List.map_cons, List.map_cons, List.map_cons, List.map_cons, List.intercalate_cons_cons,
      ← List.map_cons, ← List.map_cons, ih]
    simp [behind]

/-- There is no semicolon in a cookie. -/
theorem pair_plain (cookie : Cookie) : ∀ c ∈ cookie.pair.toList, c ≠ ';' := by
  intro c hc
  rw [toList_pair] at hc
  rcases List.mem_append.mp hc with hName | hRest
  · exact (cookie.name_plain c hName).1
  · rcases List.mem_cons.mp hRest with rfl | hValue
    · decide
    · exact cookie.value_plain c hValue

/-- A cookie begins with a character of its name. -/
theorem pair_cons (cookie : Cookie) :
    ∃ c rest, cookie.pair.toList = c :: rest ∧ c ≠ ';' ∧ isSpace c = false := by
  have hSome : cookie.name.toList ≠ [] := fun hNil =>
    cookie.name_nonempty (String.toList_eq_nil_iff.mp hNil)
  obtain ⟨c, name, hName⟩ := List.exists_cons_of_ne_nil hSome
  obtain ⟨hSemicolon, -, hSpace⟩ := cookie.name_plain c (hName ▸ List.mem_cons_self)
  refine ⟨c, name ++ '=' :: cookie.value.toList, ?_, hSemicolon, hSpace⟩
  rw [toList_pair, hName, List.cons_append]

end Cookie

/-! ## The resolver -/

namespace AuthResolver

/-- `refreshToken=([^;]+)` -/
def tokenPattern : Regex Char :=
  .seq (word "refreshToken=".toList) (.group (plus (.one fun c => c != ';')))

/-- `(?:^|;\s*)refreshToken=([^;]+)` -/
def refreshTokenPattern : Regex Char :=
  .seq (.alt .start (.seq (symbol ';') (.star (.one isSpace)))) tokenPattern

/-- `match?.[1] ?? null` -/
def firstGroup (result : Option (Cursor Char)) : Option String :=
  result.bind fun c => c.captured.map String.ofList

def extractRefreshTokenFromCookies (cookieHeader : Option String) : Option String :=
  match cookieHeader with
  | none => none
  | some header =>
    if header = "" then none
    else firstGroup (search refreshTokenPattern true header.toList)

structure CookieOptions where
  httpOnly : Bool
  secure : Bool
  sameSite : String
  path : String
  maxAge : Nat

/-- The options of the cookie, in the environment of the process. -/
def getRefreshCookieOptions (env : Env) : CookieOptions where
  httpOnly := true
  secure := env "NODE_ENV" == some "production"
  sameSite := "lax"
  path := "/"
  maxAge := 7 * 24 * 60 * 60 * 1000

/-- The answer of `refreshTokens`, with the cookie `refreshToken` that it sets. -/
structure RefreshAnswer where
  refreshToken : String
  options : CookieOptions
  accessToken : String
  expiresIn : Int

def refreshAnswer (env : Env) (tokens : AuthService.TokenPair) : RefreshAnswer where
  refreshToken := tokens.refreshToken
  options := getRefreshCookieOptions env
  accessToken := tokens.accessToken
  expiresIn := tokens.expiresIn

def refreshTokens [TokenRuntime] (env : Env) (cookieHeader : Option String)
    (call : AuthService.RefreshCall) : Service RefreshAnswer :=
  match (extractRefreshTokenFromCookies cookieHeader).filter fun token => token ≠ "" with
  | none => throw (.unauthorized "Refresh token not found")
  | some refreshToken => do
    let tokens ← AuthService.refreshTokens refreshToken call
    pure (refreshAnswer env tokens)

/-! ## Where the expression matches -/

theorem refreshToken_toList : "refreshToken=".toList = "refreshToken".toList ++ ['='] := by
  simp

/-- A name ends at the first `=`. -/
theorem name_eq_of_begins {name key value : List Char} (hName : ∀ c ∈ name, c ≠ '=')
    (hKey : ∀ c ∈ key, c ≠ '=') (h : key ++ ['='] <+: name ++ '=' :: value) : name = key := by
  obtain ⟨rest, hRest⟩ := h
  have hUpTo {cs : List Char} (hcs : ∀ c ∈ cs, c ≠ '=') (more : List Char) :
      (cs ++ '=' :: more).takeWhile (fun c => c != '=') = cs := by
    rw [List.takeWhile_append_of_pos fun c hc => bne_iff_ne.mpr (hcs c hc)]
    exact List.append_nil cs
  rw [List.append_assoc, List.singleton_append] at hRest
  rw [← hUpTo hName value, ← hRest, hUpTo hKey]

section Token

variable {cookie : Cookie} {b : Bool} {captured : Option (List Char)}

/-- The expression matches the cookie `refreshToken`, and captures its value. -/
theorem run_token (hName : cookie.name = "refreshToken") (rest : List Cookie) :
    ∃ later, run tokenPattern ⟨b, cookie.pair.toList ++ Cookie.behind rest, captured⟩ =
      ⟨false, Cookie.behind rest, some cookie.value.toList⟩ :: later := by
  have hText : cookie.pair.toList ++ Cookie.behind rest =
      "refreshToken=".toList ++ (cookie.value.toList ++ Cookie.behind rest) := by
    rw [Cookie.toList_pair, hName, refreshToken_toList, List.append_assoc, List.append_assoc]
    rfl
  have hSome : cookie.value.toList ≠ [] := fun hNil =>
    cookie.value_nonempty (String.toList_eq_nil_iff.mp hNil)
  have hEnd : ¬ Cursor.Within (fun c => c != ';') ⟨false, Cookie.behind rest, captured⟩ := by
    cases rest with
    | nil => exact Cursor.not_within_nil _ _ _
    | cons next rest =>
      intro hWithin
      cases Cursor.within_cons.mp hWithin
  rw [hText, tokenPattern, run, run_word, List.flatMap_singleton]
  exact run_group_plus (fun c hc => bne_iff_ne.mpr (cookie.value_plain c hc)) hSome hEnd

/-- It matches no other cookie. -/
theorem run_token_of_ne (hName : cookie.name ≠ "refreshToken") (rest : List Char) :
    run tokenPattern ⟨b, cookie.pair.toList ++ rest, captured⟩ = [] := by
  rw [tokenPattern, run, run_word_of_not, List.flatMap_nil]
  intro hPrefix
  rw [Cookie.toList_pair, refreshToken_toList, List.append_assoc, List.cons_append] at hPrefix
  refine hName (String.toList_inj.mp (name_eq_of_begins ?_ (by simp) hPrefix))
  exact fun c hc => (cookie.name_plain c hc).2.1

/-- It begins with a letter. -/
theorem run_token_space {d : Cursor Char} (h : d.Within isSpace) : run tokenPattern d = [] := by
  obtain ⟨b, rest, captured⟩ := d
  obtain ⟨c, more, rfl, hSpace⟩ := h
  have hFirst : "refreshToken=".toList = 'r' :: "efreshToken=".toList := by simp
  rw [tokenPattern, run, run_word_of_not, List.flatMap_nil]
  intro hPrefix
  rw [hFirst] at hPrefix
  rw [← (List.cons_prefix_cons.mp hPrefix).1] at hSpace
  cases hSpace

end Token

/-- In front of the first cookie. -/
theorem run_start (cookie : Cookie) (rest : List Char) :
    run refreshTokenPattern ⟨true, cookie.pair.toList ++ rest, none⟩ =
      run tokenPattern ⟨true, cookie.pair.toList ++ rest, none⟩ := by
  obtain ⟨c, more, hPair, hSemicolon, -⟩ := cookie.pair_cons
  rw [hPair, List.cons_append, refreshTokenPattern, run, run, run, if_pos rfl, run,
    run_symbol_of_ne hSemicolon]
  exact List.append_nil _

/-- In front of the semicolon before a cookie. -/
theorem run_separator (cookie : Cookie) (rest : List Char) :
    run refreshTokenPattern ⟨false, ';' :: ' ' :: (cookie.pair.toList ++ rest), none⟩ =
      run tokenPattern ⟨false, cookie.pair.toList ++ rest, none⟩ := by
  obtain ⟨c, more, hPair, -, hSpace⟩ := cookie.pair_cons
  have hSkip : Cursor.skip isSpace ⟨false, [' '] ++ (cookie.pair.toList ++ rest), none⟩ =
      ⟨false, cookie.pair.toList ++ rest, none⟩ := by
    refine skip_append (by simp [isSpace]) ?_
    rw [hPair, List.cons_append]
    exact fun hWithin => Bool.eq_false_iff.mp hSpace (Cursor.within_cons.mp hWithin)
  rw [refreshTokenPattern, run, run, run, if_neg Bool.false_ne_true, run,
    run_symbol, List.nil_append, List.flatMap_singleton,
    flatMap_star_one fun d hd => run_token_space hd]
  exact congrArg (run tokenPattern) hSkip

/-- In front of any other character. -/
theorem run_inside {c : Char} (h : c ≠ ';') (rest : List Char) :
    run refreshTokenPattern ⟨false, c :: rest, none⟩ = [] := by
  rw [refreshTokenPattern, run, run, run, if_neg Bool.false_ne_true, run,
    run_symbol_of_ne h]
  rfl

/-! ## The search through a header -/

/-- The value of the first cookie with the name. -/
def firstRefreshToken (cookies : List Cookie) : Option String :=
  (cookies.find? fun cookie => cookie.name = "refreshToken").map Cookie.value

theorem search_cookie {b : Bool} {cookie : Cookie} {input : List Char} {rest : List Cookie}
    (hName : cookie.name = "refreshToken")
    (hRun : run refreshTokenPattern ⟨b, input, none⟩ =
      run tokenPattern ⟨b, cookie.pair.toList ++ Cookie.behind rest, none⟩) :
    firstGroup (search refreshTokenPattern b input) = some cookie.value := by
  obtain ⟨later, hToken⟩ := run_token hName rest
  rw [search_of_run (hRun.trans hToken)]
  exact congrArg some String.ofList_toList

theorem firstRefreshToken_cons {cookie : Cookie} (hName : cookie.name = "refreshToken")
    (rest : List Cookie) : firstRefreshToken (cookie :: rest) = some cookie.value := by
  rw [firstRefreshToken, List.find?_cons_of_pos (by simpa using hName)]
  rfl

theorem firstRefreshToken_cons_of_ne {cookie : Cookie} (hName : cookie.name ≠ "refreshToken")
    (rest : List Cookie) : firstRefreshToken (cookie :: rest) = firstRefreshToken rest := by
  rw [firstRefreshToken, List.find?_cons_of_neg (by simpa using hName)]
  rfl

/-- Behind a cookie the search goes from semicolon to semicolon. -/
theorem search_behind (cookies : List Cookie) :
    firstGroup (search refreshTokenPattern false (Cookie.behind cookies)) =
      firstRefreshToken cookies := by
  induction cookies with
  | nil => rfl
  | cons cookie rest ih =>
    have hRun := run_separator cookie (Cookie.behind rest)
    by_cases hName : cookie.name = "refreshToken"
    · rw [firstRefreshToken_cons hName]
      exact search_cookie hName hRun
    · have hSkipped : ∀ c ∈ ' ' :: cookie.pair.toList, c ≠ ';' :=
        List.forall_mem_cons.mpr ⟨by decide, cookie.pair_plain⟩
      have hSearch := search_append (fun c hc => run_inside (hSkipped c hc)) (Cookie.behind rest)
      rw [Cookie.behind, search_cons (hRun.trans (run_token_of_ne hName _)), ← List.cons_append,
        hSearch, ih, firstRefreshToken_cons_of_ne hName]

theorem search_header (cookie : Cookie) (rest : List Cookie) :
    firstGroup (search refreshTokenPattern true (cookie.pair.toList ++ Cookie.behind rest)) =
      firstRefreshToken (cookie :: rest) := by
  have hRun := run_start cookie (Cookie.behind rest)
  by_cases hName : cookie.name = "refreshToken"
  · rw [firstRefreshToken_cons hName]
    exact search_cookie hName hRun
  · obtain ⟨c, more, hPair, -⟩ := cookie.pair_cons
    have hNone := hRun.trans (run_token_of_ne hName (Cookie.behind rest))
    have hSkipped : ∀ d ∈ more, d ≠ ';' := fun d hd =>
      cookie.pair_plain d (hPair ▸ List.mem_cons_of_mem c hd)
    rw [hPair, List.cons_append] at hNone ⊢
    rw [search_cons hNone, search_append (fun d hd => run_inside (hSkipped d hd)),
      search_behind, firstRefreshToken_cons_of_ne hName]

theorem extract_cons (cookie : Cookie) (rest : List Cookie) :
    extractRefreshTokenFromCookies (some (Cookie.header (cookie :: rest))) =
      firstRefreshToken (cookie :: rest) := by
  have hSome : Cookie.header (cookie :: rest) ≠ "" := by
    intro hEmpty
    obtain ⟨c, more, hPair, -⟩ := cookie.pair_cons
    have hList := Cookie.toList_header cookie rest
    rw [hEmpty, hPair] at hList
    cases hList
  unfold extractRefreshTokenFromCookies
  simp only [hSome, if_false]
  rw [Cookie.toList_header]
  exact search_header cookie rest

/-- **The token in the header.** From the header of any cookies the resolver takes the value of
the first one that is named `refreshToken`, and nothing when there is none. -/
theorem extract_header (cookies : List Cookie) :
    extractRefreshTokenFromCookies (some (Cookie.header cookies)) =
      (cookies.find? fun cookie => cookie.name = "refreshToken").map Cookie.value := by
  cases cookies with
  | nil => rfl
  | cons cookie rest => exact extract_cons cookie rest

/-- The text occurs in a name and in a value before it is a name. -/
example : extractRefreshTokenFromCookies
    (some "myrefreshToken=a; b= refreshToken=c; refreshToken=d=e; refreshToken=f") =
    some "d=e" := by decide

/-! ## What is refreshed -/

/-- The token that the resolver goes on with. It is never empty. -/
theorem sent_token (cookies : List Cookie) :
    (extractRefreshTokenFromCookies (some (Cookie.header cookies))).filter
      (fun token => token ≠ "") = firstRefreshToken cookies := by
  cases cookies with
  | nil => rfl
  | cons cookie rest =>
    rw [extract_cons, firstRefreshToken]
    cases (cookie :: rest).find? fun cookie => cookie.name = "refreshToken" with
    | none => rfl
    | some first => exact Option.filter_some_pos (decide_eq_true first.value_nonempty)

section Refresh

variable [TokenRuntime] {cookies : List Cookie} (env : Env) (call : AuthService.RefreshCall)

/-- The first of the cookies that is named `refreshToken` is the one that is refreshed. -/
theorem refreshTokens_header {cookie : Cookie}
    (hFirst : (cookies.find? fun cookie => cookie.name = "refreshToken") = some cookie) :
    refreshTokens env (some (Cookie.header cookies)) call =
      AuthService.refreshTokens cookie.value call >>= fun tokens =>
        pure (refreshAnswer env tokens) := by
  unfold refreshTokens
  rw [sent_token, firstRefreshToken, hFirst]
  rfl

/-- Without a cookie of the name nothing is refreshed. -/
theorem refreshTokens_header_none (hNone : ∀ cookie ∈ cookies, cookie.name ≠ "refreshToken") :
    refreshTokens env (some (Cookie.header cookies)) call =
      throw (.unauthorized "Refresh token not found") := by
  have hFind : (cookies.find? fun cookie => cookie.name = "refreshToken") = none :=
    List.find?_eq_none.mpr fun cookie hCookie => by simpa using hNone cookie hCookie
  unfold refreshTokens
  rw [sent_token, firstRefreshToken, hFind]
  rfl

end Refresh

end AuthResolver

end Rooeel
