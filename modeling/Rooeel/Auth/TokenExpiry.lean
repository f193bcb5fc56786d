import Rooeel.Auth.Logout
import Mathlib.Algebra.Order.Ring.Int

/-!
# The two expiries of a refresh token

`generateTokens` gives the duration string of the configuration to `jwtService.sign`, where the
package `ms` reads it, and reads it again with `parseExpiry` for the row that it stores. The
readings agree on digits directly followed by one of the letters `s`, `m`, `h` and `d`
(`ShortForm`); every other duration is a quarter of an hour in the row (`refresh_expiry_iff`).
-/

namespace Rooeel.AuthService

open JavaScript Prog Table TokenRuntime

/-! ## Durations -/

/-- The number that digits write. -/
def decimal (digits : List Char) : Int :=
  digits.foldl (fun n d => 10 * n + (d.toNat - '0'.toNat)) 0

/-- The units of the package `ms`, in milliseconds. -/
def unitNames : List (List String × Int) :=
  [(["years", "year", "yrs", "yr", "y"], 31557600000),
    (["weeks", "week", "w"], 604800000),
    (["days", "day", "d"], 86400000),
    (["hours", "hour", "hrs", "hr", "h"], 3600000),
    (["minutes", "minute", "mins", "min", "m"], 60000),
    (["seconds", "second", "secs", "sec", "s"], 1000),
    (["milliseconds", "millisecond", "msecs", "msec", "ms", ""], 1)]

def unitMillis (unit : String) : Option Int :=
  (unitNames.find? fun u => unit ∈ u.1).map Prod.snd

/-- Digits, spaces and a unit. -/
def unsignedMillis (cs : List Char) : Option Int :=
  let digits := cs.takeWhile Char.isDigit
  let unit := (cs.dropWhile Char.isDigit).dropWhile fun c => c = ' '
  if digits = [] then none
  else (unitMillis (asciiLower (String.ofList unit))).map fun millis => decimal digits * millis

/-- The milliseconds that the package `ms` reads in a whole number with a unit. -/
def ms (expiresIn : String) : Option Int :=
  match expiresIn.toList with
  | '-' :: rest => (unsignedMillis rest).map fun millis => -millis
  | cs => unsignedMillis cs

/-- What `/^(\d+)([smhd])$/` matches. -/
def ShortForm (expiry : String) : Prop :=
  ∃ digits unit, expiry = String.ofList (digits ++ [unit]) ∧ digits ≠ [] ∧
    (∀ d ∈ digits, d.isDigit = true) ∧ unit ∈ ['s', 'm', 'h', 'd']

/-! ## The two readings of a duration -/

theorem parseExpiry_append {digits : List Char} (hSome : digits ≠ [])
    (hDigits : ∀ d ∈ digits, d.isDigit = true) {unit : Char} (hUnit : unit ∈ ['s', 'm', 'h', 'd']) :
    ∃ seconds, parseExpiry (String.ofList (digits ++ [unit])) = decimal digits * seconds ∧
      unitMillis (asciiLower (String.ofList [unit])) = some (seconds * 1000) := by
  obtain ⟨last, rest, hReverse⟩ := List.exists_cons_of_ne_nil (List.reverse_ne_nil_iff.mpr hSome)
  have hBack : (last :: rest).reverse = digits := by
    rw [← hReverse, List.reverse_reverse]
  have hAll : digits.all Char.isDigit = true := List.all_eq_true.mpr hDigits
  have hList : (String.ofList (digits ++ [unit])).toList.reverse = unit :: last :: rest := by
    rw [String.toList_ofList, List.reverse_append, hReverse]
    rfl
  unfold parseExpiry
  simp only [hList, hBack, hAll, if_true]
  rcases List.mem_cons.mp hUnit with rfl | hUnit
  · refine ⟨1, ?_, rfl⟩
    exact (mul_one (decimal digits)).symm
  rcases List.mem_cons.mp hUnit with rfl | hUnit
  · exact ⟨60, rfl, rfl⟩
  rcases List.mem_cons.mp hUnit with rfl | hUnit
  · refine ⟨60 * 60, ?_, rfl⟩
    exact mul_assoc (decimal digits) 60 60
  · rcases List.mem_singleton.mp hUnit with rfl
    refine ⟨60 * 60 * 24, ?_, rfl⟩
    change decimal digits * 60 * 60 * 24 = _
    rw [← mul_assoc, ← mul_assoc]

theorem digit_ne_dash {c : Char} (h : c.isDigit = true) : c ≠ '-' := by
  rintro rfl
  cases h

/-- A number without a sign is read from its digits. -/
theorem ms_append {digits unit : List Char} (hSome : digits ≠ [])
    (hDigits : ∀ d ∈ digits, d.isDigit = true)
    (hUnit : ∀ c ∈ unit, c.isDigit = false ∧ c ≠ ' ') :
    ms (String.ofList (digits ++ unit)) =
      (unitMillis (asciiLower (String.ofList unit))).map fun millis => decimal digits * millis := by
  have hTake : (digits ++ unit).takeWhile Char.isDigit = digits := by
    rw [List.takeWhile_append_of_pos hDigits]
    cases unit with
    | nil => exact List.append_nil digits
    | cons c rest =>
      rw [List.takeWhile_cons_of_neg (by rw [(hUnit c List.mem_cons_self).1]; decide),
        List.append_nil]
  have hDrop : ((digits ++ unit).dropWhile Char.isDigit).dropWhile (fun c => c = ' ') = unit := by
    rw [List.dropWhile_append_of_pos hDigits]
    cases unit with
    | nil => rfl
    | cons c rest =>
      obtain ⟨hDigit, hSpace⟩ := hUnit c List.mem_cons_self
      rw [List.dropWhile_cons_of_neg (by rw [hDigit]; decide),
        List.dropWhile_cons_of_neg (by simpa using hSpace)]
  have hUnsigned : ms (String.ofList (digits ++ unit)) = unsignedMillis (digits ++ unit) := by
    obtain ⟨first, rest, rfl⟩ := List.exists_cons_of_ne_nil hSome
    have hDash := digit_ne_dash (hDigits first List.mem_cons_self)
    unfold ms
    rw [String.toList_ofList, List.cons_append]
    split
    · rename_i hMatch
      exact absurd (List.cons.inj hMatch).1 hDash
    · rfl
  rw [hUnsigned]
  unfold unsignedMillis
  simp only [hTake, hDrop, hSome, if_false]

/-- A short form is read alike. -/
theorem ms_of_shortForm {expiry : String} (h : ShortForm expiry) :
    ms expiry = some (parseExpiry expiry * 1000) := by
  obtain ⟨digits, unit, rfl, hSome, hDigits, hUnit⟩ := h
  obtain ⟨seconds, hParse, hMillis⟩ := parseExpiry_append hSome hDigits hUnit
  have hLetter : ∀ c ∈ ['s', 'm', 'h', 'd'], c.isDigit = false ∧ c ≠ ' ' := by simp
  rw [ms_append hSome hDigits (by
    intro c hc
    rw [List.mem_singleton.mp hc]
    exact hLetter unit hUnit), hMillis, hParse, Option.map_some, mul_assoc]

/-- Everything else is a quarter of an hour for `parseExpiry`. -/
theorem parseExpiry_of_not_shortForm {expiry : String} (h : ¬ ShortForm expiry) :
    parseExpiry expiry = 900 := by
  by_contra hOther
  apply h
  unfold parseExpiry at hOther
  split at hOther
  · rename_i unit last rest hReverse
    dsimp only at hOther
    split at hOther
    · rename_i hAll
      refine ⟨(last :: rest).reverse, unit, ?_, ?_, List.all_eq_true.mp hAll, ?_⟩
      · rw [← List.reverse_cons, ← hReverse, List.reverse_reverse, String.ofList_toList]
      · exact fun hNil => List.cons_ne_nil _ _ (List.reverse_eq_nil_iff.mp hNil)
      · split at hOther
        · decide
        · decide
        · decide
        · decide
        · exact absurd rfl hOther
    · exact absurd rfl hOther
  · exact absurd rfl hOther

/-! ## The clock -/

/-- The package takes the second in which it signs and adds the whole seconds of the duration. -/
class LawfulExpiry [TokenRuntime] [DecodeRuntime] : Prop where
  exp : ∀ payload expiresIn signedAt millis, ms expiresIn = some millis →
    ∃ decoded, DecodeRuntime.decode (sign payload expiresIn signedAt) = some decoded ∧
      decoded.exp = (signedAt / 1000 * 1000 + millis) / 1000

/-- The seconds of the clock that begin after the token is signed and before the row is made. -/
def RefreshCall.ticks (call : RefreshCall) : Int := call.storedAt / 1000 - call.signedAt / 1000

/-- `expiresAt`, in milliseconds, differs from the claim `exp` by less than a second. -/
def WithinSecond (expiresAt exp : Int) : Prop := |expiresAt - exp * 1000| < 1000

/-- The duration is in short form, or it happens to be the quarter of an hour; the time between
signing and storing comes on top. -/
def SameDuration (expiry : String) (millis ticks : Int) : Prop :=
  (ShortForm expiry ∧ ticks = 0) ∨ (¬ ShortForm expiry ∧ millis / 1000 = 900 + ticks)

theorem sameDuration_iff {expiry : String} {millis : Int} (h : ms expiry = some millis)
    (ticks : Int) :
    SameDuration expiry millis ticks ↔ millis / 1000 = parseExpiry expiry + ticks := by
  by_cases hShort : ShortForm expiry
  · have hMillis := Option.some.inj (h.symm.trans (ms_of_shortForm hShort))
    have hDiv : millis / 1000 = parseExpiry expiry := by omega
    rw [hDiv]
    constructor
    · rintro (⟨-, hTicks⟩ | ⟨hLong, -⟩)
      · omega
      · exact absurd hShort hLong
    · intro hSum
      exact .inl ⟨hShort, by omega⟩
  · rw [parseExpiry_of_not_shortForm hShort]
    constructor
    · rintro (⟨h', -⟩ | ⟨-, hSum⟩)
      · exact absurd h' hShort
      · exact hSum
    · intro hSum
      exact .inr ⟨hShort, hSum⟩

/-- Times that are given by seconds are within a second when the seconds are equal, or when the
first is a broken part of a second early. -/
theorem withinSecond_iff (expiresAt exp : Int) :
    WithinSecond expiresAt exp ↔
      exp = expiresAt / 1000 ∨ (exp = expiresAt / 1000 + 1 ∧ expiresAt % 1000 ≠ 0) := by
  unfold WithinSecond
  rw [abs_lt]
  omega

theorem withinSecond_after_iff (expiresAt exp : Int) :
    WithinSecond expiresAt exp ∧ exp * 1000 ≤ expiresAt ↔ exp = expiresAt / 1000 := by
  unfold WithinSecond
  rw [abs_lt]
  omega

/-! ## The row and the token -/

/-- **The expiry of the row and of the token.** For every duration that the signing library
accepts, they differ by less than a second exactly when the duration is the same in both readings,
or when the row is early by a part of a second; and the row then expires no sooner than the token
exactly when the duration is the same. -/
theorem refresh_expiry_iff [TokenRuntime] [DecodeRuntime] [LawfulExpiry] {call : RefreshCall}
    {user : TokenUser} {s s' : Store} {pair : TokenPair} {millis : Int}
    (hMillis : ms (orDefault jwtRefreshExpiry "7d") = some millis)
    (hRun : (generateTokens call user).run s = (.ok pair, s')) :
    ∃ row decoded, s'.refreshToken.rows = s.refreshToken.rows ++ [row] ∧
      row.token = sha256 pair.refreshToken ∧
      DecodeRuntime.decode pair.refreshToken = some decoded ∧
      (WithinSecond row.expiresAt decoded.exp ↔
        SameDuration (orDefault jwtRefreshExpiry "7d") millis call.ticks ∨
        (SameDuration (orDefault jwtRefreshExpiry "7d") millis (call.ticks + 1) ∧
          call.storedAt % 1000 ≠ 0)) ∧
      (WithinSecond row.expiresAt decoded.exp ∧ decoded.exp * 1000 ≤ row.expiresAt ↔
        SameDuration (orDefault jwtRefreshExpiry "7d") millis call.ticks) := by
  obtain ⟨rfl, hRows⟩ := generateTokens_ok hRun
  obtain ⟨decoded, hDecode, hExp⟩ :=
    LawfulExpiry.exp (claims call user "refresh") _ call.signedAt millis hMillis
  refine ⟨_, decoded, hRows, rfl, hDecode, ?_, ?_⟩
  · rw [withinSecond_iff, sameDuration_iff hMillis, sameDuration_iff hMillis, hExp]
    simp only [issuedRow, expiryOf, RefreshCall.ticks]
    omega
  · rw [withinSecond_after_iff, sameDuration_iff hMillis, hExp]
    simp only [issuedRow, expiryOf, RefreshCall.ticks]
    omega

section Site

/-- A sign and digits. -/
def printSeconds (exp : Int) : List Char :=
  (if exp < 0 then '-' else '+') :: Nat.toDigits 10 exp.natAbs

def readSeconds : List Char → Option Int
  | [] => none
  | sign :: digits =>
    let seconds : Int := Nat.ofDigitChars 10 digits 0
    some (if sign = '-' then -seconds else seconds)

theorem printSeconds_chars (exp : Int) : ∀ c ∈ printSeconds exp, (c != '.') = true := by
  intro c hc
  rcases List.mem_cons.mp hc with rfl | hDigit
  · split
    · decide
    · decide
  · have hIsDigit := Nat.isDigit_of_mem_toDigits (by decide) (by decide) hDigit
    rw [bne_iff_ne]
    rintro rfl
    cases hIsDigit

theorem readSeconds_printSeconds (exp : Int) : readSeconds (printSeconds exp) = some exp := by
  simp only [readSeconds, printSeconds, Nat.ofDigitChars_ten_toDigits]
  by_cases hSign : exp < 0
  · simp only [hSign, if_true]
    exact congrArg some (by omega)
  · rw [if_neg hSign, if_neg (by decide)]
    exact congrArg some (by omega)

/-- What stands behind the first dot. -/
def afterDot (cs : List Char) : List Char := (cs.dropWhile fun c => c != '.').drop 1

/-- Signing that writes the expiry in front of the type and the random id. -/
abbrev printedTokens (jwtRefreshExpiry : Option String) : TokenRuntime where
  verify _ _ := none
  sign payload expiresIn signedAt :=
    String.ofList (printSeconds ((signedAt / 1000 * 1000 + (ms expiresIn).getD 0) / 1000) ++
      '.' :: (payload.type ++ "." ++ payload.jti).toList)
  sha256 token := "#" ++ token
  jwtAccessExpiry := none
  jwtRefreshExpiry := jwtRefreshExpiry

abbrev printedClaims : DecodeRuntime where
  decode token :=
    (readSeconds (token.toList.takeWhile fun c => c != '.')).map fun exp =>
      { jti := String.ofList (afterDot (afterDot token.toList)), exp }

theorem decode_printed (exp : Int) (rest : List Char) :
    ∃ jti, printedClaims.decode (String.ofList (printSeconds exp ++ '.' :: rest)) =
      some { jti, exp } := by
  have hTake : (printSeconds exp ++ '.' :: rest).takeWhile (fun c => c != '.') =
      printSeconds exp := by
    rw [List.takeWhile_append_of_pos (printSeconds_chars exp)]
    exact List.append_nil _
  refine ⟨String.ofList (afterDot (afterDot (printSeconds exp ++ '.' :: rest))), ?_⟩
  change (readSeconds ((String.ofList _).toList.takeWhile _)).map _ = _
  rw [String.toList_ofList, hTake, readSeconds_printSeconds]
  rfl

theorem lawful_printedTokens (jwtRefreshExpiry : Option String) :
    @LawfulExpiry (printedTokens jwtRefreshExpiry) printedClaims := by
  refine @LawfulExpiry.mk (printedTokens jwtRefreshExpiry) printedClaims ?_
  intro payload expiresIn signedAt millis hMillis
  obtain ⟨jti, hDecode⟩ := decode_printed ((signedAt / 1000 * 1000 + millis) / 1000)
    (payload.type ++ "." ++ payload.jti).toList
  refine ⟨{ jti, exp := (signedAt / 1000 * 1000 + millis) / 1000 }, ?_, rfl⟩
  change printedClaims.decode (String.ofList (printSeconds
    ((signedAt / 1000 * 1000 + (ms expiresIn).getD 0) / 1000) ++ _)) = _
  rw [hMillis]
  exact hDecode

/-- The session of a member that is stored in the second in which it is signed. -/
def promptCall : RefreshCall := ⟨"1", 0, 0, 0, 999100, 999900, 0, 999900⟩

def memberUser : TokenUser := ⟨1, "ben@site", "user"⟩

section Week

abbrev weekTokens : TokenRuntime := printedTokens (some "7d")

attribute [local instance] weekTokens printedClaims

/-- Seven days are read alike. -/
theorem refresh_expiry_week :
    ∃ row decoded, row ∈ ((generateTokens promptCall memberUser).run site).2.refreshToken.rows ∧
      DecodeRuntime.decode (issuedPair promptCall memberUser).refreshToken = some decoded ∧
      WithinSecond row.expiresAt decoded.exp ∧ decoded.exp * 1000 ≤ row.expiresAt := by
  have hRun : (generateTokens promptCall memberUser).run site =
    (.ok (issuedPair promptCall memberUser), _) := rfl
  have hMillis : ms (orDefault TokenRuntime.jwtRefreshExpiry "7d") = some 604800000 := by decide
  have hLawful : LawfulExpiry := lawful_printedTokens (some "7d")
  obtain ⟨row, decoded, hRows, -, hDecode, -, hAfter⟩ := refresh_expiry_iff hMillis hRun
  have hShort : ShortForm "7d" := ⟨['7'], 'd', rfl, by decide, by simp, by decide⟩
  refine ⟨row, decoded, ?_, hDecode, hAfter.mpr (.inl ⟨hShort, rfl⟩)⟩
  rw [hRun, hRows]
  exact List.mem_append_right _ (List.mem_singleton_self row)

end Week

section Fortnight

abbrev fortnightTokens : TokenRuntime := printedTokens (some "2w")

attribute [local instance] fortnightTokens printedClaims

/-- Two weeks are a quarter of an hour in the row. -/
theorem refresh_row_of_fortnight :
    ms "2w" = some 1209600000 ∧
    ∃ row decoded, row ∈ ((generateTokens promptCall memberUser).run site).2.refreshToken.rows ∧
      row.token = TokenRuntime.sha256 (issuedPair promptCall memberUser).refreshToken ∧
      DecodeRuntime.decode (issuedPair promptCall memberUser).refreshToken = some decoded ∧
      row.expiresAt = 1899900 ∧ decoded.exp = 1210599 ∧
      ¬ WithinSecond row.expiresAt decoded.exp := by
  have hDecode : DecodeRuntime.decode (issuedPair promptCall memberUser).refreshToken =
    some ⟨"1", 1210599⟩ := rfl
  refine ⟨by decide, issuedRow promptCall memberUser 1, ⟨"1", 1210599⟩, List.mem_singleton_self _,
    rfl, hDecode, rfl, rfl, ?_⟩
  unfold WithinSecond
  decide

end Fortnight

end Site

end Rooeel.AuthService
