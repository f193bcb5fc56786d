import Mathlib.Data.Rat.Defs
import Mathlib.Data.List.Basic
import Mathlib.Data.List.TakeWhile

/-!
# Values and library functions of the source language

Strings are `String`, JSON documents are `Json`, and a value that may be absent is an
`Option` (`none` is `undefined`). `trim` and the truth tests are written out. The parts of
the standard library that are tables or floating-point algorithms (case mappings outside
ASCII, `JSON.parse`, the printing and reading of numbers, collation) are the fields of `Runtime`;
nothing is assumed of them except that case mappings act on ASCII strings as they should.
-/

namespace JavaScript

/-! ## Strings -/

/-- White space and line terminators, as `trim` and `\s` understand them. -/
def isSpace (c : Char) : Bool :=
  let n := c.toNat
  (9 ≤ n && n ≤ 13) || n == 0x20 || n == 0xa0 || n == 0x1680 || (0x2000 ≤ n && n ≤ 0x200a) ||
    n == 0x2028 || n == 0x2029 || n == 0x202f || n == 0x205f || n == 0x3000 || n == 0xfeff

/-- The characters that `.` does not match in a regular expression. -/
def isLineTerminator (c : Char) : Bool :=
  let n := c.toNat
  n == 10 || n == 13 || n == 0x2028 || n == 0x2029

def trimList (cs : List Char) : List Char :=
  ((cs.dropWhile isSpace).reverse.dropWhile isSpace).reverse

def trim (s : String) : String := String.ofList (trimList s.toList)

theorem trim_empty : trim "" = "" := rfl

def isAscii (s : String) : Bool := s.toList.all fun c => c.toNat < 128

def upperChar (c : Char) : Char :=
  if 97 ≤ c.toNat ∧ c.toNat ≤ 122 then Char.ofNat (c.toNat - 32) else c

def lowerChar (c : Char) : Char :=
  if 65 ≤ c.toNat ∧ c.toNat ≤ 90 then Char.ofNat (c.toNat + 32) else c

def asciiUpper (s : String) : String := String.ofList (s.toList.map upperChar)

def asciiLower (s : String) : String := String.ofList (s.toList.map lowerChar)

theorem trim_of_no_space {s : String} (h : ∀ c ∈ s.toList, isSpace c = false) : trim s = s := by
  have hDrop : ∀ cs : List Char, (∀ c ∈ cs, isSpace c = false) → cs.dropWhile isSpace = cs := by
    intro cs hcs
    cases cs with
    | nil => rfl
    | cons c rest => rw [List.dropWhile_cons_of_neg (by simp [hcs c (by simp)])]
  have hReverse : s.toList.reverse.dropWhile isSpace = s.toList.reverse :=
    hDrop _ fun c hc => h c (List.mem_reverse.mp hc)
  rw [trim, trimList, hDrop _ h, hReverse, List.reverse_reverse, String.ofList_toList]

theorem trimList_within (cs : List Char) : trimList cs <:+: cs := by
  have hFront : cs.dropWhile isSpace <:+ cs := List.dropWhile_suffix _
  have hBack : trimList cs <+: cs.dropWhile isSpace := by
    have hSuffix := List.dropWhile_suffix (l := (cs.dropWhile isSpace).reverse) isSpace
    have hPrefix := List.reverse_prefix.mpr hSuffix
    rwa [List.reverse_reverse] at hPrefix
  exact hBack.isInfix.trans hFront.isInfix

theorem head_dropWhile {cs rest : List Char} {c : Char} (h : cs.dropWhile isSpace = c :: rest) :
    isSpace c = false := by
  have hHead := List.head?_dropWhile_not isSpace cs
  rw [h] at hHead
  exact hHead

/-- A list that neither begins nor ends with white space. -/
structure Trimmed (cs : List Char) : Prop where
  first : ∀ c rest, cs = c :: rest → isSpace c = false
  last : ∀ c rest, cs.reverse = c :: rest → isSpace c = false

theorem trimmed_trimList (cs : List Char) : Trimmed (trimList cs) where
  first := by
    intro c rest hFirst
    have hSuffix := List.dropWhile_suffix (l := (cs.dropWhile isSpace).reverse) isSpace
    obtain ⟨after, hPrefix⟩ := List.reverse_prefix.mpr hSuffix
    have hHead : cs.dropWhile isSpace = c :: (rest ++ after) := by
      rw [List.reverse_reverse] at hPrefix
      rw [← hPrefix, ← List.cons_append, ← hFirst, trimList]
    exact head_dropWhile hHead
  last := by
    intro c rest hLast
    rw [trimList, List.reverse_reverse] at hLast
    exact head_dropWhile hLast

/-- White space around a list that is trimmed. -/
theorem trimList_surrounded {before cs after : List Char} (hTrimmed : Trimmed cs)
    (hBefore : ∀ c ∈ before, isSpace c = true) (hAfter : ∀ c ∈ after, isSpace c = true) :
    trimList (before ++ cs ++ after) = cs := by
  have hDrop {pre : List Char} (rest : List Char) (hPre : ∀ c ∈ pre, isSpace c = true) :
      (pre ++ rest).dropWhile isSpace = rest.dropWhile isSpace := by
    rw [List.dropWhile_append, if_pos]
    rw [List.isEmpty_iff, List.dropWhile_eq_nil_iff]
    exact hPre
  have hKeep {cs : List Char} (rest : List Char)
      (hFirst : ∀ c rest, cs = c :: rest → isSpace c = false) (hCons : cs ≠ []) :
      (cs ++ rest).dropWhile isSpace = cs ++ rest := by
    cases cs with
    | nil => exact absurd rfl hCons
    | cons c cs =>
        rw [List.cons_append, List.dropWhile_cons_of_neg]
        rw [hFirst c cs rfl]
        exact Bool.false_ne_true
  have hReverse : ∀ c ∈ after.reverse, isSpace c = true :=
    fun c hc => hAfter c (List.mem_reverse.mp hc)
  rw [trimList, List.append_assoc, hDrop _ hBefore]
  by_cases hEmpty : cs = []
  · rw [hEmpty, List.nil_append, List.dropWhile_eq_nil_iff.mpr hAfter]
    rfl
  · have hLast : (cs.reverse ++ []).dropWhile isSpace = cs.reverse ++ [] :=
      hKeep [] hTrimmed.last (List.reverse_ne_nil_iff.mpr hEmpty)
    rw [hKeep after hTrimmed.first hEmpty, List.reverse_append, hDrop _ hReverse,
      ← List.append_nil cs.reverse, hLast, List.append_nil, List.reverse_reverse]

theorem trimList_of_trimmed {cs : List Char} (h : Trimmed cs) : trimList cs = cs := by
  have hAround : trimList ([] ++ cs ++ []) = cs := trimList_surrounded h nofun nofun
  rwa [List.nil_append, List.append_nil] at hAround

instance : DecidablePred Trimmed := fun cs =>
  decidable_of_iff (trimList cs = cs)
    ⟨fun h => h ▸ trimmed_trimList cs, fun h => trimList_of_trimmed h⟩

theorem asciiUpper_of_no_small {s : String}
    (h : ∀ c ∈ s.toList, ¬ (97 ≤ c.toNat ∧ c.toNat ≤ 122)) : asciiUpper s = s := by
  have hMap : s.toList.map upperChar = s.toList := by
    refine (List.map_congr_left fun c hc => ?_).trans (List.map_id _)
    rw [upperChar, if_neg (h c hc), id]
  rw [asciiUpper, hMap, String.ofList_toList]

/-! ## Dates -/

/-- A number in decimal, filled up with zeros. -/
def padded (width n : Nat) : List Char :=
  List.replicate (width - (Nat.toDigits 10 n).length) '0' ++ Nat.toDigits 10 n

/-- The year, the month and the day of a day that is counted from 1970-01-01. -/
def civilDate (day : Int) : Int × Nat × Nat :=
  -- years begin in March here, and eras of 400 years have the same number of days
  let shifted := day + 719468
  let era := shifted / 146097
  let dayOfEra := (shifted % 146097).toNat
  let yearOfEra := (dayOfEra - dayOfEra / 1460 + dayOfEra / 36524 - dayOfEra / 146096) / 365
  let dayOfYear := dayOfEra - (365 * yearOfEra + yearOfEra / 4 - yearOfEra / 100)
  let monthIndex := (5 * dayOfYear + 2) / 153
  let dayOfMonth := dayOfYear - (153 * monthIndex + 2) / 5 + 1
  let month := if monthIndex < 10 then monthIndex + 3 else monthIndex - 9
  (yearOfEra + era * 400 + (if month ≤ 2 then 1 else 0), month, dayOfMonth)

/-- The year as `toISOString` writes it: with a sign when it does not have four digits. -/
def isoYear (year : Int) : List Char :=
  if 0 ≤ year ∧ year ≤ 9999 then padded 4 year.toNat
  else (if year < 0 then '-' else '+') :: padded 6 year.natAbs

/-- `new Date(now).toISOString().split('T')[0]`, of a time in milliseconds. -/
def isoDate (now : Int) : String :=
  let (year, month, day) := civilDate (now / 86400000)
  String.ofList (isoYear year ++ '-' :: padded 2 month ++ '-' :: padded 2 day)

theorem padded_digits (width n : Nat) : ∀ c ∈ padded width n, c.isDigit = true := by
  intro c hc
  rcases List.mem_append.mp hc with hZero | hDigit
  · rw [(List.mem_replicate.mp hZero).2]
    rfl
  · exact Nat.isDigit_of_mem_toDigits (by decide) (by decide) hDigit

/-- The characters of a date. -/
theorem isoDate_chars (now : Int) :
    ∀ c ∈ (isoDate now).toList, c.isDigit = true ∨ c = '-' ∨ c = '+' := by
  intro c hc
  have hYear (year : Int) : ∀ c ∈ isoYear year, c.isDigit = true ∨ c = '-' ∨ c = '+' := by
    intro c hc
    unfold isoYear at hc
    split at hc
    · exact Or.inl (padded_digits _ _ c hc)
    · rcases List.mem_cons.mp hc with hSign | hDigit
      · rw [hSign]
        split
        · exact Or.inr (Or.inl rfl)
        · exact Or.inr (Or.inr rfl)
      · exact Or.inl (padded_digits _ _ c hDigit)
  simp only [isoDate, String.toList_ofList, List.mem_append, List.mem_cons] at hc
  rcases hc with (hc | hDash | hc) | hDash | hc
  · exact hYear _ c hc
  · exact Or.inr (Or.inl hDash)
  · exact Or.inl (padded_digits _ _ c hc)
  · exact Or.inr (Or.inl hDash)
  · exact Or.inl (padded_digits _ _ c hc)

example : isoDate 1767225599999 = "2025-12-31" ∧ isoDate (-1) = "1969-12-31" := by decide

/-! ## Numbers and JSON documents -/

/-- A number. The two zeros are one: no operation used here tells them apart. -/
inductive Number where
  | finite (q : Rat)
  | infinite (negative : Bool)
  | nan
  deriving DecidableEq

/-- An integer as a number. -/
def Number.ofInt (n : Int) : Number := .finite n

/-- The number is neither infinite nor `NaN`. -/
def Number.isFinite : Number → Bool
  | .finite _ => true
  | _ => false

theorem Number.ofInt_inj {m n : Int} (h : Number.ofInt m = Number.ofInt n) : m = n := by
  simpa [Number.ofInt] using h

/-- A JSON document; the fields of an object are a `Record`. -/
inductive Json where
  | null
  | bool (b : Bool)
  | num (n : Number)
  | str (s : String)
  | arr (xs : List Json)
  | obj (fields : List (String × Json))

/-! ## Plain objects -/

/-- A plain object with values of `α`: its keys in the order of insertion. A repeated key
counts where it stands first. -/
abbrev Record (α : Type) := List (String × α)

namespace Record

variable {α : Type}

/-- `fields[key]`. -/
def get (fields : Record α) (key : String) : Option α := fields.lookup key

/-- `{ ...fields, [key]: v }`, and the object after `fields[key] = v`. -/
def set (fields : Record α) (key : String) (v : α) : Record α :=
  match fields with
  | [] => [(key, v)]
  | (k, w) :: rest => if key == k then (k, v) :: rest else (k, w) :: set rest key v

theorem get_cons_self (key : String) (v : α) (rest : Record α) :
    get ((key, v) :: rest) key = some v := by
  simp [get]

theorem get_cons_of_ne {key other : String} (hne : other ≠ key) (v : α) (rest : Record α) :
    get ((key, v) :: rest) other = get rest other := by
  have hFalse : (other == key) = false := by simpa using hne
  simp [get, List.lookup_cons, hFalse]

@[simp] theorem get_set_self (fields : Record α) (key : String) (v : α) :
    get (set fields key v) key = some v := by
  induction fields with
  | nil => exact get_cons_self key v []
  | cons entry rest ih =>
      obtain ⟨k, w⟩ := entry
      unfold set
      split
      · rename_i hk
        have hEq : key = k := by simpa using hk
        rw [hEq, get_cons_self]
      · rename_i hk
        have hne : key ≠ k := by simpa using hk
        rw [get_cons_of_ne hne, ih]

theorem mem_of_get {fields : Record α} {key : String} {v : α} (h : get fields key = some v) :
    (key, v) ∈ fields := by
  induction fields with
  | nil => cases h
  | cons entry rest ih =>
      obtain ⟨k, w⟩ := entry
      by_cases hk : key = k
      · rw [hk, get_cons_self] at h
        rw [hk, Option.some.inj h]
        exact List.mem_cons_self
      · rw [get_cons_of_ne hk] at h
        exact List.mem_cons_of_mem _ (ih h)

theorem get_set_of_ne (fields : Record α) {key other : String} (v : α) (hne : other ≠ key) :
    get (set fields key v) other = get fields other := by
  induction fields with
  | nil => exact get_cons_of_ne hne v []
  | cons entry rest ih =>
      obtain ⟨k, w⟩ := entry
      unfold set
      split
      · rename_i hk
        have hEq : key = k := by simpa using hk
        rw [← hEq, get_cons_of_ne hne, get_cons_of_ne hne]
      · by_cases ho : other = k
        · rw [ho, get_cons_self, get_cons_self]
        · rw [get_cons_of_ne ho, get_cons_of_ne ho, ih]

end Record

/-! ## Documents in the database -/

mutual

/-- The document that a JSON column gives back. Numbers that JSON cannot write, which are those
that overflow when they are read (`1e400`), are stored as `null`. -/
def Json.stored : Json → Json
  | .null => .null
  | .bool b => .bool b
  | .num n => if n.isFinite then .num n else .null
  | .str s => .str s
  | .arr xs => .arr (storedAll xs)
  | .obj fields => .obj (storedFields fields)

def storedAll : List Json → List Json
  | [] => []
  | x :: xs => x.stored :: storedAll xs

def storedFields : List (String × Json) → List (String × Json)
  | [] => []
  | (key, x) :: rest => (key, x.stored) :: storedFields rest

end

mutual

/-- All numbers in the document are finite. -/
def Json.isFinite : Json → Bool
  | .num n => n.isFinite
  | .arr xs => allFinite xs
  | .obj fields => allFieldsFinite fields
  | _ => true

def allFinite : List Json → Bool
  | [] => true
  | x :: xs => x.isFinite && allFinite xs

def allFieldsFinite : List (String × Json) → Bool
  | [] => true
  | (_, x) :: rest => x.isFinite && allFieldsFinite rest

end

mutual

/-- **Finite documents come back as they are**, and no others. -/
theorem Json.stored_eq_self_iff : ∀ v : Json, v.stored = v ↔ v.isFinite = true
  | .null | .bool _ | .str _ => by simp [Json.stored, Json.isFinite]
  | .num n => by
      cases n <;> simp [Json.stored, Json.isFinite, Number.isFinite]
  | .arr xs => by
      rw [Json.stored, Json.isFinite, Json.arr.injEq, storedAll_eq_self_iff xs]
  | .obj fields => by
      rw [Json.stored, Json.isFinite, Json.obj.injEq, storedFields_eq_self_iff fields]

theorem storedAll_eq_self_iff : ∀ xs : List Json, storedAll xs = xs ↔ allFinite xs = true
  | [] => by simp [storedAll, allFinite]
  | x :: xs => by
      rw [storedAll, allFinite, List.cons.injEq, x.stored_eq_self_iff, storedAll_eq_self_iff xs,
        Bool.and_eq_true]

theorem storedFields_eq_self_iff : ∀ fields : List (String × Json),
    storedFields fields = fields ↔ allFieldsFinite fields = true
  | [] => by simp [storedFields, allFieldsFinite]
  | (key, x) :: rest => by
      rw [storedFields, allFieldsFinite, List.cons.injEq, Prod.mk.injEq, x.stored_eq_self_iff,
        storedFields_eq_self_iff rest, Bool.and_eq_true, eq_self, true_and]

end

mutual

theorem Json.isFinite_stored : ∀ v : Json, v.stored.isFinite = true
  | .null | .bool _ | .str _ => rfl
  | .num n => by cases n <;> rfl
  | .arr xs => by rw [Json.stored, Json.isFinite, allFinite_storedAll xs]
  | .obj fields => by rw [Json.stored, Json.isFinite, allFieldsFinite_storedFields fields]

theorem allFinite_storedAll : ∀ xs : List Json, allFinite (storedAll xs) = true
  | [] => rfl
  | x :: xs => by
      rw [storedAll, allFinite, x.isFinite_stored, allFinite_storedAll xs, Bool.and_self]

theorem allFieldsFinite_storedFields : ∀ fields : List (String × Json),
    allFieldsFinite (storedFields fields) = true
  | [] => rfl
  | (key, x) :: rest => by
      rw [storedFields, allFieldsFinite, x.isFinite_stored, allFieldsFinite_storedFields rest,
        Bool.and_self]

end

/-- Storing what was read changes nothing more. -/
theorem Json.stored_stored (v : Json) : v.stored.stored = v.stored :=
  v.stored.stored_eq_self_iff.mpr v.isFinite_stored

theorem Record.get_storedFields (fields : Record Json) (key : String) :
    Record.get (storedFields fields) key = (Record.get fields key).map Json.stored := by
  induction fields with
  | nil => rfl
  | cons entry rest ih =>
      obtain ⟨k, v⟩ := entry
      rw [storedFields]
      by_cases hk : key = k
      · rw [hk, get_cons_self, get_cons_self, Option.map_some]
      · rw [get_cons_of_ne hk, get_cons_of_ne hk, ih]

theorem storedFields_set (fields : Record Json) (key : String) (v : Json) :
    storedFields (Record.set fields key v) = Record.set (storedFields fields) key v.stored := by
  induction fields with
  | nil => rfl
  | cons entry rest ih =>
      obtain ⟨k, w⟩ := entry
      rw [storedFields, Record.set, Record.set]
      split
      · rw [storedFields]
      · rw [storedFields, ih]

/-! ## Dates -/

/-- A `Date` can hold the time, in milliseconds; it is invalid for any other. -/
def isDate (time : Int) : Bool := -8640000000000000 ≤ time && time ≤ 8640000000000000

/-! ## The runtime -/

/-- The library functions that are not written out. -/
class Runtime where
  toUpperCase : String → String
  toLowerCase : String → String
  /-- `JSON.parse`; `none` is the exception. -/
  parseJson : String → Option Json
  stringifyJson : Json → String
  /-- `String(n)` of a number. -/
  printNumber : Number → String
  /-- `Number(s)` of a string. -/
  readNumber : String → Number
  localeCompare : String → String → Int
  toUpperCase_ascii : ∀ s, isAscii s = true → toUpperCase s = asciiUpper s
  toLowerCase_ascii : ∀ s, isAscii s = true → toLowerCase s = asciiLower s
  /-- `JSON.stringify` writes no number that overflows when it is read. -/
  stringifyJson_finite : ∀ v w, parseJson (stringifyJson v) = some w → w.isFinite = true

export Runtime (toUpperCase toLowerCase localeCompare)
export Runtime (parseJson stringifyJson printNumber readNumber)

variable [Runtime]

mutual

/-- `String(v)` of a JSON value; `none` is the exception. An object has the method `toString`
of all objects, unless a field of its own, which is never a method, takes its place. -/
def toText : Json → Option String
  | .null => some "null"
  | .bool b => some (if b then "true" else "false")
  | .num n => some (printNumber n)
  | .str s => some s
  | .arr xs => (toTexts xs).map (String.intercalate ",")
  | .obj fields =>
    match Record.get fields "toString" with
    | some _ => none
    | none => some "[object Object]"

/-- The elements of an array as `String` joins them: `null` is empty. -/
def toTexts : List Json → Option (List String)
  | [] => some []
  | .null :: xs => (toTexts xs).map ("" :: ·)
  | x :: xs => (toText x).bind fun text => (toTexts xs).map (text :: ·)

end

/-- `Number(v)` of a JSON value; `none` is the exception. Arrays and objects are numbers by their
texts. -/
def toNumber : Json → Option Number
  | .null => some (.ofInt 0)
  | .bool b => some (.ofInt (if b then 1 else 0))
  | .num n => some n
  | .str s => some (readNumber s)
  | .arr xs => (toText (.arr xs)).map readNumber
  | .obj fields => (toText (.obj fields)).map readNumber

/-- The truth value of a JSON value. -/
def truthy : Json → Bool
  | .null => false
  | .bool b => b
  | .num n => n != .ofInt 0 && n != .nan
  | .str s => s != ""
  | .arr _ => true
  | .obj _ => true

/-- `v ?? w`: `null` and `undefined` are replaced. -/
def coalesce : Option Json → Option Json → Option Json
  | none, w => w
  | some .null, w => w
  | some v, _ => some v

theorem toUpperCase_empty : toUpperCase "" = "" := Runtime.toUpperCase_ascii "" rfl

/-! ## Lists -/

/-- `xs.filter(test)`, when the test may throw; `none` is the exception. -/
def filterOrThrow {α : Type} (test : α → Option Bool) : List α → Option (List α)
  | [] => some []
  | x :: xs => (test x).bind fun keep =>
    (filterOrThrow test xs).map fun kept => if keep then x :: kept else kept

omit [Runtime] in
/-- Nothing is thrown when no test throws, and the list is filtered then. -/
theorem filterOrThrow_eq_some_iff {α : Type} {test : α → Option Bool} {xs kept : List α} :
    filterOrThrow test xs = some kept ↔
      (∀ x ∈ xs, (test x).isSome = true) ∧ kept = xs.filter fun x => test x == some true := by
  induction xs generalizing kept with
  | nil => exact ⟨fun h => ⟨nofun, (Option.some.inj h).symm⟩, fun h => congrArg some h.2.symm⟩
  | cons x xs ih =>
      rw [filterOrThrow, List.forall_mem_cons]
      cases hTest : test x with
      | none =>
          rw [Option.bind_none]
          exact iff_of_false nofun fun h => Bool.false_ne_true h.1.1
      | some keep =>
          have hFilter : (x :: xs).filter (fun x => test x == some true) =
              if keep = true then x :: xs.filter fun x => test x == some true
              else xs.filter fun x => test x == some true := by
            cases keep <;> simp [hTest]
          rw [Option.bind_some, Option.map_eq_some_iff, hFilter]
          constructor
          · rintro ⟨rest, hRest, rfl⟩
            obtain ⟨hAll, rfl⟩ := ih.mp hRest
            exact ⟨⟨rfl, hAll⟩, rfl⟩
          · rintro ⟨⟨-, hAll⟩, rfl⟩
            exact ⟨_, ih.mpr ⟨hAll, rfl⟩, rfl⟩

omit [Runtime] in
theorem filterOrThrow_isSome_iff {α : Type} {test : α → Option Bool} {xs : List α} :
    (filterOrThrow test xs).isSome = true ↔ ∀ x ∈ xs, (test x).isSome = true := by
  rw [Option.isSome_iff_exists]
  constructor
  · rintro ⟨kept, hKept⟩
    exact (filterOrThrow_eq_some_iff.mp hKept).1
  · intro h
    exact ⟨_, filterOrThrow_eq_some_iff.mpr ⟨h, rfl⟩⟩

/-! ## A runtime for ASCII programs -/

namespace Ascii

/-- Integers are printed in decimal; other numbers do not occur. -/
def printNumber : Number → String
  | .finite q => toString q.num
  | .infinite negative => if negative then "-Infinity" else "Infinity"
  | .nan => "NaN"

def readNumber (s : String) : Number :=
  if trim s = "" then .ofInt 0
  else match (trim s).toInt? with
    | some n => .ofInt n
    | none => .nan

/-- The scalar documents without strings; everything else is taken to be malformed. -/
def parseJson (s : String) : Option Json :=
  if s = "null" then some .null
  else if s = "true" then some (.bool true)
  else if s = "false" then some (.bool false)
  else s.toInt?.map fun n => .num (.ofInt n)

omit [Runtime] in
theorem isFinite_parseJson {s : String} {v : Json} (h : parseJson s = some v) :
    v.isFinite = true := by
  unfold parseJson at h
  split_ifs at h
  · cases h
    rfl
  · cases h
    rfl
  · cases h
    rfl
  · obtain ⟨n, -, rfl⟩ := Option.map_eq_some_iff.mp h
    rfl

mutual

def stringifyJson : Json → String
  | .null => "null"
  | .bool b => if b then "true" else "false"
  | .num n => printNumber n
  | .str s => "\"" ++ s ++ "\""
  | .arr xs => "[" ++ String.intercalate "," (stringifyAll xs) ++ "]"
  | .obj fields => "\x7b" ++ String.intercalate "," (stringifyFields fields) ++ "\x7d"

def stringifyAll : List Json → List String
  | [] => []
  | x :: xs => stringifyJson x :: stringifyAll xs

def stringifyFields : List (String × Json) → List String
  | [] => []
  | (key, x) :: rest => ("\"" ++ key ++ "\":" ++ stringifyJson x) :: stringifyFields rest

end

end Ascii

/-- The library functions on the strings and documents of the concrete executions in this
development: ASCII names, and documents that are scalars. -/
abbrev asciiRuntime : Runtime where
  toUpperCase := asciiUpper
  toLowerCase := asciiLower
  localeCompare a b := if a < b then -1 else if b < a then 1 else 0
  parseJson := Ascii.parseJson
  stringifyJson := Ascii.stringifyJson
  printNumber := Ascii.printNumber
  readNumber := Ascii.readNumber
  toUpperCase_ascii _ _ := rfl
  toLowerCase_ascii _ _ := rfl
  stringifyJson_finite _ _ := Ascii.isFinite_parseJson

end JavaScript
