import Rooeel.Schema
import Rooeel.Lib.Exclusion

/-!
# Service methods

A service method is a program over the store. Every call of the database client is one
atomic step: `findUnique`, `findFirst` and `findMany` read, `create`, `update`, `upsert`
and `delete` write. What runs between two calls belongs to the step before it.
-/

namespace Rooeel

open JavaScript

/-- The exceptions of the services; `error` is a plain `Error`, and `prisma` an error of the
database client. `typeError` is thrown where an object has no text. -/
inductive Exn where
  | notFound (message : String)
  | conflict (message : String)
  | forbidden (message : String)
  | unauthorized (message : String)
  | badRequest (message : String)
  | error (message : String)
  | typeError
  | prisma (e : DbError)
  deriving DecidableEq, Repr

abbrev Service (α : Type) := Prog Store Exn α

/-- The value of an expression; `none` is the exception. -/
def orTypeError {α : Type} (value : Option α) : Service α :=
  .done (value.elim (.error .typeError) .ok)

theorem orTypeError_run {α : Type} (value : Option α) (s : Store) :
    (orTypeError value).run s = (value.elim (.error .typeError) .ok, s) := rfl

theorem orTypeError_some_run {α : Type} {value : Option α} {a : α} (h : value = some a)
    (s : Store) : (orTypeError value).run s = (.ok a, s) := by
  rw [orTypeError_run, h]
  rfl

theorem guarantees_orTypeError {α : Type} {rely guar : Store → Store → Prop} (value : Option α) :
    Prog.Guarantees rely guar (orTypeError value) := fun _ => trivial

/-- An optional argument of a GraphQL input type: left out, `null`, or a value. -/
inductive Arg (α : Type) where
  | undefined
  | null
  | value (a : α)
  deriving DecidableEq

namespace Arg

variable {α : Type}

/-- `arg ?? null`. -/
def toOption : Arg α → Option α
  | .value a => some a
  | _ => none

/-- `arg !== undefined`. -/
def supplied : Arg α → Bool
  | .undefined => false
  | _ => true

def isNull : Arg α → Bool
  | .null => true
  | _ => false

/-- The new value of a nullable column: unchanged when the argument is left out. -/
def assign (arg : Arg α) (old : Option α) : Option α :=
  match arg with
  | .undefined => old
  | .null => none
  | .value a => some a

/-- The new value of a column that is not nullable; `null` never gets here. -/
def assignD (arg : Arg α) (old : α) : α :=
  match arg with
  | .value a => a
  | _ => old

end Arg

/-- The `user` object of a request, as the services receive it. -/
structure Viewer where
  userId : Id
  role : Option String
  deriving DecidableEq

/-- `viewer && viewer.role !== 'admin'`: the viewer whose rights are checked. -/
def nonAdmin (viewer : Option Viewer) : Option Viewer :=
  viewer.filter fun v => v.role != some "admin"

theorem nonAdmin_some {viewer : Viewer} (hRole : viewer.role ≠ some "admin") :
    nonAdmin (some viewer) = some viewer := by
  simp [nonAdmin, Option.filter, hRole]

section Client

variable {ρ : Type} [Row ρ]

def query {α : Type} (f : Store → α) : Service α := Prog.read fun s => .ok (f s)

def findUnique (m : Model Store ρ) (sel : ρ → Bool) : Service (Option ρ) := query (m.findFirst sel)

def findUniqueOrThrow (m : Model Store ρ) (id : Id) : Service ρ :=
  Prog.read fun s => match m.findFirst (fun r => Row.key r == id) s with
    | some r => .ok r
    | none => .error (.prisma .notFound)

def findMany (m : Model Store ρ) (sel : ρ → Bool) : Service (List ρ) := query (m.findMany sel)

/-- A statement of the database client as one step of a service. -/
def execute {α : Type} (f : Store → Except DbError (α × Store)) : Service α :=
  Prog.atomic fun s => (f s).mapError .prisma

def create (m : Model Store ρ) (mk : Id → ρ)
    (hmk : ∀ k, Row.key (mk k) = k := by intro; rfl) : Service ρ :=
  execute (m.create mk hmk)

def update (m : Model Store ρ) (sel : ρ → Bool) (f : ρ → ρ)
    (hf : ∀ r, Row.key (f r) = Row.key r := by intro; rfl) : Service ρ :=
  execute (m.update sel f hf)

def upsert (m : Model Store ρ) (sel : ρ → Bool) (f : ρ → ρ) (mk : Id → ρ)
    (hf : ∀ r, Row.key (f r) = Row.key r := by intro; rfl)
    (hmk : ∀ k, Row.key (mk k) = k := by intro; rfl) : Service ρ :=
  execute (m.upsert sel f mk hf hmk)

def delete (m : Model Store ρ) (sel : ρ → Bool) : Service ρ := execute (m.delete sel)

@[simp] theorem findUnique_run (m : Model Store ρ) (sel : ρ → Bool) (s : Store) :
    (findUnique m sel).run s = (.ok (m.findFirst sel s), s) := rfl

@[simp] theorem findMany_run (m : Model Store ρ) (sel : ρ → Bool) (s : Store) :
    (findMany m sel).run s = (.ok (m.findMany sel s), s) := rfl

theorem query_bind_run {α β : Type} (f : Store → α) (k : α → Service β) (s : Store) :
    (query f >>= k).run s = (k (f s)).run s := rfl

/-- A read that is skipped unless `c` holds. -/
theorem run_ite_pure {α : Type} (c : Bool) {p : Service α} {s : Store} {a d : α}
    (hp : p.run s = (.ok a, s)) :
    (if c then p else pure d : Service α).run s = (.ok (if c then a else d), s) := by
  cases c
  · rfl
  · exact hp

omit [Row ρ] in
/-- A row that `findUniqueOrThrow` has returned was found. -/
theorem found_of_ok {o : Option ρ} {e : Exn} {r : ρ}
    (h : (match o with | some r => .ok r | none => .error e : Except Exn ρ) = .ok r) :
    o = some r := by
  cases o with
  | none => cases h
  | some r' => cases h; rfl

theorem execute_ok {α : Type} {f : Store → Except DbError (α × Store)} {s s' : Store} {a : α}
    (h : (f s).mapError Exn.prisma = .ok (a, s')) : f s = .ok (a, s') := by
  cases hf : f s with
  | error e => rw [hf] at h; cases h
  | ok out => rw [hf] at h; cases h; rfl

theorem execute_run {α : Type} {f : Store → Except DbError (α × Store)} {s s' : Store} {a : α}
    (h : f s = .ok (a, s')) : (execute f).run s = (.ok a, s') := by
  rw [execute, Prog.run_atomic, h]
  rfl

theorem execute_run_error {α : Type} {f : Store → Except DbError (α × Store)} {s : Store}
    {e : DbError} (h : f s = .error e) : (execute f).run s = (.error (.prisma e), s) := by
  rw [execute, Prog.run_atomic, h]
  rfl

theorem execute_result {α : Type} (f : Store → Except DbError (α × Store)) (s : Store) :
    ((execute f).run s).1 = ((f s).map Prod.fst).mapError .prisma := by
  change ((f s).mapError Exn.prisma).map Prod.fst = _
  cases f s <;> rfl

theorem of_execute_run {α : Type} {f : Store → Except DbError (α × Store)} {s s' : Store} {a : α}
    (h : (execute f).run s = (.ok a, s')) : f s = .ok (a, s') := by
  rw [execute, Prog.run_atomic] at h
  split at h
  · rename_i hOk
    cases h
    exact execute_ok hOk
  · cases h

/-- One step of a call that is about to execute a statement. -/
theorem exec_execute {ι α β : Type} [DecidableEq ι] {c c' : Pool ι Store Exn α} {i : ι}
    {f : Store → Except DbError (β × Store)} {k : β → Service α} (hExec : c.exec i = some c')
    (hProc : c.proc i = execute f >>= k) :
    (∃ b, f c.state = .ok (b, c'.state) ∧ c'.proc i = k b) ∨
      (∃ e, f c.state = .error e ∧ c'.state = c.state ∧
        c'.proc i = .done (.error (.prisma e))) := by
  rcases Pool.exec_atomic hExec hProc with ⟨b, hOk, hNext⟩ | ⟨e, hError, hState, hNext⟩
  · exact Or.inl ⟨b, execute_ok hOk, hNext⟩
  · cases hResult : f c.state with
    | ok out => rw [hResult] at hError; cases hError
    | error e' =>
        rw [hResult] at hError
        cases hError
        exact Or.inr ⟨e', rfl, hState, hNext⟩

end Client

/-! ## Outcomes of a call that runs alone -/

section Outcomes

variable {α β : Type} {s : Store}

/-- A call that succeeds satisfies `P`; one that fails leaves the store as it was. -/
def Outcome (s : Store) (P : α → Store → Prop) : Except Exn α → Store → Prop
  | .ok a, s' => P a s'
  | .error _, s' => s' = s

/-- The first part of the call only reads, and what it returns satisfies `A`. -/
def Reads (s : Store) (A : α → Prop) (p : Service α) : Prop :=
  p.wp (Outcome s fun a s' => s' = s ∧ A a) s

theorem outcome_mono {p : Service α} {P Q : α → Store → Prop} (h : p.wp (Outcome s P) s)
    (hPQ : ∀ a s', P a s' → Q a s') : p.wp (Outcome s Q) s := by
  refine Prog.wp_mono h fun r s' hr => ?_
  cases r with
  | ok a => exact hPQ a s' hr
  | error e => exact hr

theorem outcome_bind {p : Service α} {f : α → Service β} {A : α → Prop} {P : β → Store → Prop}
    (hp : Reads s A p) (hf : ∀ a, A a → (f a).wp (Outcome s P) s) :
    (p >>= f).wp (Outcome s P) s := by
  refine Prog.wp_seq hp ?_ ?_
  · rintro a s' ⟨rfl, ha⟩
    exact hf a ha
  · intro e s' he
    exact he

theorem reads_pure {A : α → Prop} {a : α} (ha : A a) : Reads s A (pure a) :=
  Prog.wp_pure.mpr ⟨rfl, ha⟩

theorem reads_throw {A : α → Prop} (e : Exn) : Reads s A (throw e) := Prog.wp_throw.mpr rfl

theorem reads_bind {p : Service α} {f : α → Service β} {A : α → Prop} {B : β → Prop}
    (hp : Reads s A p) (hf : ∀ a, A a → Reads s B (f a)) : Reads s B (p >>= f) :=
  outcome_bind hp hf

theorem reads_mono {p : Service α} {A B : α → Prop} (h : Reads s A p) (hAB : ∀ a, A a → B a) :
    Reads s B p :=
  outcome_mono h fun a _ ha => ⟨ha.1, hAB a ha.2⟩

theorem reads_throwIf {c : Prop} [Decidable c] {e : Exn} :
    Reads s (fun _ => ¬ c) (Prog.throwIf c e) :=
  Prog.wp_throwIf.mpr ⟨fun _ => rfl, fun hc => ⟨rfl, hc⟩⟩

theorem reads_orTypeError {A : α → Prop} {value : Option α} (h : ∀ a, value = some a → A a) :
    Reads s A (orTypeError value) := by
  cases value with
  | none => exact reads_throw .typeError
  | some a => exact reads_pure (h a rfl)

theorem reads_of_run {p : Service α} {A : α → Prop} {a : α} (hRun : p.run s = (.ok a, s))
    (ha : A a) : Reads s A p :=
  (Prog.wp_of_run hRun).mpr ⟨rfl, ha⟩

theorem reads_findUnique {ρ : Type} [Row ρ] (m : Model Store ρ) (sel : ρ → Bool) :
    Reads s (fun r => r = m.findFirst sel s) (findUnique m sel) :=
  reads_of_run (findUnique_run m sel s) rfl

theorem reads_findUniqueOrThrow {ρ : Type} [Row ρ] (m : Model Store ρ) (id : Id) :
    Reads s (fun r => m.findFirst (fun r => Row.key r == id) s = some r)
      (findUniqueOrThrow m id) := by
  unfold Reads findUniqueOrThrow
  rw [Prog.wp_read]
  cases h : m.findFirst (fun r => Row.key r == id) s with
  | none => rfl
  | some r => exact ⟨rfl, rfl⟩

theorem outcome_execute {f : Store → Except DbError (α × Store)} {P : α → Store → Prop}
    (h : ∀ a s', f s = .ok (a, s') → P a s') : (execute f).wp (Outcome s P) s := by
  refine Prog.wp_atomic.mpr ⟨?_, fun _ _ => rfl⟩
  intro a s' ha
  exact h a s' (execute_ok ha)

theorem outcome_map {p : Service α} {g : α → β} {P : β → Store → Prop}
    (hp : p.wp (Outcome s fun a s' => P (g a) s') s) :
    (p >>= fun a => pure (g a)).wp (Outcome s P) s := by
  refine Prog.wp_seq hp ?_ ?_
  · intro a s' ha
    exact Prog.wp_pure.mpr ha
  · intro e s' he
    exact he

end Outcomes

/-! ## The store that a call leaves -/

section Leaves

variable {α β : Type} {P : Store → Prop} {s : Store}

/-- The store after the call, which runs alone and may fail on the way, satisfies `P`. -/
def Leaves (P : Store → Prop) (p : Service α) (s : Store) : Prop := p.wp (fun _ s' => P s') s

theorem leaves_iff {p : Service α} : Leaves P p s ↔ P (p.run s).2 := Prog.wp_of_run rfl

theorem leaves_pure {a : α} (h : P s) : Leaves P (pure a) s := Prog.wp_pure.mpr h

theorem leaves_throw {e : Exn} (h : P s) : Leaves P (throw e : Service α) s := Prog.wp_throw.mpr h

theorem leaves_bind {p : Service α} {k : α → Service β} {R : Store → Prop} (hp : Leaves R p s)
    (hOk : ∀ a s', R s' → Leaves P (k a) s') (hError : ∀ s', R s' → P s') :
    Leaves P (p >>= k) s :=
  Prog.wp_seq hp hOk fun _ => hError

theorem leaves_query {f : Store → α} {k : α → Service β} (h : Leaves P (k (f s)) s) :
    Leaves P (query f >>= k) s :=
  Prog.wp_bind.mpr (Prog.wp_read.mpr h)

theorem leaves_throwIf {c : Prop} [Decidable c] {e : Exn} {k : Unit → Service β} (hStop : P s)
    (h : ¬ c → Leaves P (k ()) s) : Leaves P (Prog.throwIf c e >>= k) s :=
  Prog.wp_bind.mpr (Prog.wp_throwIf.mpr ⟨fun _ => hStop, h⟩)

/-- A statement succeeds, or leaves the store as it is. -/
theorem leaves_execute {f : Store → Except DbError (α × Store)} (hStop : P s)
    (h : ∀ a s', f s = .ok (a, s') → P s') : Leaves P (execute f) s :=
  Prog.wp_atomic.mpr ⟨fun a s' ha => h a s' (execute_ok ha), fun _ _ => hStop⟩

theorem leaves_execute_bind {f : Store → Except DbError (α × Store)} {k : α → Service β}
    (hStop : P s) (h : ∀ a s', f s = .ok (a, s') → Leaves P (k a) s') :
    Leaves P (execute f >>= k) s :=
  Prog.wp_bind.mpr (Prog.wp_atomic.mpr
    ⟨fun a s' ha => h a s' (execute_ok ha), fun _ _ => hStop⟩)

/-- What every step of the call keeps, whatever happens in between, the call keeps. -/
theorem leaves_guarantees {p : Service α} {guar : Store → Store → Prop}
    (hp : Prog.Guarantees (fun _ _ => True) guar p) (hGuar : ∀ a b, guar a b → P a → P b)
    (h : P s) : Leaves P p s := by
  have hReach := Prog.safe_run (fun _ => trivial) (hp s)
  refine leaves_iff.mpr ?_
  generalize (p.run s).2 = s' at hReach
  induction hReach with
  | refl => exact h
  | tail _ hStep ih => exact hGuar _ _ hStep ih

end Leaves

end Rooeel
