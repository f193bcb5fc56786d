import Mathlib.Logic.Basic

/-!
# Programs made of atomic steps

A `Prog σ ε α` is a program over a state `σ` that ends with a value of `α` or with an
exception of `ε`. It is kept as the list of its atomic steps, so that one definition of a
program serves two readings:

* `Prog.run` executes all steps one after the other (no other program interferes);
* the interleavings of `Lib/Interleaving.lean` execute one step at a time, with the
  steps of other programs in between.

Every step carries a second continuation `fail`: what the program does when its
environment makes the step fail without effect. `tryCatch` can intercept it.

`Prog.wp` is the postcondition calculus of `run`; its rules follow the way a program is
built.
-/

/-- A program made of atomic steps. `step upd next fail` replaces the state `s` by
`upd s` and goes on with `next s`; when the environment makes the step fail with `e`, the
state stays and the program goes on with `fail e`. -/
inductive Prog (σ ε α : Type) where
  | done (r : Except ε α)
  | step (upd : σ → σ) (next : σ → Prog σ ε α) (fail : ε → Prog σ ε α)

namespace Prog

variable {σ ε α β γ : Type}

/-! ## The monad -/

protected def bind : Prog σ ε α → (α → Prog σ ε β) → Prog σ ε β
  | .done (.ok a), f => f a
  | .done (.error e), _ => .done (.error e)
  | .step upd next fail, f =>
      .step upd (fun s => (next s).bind f) (fun e => (fail e).bind f)

protected def tryCatch : Prog σ ε α → (ε → Prog σ ε α) → Prog σ ε α
  | .done (.ok a), _ => .done (.ok a)
  | .done (.error e), h => h e
  | .step upd next fail, h =>
      .step upd (fun s => (next s).tryCatch h) (fun e => (fail e).tryCatch h)

instance : Monad (Prog σ ε) where
  pure a := .done (.ok a)
  bind := Prog.bind

instance : MonadExceptOf ε (Prog σ ε) where
  throw e := .done (.error e)
  tryCatch := Prog.tryCatch

protected theorem bind_assoc (p : Prog σ ε α) (f : α → Prog σ ε β) (g : β → Prog σ ε γ) :
    (p >>= f) >>= g = p >>= fun a => f a >>= g := by
  induction p with
  | done r => cases r <;> rfl
  | step upd next fail ihn ihf =>
      change Prog.step upd _ _ = Prog.step upd _ _
      congr 1
      · funext s
        exact ihn s
      · funext e
        exact ihf e

/-! ## Basic programs -/

/-- The state after a statement: the new one when it succeeds, the old one otherwise. -/
def effect (f : σ → Except ε (α × σ)) (s : σ) : σ :=
  match f s with
  | .ok (_, s') => s'
  | .error _ => s

theorem effect_ok {f : σ → Except ε (α × σ)} {s s' : σ} {a : α} (h : f s = .ok (a, s')) :
    effect f s = s' := by
  simp [effect, h]

theorem effect_error {f : σ → Except ε (α × σ)} {s : σ} {e : ε} (h : f s = .error e) :
    effect f s = s := by
  simp [effect, h]

/-- One atomic step that succeeds with a value and a new state, or fails without effect. -/
def atomic (f : σ → Except ε (α × σ)) : Prog σ ε α :=
  .step (effect f) (fun s => .done ((f s).map Prod.fst)) (fun e => .done (.error e))

/-- One atomic step that only reads. -/
def read (f : σ → Except ε α) : Prog σ ε α :=
  .step id (fun s => .done (f s)) (fun e => .done (.error e))

/-- Stop with `e` when `c` holds. No step is taken. -/
def throwIf (c : Prop) [Decidable c] (e : ε) : Prog σ ε Unit :=
  if c then throw e else pure ()

theorem throwIf_bind (c : Prop) [Decidable c] (e : ε) (f : Unit → Prog σ ε β) :
    throwIf c e >>= f = if c then throw e else f () := by
  unfold throwIf
  split <;> rfl

/-! ## Running a program alone -/

/-- All steps of the program, one after the other. -/
def run : Prog σ ε α → σ → Except ε α × σ
  | .done r, s => (r, s)
  | .step upd next _, s => (next s).run (upd s)

@[simp] theorem run_pure (a : α) (s : σ) : (pure a : Prog σ ε α).run s = (.ok a, s) := rfl

@[simp] theorem run_throw (e : ε) (s : σ) : (throw e : Prog σ ε α).run s = (.error e, s) := rfl

theorem run_bind (p : Prog σ ε α) (f : α → Prog σ ε β) (s : σ) :
    (p >>= f).run s = match p.run s with
      | (.ok a, s') => (f a).run s'
      | (.error e, s') => (.error e, s') := by
  induction p generalizing s with
  | done r => cases r <;> rfl
  | step upd next fail ih _ => exact ih s (upd s)

/-- A program whose first part ends with a value runs on with that value. -/
theorem run_bind_ok {p : Prog σ ε α} {f : α → Prog σ ε β} {s s' : σ} {a : α}
    (h : p.run s = (.ok a, s')) : (p >>= f).run s = (f a).run s' := by
  rw [run_bind, h]

/-- A program whose first part ends with an exception ends there. -/
theorem run_bind_error {p : Prog σ ε α} {f : α → Prog σ ε β} {s s' : σ} {e : ε}
    (h : p.run s = (.error e, s')) : (p >>= f).run s = (.error e, s') := by
  rw [run_bind, h]

/-- A program that ends with a value has gone through both parts. -/
theorem of_run_bind_ok {p : Prog σ ε α} {f : α → Prog σ ε β} {s s' : σ} {b : β}
    (h : (p >>= f).run s = (.ok b, s')) :
    ∃ a s₁, p.run s = (.ok a, s₁) ∧ (f a).run s₁ = (.ok b, s') := by
  rw [run_bind] at h
  split at h
  · rename_i a s₁ hRun
    exact ⟨a, s₁, hRun, h⟩
  · cases h

@[simp] theorem run_read (f : σ → Except ε α) (s : σ) :
    (read f : Prog σ ε α).run s = (f s, s) := rfl

theorem run_atomic (f : σ → Except ε (α × σ)) (s : σ) :
    (atomic f).run s = match f s with
      | .ok (a, s') => (.ok a, s')
      | .error e => (.error e, s) := by
  cases h : f s <;> simp [atomic, run, effect, h, Except.map]

@[simp] theorem run_throwIf (c : Prop) [Decidable c] (e : ε) (s : σ) :
    (throwIf c e : Prog σ ε Unit).run s = if c then (.error e, s) else (.ok (), s) := by
  unfold throwIf
  split <;> rfl

/-! ## Running a program alone, with failing steps -/

/-- All steps of the program, one after the other, when the environment has decided which of
them fail: the list says so for the first steps, and those beyond it are executed. -/
def runWith : Prog σ ε α → List (Option ε) → σ → Except ε α × σ
  | .done r, _, s => (r, s)
  | .step upd next _, [], s => (next s).runWith [] (upd s)
  | .step upd next _, none :: faults, s => (next s).runWith faults (upd s)
  | .step _ _ fail, some e :: faults, s => (fail e).runWith faults s

theorem runWith_nil (p : Prog σ ε α) (s : σ) : p.runWith [] s = p.run s := by
  induction p generalizing s with
  | done r => rfl
  | step upd next fail ih _ => exact ih s (upd s)

/-- Steps that do not fail. -/
theorem runWith_replicate_none (n : Nat) (p : Prog σ ε α) (s : σ) :
    p.runWith (List.replicate n none) s = p.run s := by
  induction n generalizing p s with
  | zero => exact runWith_nil p s
  | succ n ih =>
      cases p with
      | done r => rfl
      | step upd next fail => exact ih (next s) (upd s)

/-- The step after the first `k` fails, and no other. -/
def failingAt (k : Nat) (e : ε) : List (Option ε) := List.replicate k none ++ [some e]

theorem failingAt_succ (k : Nat) (e : ε) : failingAt (k + 1) e = none :: failingAt k e := rfl

/-- A statement fails, or does what it does. -/
theorem runWith_atomic_bind (f : σ → Except ε (α × σ)) (k : α → Prog σ ε β) (fault : Option ε)
    (faults : List (Option ε)) (s : σ) :
    (atomic f >>= k).runWith (fault :: faults) s =
      match fault, f s with
      | some e, _ => (.error e, s)
      | none, .error e => (.error e, s)
      | none, .ok (a, s') => (k a).runWith faults s' := by
  cases fault with
  | some e => rfl
  | none =>
      change ((Prog.done ((f s).map Prod.fst)).bind k).runWith faults (effect f s) = _
      cases h : f s with
      | error e =>
          rw [effect_error h]
          rfl
      | ok out =>
          obtain ⟨a, s'⟩ := out
          rw [effect_ok h]
          rfl

theorem runWith_read_ok {f : σ → Except ε α} {s : σ} {a : α} (h : f s = .ok a)
    (k : α → Prog σ ε β) (faults : List (Option ε)) :
    (read f >>= k).runWith (none :: faults) s = (k a).runWith faults s := by
  change ((Prog.done (f s)).bind k).runWith faults s = _
  rw [h]
  rfl

theorem runWith_read_error {f : σ → Except ε α} {s : σ} {e : ε} (h : f s = .error e)
    (k : α → Prog σ ε β) (faults : List (Option ε)) :
    (read f >>= k).runWith (none :: faults) s = (.error e, s) := by
  change ((Prog.done (f s)).bind k).runWith faults s = _
  rw [h]
  rfl

/-! ## Postconditions of a run -/

/-- The run of `p` from `s` ends in a result and a state that satisfy `Q`. -/
def wp (p : Prog σ ε α) (Q : Except ε α → σ → Prop) (s : σ) : Prop := Q (p.run s).1 (p.run s).2

/-- The postcondition of the first half of `p >>= f`. -/
def seqPost (f : α → Prog σ ε β) (Q : Except ε β → σ → Prop) : Except ε α → σ → Prop
  | .ok a, s => (f a).wp Q s
  | .error e, s => Q (.error e) s

theorem wp_bind {p : Prog σ ε α} {f : α → Prog σ ε β} {Q : Except ε β → σ → Prop} {s : σ} :
    (p >>= f).wp Q s ↔ p.wp (seqPost f Q) s := by
  unfold wp
  rw [run_bind]
  generalize p.run s = out
  obtain ⟨r, s'⟩ := out
  cases r <;> rfl

theorem wp_mono {p : Prog σ ε α} {P Q : Except ε α → σ → Prop} {s : σ}
    (h : p.wp P s) (hPQ : ∀ r s', P r s' → Q r s') : p.wp Q s := hPQ _ _ h

/-- Sequencing: it is enough that every value the first program can end with satisfies
the precondition of the second one, and that its exceptions are acceptable. -/
theorem wp_seq {p : Prog σ ε α} {f : α → Prog σ ε β} {P : Except ε α → σ → Prop}
    {Q : Except ε β → σ → Prop} {s : σ} (hp : p.wp P s)
    (hok : ∀ a s', P (.ok a) s' → (f a).wp Q s')
    (herr : ∀ e s', P (.error e) s' → Q (.error e) s') : (p >>= f).wp Q s := by
  rw [wp_bind]
  refine wp_mono hp ?_
  intro r s' h
  cases r with
  | ok a => exact hok a s' h
  | error e => exact herr e s' h

@[simp] theorem wp_pure {a : α} {Q : Except ε α → σ → Prop} {s : σ} :
    (pure a : Prog σ ε α).wp Q s ↔ Q (.ok a) s := Iff.rfl

@[simp] theorem wp_throw {e : ε} {Q : Except ε α → σ → Prop} {s : σ} :
    (throw e : Prog σ ε α).wp Q s ↔ Q (.error e) s := Iff.rfl

@[simp] theorem wp_read {f : σ → Except ε α} {Q : Except ε α → σ → Prop} {s : σ} :
    (read f).wp Q s ↔ Q (f s) s := Iff.rfl

theorem wp_throwIf {c : Prop} [Decidable c] {e : ε} {Q : Except ε Unit → σ → Prop} {s : σ} :
    (throwIf c e).wp Q s ↔ (c → Q (.error e) s) ∧ (¬ c → Q (.ok ()) s) := by
  unfold wp
  rw [run_throwIf]
  split <;> simp_all

theorem wp_atomic {f : σ → Except ε (α × σ)} {Q : Except ε α → σ → Prop} {s : σ} :
    (atomic f).wp Q s ↔
      (∀ a s', f s = .ok (a, s') → Q (.ok a) s') ∧ (∀ e, f s = .error e → Q (.error e) s) := by
  unfold wp
  rw [run_atomic]
  cases f s with
  | ok out =>
    obtain ⟨a, s'⟩ := out
    simp
  | error e => simp

theorem wp_of_run {p : Prog σ ε α} {Q : Except ε α → σ → Prop} {s s' : σ} {r : Except ε α}
    (hRun : p.run s = (r, s')) : p.wp Q s ↔ Q r s' := by
  rw [wp, hRun]

attribute [irreducible] wp

end Prog
