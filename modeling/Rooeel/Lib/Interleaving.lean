import Rooeel.Lib.Resumption
import Mathlib.Logic.Function.Basic
import Mathlib.Logic.Relation
import Mathlib.Data.List.Basic

/-!
# Interleavings of programs

A `Pool` is a shared state together with one program for every index of `ι`, each
somewhere between its first step and its end. Nothing bounds the number of programs, and
a program that is never scheduled again models a call that crashed.

* `Pool.exec` executes the next step of one program, `Pool.fault` makes it fail without
  effect.
* `Pool.Exec` is one executed step of some program; `Pool.Step env` also allows failures
  and the steps of an environment `env`.
* `Prog.Safe rely guar p s`: from `s` on, and whatever the others do as long as they stay
  in `rely`, every step of `p` stays in `guar`.
* `Pool.invariant`: when every step the programs take keeps `I` and stays in `R`, and all
  they rely on is `R`, then `I` holds in every reachable state, and `R` between the first
  state and every later one.
-/

/-- A shared state and programs working on it. `steps i` counts the steps that program
`i` has taken. -/
structure Pool (ι σ ε α : Type) where
  state : σ
  proc : ι → Prog σ ε α
  steps : ι → Nat

namespace Pool

variable {ι σ ε α : Type} [DecidableEq ι]

/-- All programs before their first step. -/
def start (s : σ) (proc : ι → Prog σ ε α) : Pool ι σ ε α where
  state := s
  proc := proc
  steps := fun _ => 0

/-- The next step of program `i`, unless it has ended. -/
def exec (c : Pool ι σ ε α) (i : ι) : Option (Pool ι σ ε α) :=
  match c.proc i with
  | .done _ => none
  | .step upd next _ => some
      { state := upd c.state
        proc := Function.update c.proc i (next c.state)
        steps := Function.update c.steps i (c.steps i + 1) }

/-- The next step of program `i` fails without effect. -/
def fault (c : Pool ι σ ε α) (i : ι) (e : ε) : Option (Pool ι σ ε α) :=
  match c.proc i with
  | .done _ => none
  | .step _ _ fail => some
      { state := c.state
        proc := Function.update c.proc i (fail e)
        steps := Function.update c.steps i (c.steps i + 1) }

/-- One executed step of some program. -/
def Exec (c c' : Pool ι σ ε α) : Prop := ∃ i, c.exec i = some c'

/-- One step of some program, executed or failed, or one step of the environment. -/
inductive Step (env : σ → σ → Prop) : Pool ι σ ε α → Pool ι σ ε α → Prop
  | exec {c c' : Pool ι σ ε α} (i : ι) (h : c.exec i = some c') : Step env c c'
  | fault {c c' : Pool ι σ ε α} (i : ι) (e : ε) (h : c.fault i e = some c') : Step env c c'
  | env {c : Pool ι σ ε α} {s' : σ} (h : env c.state s') : Step env c { c with state := s' }

/-- Program `i` has ended with the value `a`. -/
def Returned (c : Pool ι σ ε α) (i : ι) (a : α) : Prop := c.proc i = .done (.ok a)

/-- Program `i` has ended, with a value or an exception. -/
def Ended (c : Pool ι σ ε α) (i : ι) : Prop := ∃ r, c.proc i = .done r

/-- Program `i` has taken a step and has not ended. -/
def Running (c : Pool ι σ ε α) (i : ι) : Prop := 0 < c.steps i ∧ ¬ c.Ended i

/-- Execute one step of the programs of a list, in order; a program that has ended is
passed over. -/
def play (c : Pool ι σ ε α) : List ι → Pool ι σ ε α
  | [] => c
  | i :: rest => ((c.exec i).getD c).play rest

theorem reach_play (c : Pool ι σ ε α) (sched : List ι) :
    Relation.ReflTransGen Exec c (c.play sched) := by
  induction sched generalizing c with
  | nil => exact .refl
  | cons i rest ih =>
    unfold play
    cases h : c.exec i with
    | none => exact ih c
    | some c' => exact .head ⟨i, h⟩ (ih c')

/-- Executed steps are steps, whatever the environment may do. -/
theorem reach_of_exec {env : σ → σ → Prop} {c c' : Pool ι σ ε α}
    (h : Relation.ReflTransGen Exec c c') : Relation.ReflTransGen (Step env) c c' := by
  induction h with
  | refl => exact .refl
  | tail _ hExec ih =>
      obtain ⟨i, hi⟩ := hExec
      exact .tail ih (.exec i hi)

end Pool

namespace Prog

variable {σ ε α β : Type}

/-! ## Rely and guarantee -/

/-- From the state `s` on, while the steps of others stay in `rely`, every step of the
program stays in `guar`. -/
def Safe (rely guar : σ → σ → Prop) : Prog σ ε α → σ → Prop
  | .done _, _ => True
  | .step upd next fail, s => ∀ s', rely s s' →
      guar s' (upd s') ∧ Safe rely guar (next s') (upd s') ∧ ∀ e, Safe rely guar (fail e) s'

/-- The program is safe whatever state it starts in. -/
def Guarantees (rely guar : σ → σ → Prop) (p : Prog σ ε α) : Prop := ∀ s, Safe rely guar p s

theorem Safe.stable {rely guar : σ → σ → Prop} {p : Prog σ ε α} {s s' : σ}
    (hTrans : ∀ a b c, rely a b → rely b c → rely a c) (h : Safe rely guar p s)
    (hs : rely s s') : Safe rely guar p s' := by
  cases p with
  | done r => trivial
  | step upd next fail => exact fun s'' hs'' => h s'' (hTrans _ _ _ hs hs'')

/-- What a program guarantees may be weakened. -/
theorem Safe.mono {rely guar guar' : σ → σ → Prop} {p : Prog σ ε α} {s : σ}
    (h : Safe rely guar p s) (hGuar : ∀ a b, guar a b → guar' a b) : Safe rely guar' p s := by
  induction p generalizing s with
  | done r => trivial
  | step upd next fail ihn ihf =>
      intro s' hs'
      obtain ⟨hg, hn, he⟩ := h s' hs'
      exact ⟨hGuar _ _ hg, ihn s' hn, fun e => ihf e (he e)⟩

/-- A program that tolerates more tolerates less. -/
theorem Safe.of_rely {rely rely' guar : σ → σ → Prop} {p : Prog σ ε α} {s : σ}
    (h : Safe rely guar p s) (hRely : ∀ a b, rely' a b → rely a b) : Safe rely' guar p s := by
  induction p generalizing s with
  | done r => trivial
  | step upd next fail ihn ihf =>
      intro s' hs'
      obtain ⟨hg, hn, he⟩ := h s' (hRely _ _ hs')
      exact ⟨hg, ihn s' hn, fun e => ihf e (he e)⟩

/-- What a program guarantees among any others, it guarantees among these. -/
theorem Safe.of_any {rely guar guar' : σ → σ → Prop} {p : Prog σ ε α} {s : σ}
    (h : Safe (fun _ _ => True) guar p s) (hGuar : ∀ a b, guar a b → guar' a b) :
    Safe rely guar' p s :=
  (h.of_rely fun _ _ _ => trivial).mono hGuar

section Rules

variable {rely guar : σ → σ → Prop}

theorem guarantees_pure (a : α) : Guarantees rely guar (pure a : Prog σ ε α) := fun _ => trivial

theorem guarantees_throw (e : ε) : Guarantees rely guar (throw e : Prog σ ε α) := fun _ => trivial

theorem safe_bind {p : Prog σ ε α} {f : α → Prog σ ε β} {s : σ} (hp : Safe rely guar p s)
    (hf : ∀ a, Guarantees rely guar (f a)) : Safe rely guar (p >>= f) s := by
  induction p generalizing s with
  | done r =>
      cases r with
      | ok a => exact hf a s
      | error e => trivial
  | step upd next fail ihn ihf =>
      intro s' hs'
      obtain ⟨hg, hn, he⟩ := hp s' hs'
      exact ⟨hg, ihn s' hn, fun e => ihf e (he e)⟩

/-- The second part is only safe in the states that the first part can lead to. -/
theorem safe_bind_since {p : Prog σ ε α} {f : α → Prog σ ε β} {s : σ} (hRefl : ∀ s, rely s s)
    (hTrans : ∀ a b c, rely a b → rely b c → rely a c) (hGuar : ∀ a b, guar a b → rely a b)
    (hp : Safe rely guar p s) (hf : ∀ a s', rely s s' → Safe rely guar (f a) s') :
    Safe rely guar (p >>= f) s := by
  induction p generalizing s with
  | done r =>
      cases r with
      | ok a => exact hf a s (hRefl s)
      | error e => trivial
  | step upd next fail ihn ihf =>
      intro s' hs'
      obtain ⟨hg, hn, he⟩ := hp s' hs'
      have hStep : rely s (upd s') := hTrans _ _ _ hs' (hGuar _ _ hg)
      exact ⟨hg, ihn s' hn fun a s'' h => hf a s'' (hTrans _ _ _ hStep h),
        fun e => ihf e (he e) fun a s'' h => hf a s'' (hTrans _ _ _ hs' h)⟩

theorem guarantees_bind {p : Prog σ ε α} {f : α → Prog σ ε β} (hp : Guarantees rely guar p)
    (hf : ∀ a, Guarantees rely guar (f a)) : Guarantees rely guar (p >>= f) :=
  fun s => safe_bind (hp s) hf

theorem guarantees_tryCatch {p : Prog σ ε α} {h : ε → Prog σ ε α} (hp : Guarantees rely guar p)
    (hh : ∀ e, Guarantees rely guar (h e)) : Guarantees rely guar (tryCatch p h) := by
  intro s
  have hSafe := hp s
  clear hp
  induction p generalizing s with
  | done r =>
      cases r with
      | ok a => trivial
      | error e => exact hh e s
  | step upd next fail ihn ihf =>
      intro s' hs'
      obtain ⟨hg, hn, he⟩ := hSafe s' hs'
      exact ⟨hg, ihn s' _ hn, fun e => ihf e s' (he e)⟩

theorem guarantees_throwIf (c : Prop) [Decidable c] (e : ε) :
    Guarantees rely guar (throwIf c e : Prog σ ε Unit) := by
  unfold throwIf
  split
  · exact guarantees_throw e
  · exact guarantees_pure ()

theorem guarantees_read (hRefl : ∀ s, guar s s) (f : σ → Except ε α) :
    Guarantees rely guar (read f) :=
  fun _ s' _ => ⟨hRefl s', trivial, fun _ => trivial⟩

/-- A single statement is judged by its successful executions only. -/
theorem safe_atomic {f : σ → Except ε (α × σ)} {s : σ} (hRefl : ∀ s, guar s s)
    (hf : ∀ s' a s'', rely s s' → f s' = .ok (a, s'') → guar s' s'') :
    Safe rely guar (atomic f) s := by
  intro s' hs'
  refine ⟨?_, trivial, fun _ => trivial⟩
  cases h : f s' with
  | error e =>
      rw [effect_error h]
      exact hRefl s'
  | ok out =>
      obtain ⟨a, s''⟩ := out
      rw [effect_ok h]
      exact hf s' a s'' hs' h

theorem guarantees_atomic {f : σ → Except ε (α × σ)} (hRefl : ∀ s, guar s s)
    (hf : ∀ s a s', f s = .ok (a, s') → guar s s') : Guarantees rely guar (atomic f) :=
  fun _ => safe_atomic hRefl fun s' a s'' _ h => hf s' a s'' h

/-- A statement whose effect the rest of the program relies on. -/
theorem safe_atomic_bind {f : σ → Except ε (α × σ)} {k : α → Prog σ ε β} {s : σ}
    (hRefl : ∀ s, guar s s)
    (hf : ∀ s' a s'', rely s s' → f s' = .ok (a, s'') →
      guar s' s'' ∧ Safe rely guar (k a) s'') : Safe rely guar (atomic f >>= k) s := by
  intro s' hs'
  refine ⟨?_, ?_, fun _ => trivial⟩
  · cases h : f s' with
    | error e =>
        rw [effect_error h]
        exact hRefl s'
    | ok out =>
        obtain ⟨a, s''⟩ := out
        rw [effect_ok h]
        exact (hf s' a s'' hs' h).1
  · change Safe _ _ ((Prog.done ((f s').map Prod.fst)).bind k) (effect f s')
    cases h : f s' with
    | error e => trivial
    | ok out =>
        obtain ⟨a, s''⟩ := out
        rw [effect_ok h]
        exact (hf s' a s'' hs' h).2

/-- A read whose result the rest of the program relies on: what was true of the state
read is only known of the later states through `rely`. -/
theorem safe_read_bind {f : σ → Except ε α} {k : α → Prog σ ε β} {s : σ}
    (hRefl : ∀ s, guar s s)
    (hk : ∀ s' a, rely s s' → f s' = .ok a → Safe rely guar (k a) s') :
    Safe rely guar (read f >>= k) s := by
  intro s' hs'
  refine ⟨hRefl s', ?_, fun _ => trivial⟩
  change Safe _ _ ((Prog.done (f s')).bind k) s'
  cases h : f s' with
  | error e => trivial
  | ok a => exact hk s' a hs' h

/-- A guard in front of a program that is only safe when it passes. -/
theorem safe_throwIf_bind {c : Prop} [Decidable c] {e : ε} {k : Unit → Prog σ ε β} {s : σ}
    (hk : ¬ c → Safe rely guar (k ()) s) : Safe rely guar (throwIf c e >>= k) s := by
  unfold throwIf
  split
  · trivial
  · rename_i hc
    exact hk hc

/-- A program that runs alone moves along its guarantee, whichever steps of it fail. -/
theorem safe_runWith {p : Prog σ ε α} {s : σ} (hRely : ∀ s, rely s s) (hp : Safe rely guar p s)
    (faults : List (Option ε)) : Relation.ReflTransGen guar s (p.runWith faults s).2 := by
  induction p generalizing s faults with
  | done r => exact .refl
  | step upd next fail ihn ihf =>
      obtain ⟨hg, hn, he⟩ := hp s (hRely s)
      cases faults with
      | nil => exact .head hg (ihn s hn [])
      | cons fault faults =>
          cases fault with
          | none => exact .head hg (ihn s hn faults)
          | some e => exact ihf e (he e) faults

theorem safe_run {p : Prog σ ε α} {s : σ} (hRely : ∀ s, rely s s) (hp : Safe rely guar p s) :
    Relation.ReflTransGen guar s (p.run s).2 := by
  rw [← runWith_nil]
  exact safe_runWith hRely hp []

end Rules

end Prog

namespace Pool

open Prog

variable {ι σ ε α : Type} [DecidableEq ι] {R guar : σ → σ → Prop} {I : σ → Prop}

/-- What `Pool.invariant` carries along a run. -/
structure Good (R guar : σ → σ → Prop) (I : σ → Prop) (s₀ : σ) (c : Pool ι σ ε α) : Prop where
  since : R s₀ c.state
  holds : I c.state
  safe : ∀ i, Safe R guar (c.proc i) c.state

theorem Good.move {s₀ : σ} {c : Pool ι σ ε α} (hTrans : ∀ a b c, R a b → R b c → R a c)
    (h : Good R guar I s₀ c) {i : ι} {s' : σ} {p : Prog σ ε α} {n : Nat}
    (hR : R c.state s') (hI : I s') (hp : Safe R guar p s') :
    Good R guar I s₀ ⟨s', Function.update c.proc i p, Function.update c.steps i n⟩ where
  since := hTrans _ _ _ h.since hR
  holds := hI
  safe := by
    intro j
    by_cases hj : j = i
    · subst hj
      simpa using hp
    · simp only [Function.update_of_ne hj]
      exact (h.safe j).stable hTrans hR

theorem Good.step {env : σ → σ → Prop} {s₀ : σ} {c c' : Pool ι σ ε α} (hRefl : ∀ s, R s s)
    (hTrans : ∀ a b c, R a b → R b c → R a c)
    (hGuar : ∀ s s', I s → guar s s' → R s s' ∧ I s')
    (hEnv : ∀ s s', I s → env s s' → R s s' ∧ I s')
    (h : Good R guar I s₀ c) (hStep : Step env c c') : Good R guar I s₀ c' := by
  cases hStep with
  | exec i hExec =>
      have hi := h.safe i
      unfold exec at hExec
      split at hExec
      · cases hExec
      · rename_i upd next fail hProc
        cases hExec
        rw [hProc] at hi
        obtain ⟨hg, hn, _⟩ := hi _ (hRefl _)
        obtain ⟨hR, hI⟩ := hGuar _ _ h.holds hg
        exact h.move hTrans hR hI hn
  | fault i e hFault =>
      have hi := h.safe i
      unfold fault at hFault
      split at hFault
      · cases hFault
      · rename_i upd next fail hProc
        cases hFault
        rw [hProc] at hi
        exact h.move hTrans (hRefl _) h.holds ((hi _ (hRefl _)).2.2 e)
  | env hs =>
      obtain ⟨hR, hI⟩ := hEnv _ _ h.holds hs
      exact ⟨hTrans _ _ _ h.since hR, hI, fun i => (h.safe i).stable hTrans hR⟩

/-- **Invariants of interleavings.** Programs whose steps stay in `guar` while the others
stay in `R`, where `guar` keeps `I` and stays in `R`, keep both in every interleaving. -/
theorem invariant {env : σ → σ → Prop} {c₀ c : Pool ι σ ε α} (hRefl : ∀ s, R s s)
    (hTrans : ∀ a b c, R a b → R b c → R a c)
    (hGuar : ∀ s s', I s → guar s s' → R s s' ∧ I s')
    (hEnv : ∀ s s', I s → env s s' → R s s' ∧ I s') (hI : I c₀.state)
    (hSafe : ∀ i, Safe R guar (c₀.proc i) c₀.state)
    (hReach : Relation.ReflTransGen (Step env) c₀ c) : R c₀.state c.state ∧ I c.state := by
  have hGood : Good R guar I c₀.state c := by
    induction hReach with
    | refl => exact ⟨hRefl _, hI, hSafe⟩
    | tail _ hStep ih => exact ih.step hRefl hTrans hGuar hEnv hStep
  exact ⟨hGood.since, hGood.holds⟩

end Pool

/-! ## Traces -/

/-- An event of a trace that ends in `x` is `x`, or an event of the trace before it. -/
theorem trace_split {ω : Type} {events before after : List ω} {x e : ω}
    (h : events ++ [x] = before ++ e :: after) :
    (events = before ∧ x = e ∧ after = []) ∨
      ∃ rest, after = rest ++ [x] ∧ events = before ++ e :: rest := by
  rcases List.eq_nil_or_concat after with rfl | ⟨rest, last, rfl⟩
  · obtain ⟨hBefore, hLast⟩ := List.append_inj' h rfl
    exact Or.inl ⟨hBefore, List.singleton_inj.mp hLast, rfl⟩
  · have hTail : events ++ [x] = (before ++ e :: rest) ++ [last] := by
      rw [h]
      simp
    obtain ⟨hBefore, hLast⟩ := List.append_inj' hTail rfl
    obtain rfl := List.singleton_inj.mp hLast
    exact Or.inr ⟨rest, by simp, hBefore⟩
