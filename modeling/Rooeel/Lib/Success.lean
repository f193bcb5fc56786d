import Rooeel.Lib.History

/-!
# Programs that succeed

`Prog.Succeeds rely post p s`: from `s` on, and whatever others do as long as they stay in `rely`,
`p` ends with no exception unless a step of it fails, and what it returns satisfies `post`, then and
for as long as the others stay in `rely`. The rules follow the way a program is built; a handler of
exceptions plays no part.

`Pool.succeeds_among` is about one program of a pool: the others tolerate what it does, and it
tolerates what they do, which may be less.
-/

namespace Prog

variable {σ τ ε α β : Type}

/-- The program returns a value in `post`, if none of its steps fails. -/
def Succeeds (rely : σ → σ → Prop) (post : α → σ → Prop) : Prog σ ε α → σ → Prop
  | .done (.ok a), s => ∀ s', rely s s' → post a s'
  | .done (.error _), _ => False
  | .step upd next _, s => ∀ s', rely s s' → Succeeds rely post (next s') (upd s')

section Rules

variable {rely : σ → σ → Prop} {post : α → σ → Prop} {s : σ}

theorem Succeeds.stable {p : Prog σ ε α} {s' : σ}
    (hTrans : ∀ a b c, rely a b → rely b c → rely a c) (h : Succeeds rely post p s)
    (hs : rely s s') : Succeeds rely post p s' := by
  cases p with
  | done r =>
      cases r with
      | ok a => exact fun s'' hs'' => h s'' (hTrans _ _ _ hs hs'')
      | error e => exact h
  | step upd next fail => exact fun s'' hs'' => h s'' (hTrans _ _ _ hs hs'')

theorem succeeds_pure {a : α} (h : ∀ s', rely s s' → post a s') :
    Succeeds rely post (pure a : Prog σ ε α) s := h

theorem succeeds_bind {P : β → σ → Prop} {p : Prog σ ε β} {f : β → Prog σ ε α}
    (hRefl : ∀ s, rely s s) (hp : Succeeds rely P p s)
    (hf : ∀ b s', P b s' → Succeeds rely post (f b) s') : Succeeds rely post (p >>= f) s := by
  induction p generalizing s with
  | done r =>
      cases r with
      | ok b => exact hf b s (hp s (hRefl s))
      | error e => exact hp.elim
  | step upd next fail ihn _ => exact fun s' hs' => ihn s' (hp s' hs')

/-- There is no exception to handle. -/
theorem succeeds_tryCatch {p : Prog σ ε α} {handler : ε → Prog σ ε α}
    (hp : Succeeds rely post p s) : Succeeds rely post (tryCatch p handler) s := by
  induction p generalizing s with
  | done r =>
      cases r with
      | ok a => exact hp
      | error e => exact hp.elim
  | step upd next fail ihn _ => exact fun s' hs' => ihn s' (hp s' hs')

theorem succeeds_read {f : σ → Except ε α}
    (h : ∀ s', rely s s' → ∃ a, f s' = .ok a ∧ ∀ s'', rely s' s'' → post a s'') :
    Succeeds rely post (read f) s := by
  intro s' hs'
  obtain ⟨a, hOk, hPost⟩ := h s' hs'
  change Succeeds rely post (.done (f s')) s'
  rw [hOk]
  exact hPost

theorem succeeds_atomic {f : σ → Except ε (α × σ)}
    (h : ∀ s', rely s s' → ∃ a s'', f s' = .ok (a, s'') ∧ ∀ s₁, rely s'' s₁ → post a s₁) :
    Succeeds rely post (atomic f) s := by
  intro s' hs'
  obtain ⟨a, s'', hOk, hPost⟩ := h s' hs'
  change Succeeds rely post (.done ((f s').map Prod.fst)) (effect f s')
  rw [effect_ok hOk, hOk]
  exact hPost

/-- A guard that lets the program pass. -/
theorem succeeds_throwIf_bind {c : Prop} [Decidable c] {e : ε} {f : Unit → Prog σ ε α} (hc : ¬ c)
    (hf : Succeeds rely post (f ()) s) : Succeeds rely post (throwIf c e >>= f) s := by
  rw [throwIf_bind, if_neg hc]
  exact hf

/-- A program on a part of the state. -/
theorem succeeds_within {get : τ → σ} {put : σ → τ → τ} (hGet : ∀ s t, get (put s t) = s)
    {p : Prog σ ε α} {t : τ} (hp : Succeeds rely post p (get t)) :
    Succeeds (fun t t' => rely (get t) (get t')) (fun a t => post a (get t))
      (p.within get put) t := by
  induction p generalizing t with
  | done r =>
      cases r with
      | ok a => exact fun t' ht' => hp (get t') ht'
      | error e => exact hp
  | step upd next fail ihn _ =>
      intro t' ht'
      refine ihn (get t') ?_
      rw [hGet]
      exact hp (get t') ht'

end Rules

end Prog

namespace Pool

open Prog

variable {ι σ ε α : Type} [DecidableEq ι] {env R rely : σ → σ → Prop} {post : α → σ → Prop}
  {c₀ c c' : Pool ι σ ε α} {i : ι}

/-- A step in which program `i` does not fail. -/
inductive StepFor (env : σ → σ → Prop) (i : ι) (c : Pool ι σ ε α) : Pool ι σ ε α → Prop
  | exec {c' : Pool ι σ ε α} (j : ι) (h : c.exec j = some c') : StepFor env i c c'
  | fault {c' : Pool ι σ ε α} (j : ι) (e : ε) (hOther : j ≠ i) (h : c.fault j e = some c') :
      StepFor env i c c'
  | env {s' : σ} (h : env c.state s') : StepFor env i c { c with state := s' }

/-- The others stay in `rely`, program `i` stays in `R`, and it is going to succeed. -/
structure Succeeding (R rely : σ → σ → Prop) (post : α → σ → Prop) (i : ι) (c : Pool ι σ ε α) :
    Prop where
  others : ∀ j, j ≠ i → Safe R rely (c.proc j) c.state
  own : Safe R R (c.proc i) c.state
  succeeds : Succeeds rely post (c.proc i) c.state

/-- The state has moved on, and none of the programs but `j`. -/
theorem Succeeding.others_stable (hTrans : ∀ a b c, R a b → R b c → R a c)
    (h : Succeeding R rely post i c) {j : ι} (hStill : ∀ k, k ≠ j → c'.proc k = c.proc k)
    (hMove : R c.state c'.state) (hNext : j ≠ i → Safe R rely (c'.proc j) c'.state) :
    ∀ k, k ≠ i → Safe R rely (c'.proc k) c'.state := by
  intro k hk
  by_cases hj : k = j
  · subst hj
    exact hNext hk
  · rw [hStill k hj]
    exact (h.others k hk).stable hTrans hMove

variable (hRefl : ∀ s, R s s) (hTrans : ∀ a b c, R a b → R b c → R a c)
  (hRely : ∀ s s', rely s s' → R s s') (hRelyRefl : ∀ s, rely s s)
  (hRelyTrans : ∀ a b c, rely a b → rely b c → rely a c)

include hRefl hTrans hRely hRelyRefl hRelyTrans in
theorem Succeeding.exec (h : Succeeding R rely post i c) {j : ι} (hExec : c.exec j = some c') :
    Succeeding R rely post i c' := by
  have hMoved := moved_of_exec hExec
  have hStill (k : ι) (hk : k ≠ j) : c'.proc k = c.proc k := (hMoved.others k hk).1
  cases hProc : c.proc j with
  | done r => exact absurd ⟨r, hProc⟩ hMoved.running
  | step upd next fail =>
      have hAdvance := advance_of_exec hExec hProc
      by_cases hSame : j = i
      · subst hSame
        have hOwn := h.own
        have hSucceeds := h.succeeds
        rw [hProc] at hOwn hSucceeds
        obtain ⟨hStep, hNext, -⟩ := hOwn c.state (hRefl _)
        have hMove : R c.state c'.state := hAdvance.state ▸ hStep
        refine ⟨h.others_stable hTrans hStill hMove fun hNe => absurd rfl hNe, ?_, ?_⟩
        · rw [hAdvance.proc, hAdvance.state]
          exact hNext
        · rw [hAdvance.proc, hAdvance.state]
          exact hSucceeds c.state (hRelyRefl _)
      · have hOther := h.others j hSame
        rw [hProc] at hOther
        obtain ⟨hStep, hNext, -⟩ := hOther c.state (hRefl _)
        have hWithin : rely c.state c'.state := hAdvance.state ▸ hStep
        have hMove := hRely _ _ hWithin
        have hKept : c'.proc i = c.proc i := hStill i (Ne.symm hSame)
        refine ⟨h.others_stable hTrans hStill hMove fun _ => ?_, ?_, ?_⟩
        · rw [hAdvance.proc, hAdvance.state]
          exact hNext
        · rw [hKept]
          exact h.own.stable hTrans hMove
        · rw [hKept]
          exact h.succeeds.stable hRelyTrans hWithin

include hRefl hTrans in
/-- Another program fails. -/
theorem Succeeding.fault (h : Succeeding R rely post i c) {j : ι} {e : ε} (hOther : j ≠ i)
    (hFault : c.fault j e = some c') : Succeeding R rely post i c' := by
  have hMoved := moved_of_fault hFault
  have hState := state_of_fault hFault
  have hKept : c'.proc i = c.proc i := (hMoved.others i (Ne.symm hOther)).1
  have hMove : R c.state c'.state := by
    rw [hState]
    exact hRefl _
  refine ⟨h.others_stable hTrans (fun k hk => (hMoved.others k hk).1) hMove fun hNe => ?_, ?_, ?_⟩
  · cases hProc : c.proc j with
    | done r => exact absurd ⟨r, hProc⟩ hMoved.running
    | step upd next fail =>
        have hSafe := h.others j hNe
        rw [hProc] at hSafe
        rw [(advance_of_fault hFault hProc).proc, hState]
        exact (hSafe c.state (hRefl _)).2.2 e
  · rw [hKept, hState]
    exact h.own
  · rw [hKept, hState]
    exact h.succeeds

include hRefl hTrans hRely hRelyRefl hRelyTrans in
/-- **One program among others**: when the others stay in `rely`, a program that succeeds within
`rely` is going to succeed, at every point of a run in which none of its own steps fails. -/
theorem succeeds_among (hEnv : ∀ s s', env s s' → rely s s')
    (hOthers : ∀ j, j ≠ i → Safe R rely (c₀.proc j) c₀.state)
    (hOwn : Safe R R (c₀.proc i) c₀.state) (hSucceeds : Succeeds rely post (c₀.proc i) c₀.state)
    (hReach : Relation.ReflTransGen (StepFor env i) c₀ c) :
    Succeeds rely post (c.proc i) c.state := by
  suffices hAll : Succeeding R rely post i c from hAll.succeeds
  induction hReach with
  | refl => exact ⟨hOthers, hOwn, hSucceeds⟩
  | tail _ hStep ih =>
      cases hStep with
      | exec j h => exact ih.exec hRefl hTrans hRely hRelyRefl hRelyTrans h
      | fault j e hOther h => exact ih.fault hRefl hTrans hOther h
      | env h =>
          have hWithin := hEnv _ _ h
          have hMove := hRely _ _ hWithin
          exact ⟨fun j hj => (ih.others j hj).stable hTrans hMove, ih.own.stable hTrans hMove,
            ih.succeeds.stable hRelyTrans hWithin⟩

/-- Executed steps, of whichever program. -/
theorem reachFor_of_exec (h : Relation.ReflTransGen Exec c₀ c) :
    Relation.ReflTransGen (StepFor env i) c₀ c := by
  induction h with
  | refl => exact .refl
  | tail _ hExec ih =>
      obtain ⟨j, hj⟩ := hExec
      exact .tail ih (.exec j hj)

end Pool
