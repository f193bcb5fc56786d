import Rooeel.Lib.History

/-!
# One program among others

`Prog.Commits` for every program of a pool says what the next step of a run can be. When only one
program is known to commit with its last step, the run still decides what became of it: it is
`going` on, and all it did stays in `guar`; or it has committed, in the step with which it
returned, and has not moved since. `Pool.History.fate` says so, whatever the other programs and
the environment do. What has been done by some step is related to the end of the run by
`Pool.History.since`.
-/

namespace Prog

variable {σ ε α β : Type} {guar : σ → σ → Prop}

/-- A program whose steps stay in `guar`, whatever happens in between. -/
theorem learns_of_guarantees {past : Set (σ × σ)} {p : Prog σ ε α}
    (hp : Guarantees (fun _ _ => True) guar p) : Learns guar (fun _ _ => True) past p := by
  have hAny {q : Prog σ ε α} {s : σ} (hq : Safe (fun _ _ => True) guar q s) :
      Guarantees (fun _ _ => True) guar q := fun _ => hq.stable (fun _ _ _ _ _ => trivial) trivial
  induction p generalizing past with
  | done r => cases r <;> trivial
  | step upd next fail ihn ihf =>
      intro s
      obtain ⟨hGuar, hNext, hFail⟩ := hp s s trivial
      exact ⟨Or.inr ⟨hGuar, ihn s (hAny hNext)⟩, fun e => ihf e (hAny (hFail e))⟩

/-- A statement that is the whole rest of the program. -/
theorem commits_statement {commit : Set (σ × σ) → σ → σ → α → Prop}
    {post : Set (σ × σ) → α → Prop} {past : Set (σ × σ)} {f : σ → Except ε (α × σ)}
    (hRefl : ∀ s, guar s s) (h : ∀ s a s', f s = .ok (a, s') → commit past s s' a) :
    Commits guar commit post past (atomic f) := by
  intro s
  refine ⟨?_, fun _ => trivial⟩
  change (∃ a, Prog.done ((f s).map Prod.fst) = .done (.ok a) ∧ commit past s (effect f s) a) ∨
    (guar s (effect f s) ∧ Commits guar commit post (insert (s, effect f s) past)
      (.done ((f s).map Prod.fst)))
  cases hResult : f s with
  | error e =>
      rw [effect_error hResult]
      exact Or.inr ⟨hRefl s, trivial⟩
  | ok out =>
      obtain ⟨a, s'⟩ := out
      rw [effect_ok hResult]
      exact Or.inl ⟨a, rfl, h s a s' hResult⟩

/-- The next step of a program that commits with its last one. -/
theorem Commits.exec {commit : Set (σ × σ) → σ → σ → α → Prop} {post : Set (σ × σ) → α → Prop}
    {past : Set (σ × σ)} {upd : σ → σ} {next : σ → Prog σ ε α} {fail : ε → Prog σ ε α}
    (h : Commits guar commit post past (.step upd next fail)) (s : σ) :
    (∃ a, next s = .done (.ok a) ∧ commit past s (upd s) a) ∨
      (guar s (upd s) ∧ Commits guar commit post (insert (s, upd s) past) (next s)) :=
  (h s).1

end Prog

namespace Pool

open Prog

variable {ι σ ε α : Type} {env guar : σ → σ → Prop}
  {commit : Set (σ × σ) → σ → σ → α → Prop} {post : Set (σ × σ) → α → Prop}
  {c₀ c c' : Pool ι σ ε α} {i : ι} {steps : List (Pool ι σ ε α × Pool ι σ ε α)}

/-- Program `i` has returned with the step `m`, which commits. -/
structure Committed (guar : σ → σ → Prop) (commit : Set (σ × σ) → σ → σ → α → Prop)
    (before : List (Pool ι σ ε α × Pool ι σ ε α)) (m : Pool ι σ ε α × Pool ι σ ε α) (i : ι)
    (a : α) : Prop where
  moved : Moved m.1 m.2 i
  returned : m.2.Returned i a
  commit : commit (Past before i) m.1.state m.2.state a
  before : ∀ t ∈ Past before i, guar t.1 t.2

/-- What has become of program `i` in a run. -/
inductive Fate (guar : σ → σ → Prop) (commit : Set (σ × σ) → σ → σ → α → Prop)
    (post : Set (σ × σ) → α → Prop) (steps : List (Pool ι σ ε α × Pool ι σ ε α))
    (c : Pool ι σ ε α) (i : ι) : Prop
  | going (hCommits : Commits guar commit post (Past steps i) (c.proc i))
      (hGuar : ∀ t ∈ Past steps i, guar t.1 t.2)
  | committed (before : List (Pool ι σ ε α × Pool ι σ ε α)) (m : Pool ι σ ε α × Pool ι σ ε α)
      (after : List (Pool ι σ ε α × Pool ι σ ε α)) {a : α} (hSteps : steps = before ++ m :: after)
      (hCommitted : Committed guar commit before m i a) (hReturned : c.Returned i a)
      (hRest : ∀ m' ∈ after, ¬ Moved m'.1 m'.2 i)

/-- A step of others. -/
theorem Fate.others (h : Fate guar commit post steps c i) (hStill : ¬ Moved c c' i)
    (hProc : c'.proc i = c.proc i) : Fate guar commit post (steps ++ [(c, c')]) c' i := by
  cases h with
  | going hCommits hGuar =>
      refine .going ?_ ?_
      · rwa [past_not_moved hStill, hProc]
      · rwa [past_not_moved hStill]
  | committed before m after hSteps hCommitted hReturned hRest =>
      refine .committed before m (after ++ [(c, c')]) ?_ hCommitted (hProc.trans hReturned) ?_
      · rw [hSteps, List.append_assoc, List.cons_append]
      · intro m' hm'
        rcases List.mem_append.mp hm' with hOld | hNew
        · exact hRest m' hOld
        · rw [List.mem_singleton.mp hNew]
          exact hStill

/-- A step of the program itself, in `guar`. -/
theorem Fate.goesOn (hGuar : ∀ t ∈ Past steps i, guar t.1 t.2) (hMoved : Moved c c' i)
    (hStep : guar c.state c'.state)
    (hNext : Commits guar commit post (insert (c.state, c'.state) (Past steps i)) (c'.proc i)) :
    Fate guar commit post (steps ++ [(c, c')]) c' i := by
  refine .going ?_ fun t ht => ?_
  · rwa [past_moved hMoved]
  · rw [past_moved hMoved] at ht
    rcases ht with rfl | hOld
    · exact hStep
    · exact hGuar t hOld

/-- A program that has returned does not move. -/
theorem Fate.running (h : Fate guar commit post steps c i) (hMoved : Moved c c' i) :
    Commits guar commit post (Past steps i) (c.proc i) ∧ ∀ t ∈ Past steps i, guar t.1 t.2 := by
  cases h with
  | going hCommits hGuar => exact ⟨hCommits, hGuar⟩
  | committed _ _ _ _ _ hReturned _ => exact absurd ⟨_, hReturned⟩ hMoved.running

variable [DecidableEq ι]

theorem Fate.exec (h : Fate guar commit post steps c i) (hExec : c.exec i = some c') :
    Fate guar commit post (steps ++ [(c, c')]) c' i := by
  have hMoved := moved_of_exec hExec
  obtain ⟨hCommits, hGuar⟩ := h.running hMoved
  cases hProc : c.proc i with
  | done r => exact absurd ⟨r, hProc⟩ hMoved.running
  | step upd next fail =>
      have hAdvance := advance_of_exec hExec hProc
      rw [hProc] at hCommits
      rcases hCommits.exec c.state with ⟨a, hDone, hCommit⟩ | ⟨hStep, hNext⟩
      · have hReturned : c'.Returned i a := hAdvance.proc.trans hDone
        rw [← hAdvance.state] at hCommit
        exact .committed steps (c, c') [] rfl ⟨hMoved, hReturned, hCommit, hGuar⟩ hReturned
          fun _ hNone => nomatch hNone
      · rw [← hAdvance.state, ← hAdvance.proc] at hNext
        rw [← hAdvance.state] at hStep
        exact .goesOn hGuar hMoved hStep hNext

theorem Fate.fault (hRefl : ∀ s, guar s s) (h : Fate guar commit post steps c i) {e : ε}
    (hFault : c.fault i e = some c') : Fate guar commit post (steps ++ [(c, c')]) c' i := by
  have hMoved := moved_of_fault hFault
  have hState := state_of_fault hFault
  obtain ⟨hCommits, hGuar⟩ := h.running hMoved
  cases hProc : c.proc i with
  | done r => exact absurd ⟨r, hProc⟩ hMoved.running
  | step upd next fail =>
      rw [hProc] at hCommits
      have hNext := (hCommits c.state).2 e
      rw [← (advance_of_fault hFault hProc).proc] at hNext
      refine .goesOn hGuar hMoved ?_ ?_
      · rw [hState]
        exact hRefl _
      · rwa [hState]

/-- **What becomes of a program that commits with its last step**, in any company. -/
theorem History.fate (hRefl : ∀ s, guar s s) (h : History env c₀ steps c)
    (hStart : Commits guar commit post ∅ (c₀.proc i)) : Fate guar commit post steps c i := by
  induction h with
  | start =>
      have hNone : Past ([] : List (Pool ι σ ε α × Pool ι σ ε α)) i = ∅ :=
        Set.eq_empty_of_forall_notMem fun t ⟨m, hm, _⟩ => List.not_mem_nil hm
      refine .going ?_ fun t ht => ?_
      · rwa [hNone]
      · rw [hNone] at ht
        exact ht.elim
  | step _ hStep ih =>
      cases hStep with
      | exec j hExec =>
          by_cases hSame : i = j
          · subst hSame
            exact ih.exec hExec
          · have hMoved := moved_of_exec hExec
            exact ih.others (fun hAlso => hSame (hAlso.eq hMoved)) (hMoved.others i hSame).1
      | fault j e hFault =>
          by_cases hSame : i = j
          · subst hSame
            exact ih.fault hRefl hFault
          · have hMoved := moved_of_fault hFault
            exact ih.others (fun hAlso => hSame (hAlso.eq hMoved)) (hMoved.others i hSame).1
      | env hEnv =>
          exact ih.others (fun hMoved => absurd hMoved.steps (Nat.succ_ne_self _).symm) rfl

/-- What all steps keep holds from every step on. -/
theorem History.since {R : σ → σ → Prop} (hRefl : ∀ s, R s s)
    (hTrans : ∀ a b c, R a b → R b c → R a c) (hEnv : ∀ s s', env s s' → R s s')
    (hSafe : ∀ i, Safe R R (c₀.proc i) c₀.state) (h : History env c₀ steps c) :
    ∀ m ∈ steps, R m.2.state c.state := by
  have hStep {s₀ : σ} {c c' : Pool ι σ ε α} (hGood : Good R R (fun _ => True) s₀ c)
      (hNext : Step env c c') : Good R R (fun _ => True) s₀ c' :=
    hGood.step hRefl hTrans (fun _ _ _ hGuar => ⟨hGuar, trivial⟩)
      (fun _ _ _ hMove => ⟨hEnv _ _ hMove, trivial⟩) hNext
  suffices hBoth : Good R R (fun _ => True) c₀.state c ∧ ∀ m ∈ steps, R m.2.state c.state from
    hBoth.2
  induction h with
  | start => exact ⟨⟨hRefl _, trivial, hSafe⟩, fun _ hNone => nomatch hNone⟩
  | @step steps c c' _ hNext ih =>
      refine ⟨hStep ih.1 hNext, fun m hm => ?_⟩
      rcases List.mem_append.mp hm with hOld | hNew
      · have hHere : Good R R (fun _ => True) c.state c := ⟨hRefl _, trivial, ih.1.safe⟩
        exact hTrans _ _ _ (ih.2 m hOld) (hStep hHere hNext).since
      · rw [List.mem_singleton.mp hNew]
        exact hRefl _

end Pool
