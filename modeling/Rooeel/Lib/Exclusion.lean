import Rooeel.Lib.Interleaving

/-!
# Programs that keep each other out

`Pool.ExecUnless busy` are the executed steps in which no program takes its first step while
another one is `busy`. With a suitable `busy` at most one program at a time is between its
first step and the end of what must not overlap; `Pool.IdleBut` says that all others have not
started or have failed. The lemmas `exec_…` compute what one step makes of a program of a
given form.
-/

namespace Pool

variable {ι σ ε α : Type} [DecidableEq ι]

/-! ## One executed step -/

/-- Program `i` was about to take the step `upd`, `next`, and has taken it. -/
structure Advance (c c' : Pool ι σ ε α) (i : ι) (upd : σ → σ) (next : σ → Prog σ ε α) : Prop where
  state : c'.state = upd c.state
  proc : c'.proc i = next c.state
  steps : c'.steps i = c.steps i + 1
  others : ∀ j, j ≠ i → c'.proc j = c.proc j ∧ c'.steps j = c.steps j

variable {c c' : Pool ι σ ε α} {i : ι}

theorem advance_of_exec (h : c.exec i = some c') {upd : σ → σ} {next : σ → Prog σ ε α}
    {fail : ε → Prog σ ε α} (hProc : c.proc i = .step upd next fail) : Advance c c' i upd next := by
  unfold exec at h
  rw [hProc] at h
  cases h
  refine ⟨rfl, by simp, by simp, fun j hj => ?_⟩
  simp [Function.update_of_ne hj]

/-- A program that has ended takes no step. -/
theorem exec_ended (h : c.exec i = some c') : ¬ c.Ended i := by
  rintro ⟨r, hDone⟩
  unfold exec at h
  rw [hDone] at h
  cases h

/-- A statement whose outcome decides what follows. -/
theorem exec_effect {β : Type} {f : σ → Except ε (β × σ)} {k : Except ε β → Prog σ ε α}
    {fail : ε → Prog σ ε α} (h : c.exec i = some c')
    (hProc : c.proc i = .step (Prog.effect f) (fun s => k ((f s).map Prod.fst)) fail) :
    (∃ b, f c.state = .ok (b, c'.state) ∧ c'.proc i = k (.ok b)) ∨
      (∃ e, f c.state = .error e ∧ c'.state = c.state ∧ c'.proc i = k (.error e)) := by
  have hStep := advance_of_exec h hProc
  have hState := hStep.state
  have hNext := hStep.proc
  cases hResult : f c.state with
  | ok out =>
      obtain ⟨b, s'⟩ := out
      rw [Prog.effect_ok hResult] at hState
      rw [hResult] at hNext
      rw [hState]
      exact Or.inl ⟨b, rfl, hNext⟩
  | error e =>
      rw [Prog.effect_error hResult] at hState
      rw [hResult] at hNext
      exact Or.inr ⟨e, rfl, hState, hNext⟩

/-- A statement, and what follows it. -/
theorem exec_atomic {β : Type} {f : σ → Except ε (β × σ)} {k : β → Prog σ ε α}
    (h : c.exec i = some c') (hProc : c.proc i = Prog.atomic f >>= k) :
    (∃ b, f c.state = .ok (b, c'.state) ∧ c'.proc i = k b) ∨
      (∃ e, f c.state = .error e ∧ c'.state = c.state ∧ c'.proc i = .done (.error e)) :=
  exec_effect (k := fun r => (Prog.done r).bind k) h hProc

/-- A read, and what follows it. -/
theorem exec_read {β : Type} {f : σ → β} {k : β → Prog σ ε α} (h : c.exec i = some c')
    (hProc : c.proc i = Prog.read (fun s => .ok (f s)) >>= k) :
    c'.state = c.state ∧ c'.proc i = k (f c.state) := by
  have hStep := advance_of_exec h hProc
  exact ⟨hStep.state, hStep.proc⟩

/-- A statement inside a handler, what follows it there, and what follows the handler. -/
theorem exec_tryCatch_atomic {β γ : Type} {f : σ → Except ε (β × σ)} {k : β → Prog σ ε γ}
    {handler : ε → Prog σ ε γ} {g : γ → Prog σ ε α} (h : c.exec i = some c')
    (hProc : c.proc i = tryCatch (Prog.atomic f >>= k) handler >>= g) :
    (∃ b, f c.state = .ok (b, c'.state) ∧ c'.proc i = tryCatch (k b) handler >>= g) ∨
      (∃ e, f c.state = .error e ∧ c'.state = c.state ∧ c'.proc i = handler e >>= g) :=
  exec_effect (k := fun r => tryCatch ((Prog.done r).bind k) handler >>= g) h hProc

theorem steps_of_exec (h : c.exec i = some c') : c'.steps i ≠ 0 := by
  cases hProc : c.proc i with
  | done r => exact absurd ⟨r, hProc⟩ (exec_ended h)
  | step upd next fail =>
      rw [(advance_of_exec h hProc).steps]
      exact Nat.succ_ne_zero _

/-- The step of a program that fails has no effect. -/
theorem advance_of_fault {e : ε} (h : c.fault i e = some c') {upd : σ → σ}
    {next : σ → Prog σ ε α} {fail : ε → Prog σ ε α} (hProc : c.proc i = .step upd next fail) :
    Advance c c' i id fun _ => fail e := by
  unfold fault at h
  rw [hProc] at h
  cases h
  refine ⟨rfl, by simp, by simp, fun j hj => ?_⟩
  simp [Function.update_of_ne hj]

/-- Program `i` had not ended and has taken a step, executed or failed. -/
structure Moved (c c' : Pool ι σ ε α) (i : ι) : Prop where
  running : ¬ c.Ended i
  steps : c'.steps i = c.steps i + 1
  others : ∀ j, j ≠ i → c'.proc j = c.proc j ∧ c'.steps j = c.steps j

theorem moved_of_exec (h : c.exec i = some c') : Moved c c' i := by
  cases hProc : c.proc i with
  | done r => exact absurd ⟨r, hProc⟩ (exec_ended h)
  | step upd next fail =>
      have hAdvance := advance_of_exec h hProc
      exact ⟨exec_ended h, hAdvance.steps, hAdvance.others⟩

theorem moved_of_fault {e : ε} (h : c.fault i e = some c') : Moved c c' i := by
  cases hProc : c.proc i with
  | done r =>
      unfold fault at h
      rw [hProc] at h
      cases h
  | step upd next fail =>
      have hAdvance := advance_of_fault h hProc
      refine ⟨?_, hAdvance.steps, hAdvance.others⟩
      rintro ⟨r, hDone⟩
      rw [hProc] at hDone
      cases hDone

theorem state_of_fault {e : ε} (h : c.fault i e = some c') : c'.state = c.state := by
  cases hProc : c.proc i with
  | done r => exact absurd ⟨r, hProc⟩ (moved_of_fault h).running
  | step upd next fail => exact (advance_of_fault h hProc).state

/-- A statement that fails ends the program. -/
theorem fault_atomic {β : Type} {e : ε} {f : σ → Except ε (β × σ)} {k : β → Prog σ ε α}
    (h : c.fault i e = some c') (hProc : c.proc i = Prog.atomic f >>= k) :
    c'.proc i = .done (.error e) :=
  (advance_of_fault h hProc).proc

/-- A read that fails ends the program. -/
theorem fault_read {β : Type} {e : ε} {f : σ → Except ε β} {k : β → Prog σ ε α}
    (h : c.fault i e = some c') (hProc : c.proc i = Prog.read f >>= k) :
    c'.proc i = .done (.error e) :=
  (advance_of_fault h hProc).proc

/-- Two programs do not take the same step. -/
theorem Moved.eq {j : ι} (hi : Moved c c' i) (hj : Moved c c' j) : i = j := by
  by_contra hNe
  have hSame := (hj.others i hNe).2
  rw [hi.steps] at hSame
  exact absurd hSame (Nat.succ_ne_self _)

theorem exec_others (h : c.exec i = some c') {j : ι} (hj : j ≠ i) :
    c'.proc j = c.proc j ∧ c'.steps j = c.steps j :=
  (moved_of_exec h).others j hj

/-- A program that guarantees something among arbitrary other programs takes such a step, and
goes on guaranteeing it. -/
theorem exec_guarantees {guar : σ → σ → Prop} (h : c.exec i = some c')
    (hProc : Prog.Guarantees (fun _ _ => True) guar (c.proc i)) :
    guar c.state c'.state ∧ Prog.Guarantees (fun _ _ => True) guar (c'.proc i) := by
  cases hStep : c.proc i with
  | done r => exact absurd ⟨r, hStep⟩ (exec_ended h)
  | step upd next fail =>
      have hAdvance := advance_of_exec h hStep
      rw [hStep] at hProc
      obtain ⟨hGuar, hNext, -⟩ := hProc c.state c.state trivial
      rw [hAdvance.state, hAdvance.proc]
      exact ⟨hGuar, fun s => hNext.stable (fun _ _ _ _ _ => trivial) trivial⟩

/-! ## Steps that respect a critical section -/

/-- An executed step, which is not the first one of its program while another program is
busy. -/
def ExecUnless (busy : Pool ι σ ε α → ι → Prop) (c c' : Pool ι σ ε α) : Prop :=
  ∃ i, c.exec i = some c' ∧ (c.steps i = 0 → ∀ j, ¬ busy c j)

/-- Program `j` has not started, or has failed. -/
def Idle (proc : ι → Prog σ ε α) (c : Pool ι σ ε α) (j : ι) : Prop :=
  (c.steps j = 0 ∧ c.proc j = proc j) ∨ ∃ e, c.proc j = .done (.error e)

/-- All programs are idle, but possibly `who`. -/
def IdleBut (proc : ι → Prog σ ε α) (c : Pool ι σ ε α) (who : Option ι) : Prop :=
  ∀ j, who ≠ some j → Idle proc c j

variable {proc : ι → Prog σ ε α} {who who' : Option ι}

omit [DecidableEq ι] in
theorem idleBut_start (s : σ) (proc : ι → Prog σ ε α) : IdleBut proc (start s proc) none :=
  fun _ _ => Or.inl ⟨rfl, rfl⟩

omit [DecidableEq ι] in
/-- An idle program that takes a step takes its first one. -/
theorem Idle.moves (h : Idle proc c i) (hMoved : Moved c c' i) :
    c.steps i = 0 ∧ c.proc i = proc i := by
  rcases h with hFirst | ⟨e, hFailed⟩
  · exact hFirst
  · exact absurd ⟨_, hFailed⟩ hMoved.running

theorem Idle.first (h : Idle proc c i) (hExec : c.exec i = some c') :
    c.steps i = 0 ∧ c.proc i = proc i :=
  h.moves (moved_of_exec hExec)

/-- After a step of `i` the others are as idle as before. -/
theorem IdleBut.moves (h : IdleBut proc c who) (hMoved : Moved c c' i)
    (hWho : ∀ j, who = some j → who' = some j ∨ j = i)
    (hSelf : who' = some i ∨ ∃ e, c'.proc i = .done (.error e)) : IdleBut proc c' who' := by
  intro j hj
  by_cases hSame : j = i
  · subst hSame
    exact Or.inr (hSelf.resolve_left hj)
  · obtain ⟨hProc, hSteps⟩ := hMoved.others j hSame
    have hIdle : Idle proc c j := h j fun hWas => (hWho j hWas).elim hj hSame
    rw [Idle, hProc, hSteps]
    exact hIdle

theorem IdleBut.exec (h : IdleBut proc c who) (hExec : c.exec i = some c')
    (hWho : ∀ j, who = some j → who' = some j ∨ j = i)
    (hSelf : who' = some i ∨ ∃ e, c'.proc i = .done (.error e)) : IdleBut proc c' who' :=
  h.moves (moved_of_exec hExec) hWho hSelf

omit [DecidableEq ι] in
/-- When a program takes its first step only while no other one is running, an idle one that
takes a step finds all others ended that have taken a step. -/
theorem IdleBut.ended_of_alone (h : IdleBut proc c who) (hMoved : Moved c c' i)
    (hAlone : c.steps i = 0 → ∀ j, ¬ c.Running j) (hWho : who ≠ some i) {k : ι}
    (hSteps : c.steps k ≠ 0) : c.Ended k := by
  by_contra hNot
  exact hAlone ((h i hWho).moves hMoved).1 k ⟨Nat.pos_of_ne_zero hSteps, hNot⟩

omit [DecidableEq ι] in
/-- When no program returns without a step, only `who` can have returned. -/
theorem IdleBut.returned (h : IdleBut proc c who) (hProc : ∀ j a, proc j ≠ .done (.ok a)) {a : α}
    (hReturned : c.Returned i a) : who = some i := by
  by_contra hWho
  rw [Returned] at hReturned
  rcases h i hWho with ⟨-, hFirst⟩ | ⟨e, hFailed⟩
  · exact hProc i a (hFirst.symm.trans hReturned)
  · rw [hFailed] at hReturned
    cases hReturned

omit [DecidableEq ι] in
theorem IdleBut.returned_unique (h : IdleBut proc c who) (hProc : ∀ j a, proc j ≠ .done (.ok a))
    {i j : ι} {a b : α} (hi : c.Returned i a) (hj : c.Returned j b) : i = j :=
  Option.some.inj ((h.returned hProc hi).symm.trans (h.returned hProc hj))

end Pool
