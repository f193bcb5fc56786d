import Rooeel.Lib.Exclusion
import Mathlib.Data.Set.Image

/-!
# What a program has seen when it returns

`Prog.Commits guar commit post past p`: every step of `p` stays in `guar`, but possibly the last
one, which is a `commit`; a program that ends in any other way satisfies `post`. Both may speak
about the steps that the program has taken before, as pairs of states: what it looked up there,
others may have changed since.

A `History` is a run of a pool with all of its steps, and `Pool.Past` are those of one program.
`History.change` says what the next step can be.
-/

namespace Prog

variable {σ τ ε α β : Type}

/-- The program takes steps in `guar`, and ends with `post` or with a step that commits. -/
def Commits (guar : σ → σ → Prop) (commit : Set (σ × σ) → σ → σ → α → Prop)
    (post : Set (σ × σ) → α → Prop) : Set (σ × σ) → Prog σ ε α → Prop
  | past, .done (.ok a) => post past a
  | _, .done (.error _) => True
  | past, .step upd next fail => ∀ s,
      ((∃ a, next s = .done (.ok a) ∧ commit past s (upd s) a) ∨
        (guar s (upd s) ∧ Commits guar commit post (insert (s, upd s) past) (next s))) ∧
      ∀ e, Commits guar commit post (insert (s, s) past) (fail e)

/-- A part of a program that does not commit. -/
abbrev Learns (guar : σ → σ → Prop) (post : Set (σ × σ) → α → Prop) (past : Set (σ × σ))
    (p : Prog σ ε α) : Prop :=
  Commits guar (fun _ _ _ _ => False) post past p

section Rules

variable {guar : σ → σ → Prop} {commit : Set (σ × σ) → σ → σ → α → Prop}
  {post : Set (σ × σ) → α → Prop} {past : Set (σ × σ)}

theorem commits_pure {a : α} (h : post past a) :
    Commits guar commit post past (pure a : Prog σ ε α) := h

theorem commits_throw (e : ε) : Commits guar commit post past (throw e : Prog σ ε α) := trivial

/-- The first step of a part that does not commit. -/
theorem learns_step {upd : σ → σ} {next : σ → Prog σ ε α} {fail : ε → Prog σ ε α}
    (hp : Learns guar post past (.step upd next fail)) (s : σ) :
    guar s (upd s) ∧ Learns guar post (insert (s, upd s) past) (next s) ∧
      ∀ e, Learns guar post (insert (s, s) past) (fail e) := by
  obtain ⟨hStep, hFail⟩ := hp s
  rcases hStep with ⟨-, -, hFalse⟩ | ⟨hGuar, hNext⟩
  · exact hFalse.elim
  · exact ⟨hGuar, hNext, hFail⟩

theorem learns_tryCatch {p : Prog σ ε α} {handler : ε → Prog σ ε α} (hp : Learns guar post past p)
    (hHandler : ∀ past e, Learns guar post past (handler e)) :
    Learns guar post past (tryCatch p handler) := by
  induction p generalizing past with
  | done r =>
      cases r with
      | ok a => exact hp
      | error e => exact hHandler past e
  | step upd next fail ihn ihf =>
      intro s
      obtain ⟨hGuar, hNext, hFail⟩ := learns_step hp s
      exact ⟨Or.inr ⟨hGuar, ihn s hNext⟩, fun e => ihf e (hFail e)⟩

/-- The result of a program inside another one. -/
theorem commits_map {p : Prog σ ε β} {g : β → α}
    (hp : Commits guar (fun past s s' b => commit past s s' (g b)) (fun past b => post past (g b))
      past p) :
    Commits guar commit post past (p >>= fun b => pure (g b)) := by
  induction p generalizing past with
  | done r =>
      cases r with
      | ok b => exact hp
      | error e => trivial
  | step upd next fail ihn ihf =>
      intro s
      obtain ⟨hStep, hFail⟩ := hp s
      refine ⟨?_, fun e => ihf e (hFail e)⟩
      rcases hStep with ⟨b, hDone, hCommit⟩ | ⟨hGuar, hNext⟩
      · exact Or.inl ⟨g b, congrArg (Prog.bind · fun b => pure (g b)) hDone, hCommit⟩
      · exact Or.inr ⟨hGuar, ihn s hNext⟩

theorem Commits.of_done {p : Prog σ ε α} (h : Commits guar commit post past p) {a : α}
    (hDone : p = .done (.ok a)) : post past a := by
  rw [hDone] at h
  exact h

theorem Commits.mono {commit' : Set (σ × σ) → σ → σ → α → Prop} {post' : Set (σ × σ) → α → Prop}
    {p : Prog σ ε α} (hp : Commits guar commit post past p)
    (hCommit : ∀ past s s' a, commit past s s' a → commit' past s s' a)
    (hPost : ∀ past a, post past a → post' past a) : Commits guar commit' post' past p := by
  induction p generalizing past with
  | done r =>
      cases r with
      | ok a => exact hPost past a hp
      | error e => trivial
  | step upd next fail ihn ihf =>
      intro s
      obtain ⟨hStep, hFail⟩ := hp s
      refine ⟨?_, fun e => ihf e (hFail e)⟩
      rcases hStep with ⟨a, hDone, hDoes⟩ | ⟨hGuar, hNext⟩
      · exact Or.inl ⟨a, hDone, hCommit _ _ _ _ hDoes⟩
      · exact Or.inr ⟨hGuar, ihn s hNext⟩

theorem learns_mono {post' : Set (σ × σ) → α → Prop} {p : Prog σ ε α} (hp : Learns guar post past p)
    (hPost : ∀ past a, post past a → post' past a) : Learns guar post' past p :=
  hp.mono (fun _ _ _ _ h => h) hPost

/-- What a program knew before, it knows when it ends. -/
theorem learns_frame {p : Prog σ ε α} (hp : Learns guar post past p) :
    Learns guar (fun past' a => past ⊆ past' ∧ post past' a) past p := by
  induction p generalizing past with
  | done r =>
      cases r with
      | ok a => exact ⟨subset_rfl, hp⟩
      | error e => trivial
  | step upd next fail ihn ihf =>
      intro s
      obtain ⟨hGuar, hNext, hFail⟩ := learns_step hp s
      have hMore (t : σ × σ) (past' : Set (σ × σ)) (a : α) :
          insert t past ⊆ past' ∧ post past' a → past ⊆ past' ∧ post past' a :=
        fun h => ⟨(Set.subset_insert t past).trans h.1, h.2⟩
      refine ⟨Or.inr ⟨hGuar, ?_⟩, fun e => ?_⟩
      · exact learns_mono (ihn s hNext) (hMore _)
      · exact learns_mono (ihf e (hFail e)) (hMore _)

/-- The second part may use what the first one has learnt. -/
theorem commits_seq {p : Prog σ ε β} {f : β → Prog σ ε α} {P : Set (σ × σ) → β → Prop}
    (hp : Learns guar P past p) (hf : ∀ past b, P past b → Commits guar commit post past (f b)) :
    Commits guar commit post past (p >>= f) := by
  induction p generalizing past with
  | done r =>
      cases r with
      | ok b => exact hf past b hp
      | error e => trivial
  | step upd next fail ihn ihf =>
      intro s
      obtain ⟨hGuar, hNext, hFail⟩ := learns_step hp s
      exact ⟨Or.inr ⟨hGuar, ihn s hNext⟩, fun e => ihf e (hFail e)⟩

/-- The second part may also use what was known before the first one. -/
theorem commits_bind {p : Prog σ ε β} {f : β → Prog σ ε α} {P : Set (σ × σ) → β → Prop}
    (hp : Learns guar P past p)
    (hf : ∀ past' b, past ⊆ past' → P past' b → Commits guar commit post past' (f b)) :
    Commits guar commit post past (p >>= f) :=
  commits_seq (learns_frame hp) fun past' b h => hf past' b h.1 h.2

theorem learns_throwIf {c : Prop} [Decidable c] {e : ε} :
    Learns guar (fun _ _ => ¬ c) past (throwIf c e : Prog σ ε Unit) := by
  unfold throwIf
  split
  · trivial
  · rename_i hc
    exact hc

theorem learns_read {f : σ → Except ε α} (hRefl : ∀ s, guar s s)
    (h : ∀ s a, f s = .ok a → post (insert (s, s) past) a) :
    Learns guar post past (read f) := by
  intro s
  refine ⟨Or.inr ⟨hRefl s, ?_⟩, fun _ => trivial⟩
  change Learns guar post (insert (s, s) past) (.done (f s))
  cases hResult : f s with
  | error e => trivial
  | ok a => exact h s a hResult

/-- A statement is judged by its successful executions. -/
theorem learns_atomic {f : σ → Except ε (α × σ)} (hRefl : ∀ s, guar s s)
    (h : ∀ s a s', f s = .ok (a, s') → guar s s' ∧ post (insert (s, s') past) a) :
    Learns guar post past (atomic f) := by
  intro s
  refine ⟨Or.inr ?_, fun _ => trivial⟩
  change guar s (effect f s) ∧
    Learns guar post (insert (s, effect f s) past) (.done ((f s).map Prod.fst))
  cases hResult : f s with
  | error e =>
      rw [effect_error hResult]
      exact ⟨hRefl s, trivial⟩
  | ok out =>
      obtain ⟨a, s'⟩ := out
      rw [effect_ok hResult]
      exact h s a s' hResult

/-- The statement that commits. -/
theorem commits_atomic {f : σ → Except ε (β × σ)} {a : α} (hRefl : ∀ s, guar s s)
    (h : ∀ s b s', f s = .ok (b, s') → commit past s s' a) :
    Commits guar commit post past (atomic f >>= fun _ => pure a) := by
  intro s
  refine ⟨?_, fun _ => trivial⟩
  change (∃ a', Prog.bind (.done ((f s).map Prod.fst)) (fun _ => pure a) = .done (.ok a') ∧
      commit past s (effect f s) a') ∨
    (guar s (effect f s) ∧ Commits guar commit post (insert (s, effect f s) past)
      (Prog.bind (.done ((f s).map Prod.fst)) fun _ => pure a))
  cases hResult : f s with
  | error e =>
      rw [effect_error hResult]
      exact Or.inr ⟨hRefl s, trivial⟩
  | ok out =>
      obtain ⟨b, s'⟩ := out
      rw [effect_ok hResult]
      exact Or.inl ⟨a, rfl, h s b s' hResult⟩

end Rules

/-! ## Programs on a part of the state -/

/-- The program works on the part `get` of a larger state. -/
def within (get : τ → σ) (put : σ → τ → τ) : Prog σ ε α → Prog τ ε α
  | .done r => .done r
  | .step upd next fail =>
      .step (fun t => put (upd (get t)) t) (fun t => (next (get t)).within get put)
        fun e => (fail e).within get put

theorem within_bind {get : τ → σ} {put : σ → τ → τ} (p : Prog σ ε α) (f : α → Prog σ ε β) :
    (p >>= f).within get put = p.within get put >>= fun a => (f a).within get put := by
  induction p with
  | done r => cases r <;> rfl
  | step upd next fail ihn ihf =>
      change Prog.step _ _ _ = Prog.step _ _ _
      congr 1
      · funext t
        exact ihn (get t)
      · funext e
        exact ihf e

/-- A program on a part of the state, run alone. -/
theorem within_run {get : τ → σ} {put : σ → τ → τ} (hGet : ∀ s t, get (put s t) = s)
    (p : Prog σ ε α) (t : τ) :
    ((p.within get put).run t).1 = (p.run (get t)).1 ∧
      get ((p.within get put).run t).2 = (p.run (get t)).2 := by
  induction p generalizing t with
  | done r => exact ⟨rfl, rfl⟩
  | step upd next fail ih _ =>
      have hNext := ih (get t) (put (upd (get t)) t)
      rw [hGet] at hNext
      exact hNext

/-- A program is safe when it is safe on its part of the state. -/
theorem safe_within {get : τ → σ} {put : σ → τ → τ} (hGet : ∀ s t, get (put s t) = s)
    {rely guar : σ → σ → Prop} {p : Prog σ ε α} {t : τ} (hp : Safe rely guar p (get t)) :
    Safe (fun t t' => rely (get t) (get t')) (fun t t' => guar (get t) (get t'))
      (p.within get put) t := by
  induction p generalizing t with
  | done r => trivial
  | step upd next fail ihn ihf =>
      intro t' ht'
      obtain ⟨hGuar, hNext, hFail⟩ := hp (get t') ht'
      refine ⟨?_, ihn _ ?_, fun e => ihf e (hFail e)⟩
      · change guar (get t') (get (put _ t'))
        rw [hGet]
        exact hGuar
      · rw [hGet]
        exact hNext

theorem guarantees_within {get : τ → σ} {put : σ → τ → τ} (hGet : ∀ s t, get (put s t) = s)
    {guar : σ → σ → Prop} {p : Prog σ ε α} (hp : Guarantees (fun _ _ => True) guar p) :
    Guarantees (fun _ _ => True) (fun t t' => guar (get t) (get t')) (p.within get put) :=
  fun t => safe_within hGet (hp (get t))

/-- What has happened to a part of the state. -/
def pastOf (get : τ → σ) (past : Set (τ × τ)) : Set (σ × σ) := Prod.map get get '' past

theorem commits_within {get : τ → σ} {put : σ → τ → τ} (hGet : ∀ s t, get (put s t) = s)
    {guar : σ → σ → Prop} {commit : Set (σ × σ) → σ → σ → α → Prop}
    {post : Set (σ × σ) → α → Prop} {past : Set (τ × τ)} {p : Prog σ ε α}
    (hp : Commits guar commit post (pastOf get past) p) :
    Commits (fun t t' => guar (get t) (get t'))
      (fun past t t' a => commit (pastOf get past) (get t) (get t') a)
      (fun past a => post (pastOf get past) a) past (p.within get put) := by
  induction p generalizing past with
  | done r =>
      cases r with
      | ok a => exact hp
      | error e => trivial
  | step upd next fail ihn ihf =>
      intro t
      obtain ⟨hStep, hFail⟩ := hp (get t)
      refine ⟨?_, fun e => ihf e ?_⟩
      · rcases hStep with ⟨a, hDone, hCommit⟩ | ⟨hGuar, hNext⟩
        · refine Or.inl ⟨a, congrArg (Prog.within get put) hDone, ?_⟩
          change commit _ (get t) (get (put _ t)) a
          rw [hGet]
          exact hCommit
        · refine Or.inr ⟨?_, ihn _ ?_⟩
          · change guar (get t) (get (put _ t))
            rw [hGet]
            exact hGuar
          · rw [pastOf, Set.image_insert_eq, Prod.map_apply, hGet]
            exact hNext
      · rw [pastOf, Set.image_insert_eq]
        exact hFail e

end Prog

namespace Pool

open Prog

variable {ι σ ε α : Type} [DecidableEq ι]

/-! ## Runs with their steps -/

/-- The steps of a run, in order, as the pools before and after each of them. -/
inductive History (env : σ → σ → Prop) (c₀ : Pool ι σ ε α) :
    List (Pool ι σ ε α × Pool ι σ ε α) → Pool ι σ ε α → Prop
  | start : History env c₀ [] c₀
  | step {steps : List (Pool ι σ ε α × Pool ι σ ε α)} {c c' : Pool ι σ ε α}
      (hBefore : History env c₀ steps c) (hStep : Step env c c') :
      History env c₀ (steps ++ [(c, c')]) c'

variable {env : σ → σ → Prop} {c₀ c c' : Pool ι σ ε α} {i : ι}
  {steps : List (Pool ι σ ε α × Pool ι σ ε α)}

/-- Every reachable pool has a history. -/
theorem history_of_reach (h : Relation.ReflTransGen (Step env) c₀ c) :
    ∃ steps, History env c₀ steps c := by
  induction h with
  | refl => exact ⟨[], .start⟩
  | tail _ hStep ih =>
      obtain ⟨steps, hBefore⟩ := ih
      exact ⟨_, .step hBefore hStep⟩

/-- What the steps of program `i` did to the state. -/
def Past (steps : List (Pool ι σ ε α × Pool ι σ ε α)) (i : ι) : Set (σ × σ) :=
  {t | ∃ m ∈ steps, Moved m.1 m.2 i ∧ (m.1.state, m.2.state) = t}

omit [DecidableEq ι] in
theorem mem_past_append {t : σ × σ} : t ∈ Past (steps ++ [(c, c')]) i ↔
    t ∈ Past steps i ∨ (Moved c c' i ∧ (c.state, c'.state) = t) := by
  constructor
  · rintro ⟨m, hMem, hMoved, rfl⟩
    rcases List.mem_append.mp hMem with hOld | hNew
    · exact Or.inl ⟨m, hOld, hMoved, rfl⟩
    · cases List.mem_singleton.mp hNew
      exact Or.inr ⟨hMoved, rfl⟩
  · rintro (⟨m, hOld, hMoved, rfl⟩ | ⟨hMoved, rfl⟩)
    · exact ⟨m, List.mem_append_left _ hOld, hMoved, rfl⟩
    · exact ⟨(c, c'), List.mem_append_right _ (List.mem_singleton_self _), hMoved, rfl⟩

omit [DecidableEq ι] in
theorem past_moved (h : Moved c c' i) :
    Past (steps ++ [(c, c')]) i = insert (c.state, c'.state) (Past steps i) := by
  ext t
  rw [mem_past_append, Set.mem_insert_iff, and_iff_right h, or_comm, eq_comm]

omit [DecidableEq ι] in
theorem past_not_moved (h : ¬ Moved c c' i) : Past (steps ++ [(c, c')]) i = Past steps i := by
  ext t
  rw [mem_past_append, or_iff_left fun hNew => h hNew.1]

/-! ## What a step can be -/

section Change

variable {guar : σ → σ → Prop} {commit : ι → Set (σ × σ) → σ → σ → α → Prop}
  {post : ι → Set (σ × σ) → α → Prop}

/-- A step stays in `guar`, commits, or is one of the environment. -/
inductive Change (env guar : σ → σ → Prop) (commit : ι → Set (σ × σ) → σ → σ → α → Prop)
    (post : ι → Set (σ × σ) → α → Prop) (steps : List (Pool ι σ ε α × Pool ι σ ε α))
    (c c' : Pool ι σ ε α) : Prop
  | guar (i : ι) (moved : Moved c c' i) (guar : guar c.state c'.state)
      (post : ∀ a, c'.Returned i a → post i (Past (steps ++ [(c, c')]) i) a)
  | commit (i : ι) (a : α) (moved : Moved c c' i) (returned : c'.Returned i a)
      (commit : commit i (Past steps i) c.state c'.state a)
  | env (env : env c.state c'.state) (proc : c'.proc = c.proc)

/-- All programs have returned or go on to commit. -/
def Committing (guar : σ → σ → Prop) (commit : ι → Set (σ × σ) → σ → σ → α → Prop)
    (post : ι → Set (σ × σ) → α → Prop) (steps : List (Pool ι σ ε α × Pool ι σ ε α))
    (c : Pool ι σ ε α) : Prop :=
  ∀ i, (∃ a, c.Returned i a) ∨ Commits guar (commit i) (post i) (Past steps i) (c.proc i)

/-- After a step of `i` it is enough to look at `i`. -/
theorem Committing.moves (h : Committing guar commit post steps c) (hMoved : Moved c c' i)
    (hSelf : (∃ a, c'.Returned i a) ∨
      Commits guar (commit i) (post i) (Past (steps ++ [(c, c')]) i) (c'.proc i)) :
    Committing guar commit post (steps ++ [(c, c')]) c' := by
  intro j
  by_cases hSame : j = i
  · subst hSame
    exact hSelf
  · have hStill : ¬ Moved c c' j := fun hAlso => hSame (hAlso.eq hMoved)
    unfold Returned
    rw [past_not_moved hStill, (hMoved.others j hSame).1]
    exact h j

omit [DecidableEq ι] in
/-- A program that moves has not returned. -/
theorem Committing.commits (h : Committing guar commit post steps c) (hMoved : Moved c c' i) :
    Prog.Commits guar (commit i) (post i) (Past steps i) (c.proc i) := by
  refine (h i).resolve_left ?_
  rintro ⟨a, hReturned⟩
  exact hMoved.running ⟨_, hReturned⟩

theorem Committing.exec (h : Committing guar commit post steps c) (hExec : c.exec i = some c') :
    Committing guar commit post (steps ++ [(c, c')]) c' ∧
      Change env guar commit post steps c c' := by
  have hMoved := moved_of_exec hExec
  have hCommits := h.commits hMoved
  cases hProc : c.proc i with
  | done r => exact absurd ⟨r, hProc⟩ hMoved.running
  | step upd next fail =>
      have hAdvance := advance_of_exec hExec hProc
      rw [hProc] at hCommits
      rcases (hCommits c.state).1 with ⟨a, hDone, hCommit⟩ | ⟨hGuar, hNext⟩
      · have hReturned : c'.Returned i a := hAdvance.proc.trans hDone
        rw [← hAdvance.state] at hCommit
        exact ⟨h.moves hMoved (Or.inl ⟨a, hReturned⟩), .commit i a hMoved hReturned hCommit⟩
      · rw [← hAdvance.state, ← past_moved hMoved, ← hAdvance.proc] at hNext
        rw [← hAdvance.state] at hGuar
        exact ⟨h.moves hMoved (Or.inr hNext), .guar i hMoved hGuar fun a => hNext.of_done⟩

theorem Committing.fault (hRefl : ∀ s, guar s s) (h : Committing guar commit post steps c) {e : ε}
    (hFault : c.fault i e = some c') :
    Committing guar commit post (steps ++ [(c, c')]) c' ∧
      Change env guar commit post steps c c' := by
  have hMoved := moved_of_fault hFault
  have hState := state_of_fault hFault
  have hCommits := h.commits hMoved
  cases hProc : c.proc i with
  | done r => exact absurd ⟨r, hProc⟩ hMoved.running
  | step upd next fail =>
      rw [hProc] at hCommits
      have hNext := (hCommits c.state).2 e
      have hPast : Past (steps ++ [(c, c')]) i = insert (c.state, c.state) (Past steps i) := by
        rw [past_moved hMoved, hState]
      have hFail : c'.proc i = fail e := (advance_of_fault hFault hProc).proc
      rw [← hPast, ← hFail] at hNext
      have hGuar : guar c.state c'.state := by
        rw [hState]
        exact hRefl _
      exact ⟨h.moves hMoved (Or.inr hNext), .guar i hMoved hGuar fun a => hNext.of_done⟩

theorem Committing.step (hRefl : ∀ s, guar s s) (h : Committing guar commit post steps c)
    (hStep : Step env c c') :
    Committing guar commit post (steps ++ [(c, c')]) c' ∧
      Change env guar commit post steps c c' := by
  cases hStep with
  | exec i hExec => exact h.exec hExec
  | fault i e hFault => exact h.fault hRefl hFault
  | @env s' hEnv =>
      refine ⟨fun j => ?_, .env hEnv rfl⟩
      have hStill : ¬ Moved c { c with state := s' } j := fun hMoved =>
        absurd hMoved.steps (Nat.succ_ne_self _).symm
      rw [past_not_moved hStill]
      exact h j

/-- **What the next step of a run can be**, when every program commits with its last step. -/
theorem History.change (hRefl : ∀ s, guar s s)
    (hStart : ∀ i, Prog.Commits guar (commit i) (post i) ∅ (c₀.proc i))
    (hBefore : History env c₀ steps c) (hStep : Step env c c') :
    Change env guar commit post steps c c' := by
  have hCommitting : Committing guar commit post steps c := by
    clear hStep
    induction hBefore with
    | start =>
        have hNone (i : ι) : Past ([] : List (Pool ι σ ε α × Pool ι σ ε α)) i = ∅ :=
          Set.eq_empty_of_forall_notMem fun t ⟨m, hm, _⟩ => List.not_mem_nil hm
        intro i
        rw [hNone]
        exact Or.inr (hStart i)
    | step _ hStep ih => exact (ih.step hRefl hStep).1
  exact (hCommitting.step hRefl hStep).2

end Change

end Pool
