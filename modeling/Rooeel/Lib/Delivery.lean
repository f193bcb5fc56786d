import Rooeel.Lib.Interleaving

/-!
# What a program delivers

`Prog.Delivers rely guar post p s`: `p` is safe from `s` on, and what it returns satisfies `post`.
`post` speaks about the value alone, so it still holds when others have moved on; what the program
knows about the state when it returns the value has to be turned into such a fact there
(`delivers_read`, `delivers_atomic`).
-/

namespace Prog

variable {σ ε α β : Type}

/-- The program is safe, and returns values in `post`. -/
def Delivers (rely guar : σ → σ → Prop) (post : α → Prop) : Prog σ ε α → σ → Prop
  | .done (.ok a), _ => post a
  | .done (.error _), _ => True
  | .step upd next fail, s => ∀ s', rely s s' →
      guar s' (upd s') ∧ Delivers rely guar post (next s') (upd s') ∧
        ∀ e, Delivers rely guar post (fail e) s'

section Rules

variable {rely guar : σ → σ → Prop} {post : α → Prop} {s : σ}

theorem delivers_pure {a : α} (h : post a) : Delivers rely guar post (pure a : Prog σ ε α) s := h

theorem delivers_throw (e : ε) : Delivers rely guar post (throw e : Prog σ ε α) s := trivial

theorem Delivers.safe {p : Prog σ ε α} (h : Delivers rely guar post p s) : Safe rely guar p s := by
  induction p generalizing s with
  | done r => trivial
  | step upd next fail ihn ihf =>
      intro s' hs'
      obtain ⟨hg, hn, he⟩ := h s' hs'
      exact ⟨hg, ihn s' hn, fun e => ihf e (he e)⟩

theorem delivers_of_safe {p : Prog σ ε α} (h : Safe rely guar p s) :
    Delivers rely guar (fun _ => True) p s := by
  induction p generalizing s with
  | done r => cases r <;> trivial
  | step upd next fail ihn ihf =>
      intro s' hs'
      obtain ⟨hg, hn, he⟩ := h s' hs'
      exact ⟨hg, ihn s' hn, fun e => ihf e (he e)⟩

/-- The rest of the program may use what the first part delivers, in the states that the first part
can lead to. -/
theorem delivers_bind {P : β → Prop} {p : Prog σ ε β} {f : β → Prog σ ε α}
    (hRefl : ∀ s, rely s s) (hTrans : ∀ a b c, rely a b → rely b c → rely a c)
    (hGuar : ∀ a b, guar a b → rely a b) (hp : Delivers rely guar P p s)
    (hf : ∀ b s', P b → rely s s' → Delivers rely guar post (f b) s') :
    Delivers rely guar post (p >>= f) s := by
  induction p generalizing s with
  | done r =>
      cases r with
      | ok b => exact hf b s hp (hRefl s)
      | error e => trivial
  | step upd next fail ihn ihf =>
      intro s' hs'
      obtain ⟨hg, hn, he⟩ := hp s' hs'
      have hStep : rely s (upd s') := hTrans _ _ _ hs' (hGuar _ _ hg)
      exact ⟨hg, ihn s' hn fun b s'' hb h => hf b s'' hb (hTrans _ _ _ hStep h),
        fun e => ihf e (he e) fun b s'' hb h => hf b s'' hb (hTrans _ _ _ hs' h)⟩

theorem safe_bind_delivers {P : β → Prop} {p : Prog σ ε β} {f : β → Prog σ ε α}
    (hRefl : ∀ s, rely s s) (hTrans : ∀ a b c, rely a b → rely b c → rely a c)
    (hGuar : ∀ a b, guar a b → rely a b) (hp : Delivers rely guar P p s)
    (hf : ∀ b s', P b → rely s s' → Safe rely guar (f b) s') : Safe rely guar (p >>= f) s :=
  (delivers_bind hRefl hTrans hGuar hp fun b s' hb hs' => delivers_of_safe (hf b s' hb hs')).safe

theorem delivers_tryCatch {p : Prog σ ε α} {handler : ε → Prog σ ε α}
    (hp : Delivers rely guar post p s) (hHandler : ∀ e s, Delivers rely guar post (handler e) s) :
    Delivers rely guar post (tryCatch p handler) s := by
  induction p generalizing s with
  | done r =>
      cases r with
      | ok a => exact hp
      | error e => exact hHandler e s
  | step upd next fail ihn ihf =>
      intro s' hs'
      obtain ⟨hg, hn, he⟩ := hp s' hs'
      exact ⟨hg, ihn s' hn, fun e => ihf e (he e)⟩

theorem delivers_read {f : σ → Except ε α} (hRefl : ∀ s, guar s s)
    (h : ∀ s' a, rely s s' → f s' = .ok a → post a) : Delivers rely guar post (read f) s := by
  intro s' hs'
  refine ⟨hRefl s', ?_, fun _ => trivial⟩
  change Delivers rely guar post (.done (f s')) s'
  cases hResult : f s' with
  | error e => trivial
  | ok a => exact h s' a hs' hResult

theorem delivers_atomic {f : σ → Except ε (α × σ)} (hRefl : ∀ s, guar s s)
    (h : ∀ s' a s'', rely s s' → f s' = .ok (a, s'') → guar s' s'' ∧ post a) :
    Delivers rely guar post (atomic f) s := by
  intro s' hs'
  refine ⟨?_, ?_, fun _ => trivial⟩
  · cases hResult : f s' with
    | error e =>
        rw [effect_error hResult]
        exact hRefl s'
    | ok out =>
        obtain ⟨a, s''⟩ := out
        rw [effect_ok hResult]
        exact (h s' a s'' hs' hResult).1
  · change Delivers rely guar post (.done ((f s').map Prod.fst)) _
    cases hResult : f s' with
    | error e => trivial
    | ok out =>
        obtain ⟨a, s''⟩ := out
        exact (h s' a s'' hs' hResult).2

end Rules

end Prog
