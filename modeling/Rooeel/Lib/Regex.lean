import Mathlib.Data.List.Basic

/-!
# Regular expressions with backtracking

`run` lists the ways in which an expression matches at a position, in the order in which a
backtracking matcher tries them, so the first of them is the match. `search` looks for the first
position with a match. Repetition is greedy: of a class of symbols it takes all that follow first
(`run_star_one`).
-/

/-- Expressions over symbols. `start` is the beginning of the input, `group` captures what it
matches. -/
inductive Regex (α : Type) where
  | empty
  | start
  | one (p : α → Bool)
  | seq (r s : Regex α)
  | alt (r s : Regex α)
  | star (r : Regex α)
  | group (r : Regex α)

namespace Regex

variable {α : Type}

/-- A position: what follows it, and what a group has captured last. -/
structure Cursor (α : Type) where
  atStart : Bool
  rest : List α
  captured : Option (List α)

/-- Greedy repetition. An iteration that takes no symbol fails. -/
def iterate (f : Cursor α → List (Cursor α)) : Nat → Cursor α → List (Cursor α)
  | 0, c => [c]
  | n + 1, c =>
    ((f c).filter fun d => d.rest.length < c.rest.length).flatMap (iterate f n) ++ [c]

/-- The positions behind the matches at a position, in the order in which they are tried. -/
def run : Regex α → Cursor α → List (Cursor α)
  | empty, c => [c]
  | start, c => if c.atStart then [c] else []
  | one p, c =>
    match c.rest with
    | [] => []
    | a :: rest => if p a then [⟨false, rest, c.captured⟩] else []
  | seq r s, c => (run r c).flatMap (run s)
  | alt r s, c => run r c ++ run s c
  | star r, c => iterate (run r) c.rest.length c
  | group r, c =>
    (run r c).map fun d =>
      { d with captured := some (c.rest.take (c.rest.length - d.rest.length)) }

def plus (r : Regex α) : Regex α := seq r (star r)

def symbol [DecidableEq α] (a : α) : Regex α := one fun b => a == b

/-- The symbols of a word, one after the other. -/
def word [DecidableEq α] : List α → Regex α
  | [] => empty
  | a :: w => seq (symbol a) (word w)

/-- The match at the first position that has one. -/
def search (r : Regex α) (atStart : Bool) : List α → Option (Cursor α)
  | [] => (run r ⟨atStart, [], none⟩).head?
  | a :: rest => (run r ⟨atStart, a :: rest, none⟩).head?.or (search r false rest)

/-! ## Symbols and words -/

section One

variable {p : α → Bool} {a : α} {b : Bool} {rest : List α} {captured : Option (List α)}

theorem run_one (h : p a = true) : run (one p) ⟨b, a :: rest, captured⟩ =
    [⟨false, rest, captured⟩] := if_pos h

theorem run_one_of_not (h : p a = false) : run (one p) ⟨b, a :: rest, captured⟩ = [] :=
  if_neg (Bool.eq_false_iff.mp h)

end One

section Word

variable [DecidableEq α] {b : Bool} {captured : Option (List α)}

theorem run_symbol (a : α) (rest : List α) :
    run (symbol a) ⟨b, a :: rest, captured⟩ = [⟨false, rest, captured⟩] :=
  run_one (beq_self_eq_true a)

theorem run_symbol_of_ne {a c : α} (h : c ≠ a) (rest : List α) :
    run (symbol a) ⟨b, c :: rest, captured⟩ = [] :=
  run_one_of_not (beq_eq_false_iff_ne.mpr h.symm)

theorem run_word (w rest : List α) : run (word w) ⟨b, w ++ rest, captured⟩ =
    [⟨b && w.isEmpty, rest, captured⟩] := by
  induction w generalizing b with
  | nil =>
    rw [List.isEmpty_nil, Bool.and_true]
    rfl
  | cons a w ih =>
    rw [word, run, List.cons_append, run_symbol, List.flatMap_singleton, ih,
      List.isEmpty_cons, Bool.and_false, Bool.false_and]

theorem run_word_of_not {w rest : List α} (h : ¬ w <+: rest) :
    run (word w) ⟨b, rest, captured⟩ = [] := by
  induction w generalizing b rest with
  | nil => exact absurd ⟨rest, rfl⟩ h
  | cons a w ih =>
    rw [word, run]
    cases rest with
    | nil => rfl
    | cons x rest =>
      by_cases hx : x = a
      · subst hx
        have hRest : ¬ w <+: rest := fun hPrefix => h (List.cons_prefix_cons.mpr ⟨rfl, hPrefix⟩)
        rw [run_symbol, List.flatMap_singleton, ih hRest]
      · rw [run_symbol_of_ne hx]
        rfl

end Word

/-! ## Greedy repetition of a class -/

/-- The position behind the symbols of a class. -/
def Cursor.skip (p : α → Bool) (c : Cursor α) : Cursor α where
  atStart := c.atStart && (c.rest.takeWhile p).isEmpty
  rest := c.rest.dropWhile p
  captured := c.captured

/-- A symbol of the class follows. -/
def Cursor.Within (p : α → Bool) (c : Cursor α) : Prop :=
  ∃ a rest, c.rest = a :: rest ∧ p a = true

theorem Cursor.not_within_nil (p : α → Bool) (b : Bool) (captured : Option (List α)) :
    ¬ Within p ⟨b, [], captured⟩ := by
  rintro ⟨a, rest, hRest, -⟩
  cases hRest

theorem Cursor.within_cons {p : α → Bool} {b : Bool} {a : α} {rest : List α}
    {captured : Option (List α)} : Within p ⟨b, a :: rest, captured⟩ ↔ p a = true := by
  constructor
  · rintro ⟨c, more, hRest, hc⟩
    cases hRest
    exact hc
  · intro ha
    exact ⟨a, rest, rfl, ha⟩

theorem Cursor.skip_of_not {p : α → Bool} {c : Cursor α} (h : ¬ c.Within p) : c.skip p = c := by
  obtain ⟨b, rest, captured⟩ := c
  cases rest with
  | nil =>
    rw [skip, List.takeWhile_nil, List.isEmpty_nil, Bool.and_true]
    rfl
  | cons a rest =>
    have ha : ¬ p a = true := fun ha => h (within_cons.mpr ha)
    rw [skip, List.takeWhile_cons_of_neg ha, List.dropWhile_cons_of_neg ha, List.isEmpty_nil,
      Bool.and_true]

theorem Cursor.skip_cons {p : α → Bool} {a : α} (ha : p a = true) {b : Bool} (rest : List α)
    (captured : Option (List α)) :
    skip p ⟨b, a :: rest, captured⟩ = skip p ⟨false, rest, captured⟩ := by
  rw [skip, skip, List.takeWhile_cons_of_pos ha, List.dropWhile_cons_of_pos ha,
    List.isEmpty_cons, Bool.and_false, Bool.false_and]

theorem run_one_of_not_within {p : α → Bool} {c : Cursor α} (h : ¬ c.Within p) :
    run (one p) c = [] := by
  obtain ⟨b, rest, captured⟩ := c
  cases rest with
  | nil => rfl
  | cons a rest =>
    exact run_one_of_not (Bool.eq_false_iff.mpr fun ha => h (Cursor.within_cons.mpr ha))

/-- An iteration takes the next symbol of the class. -/
theorem iterate_one_cons {p : α → Bool} {a : α} (ha : p a = true) (n : Nat) (b : Bool)
    (rest : List α) (captured : Option (List α)) :
    iterate (run (one p)) (n + 1) ⟨b, a :: rest, captured⟩ =
      iterate (run (one p)) n ⟨false, rest, captured⟩ ++ [⟨b, a :: rest, captured⟩] := by
  rw [iterate, run_one ha, List.filter_cons_of_pos (by simp), List.filter_nil,
    List.flatMap_singleton]

/-- The first way is the longest. In all others a symbol of the class is left. -/
theorem iterate_one (p : α → Bool) (n : Nat) (c : Cursor α) (hFuel : c.rest.length ≤ n) :
    ∃ shorter, iterate (run (one p)) n c = c.skip p :: shorter ∧ ∀ d ∈ shorter, d.Within p := by
  induction n generalizing c with
  | zero =>
    have hNone : ¬ c.Within p := by
      rintro ⟨a, rest, hRest, -⟩
      rw [hRest] at hFuel
      cases hFuel
    rw [Cursor.skip_of_not hNone]
    exact ⟨[], rfl, fun d hd => absurd hd List.not_mem_nil⟩
  | succ n ih =>
    by_cases hWithin : c.Within p
    · obtain ⟨b, rest, captured⟩ := c
      obtain ⟨a, rest, rfl, ha⟩ := hWithin
      have hRest : rest.length ≤ n := Nat.le_of_succ_le_succ hFuel
      obtain ⟨shorter, hRun, hShorter⟩ := ih ⟨false, rest, captured⟩ hRest
      refine ⟨shorter ++ [⟨b, a :: rest, captured⟩], ?_, ?_⟩
      · rw [iterate_one_cons ha, hRun, Cursor.skip_cons ha, List.cons_append]
      · intro d hd
        rcases List.mem_append.mp hd with hShort | hLast
        · exact hShorter d hShort
        · rw [List.mem_singleton.mp hLast]
          exact ⟨a, rest, rfl, ha⟩
    · rw [Cursor.skip_of_not hWithin, iterate, run_one_of_not_within hWithin]
      exact ⟨[], rfl, fun d hd => absurd hd List.not_mem_nil⟩

theorem run_star_one (p : α → Bool) (c : Cursor α) :
    ∃ shorter, run (star (one p)) c = c.skip p :: shorter ∧ ∀ d ∈ shorter, d.Within p :=
  iterate_one p c.rest.length c (Nat.le_refl _)

/-- What follows a repetition and cannot begin in the class is matched behind all of the class. -/
theorem flatMap_star_one {p : α → Bool} {f : Cursor α → List (Cursor α)}
    (hf : ∀ d, d.Within p → f d = []) (c : Cursor α) :
    (run (star (one p)) c).flatMap f = f (c.skip p) := by
  obtain ⟨shorter, hRun, hShorter⟩ := run_star_one p c
  have hNone : shorter.flatMap f = [] :=
    List.flatMap_eq_nil_iff.mpr fun d hd => hf d (hShorter d hd)
  rw [hRun, List.flatMap_cons, hNone, List.append_nil]

/-- The class ends where another symbol follows, or nothing. -/
theorem skip_append {p : α → Bool} {text rest : List α} {captured : Option (List α)}
    (hText : ∀ a ∈ text, p a = true) (hRest : ¬ Cursor.Within p ⟨false, rest, captured⟩) :
    Cursor.skip p ⟨false, text ++ rest, captured⟩ = ⟨false, rest, captured⟩ := by
  have hDrop : rest.dropWhile p = rest :=
    congrArg Cursor.rest (Cursor.skip_of_not hRest)
  rw [Cursor.skip, List.dropWhile_append_of_pos hText, hDrop, Bool.false_and]

/-- A group around a class captures what it takes. -/
theorem run_group_plus {p : α → Bool} {text rest : List α} {b : Bool} {captured : Option (List α)}
    (hText : ∀ a ∈ text, p a = true) (hSome : text ≠ [])
    (hRest : ¬ Cursor.Within p ⟨false, rest, captured⟩) :
    ∃ shorter, run (group (plus (one p))) ⟨b, text ++ rest, captured⟩ =
      ⟨false, rest, some text⟩ :: shorter := by
  obtain ⟨a, more, rfl⟩ := List.exists_cons_of_ne_nil hSome
  obtain ⟨shorter, hRun, -⟩ := run_star_one p ⟨false, more ++ rest, captured⟩
  rw [skip_append (fun c hc => hText c (List.mem_cons_of_mem a hc)) hRest] at hRun
  have hTake : (a :: more ++ rest).take ((a :: more ++ rest).length - rest.length) = a :: more := by
    rw [List.length_append, Nat.add_sub_cancel, List.take_left]
  rw [run, plus, run, List.cons_append, run_one (hText a List.mem_cons_self),
    List.flatMap_singleton, hRun, List.map_cons, ← List.cons_append, hTake]
  exact ⟨_, rfl⟩

/-! ## Searching -/

section Search

variable {r : Regex α} {b : Bool} {rest : List α}

theorem search_of_run {d : Cursor α} {later : List (Cursor α)}
    (h : run r ⟨b, rest, none⟩ = d :: later) : search r b rest = some d := by
  cases rest with
  | nil => rw [search, h, List.head?_cons]
  | cons a rest => rw [search, h, List.head?_cons, Option.some_or]

theorem search_cons {a : α} (h : run r ⟨b, a :: rest, none⟩ = []) :
    search r b (a :: rest) = search r false rest := by
  rw [search, h, List.head?_nil, Option.none_or]

/-- Symbols at which no match begins. -/
theorem search_append {skipped : List α}
    (h : ∀ a ∈ skipped, ∀ rest, run r ⟨false, a :: rest, none⟩ = []) (rest : List α) :
    search r false (skipped ++ rest) = search r false rest := by
  induction skipped with
  | nil => rfl
  | cons a skipped ih =>
    rw [List.cons_append, search_cons (h a List.mem_cons_self _)]
    exact ih fun c hc => h c (List.mem_cons_of_mem a hc)

end Search

end Regex
