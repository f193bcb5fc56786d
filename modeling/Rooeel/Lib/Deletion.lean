import Rooeel.Lib.Integrity

/-!
# What a deletion deletes

`Referential S` adds the referential actions to a schema: a row is deleted with the rows that its
`cascade` references lead to, and `clear` takes the `nullable` references to deleted rows away.

`Doomed A chosen s` are the rows from which a chain of such references leads to a chosen row.
`Deletes A chosen s s'` says that exactly these rows were deleted, that exactly the references to
them were cleared, and that nothing else happened. Such a deletion keeps referential integrity
(`Deletes.prunes`). One is put together from others (`Deletes.after`): first what stands behind the
chosen rows is deleted, in any number of steps, and at last the chosen rows, when nothing stands
behind them any more (`deletes_row`).
-/

namespace Schema

/-- What becomes of the rows that refer to a deleted row. -/
structure Referential {σ ι : Type} (S : Schema σ ι) where
  /-- The references with `onDelete: Cascade`. -/
  cascade : ∀ e, S.Of e → List (ι × Int)
  /-- The references with `onDelete: SetNull`. -/
  nullable : ∀ e, S.Of e → List (ι × Int)
  /-- The row without its nullable references to the keys in `gone`. -/
  clear : (gone : ι → Int → Prop) → ∀ e, S.Of e → S.Of e
  mem_refs : ∀ {e r ref}, ref ∈ S.refs e r ↔ ref ∈ cascade e r ∨ ref ∈ nullable e r
  key_clear : ∀ gone e r, Row.key (clear gone e r) = Row.key r
  cascade_clear : ∀ gone e r, cascade e (clear gone e r) = cascade e r
  mem_nullable_clear : ∀ {gone e r ref},
    ref ∈ nullable e (clear gone e r) ↔ ref ∈ nullable e r ∧ ¬ gone ref.1 ref.2
  clear_clear : ∀ gone gone' e r,
    clear gone' e (clear gone e r) = clear (fun e k => gone e k ∨ gone' e k) e r
  clear_eq_self : ∀ {gone e r}, (∀ ref ∈ nullable e r, ¬ gone ref.1 ref.2) → clear gone e r = r
  evolves_clear : ∀ gone e r, S.evolves e r (clear gone e r)
  conflicts_clear : ∀ gone e a b,
    (S.model e).conflicts (clear gone e a) b = (S.model e).conflicts a b

variable {σ ι : Type} {S : Schema σ ι}

section Doomed

variable (A : S.Referential)

/-- A chain of references leads from the row to a chosen one. -/
inductive Doomed (chosen : ∀ e, S.Of e → Prop) (s : σ) : ∀ e, S.Of e → Prop
  | chosen {e r} (h : chosen e r) : Doomed chosen s e r
  | behind {e r e' r'} (hRow : r' ∈ (S.table e' s).rows) (hRef : (e', Row.key r') ∈ A.cascade e r)
      (h : Doomed chosen s e' r') : Doomed chosen s e r

/-- The key is of a row that is deleted. -/
def Lost (chosen : ∀ e, S.Of e → Prop) (s : σ) (e : ι) (k : Int) : Prop :=
  ∃ r ∈ (S.table e s).rows, Row.key r = k ∧ Doomed A chosen s e r

open Classical in
/-- Exactly the doomed rows were deleted, and exactly the references to them were cleared. -/
structure Deletes (chosen : ∀ e, S.Of e → Prop) (s s' : σ) : Prop where
  rows : ∀ e, (S.table e s').rows =
    ((S.table e s).rows.filter fun r => ¬ Doomed A chosen s e r).map (A.clear (Lost A chosen s) e)
  next : ∀ e, (S.table e s').next = (S.table e s).next

/-- The rows of one entity that satisfy `p`. -/
inductive Only (e : ι) (p : S.Of e → Bool) : ∀ e', S.Of e' → Prop
  | intro {r : S.Of e} (h : p r = true) : Only e p e r

end Doomed

variable {A : S.Referential} {chosen first : ∀ e, S.Of e → Prop} {s s₁ s' : σ} {e e' : ι}

theorem only_iff {p : S.Of e → Bool} {r : S.Of e} : Only e p e r ↔ p r = true :=
  ⟨fun h => by cases h with | intro h => exact h, .intro⟩

theorem Only.eq {p : S.Of e → Bool} {r : S.Of e'} (h : Only e p e' r) : e' = e := by
  cases h
  rfl

namespace Deletes

theorem mem_rows (h : Deletes A chosen s s') {r' : S.Of e} :
    r' ∈ (S.table e s').rows ↔ ∃ r ∈ (S.table e s).rows, ¬ Doomed A chosen s e r ∧
      A.clear (Lost A chosen s) e r = r' := by
  simp only [h.rows, List.mem_map, List.mem_filter, decide_eq_true_eq, and_assoc]

/-! ## Integrity -/

/-- A row that the others need is not doomed, if they are not. -/
theorem references (h : Deletes A chosen s s') (hValid : S.Valid s) {r : S.Of e}
    (hr : r ∈ (S.table e s).rows) (hKept : ¬ Doomed A chosen s e r) :
    (S.model e).references s' (A.clear (Lost A chosen s) e r) = true := by
  refine references_iff.mpr fun ref hRef => ?_
  have hLive : ref ∈ S.refs e r ∧ ¬ Lost A chosen s ref.1 ref.2 := by
    rcases A.mem_refs.mp hRef with hCascade | hNullable
    · rw [A.cascade_clear] at hCascade
      refine ⟨A.mem_refs.mpr (Or.inl hCascade), ?_⟩
      rintro ⟨x, hx, hKey, hDoomed⟩
      refine hKept (.behind hx ?_ hDoomed)
      rwa [hKey]
    · obtain ⟨hOld, hNotLost⟩ := A.mem_nullable_clear.mp hNullable
      exact ⟨A.mem_refs.mpr (Or.inr hOld), hNotLost⟩
  obtain ⟨x, hx, hKey⟩ := Table.has_iff.mp
    (references_iff.mp ((hValid e).references r hr) ref hLive.1)
  refine Table.has_iff.mpr ⟨_, h.mem_rows.mpr ⟨x, hx, ?_, rfl⟩, (A.key_clear _ _ x).trans hKey⟩
  exact fun hDoomed => hLive.2 ⟨x, hx, hKey, hDoomed⟩

theorem valid (h : Deletes A chosen s s') (hValid : S.Valid s) : S.Valid s' := by
  intro e
  refine ⟨fun r' hr' => ?_, ?_⟩
  · obtain ⟨r, hr, hKept, rfl⟩ := h.mem_rows.mp hr'
    exact h.references hValid hr hKept
  · change (S.table e s').rows.Pairwise _
    rw [h.rows, List.pairwise_map]
    refine ((hValid e).unique.sublist List.filter_sublist).imp fun {a b} hApart => ?_
    rw [A.conflicts_clear, S.conflicts_comm, A.conflicts_clear, S.conflicts_comm]
    exact hApart

/-- **An exact deletion keeps referential integrity.** -/
theorem prunes (h : Deletes A chosen s s') : S.Prunes s s' where
  valid := h.valid
  evolve e := by
    refine ⟨Int.le_of_eq (h.next e).symm, fun r' hr' _ => ?_⟩
    obtain ⟨r, hr, -, rfl⟩ := h.mem_rows.mp hr'
    exact ⟨r, hr, (A.key_clear _ e r).symm, A.evolves_clear _ e r⟩

end Deletes

/-! ## Rows that belong to nobody -/

/-- A row that no other row owns is deleted only if it is chosen. -/
theorem doomed_root (hRoot : ∀ r : S.Of e, A.cascade e r = []) {r : S.Of e} :
    Doomed A chosen s e r ↔ chosen e r := by
  refine ⟨fun hDoomed => ?_, .chosen⟩
  cases hDoomed with
  | chosen hChosen => exact hChosen
  | behind _ hRef _ =>
      rw [hRoot] at hRef
      exact absurd hRef List.not_mem_nil

theorem Deletes.has_root (h : Deletes A chosen s s') (hRoot : ∀ r : S.Of e, A.cascade e r = [])
    {k : Int} (hKept : ∀ r : S.Of e, Row.key r = k → ¬ chosen e r)
    (hHas : (S.table e s).has k = true) : (S.table e s').has k = true := by
  obtain ⟨r, hr, hKey⟩ := Table.has_iff.mp hHas
  refine Table.has_iff.mpr ⟨_, h.mem_rows.mpr ⟨r, hr, ?_, rfl⟩, (A.key_clear _ _ r).trans hKey⟩
  exact fun hDoomed => hKept r hKey ((doomed_root hRoot).mp hDoomed)

/-- Its key stays in use as long as no rows of its own entity are deleted. -/
theorem Statement.has_root {writes : Write ι → Prop}
    (hDeletes : ∀ e p s, Deletes A (Only e p) s ((S.model e).erase p s))
    (hRoot : ∀ r : S.Of e, A.cascade e r = []) (hNot : ¬ writes (.erase e))
    (h : S.Statement writes s s') {k : Int} (hHas : (S.table e s).has k = true) :
    (S.table e s').has k = true := by
  cases h with
  | same => exact hHas
  | @create e' hw mk hmk r s' h =>
      obtain ⟨-, -, rfl⟩ := Model.create_ok h
      refine @has_put _ _ _ _ _ _ (e, k) (fun hSame hHas => ?_) hHas
      cases hSame
      exact has_insert _ mk hmk hHas
  | @update e' hw sel f hf r s' hEvolves h =>
      obtain ⟨-, -, -, -, -, -, rfl⟩ := Model.update_ok h
      refine @has_put _ _ _ _ _ _ (e, k) (fun hSame hHas => ?_) hHas
      cases hSame
      exact (Table.has_modify _ f hf k).trans hHas
  | updateMany hw p f hf hRefs hEvolves hConflicts =>
      refine @has_put _ _ _ _ _ _ (e, k) (fun hSame hHas => ?_) hHas
      cases hSame
      exact (Table.has_modify p f hf k).trans hHas
  | @delete e' hw p =>
      refine (hDeletes e' p s).has_root hRoot (fun r _ hOnly => ?_) hHas
      obtain rfl := hOnly.eq
      exact hNot hw
  | outside hw hSame => rwa [hSame]

/-! ## Deletions one after the other -/

section After

variable (h : Deletes A first s s₁)
  (hStays : ∀ e, ∀ r ∈ (S.table e s).rows, chosen e (A.clear (Lost A first s) e r) ↔ chosen e r)
  (hBehind : ∀ e, ∀ r ∈ (S.table e s).rows, first e r → Doomed A chosen s e r)

include h hStays in
/-- A chain after the first deletion is one before it. -/
theorem doomed_before {r₁ : S.Of e} (hDoomed : Doomed A chosen s₁ e r₁) {r : S.Of e}
    (hr : r ∈ (S.table e s).rows) (hRow : A.clear (Lost A first s) e r = r₁) :
    Doomed A chosen s e r := by
  induction hDoomed with
  | chosen hChosen =>
      subst hRow
      exact .chosen ((hStays _ r hr).mp hChosen)
  | behind hNext hRef _ ih =>
      subst hRow
      obtain ⟨x, hx, -, rfl⟩ := h.mem_rows.mp hNext
      rw [A.cascade_clear, A.key_clear] at hRef
      exact .behind hx hRef (ih hx rfl)

include h hStays in
/-- The rows of a chain are there after the first deletion, if its first row is. -/
theorem doomed_after {r : S.Of e} (hDoomed : Doomed A chosen s e r) (hr : r ∈ (S.table e s).rows)
    (hKept : ¬ Doomed A first s e r) :
    Doomed A chosen s₁ e (A.clear (Lost A first s) e r) := by
  induction hDoomed with
  | chosen hChosen => exact .chosen ((hStays _ _ hr).mpr hChosen)
  | behind hNext hRef _ ih =>
      have hNextKept := fun hGone => hKept (.behind hNext hRef hGone)
      refine .behind (h.mem_rows.mpr ⟨_, hNext, hNextKept, rfl⟩) ?_ (ih hNext hNextKept)
      rwa [A.cascade_clear, A.key_clear]

include hBehind in
/-- What stands behind chosen rows is doomed, and what stands behind that. -/
theorem doomed_of_first {r : S.Of e} (hDoomed : Doomed A first s e r)
    (hr : r ∈ (S.table e s).rows) : Doomed A chosen s e r := by
  induction hDoomed with
  | chosen hFirst => exact hBehind _ _ hr hFirst
  | behind hNext hRef _ ih => exact .behind hNext hRef (ih hNext)

include h hStays hBehind in
theorem kept_iff {r : S.Of e} (hr : r ∈ (S.table e s).rows) :
    ¬ Doomed A chosen s e r ↔
      ¬ Doomed A first s e r ∧ ¬ Doomed A chosen s₁ e (A.clear (Lost A first s) e r) := by
  constructor
  · intro hKept
    exact ⟨fun hFirst => hKept (doomed_of_first hBehind hFirst hr),
      fun hLater => hKept (doomed_before h hStays hLater hr rfl)⟩
  · rintro ⟨hFirst, hLater⟩ hDoomed
    exact hLater (doomed_after h hStays hDoomed hr hFirst)

include h hStays hBehind in
theorem lost_iff {k : Int} :
    Lost A first s e k ∨ Lost A chosen s₁ e k ↔ Lost A chosen s e k := by
  constructor
  · rintro (⟨r, hr, hKey, hDoomed⟩ | ⟨r₁, hr₁, hKey, hDoomed⟩)
    · exact ⟨r, hr, hKey, doomed_of_first hBehind hDoomed hr⟩
    · obtain ⟨r, hr, -, rfl⟩ := h.mem_rows.mp hr₁
      rw [A.key_clear] at hKey
      exact ⟨r, hr, hKey, doomed_before h hStays hDoomed hr rfl⟩
  · rintro ⟨r, hr, hKey, hDoomed⟩
    by_cases hFirst : Doomed A first s e r
    · exact Or.inl ⟨r, hr, hKey, hFirst⟩
    · refine Or.inr ⟨_, h.mem_rows.mpr ⟨r, hr, hFirst, rfl⟩, ?_, ?_⟩
      · exact (A.key_clear _ _ r).trans hKey
      · exact doomed_after h hStays hDoomed hr hFirst

open Classical in
include hStays hBehind in
/-- **First what stands behind the chosen rows, then the chosen rows.** -/
theorem Deletes.after (h : Deletes A first s s₁) (h' : Deletes A chosen s₁ s') :
    Deletes A chosen s s' where
  rows e := by
    have hLost : (fun e k => Lost A first s e k ∨ Lost A chosen s₁ e k) = Lost A chosen s :=
      funext₂ fun _ _ => propext (lost_iff h hStays hBehind)
    rw [h'.rows, h.rows, List.filter_map, List.map_map, List.filter_filter]
    have hRows (rows : List (S.Of e)) :
        rows.map (A.clear (Lost A chosen s₁) e ∘ A.clear (Lost A first s) e) =
          rows.map (A.clear (Lost A chosen s) e) :=
      List.map_congr_left fun r _ => by rw [Function.comp, A.clear_clear, hLost]
    rw [hRows]
    congr 1
    refine List.filter_congr fun r hr => ?_
    have hBoth := kept_iff h hStays hBehind hr
    rw [Bool.eq_iff_iff, Function.comp, Bool.and_eq_true, decide_eq_true_eq, decide_eq_true_eq,
      decide_eq_true_eq]
    exact and_comm.trans hBoth.symm
  next e := (h'.next e).trans (h.next e)

end After

/-! ## One entity -/

section Row

variable (A) in
/-- No row of `e'` stands behind a row of `e` with a key in `gone`. -/
def Apart (e : ι) (gone : List Int) (e' : ι) (s : σ) : Prop :=
  ∀ r ∈ (S.table e' s).rows, ∀ k, (e, k) ∈ A.cascade e' r → k ∉ gone

/-- What stands apart stays apart. -/
theorem Deletes.apart (h : Deletes A chosen s s') {gone : List Int} (hApart : Apart A e gone e' s) :
    Apart A e gone e' s' := by
  intro r' hr' k hRef
  obtain ⟨r, hr, -, rfl⟩ := h.mem_rows.mp hr'
  rw [A.cascade_clear] at hRef
  exact hApart r hr k hRef

/-- The keys of the rows that satisfy `p`. -/
def keysIn (e : ι) (p : S.Of e → Bool) (s : σ) : List Int :=
  ((S.table e s).rows.filter p).map Row.key

variable {p : S.Of e → Bool} {q : S.Of e' → Bool}

theorem mem_keysIn {k : Int} :
    k ∈ keysIn e p s ↔ ∃ r ∈ (S.table e s).rows, p r = true ∧ Row.key r = k := by
  simp only [keysIn, List.mem_map, List.mem_filter, and_assoc]

theorem doomed_iff_chosen (hNone : ∀ e', Apart A e (keysIn e p s) e' s) {r' : S.Of e'}
    (hr' : r' ∈ (S.table e' s).rows) : Doomed A (Only e p) s e' r' ↔ Only e p e' r' := by
  refine ⟨fun hDoomed => ?_, .chosen⟩
  induction hDoomed with
  | chosen h => exact h
  | behind hNext hRef _ ih =>
      have hOnly := ih hNext
      obtain rfl := hOnly.eq
      exact absurd (mem_keysIn.mpr ⟨_, hNext, only_iff.mp hOnly, rfl⟩) (hNone _ _ hr' _ hRef)

theorem lost_iff_chosen (hNone : ∀ e', Apart A e (keysIn e p s) e' s) {k : Int} :
    Lost A (Only e p) s e' k ↔ e' = e ∧ k ∈ keysIn e p s := by
  constructor
  · rintro ⟨r, hr, hKey, hGone⟩
    have hOnly := (doomed_iff_chosen hNone hr).mp hGone
    obtain rfl := hOnly.eq
    exact ⟨rfl, mem_keysIn.mpr ⟨r, hr, only_iff.mp hOnly, hKey⟩⟩
  · rintro ⟨rfl, hMem⟩
    obtain ⟨r, hr, hp, hKey⟩ := mem_keysIn.mp hMem
    exact ⟨r, hr, hKey, .chosen (.intro hp)⟩

open Classical in
/-- The rows that satisfy `p` are deleted, when none stand behind them. -/
theorem deletes_row (hNone : ∀ e', Apart A e (keysIn e p s) e' s)
    (hSelf : ∀ r k, (e, k) ∉ A.nullable e r) (hTable : S.table e s' = (S.table e s).erase p)
    (hNext : ∀ e', (S.table e' s').next = (S.table e' s).next)
    (hRows : ∀ e', e' ≠ e → (S.table e' s').rows = (S.table e' s).rows.map
      (A.clear (fun e'' k => e'' = e ∧ k ∈ keysIn e p s) e')) :
    Deletes A (Only e p) s s' where
  next := hNext
  rows e' := by
    have hLost : Lost A (Only e p) s = fun e'' k => e'' = e ∧ k ∈ keysIn e p s :=
      funext₂ fun _ _ => propext (lost_iff_chosen hNone)
    by_cases hSame : e' = e
    · subst hSame
      have hClear (r : S.Of e') : A.clear (Lost A (Only e' p) s) e' r = r := by
        refine A.clear_eq_self fun ref hRef hGone => ?_
        obtain ⟨e'', k⟩ := ref
        obtain rfl : e'' = e' := ((lost_iff_chosen hNone).mp hGone).1
        exact hSelf r k hRef
      rw [List.map_congr_left fun r _ => hClear r, List.map_id', hTable, Table.rows_erase]
      refine List.filter_congr fun r hr => ?_
      rw [Bool.eq_iff_iff, decide_eq_true_eq, doomed_iff_chosen hNone hr, only_iff,
        Bool.not_eq_true, Bool.not_eq_true']
    · rw [hRows e' hSame, hLost]
      congr 1
      refine (List.filter_eq_self.mpr fun r hr => ?_).symm
      exact decide_eq_true fun hGone => hSame ((doomed_iff_chosen hNone hr).mp hGone).eq

/-- Rows that do not refer to the entity stay as they are. -/
theorem map_clear_eq_self {gone : List Int} (h : ∀ (r : S.Of e') k, (e, k) ∉ A.nullable e' r)
    (rows : List (S.Of e')) :
    rows.map (A.clear (fun e'' k => e'' = e ∧ k ∈ gone) e') = rows := by
  refine (List.map_congr_left fun r _ => ?_).trans (List.map_id _)
  refine A.clear_eq_self fun ref hRef hGone => ?_
  obtain ⟨e'', k⟩ := ref
  obtain rfl : e'' = e := hGone.1
  exact h r k hRef

/-- Likewise, when no nullable reference leads to the entity. -/
theorem deletes_put (hNone : ∀ e', Apart A e (keysIn e p s) e' s)
    (hNullable : ∀ e' (r : S.Of e') k, (e, k) ∉ A.nullable e' r) :
    Deletes A (Only e p) s (S.put e ((S.table e s).erase p) s) := by
  have hOther {e'} (hOther : e' ≠ e) :
      S.table e' (S.put e ((S.table e s).erase p) s) = S.table e' s := table_put_ne hOther _ _
  refine deletes_row hNone (hNullable e) (table_put_self _ _) (fun e' => ?_) fun e' hSame => ?_
  · by_cases hSame : e' = e
    · subst hSame
      rw [table_put_self]
      rfl
    · rw [hOther hSame]
  · rw [hOther hSame]
    exact (map_clear_eq_self (hNullable e') _).symm

/-- First the rows of `e'` behind the rows of `e` that satisfy `p`, then these. -/
theorem Deletes.behind (h : Deletes A (Only e' q) s s₁) (h' : Deletes A (Only e p) s₁ s')
    (hStays : ∀ r ∈ (S.table e s).rows, p (A.clear (Lost A (Only e' q) s) e r) = p r)
    (hBehind : ∀ r' ∈ (S.table e' s).rows, q r' = true →
      ∃ k ∈ keysIn e p s, (e, k) ∈ A.cascade e' r') :
    Deletes A (Only e p) s s' := by
  refine Deletes.after (fun e'' r hr => ?_) (fun e'' r hr hFirst => ?_) h h'
  · constructor
    · intro hOnly
      obtain rfl := hOnly.eq
      exact .intro ((hStays r hr).symm.trans (only_iff.mp hOnly))
    · intro hOnly
      obtain rfl := hOnly.eq
      exact .intro ((hStays r hr).trans (only_iff.mp hOnly))
  · obtain rfl := hFirst.eq
    obtain ⟨k, hMem, hRef⟩ := hBehind r hr (only_iff.mp hFirst)
    obtain ⟨x, hx, hp, rfl⟩ := mem_keysIn.mp hMem
    exact .behind hx hRef (.chosen (.intro hp))

/-- When no row stands behind rows of `e`, only rows of `e` are deleted. -/
theorem lost_leaf (hLeaf : ∀ e' (r : S.Of e') k, (e, k) ∉ A.cascade e' r) {k : Int}
    (h : Lost A (Only e p) s e' k) : e' = e :=
  ((lost_iff_chosen fun e' r _ k hRef => absurd hRef (hLeaf e' r k)).mp h).1

end Row

end Schema
