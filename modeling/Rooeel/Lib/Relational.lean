import Rooeel.Lib.Resumption
import Mathlib.Data.List.Basic
import Mathlib.Data.List.Nodup
import Mathlib.Data.List.Pairwise

/-!
# Tables with an autoincrement key

A `Table ρ` is a list of rows in the order in which the database returns them when no
order is requested, with the next value of its key sequence. Its fields carry what the
primary key guarantees: keys are positive, distinct and below the next one, so a key is
never used twice, not even after its row was deleted.

A `Model σ ρ` is a table inside a state `σ` with the constraints of its rows: `references`
(the foreign keys of a row point to existing rows), `conflicts` (two rows violate a unique
index) and `erase` (delete rows, with the referential actions on the rows that point to
them). `create`, `update`, `upsert` and `delete` are the statements: each succeeds as a
whole or fails without effect.
-/

/-- Why a statement is refused. -/
inductive DbError where
  | notFound
  | foreignKey
  | unique
  | invalid
  deriving DecidableEq, Repr

/-- Rows with a primary key. -/
class Row (ρ : Type) where
  key : ρ → Int

structure Table (ρ : Type) [Row ρ] where
  rows : List ρ
  next : Int
  next_pos : 0 < next
  nodup : (rows.map Row.key).Nodup
  bounds : ∀ r ∈ rows, 0 < Row.key r ∧ Row.key r < next

namespace Table

variable {ρ : Type} [Row ρ]

theorem key_pos (t : Table ρ) {r : ρ} (h : r ∈ t.rows) : 0 < Row.key r := (t.bounds r h).1

theorem key_lt (t : Table ρ) {r : ρ} (h : r ∈ t.rows) : Row.key r < t.next := (t.bounds r h).2

theorem key_inj (t : Table ρ) {r r' : ρ} (h : r ∈ t.rows) (h' : r' ∈ t.rows)
    (hk : Row.key r = Row.key r') : r = r' :=
  List.inj_on_of_nodup_map t.nodup h h' hk

def empty : Table ρ where
  rows := []
  next := 1
  next_pos := by decide
  nodup := by simp
  bounds := by simp

/-- Append a row with the next key of the sequence. -/
def insert (t : Table ρ) (mk : Int → ρ) (hmk : ∀ k, Row.key (mk k) = k) : Table ρ where
  rows := t.rows ++ [mk t.next]
  next := t.next + 1
  next_pos := by have := t.next_pos; omega
  nodup := by
    rw [List.map_append, List.nodup_append]
    refine ⟨t.nodup, by simp, ?_⟩
    intro k hk k' hk'
    obtain ⟨r, hr, rfl⟩ := List.mem_map.mp hk
    have hlt := t.key_lt hr
    simp only [List.map_cons, List.map_nil, List.mem_singleton, hmk] at hk'
    omega
  bounds := by
    intro r hr
    rcases List.mem_append.mp hr with hr | hr
    · have := t.bounds r hr
      omega
    · rw [List.mem_singleton.mp hr, hmk]
      have := t.next_pos
      omega

/-- Apply `f` to the rows that satisfy `p`. -/
def modify (t : Table ρ) (p : ρ → Bool) (f : ρ → ρ) (hf : ∀ r, Row.key (f r) = Row.key r) :
    Table ρ where
  rows := t.rows.map fun r => if p r then f r else r
  next := t.next
  next_pos := t.next_pos
  nodup := by
    have hkeys : (t.rows.map fun r => if p r then f r else r).map Row.key = t.rows.map Row.key := by
      rw [List.map_map]
      refine List.map_congr_left fun r _ => ?_
      simp only [Function.comp]
      split
      · exact hf r
      · rfl
    rw [hkeys]
    exact t.nodup
  bounds := by
    intro r hr
    obtain ⟨r', hr', rfl⟩ := List.mem_map.mp hr
    split
    · rw [hf]
      exact t.bounds r' hr'
    · exact t.bounds r' hr'

/-- Delete the rows that satisfy `p`. -/
def erase (t : Table ρ) (p : ρ → Bool) : Table ρ where
  rows := t.rows.filter fun r => !p r
  next := t.next
  next_pos := t.next_pos
  nodup := (List.filter_sublist.map Row.key).nodup t.nodup
  bounds := fun r hr => t.bounds r (List.mem_of_mem_filter hr)

@[simp] theorem rows_insert (t : Table ρ) (mk : Int → ρ) (hmk : ∀ k, Row.key (mk k) = k) :
    (t.insert mk hmk).rows = t.rows ++ [mk t.next] := rfl

@[simp] theorem next_insert (t : Table ρ) (mk : Int → ρ) (hmk : ∀ k, Row.key (mk k) = k) :
    (t.insert mk hmk).next = t.next + 1 := rfl

@[simp] theorem rows_modify (t : Table ρ) (p : ρ → Bool) (f : ρ → ρ)
    (hf : ∀ r, Row.key (f r) = Row.key r) :
    (t.modify p f hf).rows = t.rows.map fun r => if p r then f r else r := rfl

@[simp] theorem rows_erase (t : Table ρ) (p : ρ → Bool) :
    (t.erase p).rows = t.rows.filter fun r => !p r := rfl

theorem eq_of_rows {t t' : Table ρ} (hRows : t.rows = t'.rows) (hNext : t.next = t'.next) :
    t = t' := by
  cases t
  cases t'
  cases hRows
  cases hNext
  rfl

theorem erase_erase (t : Table ρ) (p q : ρ → Bool) :
    (t.erase p).erase q = t.erase fun r => p r || q r := by
  refine eq_of_rows ?_ rfl
  rw [rows_erase, rows_erase, rows_erase, List.filter_filter]
  refine List.filter_congr fun r _ => ?_
  rw [Bool.not_or, Bool.and_comm]

theorem mem_erase {t : Table ρ} {p : ρ → Bool} {r : ρ} :
    r ∈ (t.erase p).rows ↔ r ∈ t.rows ∧ p r = false := by
  simp

theorem mem_modify {t : Table ρ} {p : ρ → Bool} {f : ρ → ρ}
    {hf : ∀ r, Row.key (f r) = Row.key r} {r : ρ} :
    r ∈ (t.modify p f hf).rows ↔ ∃ r' ∈ t.rows, (if p r' then f r' else r') = r := by
  simp

theorem mem_modify_of_mem {t : Table ρ} {r : ρ} (p : ρ → Bool) (f : ρ → ρ)
    (hf : ∀ r, Row.key (f r) = Row.key r) (hr : r ∈ t.rows) :
    (if p r then f r else r) ∈ (t.modify p f hf).rows :=
  mem_modify.mpr ⟨r, hr, rfl⟩

/-! ### What holds of all rows -/

theorem forall_insert {t : Table ρ} {P : ρ → Prop} (mk : Int → ρ)
    (hmk : ∀ k, Row.key (mk k) = k) (hOld : ∀ r ∈ t.rows, P r) (hNew : P (mk t.next)) :
    ∀ r ∈ (t.insert mk hmk).rows, P r := by
  intro r hr
  rcases List.mem_append.mp hr with hr | hr
  · exact hOld r hr
  · rw [List.mem_singleton.mp hr]
    exact hNew

theorem forall_modify {t : Table ρ} {P : ρ → Prop} (p : ρ → Bool) (f : ρ → ρ)
    (hf : ∀ r, Row.key (f r) = Row.key r) (hOld : ∀ r ∈ t.rows, P r)
    (hNew : ∀ r ∈ t.rows, p r = true → P (f r)) : ∀ r ∈ (t.modify p f hf).rows, P r := by
  intro r hr
  obtain ⟨r', hr', rfl⟩ := mem_modify.mp hr
  split
  · rename_i hp
    exact hNew r' hr' hp
  · exact hOld r' hr'

theorem forall_erase {t : Table ρ} {P : ρ → Prop} (p : ρ → Bool) (hOld : ∀ r ∈ t.rows, P r) :
    ∀ r ∈ (t.erase p).rows, P r :=
  fun r hr => hOld r (mem_erase.mp hr).1

/-! ### Rows that a statement does not concern -/

theorem filter_insert_of_not {t : Table ρ} {q : ρ → Bool} (mk : Int → ρ)
    (hmk : ∀ k, Row.key (mk k) = k) (h : q (mk t.next) = false) :
    (t.insert mk hmk).rows.filter q = t.rows.filter q := by
  rw [rows_insert, List.filter_append, List.filter_singleton, h]
  simp

theorem filter_modify_of_not {t : Table ρ} {p q : ρ → Bool} (f : ρ → ρ)
    (hf : ∀ r, Row.key (f r) = Row.key r)
    (h : ∀ r ∈ t.rows, p r = true → q r = false ∧ q (f r) = false) :
    (t.modify p f hf).rows.filter q = t.rows.filter q := by
  rw [rows_modify]
  generalize t.rows = rows at h ⊢
  induction rows with
  | nil => rfl
  | cons r rest ih =>
      have hRest := ih fun x hx => h x (List.mem_cons_of_mem _ hx)
      by_cases hp : p r = true
      · obtain ⟨hOld, hNew⟩ := h r List.mem_cons_self hp
        rw [List.map_cons, if_pos hp, List.filter_cons_of_neg (by simp [hNew]), hRest,
          List.filter_cons_of_neg (by simp [hOld])]
      · rw [List.map_cons, if_neg hp, List.filter_cons, List.filter_cons, hRest]

theorem filter_erase_of_not {t : Table ρ} {p q : ρ → Bool}
    (h : ∀ r ∈ t.rows, p r = true → q r = false) :
    (t.erase p).rows.filter q = t.rows.filter q := by
  rw [rows_erase, List.filter_filter]
  refine List.filter_congr fun r hr => ?_
  cases hp : p r with
  | false => rw [Bool.not_false, Bool.and_true]
  | true => rw [h r hr hp, Bool.false_and]

/-- The row with key `k`. -/
def find (t : Table ρ) (k : Int) : Option ρ := t.rows.find? fun r => Row.key r == k

/-- Some row has key `k`. -/
def has (t : Table ρ) (k : Int) : Bool := t.rows.any fun r => Row.key r == k

theorem find_eq_some {t : Table ρ} {k : Int} {r : ρ} :
    t.find k = some r ↔ r ∈ t.rows ∧ Row.key r = k := by
  constructor
  · intro h
    exact ⟨List.mem_of_find?_eq_some h, by simpa using List.find?_some h⟩
  · rintro ⟨hr, rfl⟩
    cases h : t.find (Row.key r) with
    | none =>
      have := List.find?_eq_none.mp h r hr
      simp at this
    | some r' =>
      have hr' := List.mem_of_find?_eq_some h
      have hk : Row.key r' = Row.key r := by simpa using List.find?_some h
      rw [t.key_inj hr' hr hk]

/-- Two lists of rows of a table have the same keys when they have the same rows. -/
theorem same_keys_iff {t : Table ρ} {a b : List ρ} (ha : ∀ r ∈ a, r ∈ t.rows)
    (hb : ∀ r ∈ b, r ∈ t.rows) :
    (∀ k, k ∈ a.map Row.key ↔ k ∈ b.map Row.key) ↔ ∀ r ∈ t.rows, r ∈ a ↔ r ∈ b := by
  have hKey {c : List ρ} (hc : ∀ r ∈ c, r ∈ t.rows) {r : ρ} (hr : r ∈ t.rows) :
      Row.key r ∈ c.map Row.key ↔ r ∈ c := by
    refine ⟨fun hMem => ?_, List.mem_map_of_mem⟩
    obtain ⟨r', hr', hSame⟩ := List.mem_map.mp hMem
    rw [← t.key_inj (hc r' hr') hr hSame]
    exact hr'
  constructor
  · intro h r hr
    rw [← hKey ha hr, ← hKey hb hr]
    exact h _
  · intro h k
    have hSub {c d : List ρ} (hc : ∀ r ∈ c, r ∈ t.rows) (hcd : ∀ r ∈ t.rows, r ∈ c → r ∈ d) :
        k ∈ c.map Row.key → k ∈ d.map Row.key := by
      intro hMem
      obtain ⟨r, hr, rfl⟩ := List.mem_map.mp hMem
      exact List.mem_map_of_mem (hcd r (hc r hr) hr)
    exact ⟨hSub ha fun r hr => (h r hr).mp, hSub hb fun r hr => (h r hr).mpr⟩

theorem has_iff {t : Table ρ} {k : Int} : t.has k = true ↔ ∃ r ∈ t.rows, Row.key r = k := by
  simp [has]

theorem pos_of_has {t : Table ρ} {k : Int} (h : t.has k = true) : 0 < k := by
  obtain ⟨r, hr, rfl⟩ := has_iff.mp h
  exact t.key_pos hr

theorem lt_of_has {t : Table ρ} {k : Int} (h : t.has k = true) : k < t.next := by
  obtain ⟨r, hr, rfl⟩ := has_iff.mp h
  exact t.key_lt hr

theorem has_modify {t : Table ρ} (p : ρ → Bool) (f : ρ → ρ)
    (hf : ∀ r, Row.key (f r) = Row.key r) (k : Int) : (t.modify p f hf).has k = t.has k := by
  simp only [has, rows_modify, List.any_map]
  congr 1
  funext r
  simp only [Function.comp]
  split
  · rw [hf]
  · rfl

/-- The row with key `k` after a change of that row. -/
theorem find_modify_key {t : Table ρ} {k : Int} {r : ρ} (f : ρ → ρ)
    (hf : ∀ r, Row.key (f r) = Row.key r) (h : t.find k = some r) :
    (t.modify (fun x => Row.key x == Row.key r) f hf).find k = some (f r) := by
  obtain ⟨hr, rfl⟩ := find_eq_some.mp h
  refine find_eq_some.mpr ⟨?_, hf r⟩
  have hMem := mem_modify_of_mem (fun x => Row.key x == Row.key r) f hf hr
  rwa [if_pos (beq_self_eq_true _)] at hMem

/-- A row is found unchanged when the change does not concern it, or changes nothing. -/
theorem find_modify_self {t : Table ρ} {r : ρ} (p : ρ → Bool) (f : ρ → ρ)
    (hf : ∀ r, Row.key (f r) = Row.key r) (hr : r ∈ t.rows) :
    (t.modify p f hf).find (Row.key r) = some r ↔ (p r = true → f r = r) := by
  rw [find_eq_some, and_iff_left rfl, mem_modify]
  constructor
  · rintro ⟨x, hx, hSame⟩ hp
    have hKey : Row.key x = Row.key r := by
      rw [← hSame]
      split
      · exact (hf x).symm
      · rfl
    obtain rfl := t.key_inj hx hr hKey
    rwa [if_pos hp] at hSame
  · intro h
    refine ⟨r, hr, ?_⟩
    split
    · rename_i hp
      exact h hp
    · rfl

/-- A search that a change of rows does not concern finds the row as it is now. -/
theorem find?_modify {t : Table ρ} {p q : ρ → Bool} {f : ρ → ρ}
    {hf : ∀ r, Row.key (f r) = Row.key r} (hq : ∀ r, q (f r) = q r) :
    (t.modify p f hf).rows.find? q = (t.rows.find? q).map fun r => if p r then f r else r := by
  rw [rows_modify, List.find?_map]
  congr 2
  funext r
  simp only [Function.comp]
  split
  · exact hq r
  · rfl

/-! ### The order of the rows -/

/-- The same rows, in another order. -/
structure Reordered (t t' : Table ρ) : Prop where
  rows : t'.rows.Perm t.rows
  next : t'.next = t.next

theorem Reordered.refl (t : Table ρ) : Reordered t t := ⟨List.Perm.refl _, rfl⟩

theorem Reordered.mem {t t' : Table ρ} (h : Reordered t t') {r : ρ} :
    r ∈ t'.rows ↔ r ∈ t.rows :=
  h.rows.mem_iff

/-- The table with its rows in the order `rows`. -/
def reorder (t : Table ρ) (rows : List ρ) (h : rows.Perm t.rows) : Table ρ where
  rows := rows
  next := t.next
  next_pos := t.next_pos
  nodup := (h.map Row.key).nodup_iff.mpr t.nodup
  bounds := fun r hr => t.bounds r (h.mem_iff.mp hr)

theorem reordered_reorder (t : Table ρ) (rows : List ρ) (h : rows.Perm t.rows) :
    Reordered t (t.reorder rows h) :=
  ⟨h, rfl⟩

/-- Every row is the first one in some order. -/
theorem reordered_first {t : Table ρ} {r : ρ} (h : r ∈ t.rows) :
    ∃ t', Reordered t t' ∧ ∃ rest, t'.rows = r :: rest := by
  obtain ⟨before, after, hRows⟩ := List.append_of_mem h
  have hPerm : (r :: (before ++ after)).Perm t.rows := by
    rw [hRows]
    exact List.perm_middle.symm
  exact ⟨_, reordered_reorder t _ hPerm, _, rfl⟩

/-! ### What later tables remember -/

/-- Keys are not reused, and `link` of a row does not change while the row exists: every row
of `t'` whose key was given out in `t` was there, with the same `link`. -/
def Keeps {κ : Type} (link : ρ → κ) (t t' : Table ρ) : Prop :=
  t.next ≤ t'.next ∧
    ∀ r' ∈ t'.rows, Row.key r' < t.next →
      ∃ r ∈ t.rows, Row.key r = Row.key r' ∧ link r = link r'

section Keeps

variable {κ : Type} {link : ρ → κ} {t t' : Table ρ}

theorem Keeps.refl (link : ρ → κ) (t : Table ρ) : Keeps link t t :=
  ⟨Int.le_refl _, fun r hr _ => ⟨r, hr, rfl, rfl⟩⟩

theorem Keeps.of_eq (h : t' = t) : Keeps link t t' := by
  rw [h]
  exact Keeps.refl link t

theorem Keeps.trans {t'' : Table ρ} (h : Keeps link t t') (h' : Keeps link t' t'') :
    Keeps link t t'' := by
  refine ⟨Int.le_trans h.1 h'.1, fun r'' hr'' hKey => ?_⟩
  obtain ⟨r', hr', hKey', hLink'⟩ := h'.2 r'' hr'' (Int.lt_of_lt_of_le hKey h.1)
  obtain ⟨r, hr, hKey'', hLink''⟩ := h.2 r' hr' (by rwa [hKey'])
  exact ⟨r, hr, hKey''.trans hKey', hLink''.trans hLink'⟩

theorem Keeps.insert (t : Table ρ) (mk : Int → ρ) (hmk : ∀ k, Row.key (mk k) = k) :
    Keeps link t (t.insert mk hmk) := by
  refine ⟨by rw [next_insert]; omega, fun r hr hKey => ?_⟩
  rcases List.mem_append.mp hr with hr | hr
  · exact ⟨r, hr, rfl, rfl⟩
  · rw [List.mem_singleton.mp hr, hmk] at hKey
    omega

theorem Keeps.modify (t : Table ρ) (p : ρ → Bool) (f : ρ → ρ)
    (hf : ∀ r, Row.key (f r) = Row.key r) (hLink : ∀ r, link (f r) = link r) :
    Keeps link t (t.modify p f hf) := by
  refine ⟨Int.le_refl _, fun r' hr' _ => ?_⟩
  obtain ⟨r, hr, rfl⟩ := mem_modify.mp hr'
  refine ⟨r, hr, ?_⟩
  split
  · exact ⟨(hf r).symm, (hLink r).symm⟩
  · exact ⟨rfl, rfl⟩

theorem Keeps.erase (t : Table ρ) (p : ρ → Bool) : Keeps link t (t.erase p) :=
  ⟨Int.le_refl _, fun r hr _ => ⟨r, (mem_erase.mp hr).1, rfl, rfl⟩⟩

/-- A row that is still there has kept its `link`. -/
theorem Keeps.link_eq (h : Keeps link t t') {r r' : ρ} (hr : r ∈ t.rows) (hr' : r' ∈ t'.rows)
    (hKey : Row.key r' = Row.key r) : link r' = link r := by
  obtain ⟨r₀, hr₀, hKey₀, hLink₀⟩ := h.2 r' hr' (by rw [hKey]; exact t.key_lt hr)
  have hSame : r₀ = r := t.key_inj hr₀ hr (hKey₀.trans hKey)
  rw [← hSame, hLink₀]

end Keeps

/-! ### What a statement touches -/

/-- The row is in one of the two tables only: it was created, deleted, or is the old or the
new version of a row that was changed. -/
def Touched (t t' : Table ρ) (r : ρ) : Prop :=
  (r ∈ t.rows ∧ r ∉ t'.rows) ∨ (r ∈ t'.rows ∧ r ∉ t.rows)

section Touched

variable {t : Table ρ} {r : ρ}

theorem not_touched_self : ¬ Touched t t r := by
  rintro (⟨hr, hNot⟩ | ⟨hr, hNot⟩)
  · exact hNot hr
  · exact hNot hr

theorem touched_new (t : Table ρ) (mk : Int → ρ) (hmk : ∀ k, Row.key (mk k) = k) :
    Touched t (t.insert mk hmk) (mk t.next) := by
  refine Or.inr ⟨List.mem_append_right _ (List.mem_singleton_self _), fun hOld => ?_⟩
  have hLt := t.key_lt hOld
  rw [hmk] at hLt
  exact absurd hLt (Int.lt_irrefl _)

theorem touched_insert {mk : Int → ρ} {hmk : ∀ k, Row.key (mk k) = k}
    (h : Touched t (t.insert mk hmk) r) : r = mk t.next := by
  rcases h with ⟨hr, hNot⟩ | ⟨hr, hNot⟩
  · exact absurd (List.mem_append_left _ hr) hNot
  · rcases List.mem_append.mp hr with hOld | hNew
    · exact absurd hOld hNot
    · exact List.mem_singleton.mp hNew

theorem touched_modify {p : ρ → Bool} {f : ρ → ρ} {hf : ∀ r, Row.key (f r) = Row.key r}
    (h : Touched t (t.modify p f hf) r) :
    ∃ r₀ ∈ t.rows, p r₀ = true ∧ f r₀ ≠ r₀ ∧ (r = r₀ ∨ r = f r₀) := by
  rcases h with ⟨hr, hNot⟩ | ⟨hr, hNot⟩
  · have hGone : (if p r then f r else r) ≠ r := fun hSame => hNot (mem_modify.mpr ⟨r, hr, hSame⟩)
    by_cases hp : p r = true
    · rw [if_pos hp] at hGone
      exact ⟨r, hr, hp, hGone, Or.inl rfl⟩
    · exact absurd (if_neg hp) hGone
  · obtain ⟨r₀, hr₀, rfl⟩ := mem_modify.mp hr
    by_cases hp : p r₀ = true
    · rw [if_pos hp] at hNot ⊢
      exact ⟨r₀, hr₀, hp, fun hSame => hNot (hSame.symm ▸ hr₀), Or.inr rfl⟩
    · rw [if_neg hp] at hNot
      exact absurd hr₀ hNot

theorem touched_erase {p : ρ → Bool} (h : Touched t (t.erase p) r) :
    r ∈ t.rows ∧ p r = true := by
  rcases h with ⟨hr, hNot⟩ | ⟨hr, hNot⟩
  · refine ⟨hr, ?_⟩
    by_contra hp
    exact hNot (mem_erase.mpr ⟨hr, Bool.eq_false_iff.mpr hp⟩)
  · exact absurd (mem_erase.mp hr).1 hNot

end Touched

end Table

/-! ## Models: tables with constraints inside a state -/

structure Model (σ ρ : Type) [Row ρ] where
  table : σ → Table ρ
  put : Table ρ → σ → σ
  references : σ → ρ → Bool
  conflicts : ρ → ρ → Bool
  erase : (ρ → Bool) → σ → σ
  table_put : ∀ t s, table (put t s) = t

namespace Model

variable {σ ρ : Type} [Row ρ] (m : Model σ ρ)

/-- The constraints of the row `r`, among the rows with other keys. -/
def accepts (s : σ) (r : ρ) : Except DbError Unit :=
  if m.references s r = false then .error .foreignKey
  else if (m.table s).rows.any fun r' => !(Row.key r' == Row.key r) && m.conflicts r' r then
    .error .unique
  else .ok ()

/-- The first row that satisfies `sel`: a row named by a unique key, or the first of
several in the order of the database. -/
def findFirst (sel : ρ → Bool) (s : σ) : Option ρ := (m.table s).rows.find? sel

def findMany (sel : ρ → Bool) (s : σ) : List ρ := (m.table s).rows.filter sel

def create (mk : Int → ρ) (hmk : ∀ k, Row.key (mk k) = k := by intro; rfl) (s : σ) :
    Except DbError (ρ × σ) :=
  match m.accepts s (mk (m.table s).next) with
  | .error e => .error e
  | .ok () => .ok (mk (m.table s).next, m.put ((m.table s).insert mk hmk) s)

/-- Update the row named by the unique selector `sel`. -/
def update (sel : ρ → Bool) (f : ρ → ρ) (hf : ∀ r, Row.key (f r) = Row.key r := by intro; rfl)
    (s : σ) : Except DbError (ρ × σ) :=
  match m.findFirst sel s with
  | none => .error .notFound
  | some r =>
    match m.accepts s (f r) with
    | .error e => .error e
    | .ok () =>
      .ok (f r, m.put ((m.table s).modify (fun r' => Row.key r' == Row.key r) f hf) s)

def upsert (sel : ρ → Bool) (f : ρ → ρ) (mk : Int → ρ)
    (hf : ∀ r, Row.key (f r) = Row.key r := by intro; rfl)
    (hmk : ∀ k, Row.key (mk k) = k := by intro; rfl) (s : σ) : Except DbError (ρ × σ) :=
  match m.findFirst sel s with
  | some _ => m.update sel f hf s
  | none => m.create mk hmk s

/-- Delete the row named by the unique selector `sel`. -/
def delete (sel : ρ → Bool) (s : σ) : Except DbError (ρ × σ) :=
  match m.findFirst sel s with
  | none => .error .notFound
  | some r => .ok (r, m.erase (fun r' => Row.key r' == Row.key r) s)

variable {m}

theorem accepts_ok {s : σ} {r : ρ} (h : m.accepts s r = .ok ()) :
    m.references s r = true ∧
      ∀ r' ∈ (m.table s).rows, Row.key r' ≠ Row.key r → m.conflicts r' r = false := by
  unfold accepts at h
  split at h
  · cases h
  · rename_i href
    split at h
    · cases h
    · rename_i hany
      refine ⟨by simpa using href, fun r' hr' hk => ?_⟩
      by_contra hc
      refine hany (List.any_eq_true.mpr ⟨r', hr', ?_⟩)
      simp_all

theorem accepts_of {s : σ} {r : ρ} (hRef : m.references s r = true)
    (hUnique : ∀ r' ∈ (m.table s).rows, Row.key r' ≠ Row.key r → m.conflicts r' r = false) :
    m.accepts s r = .ok () := by
  unfold accepts
  rw [if_neg (by simp [hRef]), if_neg]
  intro hAny
  obtain ⟨r', hr', hConflict⟩ := List.any_eq_true.mp hAny
  simp only [Bool.and_eq_true, Bool.not_eq_true', beq_eq_false_iff_ne] at hConflict
  rw [hUnique r' hr' hConflict.1] at hConflict
  exact Bool.false_ne_true hConflict.2

theorem accepts_conflict {s : σ} {r r' : ρ} (hRef : m.references s r = true)
    (hMem : r' ∈ (m.table s).rows) (hKey : Row.key r' ≠ Row.key r)
    (hConflict : m.conflicts r' r = true) : m.accepts s r = .error .unique := by
  unfold accepts
  rw [if_neg (by simp [hRef]), if_pos]
  refine List.any_eq_true.mpr ⟨r', hMem, ?_⟩
  simp [hKey, hConflict]

/-- What a successful `create` does. -/
theorem create_ok {mk : Int → ρ} {hmk : ∀ k, Row.key (mk k) = k} {s s' : σ} {r : ρ}
    (h : m.create mk hmk s = .ok (r, s')) :
    r = mk (m.table s).next ∧ m.references s r = true ∧
      s' = m.put ((m.table s).insert mk hmk) s := by
  unfold create at h
  split at h
  · cases h
  · rename_i hacc
    cases h
    exact ⟨rfl, (accepts_ok hacc).1, rfl⟩

theorem create_of {mk : Int → ρ} {hmk : ∀ k, Row.key (mk k) = k} {s : σ}
    (hAccepts : m.accepts s (mk (m.table s).next) = .ok ()) :
    m.create mk hmk s = .ok (mk (m.table s).next, m.put ((m.table s).insert mk hmk) s) := by
  simp only [create, hAccepts]

/-- A row that was created conflicts with none of the old ones. -/
theorem create_unique {mk : Int → ρ} {hmk : ∀ k, Row.key (mk k) = k} {s s' : σ} {r : ρ}
    (h : m.create mk hmk s = .ok (r, s')) : ∀ r' ∈ (m.table s).rows, m.conflicts r' r = false := by
  unfold create at h
  split at h
  · cases h
  · rename_i hacc
    cases h
    intro r' hr'
    refine (accepts_ok hacc).2 r' hr' ?_
    rw [hmk]
    exact Int.ne_of_lt ((m.table s).key_lt hr')

theorem findFirst_some {sel : ρ → Bool} {s : σ} {r : ρ} (h : m.findFirst sel s = some r) :
    r ∈ (m.table s).rows ∧ sel r = true :=
  ⟨List.mem_of_find?_eq_some h, List.find?_some h⟩

/-- What a successful `update` does. -/
theorem update_ok {sel : ρ → Bool} {f : ρ → ρ} {hf : ∀ r, Row.key (f r) = Row.key r} {s s' : σ}
    {r' : ρ} (h : m.update sel f hf s = .ok (r', s')) :
    ∃ r ∈ (m.table s).rows, sel r = true ∧ m.findFirst sel s = some r ∧ r' = f r ∧
      m.references s r' = true ∧
      s' = m.put ((m.table s).modify (fun x => Row.key x == Row.key r) f hf) s := by
  unfold update at h
  split at h
  · cases h
  · rename_i r hfind
    split at h
    · cases h
    · rename_i hacc
      cases h
      obtain ⟨hr, hsel⟩ := findFirst_some hfind
      exact ⟨r, hr, hsel, hfind, rfl, (accepts_ok hacc).1, rfl⟩

theorem update_of_find {sel : ρ → Bool} {f : ρ → ρ} {hf : ∀ r, Row.key (f r) = Row.key r} {s : σ}
    {r : ρ} (hFind : m.findFirst sel s = some r) (hAccepts : m.accepts s (f r) = .ok ()) :
    m.update sel f hf s =
      .ok (f r, m.put ((m.table s).modify (fun x => Row.key x == Row.key r) f hf) s) := by
  simp only [update, hFind, hAccepts]

/-- A row that was updated conflicts with none of the others. -/
theorem update_unique {sel : ρ → Bool} {f : ρ → ρ} {hf : ∀ r, Row.key (f r) = Row.key r}
    {s s' : σ} {r' : ρ} (h : m.update sel f hf s = .ok (r', s')) :
    ∀ r ∈ (m.table s).rows, Row.key r ≠ Row.key r' → m.conflicts r r' = false := by
  unfold update at h
  split at h
  · cases h
  · split at h
    · cases h
    · rename_i hacc
      cases h
      exact (accepts_ok hacc).2

theorem update_refused {sel : ρ → Bool} {f : ρ → ρ} {hf : ∀ r, Row.key (f r) = Row.key r} {s : σ}
    {r : ρ} {e : DbError} (hFind : m.findFirst sel s = some r)
    (hRefused : m.accepts s (f r) = .error e) : m.update sel f hf s = .error e := by
  simp only [update, hFind, hRefused]

/-- What a successful `delete` does. -/
theorem delete_ok {sel : ρ → Bool} {s s' : σ} {r : ρ} (h : m.delete sel s = .ok (r, s')) :
    r ∈ (m.table s).rows ∧ sel r = true ∧
      s' = m.erase (fun x => Row.key x == Row.key r) s := by
  unfold delete at h
  split at h
  · cases h
  · rename_i r' hfind
    cases h
    obtain ⟨hr, hsel⟩ := findFirst_some hfind
    exact ⟨hr, hsel, rfl⟩

/-- What a successful `upsert` does: it updates the selected row, or creates one when
there is none. -/
theorem upsert_ok {sel : ρ → Bool} {f : ρ → ρ} {mk : Int → ρ}
    {hf : ∀ r, Row.key (f r) = Row.key r} {hmk : ∀ k, Row.key (mk k) = k} {s s' : σ} {r : ρ}
    (h : m.upsert sel f mk hf hmk s = .ok (r, s')) :
    m.update sel f hf s = .ok (r, s') ∨
      m.findFirst sel s = none ∧ m.create mk hmk s = .ok (r, s') := by
  unfold upsert at h
  split at h
  · exact Or.inl h
  · rename_i hnone
    exact Or.inr ⟨hnone, h⟩

theorem upsert_of_find {sel : ρ → Bool} {f : ρ → ρ} {mk : Int → ρ}
    {hf : ∀ r, Row.key (f r) = Row.key r} {hmk : ∀ k, Row.key (mk k) = k} {s : σ} {r : ρ}
    (hFind : m.findFirst sel s = some r) (hAccepts : m.accepts s (f r) = .ok ()) :
    m.upsert sel f mk hf hmk s =
      .ok (f r, m.put ((m.table s).modify (fun x => Row.key x == Row.key r) f hf) s) := by
  simp only [upsert, hFind, update_of_find hFind hAccepts]

theorem upsert_of_none {sel : ρ → Bool} {f : ρ → ρ} {mk : Int → ρ}
    {hf : ∀ r, Row.key (f r) = Row.key r} {hmk : ∀ k, Row.key (mk k) = k} {s : σ}
    (hFind : m.findFirst sel s = none) (hAccepts : m.accepts s (mk (m.table s).next) = .ok ()) :
    m.upsert sel f mk hf hmk s =
      .ok (mk (m.table s).next, m.put ((m.table s).insert mk hmk) s) := by
  simp only [upsert, hFind, create_of hAccepts]

/-! ### Selections that a statement does not concern -/

section Selections

variable {s s' : σ} {r : ρ} {q : ρ → Bool}

theorem filter_create {mk : Int → ρ} {hmk : ∀ k, Row.key (mk k) = k}
    (h : m.create mk hmk s = .ok (r, s')) (hNew : ∀ k, q (mk k) = false) :
    (m.table s').rows.filter q = (m.table s).rows.filter q := by
  obtain ⟨-, -, rfl⟩ := create_ok h
  rw [m.table_put]
  exact Table.filter_insert_of_not mk hmk (hNew _)

theorem filter_update {sel : ρ → Bool} {f : ρ → ρ} {hf : ∀ r, Row.key (f r) = Row.key r}
    (h : m.update sel f hf s = .ok (r, s'))
    (hRow : ∀ x ∈ (m.table s).rows, sel x = true → q x = false ∧ q (f x) = false) :
    (m.table s').rows.filter q = (m.table s).rows.filter q := by
  obtain ⟨r₀, hr₀, hSel, -, -, -, rfl⟩ := update_ok h
  rw [m.table_put]
  refine Table.filter_modify_of_not f hf fun x hx hKey => ?_
  obtain rfl : x = r₀ := (m.table s).key_inj hx hr₀ (beq_iff_eq.mp hKey)
  exact hRow x hx hSel

theorem filter_upsert {sel : ρ → Bool} {f : ρ → ρ} {mk : Int → ρ}
    {hf : ∀ r, Row.key (f r) = Row.key r} {hmk : ∀ k, Row.key (mk k) = k}
    (h : m.upsert sel f mk hf hmk s = .ok (r, s'))
    (hRow : ∀ x ∈ (m.table s).rows, sel x = true → q x = false ∧ q (f x) = false)
    (hNew : ∀ k, q (mk k) = false) :
    (m.table s').rows.filter q = (m.table s).rows.filter q := by
  rcases upsert_ok h with hUpdate | ⟨-, hCreate⟩
  · exact filter_update hUpdate hRow
  · exact filter_create hCreate hNew

end Selections

/-- All rows of the table satisfy its constraints. -/
structure Sound (m : Model σ ρ) (s : σ) : Prop where
  references : ∀ r ∈ (m.table s).rows, m.references s r = true
  unique : (m.table s).rows.Pairwise fun r r' => m.conflicts r r' = false

theorem sound_of_nil {s : σ} (h : (m.table s).rows = []) : m.Sound s := by
  refine ⟨fun r hr => ?_, ?_⟩
  · rw [h] at hr
    exact absurd hr List.not_mem_nil
  · rw [h]
    exact List.Pairwise.nil

theorem sound_of_singleton {s : σ} {r : ρ} (h : (m.table s).rows = [r])
    (hRef : m.references s r = true) : m.Sound s := by
  refine ⟨fun r' hr' => ?_, ?_⟩
  · rw [h] at hr'
    rw [List.mem_singleton.mp hr']
    exact hRef
  · rw [h]
    exact List.pairwise_singleton _ _

/-- Two rows that conflict are one. -/
theorem Sound.eq_of_conflicts {s : σ} (h : m.Sound s)
    (hSymm : ∀ a b, m.conflicts a b = m.conflicts b a) {r r' : ρ} (hr : r ∈ (m.table s).rows)
    (hr' : r' ∈ (m.table s).rows) (hConflict : m.conflicts r r' = true) : r = r' := by
  by_contra hNe
  have hSymmetric : Std.Symm fun a b => m.conflicts a b = false :=
    ⟨fun a b hab => (hSymm b a).trans hab⟩
  have hApart := h.unique.forall hr hr' hNe
  rw [hConflict] at hApart
  cases hApart

/-- An update keeps the constraints of the table, if it does not matter for the foreign keys. -/
theorem Sound.update {s s' : σ} (h : m.Sound s) (hSymm : ∀ a b, m.conflicts a b = m.conflicts b a)
    {sel : ρ → Bool} {f : ρ → ρ} {hf : ∀ r, Row.key (f r) = Row.key r} {r' : ρ}
    (hUpdate : m.update sel f hf s = .ok (r', s'))
    (hRef : ∀ r, m.references s' r = m.references s r) : m.Sound s' := by
  have hUnique := update_unique hUpdate
  obtain ⟨r, hr, -, -, rfl, hRow, rfl⟩ := update_ok hUpdate
  have hSelected {x : ρ} (hx : x ∈ (m.table s).rows) (hKey : (Row.key x == Row.key r) = true) :
      x = r := (m.table s).key_inj hx hr (beq_iff_eq.mp hKey)
  refine ⟨?_, ?_⟩
  · rw [m.table_put]
    intro x hx
    rw [hRef]
    refine Table.forall_modify _ f hf h.references (fun y hy hKey => ?_) x hx
    rw [hSelected hy hKey]
    exact hRow
  · rw [m.table_put, Table.rows_modify, List.pairwise_map]
    have hKeys : (m.table s).rows.Pairwise fun a b => Row.key a ≠ Row.key b :=
      List.pairwise_map.mp (m.table s).nodup
    refine (h.unique.and hKeys).imp_of_mem fun {a b} ha hb hab => ?_
    obtain ⟨hApart, hKey⟩ := hab
    split
    · rename_i haSel
      obtain rfl := hSelected ha haSel
      rw [if_neg (by simpa using Ne.symm hKey), hSymm]
      exact hUnique b hb (by rw [hf]; exact Ne.symm hKey)
    · split
      · rename_i hbSel
        obtain rfl := hSelected hb hbSel
        exact hUnique a ha (by rw [hf]; exact hKey)
      · exact hApart

instance (m : Model σ ρ) (s : σ) : Decidable (m.Sound s) :=
  decidable_of_iff
    ((∀ r ∈ (m.table s).rows, m.references s r = true) ∧
      (m.table s).rows.Pairwise fun r r' => m.conflicts r r' = false)
    ⟨fun h => ⟨h.1, h.2⟩, fun h => ⟨h.references, h.unique⟩⟩

end Model
