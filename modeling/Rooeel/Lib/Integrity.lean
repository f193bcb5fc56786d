import Rooeel.Lib.Interleaving
import Rooeel.Lib.Relational

/-!
# Referential integrity

A `Schema σ ι` is a family of models over one state: a model for every entity of `ι`, and for
every row the keys it refers to. A state is `Valid` when all models are sound.

A `Statement` is one step of a client: it creates, updates or deletes rows, and `writes` says
which entities it may write and which it may delete from. Deleting is a parameter of the models,
with the referential actions of its own; `Cascades` says what is expected of it. Then every
statement keeps validity (`Statement.valid`), leaves the tables outside its footprint alone
(`Statement.frame`) and changes rows only as the schema says (`Statement.evolve`), so that no row
moves to another owner (`Statement.owners`); `Settled` is what can be said of a key for good.
-/

/-! ## Rows that change -/

namespace Table

variable {ρ : Type} [Row ρ] {step step' : ρ → ρ → Prop} {t t' t'' : Table ρ}

/-- Keys are not reused, and every row of `t'` whose key was given out in `t` comes from the row
that had the key. -/
def Evolves (step : ρ → ρ → Prop) (t t' : Table ρ) : Prop :=
  t.next ≤ t'.next ∧
    ∀ r' ∈ t'.rows, Row.key r' < t.next → ∃ r ∈ t.rows, Row.key r = Row.key r' ∧ step r r'

theorem Evolves.of_eq (hRefl : ∀ r, step r r) (h : t' = t) : Evolves step t t' := by
  rw [h]
  exact ⟨Int.le_refl _, fun r hr _ => ⟨r, hr, rfl, hRefl r⟩⟩

theorem Evolves.trans (hTrans : ∀ a b c, step a b → step b c → step a c) (h : Evolves step t t')
    (h' : Evolves step t' t'') : Evolves step t t'' := by
  refine ⟨Int.le_trans h.1 h'.1, fun r'' hr'' hKey => ?_⟩
  obtain ⟨r', hr', hKey', hStep'⟩ := h'.2 r'' hr'' (Int.lt_of_lt_of_le hKey h.1)
  obtain ⟨r, hr, hKey'', hStep⟩ := h.2 r' hr' (by rwa [hKey'])
  exact ⟨r, hr, hKey''.trans hKey', hTrans _ _ _ hStep hStep'⟩

theorem Evolves.mono (h : Evolves step t t') (hStep : ∀ a b, step a b → step' a b) :
    Evolves step' t t' := by
  refine ⟨h.1, fun r' hr' hKey => ?_⟩
  obtain ⟨r, hr, hSame, hOld⟩ := h.2 r' hr' hKey
  exact ⟨r, hr, hSame, hStep _ _ hOld⟩

theorem Evolves.insert (hRefl : ∀ r, step r r) (t : Table ρ) (mk : Int → ρ)
    (hmk : ∀ k, Row.key (mk k) = k) : Evolves step t (t.insert mk hmk) := by
  refine ⟨by rw [next_insert]; omega, fun r hr hKey => ?_⟩
  rcases List.mem_append.mp hr with hr | hr
  · exact ⟨r, hr, rfl, hRefl r⟩
  · rw [List.mem_singleton.mp hr, hmk] at hKey
    omega

theorem Evolves.modify (hRefl : ∀ r, step r r) (t : Table ρ) (p : ρ → Bool) (f : ρ → ρ)
    (hf : ∀ r, Row.key (f r) = Row.key r) (hStep : ∀ r, step r (f r)) :
    Evolves step t (t.modify p f hf) := by
  refine ⟨Int.le_refl _, fun r' hr' _ => ?_⟩
  obtain ⟨r, hr, rfl⟩ := mem_modify.mp hr'
  refine ⟨r, hr, ?_⟩
  split
  · exact ⟨(hf r).symm, hStep r⟩
  · exact ⟨rfl, hRefl r⟩

end Table

/-! ## Schemas -/

structure Schema (σ ι : Type) where
  Of : ι → Type
  [row : ∀ e, Row (Of e)]
  model : ∀ e, Model σ (Of e)
  /-- The entities and keys a row refers to. -/
  refs : ∀ e, Of e → List (ι × Int)
  /-- The references that a row has for life. -/
  owners : ∀ e, Of e → List (ι × Int)
  /-- What may become of a row. -/
  evolves : ∀ e, Of e → Of e → Prop
  references_eq : ∀ e s r, (model e).references s r =
    (refs e r).all fun ref => ((model ref.1).table s).has ref.2
  evolves_refl : ∀ e r, evolves e r r
  evolves_trans : ∀ e a b c, evolves e a b → evolves e b c → evolves e a c
  evolves_owners : ∀ e a b, evolves e a b → owners e a = owners e b
  conflicts_comm : ∀ e a b, (model e).conflicts a b = (model e).conflicts b a
  table_put_of_ne : ∀ {e e'}, e' ≠ e → ∀ t s,
    (model e').table ((model e).put t s) = (model e').table s

namespace Schema

attribute [instance] Schema.row

variable {σ ι : Type} (S : Schema σ ι)

def table (e : ι) (s : σ) : Table (S.Of e) := (S.model e).table s

def put (e : ι) (t : Table (S.Of e)) (s : σ) : σ := (S.model e).put t s

def Valid (s : σ) : Prop := ∀ e, (S.model e).Sound s

variable {S}

theorem table_put_self {e : ι} (t : Table (S.Of e)) (s : σ) : S.table e (S.put e t s) = t :=
  (S.model e).table_put t s

theorem table_put_ne {e e' : ι} (h : e' ≠ e) (t : Table (S.Of e)) (s : σ) :
    S.table e' (S.put e t s) = S.table e' s :=
  S.table_put_of_ne h t s

/-! ## References -/

section References

variable {s s' : σ} {e : ι} {r : S.Of e}

theorem references_iff :
    (S.model e).references s r = true ↔ ∀ ref ∈ S.refs e r, (S.table ref.1 s).has ref.2 = true := by
  rw [S.references_eq, List.all_eq_true]
  rfl

/-- The keys that the row refers to are there, or are not asked for any more. -/
theorem references_mono (h : (S.model e).references s r = true) {r' : S.Of e}
    (hKeys : ∀ ref ∈ S.refs e r', ref ∈ S.refs e r ∧
      ((S.table ref.1 s).has ref.2 = true → (S.table ref.1 s').has ref.2 = true)) :
    (S.model e).references s' r' = true := by
  refine references_iff.mpr fun ref hRef => ?_
  obtain ⟨hOld, hHas⟩ := hKeys ref hRef
  exact hHas (references_iff.mp h ref hOld)

/-- The models are sound in a state with the same tables. -/
theorem valid_congr (hSame : ∀ e, S.table e s' = S.table e s) (h : S.Valid s) : S.Valid s' := by
  intro e
  have hTable : (S.model e).table s' = (S.model e).table s := hSame e
  refine ⟨fun r hr => ?_, ?_⟩
  · rw [hTable] at hr
    refine references_mono ((h e).references r hr) fun ref hRef => ⟨hRef, fun hHas => ?_⟩
    rwa [hSame]
  · rw [hTable]
    exact (h e).unique

end References

/-! ## One table is replaced -/

section Put

variable {s : σ} {e : ι} {t : Table (S.Of e)}

/-- The keys after the replacement are the old ones, when the new table has them. -/
theorem has_put {ref : ι × Int} (hKeys : ref.1 = e → (S.table e s).has ref.2 = true →
      t.has ref.2 = true) (hHas : (S.table ref.1 s).has ref.2 = true) :
    (S.table ref.1 (S.put e t s)).has ref.2 = true := by
  obtain ⟨e', k⟩ := ref
  by_cases hSame : e' = e
  · subst hSame
    rw [table_put_self]
    exact hKeys rfl hHas
  · rwa [table_put_ne hSame]

theorem valid_put (h : S.Valid s)
    (hKeys : ∀ e' r, r ∈ (S.table e' s).rows → e' ≠ e → ∀ k, (e, k) ∈ S.refs e' r →
      (S.table e s).has k = true → t.has k = true)
    (hRefs : ∀ r ∈ t.rows, (S.model e).references (S.put e t s) r = true)
    (hUnique : t.rows.Pairwise fun r r' => (S.model e).conflicts r r' = false) :
    S.Valid (S.put e t s) := by
  intro e'
  by_cases hSame : e' = e
  · subst hSame
    have hTable : (S.model e').table (S.put e' t s) = t := table_put_self t s
    refine ⟨?_, ?_⟩
    · rw [hTable]
      exact hRefs
    · rw [hTable]
      exact hUnique
  · have hTable : (S.model e').table (S.put e t s) = S.table e' s := table_put_ne hSame t s
    refine ⟨fun r hr => ?_, ?_⟩
    · rw [hTable] at hr
      refine references_mono ((h e').references r hr) fun ref hRef => ⟨hRef, has_put ?_⟩
      rintro rfl
      exact hKeys e' r hr hSame ref.2 hRef
    · rw [hTable]
      exact (h e').unique

/-- The key of the row stays in use. -/
theorem has_insert (t : Table (S.Of e)) (mk : Int → S.Of e) (hmk : ∀ k, Row.key (mk k) = k)
    {k : Int} (h : t.has k = true) : (t.insert mk hmk).has k = true := by
  obtain ⟨r, hr, hKey⟩ := Table.has_iff.mp h
  exact Table.has_iff.mpr ⟨r, List.mem_append_left _ hr, hKey⟩

theorem valid_create (h : S.Valid s) {mk : Int → S.Of e} {hmk : ∀ k, Row.key (mk k) = k}
    {r : S.Of e} {s' : σ} (hCreate : (S.model e).create mk hmk s = .ok (r, s')) : S.Valid s' := by
  have hApart := Model.create_unique hCreate
  obtain ⟨rfl, hRef, rfl⟩ := Model.create_ok hCreate
  have hKeys {ref : ι × Int} : (S.table ref.1 s).has ref.2 = true →
      (S.table ref.1 (S.put e ((S.table e s).insert mk hmk) s)).has ref.2 = true :=
    has_put fun _ hHas => has_insert _ mk hmk hHas
  refine valid_put h (fun _ _ _ _ _ _ hHas => has_insert _ mk hmk hHas) ?_ ?_
  · refine Table.forall_insert mk hmk (fun x hx => ?_) ?_
    · exact references_mono ((h e).references x hx) fun ref hx => ⟨hx, hKeys⟩
    · exact references_mono hRef fun ref hx => ⟨hx, hKeys⟩
  · rw [Table.rows_insert, List.pairwise_append]
    refine ⟨(h e).unique, List.pairwise_singleton _ _, fun x hx y hy => ?_⟩
    rw [List.mem_singleton.mp hy]
    exact hApart x hx

theorem valid_update (h : S.Valid s) {sel : S.Of e → Bool} {f : S.Of e → S.Of e}
    {hf : ∀ r, Row.key (f r) = Row.key r} {r : S.Of e} {s' : σ}
    (hUpdate : (S.model e).update sel f hf s = .ok (r, s')) : S.Valid s' := by
  have hRow := Model.update_ok hUpdate
  obtain ⟨r₀, -, -, -, -, -, rfl⟩ := hRow
  have hKeys (ref : ι × Int) : (S.table ref.1 (S.put e ((S.table e s).modify
      (fun x => Row.key x == Row.key r₀) f hf) s)).has ref.2 = (S.table ref.1 s).has ref.2 := by
    obtain ⟨e', k⟩ := ref
    by_cases hSame : e' = e
    · subst hSame
      rw [table_put_self, Table.has_modify]
    · rw [table_put_ne hSame]
  have hSound := (h e).update (S.conflicts_comm e) hUpdate fun x => by
    rw [Bool.eq_iff_iff, references_iff, references_iff]
    exact forall₂_congr fun ref _ => by rw [← hKeys ref]; rfl
  refine valid_put h (fun _ _ _ _ k _ hHas => ?_) ?_ ?_
  · rwa [Table.has_modify]
  · have hRefs := hSound.references
    rwa [(S.model e).table_put] at hRefs
  · have hUnique := hSound.unique
    rwa [(S.model e).table_put] at hUnique

/-- Rows are changed so that they refer to the same rows or to fewer, and the columns of unique
indexes stay. -/
theorem valid_modifyRows (h : S.Valid s) (p : S.Of e → Bool) (f : S.Of e → S.Of e)
    (hf : ∀ r, Row.key (f r) = Row.key r) (hRefs : ∀ r, S.refs e (f r) ⊆ S.refs e r)
    (hConflicts : ∀ a b, (S.model e).conflicts (f a) b = (S.model e).conflicts a b) :
    S.Valid (S.put e ((S.table e s).modify p f hf) s) := by
  have hKeys {ref : ι × Int} : (S.table ref.1 s).has ref.2 = true →
      (S.table ref.1 (S.put e ((S.table e s).modify p f hf) s)).has ref.2 = true :=
    has_put fun _ hHas => by rwa [Table.has_modify]
  refine valid_put h (fun _ _ _ _ _ _ hHas => by rwa [Table.has_modify]) ?_ ?_
  · refine Table.forall_modify p f hf (fun x hx => ?_) fun x hx _ => ?_
    · exact references_mono ((h e).references x hx) fun ref hx => ⟨hx, hKeys⟩
    · exact references_mono ((h e).references x hx) fun ref hx => ⟨hRefs x hx, hKeys⟩
  · have hFirst (a b : S.Of e) :
        (S.model e).conflicts (if p a then f a else a) b = (S.model e).conflicts a b := by
      split
      · exact hConflicts a b
      · rfl
    rw [Table.rows_modify, List.pairwise_map]
    refine (h e).unique.imp fun {a b} hab => ?_
    rw [hFirst, S.conflicts_comm, hFirst, S.conflicts_comm]
    exact hab

end Put

/-! ## States one after the other -/

section Prunes

variable {s s' s'' : σ} {e : ι}

variable (S) in
/-- The rows that are there come from the rows with the same keys, and no key was used again. -/
def Evolve (s s' : σ) : Prop := ∀ e, Table.Evolves (S.evolves e) (S.table e s) (S.table e s')

variable (S) in
/-- The rows that are there have their owners as before, and no key was used again. -/
def KeepsOwners (s s' : σ) : Prop := ∀ e, Table.Keeps (S.owners e) (S.table e s) (S.table e s')

theorem Evolve.of_same (h : ∀ e, S.table e s' = S.table e s) : S.Evolve s s' :=
  fun e => .of_eq (S.evolves_refl e) (h e)

theorem Evolve.refl (s : σ) : S.Evolve s s := .of_same fun _ => rfl

theorem Evolve.trans (h : S.Evolve s s') (h' : S.Evolve s' s'') : S.Evolve s s'' :=
  fun e => (h e).trans (S.evolves_trans e) (h' e)

/-- Rows keep their owners. -/
theorem Evolve.owners (h : S.Evolve s s') : S.KeepsOwners s s' :=
  fun e => (h e).mono (S.evolves_owners e)

theorem KeepsOwners.refl (s : σ) : S.KeepsOwners s s := fun _ => .refl _ _

theorem KeepsOwners.trans (h : S.KeepsOwners s s') (h' : S.KeepsOwners s' s'') :
    S.KeepsOwners s s'' :=
  fun e => (h e).trans (h' e)

variable (S) in
/-- The key was given out, and the row with the key, if it is there, has owners in `A`. -/
def Settled (e : ι) (A : List (ι × Int) → Prop) (k : Int) (s : σ) : Prop :=
  k < (S.table e s).next ∧ ∀ r ∈ (S.table e s).rows, Row.key r = k → A (S.owners e r)

theorem settled_of_mem {A : List (ι × Int) → Prop} {r : S.Of e} (hr : r ∈ (S.table e s).rows)
    (hA : A (S.owners e r)) : S.Settled e A (Row.key r) s := by
  refine ⟨(S.table e s).key_lt hr, fun x hx hKey => ?_⟩
  rwa [(S.table e s).key_inj hx hr hKey]

/-- This does not change any more. -/
theorem Settled.keeps {A : List (ι × Int) → Prop} {k : Int} (h : S.Settled e A k s)
    (hKeeps : S.KeepsOwners s s') : S.Settled e A k s' := by
  refine ⟨Int.lt_of_lt_of_le h.1 (hKeeps e).1, fun r' hr' hKey => ?_⟩
  obtain ⟨r, hr, hKey', hOwners⟩ := (hKeeps e).2 r' hr' (hKey ▸ h.1)
  rw [← hOwners]
  exact h.2 r hr (hKey'.trans hKey)

/-- One table is replaced. -/
theorem evolve_put {t : Table (S.Of e)} (h : Table.Evolves (S.evolves e) (S.table e s) t) :
    S.Evolve s (S.put e t s) := by
  intro e'
  by_cases hSame : e' = e
  · subst hSame
    rwa [table_put_self]
  · exact .of_eq (S.evolves_refl e') (table_put_ne hSame t s)

variable (S) in
/-- What is expected of a deletion. -/
structure Prunes (s s' : σ) : Prop where
  valid : S.Valid s → S.Valid s'
  evolve : S.Evolve s s'

end Prunes

end Schema

/-! ## Statements -/

/-- What a statement may write: rows of an entity, by creating or updating, or by deleting with the
referential actions; or a part of the state that is no table. -/
inductive Write (ι : Type) where
  | put (e : ι)
  | erase (e : ι)
  | outside
  deriving DecidableEq

/-- One statement of a client, or a step without effect. -/
inductive Schema.Statement {σ ι : Type} (S : Schema σ ι) (writes : Write ι → Prop) (s : σ) :
    σ → Prop
  | same : Statement S writes s s
  | create {e : ι} (hWrites : writes (.put e)) {mk hmk r s'}
      (h : (S.model e).create mk hmk s = .ok (r, s')) : Statement S writes s s'
  | update {e : ι} (hWrites : writes (.put e)) {sel f hf r s'}
      (hEvolves : ∀ r, S.evolves e r (f r))
      (h : (S.model e).update sel f hf s = .ok (r, s')) : Statement S writes s s'
  | updateMany {e : ι} (hWrites : writes (.put e)) (p : S.Of e → Bool) (f hf)
      (hRefs : ∀ r, S.refs e (f r) ⊆ S.refs e r) (hEvolves : ∀ r, S.evolves e r (f r))
      (hConflicts : ∀ a b, (S.model e).conflicts (f a) b = (S.model e).conflicts a b) :
      Statement S writes s (S.put e ((S.table e s).modify p f hf) s)
  | delete {e : ι} (hWrites : writes (.erase e)) (p : S.Of e → Bool) :
      Statement S writes s ((S.model e).erase p s)
  | outside (hWrites : writes .outside) {s' : σ} (hSame : ∀ e, S.table e s' = S.table e s) :
      Statement S writes s s'

namespace Schema

variable {σ ι : Type} {S : Schema σ ι} {writes : Write ι → Prop} {s s' : σ}

/-- What is expected of the deletions: they only delete rows and clear references, and deleting
rows of `e` only changes the tables that `reach` names. -/
structure Cascades (S : Schema σ ι) (reach : ι → ι → Prop) : Prop where
  prunes : ∀ e p s, S.Prunes s ((S.model e).erase p s)
  frame : ∀ {e e'}, ¬ reach e e' → ∀ p s, S.table e' ((S.model e).erase p s) = S.table e' s

/-- The statement does not write the table of `e`. -/
def SparesBy (reach : ι → ι → Prop) (e : ι) : Write ι → Prop
  | .put e' => e ≠ e'
  | .erase e' => ¬ reach e' e
  | .outside => True

/-- The statements in `writes` do not write the table of `e`. -/
def Spares (reach : ι → ι → Prop) (writes : Write ι → Prop) (e : ι) : Prop :=
  ∀ w, writes w → SparesBy reach e w

instance [DecidableEq ι] (reach : ι → ι → Prop) [DecidableRel reach] (e : ι) :
    DecidablePred (SparesBy reach e)
  | .put e' => inferInstanceAs (Decidable (e ≠ e'))
  | .erase e' => inferInstanceAs (Decidable (¬ reach e' e))
  | .outside => inferInstanceAs (Decidable True)

instance [DecidableEq ι] (reach : ι → ι → Prop) [DecidableRel reach] (writes : List (Write ι))
    (e : ι) : Decidable (Spares reach (· ∈ writes) e) :=
  inferInstanceAs (Decidable (∀ w ∈ writes, SparesBy reach e w))

theorem Statement.mono {writes' : Write ι → Prop} (h : S.Statement writes s s')
    (hWrites : ∀ w, writes w → writes' w) : S.Statement writes' s s' := by
  cases h with
  | same => exact .same
  | create hw h => exact .create (hWrites _ hw) h
  | update hw hEvolves h => exact .update (hWrites _ hw) hEvolves h
  | updateMany hw p f hf hRefs hEvolves hConflicts =>
      exact .updateMany (hWrites _ hw) p f hf hRefs hEvolves hConflicts
  | delete hw p => exact .delete (hWrites _ hw) p
  | outside hw hSame => exact .outside (hWrites _ hw) hSame

/-- An `upsert` is one of the other statements. -/
theorem Statement.upsert {e : ι} (hWrites : writes (.put e)) {sel f mk hf hmk r}
    (hEvolves : ∀ r, S.evolves e r (f r))
    (h : (S.model e).upsert sel f mk hf hmk s = .ok (r, s')) : S.Statement writes s s' := by
  rcases Model.upsert_ok h with hUpdate | ⟨-, hCreate⟩
  · exact .update hWrites hEvolves hUpdate
  · exact .create hWrites hCreate

/-- **Every statement keeps referential integrity.** -/
theorem Statement.valid {reach : ι → ι → Prop} (hCascades : S.Cascades reach)
    (h : S.Statement writes s s') (hValid : S.Valid s) : S.Valid s' := by
  cases h with
  | same => exact hValid
  | create hw h => exact valid_create hValid h
  | update hw hEvolves h => exact valid_update hValid h
  | updateMany hw p f hf hRefs hEvolves hConflicts =>
      exact valid_modifyRows hValid p f hf hRefs hConflicts
  | delete hw p => exact (hCascades.prunes _ p s).valid hValid
  | outside hw hSame => exact valid_congr hSame hValid

/-- **Rows change only as the schema says**, and no key is used twice. -/
theorem Statement.evolve {reach : ι → ι → Prop} (hCascades : S.Cascades reach)
    (h : S.Statement writes s s') : S.Evolve s s' := by
  cases h with
  | same => exact .refl s
  | @create e hw mk hmk r s' h =>
      obtain ⟨-, -, rfl⟩ := Model.create_ok h
      exact evolve_put (.insert (S.evolves_refl e) _ _ _)
  | @update e hw sel f hf r s' hEvolves h =>
      obtain ⟨-, -, -, -, -, -, rfl⟩ := Model.update_ok h
      exact evolve_put (.modify (S.evolves_refl e) _ _ _ _ hEvolves)
  | @updateMany e hw p f hf hRefs hEvolves hConflicts =>
      exact evolve_put (.modify (S.evolves_refl e) _ p f hf hEvolves)
  | delete hw p => exact (hCascades.prunes _ p s).evolve
  | outside hw hSame => exact .of_same hSame

/-- **No row changes its owners.** -/
theorem Statement.owners {reach : ι → ι → Prop} (hCascades : S.Cascades reach)
    (h : S.Statement writes s s') : S.KeepsOwners s s' :=
  (h.evolve hCascades).owners

/-- **A statement leaves the tables outside its footprint alone.** -/
theorem Statement.frame {reach : ι → ι → Prop} (hCascades : S.Cascades reach)
    (h : S.Statement writes s s') {e : ι} (hSpares : Spares reach writes e) :
    S.table e s' = S.table e s := by
  cases h with
  | same => rfl
  | create hw h =>
      obtain ⟨-, -, rfl⟩ := Model.create_ok h
      exact table_put_ne (hSpares _ hw) _ s
  | update hw hEvolves h =>
      obtain ⟨-, -, -, -, -, -, rfl⟩ := Model.update_ok h
      exact table_put_ne (hSpares _ hw) _ s
  | updateMany hw p f hf hRefs hEvolves hConflicts => exact table_put_ne (hSpares _ hw) _ s
  | delete hw p => exact hCascades.frame (hSpares _ hw) p s
  | outside hw hSame => exact hSame e

end Schema
