import Rooeel.Store.Entities
import Rooeel.Lib.Deletion

/-!
# Referential actions

`Store.referential` lists what the schema says about deleted rows: the rows behind a `Cascade`
relation are deleted with them (`Entity.owners`), and the columns of a `SetNull` relation are
cleared (`Entity.nullable`, `Entity.clear`). `Erases e p s s'` is the deletion of the rows of one
model with these actions. The last part has the steps that deletions are made of.
-/

namespace Rooeel

open Schema

namespace Entity

/-! ## Referential actions -/

/-- The columns with `onDelete: SetNull`. -/
def nullable : ∀ e : Entity, e.Of → List (Entity × Id)
  | .user, r => optional .admin r.createdBy
  | .projectUser, r => optional .projectRole r.projectRoleId ++
      optional .department r.departmentId ++ optional .departmentRole r.departmentRoleId
  | .task, r => optional .department r.departmentId ++ optional .user r.assignedTo
  | .subTask, r => optional .user r.assignedTo
  | _, _ => []

/-- The tables that the columns with `onDelete: Cascade` refer to. -/
def ownerTables : Entity → List Entity
  | .userRequest => [.user, .admin]
  | .project => [.admin]
  | .workOrderPdf => [.project, .admin]
  | .projectField | .department | .projectRole | .task => [.project]
  | .projectFieldValue => [.projectField, .project]
  | .departmentRole => [.department]
  | .departmentRolePolicy => [.departmentRole]
  | .permission => [.projectRole, .department]
  | .projectUser => [.project, .user]
  | .subTask => [.task]
  | .admin | .user | .passwordResetToken | .refreshToken => []

/-- The tables that the columns with `onDelete: SetNull` refer to. -/
def nullableTables : Entity → List Entity
  | .user => [.admin]
  | .projectUser => [.projectRole, .department, .departmentRole]
  | .task => [.department, .user]
  | .subTask => [.user]
  | _ => []

theorem mem_ownerTables {e e' : Entity} {r : e'.Of} {k : Id} (h : (e, k) ∈ owners e' r) :
    e ∈ ownerTables e' := by
  revert h
  cases e' <;> simp [owners, refs, ownerTables, mem_optional] <;> grind

theorem mem_nullableTables {e e' : Entity} {r : e'.Of} {k : Id} (h : (e, k) ∈ nullable e' r) :
    e ∈ nullableTables e' := by
  revert h
  cases e' <;> simp [nullable, nullableTables, mem_optional] <;> grind

open Classical in
/-- A nullable column without the keys in `gone`. -/
noncomputable def dropRef (gone : Id → Prop) (ref : Option Id) : Option Id :=
  ref.filter fun k => ¬ gone k

/-- The row without its nullable references to the keys in `gone`. -/
noncomputable def clear (gone : Entity → Id → Prop) : ∀ e : Entity, e.Of → e.Of
  | .user, r => { r with createdBy := dropRef (gone .admin) r.createdBy }
  | .projectUser, r =>
      { r with
        projectRoleId := dropRef (gone .projectRole) r.projectRoleId
        departmentId := dropRef (gone .department) r.departmentId
        departmentRoleId := dropRef (gone .departmentRole) r.departmentRoleId }
  | .task, r =>
      { r with
        departmentId := dropRef (gone .department) r.departmentId
        assignedTo := dropRef (gone .user) r.assignedTo }
  | .subTask, r => { r with assignedTo := dropRef (gone .user) r.assignedTo }
  | .admin, r => r
  | .passwordResetToken, r => r
  | .refreshToken, r => r
  | .userRequest, r => r
  | .project, r => r
  | .workOrderPdf, r => r
  | .projectField, r => r
  | .projectFieldValue, r => r
  | .department, r => r
  | .departmentRole, r => r
  | .departmentRolePolicy, r => r
  | .projectRole, r => r
  | .permission, r => r

section DropRef

variable {gone gone' : Id → Prop} {ref : Option Id} {k : Id}

open Classical in
theorem dropRef_some : dropRef gone ref = some k ↔ ref = some k ∧ ¬ gone k := by
  rw [dropRef, Option.filter_eq_some_iff]
  exact and_congr_right fun _ => decide_eq_true_iff

theorem dropRef_dropRef :
    dropRef gone' (dropRef gone ref) = dropRef (fun k => gone k ∨ gone' k) ref := by
  refine Option.ext fun k => ?_
  rw [dropRef_some, dropRef_some, dropRef_some, and_assoc, not_or]

theorem dropRef_eq_self (h : ∀ k, ref = some k → ¬ gone k) : dropRef gone ref = ref := by
  refine Option.ext fun k => ?_
  rw [dropRef_some]
  exact and_iff_left_of_imp (h k)

theorem staysOrClears_dropRef : StaysOrClears ref (dropRef gone ref) := by
  cases hClear : dropRef gone ref with
  | none => exact Or.inr rfl
  | some k => exact Or.inl (dropRef_some.mp hClear).1.symm

@[simp] theorem dropRef_mem {keys : List Id} :
    dropRef (fun k => k ∈ keys) ref = clearRef keys ref := by
  refine Option.ext fun k => ?_
  rw [dropRef_some, clearRef, Option.filter_eq_some_iff]
  simp

@[simp] theorem dropRef_false : dropRef (fun _ => False) ref = ref := dropRef_eq_self fun _ _ => id

theorem mem_optional_dropRef {e e' : Entity} :
    (e', k) ∈ optional e (dropRef gone ref) ↔ (e', k) ∈ optional e ref ∧ ¬ gone k := by
  rw [mem_optional, mem_optional, dropRef_some, and_assoc]

end DropRef

theorem mem_refs {e : Entity} {r : e.Of} {ref : Entity × Id} :
    ref ∈ e.refs r ↔ ref ∈ e.owners r ∨ ref ∈ e.nullable r := by
  cases e <;> simp [refs, owners, nullable, or_assoc]

theorem mem_nullable_clear {gone : Entity → Id → Prop} {e : Entity} {r : e.Of}
    {ref : Entity × Id} :
    ref ∈ e.nullable (e.clear gone r) ↔ ref ∈ e.nullable r ∧ ¬ gone ref.1 ref.2 := by
  obtain ⟨e', k⟩ := ref
  have hColumn (column : Entity) (x : Option Id) :
      (e', k) ∈ optional column (dropRef (gone column) x) ↔
        (e', k) ∈ optional column x ∧ ¬ gone e' k := by
    rw [mem_optional_dropRef, mem_optional]
    refine and_congr_right fun ⟨hEntity, _⟩ => ?_
    rw [hEntity]
  cases e with
  | user | subTask => exact hColumn _ _
  | task | projectUser => simp only [nullable, clear, List.mem_append, hColumn, or_and_right]
  | _ => simp [nullable]

theorem clear_clear (gone gone' : Entity → Id → Prop) (e : Entity) (r : e.Of) :
    e.clear gone' (e.clear gone r) = e.clear (fun e k => gone e k ∨ gone' e k) r := by
  cases e with
  | user | projectUser | task | subTask => simp only [clear, dropRef_dropRef]
  | _ => rfl

theorem clear_eq_self {gone : Entity → Id → Prop} {e : Entity} {r : e.Of}
    (h : ∀ ref ∈ e.nullable r, ¬ gone ref.1 ref.2) : e.clear gone r = r := by
  have hColumn (column : Entity) (x : Option Id)
      (hSub : optional column x ⊆ e.nullable r) : dropRef (gone column) x = x :=
    dropRef_eq_self fun k hSome => h (column, k) (hSub (mem_optional.mpr ⟨rfl, hSome⟩))
  cases e with
  | user => simp only [clear, hColumn .admin r.createdBy (List.Subset.refl _)]
  | subTask => simp only [clear, hColumn .user r.assignedTo (List.Subset.refl _)]
  | task =>
      simp only [clear, hColumn .department r.departmentId (List.subset_append_left _ _),
        hColumn .user r.assignedTo (List.subset_append_right _ _)]
  | projectUser =>
      have hFirst := List.subset_append_left (optional .projectRole r.projectRoleId ++
        optional .department r.departmentId) (optional .departmentRole r.departmentRoleId)
      simp only [clear,
        hColumn .projectRole r.projectRoleId
          (List.Subset.trans (List.subset_append_left _ _) hFirst),
        hColumn .department r.departmentId
          (List.Subset.trans (List.subset_append_right _ _) hFirst),
        hColumn .departmentRole r.departmentRoleId (List.subset_append_right _ _)]
  | _ => rfl

theorem evolves_clear (gone : Entity → Id → Prop) (e : Entity) (r : e.Of) :
    e.Evolves r (e.clear gone r) := by
  cases e with
  | user => exact staysOrClears_dropRef
  | task => exact ⟨rfl, staysOrClears_dropRef⟩
  | projectUser | subTask => rfl
  | _ => exact evolves_refl _ r

end Entity

/-- The referential actions of the schema. -/
noncomputable def Store.referential : Referential Store.schema where
  cascade := Entity.owners
  nullable := Entity.nullable
  clear gone e r := e.clear gone r
  mem_refs := Entity.mem_refs
  key_clear gone e r := by cases e <;> rfl
  cascade_clear gone e r := by cases e <;> rfl
  mem_nullable_clear := Entity.mem_nullable_clear
  clear_clear := Entity.clear_clear
  clear_eq_self := Entity.clear_eq_self
  evolves_clear := Entity.evolves_clear
  conflicts_clear gone e a b := by cases e <;> rfl

theorem Store.referential_clear (gone : Entity → Id → Prop) (e : Entity) (r : e.Of) :
    Store.referential.clear gone e r = e.clear gone r := rfl

/-- Rows without columns that refer to the entity stay as they are. -/
theorem map_clear_other {e e' : Entity} {keys : List Id} (h : e ∉ e'.nullableTables)
    (rows : List (Store.schema.Of e')) :
    rows = rows.map (Store.referential.clear (fun e'' k => e'' = e ∧ k ∈ keys) e') :=
  (map_clear_eq_self (A := Store.referential)
    (fun _ _ hRef => h (Entity.mem_nullableTables hRef)) rows).symm

/-- The rows that were chosen, with the referential actions. -/
abbrev Erases (e : Entity) (p : e.Of → Bool) (s s' : Store) : Prop :=
  Deletes Store.referential (Only (S := Store.schema) e p) s s'

/-- No row of `e'` stands behind a row of `e` with one of the keys. -/
abbrev Unowned (e : Entity) (gone : List Id) (e' : Entity) (s : Store) : Prop :=
  Apart Store.referential e gone e' s

/-! ## Tables that no foreign key points to -/

namespace Entity

def leaves : List Entity :=
  [.passwordResetToken, .refreshToken, .userRequest, .workOrderPdf, .projectFieldValue,
    .departmentRolePolicy, .permission, .projectUser, .subTask]

theorem leaf {e : Entity} (h : e ∈ leaves) (e' : Entity) (r : e'.Of) (k : Id) :
    (e, k) ∉ refs e' r := by
  intro hRef
  simp only [leaves, List.mem_cons, List.not_mem_nil, or_false] at h
  rcases h with rfl | rfl | rfl | rfl | rfl | rfl | rfl | rfl | rfl <;> cases e' <;>
    simp [refs, mem_optional] at hRef

theorem leaf_owners {e : Entity} (h : e ∈ leaves) (e' : Entity) (r : e'.Of) (k : Id) :
    (e, k) ∉ owners e' r :=
  fun hRef => leaf h e' r k (mem_refs.mpr (Or.inl hRef))

theorem leaf_nullable {e : Entity} (h : e ∈ leaves) (e' : Entity) (r : e'.Of) (k : Id) :
    (e, k) ∉ nullable e' r :=
  fun hRef => leaf h e' r k (mem_refs.mpr (Or.inr hRef))

end Entity

theorem erases_leaf {e : Entity} {s : Store} (h : e ∈ Entity.leaves) (p : e.Of → Bool) :
    Erases e p s (Store.schema.put e ((Store.schema.table e s).erase p) s) :=
  deletes_put (fun e' r _ k hRef => absurd hRef (Entity.leaf_owners h e' r k))
    (Entity.leaf_nullable h)

/-- Deleting its rows changes no other row. -/
theorem clear_leaf {e : Entity} {s : Store} (e' : Entity) (h : e' ∈ Entity.leaves)
    {q : e'.Of → Bool} (r : e.Of) :
    e.clear (Lost Store.referential (Only (S := Store.schema) e' q) s) r = r := by
  refine Entity.clear_eq_self fun ref hRef hLost => ?_
  obtain ⟨e'', k⟩ := ref
  obtain rfl : e'' = e' := lost_leaf (A := Store.referential) (Entity.leaf_owners h) hLost
  exact Entity.leaf_nullable h e r k hRef

/-! ## Steps of a deletion -/

section Steps

variable {e e' : Entity} {gone : List Id} {s s₁ s' : Store}

theorem unowned_other (h : e ∉ e'.ownerTables) : Unowned e gone e' s :=
  fun _ _ _ hRef => absurd (Entity.mem_ownerTables hRef) h

/-- The rows behind the keys were deleted. -/
theorem unowned_erase {t : Table e'.Of} (column : e'.Of → Id)
    (hTable : Store.schema.table e' s = t.erase fun r => gone.contains (column r))
    (hColumn : ∀ r k, (e, k) ∈ Entity.owners e' r → k = column r) : Unowned e gone e' s := by
  intro r hr k hRef hGone
  rw [hTable] at hr
  rw [hColumn r k hRef] at hGone
  exact Bool.eq_false_iff.mp (Table.mem_erase.mp hr).2 (List.contains_iff_mem.mpr hGone)

/-- Rows are deleted when nothing stands behind them. -/
theorem erases_put {p : e.Of → Bool} (hNullable : ∀ e' : Entity, e ∉ e'.nullableTables)
    (hUnowned : ∀ e', Unowned e (keysOf (Store.schema.table e s) p) e' s) :
    Erases e p s (Store.schema.put e ((Store.schema.table e s).erase p) s) :=
  deletes_put hUnowned fun e' _ _ hRef => hNullable e' (Entity.mem_nullableTables hRef)

/-- The rows whose column is the key of a chosen row are deleted first. -/
theorem erases_behind (e e' : Entity) {p : e.Of → Bool} (column : e'.Of → Id)
    (hGone : keysOf (Store.schema.table e s) p = gone)
    (h : Erases e' (fun r => gone.contains (column r)) s s₁) (h' : Erases e p s₁ s')
    (hCascade : ∀ r, (e, column r) ∈ Entity.owners e' r)
    (hStays : ∀ r, p (e.clear (Lost Store.referential (Only (S := Store.schema) e'
      fun r => gone.contains (column r)) s) r) = p r) :
    Erases e p s s' := by
  refine h.behind h' (fun r _ => hStays r) fun r' _ hq => ⟨column r', ?_, hCascade r'⟩
  rw [← hGone] at hq
  exact List.contains_iff_mem.mp hq

end Steps

end Rooeel
