import Rooeel.Project.Runs

/-!
# The rows that grant rights

Permissions and department-role policies are written by `setPermission` and
`setDepartmentRolePolicy` only. Both resolve the aliases of the resource, refuse what is not
configured, and adjust the flags, so that every row is `Proper` (`PolicyInv`), and with the
rows the access map that is computed from them.

Tasks name their resource by a string too, and there the aliases are not resolved. The last
part compares the two readings of a name.
-/

namespace Rooeel

open JavaScript Prog Table

/-! ## Proper rows -/

/-- A view-only resource has no other flag than `canView`; the other flags of a hardcoded
resource come with `canView`. -/
structure Admissible (resource : String) (flags : Flags) : Prop where
  viewOnly : resource ∈ hardcodedViewOnlyResources →
    flags.canCreate = false ∧ flags.canEdit = false ∧ flags.canDelete = false
  view : resource ∈ hardcodedTaskResources → resource ∉ hardcodedViewOnlyResources →
    flags.canCreate = true ∨ flags.canEdit = true ∨ flags.canDelete = true → flags.canView = true

/-- A row about a configured resource, with admissible flags. -/
structure Proper (resource : String) (flags : Flags) : Prop where
  allowed : resource ∈ allowedPolicyResources
  admissible : Admissible resource flags

/-- All rows are proper, and a department role has one policy for a resource. -/
structure PolicyInv (s : Store) : Prop where
  permission : ∀ p ∈ s.permission.rows, Proper p.resource p.flags
  policy : ∀ p ∈ s.departmentRolePolicy.rows, Proper p.resource p.flags
  unique : s.departmentRolePolicy.rows.Pairwise fun a b =>
    prisma.departmentRolePolicy.conflicts a b = false

theorem admissible_empty (resource : String) : Admissible resource {} where
  viewOnly := fun _ => ⟨rfl, rfl, rfl⟩
  view := fun _ _ h => by simp at h

theorem admissible_view (resource : String) : Admissible resource { canView := true } where
  viewOnly := fun _ => ⟨rfl, rfl, rfl⟩
  view := fun _ _ _ => rfl

theorem Admissible.merge {resource : String} {a b : Flags} (ha : Admissible resource a)
    (hb : Admissible resource b) : Admissible resource (a.merge b) where
  viewOnly := by
    intro hViewOnly
    obtain ⟨haCreate, haEdit, haDelete⟩ := ha.viewOnly hViewOnly
    obtain ⟨hbCreate, hbEdit, hbDelete⟩ := hb.viewOnly hViewOnly
    simp [Flags.merge, haCreate, haEdit, haDelete, hbCreate, hbEdit, hbDelete]
  view := by
    intro hTask hNot hSome
    have haView := ha.view hTask hNot
    have hbView := hb.view hTask hNot
    simp only [Flags.merge, Bool.or_eq_true] at hSome ⊢
    tauto

theorem mergeAll_admissible {resource : String} {rows : List Flags}
    (h : ∀ flags ∈ rows, Admissible resource flags) :
    ∀ flags, mergeAll rows = some flags → Admissible resource flags := by
  induction rows using List.reverseRecOn with
  | nil =>
      intro flags hMerged
      cases hMerged
  | append_singleton rest last ih =>
      intro flags hMerged
      rw [mergeAll_append_singleton] at hMerged
      obtain rfl := Option.some.inj hMerged
      have hRest : Admissible resource ((mergeAll rest).getD {}) := by
        cases hEarlier : mergeAll rest with
        | none => exact admissible_empty resource
        | some merged => exact ih (fun f hf => h f (List.mem_append_left _ hf)) merged hEarlier
      exact hRest.merge (h last (by simp))

section Rows

variable [Runtime]

/-- What the two writers store. -/
theorem proper_buildPolicyFlags {resource : String} (h : resource ∈ allowedPolicyResources)
    (flags : Flags) : Proper resource (buildPolicyFlags resource flags) where
  allowed := h
  admissible := by
    have hName := normalizeResource_of_canonical (allowedPolicyResources_canonical resource h)
    unfold buildPolicyFlags isHardcodedViewOnlyResource isHardcodedTaskResource
    rw [hName]
    split
    · rename_i hViewOnly
      refine ⟨fun _ => ⟨rfl, rfl, rfl⟩, fun _ hNot => ?_⟩
      exact absurd (List.contains_iff_mem.mp hViewOnly) hNot
    · rename_i hNotViewOnly
      have hNot : resource ∉ hardcodedViewOnlyResources :=
        fun hMem => hNotViewOnly (List.contains_iff_mem.mpr hMem)
      split
      · refine ⟨fun hMem => absurd hMem hNot, fun _ _ hSome => ?_⟩
        simp only [Bool.or_eq_true]
        tauto
      · rename_i hNotTask
        refine ⟨fun hMem => absurd hMem hNot, fun hTask => ?_⟩
        exact absurd (List.contains_iff_mem.mpr hTask) hNotTask

/-! ## The access map of proper rows -/

/-- The flags that decide a resource belong to rows about it. -/
theorem decisiveRows_admissible {permissions : List Permission}
    {policies : List DepartmentRolePolicy} {key : String}
    (hPermissions : ∀ p ∈ permissions, Proper p.resource p.flags)
    (hPolicies : ∀ p ∈ policies, Proper p.resource p.flags) :
    ∀ flags ∈ decisiveRows permissions policies key, Admissible key flags := by
  have hFlagsFor {ρ : Type} {resource : ρ → String} {flags : ρ → Flags} {rows : List ρ}
      (hRows : ∀ r ∈ rows, Proper (resource r) (flags r)) :
      ∀ f ∈ flagsFor resource flags key rows, Admissible key f := by
    intro f hf
    obtain ⟨r, hr, rfl⟩ := List.mem_map.mp hf
    obtain ⟨hMem, hKey⟩ := List.mem_filter.mp hr
    have hProper := hRows r hMem
    have hName := normalizeResource_of_canonical
      (allowedPolicyResources_canonical _ hProper.allowed)
    obtain rfl : resource r = key := hName.symm.trans (by simpa using hKey)
    exact hProper.admissible
  intro flags hFlags
  unfold decisiveRows at hFlags
  split at hFlags
  · rcases Option.or_eq_some_iff.mp (Option.mem_toList.mp hFlags) with hLast | ⟨-, hFirst⟩
    · exact hFlagsFor hPolicies _ (List.mem_of_getLast? hLast)
    · exact hFlagsFor hPermissions _ (List.mem_of_head? hFirst)
  · exact hFlagsFor hPermissions _ hFlags

omit [Runtime] in
theorem hardcodedTaskResources_ne_empty {resource : String}
    (h : resource ∈ hardcodedTaskResources) : resource ≠ "" := by
  rintro rfl
  exact absurd h (by decide)

/-- **What proper rows grant is admissible**, by override, by merging, and by default. -/
theorem accessMapFrom_admissible {permissions : List Permission}
    {policies : List DepartmentRolePolicy}
    (hPermissions : ∀ p ∈ permissions, Proper p.resource p.flags)
    (hPolicies : ∀ p ∈ policies, Proper p.resource p.flags) {resource : String}
    (hTask : resource ∈ hardcodedTaskResources) {flags : Flags}
    (hGet : (accessMapFrom permissions policies).get resource = some flags) :
    Admissible resource flags := by
  rw [get_accessMapFrom _ _ (hardcodedTaskResources_ne_empty hTask)] at hGet
  rcases Option.or_eq_some_iff.mp hGet with hRows | ⟨-, hDefault⟩
  · exact mergeAll_admissible (decisiveRows_admissible hPermissions hPolicies) flags hRows
  · unfold defaultEntry at hDefault
    split_ifs at hDefault
    · obtain rfl := Option.some.inj hDefault
      exact admissible_view resource
    · obtain rfl := Option.some.inj hDefault
      exact admissible_empty resource

/-- A hardcoded resource has an entry. -/
theorem get_hardcoded (permissions : List Permission) (policies : List DepartmentRolePolicy)
    {resource : String} (hTask : resource ∈ hardcodedTaskResources) :
    ∃ flags, (accessMapFrom permissions policies).get resource = some flags := by
  rw [get_accessMapFrom _ _ (hardcodedTaskResources_ne_empty hTask)]
  cases mergeAll (decisiveRows permissions policies resource) with
  | some flags => exact ⟨flags, rfl⟩
  | none =>
      unfold defaultEntry
      split_ifs
      · exact ⟨_, rfl⟩
      · exact ⟨_, rfl⟩

omit [Runtime] in
theorem Membership.permissions_proper {s : Store} (h : PolicyInv s) (projectUser : Membership) :
    ∀ p ∈ projectUser.permissions s, Proper p.resource p.flags := by
  intro p hp
  unfold Membership.permissions at hp
  split at hp
  · exact h.permission p (List.mem_of_mem_filter hp)
  · cases hp

omit [Runtime] in
theorem Membership.policies_proper {s : Store} (h : PolicyInv s) (projectUser : Membership) :
    ∀ p ∈ projectUser.policies s, Proper p.resource p.flags := by
  intro p hp
  unfold Membership.policies at hp
  split at hp
  · exact h.policy p (List.mem_of_mem_filter hp)
  · cases hp

theorem PolicyInv.accessMap_admissible {s : Store} (h : PolicyInv s) (projectUser : Membership)
    {resource : String} (hTask : resource ∈ hardcodedTaskResources) {flags : Flags}
    (hGet : (projectUser.accessMap s).get resource = some flags) : Admissible resource flags :=
  accessMapFrom_admissible (projectUser.permissions_proper h) (projectUser.policies_proper h) hTask
    hGet

end Rows

/-! ## One statement -/

namespace PolicyInv

variable {s s' : Store}

theorem insertPermission (h : PolicyInv s) (mk : Id → Permission) (hmk)
    (hProper : ∀ k, Proper (mk k).resource (mk k).flags) :
    PolicyInv { s with permission := s.permission.insert mk hmk } :=
  { h with permission := forall_insert mk hmk h.permission (hProper _) }

theorem setPermissionFlags (h : PolicyInv s) (p : Permission → Bool) (flags : Flags)
    (hProper : ∀ r ∈ s.permission.rows, p r = true → Proper r.resource flags) :
    PolicyInv { s with
      permission := s.permission.modify p (fun r => { r with flags := flags }) fun _ => rfl } :=
  { h with
    permission := forall_modify p (fun r => { r with flags := flags }) (fun _ => rfl)
      h.permission hProper }

theorem insertPolicy (h : PolicyInv s) (mk : Id → DepartmentRolePolicy) (hmk)
    (hProper : ∀ k, Proper (mk k).resource (mk k).flags)
    (hNew : ∀ r ∈ s.departmentRolePolicy.rows, ∀ k,
      prisma.departmentRolePolicy.conflicts r (mk k) = false) :
    PolicyInv { s with departmentRolePolicy := s.departmentRolePolicy.insert mk hmk } where
  permission := h.permission
  policy := forall_insert mk hmk h.policy (hProper _)
  unique := by
    refine List.pairwise_append.mpr ⟨h.unique, List.pairwise_singleton _ _, ?_⟩
    intro r hr new hMem
    rw [List.mem_singleton.mp hMem]
    exact hNew r hr _

theorem setPolicyFlags (h : PolicyInv s) (p : DepartmentRolePolicy → Bool) (flags : Flags)
    (hProper : ∀ r ∈ s.departmentRolePolicy.rows, p r = true → Proper r.resource flags) :
    PolicyInv { s with
      departmentRolePolicy :=
        s.departmentRolePolicy.modify p (fun r => { r with flags := flags }) fun _ => rfl } where
  permission := h.permission
  policy := forall_modify p (fun r => { r with flags := flags }) (fun _ => rfl) h.policy hProper
  unique := by
    refine List.pairwise_map.mpr (h.unique.imp fun {a b} hab => ?_)
    split <;> split <;> exact hab

/-- Rows may go. -/
theorem of_sublist (h : PolicyInv s)
    (hPermission : s'.permission.rows.Sublist s.permission.rows)
    (hPolicy : s'.departmentRolePolicy.rows.Sublist s.departmentRolePolicy.rows) :
    PolicyInv s' where
  permission := fun p hp => h.permission p (hPermission.subset hp)
  policy := fun p hp => h.policy p (hPolicy.subset hp)
  unique := h.unique.sublist hPolicy

/-- A department role has one policy for a resource. -/
theorem eq_of_key (h : PolicyInv s) {a b : DepartmentRolePolicy}
    (ha : a ∈ s.departmentRolePolicy.rows) (hb : b ∈ s.departmentRolePolicy.rows)
    (hRole : a.departmentRoleId = b.departmentRoleId) (hResource : a.resource = b.resource) :
    a = b := by
  by_contra hNe
  have hSymmetric : Std.Symm fun x y => prisma.departmentRolePolicy.conflicts x y = false := by
    refine ⟨fun x y hxy => ?_⟩
    rw [← hxy]
    simp only [prisma.departmentRolePolicy]
    rw [Bool.beq_comm, Bool.beq_comm (a := y.resource)]
  have hApart := h.unique.forall ha hb hNe
  simp [prisma.departmentRolePolicy, hRole, hResource] at hApart

end PolicyInv

/-! ## The four mutations -/

/-- A call of one of the four mutations on permissions and policies. -/
inductive PolicyCall where
  | setPermission (roleId : Id) (resource : String) (departmentId : Option Id) (flags : Flags)
  | setDepartmentRolePolicy (roleId : Id) (resource : String) (flags : Flags)
  | removePermission (id : Id)
  | removeDepartmentRolePolicy (id : Id)

/-- What a step may do to the two tables: a permission stays about its resource, and proper
rows stay proper. -/
structure PolicyMove (s s' : Store) : Prop where
  keeps : Keeps Permission.resource s.permission s'.permission
  inv : PolicyInv s → PolicyInv s'

/-- The other operations write neither table; their deletions take rows of both with them. -/
def OnlyRemoves (s s' : Store) : Prop :=
  (s'.permission = s.permission ∨ ∃ p, s'.permission = s.permission.erase p) ∧
    (s'.departmentRolePolicy = s.departmentRolePolicy ∨
      ∃ p, s'.departmentRolePolicy = s.departmentRolePolicy.erase p)

namespace PolicyMove

variable {s s' s'' : Store}

theorem refl (s : Store) : PolicyMove s s := ⟨.refl _ _, id⟩

theorem trans (h : PolicyMove s s') (h' : PolicyMove s' s'') : PolicyMove s s'' :=
  ⟨h.keeps.trans h'.keeps, fun hInv => h'.inv (h.inv hInv)⟩

theorem of_onlyRemoves (h : OnlyRemoves s s') : PolicyMove s s' := by
  have hShrinks {ρ : Type} [Row ρ] {t t' : Table ρ} (hTable : t' = t ∨ ∃ p, t' = t.erase p) :
      t'.rows.Sublist t.rows := by
    rcases hTable with rfl | ⟨p, rfl⟩
    · exact List.Sublist.refl _
    · exact List.filter_sublist
  refine ⟨?_, fun hInv => hInv.of_sublist (hShrinks h.1) (hShrinks h.2)⟩
  rcases h.1 with hSame | ⟨p, hErase⟩
  · exact .of_eq hSame
  · rw [hErase]
    exact .erase _ p

/-- A permission gets new flags. -/
theorem setFlags {sel : Permission → Bool} {flags : Flags} {row : Permission}
    (hUpdate : prisma.permission.update sel (fun r => { r with flags := flags }) (fun _ => rfl) s =
      .ok (row, s'))
    (hProper : ∀ r ∈ s.permission.rows, sel r = true → Proper r.resource flags) :
    PolicyMove s s' := by
  obtain ⟨r, hr, hRow, -, -, -, rfl⟩ := Model.update_ok hUpdate
  have hKeeps : Keeps Permission.resource s.permission (s.permission.modify
      (fun x => Row.key x == Row.key r) (fun x => { x with flags := flags }) fun _ => rfl) :=
    .modify _ _ _ _ fun _ => rfl
  refine ⟨hKeeps, fun hInv => hInv.setPermissionFlags _ _ fun x hx hKey => ?_⟩
  obtain rfl : x = r := s.permission.key_inj hx hr (beq_iff_eq.mp hKey)
  exact hProper x hx hRow

/-- A new permission. -/
theorem createPermission {mk : Id → Permission} {hmk : ∀ k, Row.key (mk k) = k} {row : Permission}
    (hCreate : prisma.permission.create mk hmk s = .ok (row, s'))
    (hProper : ∀ k, Proper (mk k).resource (mk k).flags) : PolicyMove s s' := by
  obtain ⟨-, -, rfl⟩ := Model.create_ok hCreate
  exact ⟨.insert s.permission mk hmk, fun hInv => hInv.insertPermission mk hmk hProper⟩

/-- The policy of a department role for a resource, new or with new flags. -/
theorem upsertPolicy {roleId : Id} {resource : String} {flags : Flags} {row : DepartmentRolePolicy}
    (hUpsert : prisma.departmentRolePolicy.upsert
      (fun r => r.departmentRoleId == roleId && r.resource == resource)
      (fun r => { r with flags := flags })
      (fun id => { id, departmentRoleId := roleId, resource, flags })
      (fun _ => rfl) (fun _ => rfl) s = .ok (row, s'))
    (hProper : Proper resource flags) : PolicyMove s s' := by
  rcases Model.upsert_ok hUpsert with hUpdate | ⟨hNone, hCreate⟩
  · obtain ⟨r, hr, hSel, -, -, -, rfl⟩ := Model.update_ok hUpdate
    refine ⟨.refl _ _, fun hInv => hInv.setPolicyFlags _ _ fun x hx hKey => ?_⟩
    obtain rfl : x = r := s.departmentRolePolicy.key_inj hx hr (beq_iff_eq.mp hKey)
    simp only [Bool.and_eq_true, beq_iff_eq] at hSel
    rw [hSel.2]
    exact hProper
  · obtain ⟨-, -, rfl⟩ := Model.create_ok hCreate
    refine ⟨.refl _ _, fun hInv => hInv.insertPolicy _ _ (fun _ => hProper) fun r hr _ => ?_⟩
    exact Bool.eq_false_iff.mpr (List.find?_eq_none.mp hNone r hr)

end PolicyMove

section Calls

variable [Runtime]

def PolicyCall.prog : PolicyCall → Service Answer
  | .setPermission roleId resource departmentId flags =>
      acknowledge (Rooeel.setPermission roleId resource departmentId flags)
  | .setDepartmentRolePolicy roleId resource flags =>
      acknowledge (Rooeel.setDepartmentRolePolicy roleId resource flags)
  | .removePermission id => acknowledge (Rooeel.removePermission id)
  | .removeDepartmentRolePolicy id => acknowledge (Rooeel.removeDepartmentRolePolicy id)

omit [Runtime] in
theorem guarantees_removeById {ρ : Type} [Row ρ] {m : Model Store ρ} {id : Id} {sel : ρ → Bool}
    {rely guar : Store → Store → Prop} (hRefl : ∀ s, guar s s)
    (hErase : ∀ s p, guar s (m.erase p s)) :
    Guarantees rely guar (do
      let _row ← findUniqueOrThrow m id
      let _deleted ← delete m sel
      pure true : Service Bool) := by
  refine guarantees_bind (guarantees_read hRefl _) fun _ => ?_
  refine guarantees_bind ?_ fun _ => guarantees_pure _
  refine guarantees_atomic hRefl fun s a s' hDelete => ?_
  obtain ⟨-, -, rfl⟩ := Model.delete_ok (execute_ok hDelete)
  exact hErase s _

/-- What the calls guarantee depends on the two that create rows, when rows may be removed. -/
theorem PolicyCall.guarantees {rely guar : Store → Store → Prop} (hRefl : ∀ s, guar s s)
    (hRemoves : ∀ s s', OnlyRemoves s s' → guar s s')
    (hPermission : ∀ roleId resource departmentId flags,
      Guarantees rely guar (Rooeel.setPermission roleId resource departmentId flags))
    (hPolicy : ∀ roleId resource flags,
      Guarantees rely guar (Rooeel.setDepartmentRolePolicy roleId resource flags))
    (call : PolicyCall) : Guarantees rely guar call.prog := by
  have hAcknowledge {α : Type} {p : Service α} (h : Guarantees rely guar p) :
      Guarantees rely guar (acknowledge p) := guarantees_bind h fun _ => guarantees_pure _
  cases call with
  | setPermission roleId resource departmentId flags =>
      exact hAcknowledge (hPermission roleId resource departmentId flags)
  | setDepartmentRolePolicy roleId resource flags =>
      exact hAcknowledge (hPolicy roleId resource flags)
  | removePermission id =>
      refine hAcknowledge (guarantees_removeById hRefl fun s p => ?_)
      exact hRemoves _ _ ⟨Or.inr ⟨p, rfl⟩, Or.inl rfl⟩
  | removeDepartmentRolePolicy id =>
      refine hAcknowledge (guarantees_removeById hRefl fun s p => ?_)
      exact hRemoves _ _ ⟨Or.inl rfl, Or.inr ⟨p, rfl⟩⟩

/-- Every step of the program is a `PolicyMove`, among others that are. -/
def MovesPolicies {α : Type} (p : Service α) : Prop := Guarantees PolicyMove PolicyMove p

omit [Runtime] in
theorem movesPolicies_read {α : Type} (f : Store → Except Exn α) : MovesPolicies (Prog.read f) :=
  guarantees_read PolicyMove.refl f

omit [Runtime] in
theorem movesPolicies_execute {α : Type} {f : Store → Except DbError (α × Store)}
    (h : ∀ s a s', f s = .ok (a, s') → PolicyMove s s') : MovesPolicies (execute f) :=
  guarantees_atomic PolicyMove.refl fun s a s' hf => h s a s' (execute_ok hf)

theorem movesPolicies_setDepartmentRolePolicy (roleId : Id) (resource : String) (flags : Flags) :
    MovesPolicies (setDepartmentRolePolicy roleId resource flags) := by
  refine guarantees_bind (movesPolicies_read _) fun _ => ?_
  refine guarantees_bind (guarantees_throwIf _ _) fun _ => ?_
  refine fun s => safe_throwIf_bind fun hAllowed => movesPolicies_execute ?_ s
  intro s row s' hUpsert
  exact .upsertPolicy hUpsert (proper_buildPolicyFlags (not_not.mp hAllowed) flags)

/-- The row that is updated is about the resource that was looked up, also when other calls
have come in between. -/
theorem movesPolicies_setPermission (roleId : Id) (resource : String) (departmentId : Option Id)
    (flags : Flags) : MovesPolicies (setPermission roleId resource departmentId flags) := by
  refine fun s => safe_throwIf_bind fun hAllowed => ?_
  have hProper := proper_buildPolicyFlags (not_not.mp hAllowed) flags
  cases departmentId with
  | none =>
      refine safe_read_bind PolicyMove.refl fun s₁ existing _ hRead => ?_
      obtain rfl := Except.ok.inj hRead
      cases hFind : prisma.permission.findFirst _ s₁ with
      | none =>
          exact movesPolicies_execute (fun _ _ _ hCreate => .createPermission hCreate
            fun _ => hProper) s₁
      | some permission =>
          obtain ⟨hMem, hSel⟩ := Model.findFirst_some hFind
          simp only [Bool.and_eq_true, beq_iff_eq] at hSel
          refine safe_atomic PolicyMove.refl fun s₂ row s₃ hMove hUpdate => ?_
          refine .setFlags (execute_ok hUpdate) fun r hr hId => ?_
          have hSame : r.resource = permission.resource :=
            hMove.keeps.link_eq hMem hr (beq_iff_eq.mp hId)
          rw [hSame, hSel.1.2]
          exact hProper
  | some department =>
      refine movesPolicies_execute (fun s₁ row s₂ hUpsert => ?_) s
      rcases Model.upsert_ok hUpsert with hUpdate | ⟨-, hCreate⟩
      · refine .setFlags hUpdate fun r _ hSel => ?_
        simp only [Bool.and_eq_true, beq_iff_eq] at hSel
        rw [hSel.2]
        exact hProper
      · exact .createPermission hCreate fun _ => hProper

theorem PolicyCall.moves (call : PolicyCall) : MovesPolicies call.prog :=
  call.guarantees PolicyMove.refl (fun _ _ hRemoves => .of_onlyRemoves hRemoves)
    movesPolicies_setPermission movesPolicies_setDepartmentRolePolicy

end Calls

/-! ## All interleavings -/

section Interleavings

variable [Runtime] {ι : Type} [DecidableEq ι]

/-- Calls of the four mutations on a store, none of them started. -/
def policyCalls (s : Store) (calls : ι → PolicyCall) : Pool ι Store Exn Answer :=
  Pool.start s fun i => (calls i).prog

theorem PolicyInv.reach {s : Store} {calls : ι → PolicyCall} {c : Pool ι Store Exn Answer}
    (h : PolicyInv s)
    (hReach : Relation.ReflTransGen (Pool.Step OnlyRemoves) (policyCalls s calls) c) :
    PolicyInv c.state := by
  have hSafe : ∀ i, Safe PolicyMove PolicyMove ((policyCalls s calls).proc i)
      (policyCalls s calls).state :=
    fun i => (calls i).moves s
  refine (Pool.invariant PolicyMove.refl (fun _ _ _ h h' => h.trans h') ?_ ?_ h hSafe hReach).2
  · exact fun s₁ s₂ hInv hMove => ⟨hMove, hMove.inv hInv⟩
  · exact fun s₁ s₂ hInv hRemoves => ⟨.of_onlyRemoves hRemoves,
      (PolicyMove.of_onlyRemoves hRemoves).inv hInv⟩

/-- A store in which no right has been granted yet. -/
structure NoPolicies (s : Store) : Prop where
  permission : s.permission.rows = []
  policy : s.departmentRolePolicy.rows = []

omit [Runtime] in
theorem NoPolicies.inv {s : Store} (h : NoPolicies s) : PolicyInv s where
  permission := by
    rw [h.permission]
    exact List.forall_mem_nil _
  policy := by
    rw [h.policy]
    exact List.forall_mem_nil _
  unique := by
    rw [h.policy]
    exact List.Pairwise.nil

/-- **Policies are well formed, and so is what they grant**, in every state of every
interleaving of the four mutations, with deletions by other operations in between. -/
theorem policies_well_formed {s : Store} (hStart : NoPolicies s) (calls : ι → PolicyCall)
    {c : Pool ι Store Exn Answer}
    (hReach : Relation.ReflTransGen (Pool.Step OnlyRemoves) (policyCalls s calls) c) :
    (∀ p ∈ c.state.permission.rows, Proper p.resource p.flags) ∧
    (∀ p ∈ c.state.departmentRolePolicy.rows, Proper p.resource p.flags) ∧
    ∀ projectUser : Membership, ∃ accessMap : AccessMap,
      (getAccessMapForProjectUser projectUser).run c.state = (.ok accessMap, c.state) ∧
      ∀ resource ∈ hardcodedTaskResources, ∃ flags, accessMap.get resource = some flags ∧
        Admissible resource flags := by
  have hInv := hStart.inv.reach hReach
  refine ⟨hInv.permission, hInv.policy, fun projectUser => ?_⟩
  refine ⟨_, getAccessMapForProjectUser_run projectUser c.state, fun resource hTask => ?_⟩
  obtain ⟨flags, hGet⟩ := get_hardcoded (projectUser.permissions c.state)
    (projectUser.policies c.state) hTask
  exact ⟨flags, hGet, hInv.accessMap_admissible projectUser hTask hGet⟩

end Interleavings

section Site

attribute [local instance] asciiRuntime

/-- The small site before any right is granted. Its member surveys the department. -/
def ungranted : Store :=
  { site with
    permission := .empty
    department := Table.empty.insert (fun id => { id, projectId := 1, name := "Survey" })
      fun _ => rfl
    departmentRole := Table.empty.insert (fun id => { id, departmentId := 1, name := "Surveyor" })
      fun _ => rfl
    projectUser := Table.empty.insert (fun id =>
      { id, projectId := 1, userId := 1, projectRoleId := some 1, departmentId := some 1
        departmentRoleId := some 1 }) fun _ => rfl }

/-- The role gets all rights on tasks; then surveyors are denied the folders of drawings. -/
def grants : List PolicyCall :=
  [.setPermission 1 "task" none ⟨true, true, true, true⟩,
   .setDepartmentRolePolicy 1 "view_folders" {}]

def grantPool : Pool Nat Store Exn Answer :=
  policyCalls ungranted fun i => grants.getD i (.removePermission 0)

theorem noPolicies_ungranted : NoPolicies ungranted := ⟨rfl, rfl⟩

/-- Both rows carry the name of the resource, not the name in the call. -/
theorem policies_well_formed_ungranted :
    ((grantPool.play [0, 0, 1, 1]).state.permission.rows.map Permission.resource,
      (grantPool.play [0, 0, 1, 1]).state.departmentRolePolicy.rows.map
        DepartmentRolePolicy.resource) = (["TASK"], ["DRAWING_VIEW_FOLDERS"]) ∧
      ∀ p ∈ (grantPool.play [0, 0, 1, 1]).state.permission.rows, Proper p.resource p.flags :=
  ⟨by decide +kernel, (policies_well_formed noPolicies_ungranted _
    (Pool.reach_of_exec (Pool.reach_play grantPool [0, 0, 1, 1]))).1⟩

end Site

/-! ## Two readings of a name -/

section Readings

variable [Runtime]

/-- The flag of a resource in the rows of a member whose department role has policies, apart
from the entries that no row is about. -/
def rowFlag (permissions : List Permission) (policies : List DepartmentRolePolicy)
    (resource : String) (action : Action) : Bool :=
  ((flagsFor DepartmentRolePolicy.resource DepartmentRolePolicy.flags resource policies).getLast?.or
    (flagsFor Permission.resource Permission.flags resource permissions).head?).any
    fun flags => flags.get action

/-- The flag of `TASK` that a task falls back to when its resource has no entry. -/
def Membership.taskFlag (projectUser : Membership) (s : Store) (action : Action) : Bool :=
  rowFlag (projectUser.permissions s) (projectUser.policies s) "TASK" action

omit [Runtime] in
theorem task_ne_hardcoded : "TASK" ∉ hardcodedTaskResources := by decide +kernel

theorem normalizeResource_task : normalizeResource "TASK" = "TASK" :=
  normalizeResource_of_canonical (by decide)

/-- A task that names its resource is read under the name as it stands. -/
theorem resolveTaskResource_named {task : Task} {schema : Record Json} {resource : String}
    (hSchema : parseJsonLike task.formSchema = some (.obj schema))
    (hNamed : schema.get "resource" = some (.str resource))
    (hName : normalizeResource resource ≠ "") :
    resolveTaskResource task.taskLike = some (normalizeResource resource) := by
  have hResource : schemaResource schema = some (normalizeResource resource) := by
    simp only [schemaResource, namedResource, hNamed, coalesce, toText, Option.map_some]
  simp only [resolveTaskResource, Task.taskLike, hSchema, hResource, Option.map_some]
  rw [if_neg hName]

/-- The entry of a resource in the map of a member whose department role has policies. -/
theorem get_accessMapFrom_policies (permissions : List Permission)
    {policies : List DepartmentRolePolicy} (hPolicies : policies ≠ []) {key : String}
    (hKey : key ≠ "") :
    (accessMapFrom permissions policies).get key =
      ((flagsFor DepartmentRolePolicy.resource DepartmentRolePolicy.flags key policies).getLast?.or
        (flagsFor Permission.resource Permission.flags key permissions).head?).or
        (if key ∈ hardcodedTaskResources then some {} else none) := by
  rw [get_accessMapFrom _ _ hKey, decisiveRows, if_pos hPolicies, defaultEntry]
  simp only [hPolicies, false_and, and_false, if_false]
  cases (flagsFor DepartmentRolePolicy.resource DepartmentRolePolicy.flags key policies).getLast?.or
      (flagsFor Permission.resource Permission.flags key permissions).head? with
  | none => rfl
  | some flags => rw [Option.toList_some, mergeAll_singleton]

/-- What a member whose department role has policies may do with tasks. -/
theorem canAccess_task {s : Store} {projectUser : Membership}
    (hPolicies : projectUser.policies s ≠ []) (action : Action) :
    canAccess (projectUser.accessMap s) "TASK" action = projectUser.taskFlag s action := by
  rw [canAccess, normalizeResource_task, Membership.accessMap,
    get_accessMapFrom_policies _ hPolicies (by decide), if_neg task_ne_hardcoded, Option.or_none]
  rfl

/-- No proper row is about an alias. -/
theorem flagsFor_alias {ρ : Type} {resource : ρ → String} {flags : ρ → Flags} {rows : List ρ}
    (hRows : ∀ r ∈ rows, Proper (resource r) (flags r)) {key : String}
    (hKey : key ∉ allowedPolicyResources) : flagsFor resource flags key rows = [] := by
  rw [flagsFor, List.map_eq_nil_iff, List.filter_eq_nil_iff]
  intro r hr hName
  have hAllowed := (hRows r hr).allowed
  have hCanonical := normalizeResource_of_canonical (allowedPolicyResources_canonical _ hAllowed)
  rw [decide_eq_true_eq, hCanonical] at hName
  exact hKey (hName ▸ hAllowed)

theorem setDepartmentRolePolicy_outcome (s : Store) (roleId : Id) (resource : String)
    (flags : Flags) :
    (setDepartmentRolePolicy roleId resource flags).wp
      (Outcome s fun row s' => 0 < roleId ∧
        normalizePolicyResource resource ∈ allowedPolicyResources ∧
        prisma.departmentRolePolicy.upsert
          (fun r => r.departmentRoleId == roleId && r.resource == normalizePolicyResource resource)
          (fun r => { r with flags := buildPolicyFlags (normalizePolicyResource resource) flags })
          (fun id =>
            { id, departmentRoleId := roleId, resource := normalizePolicyResource resource
              flags := buildPolicyFlags (normalizePolicyResource resource) flags })
          (fun _ => rfl) (fun _ => rfl) s = .ok (row, s')) s := by
  refine outcome_bind (reads_findUniqueOrThrow _ _) fun role hRole => ?_
  obtain ⟨hMem, hKey⟩ := Model.findFirst_some hRole
  have hPos : 0 < roleId := by
    rw [← beq_iff_eq.mp hKey]
    exact Table.key_pos _ hMem
  refine outcome_bind reads_throwIf fun _ _ => ?_
  refine outcome_bind reads_throwIf fun _ hAllowed => ?_
  exact outcome_execute fun row s' hUpsert => ⟨hPos, not_not.mp hAllowed, hUpsert⟩

/-- The row that the call stores, and the rows that it leaves alone. -/
structure Stores (s : Store) (roleId : Id) (resource : String) (flags : Flags)
    (row : DepartmentRolePolicy) (s' : Store) : Prop where
  mem : row ∈ s'.departmentRolePolicy.rows
  role : row.departmentRoleId = roleId
  names : row.resource = resource
  carries : row.flags = flags
  permission : s'.permission = s.permission
  others : ∀ q : DepartmentRolePolicy → Bool, (∀ r, r.resource = resource → q r = false) →
    s'.departmentRolePolicy.rows.filter q = s.departmentRolePolicy.rows.filter q

omit [Runtime] in
theorem stores_upsert {s s' : Store} {roleId : Id} {resource : String} {flags : Flags}
    {row : DepartmentRolePolicy}
    (hUpsert : prisma.departmentRolePolicy.upsert
      (fun r => r.departmentRoleId == roleId && r.resource == resource)
      (fun r => { r with flags := flags })
      (fun id => { id, departmentRoleId := roleId, resource, flags })
      (fun _ => rfl) (fun _ => rfl) s = .ok (row, s')) :
    Stores s roleId resource flags row s' := by
  have hOthers (q : DepartmentRolePolicy → Bool)
      (hq : ∀ r : DepartmentRolePolicy, r.resource = resource → q r = false) :
      s'.departmentRolePolicy.rows.filter q = s.departmentRolePolicy.rows.filter q := by
    refine Model.filter_upsert hUpsert (fun x _ hSel => ?_) fun _ => hq _ rfl
    simp only [Bool.and_eq_true, beq_iff_eq] at hSel
    exact ⟨hq x hSel.2, hq _ hSel.2⟩
  rcases Model.upsert_ok hUpsert with hUpdate | ⟨-, hCreate⟩
  · obtain ⟨r, hr, hSel, -, hRow, -, rfl⟩ := Model.update_ok hUpdate
    simp only [Bool.and_eq_true, beq_iff_eq] at hSel
    have hNew := find_modify_key (fun r : DepartmentRolePolicy => { r with flags := flags })
      (fun _ => rfl) (Table.find_eq_some.mpr ⟨hr, rfl⟩)
    rw [hRow]
    exact ⟨(find_eq_some.mp hNew).1, hSel.1, hSel.2, rfl, rfl, hOthers⟩
  · obtain ⟨rfl, -, rfl⟩ := Model.create_ok hCreate
    exact ⟨List.mem_append_right _ (List.mem_singleton_self _), rfl, rfl, rfl, rfl, hOthers⟩

/-- The reader finds the flags that were stored last. -/
theorem Stores.flagsFor_last {s s' : Store} {roleId : Id} {resource : String} {flags : Flags}
    {row : DepartmentRolePolicy} (h : Stores s roleId resource flags row s') (hInv : PolicyInv s')
    (hPos : 0 < roleId) {projectUser : Membership}
    (hRole : projectUser.departmentRoleId = some roleId) :
    (flagsFor DepartmentRolePolicy.resource DepartmentRolePolicy.flags resource
      (projectUser.policies s')).getLast? = some flags := by
  have hPolicies : projectUser.policies s' = s'.departmentRolePolicy.rows.filter
      fun r => some r.departmentRoleId == projectUser.departmentRoleId := by
    rw [Membership.policies, if_pos (by rw [hRole]; exact isSet_of_pos hPos)]
  have hCanonical (r : DepartmentRolePolicy) (hr : r ∈ s'.departmentRolePolicy.rows) :
      normalizeResource r.resource = r.resource :=
    normalizeResource_of_canonical (allowedPolicyResources_canonical _ (hInv.policy r hr).allowed)
  have hOnly : ∀ f ∈ flagsFor DepartmentRolePolicy.resource DepartmentRolePolicy.flags resource
      (projectUser.policies s'), f = flags := by
    intro f hf
    obtain ⟨r, hr, rfl⟩ := List.mem_map.mp hf
    obtain ⟨hPolicy, hName⟩ := List.mem_filter.mp hr
    rw [hPolicies] at hPolicy
    obtain ⟨hMem, hHolds⟩ := List.mem_filter.mp hPolicy
    rw [hRole, beq_iff_eq, Option.some.injEq] at hHolds
    rw [decide_eq_true_eq, hCanonical r hMem] at hName
    rw [hInv.eq_of_key hMem h.mem (hHolds.trans h.role.symm) (hName.trans h.names.symm), h.carries]
  have hThere : flags ∈ flagsFor DepartmentRolePolicy.resource DepartmentRolePolicy.flags resource
      (projectUser.policies s') := by
    refine List.mem_map.mpr ⟨row, List.mem_filter.mpr ⟨?_, ?_⟩, h.carries⟩
    · rw [hPolicies]
      exact List.mem_filter.mpr ⟨h.mem, by rw [hRole, h.role, beq_self_eq_true]⟩
    · rw [decide_eq_true_eq, hCanonical row h.mem, h.names]
  cases hLast : (flagsFor DepartmentRolePolicy.resource DepartmentRolePolicy.flags resource
      (projectUser.policies s')).getLast? with
  | none => rw [List.getLast?_eq_none_iff.mp hLast] at hThere; cases hThere
  | some f => rw [hOnly f (List.mem_of_getLast? hLast)]

/-- The rows about another resource are what they were. -/
theorem Stores.taskFlag {s s' : Store} {roleId : Id} {resource : String} {flags : Flags}
    {row : DepartmentRolePolicy} (h : Stores s roleId resource flags row s')
    (hResource : normalizeResource resource ≠ "TASK") (projectUser : Membership)
    (action : Action) : projectUser.taskFlag s' action = projectUser.taskFlag s action := by
  have hPermissions : projectUser.permissions s' = projectUser.permissions s := by
    simp only [Membership.permissions, h.permission]
  have hPolicies : flagsFor DepartmentRolePolicy.resource DepartmentRolePolicy.flags "TASK"
      (projectUser.policies s') = flagsFor DepartmentRolePolicy.resource
        DepartmentRolePolicy.flags "TASK" (projectUser.policies s) := by
    simp only [flagsFor, Membership.policies]
    split
    · rw [List.filter_filter, List.filter_filter, h.others]
      intro r hName
      rw [hName, Bool.and_eq_false_iff]
      exact Or.inl (decide_eq_false hResource)
    · rfl
  rw [Membership.taskFlag, Membership.taskFlag, rowFlag, rowFlag, hPermissions, hPolicies]

/-- What a member with the role may do with a task that names the resource. -/
theorem Stores.canPerform {s s' : Store} {roleId : Id} {resource name : String} {flags : Flags}
    {row : DepartmentRolePolicy} (h : Stores s roleId name flags row s') (hInv : PolicyInv s')
    (hPos : 0 < roleId) (hName : normalizePolicyResource resource = name)
    (hTask : name ∈ hardcodedTaskResources) {projectUser : Membership}
    (hRole : projectUser.departmentRoleId = some roleId) {task : Task} {schema : Record Json}
    (hSchema : parseJsonLike task.formSchema = some (.obj schema))
    (hNamed : schema.get "resource" = some (.str resource)) (action : Action) :
    mayPerform (projectUser.accessMap s') task.taskLike action =
      some (if normalizeResource resource = name then flags.get action
        else projectUser.taskFlag s action) := by
  have hLast := h.flagsFor_last hInv hPos hRole
  have hPolicies : projectUser.policies s' ≠ [] := by
    intro hNone
    rw [hNone] at hLast
    cases hLast
  have hNameCanonical := hardcodedTaskResources_canonical hTask
  split_ifs with hSame
  · have hEmpty : name ≠ "" := hardcodedTaskResources_ne_empty hTask
    have hOther : name ≠ "TASK" := fun hEq => task_ne_hardcoded (hEq ▸ hTask)
    rw [mayPerform, resolveTaskResource_named hSchema hNamed (hSame ▸ hEmpty), Option.map_some,
      hSame, canPerform_canonical _ hNameCanonical hEmpty hOther, Membership.accessMap,
      get_accessMapFrom_policies _ hPolicies hEmpty, hLast]
    rfl
  · have hAlias : IsAlias (normalizeResource resource) := by
      rcases normalizePolicyResource_cases resource with hEq | hAlias
      · exact absurd (hEq.symm.trans hName) hSame
      · exact hAlias
    have hOther : normalizeResource resource ≠ "TASK" :=
      fun hEq => hAlias.notAllowed (hEq ▸ by decide +kernel)
    have hNoRow : (projectUser.accessMap s').get (normalizeResource resource) = none := by
      rw [Membership.accessMap, get_accessMapFrom_policies _ hPolicies hAlias.nonempty,
        flagsFor_alias (projectUser.policies_proper hInv) hAlias.notAllowed,
        flagsFor_alias (projectUser.permissions_proper hInv) hAlias.notAllowed,
        if_neg fun hMem => hAlias.notAllowed (List.mem_append_right _ hMem)]
      rfl
    have hTaskName : normalizeResource name ≠ "TASK" := by
      rw [normalizeResource_of_canonical hNameCanonical]
      exact fun hEq => task_ne_hardcoded (hEq ▸ hTask)
    rw [mayPerform, resolveTaskResource_named hSchema hNamed hAlias.nonempty, Option.map_some,
      canPerform_canonical _ hAlias.canonical hAlias.nonempty hOther, hNoRow,
      ← h.taskFlag hTaskName projectUser action]
    exact congrArg some (canAccess_task hPolicies action)

/-- **When the writer and the reader agree on a name.** A task that names its resource by the
string that was passed to `setDepartmentRolePolicy` is subject to the policy just stored if
and only if the string is not an alias, or the tasks of the member have the same flag. -/
theorem policy_names_agree {ι : Type} [DecidableEq ι] {s : Store} (hStart : NoPolicies s)
    (calls : ι → PolicyCall) {c : Pool ι Store Exn Answer}
    (hReach : Relation.ReflTransGen (Pool.Step OnlyRemoves) (policyCalls s calls) c)
    {roleId : Id} {resource : String} {flags : Flags} {row : DepartmentRolePolicy} {s' : Store}
    (hCall : (setDepartmentRolePolicy roleId resource flags).run c.state = (.ok row, s'))
    (hTask : normalizePolicyResource resource ∈ hardcodedTaskResources)
    {projectUser : Membership} (hRole : projectUser.departmentRoleId = some roleId)
    {accessMap : AccessMap}
    (hMap : (getAccessMapForProjectUser projectUser).run s' = (.ok accessMap, s'))
    {task : Task} {schema : Record Json}
    (hSchema : parseJsonLike task.formSchema = some (.obj schema))
    (hNamed : schema.get "resource" = some (.str resource)) (action : Action) :
    mayPerform accessMap task.taskLike action = some (row.flags.get action) ↔
      normalizeResource resource = normalizePolicyResource resource ∨
        (buildPolicyFlags (normalizePolicyResource resource) flags).get action =
          projectUser.taskFlag c.state action := by
  obtain ⟨hPos, hAllowed, hUpsert⟩ := (Prog.wp_of_run hCall).mp
    (setDepartmentRolePolicy_outcome c.state roleId resource flags)
  have hStores := stores_upsert hUpsert
  have hProper := proper_buildPolicyFlags hAllowed flags
  have hInv := (PolicyMove.upsertPolicy hUpsert hProper).inv (hStart.inv.reach hReach)
  have hMapEq : projectUser.accessMap s' = accessMap := by
    rw [getAccessMapForProjectUser_run] at hMap
    exact Except.ok.inj (Prod.mk.inj hMap).1
  rw [← hMapEq, hStores.canPerform hInv hPos rfl hTask hRole hSchema hNamed, hStores.carries,
    Option.some.injEq]
  split_ifs with hSame
  · exact iff_of_true rfl (Or.inl hSame)
  · rw [or_iff_right hSame]
    exact eq_comm

end Readings

section Site

attribute [local instance] asciiRuntime

/-- The member of `ungranted`. -/
def surveyor : Membership := ⟨some 1, some 1, some 1⟩

/-- A task about the resource that `resource` names. -/
def taskAbout (resource : String) : Task :=
  ⟨1, 1, none, "Sheets", none, "pending", "basic", some (.obj [("resource", .str resource)]), none,
    none⟩

/-- The store after the first of the two `grants`. -/
def granted : Store := (grantPool.play [0, 0]).state

/-- A denial under the name of the resource is honoured. -/
theorem policy_names_agree_granted :
    ∃ row s', (setDepartmentRolePolicy 1 "drawing_view_folders" {}).run granted = (.ok row, s') ∧
      mayPerform (surveyor.accessMap s') (taskAbout "drawing_view_folders").taskLike .view =
        some (row.flags.get .view) := by
  refine ⟨_, _, rfl, ?_⟩
  exact (policy_names_agree noPolicies_ungranted _
    (Pool.reach_of_exec (Pool.reach_play grantPool [0, 0])) rfl (by decide +kernel) rfl
    (getAccessMapForProjectUser_run surveyor _) rfl rfl .view).mpr (Or.inl (by decide +kernel))

/-- The store after both. -/
def denied : Store := ((setDepartmentRolePolicy 1 "view_folders" {}).run granted).2

/-- Under an alias the denial is stored, but the task is as visible as tasks are. -/
theorem policy_alias_ignored :
    ∃ row, (setDepartmentRolePolicy 1 "view_folders" {}).run granted = (.ok row, denied) ∧
      normalizePolicyResource "view_folders" ∈ hardcodedTaskResources ∧
      (∃ projectUser ∈ denied.projectUser.rows, projectUser.membership = surveyor) ∧
      row.flags.get .view = false ∧
      mayPerform (surveyor.accessMap denied) (taskAbout "view_folders").taskLike .view =
        some true := by
  have hName : normalizePolicyResource "view_folders" ∈ hardcodedTaskResources := by
    decide +kernel
  refine ⟨_, rfl, hName, ⟨_, List.mem_cons_self, rfl⟩, by decide +kernel, ?_⟩
  obtain ⟨hPos, hAllowed, hUpsert⟩ := (Prog.wp_of_run rfl).mp
    (setDepartmentRolePolicy_outcome granted 1 "view_folders" {})
  have hInv : PolicyInv granted := noPolicies_ungranted.inv.reach
    (Pool.reach_of_exec (Pool.reach_play grantPool [0, 0]))
  have hProper := proper_buildPolicyFlags hAllowed {}
  have hAlias : normalizeResource "view_folders" ≠ normalizePolicyResource "view_folders" := by
    decide +kernel
  have hReads : mayPerform (surveyor.accessMap denied) (taskAbout "view_folders").taskLike .view =
      some _ :=
    (stores_upsert hUpsert).canPerform ((PolicyMove.upsertPolicy hUpsert hProper).inv hInv) hPos
      rfl hName rfl rfl rfl .view
  rw [hReads, if_neg hAlias]
  decide +kernel

end Site

end Rooeel
