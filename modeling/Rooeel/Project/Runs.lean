import Rooeel.Project.Steps

/-!
# What a run of mutations keeps

A mutation that runs alone is a sequence of changes (`ServiceOp.acts`), so a run is `Stable`
from its first store to its last one. Only `createTask` gives out task ids.
-/

namespace Rooeel

open JavaScript Prog

/-! ## Steps of a run -/

theorem sameLinks_accountStep {s s' : Store} (h : AccountStep s s') : SameLinks s s' := by
  rw [h]
  exact ⟨rfl, rfl, rfl, rfl, rfl, rfl, rfl, rfl⟩

theorem stable_of_accountStep {s s' : Store} (h : AccountStep s s') : Stable s s' :=
  (@Change.plain (fun _ => False) _ _ (sameLinks_accountStep h)).stable

theorem Change.task_next {links : Link → Prop} {s s' : Store} (h : Change links s s')
    (hNo : ¬ links .task) : s'.task.next = s.task.next := by
  cases h with
  | plain hSame => rw [hSame.task]
  | insertTask hLinks mk hmk => exact absurd hLinks hNo
  | _ => rfl

/-- The changes of an operation that creates no task give out no task id. -/
theorem Acts.task_next {links : Link → Prop} {s s' : Store} (h : Acts links s s')
    (hNo : ¬ links .task) : s'.task.next = s.task.next := by
  refine @Acts.keeps links s s' (fun s' => s'.task.next = s.task.next) ?_ h rfl
  intro s₁ s₂ hChange hNext
  rw [hChange.task_next hNo, hNext]

theorem Acts.flatten {links : Link → Prop} {s s' : Store}
    (h : Relation.ReflTransGen (Acts links) s s') : Acts links s s' := by
  induction h with
  | refl => exact Acts.refl s
  | tail _ hActs ih => exact ih.trans hActs

/-- An answered call is the call itself and its answer. -/
theorem answering_run {α : Type} {s s' : Store} {f : α → Answer} {p : Service α}
    {result : Except Exn Answer} (h : (answering f p).run s = (result, s')) :
    (∃ a, p.run s = (.ok a, s') ∧ result = .ok (f a)) ∨
      ∃ e, p.run s = (.error e, s') ∧ result = .error e := by
  unfold answering at h
  rw [Prog.run_bind] at h
  generalize p.run s = out at h
  obtain ⟨r, s₁⟩ := out
  cases r with
  | ok a =>
      cases h
      exact Or.inl ⟨a, rfl, rfl⟩
  | error e =>
      cases h
      exact Or.inr ⟨e, rfl, rfl⟩

section Runs

variable [Runtime]

/-- A mutation that runs alone acts by changes. -/
theorem ServiceOp.acts (op : ServiceOp) {s s' : Store} {result : Except Exn Answer}
    (h : op.prog.run s = (result, s')) : Acts op.links s s' := by
  have hRun := safe_run Stable.refl (op.stays s)
  rw [h] at hRun
  exact Acts.flatten hRun

omit [Runtime] in
/-- Only `createTask` creates tasks. -/
theorem ServiceOp.links_task {op : ServiceOp} (h : op.links .task) :
    ∃ projectId data viewer, op = .createTask projectId data viewer := by
  cases op with
  | createTask projectId data viewer => exact ⟨projectId, data, viewer, rfl⟩
  | setFieldValue | setUserRole | setPermission => cases h
  | _ => exact False.elim h

theorem Run.stable {s₀ s : Store} {events : List Event} (h : Run s₀ events s) : Stable s₀ s := by
  induction h with
  | nil => exact Stable.refl s₀
  | call op _ hRun ih => exact ih.trans (op.acts hRun).stable
  | account _ hAccount ih => exact ih.trans (stable_of_accountStep hAccount)

/-- The store in which a mutation of a run was called. -/
theorem Run.split {s₀ s : Store} {events before after : List Event} {e : Event}
    (h : Run s₀ events s) (hEvents : events = before ++ e :: after) :
    ∃ s₁ s₂, Run s₀ before s₁ ∧ e.op.prog.run s₁ = (e.result, s₂) := by
  induction h generalizing after with
  | nil => exact absurd hEvents (by simp)
  | @call events s s' result op hBefore hRun ih =>
      rcases trace_split hEvents with ⟨rfl, rfl, -⟩ | ⟨rest, -, hRest⟩
      · exact ⟨s, s', hBefore, hRun⟩
      · exact ih hRest
  | account _ _ ih => exact ih hEvents

end Runs

end Rooeel
