import Mathlib.Data.List.Basic
import Mathlib.Tactic.Common

/-!
# Handles held one at a time

A handle is acquired, used and released, and no other one may be acquired in between. `run held ops` checks a sequence
of operations against this discipline, from the handle held before to the handle held after it.

* what was acquired is what was released and what is held (`count_run`), so a sequence after which nothing is held
  releases every handle as often as it acquires it;
* an operation on a handle is allowed only while it is held (`held_of_use`, `held_of_release`), so after its release a
  handle that is not acquired again is not touched any more (`not_mem_of_not_held`).
-/

namespace Exclusive

variable {H : Type} [DecidableEq H]

inductive Op (H : Type)
  | acquire (h : H)
  | use (h : H)
  | release (h : H)
  deriving DecidableEq

/-- One operation; `none` if it is not allowed. -/
def step : Option H → Op H → Option (Option H)
  | none, .acquire h => some (some h)
  | some k, .use h => if h = k then some (some k) else none
  | some k, .release h => if h = k then some none else none
  | _, _ => none

def run (held : Option H) : List (Op H) → Option (Option H)
  | [] => some held
  | op :: ops => (step held op).bind fun held' => run held' ops

section Run

variable {held held' : Option H} {k : H} {ops a b : List (Op H)}

@[simp] theorem run_nil : run held [] = some held := rfl

theorem run_append (a b : List (Op H)) : run held (a ++ b) = (run held a).bind fun held' => run held' b := by
  induction a generalizing held with
  | nil => rfl
  | cons op a ih =>
    rw [List.cons_append, run, run]
    cases step held op with
    | none => rfl
    | some held' => exact ih

/-- A sequence that goes on after a first part. -/
theorem run_append_of (h : run held a = some held') (b : List (Op H)) : run held (a ++ b) = run held' b := by
  rw [run_append, h, Option.bind_some]

/-- The handle held is used any number of times. -/
theorem run_uses (h : ∀ op ∈ ops, op = .use k) : run (some k) ops = some (some k) := by
  induction ops with
  | nil => rfl
  | cons op ops ih =>
    rw [h op (List.mem_cons_self ..), run, step, if_pos rfl, Option.bind_some]
    exact ih fun x hx => h x (List.mem_cons_of_mem _ hx)

/-- The first part of an allowed sequence is allowed. -/
theorem exists_run_of_append (h : run held (a ++ b) = some held') :
    ∃ mid, run held a = some mid ∧ run mid b = some held' := by
  rw [run_append] at h
  exact Option.bind_eq_some_iff.1 h

theorem run_use_inv (h : run held (.use k :: ops) = some held') : held = some k ∧ run (some k) ops = some held' := by
  rw [run] at h
  obtain ⟨mid, hstep, hrun⟩ := Option.bind_eq_some_iff.1 h
  cases held with
  | none => cases hstep
  | some i =>
    rw [step] at hstep
    split at hstep
    · subst k
      cases hstep
      exact ⟨rfl, hrun⟩
    · cases hstep

theorem run_release_inv (h : run held (.release k :: ops) = some held') :
    held = some k ∧ run none ops = some held' := by
  rw [run] at h
  obtain ⟨mid, hstep, hrun⟩ := Option.bind_eq_some_iff.1 h
  cases held with
  | none => cases hstep
  | some i =>
    rw [step] at hstep
    split at hstep
    · subst k
      cases hstep
      exact ⟨rfl, hrun⟩
    · cases hstep

theorem run_acquire_inv (h : run held (.acquire k :: ops) = some held') :
    held = none ∧ run (some k) ops = some held' := by
  rw [run] at h
  obtain ⟨mid, hstep, hrun⟩ := Option.bind_eq_some_iff.1 h
  cases held with
  | none =>
    cases hstep
    exact ⟨rfl, hrun⟩
  | some i => cases hstep

/-- A handle is used only while it is held. -/
theorem held_of_use (h : run held (a ++ .use k :: b) = some held') : run held a = some (some k) := by
  obtain ⟨mid, ha, hb⟩ := exists_run_of_append h
  rw [ha, (run_use_inv hb).1]

/-- A handle is released only while it is held, and then none is. -/
theorem held_of_release (h : run held (a ++ .release k :: b) = some held') :
    run held a = some (some k) ∧ run none b = some held' := by
  obtain ⟨mid, ha, hb⟩ := exists_run_of_append h
  rw [ha, (run_release_inv hb).1]
  exact ⟨rfl, (run_release_inv hb).2⟩

/-- How often a handle is held: once or not at all. -/
def holds (held : Option H) (k : H) : Nat := if held = some k then 1 else 0

@[simp] theorem holds_none (k : H) : holds none k = 0 := if_neg (by simp)

theorem holds_eq_one : holds held k = 1 ↔ held = some k := by
  unfold holds
  split <;> simp_all

/-- What was held or acquired is what was released or is held. -/
theorem count_run (h : run held ops = some held') (k : H) :
    holds held k + ops.count (.acquire k) = ops.count (.release k) + holds held' k := by
  induction ops generalizing held with
  | nil =>
    cases h
    simp
  | cons op ops ih =>
    cases op with
    | acquire i =>
      obtain ⟨rfl, hrun⟩ := run_acquire_inv h
      have hcount := ih hrun
      by_cases hik : i = k
      · subst hik
        simp [holds] at hcount ⊢
        omega
      · simp [holds, hik] at hcount ⊢
        exact hcount
    | use i =>
      obtain ⟨rfl, hrun⟩ := run_use_inv h
      simpa using ih hrun
    | release i =>
      obtain ⟨rfl, hrun⟩ := run_release_inv h
      have hcount := ih hrun
      by_cases hik : i = k
      · subst hik
        simp [holds] at hcount ⊢
        omega
      · simp [holds, hik] at hcount ⊢
        exact hcount

/-- A handle that is neither held nor acquired is not touched. -/
theorem not_mem_of_not_held (h : run held ops = some held') (hk : held ≠ some k) (ha : .acquire k ∉ ops) :
    .use k ∉ ops ∧ .release k ∉ ops := by
  constructor
  · intro hmem
    obtain ⟨a, b, rfl⟩ := List.append_of_mem hmem
    have hcount := count_run (held_of_use h) k
    rw [List.count_eq_zero.2 fun hin => ha (List.mem_append_left _ hin)] at hcount
    simp [holds, hk] at hcount
  · intro hmem
    obtain ⟨a, b, rfl⟩ := List.append_of_mem hmem
    have hcount := count_run (held_of_release h).1 k
    rw [List.count_eq_zero.2 fun hin => ha (List.mem_append_left _ hin)] at hcount
    simp [holds, hk] at hcount

end Run

end Exclusive
