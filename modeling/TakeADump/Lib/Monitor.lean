import Mathlib.Data.List.Basic
import Mathlib.Tactic.Common

/-!
# Monitors

A monitor reads a log event by event: in each state it allows some events, and each of these leads to one state
(`step`). `run` reads a whole log; it is `none` from the first event on that is not allowed.

* Logs are put together: `run_append_of`, `run_stay` for events that change nothing, and `run_rounds` for a log made of
  rounds, by induction on their number.
* Logs are taken apart: every part of an allowed log is allowed where it stands (`exists_run_of_append`,
  `exists_step_of_run`), and what every step keeps holds at the end, of the state (`inv_of_run`), of the state and the
  events before it (`history_of_run`), and of the events read on the way (`forall_mem_of_run`).
-/

namespace Monitor

variable {σ α : Type}

/-- The state after the events; `none` if one of them is not allowed. -/
def run (step : σ → α → Option σ) (q : σ) (evs : List α) : Option σ := evs.foldlM step q

variable {step : σ → α → Option σ} {q q' : σ} {ev : α} {evs a b : List α}

@[simp] theorem run_nil : run step q [] = some q := by rw [run, List.foldlM_nil, Option.pure_def]

theorem run_cons (ev : α) (evs : List α) :
    run step q (ev :: evs) = (step q ev).bind fun q' => run step q' evs := rfl

/-- An allowed event is read. -/
theorem run_cons_of (h : step q ev = some q') (evs : List α) : run step q (ev :: evs) = run step q' evs := by
  rw [run_cons, h, Option.bind_some]

/-- A log that goes on after a first part. -/
theorem run_append_of (h : run step q a = some q') (b : List α) : run step q (a ++ b) = run step q' b := by
  unfold run at h ⊢
  rw [List.foldlM_append, h]
  rfl

theorem run_snoc_of (h : run step q a = some q') (ev : α) : run step q (a ++ [ev]) = step q' ev := by
  rw [run_append_of h, run_cons]
  exact Option.bind_fun_some _

/-- Events that leave the state alone. -/
theorem run_stay (h : ∀ ev ∈ evs, step q ev = some q) : run step q evs = some q := by
  induction evs with
  | nil => rfl
  | cons ev evs ih =>
    rw [run_cons_of (h ev List.mem_cons_self)]
    exact ih fun x hx => h x (List.mem_cons_of_mem ev hx)

/-- **Rounds.** Each leads from one state of a sequence to the next one. -/
theorem run_rounds {f : Nat → σ} {g : Nat → List α} {n : Nat} (h : ∀ s < n, run step (f s) (g s) = some (f (s + 1))) :
    run step (f 0) ((List.range n).flatMap g) = some (f n) := by
  induction n with
  | zero => rfl
  | succ n ih =>
    rw [List.range_succ, List.flatMap_append, List.flatMap_singleton,
      run_append_of (ih fun s hs => h s (Nat.lt_succ_of_lt hs))]
    exact h n (Nat.lt_succ_self n)

/-- Both parts of an allowed log are allowed. -/
theorem exists_run_of_append (h : run step q (a ++ b) = some q') :
    ∃ mid, run step q a = some mid ∧ run step mid b = some q' := by
  unfold run at h
  rw [List.foldlM_append] at h
  exact Option.bind_eq_some_iff.1 h

/-- The step an event of an allowed log makes. -/
theorem exists_step_of_run (h : run step q (a ++ ev :: b) = some q') :
    ∃ before after, run step q a = some before ∧ step before ev = some after ∧ run step after b = some q' := by
  obtain ⟨before, ha, hb⟩ := exists_run_of_append h
  rw [run_cons] at hb
  obtain ⟨after, hstep, hrun⟩ := Option.bind_eq_some_iff.1 hb
  exact ⟨before, after, ha, hstep, hrun⟩

section Invariant

variable {I : σ → Prop} {A : α → Prop}

/-- **The invariant rule.** What every step keeps of the state and of the events read so far holds at the end. -/
theorem history_of_run_from {H : List α → σ → Prop} {past : List α}
    (hstep : ∀ past q ev q', H past q → step q ev = some q' → H (past ++ [ev]) q') (hH : H past q)
    (h : run step q evs = some q') : H (past ++ evs) q' := by
  induction evs generalizing q past with
  | nil =>
    cases h
    rwa [List.append_nil]
  | cons ev evs ih =>
    rw [run_cons] at h
    obtain ⟨mid, hs, hrun⟩ := Option.bind_eq_some_iff.1 h
    rw [List.append_cons]
    exact ih (hstep past q ev mid hH hs) hrun

theorem history_of_run {H : List α → σ → Prop}
    (hstep : ∀ past q ev q', H past q → step q ev = some q' → H (past ++ [ev]) q') (hH : H [] q)
    (h : run step q evs = some q') : H evs q' := history_of_run_from hstep hH h

/-- What every step keeps of the state. -/
theorem inv_of_run (hstep : ∀ q ev q', I q → step q ev = some q' → I q') (hI : I q) (h : run step q evs = some q') :
    I q' :=
  history_of_run (H := fun _ q => I q) (fun _ q ev q' => hstep q ev q') hI h

/-- Where the invariant holds only events in `A` are read. -/
theorem forall_mem_of_run (hstep : ∀ q ev q', I q → step q ev = some q' → I q' ∧ A ev) (hI : I q)
    (h : run step q evs = some q') : ∀ ev ∈ evs, A ev := by
  intro ev hev
  obtain ⟨a, b, rfl⟩ := List.append_of_mem hev
  obtain ⟨before, after, ha, hs, -⟩ := exists_step_of_run h
  exact (hstep before ev after (inv_of_run (fun q ev q' hq hq' => (hstep q ev q' hq hq').1) hI ha) hs).2

end Invariant

end Monitor
