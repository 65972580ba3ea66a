import Mathlib.Tactic.Common
import Mathlib.Order.Basic

/-!
# Runs of imperative programs with unbounded loops

A program is an `EStateM ε σ α`: from a state it either returns to its caller (`.ok`) or stops elsewhere (`.error`),
for example in a call of `exit` or inside a loop that is still going on.

* `Ends x s Q E`: the run of `x` from `s` ends in `Q` if control returns and in `E` if it does not. The rules follow
  the shape of the program (`ends_pure`, `ends_bind`, `ends_ite`, ...).
* `loop stuck body n l`: at most `n` rounds of `body` from the local state `l`; `stuck` is reported when the rounds are
  used up. `ends_loop` is the invariant rule, `ends_loop_lt` the rule with a variant, under which no run gets stuck.
-/

namespace Imp

variable {ε σ α β L : Type}

/-! ## One program -/

/-- A run that returns, followed by the rest. -/
theorem run_bind_ok {x : EStateM ε σ α} {f : α → EStateM ε σ β} {s s' : σ} {a : α} (h : x.run s = .ok a s') :
    (x >>= f).run s = (f a).run s' := by
  rw [EStateM.run_bind, h]

/-- A run that does not return drops the rest. -/
theorem run_bind_error {x : EStateM ε σ α} {f : α → EStateM ε σ β} {s s' : σ} {e : ε} (h : x.run s = .error e s') :
    (x >>= f).run s = .error e s' := by
  rw [EStateM.run_bind, h]

theorem run_modify_bind (f : σ → σ) (k : PUnit → EStateM ε σ β) (s : σ) :
    (modify f >>= k).run s = (k ⟨⟩).run (f s) := rfl

/-- How the run of `x` from `s` ends: in `Q` where control returns, in `E` where it stops. -/
def Ends (x : EStateM ε σ α) (s : σ) (Q : α → σ → Prop) (E : ε → σ → Prop) : Prop :=
  match x.run s with
  | .ok a s' => Q a s'
  | .error e s' => E e s'

section Ends

variable {x : EStateM ε σ α} {s s' : σ} {Q Q' : α → σ → Prop} {E E' : ε → σ → Prop}

theorem ends_of_ok {a : α} (h : x.run s = .ok a s') : Ends x s Q E ↔ Q a s' := by
  unfold Ends; rw [h]

theorem ends_of_error {e : ε} (h : x.run s = .error e s') : Ends x s Q E ↔ E e s' := by
  unfold Ends; rw [h]

theorem ends_congr {y : EStateM ε σ α} {t : σ} (h : x.run s = y.run t) : Ends x s Q E ↔ Ends y t Q E := by
  unfold Ends; rw [h]

/-- A property of the result of the run. -/
theorem ends_result {P : EStateM.Result ε σ α → Prop} :
    Ends x s (fun a s' => P (.ok a s')) (fun e s' => P (.error e s')) ↔ P (x.run s) := by
  unfold Ends
  cases x.run s <;> rfl

/-- What holds at the end holds of a run that returned. -/
theorem Ends.ok {a : α} (h : Ends x s Q E) (hx : x.run s = .ok a s') : Q a s' := (ends_of_ok hx).1 h

/-- What holds at the end holds of a run that stopped. -/
theorem Ends.error {e : ε} (h : Ends x s Q E) (hx : x.run s = .error e s') : E e s' := (ends_of_error hx).1 h

theorem Ends.mono (h : Ends x s Q E) (hQ : ∀ a s', Q a s' → Q' a s') (hE : ∀ e s', E e s' → E' e s') :
    Ends x s Q' E' := by
  unfold Ends at h ⊢
  cases hx : x.run s with
  | ok a s' => rw [hx] at h; exact hQ a s' h
  | error e s' => rw [hx] at h; exact hE e s' h

/-- Two things that hold at the end. -/
theorem Ends.and (h : Ends x s Q E) (h' : Ends x s Q' E') :
    Ends x s (fun a s' => Q a s' ∧ Q' a s') (fun e s' => E e s' ∧ E' e s') := by
  cases hx : x.run s with
  | ok a s' => exact (ends_of_ok hx).2 ⟨h.ok hx, h'.ok hx⟩
  | error e s' => exact (ends_of_error hx).2 ⟨h.error hx, h'.error hx⟩

/-- How a run ends, together with the run itself. -/
theorem Ends.run (h : Ends x s Q E) : Ends x s (fun a s' => x.run s = .ok a s' ∧ Q a s') E := by
  unfold Ends at h ⊢
  cases hx : x.run s with
  | ok a s' => rw [hx] at h; exact ⟨rfl, h⟩
  | error e s' => rw [hx] at h; exact h

@[simp] theorem ends_pure {a : α} : Ends (pure a : EStateM ε σ α) s Q E ↔ Q a s := Iff.rfl

@[simp] theorem ends_get {Q : σ → σ → Prop} : Ends (get : EStateM ε σ σ) s Q E ↔ Q s s := Iff.rfl

@[simp] theorem ends_modify {f : σ → σ} {Q : PUnit → σ → Prop} :
    Ends (modify f : EStateM ε σ PUnit) s Q E ↔ Q ⟨⟩ (f s) := Iff.rfl

/-- Sequencing: the rest runs where control returns. -/
@[simp] theorem ends_bind {f : α → EStateM ε σ β} {Q : β → σ → Prop} :
    Ends (x >>= f) s Q E ↔ Ends x s (fun a s' => Ends (f a) s' Q E) E := by
  unfold Ends
  rw [EStateM.run_bind]
  cases x.run s <;> rfl

/-- How a run ends, together with what the rest makes of it. -/
theorem Ends.bind_run {f : α → EStateM ε σ β} (h : Ends x s Q E) :
    Ends x s (fun a s' => (x >>= f).run s = (f a).run s' ∧ Q a s')
      (fun e s' => (x >>= f).run s = .error e s' ∧ E e s') := by
  cases hx : x.run s with
  | ok a s' => exact (ends_of_ok hx).2 ⟨run_bind_ok hx, h.ok hx⟩
  | error e s' => exact (ends_of_error hx).2 ⟨run_bind_error hx, h.error hx⟩

/-- A run that returns, by evaluation. -/
theorem exists_ok_of_decide {P : α → σ → Prop} [∀ a s, Decidable (P a s)]
    (h : (match x.run s with
      | .ok a s' => decide (P a s')
      | .error _ _ => false) = true) : ∃ a s', x.run s = .ok a s' ∧ P a s' := by
  cases hx : x.run s with
  | ok a s' =>
    rw [hx] at h
    exact ⟨a, s', rfl, of_decide_eq_true h⟩
  | error e s' =>
    rw [hx] at h
    cases h

/-- A run that is left, by evaluation. -/
theorem exists_error_of_decide {P : ε → σ → Prop} [∀ e s, Decidable (P e s)]
    (h : (match x.run s with
      | .ok _ _ => false
      | .error e s' => decide (P e s')) = true) : ∃ e s', x.run s = .error e s' ∧ P e s' := by
  cases hx : x.run s with
  | ok a s' =>
    rw [hx] at h
    cases h
  | error e s' =>
    rw [hx] at h
    exact ⟨e, s', rfl, of_decide_eq_true h⟩

theorem ends_ite {c : Prop} [Decidable c] {y : EStateM ε σ α} :
    Ends (if c then x else y) s Q E ↔ (c → Ends x s Q E) ∧ (¬c → Ends y s Q E) := by
  by_cases h : c <;> simp [h]

end Ends

/-! ## Loops -/

/-- What one round of a loop decides: go on from a new local state, or leave with a result. -/
inductive Round (L α : Type)
  | next (l : L)
  | done (a : α)

/-- At most `n` rounds of `body`. -/
def loop (stuck : ε) (body : L → EStateM ε σ (Round L α)) : Nat → L → EStateM ε σ α
  | 0, _ => throw stuck
  | n + 1, l => do
    match ← body l with
    | .next l' => loop stuck body n l'
    | .done a => pure a

section Loop

variable {stuck : ε} {body : L → EStateM ε σ (Round L α)} {n : Nat} {l l' : L} {s s' : σ}

theorem loop_next (h : (body l).run s = .ok (.next l') s') :
    (loop stuck body (n + 1) l).run s = (loop stuck body n l').run s' := run_bind_ok h

theorem loop_done {a : α} (h : (body l).run s = .ok (.done a) s') :
    (loop stuck body (n + 1) l).run s = .ok a s' := run_bind_ok h

theorem loop_stop {e : ε} (h : (body l).run s = .error e s') :
    (loop stuck body (n + 1) l).run s = .error e s' := run_bind_error h

/-- `n` rounds that all go on, from `l` in `s` to `l'` in `s'`. -/
inductive Rounds (body : L → EStateM ε σ (Round L α)) (l : L) (s : σ) : Nat → L → σ → Prop
  | zero : Rounds body l s 0 l s
  | succ {n : Nat} {l' l'' : L} {s' s'' : σ} (before : Rounds body l s n l' s')
      (round : (body l').run s' = .ok (.next l'') s'') : Rounds body l s (n + 1) l'' s''

/-- The loop goes on from where its first rounds lead. -/
theorem Rounds.run (h : Rounds body l s n l' s') (m : Nat) :
    (loop stuck body (n + m) l).run s = (loop stuck body m l').run s' := by
  induction h generalizing m with
  | zero => rw [Nat.zero_add]
  | @succ n _ _ _ _ _ round ih => rw [show n + 1 + m = n + (m + 1) by omega, ih, loop_next round]

variable {I : L → σ → Prop} {Q : α → σ → Prop} {E : ε → σ → Prop}

/-- **The invariant rule.** A round from the invariant leaves with `Q`, stops with `E` or keeps the invariant. -/
theorem ends_loop
    (hbody : ∀ l s, I l s → Ends (body l) s (fun r s' => match r with
      | .next l' => I l' s'
      | .done a => Q a s') E)
    (hstuck : ∀ l s, I l s → E stuck s) (n : Nat) {l : L} {s : σ} (hI : I l s) : Ends (loop stuck body n l) s Q E := by
  induction n generalizing l s with
  | zero => exact hstuck l s hI
  | succ n ih =>
    have hb := hbody l s hI
    cases hr : (body l).run s with
    | error e s' => exact (ends_of_error (loop_stop hr)).2 (hb.error hr)
    | ok r s' =>
      cases r with
      | done a => exact (ends_of_ok (loop_done hr)).2 (hb.ok hr)
      | next l' =>
        rw [ends_congr (loop_next hr)]
        exact ih (hb.ok hr)

/-- **The rule with a variant.** Every round that goes on lowers `μ`; with more rounds than `μ` no run is stuck. -/
theorem ends_loop_lt (μ : L → σ → Nat)
    (hbody : ∀ l s, I l s → Ends (body l) s (fun r s' => match r with
      | .next l' => I l' s' ∧ μ l' s' < μ l s
      | .done a => Q a s') E) (n : Nat) {l : L} {s : σ} (hI : I l s) (hlt : μ l s < n) :
    Ends (loop stuck body n l) s Q E := by
  induction n generalizing l s with
  | zero => exact absurd hlt (Nat.not_lt_zero _)
  | succ n ih =>
    have hb := hbody l s hI
    cases hr : (body l).run s with
    | error e s' => exact (ends_of_error (loop_stop hr)).2 (hb.error hr)
    | ok r s' =>
      cases r with
      | done a => exact (ends_of_ok (loop_done hr)).2 (hb.ok hr)
      | next l' =>
        obtain ⟨hI', hμ⟩ := hb.ok hr
        rw [ends_congr (loop_next hr)]
        exact ih hI' (by omega)

end Loop

end Imp
