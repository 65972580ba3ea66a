import Mathlib.Data.Nat.Find
import Mathlib.Logic.Function.Iterate
import TakeADump.Lib.Loop

/-!
# Retrying and polling

`tries o n` is the number of attempts made when attempt `t` succeeds iff `o t` and one stops at the first success or
after `n` attempts: `min n (index of the first success)` (`tries_eq_min`). `retry n x` is the loop
`ret = -1; tries = 0; while (ret != 0 && tries < n) { ret = x(); tries++; }`; `run_retry` says that it makes exactly
`tries` attempts and returns what the last one returned. `Polls` is the loop without a bound: it is left after the
first call that returns zero, and never if there is none (`Polls.run_found`, `Polls.of_ok`).
-/

namespace Imp

/-! ## Counting attempts -/

/-- The attempts made until the first success, at most `n`. -/
def tries : (Nat → Bool) → Nat → Nat
  | _, 0 => 0
  | o, n + 1 => if o 0 then 1 else tries (fun t => o (t + 1)) n + 1

theorem tries_le (o : Nat → Bool) (n : Nat) : tries o n ≤ n := by
  induction n generalizing o with
  | zero => exact Nat.le_refl 0
  | succ n ih =>
    have := ih fun t => o (t + 1)
    simp only [tries]
    split <;> omega

theorem tries_pos {o : Nat → Bool} {n : Nat} (hn : 0 < n) : 0 < tries o n := by
  obtain ⟨m, rfl⟩ : ∃ m, n = m + 1 := ⟨n - 1, by omega⟩
  simp only [tries]
  split <;> omega

/-- Every attempt before the last one failed. -/
theorem not_of_lt_tries {o : Nat → Bool} {n t : Nat} (h : t + 1 < tries o n) : o t = false := by
  induction n generalizing o t with
  | zero => exact absurd h (Nat.not_lt_zero _)
  | succ n ih =>
    simp only [tries] at h
    split at h
    · omega
    · rename_i h0
      cases t with
      | zero => simpa using h0
      | succ t =>
        apply ih (o := fun t => o (t + 1))
        omega

/-- One stops before the bound only after a success. -/
theorem last_of_tries_lt {o : Nat → Bool} {n : Nat} (h : tries o n < n) : o (tries o n - 1) = true := by
  induction n generalizing o with
  | zero => exact absurd h (Nat.not_lt_zero _)
  | succ n ih =>
    simp only [tries] at h ⊢
    split
    · assumption
    · rename_i h0
      rw [if_neg h0] at h
      have hpos : 0 < tries (fun t => o (t + 1)) n := tries_pos (by omega)
      have hlast := ih (o := fun t => o (t + 1)) (by omega)
      rwa [Nat.sub_add_cancel hpos] at hlast

/-- The last attempt succeeded iff one of the first `n` did. -/
theorem last_tries_iff (o : Nat → Bool) (n : Nat) :
    o (tries o (n + 1) - 1) = true ↔ ∃ t < n + 1, o t = true := by
  constructor
  · intro h
    exact ⟨_, by have := tries_le o (n + 1); omega, h⟩
  · rintro ⟨t, ht, hot⟩
    by_cases hlt : tries o (n + 1) < n + 1
    · exact last_of_tries_lt hlt
    · have hfull : tries o (n + 1) = n + 1 := by have := tries_le o (n + 1); omega
      by_cases htn : t = n
      · rw [hfull]; simpa [htn] using hot
      · rw [not_of_lt_tries (o := o) (n := n + 1) (t := t) (by omega)] at hot
        cases hot

/-- Whether one of the first `n` attempts succeeds. -/
def hit (o : Nat → Bool) (n : Nat) : Bool := (List.range n).any o

theorem hit_iff {o : Nat → Bool} {n : Nat} : hit o n = true ↔ ∃ t < n, o t = true := by
  simp [hit, List.any_eq_true]

theorem last_tries (o : Nat → Bool) (n : Nat) : o (tries o (n + 1) - 1) = hit o (n + 1) := by
  rw [Bool.eq_iff_iff, last_tries_iff, hit_iff]

/-- `min(n, index of the first success)`, counting attempts from one. -/
theorem tries_eq_min {o : Nat → Bool} (h : ∃ t, o t = true) (n : Nat) : tries o n = min n (Nat.find h + 1) := by
  have hle := tries_le o n
  have hnext : ¬ Nat.find h + 1 < tries o n := by
    intro hlt
    have hspec := Nat.find_spec h
    rw [not_of_lt_tries hlt] at hspec
    cases hspec
  rcases Nat.lt_or_ge (tries o n) n with hlt | hge
  · have hfind : Nat.find h ≤ tries o n - 1 := Nat.find_min' h (last_of_tries_lt hlt)
    have hpos : 0 < tries o n := tries_pos (by omega)
    omega
  · omega

/-- Without a success all `n` attempts are made. -/
theorem tries_eq_of_none {o : Nat → Bool} {n : Nat} (h : ∀ t < n, o t = false) : tries o n = n := by
  by_contra hne
  have hlt : tries o n < n := by have := tries_le o n; omega
  have hlast := last_of_tries_lt hlt
  rw [h _ (by omega)] at hlast
  cases hlast

/-! ## The loop -/

variable {ε σ : Type}

/-- One round: try again unless the last attempt succeeded or all `n` are used. -/
def retryRound (n : Nat) (x : EStateM ε σ Int) (l : Int × Nat) : EStateM ε σ (Round (Int × Nat) Int) :=
  if l.1 ≠ 0 ∧ l.2 < n then do
    let ret ← x
    pure (.next (ret, l.2 + 1))
  else pure (.done l.1)

/-- `ret = -1; tries = 0; while (ret != 0 && tries < n) { ret = x(); tries++; }` -/
def retry (stuck : ε) (n : Nat) (x : EStateM ε σ Int) : EStateM ε σ Int :=
  loop stuck (retryRound n x) (n + 1) (-1, 0)

section Retry

variable (stuck : ε) {x : EStateM ε σ Int} {r : σ → Int} {f : σ → σ}

/-- Whether attempt `i` from `s` succeeds, for an attempt that returns `r` and moves the state by `f`. -/
def succeeds (r : σ → Int) (f : σ → σ) (s : σ) (i : Nat) : Bool := r (f^[i] s) == 0

theorem tries_succeeds (m : Nat) {s : σ} (h : r s ≠ 0) :
    tries (succeeds r f s) (m + 1) = tries (succeeds r f (f s)) m + 1 := by
  simp only [tries, succeeds, Function.iterate_zero_apply, beq_iff_eq, h, ↓reduceIte]
  rfl

/-- The loop from `t` attempts on, with `m` left. -/
theorem run_retry_from (hx : ∀ s, x.run s = .ok (r s) (f s)) {n m t : Nat} {ret : Int} {s : σ} (ht : t + m = n)
    (hret : ret ≠ 0) : (loop stuck (retryRound n x) (m + 1) (ret, t)).run s =
      .ok (if m = 0 then ret else r (f^[tries (succeeds r f s) m - 1] s)) (f^[tries (succeeds r f s) m] s) := by
  induction m generalizing t ret s with
  | zero =>
    have hleave : (retryRound n x (ret, t)).run s = .ok (.done ret) s := by
      simp [retryRound, show ¬ t < n by omega]
    rw [loop_done hleave]
    rfl
  | succ m ih =>
    have hround : (retryRound n x (ret, t)).run s = .ok (.next (r s, t + 1)) (f s) := by
      simp only [retryRound]
      rw [if_pos ⟨hret, by omega⟩, run_bind_ok (hx s)]
      rfl
    rw [loop_next hround]
    by_cases h0 : r s = 0
    · have hleave : (retryRound n x (r s, t + 1)).run (f s) = .ok (.done (r s)) (f s) := by simp [retryRound, h0]
      rw [loop_done hleave]
      simp [tries, succeeds, h0]
    · rw [ih (by omega) h0, tries_succeeds m h0]
      cases m with
      | zero => simp [tries]
      | succ m =>
        obtain ⟨j, hj⟩ : ∃ j, tries (succeeds r f (f s)) (m + 1) = j + 1 :=
          ⟨_, (Nat.succ_pred_eq_of_pos (tries_pos m.succ_pos)).symm⟩
        simp [hj]

/-- **The retry loop** makes `tries` attempts and returns the result of the last one. -/
theorem run_retry (hx : ∀ s, x.run s = .ok (r s) (f s)) (n : Nat) (s : σ) :
    (retry stuck (n + 1) x).run s =
      .ok (r (f^[tries (succeeds r f s) (n + 1) - 1] s)) (f^[tries (succeeds r f s) (n + 1)] s) := by
  have := run_retry_from stuck hx (s := s) (Nat.zero_add (n + 1)) (show (-1 : Int) ≠ 0 by omega)
  simpa [retry] using this

end Retry

/-! ## Polling -/

section Poll

variable {stuck : ε} {body : Int → EStateM ε σ (Round Int Unit)} {r : σ → Int} {f : σ → σ} {s s' : σ}

/-- One round of `while (ret != 0) { ret = x(); }`, for a call `x` that returns `r` and moves the state by `f`. -/
def Polls (body : Int → EStateM ε σ (Round Int Unit)) (r : σ → Int) (f : σ → σ) : Prop :=
  ∀ ret s, (body ret).run s = if ret ≠ 0 then .ok (.next (r s)) (f s) else .ok (.done ()) s

/-- The loop is left after the first call that returns zero. -/
theorem Polls.run_found (hbody : Polls body r f) {n : Nat} (h0 : r (f^[n] s) = 0) (hmin : ∀ k < n, r (f^[k] s) ≠ 0)
    (m : Nat) {ret : Int} (hret : ret ≠ 0) : (loop stuck body (n + (m + 2)) ret).run s = .ok () (f^[n + 1] s) := by
  induction n generalizing s ret with
  | zero =>
    have hround := hbody ret s
    rw [if_pos hret, show r s = 0 from h0] at hround
    have hleave := hbody 0 (f s)
    rw [if_neg (not_not.2 rfl)] at hleave
    rw [Nat.zero_add, loop_next hround, loop_done hleave]
    rfl
  | succ n ih =>
    have hround := hbody ret s
    rw [if_pos hret] at hround
    have hfirst : r s ≠ 0 := hmin 0 (by omega)
    rw [show n + 1 + (m + 2) = n + (m + 2) + 1 by omega, loop_next hround,
      ih h0 (fun k hk => hmin (k + 1) (by omega)) hfirst]
    rfl

/-- A loop that was left was left after the first call that returned zero. -/
theorem Polls.of_ok (hbody : Polls body r f) {fuel : Nat} {ret : Int} (hret : ret ≠ 0) {u : Unit}
    (h : (loop stuck body fuel ret).run s = .ok u s') :
    ∃ n, r (f^[n] s) = 0 ∧ (∀ k < n, r (f^[k] s) ≠ 0) ∧ s' = f^[n + 1] s := by
  induction fuel generalizing s ret with
  | zero => cases h
  | succ fuel ih =>
    have hround := hbody ret s
    rw [if_pos hret] at hround
    rw [loop_next hround] at h
    by_cases h0 : r s = 0
    · refine ⟨0, h0, fun k hk => absurd hk (Nat.not_lt_zero k), ?_⟩
      have hleave := hbody 0 (f s)
      rw [if_neg (not_not.2 rfl)] at hleave
      rw [h0] at h
      cases fuel with
      | zero => cases h
      | succ fuel =>
        rw [loop_done hleave] at h
        cases h
        rfl
    · obtain ⟨n, hn, hmin, hs'⟩ := ih h0 h
      refine ⟨n + 1, hn, fun k hk => ?_, hs'⟩
      cases k with
      | zero => exact h0
      | succ k => exact hmin k (by omega)

end Poll

end Imp
