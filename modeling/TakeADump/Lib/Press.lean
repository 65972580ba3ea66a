import Mathlib.Tactic.Common

/-!
# Presses of a polled button

A program that polls a button sees its level, `held n` at sample `n`, and not its edges. A press is a maximal run of
samples at which the button is held.

* `first held n`: the first sample of the press sample `n` belongs to. Two samples belong to the same press exactly if
  the button is held from one to the other (`first_eq_iff`); a release in between separates them (`lt_first`,
  `exists_release`).
* `begins held n`: a press begins at sample `n`; `presses held a n`: where the presses from `a` to `n` begin.
* `history`: what a program shows that polls every sample and reacts to each press once, where it begins. Over the
  samples of a wait for the release nothing begins (`begins_wait`), so the program shows only its polls
  (`history_wait`).
-/

namespace Press

variable (held : Nat → Bool)

/-- The first sample of the press that sample `n` belongs to. -/
def first : Nat → Nat
  | 0 => 0
  | n + 1 => if held n then first n else n + 1

/-- A press begins at sample `n`. -/
def begins (n : Nat) : Bool := held n && first held n == n

/-- The first samples of the presses that begin from `a` to `n`, the latter excluded. -/
def presses (a n : Nat) : List Nat := (List.range' a (n - a)).filter fun i => begins held i

/-- What is shown from sample `a` to sample `n`: `poll` at every sample, and `react` where a press begins. -/
def history {α : Type} (poll : Nat → α) (react : Nat → List α) (a n : Nat) : List α :=
  (List.range' a (n - a)).flatMap fun i => poll i :: if begins held i then react i else []

variable {held} {m n k z : Nat}

/-! ## One press -/

theorem first_succ_of_held (h : held n = true) : first held (n + 1) = first held n := by
  rw [first, if_pos h]

theorem first_succ_of_released (h : held n = false) : first held (n + 1) = n + 1 := by
  rw [first, if_neg (by simp [h])]

theorem first_le (n : Nat) : first held n ≤ n := by
  induction n with
  | zero => exact Nat.le_refl 0
  | succ n ih =>
    cases h : held n with
    | true =>
      rw [first_succ_of_held h]
      omega
    | false => exact Nat.le_of_eq (first_succ_of_released h)

/-- From its first sample on the press is held. -/
theorem held_of_first_le (hk : first held n ≤ k) (hkn : k < n) : held k = true := by
  induction n with
  | zero => omega
  | succ n ih =>
    cases h : held n with
    | true =>
      rw [first_succ_of_held h] at hk
      rcases Nat.lt_or_eq_of_le (Nat.le_of_lt_succ hkn) with hlt | rfl
      · exact ih hk hlt
      · exact h
    | false =>
      rw [first_succ_of_released h] at hk
      omega

/-- A release comes before the press of every later sample. -/
theorem lt_first (hz : held z = false) (hzn : z < n) : z < first held n := by
  by_contra hle
  have hheld := held_of_first_le (Nat.le_of_not_lt hle) hzn
  simp [hz] at hheld

/-- While the button is held the press does not change. -/
theorem first_eq_of_held (hmn : m ≤ n) (h : ∀ k, m ≤ k → k < n → held k = true) :
    first held n = first held m := by
  induction hmn with
  | refl => rfl
  | step hmn ih =>
    rw [first_succ_of_held (h _ hmn (Nat.lt_succ_self _))]
    exact ih fun k hmk hkn => h k hmk (Nat.lt_succ_of_lt hkn)

/-- Two samples belong to the same press exactly if the button is held from one to the other. -/
theorem first_eq_iff (hmn : m ≤ n) :
    first held n = first held m ↔ ∀ k, m ≤ k → k < n → held k = true := by
  constructor
  · intro heq k hmk hkn
    have hle : first held n ≤ m := by rw [heq]; exact first_le m
    exact held_of_first_le (Nat.le_trans hle hmk) hkn
  · exact first_eq_of_held hmn

theorem first_mono (hmn : m ≤ n) : first held m ≤ first held n := by
  induction hmn with
  | refl => exact Nat.le_refl _
  | @step n hmn ih =>
    cases h : held n with
    | true =>
      rw [first_succ_of_held h]
      exact ih
    | false =>
      rw [first_succ_of_released h]
      exact Nat.le_trans (first_le m) (Nat.le_succ_of_le hmn)

/-- Between two presses the button is released. -/
theorem exists_release (h : first held m < first held n) : ∃ z, m ≤ z ∧ z < n ∧ held z = false := by
  have hmn : m ≤ n := by
    by_contra hlt
    have hle : first held n ≤ first held m := first_mono (by omega)
    omega
  by_contra hnone
  have heq : first held n = first held m := by
    refine (first_eq_iff hmn).2 fun k hmk hkn => ?_
    by_contra hk
    exact hnone ⟨k, hmk, hkn, Bool.eq_false_iff.2 hk⟩
  omega

/-! ## Where presses begin -/

theorem begins_succ_of_released (h : held n = false) : begins held (n + 1) = held (n + 1) := by
  simp [begins, first_succ_of_released h]

theorem begins_succ_of_held (h : held n = true) : begins held (n + 1) = false := by
  have hne : first held n ≠ n + 1 := by
    have hle : first held n ≤ n := first_le n
    omega
  simp [begins, first_succ_of_held h, hne]

theorem begins_of_released (h : held n = false) : begins held n = false := by
  simp [begins, h]

/-- During a wait for the release no press begins. -/
theorem begins_wait (h : ∀ k, m ≤ k → k < n → held k = true) (hmk : m < k) (hkn : k ≤ n) : begins held k = false := by
  obtain ⟨k, rfl⟩ : ∃ i, k = i + 1 := ⟨k - 1, by omega⟩
  exact begins_succ_of_held (h k (by omega) (by omega))

/-! ## Stretches of samples -/

variable {α : Type} {poll : Nat → α} {react : Nat → List α} {a : Nat}

theorem range'_split (ham : a ≤ m) (hmn : m ≤ n) :
    List.range' a (n - a) = List.range' a (m - a) ++ List.range' m (n - m) := by
  have h := List.range'_append_1 (s := a) (m := m - a) (n := n - m)
  rw [show a + (m - a) = m by omega, show m - a + (n - m) = n - a by omega] at h
  exact h.symm

theorem presses_split (ham : a ≤ m) (hmn : m ≤ n) :
    presses held a n = presses held a m ++ presses held m n := by
  simp [presses, range'_split ham hmn]

theorem history_split (ham : a ≤ m) (hmn : m ≤ n) :
    history held poll react a n = history held poll react a m ++ history held poll react m n := by
  simp [history, range'_split ham hmn]

theorem presses_succ (han : a ≤ n) :
    presses held a (n + 1) = presses held a n ++ if begins held n then [n] else [] := by
  rw [presses_split han (Nat.le_succ n)]
  simp [presses, List.filter_cons]

theorem history_succ (han : a ≤ n) : history held poll react a (n + 1) =
    history held poll react a n ++ poll n :: if begins held n then react n else [] := by
  rw [history_split han (Nat.le_succ n)]
  simp [history]

@[simp] theorem presses_self (a : Nat) : presses held a a = [] := by simp [presses]

@[simp] theorem history_self (a : Nat) : history held poll react a a = [] := by simp [history]

/-- No press begins in a stretch. -/
theorem presses_wait (ham : a ≤ m) (hmn : m ≤ n) (h : ∀ k, m ≤ k → k < n → begins held k = false) :
    presses held a n = presses held a m := by
  have hnil : presses held m n = [] := by
    refine List.filter_eq_nil_iff.2 fun k hk => ?_
    obtain ⟨hmk, hkn⟩ := List.mem_range'_1.1 hk
    simp [h k hmk (by omega)]
  rw [presses_split ham hmn, hnil, List.append_nil]

/-- In a stretch where no press begins only the polls are shown. -/
theorem history_wait (ham : a ≤ m) (hmn : m ≤ n) (h : ∀ k, m ≤ k → k < n → begins held k = false) :
    history held poll react a n = history held poll react a m ++ (List.range' m (n - m)).map poll := by
  have hpolls : history held poll react m n = (List.range' m (n - m)).map poll := by
    rw [history, List.map_eq_flatMap, List.flatMap_def, List.flatMap_def]
    congr 1
    refine List.map_congr_left fun k hk => ?_
    obtain ⟨hmk, hkn⟩ := List.mem_range'_1.1 hk
    simp [h k hmk (by omega)]
  rw [history_split ham hmn, hpolls]

end Press
