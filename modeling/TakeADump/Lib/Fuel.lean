import TakeADump.Lib.Loop

/-!
# Programs with a budget of rounds

A program whose unbounded loops are followed for `n` rounds is a family `p : Nat → EStateM ε σ α`; a run that is still
in such a loop stops in `stuck`.

* `Steady stuck p`: what a run does that is not stuck does not depend on the budget any more. It holds of a program by
  its shape (`steady_const`, `steady_bind`, `steady_loop`, ...).
* `Ever stuck p s Q E`: with some budget the run of `p` from `s` ends, in `Q` where it returns and in `E` where it
  stops. Steady programs are put together (`Ever.bind`, `ever_loop` with a variant), and such a program ends in the same
  way with every larger budget (`Ever.run_eq`).
-/

namespace Imp

variable {ε σ α β L : Type}

/-- What is not stuck does not depend on the budget. -/
def Steady (stuck : ε) (p : Nat → EStateM ε σ α) : Prop :=
  ∀ ⦃n m : Nat⦄ ⦃s : σ⦄, n ≤ m → (∀ s', (p n).run s ≠ .error stuck s') → (p m).run s = (p n).run s

section Steady

variable {stuck : ε} {p q : Nat → EStateM ε σ α}

theorem steady_const (x : EStateM ε σ α) : Steady stuck fun _ => x := fun _ _ _ _ _ => rfl

theorem steady_bind {f : Nat → α → EStateM ε σ β} (hp : Steady stuck p) (hf : ∀ a, Steady stuck fun n => f n a) :
    Steady stuck fun n => p n >>= f n := by
  intro n m s hnm hstuck
  cases hrun : (p n).run s with
  | error e s' =>
    have hne : ∀ t, (p n).run s ≠ .error stuck t := fun t ht => hstuck t (run_bind_error ht)
    have hm := (hp hnm hne).trans hrun
    rw [run_bind_error hrun, run_bind_error hm]
  | ok a s' =>
    have hm := (hp hnm fun t => by simp [hrun]).trans hrun
    rw [run_bind_ok hrun, run_bind_ok hm]
    exact hf a hnm fun t ht => hstuck t ((run_bind_ok hrun).trans ht)

theorem steady_ite {c : Prop} [Decidable c] (hp : c → Steady stuck p) (hq : ¬c → Steady stuck q) :
    Steady stuck fun n => if c then p n else q n := by
  by_cases h : c
  · simpa only [if_pos h] using hp h
  · simpa only [if_neg h] using hq h

/-- A loop of `k` rounds, or more, whose rounds have a budget of their own. -/
theorem loop_eq {body : Nat → L → EStateM ε σ (Round L α)} (hbody : ∀ l, Steady stuck fun n => body n l)
    {n m k k' : Nat}
    (hnm : n ≤ m) (hk : k ≤ k') {l : L} {s : σ} (hstuck : ∀ s', (loop stuck (body n) k l).run s ≠ .error stuck s') :
    (loop stuck (body m) k' l).run s = (loop stuck (body n) k l).run s := by
  induction k generalizing k' l s with
  | zero => exact absurd rfl (hstuck s)
  | succ k ih =>
    obtain ⟨i, rfl⟩ : ∃ i, k' = i + 1 := ⟨k' - 1, by omega⟩
    cases hrun : (body n l).run s with
    | error e s' =>
      have hm := (hbody l hnm fun t ht => hstuck t (loop_stop ht)).trans hrun
      rw [loop_stop hrun, loop_stop hm]
    | ok r s' =>
      have hm := (hbody l hnm fun t => by simp [hrun]).trans hrun
      cases r with
      | done a => rw [loop_done hrun, loop_done hm]
      | next l' =>
        rw [loop_next hrun, loop_next hm]
        exact ih (by omega) fun t ht => hstuck t ((loop_next hrun).trans ht)

/-- A loop as long as the budget. -/
theorem steady_loop {body : Nat → L → EStateM ε σ (Round L α)} (hbody : ∀ l, Steady stuck fun n => body n l) (l : L) :
    Steady stuck fun n => loop stuck (body n) n l := fun _ _ _ hnm hstuck => loop_eq hbody hnm hnm hstuck

/-- A loop of a fixed length. -/
theorem steady_loop_const {body : Nat → L → EStateM ε σ (Round L α)} (hbody : ∀ l, Steady stuck fun n => body n l)
    (k : Nat) (l : L) : Steady stuck fun n => loop stuck (body n) k l :=
  fun _ _ _ hnm hstuck => loop_eq hbody hnm (Nat.le_refl k) hstuck

end Steady

/-- With some budget the run ends. -/
def Ever (stuck : ε) (p : Nat → EStateM ε σ α) (s : σ) (Q : α → σ → Prop) (E : ε → σ → Prop) : Prop :=
  ∃ n, Ends (p n) s Q fun e s' => e ≠ stuck ∧ E e s'

section Ever

variable {stuck : ε} {p q : Nat → EStateM ε σ α} {s : σ} {Q Q' : α → σ → Prop} {E E' : ε → σ → Prop}

theorem ever_const {x : EStateM ε σ α} (h : Ends x s Q fun e s' => e ≠ stuck ∧ E e s') :
    Ever stuck (fun _ => x) s Q E := ⟨0, h⟩

theorem Ever.mono (h : Ever stuck p s Q E) (hQ : ∀ a s', Q a s' → Q' a s') (hE : ∀ e s', E e s' → E' e s') :
    Ever stuck p s Q' E' := by
  obtain ⟨n, hn⟩ := h
  exact ⟨n, hn.mono hQ fun e s' he => ⟨he.1, hE e s' he.2⟩⟩

/-- **A run that ends** ends in the same way with every larger budget. -/
theorem Ever.run_eq (hp : Steady stuck p) (h : Ever stuck p s Q E) : ∃ n r, (∀ m ≥ n, (p m).run s = r) ∧
    match r with
    | .ok a s' => Q a s'
    | .error e s' => e ≠ stuck ∧ E e s' := by
  obtain ⟨n, hn⟩ := h
  refine ⟨n, (p n).run s, fun m hm => hp hm fun s' hs' => (hn.error hs').1 rfl, hn⟩

/-- What holds with every budget, besides. -/
theorem Ever.and_ends (h : Ever stuck p s Q E) (h' : ∀ n, Ends (p n) s Q' E') :
    Ever stuck p s (fun a s' => Q a s' ∧ Q' a s') fun e s' => E e s' ∧ E' e s' := by
  obtain ⟨n, hn⟩ := h
  refine ⟨n, ?_⟩
  cases hrun : (p n).run s with
  | ok a s' => exact (ends_of_ok hrun).2 ⟨hn.ok hrun, (h' n).ok hrun⟩
  | error e s' => exact (ends_of_error hrun).2 ⟨(hn.error hrun).1, (hn.error hrun).2, (h' n).error hrun⟩

/-- With every larger budget. -/
theorem Ever.ends (hp : Steady stuck p) (h : Ever stuck p s Q E) :
    ∃ n, ∀ m ≥ n, Ends (p m) s Q fun e s' => e ≠ stuck ∧ E e s' := by
  obtain ⟨n, r, hrun, hr⟩ := h.run_eq hp
  refine ⟨n, fun m hm => ?_⟩
  unfold Ends
  rw [hrun m hm]
  exact hr

/-- Sequencing. -/
theorem Ever.bind {f : Nat → α → EStateM ε σ β} {Q' : β → σ → Prop} (hp : Steady stuck p)
    (hf : ∀ a, Steady stuck fun n => f n a) (h : Ever stuck p s Q E)
    (h' : ∀ a s', Q a s' → Ever stuck (fun n => f n a) s' Q' E) : Ever stuck (fun n => p n >>= f n) s Q' E := by
  obtain ⟨n, r, hrun, hr⟩ := h.run_eq hp
  cases r with
  | error e s' => exact ⟨n, (ends_of_error (run_bind_error (hrun n (Nat.le_refl n)))).2 hr⟩
  | ok a s' =>
    obtain ⟨k, hk⟩ := (h' a s' hr).ends (hf a)
    refine ⟨max n k, ?_⟩
    rw [ends_congr (run_bind_ok (hrun _ (Nat.le_max_left n k)))]
    exact hk _ (Nat.le_max_right n k)

/-- A statement with no loop of its own comes first. -/
theorem ever_bind_const {x : EStateM ε σ α} {f : Nat → α → EStateM ε σ β} {Q' : β → σ → Prop}
    (hf : ∀ a, Steady stuck fun n => f n a) (h : Ends x s Q fun e s' => e ≠ stuck ∧ E e s')
    (h' : ∀ a s', Q a s' → Ever stuck (fun n => f n a) s' Q' E) : Ever stuck (fun n => x >>= f n) s Q' E :=
  Ever.bind (steady_const x) hf (ever_const h) h'

/-- **The rule for loops.** From the invariant, with some budget, a round leaves, stops, or keeps the invariant and
lowers `μ`. -/
theorem ever_loop {body : Nat → L → EStateM ε σ (Round L α)} (hsteady : ∀ l, Steady stuck fun n => body n l)
    {I : L → σ → Prop} (μ : L → σ → Nat)
    (hbody : ∀ l s, I l s → Ever stuck (fun n => body n l) s (fun r s' => match r with
      | .next l' => I l' s' ∧ μ l' s' < μ l s
      | .done a => Q a s') E) {l : L} {s : σ} (hI : I l s) :
    Ever stuck (fun n => loop stuck (body n) n l) s Q E := by
  have hbound : ∀ (b : Nat) (l : L) (s : σ), I l s → μ l s < b →
      Ever stuck (fun n => loop stuck (body n) n l) s Q E := by
    intro b
    induction b with
    | zero => exact fun l s _ hlt => absurd hlt (Nat.not_lt_zero _)
    | succ b ih =>
      intro l s hI hlt
      obtain ⟨n, r, hrun, hr⟩ := (hbody l s hI).run_eq (hsteady l)
      cases r with
      | error e s' => exact ⟨n + 1, (ends_of_error (loop_stop (hrun _ (Nat.le_succ n)))).2 hr⟩
      | ok r s' =>
        cases r with
        | done a => exact ⟨n + 1, (ends_of_ok (loop_done (hrun _ (Nat.le_succ n)))).2 hr⟩
        | next l' =>
          obtain ⟨k, t, hloop, ht⟩ := (ih l' s' hr.1 (by omega)).run_eq (steady_loop hsteady l')
          -- the rounds after the first have a larger budget than the rest of the loop was run with
          refine ⟨max n k + 1, ?_⟩
          rw [ends_congr (loop_next (hrun _ (by omega)))]
          have hrest : (loop stuck (body (max n k + 1)) (max n k) l').run s' = t := by
            have hk := hloop k (Nat.le_refl k)
            rw [← hk]
            refine loop_eq hsteady (by omega) (by omega) fun u hu => ?_
            rw [hk] at hu
            rw [hu] at ht
            exact ht.1 rfl
          unfold Ends
          rw [hrest]
          exact ht
  exact hbound (μ l s + 1) l s hI (Nat.lt_succ_self _)

end Ever

end Imp
