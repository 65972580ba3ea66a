import TakeADump.Lib.Press
import TakeADump.Model.Main

/-!
# Which samples a wait takes

A wait changes nothing but the samples taken, and it stands right behind the first sample it was waiting for
(`ends_wait_sampled`). So a confirmation (`ends_confirm_sampled`) takes the first sample with A and, behind it, the
first sample with no button at all.
-/

namespace TakeADump

variable (e : Env)

/-- A button is held at sample `n`. -/
def Env.held (n : Nat) : Bool := e.pad n ≠ 0

/-- A is held at sample `n`. -/
def Env.heldA (n : Nat) : Bool := e.pad n &&& wpadButtonA ≠ 0

def Env.sampleAt (n : Nat) : Event := .sample (e.pad n)

/-- The samples before `n` have been taken. -/
def World.sampled (w : World) (n : Nat) : World :=
  { w.logs ((List.range' w.samples (n - w.samples)).map e.sampleAt) with samples := n }

@[simp] theorem samples_sampled (w : World) (n : Nat) : (w.sampled e n).samples = n := rfl

@[simp] theorem trace_sampled (w : World) (n : Nat) : (w.sampled e n).trace =
    w.trace ++ (List.range' w.samples (n - w.samples)).map e.sampleAt := rfl

@[simp] theorem sampled_self (w : World) : w.sampled e w.samples = w := by simp [World.sampled]

theorem sampled_sampled {w : World} {m n : Nat} (hm : w.samples ≤ m) (hmn : m ≤ n) :
    (w.sampled e m).sampled e n = w.sampled e n := by
  simp [World.sampled, World.logs, Press.range'_split hm hmn]

/-- A line, and the rest from there. -/
theorem ends_emit_bind {α : Type} {ev : Event} {f : Unit → Prog α} {w : World} {Q : α → World → Prop}
    {E : Stop → World → Prop} : Imp.Ends (emit ev >>= f) w Q E ↔ Imp.Ends (f ()) (w.log ev) Q E := by
  unfold emit
  rw [Imp.ends_bind, Imp.ends_modify]

/-- A sample. -/
theorem run_getControllerButtonsPressed (w : World) : (Global.getControllerButtonsPressed e).run w =
    .ok (e.pad w.samples) { w.log (.sample (e.pad w.samples)) with samples := w.samples + 1 } := rfl

theorem run_sample (w : World) : (Global.getControllerButtonsPressed e).run w =
    .ok (e.pad w.samples) (w.sampled e (w.samples + 1)) := by
  rw [run_getControllerButtonsPressed]
  simp [World.sampled, World.log, World.logs, Env.sampleAt]

/-- A wait returns right behind the first sample that satisfies `p`, or there was none yet. -/
theorem ends_wait_sampled (p : UInt32 → Bool) (fuel : Nat) (w : World) :
    Imp.Ends (Imp.loop Stop.spin (Global.waitRound e p) fuel ()) w
      (fun _ w' => ∃ n, w' = w.sampled e (n + 1) ∧ w.samples ≤ n ∧ p (e.pad n) = true ∧
        ∀ k, w.samples ≤ k → k < n → p (e.pad k) = false)
      (fun st w' => st = .spin ∧ ∃ n, w' = w.sampled e n ∧ w.samples ≤ n ∧
        ∀ k, w.samples ≤ k → k < n → p (e.pad k) = false) := by
  refine Imp.ends_loop (I := fun _ w' => ∃ n, w' = w.sampled e n ∧ w.samples ≤ n ∧
    ∀ k, w.samples ≤ k → k < n → p (e.pad k) = false) ?_ (fun _ _ h => ⟨rfl, h⟩) fuel ?_
  · rintro _ _ ⟨n, rfl, hn, hbefore⟩
    unfold Global.waitRound
    rw [Imp.ends_bind, Imp.ends_of_ok (run_sample e _), samples_sampled, sampled_sampled e hn (Nat.le_succ n)]
    by_cases hp : p (e.pad n) = true
    · rw [if_pos hp]
      exact ⟨n, rfl, hn, hp, hbefore⟩
    · rw [if_neg hp]
      refine ⟨n + 1, rfl, by omega, fun k hk hkn => ?_⟩
      rcases Nat.lt_or_eq_of_le (Nat.le_of_lt_succ hkn) with hlt | rfl
      · exact hbefore k hk hlt
      · exact Bool.eq_false_iff.2 hp
  · exact ⟨w.samples, (sampled_self e w).symm, Nat.le_refl _, fun k hk hkn => by omega⟩

theorem ends_waitForA_sampled (fuel : Nat) (w : World) : Imp.Ends (Global.waitForA e fuel) w
    (fun _ w' => ∃ i, w' = w.sampled e (i + 1) ∧ w.samples ≤ i ∧ e.heldA i = true ∧
      ∀ k, w.samples ≤ k → k < i → e.heldA k = false)
    (fun st w' => st = .spin ∧ ∃ n, w' = w.sampled e n ∧ w.samples ≤ n ∧
      ∀ k, w.samples ≤ k → k < n → e.heldA k = false) := ends_wait_sampled e _ fuel w

theorem ends_waitForButtonRelease_sampled (fuel : Nat) (w : World) :
    Imp.Ends (Global.waitForButtonRelease e fuel) w
      (fun _ w' => ∃ z, w' = w.sampled e (z + 1) ∧ w.samples ≤ z ∧ e.held z = false ∧
        ∀ k, w.samples ≤ k → k < z → e.held k = true)
      (fun st w' => st = .spin ∧ ∃ n, w' = w.sampled e n ∧ w.samples ≤ n) := by
  refine (ends_wait_sampled e _ fuel w).mono ?_ ?_
  · rintro _ w' ⟨z, rfl, hz, hp, hbefore⟩
    refine ⟨z, rfl, hz, by simpa [Env.held] using hp, fun k hk hkz => ?_⟩
    simpa [Env.held] using hbefore k hk hkz
  · rintro st w' ⟨hst, n, rfl, hn, -⟩
    exact ⟨hst, n, rfl, hn⟩

/-- A confirmation takes the first sample with A, and a later one with no button. -/
theorem ends_confirm_sampled (fuel : Nat) (w : World) : Imp.Ends (confirm e fuel) w
    (fun _ w' => ∃ i z, w' = w.sampled e (z + 1) ∧ w.samples ≤ i ∧ i < z ∧ e.heldA i = true ∧
      (∀ k, w.samples ≤ k → k < i → e.heldA k = false) ∧ e.held z = false)
    (fun st w' => st = .spin ∧ ∃ n, w' = w.sampled e n ∧ w.samples ≤ n ∧
      ((∀ k, w.samples ≤ k → k < n → e.heldA k = false) ∨ ∃ i, w.samples ≤ i ∧ i < n ∧ e.heldA i = true ∧
        ∀ k, w.samples ≤ k → k < i → e.heldA k = false)) := by
  unfold confirm
  rw [Imp.ends_bind]
  refine (ends_waitForA_sampled e fuel w).mono ?_ ?_
  · rintro _ w₁ ⟨i, rfl, hi, hA, hbefore⟩
    refine (ends_waitForButtonRelease_sampled e fuel _).mono ?_ ?_
    · rintro _ w₂ ⟨z, rfl, hz, hrelease, -⟩
      rw [samples_sampled] at hz
      exact ⟨i, z, sampled_sampled e (by omega) (by omega), hi, hz, hA, hbefore, hrelease⟩
    · rintro st w₂ ⟨hst, n, rfl, hn⟩
      rw [samples_sampled] at hn
      exact ⟨hst, n, sampled_sampled e (by omega) hn, by omega, Or.inr ⟨i, hi, by omega, hA, hbefore⟩⟩
  · rintro st w₁ ⟨hst, n, rfl, hn, hbefore⟩
    exact ⟨hst, n, rfl, hn, Or.inl hbefore⟩

end TakeADump
