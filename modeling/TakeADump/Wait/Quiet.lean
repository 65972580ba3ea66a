import TakeADump.Wait.Samples

/-!
# Waiting and leaving

What waits and error reports change is bounded once, by `Quiet`: samples are taken and lines are printed, nothing else.
`Logger::error` never comes back, for any samples (`ends_error`): it ends in `exit(0)` or is still waiting. The same
holds of `resetAfterPause` (`ends_resetAfterPause`) and of `reset` (`run_reset`).
-/

namespace TakeADump

/-- Events of a run that only prints, samples the Wiimote or leaves. -/
def Event.quiet : Event → Bool
  | .print _ _ | .errorLine _ _ _ | .newline | .sample _ | .exit _ => true
  | _ => false

/-- From `w` to `w'` samples were taken and quiet events recorded. -/
def Quiet (w w' : World) : Prop :=
  ∃ n evs, w' = { w.logs evs with samples := n } ∧ ∀ ev ∈ evs, ev.quiet = true

theorem Quiet.refl (w : World) : Quiet w w := ⟨w.samples, [], by simp, by simp⟩

theorem Quiet.trans {w₁ w₂ w₃ : World} (h : Quiet w₁ w₂) (h' : Quiet w₂ w₃) : Quiet w₁ w₃ := by
  obtain ⟨n, evs, rfl, hq⟩ := h
  obtain ⟨n', evs', rfl, hq'⟩ := h'
  refine ⟨n', evs ++ evs', by simp [World.logs], fun ev hev => ?_⟩
  rcases List.mem_append.1 hev with hev | hev
  · exact hq ev hev
  · exact hq' ev hev

theorem quiet_log {w : World} {ev : Event} (h : ev.quiet = true) : Quiet w (w.log ev) :=
  ⟨w.samples, [ev], rfl, by simpa using h⟩

section Quiet

variable (e : Env)

theorem quiet_sample (w : World) : Quiet w { w.log (.sample (e.pad w.samples)) with samples := w.samples + 1 } :=
  ⟨w.samples + 1, [.sample (e.pad w.samples)], rfl, by simp [Event.quiet]⟩

theorem quiet_sampled (w : World) (n : Nat) : Quiet w (w.sampled e n) := by
  refine ⟨n, _, rfl, fun ev hev => ?_⟩
  obtain ⟨k, -, rfl⟩ := List.mem_map.1 hev
  rfl

/-- A wait returns or is still going on. -/
theorem ends_wait (p : UInt32 → Bool) (fuel : Nat) (w : World) :
    Imp.Ends (Imp.loop Stop.spin (Global.waitRound e p) fuel ()) w (fun _ w' => Quiet w w')
      (fun st w' => st = .spin ∧ Quiet w w') := by
  refine (ends_wait_sampled e p fuel w).mono ?_ ?_
  · rintro _ _ ⟨n, rfl, -⟩
    exact quiet_sampled e w (n + 1)
  · rintro st _ ⟨hst, n, rfl, -⟩
    exact ⟨hst, quiet_sampled e w n⟩

theorem ends_waitForA (fuel : Nat) (w : World) : Imp.Ends (Global.waitForA e fuel) w (fun _ w' => Quiet w w')
    (fun st w' => st = .spin ∧ Quiet w w') := ends_wait e _ fuel w

theorem ends_waitForButtonRelease (fuel : Nat) (w : World) :
    Imp.Ends (Global.waitForButtonRelease e fuel) w (fun _ w' => Quiet w w')
      (fun st w' => st = .spin ∧ Quiet w w') := ends_wait e _ fuel w

/-- `reset` leaves the program. -/
theorem run_reset (code : Int) (w : World) : (Global.reset code).run w =
    .error (.exit code) ((w.log (.print "Exiting with code %02d..." [.int code])).log (.exit code)) := rfl

theorem quiet_reset (code : Int) (w : World) :
    Quiet w ((w.log (.print "Exiting with code %02d..." [.int code])).log (.exit code)) :=
  (quiet_log (by rfl)).trans (quiet_log (by rfl))

/-- `resetAfterPause` never comes back. -/
theorem ends_resetAfterPause (fuel : Nat) (w : World) :
    Imp.Ends (Global.resetAfterPause e fuel) w (fun _ _ => False)
      (fun st w' => (st = .exit 0 ∨ st = .spin) ∧ Quiet w w') := by
  have hspin : ∀ {w₁ w₂ : World} {st : Stop}, Quiet w w₁ → st = .spin ∧ Quiet w₁ w₂ →
      (st = .exit 0 ∨ st = .spin) ∧ Quiet w w₂ := fun h h' => ⟨Or.inr h'.1, h.trans h'.2⟩
  unfold Global.resetAfterPause Logger.print emit
  rw [Imp.ends_bind, Imp.ends_modify, Imp.ends_bind]
  have h₀ : Quiet w (w.log (.print "Press A to exit." [])) := quiet_log (by rfl)
  refine (ends_waitForButtonRelease e fuel _).mono (fun _ w₁ h₁ => ?_) (fun _ _ => hspin h₀)
  rw [Imp.ends_bind]
  refine (ends_waitForA e fuel _).mono (fun _ w₂ h₂ => ?_) (fun _ _ => hspin (h₀.trans h₁))
  rw [Imp.ends_bind]
  refine (ends_waitForButtonRelease e fuel _).mono (fun _ w₃ h₃ => ?_) (fun _ _ => hspin ((h₀.trans h₁).trans h₂))
  rw [Imp.ends_of_error (run_reset 0 w₃)]
  exact ⟨Or.inl rfl, (((h₀.trans h₁).trans h₂).trans h₃).trans (quiet_reset 0 w₃)⟩

/-- **`Logger::error` never comes back.** -/
theorem ends_error (fuel : Nat) (code : Int) (fmt : String) (args : List Arg) (w : World) :
    Imp.Ends (Logger.error e fuel code fmt args) w (fun _ _ => False)
      (fun st w' => (st = .exit 0 ∨ st = .spin) ∧ Quiet (w.log (.errorLine code fmt args)) w') := by
  unfold Logger.error emit
  rw [Imp.ends_bind, Imp.ends_modify]
  exact ends_resetAfterPause e fuel _

/-- An error report leaves the program or is still waiting. -/
theorem run_error (fuel : Nat) (code : Int) (fmt : String) (args : List Arg) (w : World) :
    ∃ w', (Logger.error e fuel code fmt args).run w = .error (.exit 0) w' ∨
      (Logger.error e fuel code fmt args).run w = .error .spin w' := by
  have h := ends_error e fuel code fmt args w
  cases hrun : (Logger.error e fuel code fmt args).run w with
  | ok a w' => exact (h.ok hrun).elim
  | error st w' =>
    rcases (h.error hrun).1 with rfl | rfl
    · exact ⟨w', Or.inl rfl⟩
    · exact ⟨w', Or.inr rfl⟩

end Quiet

end TakeADump
