import TakeADump.Drive.Poll
import TakeADump.Setup.Menu
import TakeADump.Session.Main
import TakeADump.Session.Steady

/-!
# Waits for a patient user

A patient user presses A again and again, releases all buttons again and again, and again and again begins a press
with a choice that leaves the menu. With such a user every wait of the program ends (`run_wait`, `comes_menuLoop`), and
so do the steps of `main` up to the search for the disc (`Comes`). `Exit.lean` goes on from there.
-/

namespace TakeADump

/-- The user presses, releases and chooses again and again. -/
structure Env.Patient (e : Env) : Prop where
  confirms : ∀ n, ∃ m ≥ n, e.heldA m = true
  releases : ∀ n, ∃ m ≥ n, e.held m = false
  leaves : ∀ n, ∃ m ≥ n, e.held m = false ∧ ∃ c, choiceOf (e.pad (m + 1)) = some c ∧ c.leaves = true

variable {e : Env}

/-! ## Waits -/

/-- A wait with enough rounds ends behind the first sample it waits for. -/
theorem run_wait {p : UInt32 → Bool} {fuel i : Nat} {w : World} (hle : w.samples ≤ i) (hi : p (e.pad i) = true)
    (hbefore : ∀ k, w.samples ≤ k → k < i → p (e.pad k) = false) (hfuel : i < fuel + w.samples) :
    (Imp.loop Stop.spin (Global.waitRound e p) fuel ()).run w = .ok () (w.sampled e (i + 1)) := by
  induction fuel generalizing w with
  | zero => omega
  | succ fuel ih =>
    have hsample := run_sample e w
    by_cases hp : p (e.pad w.samples) = true
    · obtain rfl : w.samples = i := by
        by_contra hne
        rw [hbefore w.samples (Nat.le_refl _) (by omega)] at hp
        cases hp
      refine Imp.loop_done ?_
      unfold Global.waitRound
      rw [Imp.run_bind_ok hsample, if_pos hp]
      rfl
    · have hlt : w.samples < i := Nat.lt_of_le_of_ne hle fun heq => hp (by rw [heq]; exact hi)
      have hround : (Global.waitRound e p ()).run w = .ok (.next ()) (w.sampled e (w.samples + 1)) := by
        unfold Global.waitRound
        rw [Imp.run_bind_ok hsample, if_neg hp]
        rfl
      rw [Imp.loop_next hround, ih (w := w.sampled e (w.samples + 1)) hlt
        (fun k hk => hbefore k (Nat.le_of_succ_le hk)) (by rw [samples_sampled]; omega),
        sampled_sampled e (Nat.le_succ _) (by omega)]

/-- The first sample from `n` on. -/
theorem exists_first_from {p : Nat → Prop} [DecidablePred p] {n : Nat} (h : ∃ m ≥ n, p m) :
    ∃ i, n ≤ i ∧ p i ∧ ∀ k, n ≤ k → k < i → ¬ p k :=
  ⟨Nat.find h, (Nat.find_spec h).1, (Nat.find_spec h).2, fun _ hk hlt hp => Nat.find_min h hlt ⟨hk, hp⟩⟩

theorem Env.Patient.firstA (he : e.Patient) (n : Nat) :
    ∃ i, n ≤ i ∧ e.heldA i = true ∧ ∀ k, n ≤ k → k < i → e.heldA k = false := by
  obtain ⟨i, hn, hi, hbefore⟩ := exists_first_from (he.confirms n)
  exact ⟨i, hn, hi, fun k hk hlt => Bool.eq_false_iff.2 (hbefore k hk hlt)⟩

theorem Env.Patient.firstRelease (he : e.Patient) (n : Nat) :
    ∃ i, n ≤ i ∧ e.held i = false ∧ ∀ k, n ≤ k → k < i → e.held k = true := by
  obtain ⟨i, hn, hi, hbefore⟩ := exists_first_from (he.releases n)
  exact ⟨i, hn, hi, fun k hk hlt => by simpa using hbefore k hk hlt⟩

theorem run_waitForA {fuel i : Nat} {w : World} (hle : w.samples ≤ i) (hi : e.heldA i = true)
    (hbefore : ∀ k, w.samples ≤ k → k < i → e.heldA k = false) (hfuel : i < fuel + w.samples) :
    (Global.waitForA e fuel).run w = .ok () (w.sampled e (i + 1)) := run_wait hle hi hbefore hfuel

theorem run_waitForButtonRelease {fuel i : Nat} {w : World} (hle : w.samples ≤ i) (hi : e.held i = false)
    (hbefore : ∀ k, w.samples ≤ k → k < i → e.held k = true) (hfuel : i < fuel + w.samples) :
    (Global.waitForButtonRelease e fuel).run w = .ok () (w.sampled e (i + 1)) := by
  refine run_wait hle (decide_eq_true ?_) (fun k hk hlt => decide_eq_false ?_) hfuel
  · simpa [Env.held] using hi
  · simpa [Env.held] using hbefore k hk hlt

/-- Leaving takes as many rounds as the samples ask for. -/
theorem exists_resetAfterPause (he : e.Patient) (n : Nat) : ∃ fuel, ∀ w : World, w.samples = n →
    ∃ w', (Global.resetAfterPause e fuel).run w = .error (.exit 0) w' := by
  obtain ⟨i₁, h₁, hr₁, hb₁⟩ := he.firstRelease n
  obtain ⟨i₂, h₂, hr₂, hb₂⟩ := he.firstA (i₁ + 1)
  obtain ⟨i₃, h₃, hr₃, hb₃⟩ := he.firstRelease (i₂ + 1)
  refine ⟨i₃ + 1, ?_⟩
  rintro w rfl
  unfold Global.resetAfterPause Logger.print
  rw [Imp.run_bind_ok (Job.run_emit _ w),
    Imp.run_bind_ok (run_waitForButtonRelease (w := w.log _) h₁ hr₁ hb₁ (by omega)),
    Imp.run_bind_ok (run_waitForA h₂ hr₂ hb₂ (by omega)),
    Imp.run_bind_ok (run_waitForButtonRelease h₃ hr₃ hb₃ (by omega)), run_reset]
  exact ⟨_, rfl⟩

theorem exists_error (he : e.Patient) (n : Nat) : ∃ fuel, ∀ (w : World) (code : Int) (fmt : String) (args : List Arg),
    w.samples = n → ∃ w', (Logger.error e fuel code fmt args).run w = .error (.exit 0) w' := by
  obtain ⟨fuel, h⟩ := exists_resetAfterPause he n
  refine ⟨fuel, fun w code fmt args hn => ?_⟩
  unfold Logger.error
  rw [Imp.run_bind_ok (Job.run_emit _ w)]
  exact h _ hn

/-! ## Programs that come to an end -/

/-- The filesystem, and what was asked of the drive. -/
def asked (w : World) : Int × Nat × Nat × Nat × Int := (w.driveFs, w.queries, w.opens, w.ioctls, w.diFd)

/-- With enough rounds a run ends, and where it returns nothing was asked of the drive. -/
structure Comes {α : Type} (p : Nat → Prog α) : Prop where
  steady : Steady p
  ever : ∀ w, w.driveFs = fsFat32 → Imp.Ever Stop.spin p w (fun _ w' => asked w' = asked w) fun _ _ => True

section Comes

variable {α β : Type} {p q : Nat → Prog α}

theorem comes_bind {f : Nat → α → Prog β} (hp : Comes p) (hf : ∀ a, Comes fun n => f n a) :
    Comes fun n => p n >>= f n where
  steady := Imp.steady_bind hp.steady fun a => (hf a).steady
  ever w hw := (hp.ever w hw).bind hp.steady (fun a => (hf a).steady) fun a w₁ h₁ =>
    ((hf a).ever w₁ ((congrArg Prod.fst h₁).trans hw)).mono (fun _ _ h₂ => h₂.trans h₁) fun _ _ _ => trivial

theorem comes_ite {c : Prop} [Decidable c] (hp : c → Comes p) (hq : ¬c → Comes q) :
    Comes fun n => if c then p n else q n := by
  by_cases h : c
  · simpa only [if_pos h] using hp h
  · simpa only [if_neg h] using hq h

/-- A program without loops that leaves the drive alone. -/
theorem comes_const {x : Prog α}
    (h : ∀ w, Imp.Ends x w (fun _ w' => asked w' = asked w) fun st _ => st ≠ .spin) : Comes fun _ => x where
  steady := Imp.steady_const x
  ever w _ := Imp.ever_const ((h w).mono (fun _ _ => id) fun _ _ hst => ⟨hst, trivial⟩)

theorem comes_emit (ev : Event) : Comes fun _ => emit ev := comes_const fun _ => rfl

theorem comes_get_bind {f : Nat → World → Prog β} (hf : ∀ w, Comes fun n => f n w) : Comes fun n => get >>= f n :=
  comes_bind (comes_const fun _ => rfl) hf

theorem comes_pure (a : α) : Comes fun _ => (pure a : Prog α) := comes_const fun _ => rfl

theorem comes_waitForButtonRelease (he : e.Patient) : Comes (Global.waitForButtonRelease e) where
  steady := steady_waitForButtonRelease e
  ever w _ := by
    obtain ⟨i, hle, hi, hbefore⟩ := he.firstRelease w.samples
    exact ⟨i + 1, (Imp.ends_of_ok (run_waitForButtonRelease hle hi hbefore (by omega))).2 rfl⟩

theorem comes_confirm (he : e.Patient) : Comes (confirm e) := by
  refine comes_bind ⟨steady_waitForA e, fun w _ => ?_⟩ fun _ => comes_waitForButtonRelease he
  obtain ⟨i, hle, hi, hbefore⟩ := he.firstA w.samples
  exact ⟨i + 1, (Imp.ends_of_ok (run_waitForA hle hi hbefore (by omega))).2 rfl⟩

theorem ever_error (he : e.Patient) (code : Int) (fmt : String) (args : List Arg) (w : World)
    {Q : Unit → World → Prop} :
    Imp.Ever Stop.spin (fun fuel => Logger.error e fuel code fmt args) w Q fun _ _ => True := by
  obtain ⟨fuel, h⟩ := exists_error he w.samples
  obtain ⟨w', hrun⟩ := h w code fmt args rfl
  exact ⟨fuel, (Imp.ends_of_error hrun).2 ⟨by simp, trivial⟩⟩

theorem comes_error (he : e.Patient) (code : Int) (fmt : String) (args : List Arg) :
    Comes fun fuel => Logger.error e fuel code fmt args :=
  ⟨steady_error e code fmt args, fun w _ => ever_error he _ _ _ w⟩

/-! ## The menu -/

theorem comes_menu : Comes fun _ => menu := by
  refine comes_get_bind fun w => ?_
  iterate 5 refine comes_bind (comes_emit _) fun _ => ?_
  exact comes_emit _

theorem comes_welcome (he : e.Patient) : Comes (welcome e) := by
  iterate 6 refine comes_bind (comes_emit _) fun _ => ?_
  refine comes_bind (comes_confirm he) fun _ => comes_bind comes_menu fun _ => comes_emit _

/-- What a sample in the menu comes to: a choice that leaves it does so. -/
theorem ends_menuAction_leaves (buttons : UInt32) {w : World} (hfs : w.driveFs = fsFat32) :
    Imp.Ends (menuAction buttons) w (fun left w' => asked w' = asked w ∧ w'.samples = w.samples ∧
        ((∃ c, choiceOf buttons = some c ∧ c.leaves = true) → left = true)) fun st _ => st ≠ .spin ∧ True := by
  have hrun := run_menuAction buttons hfs
  cases hc : choiceOf buttons with
  | none =>
    rw [hc] at hrun
    exact (Imp.ends_of_ok hrun).2 ⟨rfl, rfl, by simp⟩
  | some c =>
    rw [hc] at hrun
    cases c with
    | usb => exact (Imp.ends_of_ok hrun).2 ⟨rfl, rfl, fun _ => rfl⟩
    | sd => exact (Imp.ends_of_ok hrun).2 ⟨rfl, rfl, fun _ => rfl⟩
    | exit => exact (Imp.ends_of_error hrun).2 ⟨by simp, trivial⟩
    | toggle => exact (Imp.ends_of_ok hrun).2 ⟨rfl, rfl, by simp [Choice.leaves]⟩
    | changeFs => exact (Imp.ends_of_ok hrun).2 ⟨rfl, rfl, by simp [Choice.leaves]⟩
    | reprint => exact (Imp.ends_of_ok hrun).2 ⟨rfl, rfl, by simp [Choice.leaves]⟩

/-- A round of the menu takes its sample, and more while buttons are held; at a press that leaves the menu it ends. -/
theorem ever_menuRound (he : e.Patient) {w : World} (hfs : w.driveFs = fsFat32) {m : Nat} (hm : e.held m = false)
    (hleave : ∃ c, choiceOf (e.pad (m + 1)) = some c ∧ c.leaves = true) (hle : w.samples ≤ m + 1) :
    Imp.Ever Stop.spin (fun fuel => menuRound e fuel ()) w (fun r w' => match r with
      | .next _ => asked w' = asked w ∧ w.samples < w'.samples ∧ w'.samples ≤ m + 1
      | .done _ => asked w' = asked w) fun _ _ => True := by
  refine Imp.ever_bind_const (Q := fun buttons w' => buttons = e.pad w.samples ∧ w' = w.sampled e (w.samples + 1))
    (fun buttons => Imp.steady_bind (Imp.steady_const _) fun left => ?_)
    ((Imp.ends_of_ok (run_sample e w)).2 ⟨rfl, rfl⟩) ?_
  · refine Imp.steady_ite (fun _ => Imp.steady_const _) fun _ => Imp.steady_ite (fun _ => ?_) fun _ =>
      Imp.steady_const _
    exact Imp.steady_bind (steady_waitForButtonRelease e) fun _ => Imp.steady_const _
  · rintro _ _ ⟨rfl, rfl⟩
    refine Imp.ever_bind_const (fun left => ?_)
      (ends_menuAction_leaves (e.pad w.samples) (w := w.sampled e (w.samples + 1)) hfs) ?_
    · refine Imp.steady_ite (fun _ => Imp.steady_const _) fun _ => Imp.steady_ite (fun _ => ?_) fun _ =>
        Imp.steady_const _
      exact Imp.steady_bind (steady_waitForButtonRelease e) fun _ => Imp.steady_const _
    · rintro left w' ⟨hasked, hsamples, hleft⟩
      cases left with
      | true => exact ⟨0, hasked⟩
      | false =>
        have hlt : w.samples < m + 1 := by
          refine Nat.lt_of_le_of_ne hle fun heq => ?_
          rw [heq] at hleft
          cases hleft hleave
        by_cases hzero : e.pad w.samples ≠ 0
        · obtain ⟨i, hi, hrelease, hbefore⟩ := he.firstRelease w'.samples
          have hne : w.samples ≠ m := fun heq => hzero (by simpa [Env.held, heq] using hm)
          have him : i ≤ m := by
            by_contra hgt
            rw [samples_sampled] at hsamples
            rw [hbefore m (by omega) (by omega)] at hm
            cases hm
          refine ⟨i + 1, ?_⟩
          simp only [Bool.false_eq_true, if_false, if_pos hzero]
          rw [Imp.ends_bind, Imp.ends_of_ok (run_waitForButtonRelease hi hrelease hbefore (by omega))]
          rw [samples_sampled] at hsamples
          exact ⟨hasked, by simp; omega, by simp; omega⟩
        · refine ⟨0, ?_⟩
          simp only [Bool.false_eq_true, if_false, if_neg hzero]
          rw [samples_sampled] at hsamples
          exact ⟨hasked, by omega, by omega⟩

theorem comes_menuLoop (he : e.Patient) : Comes (menuLoop e) := by
  refine comes_bind ⟨Imp.steady_loop (steady_menuRound e) (), fun w hfs => ?_⟩ fun _ =>
    comes_get_bind fun w => comes_emit _
  obtain ⟨m, hm, hrelease, hleave⟩ := he.leaves w.samples
  refine Imp.ever_loop (steady_menuRound e) (I := fun _ w' => asked w' = asked w ∧ w'.samples ≤ m + 1)
    (fun _ w' => m + 1 - w'.samples) ?_ ⟨rfl, by omega⟩
  rintro _ w₁ ⟨hasked, hle⟩
  refine (ever_menuRound he ((congrArg Prod.fst hasked).trans hfs) hrelease hleave hle).mono ?_ fun _ _ => id
  rintro (_ | _) w₂ h₂
  · exact ⟨⟨h₂.1.trans hasked, h₂.2.2⟩, by omega⟩
  · exact h₂.trans hasked

/-! ## The drive -/

theorem comes_fatMountSimple (iface : Interface) : Comes fun _ => fatMountSimple e iface :=
  comes_bind (comes_emit _) fun _ => comes_pure _

theorem comes_mountRetOf (he : e.Patient) (res : MountResult) : Comes fun fuel => mountRetOf e fuel res := by
  cases res with
  | returned ok => exact comes_pure _
  | exception what => exact comes_bind (comes_error he _ _ _) fun _ => comes_pure _
  | unknownException => exact comes_bind (comes_error he _ _ _) fun _ => comes_pure _

theorem comes_mountDrive (he : e.Patient) : Comes (mountDrive e) := by
  refine comes_get_bind fun w => comes_ite (fun _ => ?_) fun _ =>
    comes_ite (fun _ => comes_error he _ _ _) fun _ => comes_error he _ _ _
  refine comes_bind (comes_get_bind fun w => ?_) fun mountRet =>
    comes_ite (fun _ => comes_error he _ _ _) fun _ => comes_pure _
  refine comes_ite (fun _ => ?_) fun _ => comes_ite (fun _ => ?_) fun _ => ?_
  · exact comes_bind (comes_fatMountSimple _) fun res => comes_mountRetOf he res
  · exact comes_bind (comes_fatMountSimple _) fun res => comes_mountRetOf he res
  · exact comes_bind (comes_error he _ _ _) fun _ => comes_pure _

theorem comes_insertDrive (he : e.Patient) : Comes (insertDrive e) := by
  refine comes_get_bind fun w => comes_bind (comes_emit _) fun _ => comes_bind (comes_confirm he) fun _ => ?_
  exact comes_bind (comes_mountDrive he) fun _ => comes_emit _

end Comes

end TakeADump
