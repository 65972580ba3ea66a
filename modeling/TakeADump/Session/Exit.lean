import TakeADump.Session.Patience

/-!
# Every session comes to an end

With a patient user `main` waits for nothing but the disc: the search for it ends where the polling does
(`ever_initializeDisk`), the copy ends for every disc (`ever_dump`), and the ways out end. So with enough rounds `main`
is left by `exit(0)`, and with more rounds it does the same (`main_comes_to_exit`).
-/

namespace TakeADump

variable {e : Env} {w w' : World}

/-! ## The disc -/

/-- The polling ends: there is no disc, or a valid header is met some day. -/
def PollEnds (e : Env) (w : World) : Prop := ReportsNoDisk e w ∨ SomeDayValid e w

theorem pollEnds_of_asked (h : asked w' = asked w) : PollEnds e w' ↔ PollEnds e w := by
  simp only [asked, Prod.mk.injEq] at h
  obtain ⟨-, hqueries, hopens, hioctls, hfd⟩ := h
  rw [PollEnds, PollEnds, ReportsNoDisk, ReportsNoDisk, SomeDayValid, SomeDayValid, hqueries, hopens, hioctls, hfd]

theorem ever_initializeDisk (h : PollEnds e w) :
    Imp.Ever Stop.spin (initializeDisk e) w (fun _ _ => True) fun _ _ => True := by
  rcases h with hnone | ⟨hopen, m, hm⟩
  · exact ⟨0, ends_initializeDisk (fun _ _ _ _ _ => trivial) fun hdisc => absurd hnone hdisc⟩
  · classical
    have hfound := (IdState.found_iff e w.idState).2 ⟨hopen, m, hm⟩
    refine ⟨Nat.find hfound + (0 + 2), ends_initializeDisk (fun _ _ _ _ _ => trivial)
      fun _ regs k hard readCmd rs _ => ?_⟩
    exact (ends_pollAndReadId_of_found (w := w.polled regs k hard readCmd rs) (Nat.find_spec hfound)
      (fun k hk => Nat.find_min hfound hk) 0).mono (fun _ _ h => h) fun _ _ h => h.elim

/-- The search keeps the filesystem. -/
theorem ends_initializeDisk_fs (fuel : Nat) : Imp.Ends (initializeDisk e fuel) w
    (fun _ w' => w'.driveFs = w.driveFs) fun _ _ => True :=
  (driveOnly_initializeDisk e fuel w).mono (fun _ _ h => h.keeps World.driveFs fun _ => rfl) fun _ _ _ => trivial

theorem ever_insertDisk (he : e.Patient) (hfs : w.driveFs = fsFat32) (h : PollEnds e w) :
    Imp.Ever Stop.spin (insertDisk e) w (fun _ w' => w'.driveFs = fsFat32) fun _ _ => True := by
  have hprompt : Comes fun fuel => (do
      Logger.print "Insert your %s now, and press A." [.text "game disk"]
      confirm e fuel : Prog Unit) := comes_bind (comes_emit _) fun _ => comes_confirm he
  have hrest : ∀ initRet, Steady fun fuel => (do
      enter (.initialized initRet)
      if initRet ≠ 0 then Logger.error e fuel initRet "Unable to initialize disk." [] : Prog Unit) := fun initRet =>
    Imp.steady_bind (Imp.steady_const _) fun _ =>
      Imp.steady_ite (fun _ => steady_error e _ _ _) fun _ => Imp.steady_const _
  have hsplit : insertDisk e = fun fuel => (do
      Logger.print "Insert your %s now, and press A." [.text "game disk"]
      confirm e fuel : Prog Unit) >>= fun _ => initializeDisk e fuel >>= fun initRet => (do
        enter (.initialized initRet)
        if initRet ≠ 0 then Logger.error e fuel initRet "Unable to initialize disk." [] : Prog Unit) := by
    funext fuel
    simp [insertDisk]
  rw [hsplit]
  refine (hprompt.ever w hfs).bind hprompt.steady
    (fun _ => Imp.steady_bind (steady_initializeDisk e) hrest) fun _ w₁ h₁ => ?_
  have hfs₁ : w₁.driveFs = fsFat32 := (congrArg Prod.fst h₁).trans hfs
  refine ((ever_initializeDisk ((pollEnds_of_asked h₁).2 h)).and_ends fun fuel => ends_initializeDisk_fs fuel).bind
    (steady_initializeDisk e) hrest ?_ |>.mono (fun _ _ => id) fun _ _ _ => trivial
  rintro initRet w₂ ⟨-, hfs₂⟩
  have hfs₂' : (w₂.log (.stage (.initialized initRet))).driveFs = fsFat32 := hfs₂.trans hfs₁
  refine Imp.ever_bind_const (Q := fun _ w' => w'.driveFs = fsFat32)
    (fun _ => Imp.steady_ite (fun _ => steady_error e _ _ _) fun _ => Imp.steady_const _)
    ((Imp.ends_of_ok (Job.run_emit _ w₂)).2 hfs₂') fun _ w₃ hfs₃ => ?_
  by_cases hret : initRet ≠ 0
  · simp only [if_pos hret]
    exact (ever_error he _ _ _ w₃).mono (fun _ _ => id) fun _ _ _ => ⟨trivial, trivial⟩
  · simp only [if_neg hret]
    exact ⟨0, hfs₃⟩

/-- The probe has no loop, and keeps the filesystem. -/
theorem ends_identifyDisk_fs (disk : Option Region) : Imp.Ends (identifyDisk e disk) w
    (fun _ w' => w'.driveFs = w.driveFs) fun st _ => st ≠ .spin ∧ True := by
  cases disk with
  | none => exact (Imp.ends_of_error (show (identifyDisk e none).run w = .error .fault w from rfl)).2 ⟨by simp, trivial⟩
  | some d =>
    refine (ends_identifyDisk_drives e d w).mono (fun _ _ h => ?_) fun _ _ h => h.elim
    exact h.keeps World.driveFs fun _ => rfl

theorem ever_identify (he : e.Patient) (hfs : w.driveFs = fsFat32) :
    Imp.Ever Stop.spin (identify e) w (fun _ _ => True) fun _ _ => True := by
  have hprompt : ∀ (disk : Option Region) (type : Int), Comes fun fuel => (do
      Logger.print "Press A to start dumping." []
      Logger.print "Press Home or Reset to exit." []
      confirm e fuel
      pure ⟨disk, type, getDiskSizeBytes type⟩ : Prog DumpArgs) := by
    intro disk type
    refine comes_bind (comes_emit _) fun _ => comes_bind (comes_emit _) fun _ => ?_
    exact comes_bind (comes_confirm he) fun _ => comes_pure _
  have hrest : ∀ (disk : Option Region) (type : Int), Comes fun fuel => (do
      enter (.identified type)
      if type = isUnkDisk then Logger.error e fuel (-1) "Disk is unknown." []
      Logger.print "Press A to start dumping." []
      Logger.print "Press Home or Reset to exit." []
      confirm e fuel
      pure ⟨disk, type, getDiskSizeBytes type⟩ : Prog DumpArgs) := by
    intro disk type
    refine comes_bind (comes_emit _) fun _ => comes_ite (fun _ => ?_) fun _ => hprompt disk type
    exact comes_bind (comes_error he _ _ _) fun _ => hprompt disk type
  refine Imp.ever_bind_const (Q := fun _ w' => w' = w)
    (fun disk => Imp.steady_bind (Imp.steady_const _) fun type => (hrest disk type).steady) ?_ ?_
  · exact (Imp.ends_of_ok (show (getDiskId).run w = .ok w.globalDiskId w from rfl)).2 rfl
  · rintro disk _ rfl
    refine Imp.ever_bind_const (fun type => (hrest disk type).steady) (ends_identifyDisk_fs disk) fun type w₁ h₁ => ?_
    exact ((hrest disk type).ever w₁ (h₁.trans hfs)).mono (fun _ _ _ => trivial) fun _ _ => id

theorem ever_setUp (he : e.Patient) (hfs : w.driveFs = fsFat32) (h : PollEnds e w) :
    Imp.Ever Stop.spin (setUp e) w (fun _ _ => True) fun _ _ => True := by
  have hdisk : Steady fun fuel => (do
      insertDisk e fuel
      identify e fuel : Prog DumpArgs) := Imp.steady_bind (steady_insertDisk e) fun _ => steady_identify e
  have hchoice : Comes fun fuel => (do
      welcome e fuel
      menuLoop e fuel
      insertDrive e fuel : Prog Unit) :=
    comes_bind (comes_welcome he) fun _ => comes_bind (comes_menuLoop he) fun _ => comes_insertDrive he
  have hsplit : setUp e = fun fuel => (do
      welcome e fuel
      menuLoop e fuel
      insertDrive e fuel : Prog Unit) >>= fun _ => (do
        insertDisk e fuel
        identify e fuel : Prog DumpArgs) := by
    funext fuel
    simp [setUp]
  rw [hsplit]
  refine (hchoice.ever w hfs).bind hchoice.steady (fun _ => hdisk) fun _ w₁ h₁ => ?_
  have hfs₁ : w₁.driveFs = fsFat32 := (congrArg Prod.fst h₁).trans hfs
  exact (ever_insertDisk he hfs₁ ((pollEnds_of_asked h₁).2 h)).bind (steady_insertDisk e) (fun _ => steady_identify e)
    fun _ w₂ hfs₂ => ever_identify he hfs₂

/-! ## The copy -/

/-- **Every dump ends.** Only a cancelled one waits at all: for the user to leave. -/
theorem ever_dump (he : e.Patient) (diskType : Int) (size : UInt64) (w : World) :
    Imp.Ever Stop.spin (fun fuel => dump e fuel (some .localId) diskType size) w (fun _ _ => True)
      fun _ _ => True := by
  cases hmem : e.memalign with
  | false => exact ⟨0, (Imp.ends_of_ok (Job.run_dump_memalign 0 hmem _ _)).2 trivial⟩
  | true =>
    have hended := Job.ended_dump (e := e) 0 w diskType size hmem
    cases hrun : (dump e 0 (some .localId) diskType size).run w with
    | ok ret w' => exact ⟨0, (Imp.ends_of_ok hrun).2 trivial⟩
    | error st w' =>
      rw [hrun] at hended
      cases hended with
      | home => exact ⟨0, (Imp.ends_of_error hrun).2 ⟨by simp, trivial⟩⟩
      | @unreadable k _ _ _ hk hpre hhalt _ _ _ _ =>
        -- with enough rounds the user leaves the report
        obtain ⟨fuel, herror⟩ := exists_error he (w.samples + k)
        obtain ⟨ret, w₁, hc, hrun₁⟩ := Job.run_dump_unreadable fuel w diskType hmem hk hpre hhalt
        have hsamples : w₁.samples = w.samples + k := by
          rw [hc.samples, show ((Job.enter e w size).atUnreadable k).samples = k from Job.point_samples _ k]
          rfl
        obtain ⟨w₂, hrun₂⟩ := herror w₁ ret "Unrecovered read error." [] hsamples
        exact ⟨fuel, (Imp.ends_of_error (hrun₁ _ _ hrun₂)).2 ⟨by simp, trivial⟩⟩

theorem ever_dumpAndLeave (he : e.Patient) (diskType : Int) (size : UInt64) (w : World) :
    Imp.Ever Stop.spin (fun fuel => dumpAndLeave e fuel ⟨some .localId, diskType, size⟩) w (fun _ _ => True)
      fun _ _ => True := by
  have hrest : ∀ dumpRet, Steady fun fuel => (do
      enter (.dumped dumpRet)
      if dumpRet ≠ 0 then Logger.error e fuel dumpRet "Dump failed." [] else Global.resetAfterPause e fuel :
        Prog Unit) := fun dumpRet =>
    Imp.steady_bind (Imp.steady_const _) fun _ =>
      Imp.steady_ite (fun _ => steady_error e _ _ _) fun _ => steady_resetAfterPause e
  refine Imp.ever_bind_const (fun _ => Imp.steady_bind (steady_dump e _ _ _) hrest)
    (Q := fun _ _ => True) ((Imp.ends_of_ok (Job.run_emit _ w)).2 trivial) fun _ w₁ _ => ?_
  refine (ever_dump he diskType size w₁).bind (steady_dump e _ _ _) hrest fun dumpRet w₂ _ => ?_
  refine Imp.ever_bind_const
    (fun _ => Imp.steady_ite (fun _ => steady_error e _ _ _) fun _ => steady_resetAfterPause e)
    (Q := fun _ _ => True) ((Imp.ends_of_ok (Job.run_emit _ w₂)).2 trivial) fun _ w₃ _ => ?_
  by_cases hret : dumpRet ≠ 0
  · simp only [if_pos hret]
    exact ever_error he _ _ _ w₃
  · simp only [if_neg hret]
    obtain ⟨fuel, h⟩ := exists_resetAfterPause he w₃.samples
    obtain ⟨w', hrun⟩ := h w₃ rfl
    exact ⟨fuel, (Imp.ends_of_error hrun).2 ⟨by simp, trivial⟩⟩

/-! ## The program -/

/-- With enough rounds `main` is over. -/
theorem ever_main (he : e.Patient) (hw : w.Initial) (h : PollEnds e w) :
    Imp.Ever Stop.spin (main e) w (fun _ _ => True) fun _ _ => True := by
  refine Imp.Ever.bind (Q := fun args _ => ∃ stop w₀, Session.Set stop args w₀) (steady_setUp e)
    (fun args => steady_dumpAndLeave e args) ?_ ?_
  · refine ((ever_setUp he hw.driveFs h).and_ends fun fuel => Session.ends_setUp hw).mono ?_ fun _ _ _ => trivial
    rintro args w₁ ⟨-, stop, hset⟩
    exact ⟨stop, w₁, hset⟩
  · rintro ⟨disk, diskType, size⟩ w₁ ⟨stop, w₀, hset⟩
    obtain rfl : disk = some .localId := hset.disk
    exact ever_dumpAndLeave he diskType size w₁

/-- **Every session comes to an end.** With a patient user and a polling that ends, whatever the drive, the disc and the
medium do: if it is followed for enough rounds, `main` is left by `exit(0)`, and it does not change with more rounds. -/
theorem main_comes_to_exit (he : e.Patient) (hw : w.Initial) (hpoll : ReportsNoDisk e w ∨ SomeDayValid e w) :
    ∃ n w', ∀ fuel ≥ n, (main e fuel).run w = .error (.exit 0) w' := by
  obtain ⟨n, r, hrun, hr⟩ :=
    ((ever_main he hw hpoll).and_ends fun fuel => Session.ends_main hw).run_eq (steady_main e)
  cases r with
  | ok u w' => exact hr.2.elim
  | error st w' =>
    obtain ⟨hne, -, q, -, ⟨rfl, -⟩ | ⟨hspin, -⟩⟩ := hr
    · exact ⟨n, w', hrun⟩
    · exact absurd hspin hne

/-- A user who presses A and 1 in turn, and a Wii disc. -/
def patientEnv : Env :=
  { Env.calm bareWiiHeader with
    pad := fun n => if n % 4 = 0 then wpadButtonA else if n % 4 = 2 then wpadButton1 else 0 }

theorem patient_patientEnv : patientEnv.Patient where
  confirms n := ⟨4 * n, by omega, by simp [Env.heldA, patientEnv]; decide⟩
  releases n := ⟨4 * n + 1, by omega, by simp [Env.held, patientEnv]⟩
  leaves n := by
    have hpad : patientEnv.pad (4 * n + 1 + 1) = wpadButton1 := by
      show (if (4 * n + 1 + 1) % 4 = 0 then wpadButtonA else if (4 * n + 1 + 1) % 4 = 2 then wpadButton1 else 0) = _
      rw [if_neg (by omega), if_pos (by omega)]
    refine ⟨4 * n + 1, by omega, by simp [Env.held, patientEnv], .usb, ?_, rfl⟩
    rw [hpad]
    decide

theorem main_comes_to_exit_wii : ∃ n w', ∀ fuel ≥ n, (main patientEnv fuel).run wiiWorld = .error (.exit 0) w' := by
  refine main_comes_to_exit patient_patientEnv (initial_boot (fun _ => bareWiiHeader) fun _ => none) (Or.inr ?_)
  refine ⟨Or.inr ⟨0, by decide⟩, 0, by decide, bareWiiHeader, rfl, Or.inl (by decide)⟩

end TakeADump
