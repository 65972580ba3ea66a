import TakeADump.Setup.Follows

/-!
# One choice for each press

The menu polls the buttons that are held. It starts at a released sample and waits for the release after every press
that does not leave it, so each of its rounds starts at a sample at which either no button is held or a press begins
(`MenuAt`). By the history of the presses the whole world of the menu is known at each of its samples
(`World.inMenu`): a press shows its choice once, by its first sample, and A toggles the setting once.
-/

namespace TakeADump

/-! ## The choices -/

/-- A choice of the menu. -/
inductive Choice
  | toggle
  | changeFs
  | usb
  | sd
  | reprint
  | exit
  deriving DecidableEq

/-- The choice of a press whose first sample is `buttons`. -/
def choiceOf (buttons : UInt32) : Option Choice :=
  if buttons &&& wpadButtonA ≠ 0 then some .toggle
  else if buttons &&& wpadButtonB ≠ 0 then some .changeFs
  else if buttons &&& wpadButton1 ≠ 0 then some .usb
  else if buttons &&& wpadButton2 ≠ 0 then some .sd
  else if buttons &&& wpadButtonMinus ≠ 0 then some .reprint
  else if buttons &&& wpadButtonPlus ≠ 0 then some .exit
  else none

/-- Choices after which the menu is left. -/
def Choice.leaves : Choice → Bool
  | .usb | .sd | .exit => true
  | .toggle | .changeFs | .reprint => false

/-- The menu as it is printed. -/
def menuText (cancelOnError : Bool) : List Event :=
  [.print "1  Dump disk to %s USB" [.text "FAT32"],
    .print "2  Dump disk to %s SD card" [.text "FAT32"],
    .print "A  Toggle stop on read error (currently: %s)" [.text (if cancelOnError then "ON" else "OFF")],
    .print "B  Change filesystem (currently: %s)" [.text "FAT32"],
    .print "+  Exit" [],
    .print "-  Reprint menu" [],
    .newline]

/-- What a choice shows; `cancelOnError` is the setting after it. -/
def Choice.shows (cancelOnError : Bool) : Choice → List Event
  | .toggle | .changeFs | .reprint => menuText cancelOnError
  | .usb => [.stage (.menuLeft driveUsb fsFat32)]
  | .sd => [.stage (.menuLeft driveSd fsFat32)]
  | .exit => [.print "Exiting with code %02d..." [.int 0], .exit 0]

/-- The world after a choice, the drive left aside. -/
def World.react (w : World) (c : Choice) : World :=
  let cancelOnError := w.cancelOnError ^^ (c = .toggle)
  { w.logs (c.shows cancelOnError) with cancelOnError := cancelOnError }

/-- Without NTFS, B chooses the filesystem there is. -/
theorem nextFs_eq (driveFs : Int) : nextFs driveFs = fsFat32 := rfl

theorem run_menu {w : World} (hfs : w.driveFs = fsFat32) : (do menu; Logger.newline : Prog Unit).run w =
    .ok () (w.logs (menuText w.cancelOnError)) := by
  have hname : fsName w.driveFs = "FAT32" := by rw [hfs]; rfl
  unfold menu Logger.print Logger.newline emit
  simp [World.log, World.logs, menuText, hname]

theorem run_reprint {w : World} (hfs : w.driveFs = fsFat32) :
    (do menu; Logger.newline; pure false : Prog Bool).run w =
      .ok false (w.logs (menuText w.cancelOnError)) := by
  have h : (do menu; Logger.newline; pure false : Prog Bool) =
      ((do menu; Logger.newline : Prog Unit) >>= fun _ => pure false) := by simp
  rw [h, Imp.run_bind_ok (run_menu hfs)]
  rfl

/-- A sample in the menu has at most one choice, and nothing else happens. -/
theorem run_menuAction (buttons : UInt32) {w : World} (hfs : w.driveFs = fsFat32) : (menuAction buttons).run w =
    match choiceOf buttons with
    | none => .ok false w
    | some .usb => .ok true { w with driveType := driveUsb }
    | some .sd => .ok true { w with driveType := driveSd }
    | some .exit => .error (.exit 0) (w.react .exit)
    | some c => .ok false (w.react c) := by
  unfold menuAction choiceOf
  split_ifs with hA hB h1 h2 hminus hplus
  · have htoggle := run_reprint (w := { w with cancelOnError := !w.cancelOnError }) hfs
    exact htoggle.trans (by simp [World.react, World.logs, Choice.shows])
  · rw [Imp.run_modify_bind, run_reprint (nextFs_eq w.driveFs)]
    simp [World.react, World.logs, Choice.shows, nextFs_eq, ← hfs]
  · rfl
  · rfl
  · exact (run_reprint hfs).trans (by simp [World.react, World.logs, Choice.shows])
  · exact (Imp.run_bind_error (run_reset 0 w)).trans (by simp [World.react, Choice.shows, World.log, World.logs])
  · rfl

/-! ## The menu at its samples -/

section History

variable (e : Env)

/-- The presses from sample `a` to sample `n` that begin with A. -/
def Env.togglesIn (a n : Nat) : Nat := (Press.presses e.held a n).countP e.heldA

/-- The setting when the samples from `a` to `n` were taken in the menu. -/
def Env.cancelOnErrorAt (a n : Nat) : Bool := true ^^ decide (e.togglesIn a n % 2 = 1)

/-- What the menu shows from sample `a` to sample `n`: every sample, and for each press its choice. -/
def Env.menuTrace (a n : Nat) : List Event :=
  Press.history e.held e.sampleAt
    (fun i => (choiceOf (e.pad i)).elim [] (Choice.shows (e.cancelOnErrorAt a (i + 1)))) a n

/-- The menu entered in `v`, when the samples before `n` are taken. -/
def World.inMenu (v : World) (n : Nat) : World :=
  { v.logs (e.menuTrace v.samples n) with
    samples := n
    cancelOnError := e.cancelOnErrorAt v.samples n }

@[simp] theorem samples_inMenu (v : World) (n : Nat) : (v.inMenu e n).samples = n := rfl

variable {e} {v : World} {a m n : Nat}

theorem heldA_eq (n : Nat) : e.heldA n = decide (choiceOf (e.pad n) = some .toggle) := by
  unfold Env.heldA choiceOf
  split_ifs with hA <;> simp_all

theorem inMenu_start (h : v.cancelOnError = true) : v.inMenu e v.samples = v := by
  simp [World.inMenu, Env.menuTrace, Env.cancelOnErrorAt, Env.togglesIn, ← h]

/-- Samples at which no press begins leave the menu as it is. -/
theorem sampled_inMenu (ham : v.samples ≤ m) (hmn : m ≤ n)
    (h : ∀ k, m ≤ k → k < n → Press.begins e.held k = false) : (v.inMenu e m).sampled e n = v.inMenu e n := by
  have hcancel : e.cancelOnErrorAt v.samples n = e.cancelOnErrorAt v.samples m := by
    rw [Env.cancelOnErrorAt, Env.togglesIn, Press.presses_wait ham hmn h]
    rfl
  have htrace : e.menuTrace v.samples n = e.menuTrace v.samples m ++
      (List.range' m (n - m)).map e.sampleAt := Press.history_wait ham hmn h
  simp [World.sampled, World.inMenu, World.logs, hcancel, htrace]

/-- The first sample of a press toggles the setting exactly if it has A. -/
theorem cancelOnErrorAt_succ (han : a ≤ n) (hb : Press.begins e.held n = true) :
    e.cancelOnErrorAt a (n + 1) = (e.cancelOnErrorAt a n ^^ decide (choiceOf (e.pad n) = some .toggle)) := by
  have hcount : e.togglesIn a (n + 1) = e.togglesIn a n + if e.heldA n then 1 else 0 := by
    simp [Env.togglesIn, Press.presses_succ han, hb, List.countP_append, List.countP_cons]
  rw [← heldA_eq, Env.cancelOnErrorAt, Env.cancelOnErrorAt, hcount]
  cases e.heldA n with
  | false => simp
  | true =>
    rcases Nat.mod_two_eq_zero_or_one (e.togglesIn a n) with h | h
    · have hsucc : (e.togglesIn a n + 1) % 2 = 1 := by omega
      simp [h, hsucc]
    · have hsucc : (e.togglesIn a n + 1) % 2 = 0 := by omega
      simp [h, hsucc]

/-- The first sample of a press shows its choice. -/
theorem inMenu_succ (han : v.samples ≤ n) (hb : Press.begins e.held n = true) : v.inMenu e (n + 1) =
    (choiceOf (e.pad n)).elim ((v.inMenu e n).sampled e (n + 1)) ((v.inMenu e n).sampled e (n + 1)).react := by
  have hcancel := cancelOnErrorAt_succ (e := e) han hb
  have htrace : e.menuTrace v.samples (n + 1) = e.menuTrace v.samples n ++ e.sampleAt n ::
      (choiceOf (e.pad n)).elim [] (Choice.shows (e.cancelOnErrorAt v.samples (n + 1))) := by
    simp [Env.menuTrace, Press.history_succ han, hb]
  rw [World.inMenu, htrace, hcancel]
  cases hc : choiceOf (e.pad n) with
  | none => simp [World.sampled, World.inMenu, World.logs]
  | some c => simp [World.sampled, World.inMenu, World.logs, World.react]

end History

/-! ## The loop -/

/-- A round of the menu entered in `v` starts at sample `n`. -/
structure MenuAt (e : Env) (v : World) (n : Nat) : Prop where
  le : v.samples ≤ n
  released : ∃ z, n = z + 1 ∧ e.held z = false
  before : ∀ i ∈ Press.presses e.held v.samples n, ∀ c, choiceOf (e.pad i) = some c → c.leaves = false

/-- The press that begins at sample `n` makes the choice `c`. -/
structure MenuPress (e : Env) (v : World) (n : Nat) (c : Choice) : Prop extends MenuAt e v n where
  begins : Press.begins e.held n = true
  choice : choiceOf (e.pad n) = some c

/-- The drive a choice leaves the menu with. -/
def Choice.drive : Choice → Option Int
  | .usb => some driveUsb
  | .sd => some driveSd
  | _ => none

theorem react_drive {c : Choice} {d : Int} (w : World) (h : c.drive = some d) :
    w.react c = w.log (.stage (.menuLeft d fsFat32)) := by
  cases c <;> cases h <;> simp [World.react, World.log, World.logs, Choice.shows]

section Loop

variable {e : Env} {fuel : Nat} {v : World} {n : Nat}

theorem choiceOf_zero : choiceOf 0 = none := by decide

/-- A button that is held at the start of a round begins a press. -/
theorem MenuAt.begins (h : MenuAt e v n) (hheld : e.held n = true) : Press.begins e.held n = true := by
  obtain ⟨z, rfl, hz⟩ := h.released
  rw [Press.begins_succ_of_released hz]
  exact hheld

/-- No button: the next round starts at the next sample. -/
theorem MenuAt.idle (h : MenuAt e v n) (hheld : e.held n = false) :
    (v.inMenu e n).sampled e (n + 1) = v.inMenu e (n + 1) ∧ MenuAt e v (n + 1) := by
  have hbegins := Press.begins_of_released hheld
  have hnone : ∀ k, n ≤ k → k < n + 1 → Press.begins e.held k = false := by
    intro k hk hkn
    rw [show k = n by omega]
    exact hbegins
  refine ⟨sampled_inMenu h.le (Nat.le_succ n) hnone, Nat.le_succ_of_le h.le, ⟨n, rfl, hheld⟩, ?_⟩
  rw [Press.presses_wait h.le (Nat.le_succ n) hnone]
  exact h.before

/-- A press that stays in the menu: the next round starts behind its release. -/
theorem MenuAt.ends_release (h : MenuAt e v n) (hheld : e.held n = true)
    (hstay : ∀ c, choiceOf (e.pad n) = some c → c.leaves = false) :
    Imp.Ends (Global.waitForButtonRelease e fuel) (v.inMenu e (n + 1))
      (fun _ w' => ∃ m, w' = v.inMenu e m ∧ MenuAt e v m) (fun st _ => st = .spin) := by
  refine (ends_waitForButtonRelease_sampled e fuel _).mono ?_ (fun _ _ h' => h'.1)
  rintro _ w' ⟨z, rfl, hz, hrelease, hwait⟩
  have hnz : n + 1 ≤ z := hz
  have hpress : ∀ k, n ≤ k → k < z → e.held k = true := by
    intro k hnk hkz
    rcases Nat.lt_or_eq_of_le hnk with hlt | rfl
    · exact hwait k hlt hkz
    · exact hheld
  have hnone : ∀ k, n + 1 ≤ k → k < z + 1 → Press.begins e.held k = false := by
    intro k hk hkz
    exact Press.begins_wait hpress hk (Nat.le_of_lt_succ hkz)
  have hle : v.samples ≤ n + 1 := Nat.le_succ_of_le h.le
  refine ⟨z + 1, sampled_inMenu hle (by omega) hnone, by omega, ⟨z, rfl, hrelease⟩, ?_⟩
  rw [Press.presses_wait hle (by omega) hnone, Press.presses_succ h.le, h.begins hheld]
  intro i hi
  rcases List.mem_append.1 hi with hi | hi
  · exact h.before i hi
  · obtain rfl : i = n := by simpa using hi
    exact hstay

/-- A sample of the menu: it leaves with a drive, goes on in the menu, or leaves the program. -/
theorem MenuAt.ends_action (h : MenuAt e v n) (hfs : v.driveFs = fsFat32) :
    Imp.Ends (menuAction (e.pad n)) ((v.inMenu e n).sampled e (n + 1))
      (fun left w' => match left with
        | true => ∃ c d, MenuPress e v n c ∧ c.drive = some d ∧
            w' = { (v.inMenu e n).sampled e (n + 1) with driveType := d }
        | false => w' = v.inMenu e (n + 1) ∧ ∀ c, choiceOf (e.pad n) = some c → c.leaves = false)
      (fun st w' => st = .exit 0 ∧ MenuPress e v n .exit ∧ w' = v.inMenu e (n + 1)) := by
  have hrun := run_menuAction (e.pad n) (w := (v.inMenu e n).sampled e (n + 1)) hfs
  by_cases hzero : e.pad n = 0
  · rw [hzero, choiceOf_zero] at hrun ⊢
    rw [Imp.ends_of_ok hrun]
    exact ⟨(h.idle (by simp [Env.held, hzero])).1, by simp⟩
  · have hbegins := h.begins (by simpa [Env.held] using hzero)
    have hsucc := inMenu_succ h.le hbegins
    have hpress : ∀ c, choiceOf (e.pad n) = some c → MenuPress e v n c := fun c hc => ⟨h, hbegins, hc⟩
    cases hc : choiceOf (e.pad n) with
    | none =>
      rw [hc] at hrun hsucc
      rw [Imp.ends_of_ok hrun]
      exact ⟨hsucc.symm, by simp⟩
    | some c =>
      rw [hc] at hrun hsucc
      cases c with
      | usb => exact (Imp.ends_of_ok hrun).2 ⟨.usb, driveUsb, hpress _ hc, rfl, rfl⟩
      | sd => exact (Imp.ends_of_ok hrun).2 ⟨.sd, driveSd, hpress _ hc, rfl, rfl⟩
      | exit => exact (Imp.ends_of_error hrun).2 ⟨rfl, hpress _ hc, hsucc.symm⟩
      | toggle => exact (Imp.ends_of_ok hrun).2 ⟨hsucc.symm, by simp [Choice.leaves]⟩
      | changeFs => exact (Imp.ends_of_ok hrun).2 ⟨hsucc.symm, by simp [Choice.leaves]⟩
      | reprint => exact (Imp.ends_of_ok hrun).2 ⟨hsucc.symm, by simp [Choice.leaves]⟩

/-- **One round.** A press has one choice, however long it is held. -/
theorem MenuAt.ends_round (h : MenuAt e v n) (hfs : v.driveFs = fsFat32) (u : Unit) :
    Imp.Ends (menuRound e fuel u) (v.inMenu e n)
      (fun r w' => match r with
        | .next _ => ∃ m, w' = v.inMenu e m ∧ MenuAt e v m
        | .done _ => ∃ m c d, MenuPress e v m c ∧ c.drive = some d ∧
            w' = { (v.inMenu e m).sampled e (m + 1) with driveType := d })
      (fun st w' => st = .spin ∨ st = .exit 0 ∧ ∃ m, MenuPress e v m .exit ∧ w' = v.inMenu e (m + 1)) := by
  unfold menuRound
  rw [Imp.ends_bind, Imp.ends_of_ok (run_sample e _), Imp.ends_bind, samples_inMenu]
  refine (h.ends_action hfs).mono ?_ ?_
  · rintro (_ | _) w' hleft
    · obtain ⟨rfl, hstay⟩ := hleft
      by_cases hzero : e.pad n = 0
      · -- no button: nothing to wait for
        rw [if_neg (by simp), if_neg (not_not.2 hzero)]
        exact ⟨n + 1, rfl, (h.idle (by simp [Env.held, hzero])).2⟩
      · rw [if_neg (by simp), if_pos hzero, Imp.ends_bind]
        exact (h.ends_release (by simpa [Env.held] using hzero) hstay).mono (fun _ _ h' => h') (fun _ _ => Or.inl)
    · obtain ⟨c, d, hpress, hdrive, rfl⟩ := hleft
      exact ⟨n, c, d, hpress, hdrive, rfl⟩
  · rintro st w' ⟨hst, hpress, rfl⟩
    exact Or.inr ⟨hst, n, hpress, rfl⟩

/-- **The menu loop.** -/
theorem MenuAt.ends_menuLoop (h : MenuAt e v v.samples) (hfs : v.driveFs = fsFat32) (hcancel : v.cancelOnError = true) :
    Imp.Ends (menuLoop e fuel) v
      (fun _ w' => ∃ n c d, MenuPress e v n c ∧ c.drive = some d ∧ w' = { v.inMenu e (n + 1) with driveType := d })
      (fun st w' => st = .spin ∨ st = .exit 0 ∧ ∃ n, MenuPress e v n .exit ∧ w' = v.inMenu e (n + 1)) := by
  unfold menuLoop
  rw [Imp.ends_bind]
  refine (Imp.ends_loop (I := fun _ w' => ∃ m, w' = v.inMenu e m ∧ MenuAt e v m)
    (Q := fun _ w' => ∃ n c d, MenuPress e v n c ∧ c.drive = some d ∧
      w' = { (v.inMenu e n).sampled e (n + 1) with driveType := d }) ?_ (fun _ _ _ => Or.inl rfl) fuel
      ⟨v.samples, (inMenu_start hcancel).symm, h⟩).mono ?_ (fun _ _ => id)
  · rintro u _ ⟨m, rfl, hm⟩
    exact (hm.ends_round hfs u).mono (fun r _ h' => by cases r <;> exact h') (fun _ _ => id)
  · rintro _ _ ⟨n, c, d, hpress, hdrive, rfl⟩
    refine ⟨n, c, d, hpress, hdrive, ?_⟩
    have hsucc := inMenu_succ hpress.le hpress.begins
    rw [hpress.choice, Option.elim_some, react_drive _ hdrive] at hsucc
    rw [hsucc, ← hfs]
    rfl

/-! ## The end of the menu -/

/-- The menu entered in `v` was ended in `w` by the press that begins at sample `n`. -/
structure MenuEnded (e : Env) (v : World) (n : Nat) (w : World) : Prop where
  /-- The menu starts at a released sample. -/
  released : ∃ z, v.samples = z + 1 ∧ e.held z = false
  begins : v.samples ≤ n ∧ Press.begins e.held n = true
  leaves : ∃ c, choiceOf (e.pad n) = some c ∧ c.leaves = true
  stays : ∀ i ∈ Press.presses e.held v.samples n, ∀ c, choiceOf (e.pad i) = some c → c.leaves = false
  samples : w.samples = n + 1
  trace : w.trace = v.trace ++ e.menuTrace v.samples (n + 1)
  cancelOnError : w.cancelOnError = (true ^^ decide (e.togglesIn v.samples (n + 1) % 2 = 1))
  driveFs : w.driveFs = fsFat32
  usb : w.driveType = driveUsb ↔
    e.pad n &&& wpadButtonA = 0 ∧ e.pad n &&& wpadButtonB = 0 ∧ e.pad n &&& wpadButton1 ≠ 0
  sd : w.driveType = driveSd ↔ e.pad n &&& wpadButtonA = 0 ∧ e.pad n &&& wpadButtonB = 0 ∧
    e.pad n &&& wpadButton1 = 0 ∧ e.pad n &&& wpadButton2 ≠ 0

theorem choiceOf_eq_usb (buttons : UInt32) : choiceOf buttons = some .usb ↔
    buttons &&& wpadButtonA = 0 ∧ buttons &&& wpadButtonB = 0 ∧ buttons &&& wpadButton1 ≠ 0 := by
  unfold choiceOf
  split_ifs <;> simp_all

theorem choiceOf_eq_sd (buttons : UInt32) : choiceOf buttons = some .sd ↔ buttons &&& wpadButtonA = 0 ∧
    buttons &&& wpadButtonB = 0 ∧ buttons &&& wpadButton1 = 0 ∧ buttons &&& wpadButton2 ≠ 0 := by
  unfold choiceOf
  split_ifs <;> simp_all

/-- A press that leaves the menu with the drive `d`. -/
theorem MenuPress.ended {c : Choice} {d : Int} (h : MenuPress e v n c) (hv : MenuAt e v v.samples)
    (hfs : v.driveFs = fsFat32) (hleaves : c.leaves = true) (husb : d = driveUsb ↔ c = .usb)
    (hsd : d = driveSd ↔ c = .sd) : MenuEnded e v n { v.inMenu e (n + 1) with driveType := d } where
  released := hv.released
  begins := ⟨h.le, h.begins⟩
  leaves := ⟨c, h.choice, hleaves⟩
  stays := h.before
  samples := rfl
  trace := rfl
  cancelOnError := rfl
  driveFs := hfs
  usb := by
    rw [← choiceOf_eq_usb, h.choice]
    simpa using husb
  sd := by
    rw [← choiceOf_eq_sd, h.choice]
    simpa using hsd

/-- The menu is entered behind the release of the first confirmation. -/
theorem ends_welcome_sampled {w : World} (hfs : w.driveFs = fsFat32) : Imp.Ends (welcome e fuel) w
    (fun _ v => Quiet w v ∧ MenuAt e v v.samples) (fun st _ => st = .spin) := by
  have hquiet : ∀ v, (welcome e fuel).run w = .ok () v → Quiet w v := fun v hrun => (quietly_welcome e fuel w).ok hrun
  suffices h : Imp.Ends (welcome e fuel) w (fun _ v => ∃ z, v.samples = z + 1 ∧ e.held z = false)
      (fun st _ => st = .spin) by
    refine h.run.mono ?_ (fun _ _ => id)
    rintro _ v ⟨hrun, hreleased⟩
    exact ⟨hquiet v hrun, Nat.le_refl _, hreleased, by simp⟩
  have hconfirm : ∀ w₁ : World, w₁.driveFs = fsFat32 →
      Imp.Ends (do confirm e fuel; menu; emit .newline : Prog Unit) w₁
        (fun _ v => ∃ z, v.samples = z + 1 ∧ e.held z = false) (fun st _ => st = .spin) := by
    intro w₁ hfs₁
    rw [Imp.ends_bind]
    refine (ends_confirm_sampled e fuel w₁).mono ?_ (fun _ _ h => h.1)
    rintro _ _ ⟨i, z, rfl, -, -, -, -, hz⟩
    have hmenu := run_menu (w := w₁.sampled e (z + 1)) hfs₁
    exact (Imp.ends_of_ok hmenu).2 ⟨z, rfl, hz⟩
  unfold welcome Logger.print Logger.newline
  iterate 6 rw [ends_emit_bind]
  refine hconfirm _ ?_
  simp only [World.log, hfs]

/-- `main` up to the end of the menu. -/
def toMenuEnd (e : Env) (fuel : Nat) : Prog Unit := do
  welcome e fuel
  menuLoop e fuel

/-- `main` from the end of the menu on. -/
def fromMenuEnd (e : Env) (fuel : Nat) : Prog Unit := do
  insertDrive e fuel
  insertDisk e fuel
  let args ← identify e fuel
  dumpAndLeave e fuel args

theorem main_eq_menu : main e fuel = (do toMenuEnd e fuel; fromMenuEnd e fuel) := by
  simp [main, setUp, toMenuEnd, fromMenuEnd]

/-- **The menu, from the start of the program.** It ends with a drive or leaves the program, by one press. -/
theorem ends_toMenuEnd {w : World} (hw : w.Initial) : Imp.Ends (toMenuEnd e fuel) w
    (fun _ w' => ∃ v n, (welcome e fuel).run w = .ok () v ∧ MenuEnded e v n w' ∧
      (w'.driveType = driveUsb ∨ w'.driveType = driveSd))
    (fun st w' => st = .spin ∨ st = .exit 0 ∧ ∃ v n, (welcome e fuel).run w = .ok () v ∧ MenuEnded e v n w' ∧
      choiceOf (e.pad n) = some .exit) := by
  unfold toMenuEnd
  rw [Imp.ends_bind]
  refine (ends_welcome_sampled hw.driveFs).run.mono ?_ (fun _ _ => Or.inl)
  rintro _ v ⟨hrun, ⟨samples, evs, rfl, -⟩, hat⟩
  refine (hat.ends_menuLoop hw.driveFs hw.cancelOnError).mono ?_ ?_
  · rintro _ _ ⟨n, c, d, hpress, hdrive, rfl⟩
    obtain ⟨hleaves, husb, hsd, hd⟩ : c.leaves = true ∧ (d = driveUsb ↔ c = .usb) ∧ (d = driveSd ↔ c = .sd) ∧
        (d = driveUsb ∨ d = driveSd) := by
      cases c <;> cases hdrive <;> decide
    exact ⟨_, n, hrun, hpress.ended hat hw.driveFs hleaves husb hsd, hd⟩
  · rintro st _ (hst | ⟨hst, n, hpress, rfl⟩)
    · exact Or.inl hst
    · have hnone : ∀ d, d = driveUsb ∨ d = driveSd → w.driveType ≠ d := by
        rintro d (rfl | rfl) <;> rw [hw.driveType] <;> decide
      refine Or.inr ⟨hst, _, n, hrun, hpress.ended hat hw.driveFs rfl ?_ ?_, hpress.choice⟩
      · exact iff_of_false (hnone _ (Or.inl rfl)) (by decide)
      · exact iff_of_false (hnone _ (Or.inr rfl)) (by decide)

end Loop

end TakeADump
