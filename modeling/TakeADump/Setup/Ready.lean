import TakeADump.Setup.Follows

/-!
# `dump` is called only when everything is set up

The steps of `main` before `dump` either return in a world with one more thing settled, or the program is left
(`Halted`): nothing was opened, and after a failed step nothing but an error report follows. The chain starts with the
menu (`ends_menuLoop`), goes on with the mount (`ends_insertDrive`) and the disc (`ends_insertDisk`, `ends_identify`),
and ends in `Ready`, which names the worlds the run went through (`Road`).
-/

namespace TakeADump

/-! ## What the trace says -/

/-- A step of `main` that failed. -/
def Event.fails : Event → Bool
  | .fatMount _ res => res ≠ .returned true
  | .stage (.initialized ret) => ret ≠ 0
  | .stage (.identified diskType) => diskType = isUnkDisk
  | _ => false

/-- The call of `dump`, or what only `dump` does. -/
def Event.dumps : Event → Bool
  | .fopen _ _ | .stage (.dump _ _ _) | .stage (.dumped _) => true
  | _ => false

def Event.mount? : Event → Option (Interface × MountResult)
  | .fatMount iface res => some (iface, res)
  | _ => none

/-- A harmless event is none of these. -/
theorem Event.of_harmless {ev : Event} (h : ev.harmless = true) :
    ev.fails = false ∧ ev.dumps = false ∧ ev.mount? = none := by
  cases ev <;> first | exact ⟨rfl, rfl, rfl⟩ | exact absurd h (by simp [Event.harmless, Event.quiet])

/-- Nothing failed and nothing was opened so far. -/
structure Clear (w : World) : Prop where
  streams : w.streams = []
  fails : ∀ ev ∈ w.trace, ev.fails = false
  dumps : ∀ ev ∈ w.trace, ev.dumps = false

/-- The program was left, or is waiting, without a call of `dump`, and after a failed step only an error report
followed. -/
structure Halted (st : Stop) (w : World) : Prop where
  stop : st ≠ .fault
  streams : w.streams = []
  dumps : ∀ ev ∈ w.trace, ev.dumps = false
  last : ∀ pre ev post, w.trace = pre ++ ev :: post → ev.fails = true → ∀ x ∈ post, x.quiet = true

section Clear

variable {w w' : World} {st : Stop} {ev : Event}

theorem Clear.log (h : Clear w) (hfails : ev.fails = false) (hdumps : ev.dumps = false) : Clear (w.log ev) :=
  ⟨h.streams, List.forall_mem_append.2 ⟨h.fails, by simpa using hfails⟩,
    List.forall_mem_append.2 ⟨h.dumps, by simpa using hdumps⟩⟩

theorem Clear.follows (h : Clear w) (hf : Follows w w') : Clear w' := by
  obtain ⟨evs, htrace, hev⟩ := hf.trace
  refine ⟨hf.streams.trans h.streams, ?_, ?_⟩
  · rw [htrace]
    exact List.forall_mem_append.2 ⟨h.fails, fun x hx => (Event.of_harmless (hev x hx)).1⟩
  · rw [htrace]
    exact List.forall_mem_append.2 ⟨h.dumps, fun x hx => (Event.of_harmless (hev x hx)).2.1⟩

/-- Stopping between two steps. -/
theorem Clear.halted (h : Clear w) (hst : st ≠ .fault) : Halted st w := by
  refine ⟨hst, h.streams, h.dumps, fun pre ev post htrace hfails => ?_⟩
  rw [h.fails ev (by simp [htrace])] at hfails
  cases hfails

/-- Where a list goes on after an element that cannot occur before `a`. -/
theorem mem_after {α : Type} {P : α → Prop} {l r pre post : List α} {a b : α} (hl : ∀ x ∈ l, ¬ P x) (hb : P b)
    (heq : l ++ a :: r = pre ++ b :: post) : ∀ x ∈ post, x ∈ r := by
  intro x hx
  rcases List.append_eq_append_iff.1 heq with ⟨m, -, htail⟩ | ⟨m, hl', htail⟩
  · cases m with
    | nil =>
      cases htail
      exact hx
    | cons c m =>
      cases htail
      simp [hx]
  · cases m with
    | nil =>
      cases htail
      exact hx
    | cons c m =>
      cases htail
      exact absurd hb (hl b (by simp [hl']))

/-- Stopping in the report of a step that failed. -/
theorem Clear.halted_of_fails (h : Clear w) (hdumps : ev.dumps = false) (hq : Quiet (w.log ev) w')
    (hst : st ≠ .fault) : Halted st w' := by
  obtain ⟨n, evs, rfl, hquiet⟩ := hq
  have htrace : (w.log ev).trace ++ evs = w.trace ++ ev :: evs := by simp [World.log]
  refine ⟨hst, h.streams, ?_, ?_⟩
  · show ∀ x ∈ (w.log ev).trace ++ evs, x.dumps = false
    rw [htrace]
    refine List.forall_mem_append.2 ⟨h.dumps, List.forall_mem_cons.2 ⟨hdumps, fun x hx => ?_⟩⟩
    exact (Event.of_harmless (x.harmless_of_quiet (hquiet x hx))).2.1
  · intro pre b post heq hfails x hx
    have hbefore : ∀ x ∈ w.trace, ¬ x.fails = true := fun x hx => by simp [h.fails x hx]
    exact hquiet x (mem_after hbefore hfails (htrace.symm.trans heq) x hx)

/-- A harmless statement, continued from where it returns. -/
theorem Clear.next {α β : Type} {x : Prog α} {f : α → Prog β} {Q : β → World → Prop} (h : Clear w) (hx : Harmless x)
    (hf : ∀ a w', Follows w w' → Imp.Ends (f a) w' Q Halted) : Imp.Ends (x >>= f) w Q Halted :=
  hx.then (fun _ _ hst hF => (h.follows hF).halted hst) hf

end Clear

/-! ## The menu -/

/-- In the menu. -/
structure InMenu (w : World) : Prop extends Clear w where
  mounts : w.trace.filterMap Event.mount? = []
  fs : w.driveFs = fsFat32

theorem mounts_follows {w w' : World} (hf : Follows w w') :
    w'.trace.filterMap Event.mount? = w.trace.filterMap Event.mount? := by
  obtain ⟨evs, htrace, hev⟩ := hf.trace
  have hnone : evs.filterMap Event.mount? = [] :=
    List.filterMap_eq_nil_iff.2 fun ev hmem => (Event.of_harmless (hev ev hmem)).2.2
  rw [htrace, List.filterMap_append, hnone, List.append_nil]

theorem InMenu.follows {w w' : World} (h : InMenu w) (hf : Follows w w') : InMenu w' :=
  ⟨h.toClear.follows hf, (mounts_follows hf).trans h.mounts, hf.driveFs.trans h.fs⟩

/-- The sample picks the drive. -/
def Picks (buttons : UInt32) (driveType : Int) : Prop :=
  buttons &&& wpadButtonA = 0 ∧ buttons &&& wpadButtonB = 0 ∧
    if buttons &&& wpadButton1 ≠ 0 then driveType = driveUsb else buttons &&& wpadButton2 ≠ 0 ∧ driveType = driveSd

theorem Picks.drive {buttons : UInt32} {driveType : Int} (h : Picks buttons driveType) :
    driveType = driveUsb ∨ driveType = driveSd := by
  obtain ⟨-, -, h⟩ := h
  split at h
  · exact Or.inl h
  · exact Or.inr h.2

section Menu

variable (e : Env) (fuel : Nat)

/-- The menu is printed again. -/
theorem ends_reprint {w : World} (h : InMenu w) : Imp.Ends (do menu; Logger.newline; pure false : Prog Bool) w
    (fun left w' => InMenu w' ∧ left = false) Halted := by
  refine h.toClear.next quietly_menu.harmless fun _ w₁ h₁ => ?_
  exact ⟨(h.follows h₁).follows (quiet_log (by rfl)).follows, rfl⟩

/-- What a sample does in the menu. -/
theorem ends_menuAction (buttons : UInt32) {w : World} (h : InMenu w) : Imp.Ends (menuAction buttons) w
    (fun left w' => InMenu w' ∧ (left = true → Picks buttons w'.driveType ∧ w'.trace = w.trace)) Halted := by
  have hreprint : ∀ {w' : World}, InMenu w' → Imp.Ends (do menu; Logger.newline; pure false : Prog Bool) w'
      (fun left w'' => InMenu w'' ∧ (left = true → Picks buttons w''.driveType ∧ w''.trace = w.trace)) Halted :=
    fun h' => (ends_reprint h').mono (fun _ _ h'' => ⟨h''.1, fun ht => by simp [h''.2] at ht⟩) (fun _ _ => id)
  unfold menuAction
  split_ifs with hA hB h1 h2 hminus hplus
  · -- A: the setting changes
    unfold Global.setCancelOnError
    rw [Imp.ends_bind, Imp.ends_get, Imp.ends_bind, Imp.ends_modify]
    exact hreprint ⟨⟨h.streams, h.fails, h.dumps⟩, h.mounts, h.fs⟩
  · -- B: without NTFS the filesystem stays
    rw [Imp.ends_bind, Imp.ends_modify]
    exact hreprint ⟨⟨h.streams, h.fails, h.dumps⟩, h.mounts, rfl⟩
  · rw [Imp.ends_bind, Imp.ends_modify]
    refine ⟨⟨⟨h.streams, h.fails, h.dumps⟩, h.mounts, h.fs⟩, fun _ => ⟨?_, rfl⟩⟩
    exact ⟨not_not.1 hA, not_not.1 hB, by rw [if_pos h1]⟩
  · rw [Imp.ends_bind, Imp.ends_modify]
    refine ⟨⟨⟨h.streams, h.fails, h.dumps⟩, h.mounts, h.fs⟩, fun _ => ⟨?_, rfl⟩⟩
    exact ⟨not_not.1 hA, not_not.1 hB, by rw [if_neg h1]; exact ⟨h2, rfl⟩⟩
  · exact hreprint h
  · rw [Imp.ends_bind, Imp.ends_of_error (run_reset 0 w)]
    exact (h.toClear.follows (quiet_reset 0 w).follows).halted (by simp)
  · exact ⟨h, by simp⟩

/-- The last sample left the menu. -/
structure LeftMenu (w : World) : Prop extends InMenu w where
  picked : ∃ buttons, Picks buttons w.driveType ∧ [.sample buttons] <:+ w.trace

theorem ends_menuRound (u : Unit) {w : World} (h : InMenu w) : Imp.Ends (menuRound e fuel u) w
    (fun r w' => match r with
      | .next _ => InMenu w'
      | .done _ => LeftMenu w') Halted := by
  have hsample := (quiet_sample e w).follows
  unfold menuRound
  rw [Imp.ends_bind, Imp.ends_of_ok (run_getControllerButtonsPressed e w), Imp.ends_bind]
  refine (ends_menuAction (e.pad w.samples) (h.follows hsample)).mono ?_ (fun _ _ => id)
  rintro left w' ⟨h', hleft⟩
  cases left with
  | true =>
    obtain ⟨hpick, htrace⟩ := hleft rfl
    exact ⟨h', e.pad w.samples, hpick, by rw [htrace]; exact List.suffix_append _ _⟩
  | false =>
    by_cases hzero : e.pad w.samples ≠ 0
    · simp only [Bool.false_eq_true, if_false, if_pos hzero]
      exact h'.toClear.next (quietly_waitForButtonRelease e fuel).harmless fun _ w'' hf => h'.follows hf
    · simp only [Bool.false_eq_true, if_false, if_neg hzero]
      exact h'

/-- The menu was left with a drive. -/
structure Chosen (mounts : List (Interface × MountResult)) (w : World) : Prop extends Clear w where
  mounts : w.trace.filterMap Event.mount? = mounts
  fs : w.driveFs = fsFat32
  picked : ∃ buttons, Picks buttons w.driveType ∧
    [.sample buttons, .stage (.menuLeft w.driveType fsFat32)] <:+: w.trace

/-- **The menu.** -/
theorem ends_menuLoop {w : World} (h : InMenu w) :
    Imp.Ends (menuLoop e fuel) w (fun _ w' => Chosen [] w') Halted := by
  unfold menuLoop
  rw [Imp.ends_bind]
  refine (Imp.ends_loop (I := fun _ w' => InMenu w') (Q := fun _ w' => LeftMenu w') ?_
    (fun _ _ h' => h'.toClear.halted (by simp)) fuel h).mono ?_ (fun _ _ => id)
  · intro u w' h'
    exact (ends_menuRound e fuel u h').mono (fun r _ h'' => by cases r <;> exact h'') (fun _ _ => id)
  rintro _ w' ⟨h', buttons, hpick, pre, htrace⟩
  unfold enter emit
  rw [Imp.ends_bind, Imp.ends_get, Imp.ends_modify, h'.fs]
  refine ⟨h'.toClear.log rfl rfl, ?_, h'.fs, buttons, hpick, pre, [], ?_⟩
  · exact List.filterMap_append.trans (by rw [h'.mounts]; rfl)
  · simp [World.log, ← htrace]

end Menu

section Steps

variable {e : Env} {fuel : Nat} {mounts : List (Interface × MountResult)} {w w' : World}

theorem Chosen.follows (h : Chosen mounts w) (hf : Follows w w') : Chosen mounts w' := by
  obtain ⟨buttons, hpick, hinfix⟩ := h.picked
  obtain ⟨evs, htrace, -⟩ := hf.trace
  refine ⟨h.toClear.follows hf, (mounts_follows hf).trans h.mounts, hf.driveFs.trans h.fs, buttons, ?_, ?_⟩
  · rw [hf.driveType]
    exact hpick
  · rw [hf.driveType, htrace]
    exact hinfix.trans (List.prefix_append _ _).isInfix

/-- A step that is not a mount is recorded. -/
theorem Chosen.log {ev : Event} (h : Chosen mounts w) (hfails : ev.fails = false) (hdumps : ev.dumps = false)
    (hmount : ev.mount? = none) : Chosen mounts (w.log ev) := by
  obtain ⟨buttons, hpick, hinfix⟩ := h.picked
  refine ⟨h.toClear.log hfails hdumps, ?_, h.fs, buttons, hpick, ?_⟩
  · exact List.filterMap_append.trans (by simp [h.mounts, hmount])
  · exact hinfix.trans (List.prefix_append _ _).isInfix

/-! ## The drive -/

/-- A step that reports an error from a world where something failed. -/
theorem Clear.ends_error_fails {α : Type} {ev : Event} (h : Clear w) (hdumps : ev.dumps = false) {w₁ : World}
    (hq : Quiet (w.log ev) w₁) (code : Int) (fmt : String) (args : List Arg) {f : Unit → Prog α}
    {Q : α → World → Prop} : Imp.Ends (Logger.error e fuel code fmt args >>= f) w₁ Q Halted := by
  rw [Imp.ends_bind]
  refine (ends_error_quiet e fuel code fmt args w₁).mono (fun _ _ => False.elim) ?_
  rintro st w₂ ⟨hst, h₂⟩
  exact h.halted_of_fails hdumps (hq.trans h₂) hst

/-- The mount of one interface, with its exceptions. -/
theorem ends_mount (h : Clear w) (iface : Interface) :
    Imp.Ends (do mountRetOf e fuel (← fatMountSimple e iface)) w
      (fun ret w' => ∃ ok, w' = w.log (.fatMount iface (.returned ok)) ∧ ret = if ok then 1 else 0) Halted := by
  unfold fatMountSimple emit mountRetOf
  rw [Imp.ends_bind, Imp.ends_bind, Imp.ends_modify, Imp.ends_pure]
  cases hres : e.mount iface with
  | returned ok => exact ⟨ok, rfl, rfl⟩
  | exception what => exact h.ends_error_fails rfl (Quiet.refl _) _ _ _
  | unknownException => exact h.ends_error_fails rfl (Quiet.refl _) _ _ _

def interfaceOf (driveType : Int) : Interface := if driveType = driveSd then .wiisd else .usbstorage

/-- The check of `mountRet`. -/
theorem ends_checkMount (h : Chosen [] w) (iface : Interface) (ok : Bool) (hiface : iface = interfaceOf w.driveType) :
    Imp.Ends (if (if ok then 1 else 0 : Int) = 0 then
        Logger.error e fuel (if ok then 1 else 0) "Unable to mount drive." [] else pure ())
      (w.log (.fatMount iface (.returned ok)))
      (fun _ w' => Chosen [(interfaceOf w'.driveType, .returned true)] w') Halted := by
  cases ok with
  | true =>
    obtain ⟨buttons, hpick, hinfix⟩ := h.picked
    refine ⟨h.toClear.log rfl rfl, ?_, h.fs, buttons, hpick, hinfix.trans (List.prefix_append _ _).isInfix⟩
    rw [World.log, List.filterMap_append, h.mounts, hiface]
    rfl
  | false =>
    refine (ends_error_quiet e fuel 0 "Unable to mount drive." [] _).mono (fun _ _ => False.elim) ?_
    rintro st w' ⟨hst, hq⟩
    exact h.toClear.halted_of_fails rfl hq hst

theorem ends_mountDrive (h : Chosen [] w) : Imp.Ends (mountDrive e fuel) w
    (fun _ w' => Chosen [(interfaceOf w'.driveType, .returned true)] w') Halted := by
  obtain ⟨buttons, hpick, -⟩ := h.picked
  unfold mountDrive mountFat32 tryMount
  rw [Imp.ends_bind, Imp.ends_get, if_pos h.fs, Imp.ends_bind, Imp.ends_bind, Imp.ends_get]
  rcases hpick.drive with husb | hsd
  · rw [if_neg (by rw [husb]; decide), if_pos husb]
    refine (ends_mount h.toClear .usbstorage).mono ?_ (fun _ _ => id)
    rintro ret w' ⟨ok, rfl, rfl⟩
    exact ends_checkMount h .usbstorage ok (by rw [husb]; rfl)
  · rw [if_pos hsd]
    refine (ends_mount h.toClear .wiisd).mono ?_ (fun _ _ => id)
    rintro ret w' ⟨ok, rfl, rfl⟩
    exact ends_checkMount h .wiisd ok (by rw [hsd]; rfl)

/-- **The mount.** -/
theorem ends_insertDrive (h : Chosen [] w) : Imp.Ends (insertDrive e fuel) w
    (fun _ w' => Chosen [(interfaceOf w'.driveType, .returned true)] w') Halted := by
  unfold insertDrive Logger.print
  rw [Imp.ends_bind, Imp.ends_get]
  refine h.toClear.next (quietly_emit (by rfl)).harmless fun _ w₁ h₁ => ?_
  refine (h.follows h₁).toClear.next (quietly_confirm e fuel).harmless fun _ w₂ h₂ => ?_
  rw [Imp.ends_bind]
  refine (ends_mountDrive (h.follows (h₁.trans h₂))).mono (fun _ w₃ h₃ => ?_) (fun _ _ => id)
  exact h₃.log rfl rfl rfl

/-! ## The disc -/

/-- The prompt for the disc, up to the call of `initialize_disk`. -/
def diskPrompt (e : Env) (fuel : Nat) : Prog Unit := do
  Logger.print "Insert your %s now, and press A." [.text "game disk"]
  confirm e fuel

/-- The prompt between the identification and the call of `dump`. -/
def dumpPrompt (e : Env) (fuel : Nat) : Prog Unit := do
  Logger.print "Press A to start dumping." []
  Logger.print "Press Home or Reset to exit." []
  confirm e fuel

/-- `main` up to the mounted drive. -/
def untilMounted (e : Env) (fuel : Nat) : Prog Unit := do
  welcome e fuel
  menuLoop e fuel
  insertDrive e fuel

/-- The disc of the run that came to the mounted drive in `w`: `initialize_disk` is called in `w₁` and comes back with 0
in `w₂`. -/
structure Finds (e : Env) (fuel : Nat) (w w₁ w₂ : World) : Prop where
  asked : (diskPrompt e fuel).run w = .ok () w₁
  found : (initializeDisk e fuel).run w₁ = .ok 0 w₂

/-- The run of `main` from `w` to the call of `dump` with `args` in `w'`. From the mounted drive on, `initialize_disk` is
called in `w₁` and comes back with 0 in `w₂`, and `identify_disk` is called there with the disc and comes back with its
type in `w₃`. -/
structure Road (e : Env) (fuel : Nat) (w w₀ w₁ w₂ w₃ : World) (args : DumpArgs) (w' : World) : Prop
    extends Finds e fuel w₀ w₁ w₂ where
  mounted : (untilMounted e fuel).run w = .ok () w₀
  disk : args.disk = w₂.globalDiskId
  identified : (identifyDisk e args.disk).run (w₂.log (.stage (.initialized 0))) = .ok args.diskType w₃
  confirmed : (dumpPrompt e fuel).run (w₃.log (.stage (.identified args.diskType))) = .ok () w'

/-- **The disc is inserted.** -/
theorem ends_insertDisk (h : Chosen mounts w) : Imp.Ends (insertDisk e fuel) w (fun _ w' => Chosen mounts w' ∧
    w'.driveType = w.driveType ∧ w'.globalDiskId ≠ none ∧
      ∃ w₁ w₂, Finds e fuel w w₁ w₂ ∧ w' = w₂.log (.stage (.initialized 0))) Halted := by
  have hprompt : Harmless (diskPrompt e fuel) :=
    Imp.within_bind (quietly_emit (by rfl)).harmless fun _ => (quietly_confirm e fuel).harmless
  have hsplit : insertDisk e fuel = (do
      diskPrompt e fuel
      let initRet ← initializeDisk e fuel
      enter (.initialized initRet)
      if initRet ≠ 0 then Logger.error e fuel initRet "Unable to initialize disk." [] : Prog Unit) := by
    unfold insertDisk diskPrompt
    rw [bind_assoc]
  rw [hsplit, Imp.ends_bind]
  refine (hprompt w).run.mono ?_ fun _ _ h' => (h.follows h'.2).toClear.halted h'.1
  rintro _ w₁ ⟨hrun₁, h₁⟩
  rw [Imp.ends_bind]
  refine (ends_initializeDisk_follows e fuel w₁).run.mono ?_
    (fun _ _ h' => (h.follows (h₁.trans h'.2)).toClear.halted h'.1)
  rintro ret w₂ ⟨hrun₂, h₂, hdisk⟩
  replace h₂ := h₁.trans h₂
  have hc := h.follows h₂
  unfold enter emit
  rw [Imp.ends_bind, Imp.ends_modify]
  by_cases hret : ret = 0
  · rw [if_neg (not_not.2 hret)]
    refine ⟨hc.log (by simp [Event.fails, hret]) rfl rfl, h₂.driveType, hdisk hret, w₁, w₂,
      ⟨hrun₁, hret ▸ hrun₂⟩, by rw [hret]⟩
  · rw [if_pos hret]
    refine (ends_error_quiet e fuel ret "Unable to initialize disk." [] _).mono (fun _ _ => False.elim) ?_
    rintro st w' ⟨hst, hq⟩
    exact hc.toClear.halted_of_fails rfl hq hst

/-- Everything `dump` needs is settled in the run of `main` from `w`. -/
structure Ready (e : Env) (fuel : Nat) (w : World) (args : DumpArgs) (w' : World) : Prop
    extends Chosen [(interfaceOf w'.driveType, .returned true)] w' where
  road : ∃ w₀ w₁ w₂ w₃, Road e fuel w w₀ w₁ w₂ w₃ args w'
  disk : args.disk ≠ none
  known : args.diskType ≠ isUnkDisk
  size : args.size = getDiskSizeBytes args.diskType
  size_pos : 0 < args.size.toNat

theorem ends_identify {w₀ w₁ w₂ : World} (h : Chosen [(interfaceOf w'.driveType, .returned true)] w')
    (hmount : (untilMounted e fuel).run w = .ok () w₀)
    (hfinds : Finds e fuel w₀ w₁ w₂) (hlog : w' = w₂.log (.stage (.initialized 0))) (hdisk : w'.globalDiskId ≠ none) :
    Imp.Ends (identify e fuel) w' (fun args v => Ready e fuel w args v) Halted := by
  obtain ⟨d, hd⟩ := Option.ne_none_iff_exists'.1 hdisk
  have hprompt : Harmless (dumpPrompt e fuel) :=
    Imp.within_bind (quietly_emit (by rfl)).harmless fun _ =>
      Imp.within_bind (quietly_emit (by rfl)).harmless fun _ => (quietly_confirm e fuel).harmless
  have hsplit : identify e fuel = (do
      let disk ← getDiskId
      let type ← identifyDisk e disk
      enter (.identified type)
      if type = isUnkDisk then Logger.error e fuel (-1) "Disk is unknown." []
      dumpPrompt e fuel
      pure ⟨disk, type, getDiskSizeBytes type⟩ : Prog DumpArgs) := by
    unfold identify dumpPrompt
    simp only [bind_assoc]
  rw [hsplit]
  unfold getDiskId enter
  rw [Imp.ends_bind, Imp.ends_bind, Imp.ends_get, Imp.ends_pure, hd, Imp.ends_bind]
  refine (ends_identifyDisk e d w').run.mono ?_ (fun _ _ => False.elim)
  rintro diskType w₃ ⟨hrun, htype, h₃⟩
  have hc := h.follows h₃
  unfold emit
  rw [Imp.ends_bind, Imp.ends_modify]
  by_cases hunk : diskType = isUnkDisk
  · rw [if_pos hunk]
    exact hc.toClear.ends_error_fails rfl (Quiet.refl _) _ _ _
  · rw [if_neg hunk]
    have hfails : (Event.stage (.identified diskType)).fails = false := by simp [Event.fails, hunk]
    have hready := hc.log hfails rfl rfl
    rw [Imp.ends_bind]
    refine (hprompt _).run.mono ?_ fun _ _ h' => (hready.follows h'.2).toClear.halted h'.1
    rintro _ v ⟨hconfirm, hv⟩
    have hroad : Road e fuel w w₀ w₁ w₂ w₃ ⟨some d, diskType, getDiskSizeBytes diskType⟩ v :=
      ⟨hfinds, hmount, by rw [← hd, hlog]; rfl, hlog ▸ hrun, hconfirm⟩
    have hdrive : v.driveType = w'.driveType := hv.driveType.trans h₃.driveType
    refine ⟨?_, ⟨w₀, w₁, w₂, w₃, hroad⟩, nofun, hunk, rfl, htype.size_pos hunk⟩
    rw [hdrive]
    exact hready.follows hv

/-- **`main` up to the call of `dump`.** It comes to a ready world, or is left before. -/
theorem ends_setUp_ready (hw : w.Initial) :
    Imp.Ends (setUp e fuel) w (fun args w' => Ready e fuel w args w') Halted := by
  have hclear : Clear w := ⟨hw.streams, by simp [hw.trace], by simp [hw.trace]⟩
  have hmenu : InMenu w := ⟨hclear, by simp [hw.trace], hw.driveFs⟩
  have hmount : Imp.Ends (untilMounted e fuel) w
      (fun _ w' => Chosen [(interfaceOf w'.driveType, .returned true)] w') Halted := by
    unfold untilMounted
    refine hclear.next (quietly_welcome e fuel).harmless fun _ w₁ h₁ => ?_
    rw [Imp.ends_bind]
    refine (ends_menuLoop e fuel (hmenu.follows h₁)).mono (fun _ w₂ h₂ => ?_) (fun _ _ => id)
    exact ends_insertDrive h₂
  have hsplit : setUp e fuel = (do
      untilMounted e fuel
      insertDisk e fuel
      identify e fuel : Prog DumpArgs) := by
    unfold setUp untilMounted
    simp only [bind_assoc]
  rw [hsplit, Imp.ends_bind]
  refine hmount.run.mono ?_ (fun _ _ => id)
  rintro _ w₀ ⟨hrun, h₀⟩
  rw [Imp.ends_bind]
  refine (ends_insertDisk h₀).mono ?_ (fun _ _ => id)
  rintro _ w' ⟨h', hdrive, hdisk, w₁, w₂, hfinds, hlog⟩
  rw [← hdrive] at h'
  exact ends_identify h' hrun hfinds hlog hdisk

end Steps

end TakeADump
