import TakeADump.Wait.Quiet
import TakeADump.Drive.Effects

/-!
# What the steps of `main` leave alone

Everything `main` calls before `dump` prints, waits or talks to the drive. `Follows` bounds what it may change: not the
chosen drive and filesystem, not the streams, and the trace by `harmless` events only. The drive functions stay inside
this frame for every environment (`ends_initializeDisk_follows`, `ends_identifyDisk`).
-/

namespace TakeADump

/-- Events of a run that neither mounts, opens, nor goes on to another stage. -/
def Event.harmless : Event → Bool
  | .request _ | .dcInvalidate _ _ | .finished _ | .ioctl => true
  | ev => ev.quiet

theorem Event.harmless_of_quiet {ev : Event} (h : ev.quiet = true) : ev.harmless = true := by
  cases ev <;> first | rfl | exact h

structure Follows (w w' : World) : Prop where
  driveType : w'.driveType = w.driveType
  driveFs : w'.driveFs = w.driveFs
  streams : w'.streams = w.streams
  trace : ∃ evs, w'.trace = w.trace ++ evs ∧ ∀ ev ∈ evs, ev.harmless = true

theorem Follows.refl (w : World) : Follows w w := ⟨rfl, rfl, rfl, [], by simp, by simp⟩

theorem Follows.trans {w₁ w₂ w₃ : World} (h : Follows w₁ w₂) (h' : Follows w₂ w₃) : Follows w₁ w₃ := by
  obtain ⟨evs, htrace, hev⟩ := h.trace
  obtain ⟨evs', htrace', hev'⟩ := h'.trace
  refine ⟨h'.driveType.trans h.driveType, h'.driveFs.trans h.driveFs, h'.streams.trans h.streams, evs ++ evs', ?_, ?_⟩
  · rw [htrace', htrace, List.append_assoc]
  · intro ev hmem
    rcases List.mem_append.1 hmem with hmem | hmem
    · exact hev ev hmem
    · exact hev' ev hmem

/-- The frame of waits and error reports. -/
def quietFrame : Imp.Frame World := ⟨Quiet, Quiet.refl, Quiet.trans⟩

def followsFrame : Imp.Frame World := ⟨Follows, Follows.refl, Follows.trans⟩

theorem Quiet.follows {w w' : World} (h : Quiet w w') : Follows w w' := by
  obtain ⟨n, evs, rfl, hq⟩ := h
  exact ⟨rfl, rfl, rfl, evs, rfl, fun ev hev => ev.harmless_of_quiet (hq ev hev)⟩

/-- A run of `x` that prints, waits and leaves. -/
abbrev Quietly {α : Type} (x : Prog α) : Prop := Imp.Within quietFrame (· ≠ Stop.fault) x

/-- A run of `x` that, besides, talks to the drive. -/
abbrev Harmless {α : Type} (x : Prog α) : Prop := Imp.Within followsFrame (· ≠ Stop.fault) x

theorem Quietly.harmless {α : Type} {x : Prog α} (h : Quietly x) : Harmless x :=
  h.mono Quiet.follows (fun _ => id)

theorem quietly_emit {ev : Event} (h : ev.quiet = true) : Quietly (emit ev) :=
  Imp.within_modify fun _ => quiet_log h

variable (e : Env)

/-! ## Waits and prompts -/

theorem quietly_waitForA (fuel : Nat) : Quietly (Global.waitForA e fuel) :=
  fun w => (ends_waitForA e fuel w).mono (fun _ _ h => h) (fun _ _ h => ⟨by simp [h.1], h.2⟩)

theorem quietly_waitForButtonRelease (fuel : Nat) : Quietly (Global.waitForButtonRelease e fuel) :=
  fun w => (ends_waitForButtonRelease e fuel w).mono (fun _ _ h => h) (fun _ _ h => ⟨by simp [h.1], h.2⟩)

theorem quietly_confirm (fuel : Nat) : Quietly (confirm e fuel) :=
  Imp.within_bind (quietly_waitForA e fuel) fun _ => quietly_waitForButtonRelease e fuel

theorem quietly_menu : Quietly menu := by
  unfold menu Logger.print
  refine Imp.within_get_bind fun w => ?_
  iterate 5 refine Imp.within_bind (quietly_emit (by rfl)) fun _ => ?_
  exact quietly_emit (by rfl)

theorem quietly_welcome (fuel : Nat) : Quietly (welcome e fuel) := by
  unfold welcome Logger.print Logger.newline
  iterate 6 refine Imp.within_bind (quietly_emit (by rfl)) fun _ => ?_
  refine Imp.within_bind (quietly_confirm e fuel) fun _ => ?_
  exact Imp.within_bind quietly_menu fun _ => quietly_emit (by rfl)

/-- An error report does not come back, and changes nothing else. -/
theorem ends_error_quiet (fuel : Nat) (code : Int) (fmt : String) (args : List Arg) (w : World) :
    Imp.Ends (Logger.error e fuel code fmt args) w (fun _ _ => False) (fun st w' => st ≠ .fault ∧ Quiet w w') := by
  refine (ends_error e fuel code fmt args w).mono (fun _ _ => id) ?_
  rintro st w' ⟨rfl | rfl, h⟩
  · exact ⟨by simp, (quiet_log rfl).trans h⟩
  · exact ⟨by simp, (quiet_log rfl).trans h⟩

/-! ## The drive -/

theorem Drives.follows {p : Event → Bool} {w w' : World} (h : Drives p w w')
    (hp : ∀ ev, p ev = true → ev.harmless = true) : Follows w w' := by
  obtain ⟨evs, htrace, hev⟩ := h.trace
  exact ⟨h.keeps World.driveType fun _ => rfl, h.keeps World.driveFs fun _ => rfl, h.keeps World.streams fun _ => rfl,
    evs, htrace, fun ev hmem => hp ev (hev ev hmem)⟩

theorem Event.harmless_of_finding (ev : Event) (h : ev.finding = true) : ev.harmless = true := by
  cases ev <;> first | rfl | exact absurd h (by simp [Event.finding])

theorem Event.harmless_of_reading (ev : Event) (h : ev.reading = true) : ev.harmless = true := by
  cases ev <;> first | rfl | exact absurd h (by simp [Event.reading])

theorem DriveOnly.harmless {α : Type} {x : Prog α} (h : DriveOnly Event.finding x) : Harmless x :=
  h.mono (fun h => h.follows Event.harmless_of_finding) (fun st hst => by simp [hst])

/-- What `initialize_disk` returns zero for leaves a disc behind. -/
theorem ends_pollAndReadId_follows (fuel : Nat) (w : World) : Imp.Ends (pollAndReadId e fuel) w
    (fun r w' => Follows w w' ∧ (r = 0 → w'.globalDiskId ≠ none)) (fun st w' => st ≠ .fault ∧ Follows w w') := by
  unfold pollAndReadId
  refine (driveOnly_poll e fuel).harmless.then (fun _ _ hst h => ⟨hst, h⟩) fun _ w₁ h₁ => ?_
  refine (driveOnly_readDvdId e).harmless.then (fun _ _ hst h => ⟨hst, h₁.trans h⟩) fun diskId w₂ h₂ => ?_
  rw [Imp.ends_bind, Imp.ends_modify]
  have h : Follows w { w₂ with globalDiskId := diskId } :=
    (Follows.trans h₁ h₂).trans ⟨rfl, rfl, rfl, [], by simp, by simp⟩
  cases diskId with
  | none => exact ⟨h, by simp⟩
  | some r => exact ⟨h, by simp⟩

theorem follows_polled (w : World) (regs : Nat → UInt32) (n : Nat) (hard readCmd : UInt32) {rs : List Request}
    (hrs : Finding rs) : Follows w (w.polled regs n hard readCmd rs) :=
  (drives_polled w regs n hard readCmd hrs).follows Event.harmless_of_finding

theorem ends_initializeDisk_follows (fuel : Nat) (w : World) : Imp.Ends (initializeDisk e fuel) w
    (fun r w' => Follows w w' ∧ (r = 0 → w'.globalDiskId ≠ none)) (fun st w' => st ≠ .fault ∧ Follows w w') := by
  refine ends_initializeDisk (fun _ regs n rs hrs => ⟨follows_polled w regs n _ _ hrs, ?_⟩)
    fun _ regs n hard readCmd rs hrs => ?_
  · intro h
    exact absurd h (by decide)
  · have h := follows_polled w regs n hard readCmd hrs
    exact (ends_pollAndReadId_follows e fuel _).mono (fun _ _ h' => ⟨h.trans h'.1, h'.2⟩)
      (fun _ _ h' => ⟨h'.1, h.trans h'.2⟩)

theorem follows_readOnce (dst : Region) (len : UInt32) (offset : UInt64) (w : World) :
    Follows w (readOnce e dst len offset w) := (drives_readOnce e dst len offset w).follows Event.harmless_of_reading

/-- The classes of discs. -/
def IsDiskType (diskType : Int) : Prop :=
  diskType = isNgcDisk ∨ diskType = isWiiSingleDisk ∨ diskType = isWiiDualDisk ∨ diskType = isUnkDisk

/-- A disc of a known class has a size. -/
theorem IsDiskType.size_pos {diskType : Int} (h : IsDiskType diskType) (hne : diskType ≠ isUnkDisk) :
    0 < (getDiskSizeBytes diskType).toNat := by
  rcases h with rfl | rfl | rfl | rfl
  · decide
  · decide
  · decide
  · exact absurd rfl hne

/-- `identify_disk` on a disc returns one of the classes. -/
theorem ends_identifyDisk (d : Region) (w : World) : Imp.Ends (identifyDisk e (some d)) w
    (fun diskType w' => IsDiskType diskType ∧ Follows w w') (fun _ _ => False) := by
  unfold identifyDisk
  rw [Imp.ends_bind, Imp.ends_get, Imp.ends_bind, Imp.ends_of_ok (run_deref d w)]
  refine Imp.ends_ite.2 ⟨fun _ => ⟨Or.inl rfl, Follows.refl w⟩, fun _ => Imp.ends_ite.2 ⟨fun _ => ?_, fun _ => ?_⟩⟩
  · rw [Imp.ends_bind, Imp.ends_of_ok (run_dvdLowRead64 e .buf2 2048 0x16A00000 w)]
    have h := follows_readOnce e .buf2 2048 0x16A00000 w
    exact Imp.ends_ite.2 ⟨fun _ => ⟨Or.inr (Or.inr (Or.inl rfl)), h⟩, fun _ => ⟨Or.inr (Or.inl rfl), h⟩⟩
  · exact ⟨Or.inr (Or.inr (Or.inr rfl)), Follows.refl w⟩

end TakeADump
