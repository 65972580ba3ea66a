import TakeADump.Lib.Frame
import TakeADump.Drive.Header

/-!
# What the drive functions may change

`Drives p` bounds a run that only talks to the drive: its registers, its memory and the counts of what it was asked, and
the trace by events that satisfy `p`. `initialize_disk` issues requests for the error code and ID commands
(`Event.finding`), `identify_disk` read commands (`Event.reading`).
-/

namespace TakeADump

/-- The world with the drive, the memory and the trace left out. -/
def World.aside (w : World) : World :=
  { w with
    readCmd := 0, dvdHardInit := 0, diFd := 0, globalDiskId := none, dvd := fun _ => 0, mem := fun _ _ => 0
    tried := fun _ => 0, opens := 0, ioctls := 0, queries := 0, trace := [], seen := [] }

/-- From `w` to `w'` the program only talked to the drive. -/
structure Drives (p : Event → Bool) (w w' : World) : Prop where
  aside : w'.aside = w.aside
  trace : ∃ evs, w'.trace = w.trace ++ evs ∧ ∀ ev ∈ evs, p ev = true

variable {p : Event → Bool}

theorem Drives.refl (w : World) : Drives p w w := ⟨rfl, [], by simp, by simp⟩

theorem Drives.trans {w₁ w₂ w₃ : World} (h : Drives p w₁ w₂) (h' : Drives p w₂ w₃) : Drives p w₁ w₃ := by
  obtain ⟨evs, htrace, hev⟩ := h.trace
  obtain ⟨evs', htrace', hev'⟩ := h'.trace
  refine ⟨h'.aside.trans h.aside, evs ++ evs', ?_, List.forall_mem_append.2 ⟨hev, hev'⟩⟩
  rw [htrace', htrace, List.append_assoc]

/-- A step that leaves the trace alone. -/
theorem Drives.of_eq {w w' : World} (haside : w'.aside = w.aside) (htrace : w'.trace = w.trace) : Drives p w w' :=
  ⟨haside, [], by simp [htrace], by simp⟩

/-- What does not look at the drive is kept. -/
theorem Drives.keeps {w w' : World} {α : Type} (h : Drives p w w') (f : World → α) (hf : ∀ w, f w.aside = f w) :
    f w' = f w := by
  rw [← hf w', h.aside, hf]

def driveFrame (p : Event → Bool) : Imp.Frame World := ⟨Drives p, Drives.refl, Drives.trans⟩

/-- Every run of `x` only talks to the drive; it returns or is still waiting. -/
abbrev DriveOnly (p : Event → Bool) {α : Type} (x : Prog α) : Prop := Imp.Within (driveFrame p) (· = Stop.spin) x

/-- A modification of the drive alone. -/
theorem driveOnly_modify {f : World → World} (haside : ∀ w, (f w).aside = w.aside)
    (htrace : ∀ w, (f w).trace = w.trace) :
    DriveOnly p (modify f) := Imp.within_modify fun w => Drives.of_eq (haside w) (htrace w)

/-- What `initialize_disk` leaves in the trace. -/
def Event.finding : Event → Bool
  | .ioctl => true
  | .request r => r.finding
  | .print fmt _ => fmt = "Initializing DVD..."
  | _ => false

/-- What a read command leaves in the trace. -/
def Event.reading : Event → Bool
  | .request _ | .dcInvalidate _ _ | .finished _ => true
  | _ => false

variable (e : Env)

/-! ## Finding the disc -/

theorem driveOnly_iosOpen : DriveOnly p (iosOpen e) :=
  Imp.within_get_bind fun _ => Imp.within_bind (driveOnly_modify (fun _ => rfl) fun _ => rfl) fun _ =>
    Imp.within_pure _

theorem driveOnly_readIdToLowMem : DriveOnly Event.finding (readIdToLowMem e) := by
  unfold readIdToLowMem clearLowMem iosIoctlReadId
  refine Imp.within_bind (driveOnly_modify (fun _ => rfl) fun _ => rfl) fun _ => Imp.within_bind ?_ fun result => ?_
  · refine Imp.within_get_bind fun w => Imp.within_bind (Imp.within_modify fun w => ?_) fun _ => Imp.within_pure _
    exact ⟨rfl, [.ioctl], rfl, by simp [Event.finding]⟩
  · refine Imp.within_ite (fun _ => Imp.within_pure _) fun _ => Imp.within_get_bind fun w => ?_
    exact Imp.within_ite (fun _ => Imp.within_pure _) fun _ => Imp.within_pure _

theorem driveOnly_wdvdLowReadDiskId : DriveOnly Event.finding (wdvdLowReadDiskId e) := by
  unfold wdvdLowReadDiskId
  refine Imp.within_get_bind fun w => Imp.within_ite (fun _ => ?_) fun _ => driveOnly_readIdToLowMem e
  refine Imp.within_bind (driveOnly_iosOpen e) fun fd => ?_
  refine Imp.within_bind (driveOnly_modify (fun _ => rfl) fun _ => rfl) fun _ => ?_
  exact Imp.within_ite (fun _ => Imp.within_pure _) fun _ => driveOnly_readIdToLowMem e

theorem driveOnly_readDvdId : DriveOnly Event.finding (readDvdId e) := by
  unfold readDvdId copyToLocalId
  refine Imp.within_bind (driveOnly_wdvdLowReadDiskId e) fun r =>
    Imp.within_ite (fun _ => ?_) fun _ => Imp.within_pure _
  exact Imp.within_bind (driveOnly_modify (fun _ => rfl) fun _ => rfl) fun _ => Imp.within_pure _

theorem driveOnly_poll (fuel : Nat) : DriveOnly Event.finding (Imp.loop .spin (pollRound e) fuel (-1)) := by
  refine Imp.within_loop (E := (· = Stop.spin)) rfl (fun idRet => ?_) fuel (-1)
  refine Imp.within_ite (fun _ => ?_) fun _ => Imp.within_pure _
  exact Imp.within_bind (driveOnly_wdvdLowReadDiskId e) fun r => Imp.within_pure _

theorem driveOnly_pollAndReadId (fuel : Nat) : DriveOnly Event.finding (pollAndReadId e fuel) := by
  unfold pollAndReadId
  refine Imp.within_bind (driveOnly_poll e fuel) fun _ => Imp.within_bind (driveOnly_readDvdId e) fun diskId => ?_
  refine Imp.within_bind (driveOnly_modify (fun _ => rfl) fun _ => rfl) fun _ => ?_
  exact Imp.within_ite (fun _ => Imp.within_pure _) fun _ => Imp.within_pure _

theorem drives_polled (w : World) (regs : Nat → UInt32) (n : Nat) (hard readCmd : UInt32) {rs : List Request}
    (hrs : Finding rs) : Drives Event.finding w (w.polled regs n hard readCmd rs) := by
  refine ⟨rfl, _, rfl, List.forall_mem_cons.2 ⟨by simp [Event.finding], fun ev hev => ?_⟩⟩
  obtain ⟨r, hr, rfl⟩ := List.mem_map.1 hev
  exact hrs r hr

theorem driveOnly_initializeDisk (fuel : Nat) : DriveOnly Event.finding (initializeDisk e fuel) := by
  intro w
  refine ends_initializeDisk (fun _ regs n rs hrs => drives_polled w regs n _ _ hrs)
    fun _ regs n hard readCmd rs hrs => ?_
  have h := drives_polled w regs n hard readCmd hrs
  exact (driveOnly_pollAndReadId e fuel _).mono (fun _ _ h' => h.trans h') (fun _ _ h' => ⟨h'.1, h.trans h'.2⟩)

/-! ## Reading -/

theorem drives_readOnce (dst : Region) (len : UInt32) (offset : UInt64) (w : World) :
    Drives Event.reading w (readOnce e dst len offset w) := by
  unfold readOnce
  split
  · exact ⟨rfl, _, rfl, by simp [Event.reading]⟩
  · exact Drives.refl w

theorem ends_identifyDisk_drives (d : Region) (w : World) : Imp.Ends (identifyDisk e (some d)) w
    (fun _ w' => Drives Event.reading w w') (fun _ _ => False) := by
  unfold identifyDisk
  rw [Imp.ends_bind, Imp.ends_get, Imp.ends_bind, Imp.ends_of_ok (run_deref d w)]
  refine Imp.ends_ite.2 ⟨fun _ => Drives.refl w, fun _ => Imp.ends_ite.2 ⟨fun _ => ?_, fun _ => Drives.refl w⟩⟩
  rw [Imp.ends_bind, Imp.ends_of_ok (run_dvdLowRead64 e .buf2 2048 0x16A00000 w)]
  have h := drives_readOnce e .buf2 2048 0x16A00000 w
  exact Imp.ends_ite.2 ⟨fun _ => h, fun _ => h⟩

end TakeADump
