import TakeADump.Drive.Read
import TakeADump.Model.Main

/-!
# Which size a Wii disc is given

`identify_disk` takes a disc for dual-layer iff one read of the sector at 0x16A00000 succeeds (`run_identifyDisk_wii`).
That sector lies inside the first layer, so the read tells whether it is damaged and not how many layers there are:
an undamaged single-layer disc is given the size of a dual-layer disc, and a dual-layer disc damaged there is cut short.
-/

namespace TakeADump

/-! ## Discs -/

/-- Sector `s` and the range have a byte in common. -/
def Range.Touches (r : Range) (s : Nat) : Prop := sectorSize * s < r.start + r.length ∧ r.start < sectorSize * (s + 1)

/-- The drive holds a disc of `capacity` bytes with damaged sectors: a read succeeds iff it lies inside the disc and
touches no damaged sector. -/
def DriveHas (e : Env) (capacity : Nat) (damaged : Nat → Prop) : Prop :=
  ∀ r t, (e.attempt r t).isOk = true ↔ r.start + r.length ≤ capacity ∧ ∀ s, r.Touches s → ¬ damaged s

/-- No sector of the disc is damaged. -/
def Undamaged (capacity : Nat) (damaged : Nat → Prop) : Prop := ∀ s, sectorSize * s < capacity → ¬ damaged s

/-- The two capacities of a Wii disc. -/
def wiiCapacity (dual : Bool) : Nat := (getDiskSizeBytes (if dual then isWiiDualDisk else isWiiSingleDisk)).toNat

/-- A drive with a disc: every read command on a good range succeeds, and no other. -/
def Env.withDisc (e : Env) (good : Range → Bool) : Env :=
  { e with attempt := fun r _ => if good r then .ok else .err e.disc }

theorem driveHas_undamaged (e : Env) (capacity : Nat) :
    DriveHas (e.withDisc fun r => r.start + r.length ≤ capacity) capacity fun _ => False := by
  intro r t
  by_cases h : r.start + r.length ≤ capacity
  · simp [Env.withDisc, h, Attempt.isOk]
  · simp [Env.withDisc, h, Attempt.isOk]

/-! ## The probe -/

/-- The sector the probe reads. -/
def probeSector : Nat := 0x2D400

/-- The range of the probe. -/
def probeRange : Range := ⟨0x16A00000, 2048⟩

theorem touches_probeRange (s : Nat) : probeRange.Touches s ↔ s = probeSector := by
  simp only [Range.Touches, probeRange, probeSector, sectorSize_eq]
  omega

/-- The probe is one read of one sector, with either command. -/
theorem range_readRequest_probe (e : Env) (readCmd : UInt32) :
    (readRequest e .buf2 2048 0x16A00000 readCmd).range = probeRange := by
  unfold readRequest Request.range
  by_cases h : readCmd = dvdDvdr
  · simp only [h, if_true]
    decide
  · simp only [h, if_false]
    decide

variable {e : Env} {w : World} {d : Region} {capacity : Nat} {damaged : Nat → Prop} {dual : Bool}

/-- The probe succeeds iff its sector is good, whichever of the two kinds the disc is. -/
theorem probe_isOk (hdisc : DriveHas e (wiiCapacity dual) damaged) (t : Nat) :
    (e.attempt probeRange t).isOk = true ↔ ¬ damaged probeSector := by
  have hinside : probeRange.start + probeRange.length ≤ wiiCapacity dual := by cases dual <;> decide
  rw [hdisc]
  simp only [hinside, true_and, touches_probeRange, forall_eq]

/-- A pointer that is not null is followed. -/
theorem run_deref (r : Region) (w : World) : (deref (some r)).run w = .ok r w := rfl

/-- A Wii disc is classed by the probe alone. -/
theorem run_identifyDisk_wii (hmagic : magicWord (w.mem d) = wiiMagic) : (identifyDisk e (some d)).run w =
    .ok (if (e.attempt probeRange (w.tried probeRange)).isOk then isWiiDualDisk else isWiiSingleDisk)
      (readOnce e .buf2 2048 0x16A00000 w) := by
  have hget : (get : Prog World).run w = .ok w w := rfl
  have hresult : readResult e .buf2 2048 0x16A00000 w =
      if (e.attempt probeRange (w.tried probeRange)).isOk then 0 else 1 := by
    rw [readResult, if_pos (by decide), readAttempt, range_readRequest_probe]
  unfold identifyDisk
  rw [Imp.run_bind_ok hget, Imp.run_bind_ok (run_deref d w)]
  dsimp only
  rw [hmagic, if_neg (by decide), if_pos rfl, Imp.run_bind_ok (run_dvdLowRead64 e .buf2 2048 0x16A00000 w), hresult]
  cases (e.attempt probeRange (w.tried probeRange)).isOk <;> rfl

/-! ## The size -/

/-- The size of the class is the capacity if nothing is damaged, and in no case less. -/
def SizeRight (capacity : Nat) (damaged : Nat → Prop) (diskType : Int) : Prop :=
  (Undamaged capacity damaged → (getDiskSizeBytes diskType).toNat = capacity) ∧
    capacity ≤ (getDiskSizeBytes diskType).toNat

/-- The condition under which the probe leads to a right size. -/
def ProbeFits (dual : Bool) (damaged : Nat → Prop) : Prop :=
  if dual then ¬ damaged probeSector else ∃ s, sectorSize * s < wiiCapacity false ∧ damaged s

theorem sizeRight_dual (damaged : Nat → Prop) : SizeRight (wiiCapacity true) damaged isWiiDualDisk :=
  ⟨fun _ => rfl, Nat.le_refl _⟩

/-- The size of a single-layer disc cuts a dual-layer one. -/
theorem not_sizeRight_cut (damaged : Nat → Prop) : ¬ SizeRight (wiiCapacity true) damaged isWiiSingleDisk := by
  rintro ⟨-, hle⟩
  exact absurd hle (by decide)

theorem sizeRight_single (damaged : Nat → Prop) : SizeRight (wiiCapacity false) damaged isWiiSingleDisk :=
  ⟨fun _ => rfl, Nat.le_refl _⟩

/-- A single-layer disc given the larger size has the right one only as far as a damaged disc has one. -/
theorem sizeRight_padded (damaged : Nat → Prop) :
    SizeRight (wiiCapacity false) damaged isWiiDualDisk ↔ ¬ Undamaged (wiiCapacity false) damaged := by
  constructor
  · rintro ⟨heq, -⟩ hgood
    exact absurd (heq hgood) (by decide)
  · intro hbad
    exact ⟨fun hgood => absurd hgood hbad, by decide⟩

theorem not_undamaged_iff :
    ¬ Undamaged capacity damaged ↔ ∃ s, sectorSize * s < capacity ∧ damaged s := by
  simp only [Undamaged, not_forall, not_not, exists_prop]

/-- **Layer detection.** The class of a Wii disc leads to a right size iff the disc is dual-layer with a good sector at
0x16A00000, or single-layer with some damaged sector. -/
theorem layer_size_iff (hmagic : magicWord (w.mem d) = wiiMagic) (hdisc : DriveHas e (wiiCapacity dual) damaged) :
    Imp.Ends (identifyDisk e (some d)) w (fun diskType _ => SizeRight (wiiCapacity dual) damaged diskType)
      (fun _ _ => False) ↔ ProbeFits dual damaged := by
  rw [Imp.ends_of_ok (run_identifyDisk_wii hmagic)]
  have hprobe := probe_isOk hdisc (w.tried probeRange)
  by_cases hbad : damaged probeSector
  · -- the probe fails: the disc is taken for single-layer
    have hfail : ¬ (e.attempt probeRange (w.tried probeRange)).isOk = true := fun h => hprobe.1 h hbad
    rw [if_neg hfail]
    cases dual with
    | true => exact iff_of_false (not_sizeRight_cut damaged) (fun h => h hbad)
    | false => exact iff_of_true (sizeRight_single damaged) ⟨probeSector, by decide, hbad⟩
  · rw [if_pos (hprobe.2 hbad)]
    cases dual with
    | true => exact iff_of_true (sizeRight_dual damaged) hbad
    | false => exact (sizeRight_padded damaged).trans not_undamaged_iff

/-- The header of a Wii disc: the magic word and nothing else. -/
def bareWiiHeader (i : Nat) : UInt8 :=
  if 0x18 ≤ i then ([0x5D, 0x1C, 0x9E, 0xA3] : List UInt8).getD (i - 0x18) 0 else 0

/-- The console with a Wii disc just identified. -/
def wiiWorld : World := World.boot (fun _ => bareWiiHeader) fun _ => none

theorem layer_size_undamaged_dual :
    Imp.Ends (identifyDisk ((Env.calm fun _ => 0).withDisc fun r => r.start + r.length ≤ wiiCapacity true)
        (some .localId)) wiiWorld (fun diskType _ => SizeRight (wiiCapacity true) (fun _ => False) diskType)
      (fun _ _ => False) ↔ ProbeFits true fun _ => False :=
  layer_size_iff (by decide) (driveHas_undamaged _ _)

/-- A single-layer disc with no damaged sector is not given its size. -/
theorem undamaged_single_padded : ∃ (e : Env) (w : World) (d : Region),
    magicWord (w.mem d) = wiiMagic ∧ DriveHas e (wiiCapacity false) (fun _ => False) ∧
      ¬ Imp.Ends (identifyDisk e (some d)) w (fun diskType _ => SizeRight (wiiCapacity false) (fun _ => False) diskType)
        (fun _ _ => False) := by
  have hdisc := driveHas_undamaged (Env.calm fun _ => 0) (wiiCapacity false)
  have hmagic : magicWord (wiiWorld.mem .localId) = wiiMagic := by decide
  refine ⟨_, wiiWorld, .localId, hmagic, hdisc, ?_⟩
  rw [Imp.ends_of_ok (run_identifyDisk_wii hmagic), if_pos ((probe_isOk hdisc _).2 not_false)]
  intro h
  exact (sizeRight_padded _).1 h fun _ _ => not_false

end TakeADump
