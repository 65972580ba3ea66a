import TakeADump.Drive.Layer

/-!
# Which headers are accepted

`WDVD_LowReadDiskId` and `identify_disk` both look for a magic word at 0x18 of the header (`idResult`,
`ends_wdvdLowReadDiskId`). The word of a Wii disc is there; that of a GameCube disc is at 0x1C, so the polling loop of
`initialize_disk` never ends on it (`ends_pollAndReadId_refused`).
-/

namespace TakeADump

/-! ## Headers -/

inductive Console
  | wii
  | gamecube

/-- The header of a disc of the console. -/
def Console.Header (h : Nat → UInt8) : Console → Prop
  | .wii => be32 h 0x18 = wiiMagic
  | .gamecube => be32 h 0x1C = ngcMagic ∧ be32 h 0x18 = 0

/-- The classes of the console's discs. -/
def Console.DiskType (diskType : Int) : Console → Prop
  | .wii => diskType = isWiiSingleDisk ∨ diskType = isWiiDualDisk
  | .gamecube => diskType = isNgcDisk

instance (h : Nat → UInt8) (c : Console) : Decidable (c.Header h) := by
  cases c
  · exact inferInstanceAs (Decidable (_ = _))
  · exact inferInstanceAs (Decidable (_ ∧ _))

/-- The device opens, and every ID command comes back with a non-negative result and the header. -/
structure Env.Delivers (e : Env) (h : Nat → UInt8) : Prop where
  opens : ∀ n, 0 ≤ e.iosOpen n
  result : ∀ n, 0 ≤ (e.ioctl n).result
  data : ∀ n, (e.ioctl n).data = some h

/-- What `WDVD_LowReadDiskId` returns on the header. -/
def idResult (h : Nat → UInt8) : Int := if magicWord h = wiiMagic ∨ magicWord h = ngcMagic then 0 else -2

theorem idResult_eq_zero {h : Nat → UInt8} : idResult h = 0 ↔ magicWord h = wiiMagic ∨ magicWord h = ngcMagic := by
  unfold idResult
  split
  · simp [*]
  · simp [*]

/-- The header is at the start of the memory. -/
def Holds (mem h : Nat → UInt8) : Prop := ∀ i < 0x20, mem i = h i

/-- The magic word lies in the header. -/
theorem Holds.magicWord {mem h : Nat → UInt8} (hm : Holds mem h) : magicWord mem = magicWord h := by
  unfold TakeADump.magicWord be32
  rw [hm 0x18 (by omega), hm (0x18 + 1) (by omega), hm (0x18 + 2) (by omega), hm (0x18 + 3) (by omega)]

/-! ## The ID commands -/

variable {e : Env} {h : Nat → UInt8}

theorem ends_iosIoctlReadId (hd : e.Delivers h) (w : World) : Imp.Ends (iosIoctlReadId e) w
    (fun r w' => 0 ≤ r ∧ Holds (w'.mem .lowMem) h) (fun _ _ => False) := by
  refine ⟨hd.result w.ioctls, ?_⟩
  intro i hi
  simp [hd.data, hi]

theorem ends_readIdToLowMem (hd : e.Delivers h) (w : World) : Imp.Ends (readIdToLowMem e) w
    (fun r w' => r = idResult h ∧ Holds (w'.mem .lowMem) h) (fun _ _ => False) := by
  unfold readIdToLowMem clearLowMem
  rw [Imp.ends_bind, Imp.ends_modify, Imp.ends_bind]
  refine (ends_iosIoctlReadId hd _).mono ?_ (fun _ _ => id)
  rintro r w' ⟨hr, hm⟩
  rw [if_neg (by omega), Imp.ends_bind, Imp.ends_get]
  dsimp only
  rw [hm.magicWord, idResult]
  split
  · exact ⟨rfl, hm⟩
  · exact ⟨rfl, hm⟩

/-- `WDVD_LowReadDiskId` delivers the header and judges it by its magic word. -/
theorem ends_wdvdLowReadDiskId (hd : e.Delivers h) (w : World) : Imp.Ends (wdvdLowReadDiskId e) w
    (fun r w' => r = idResult h ∧ Holds (w'.mem .lowMem) h) (fun _ _ => False) := by
  unfold wdvdLowReadDiskId
  rw [Imp.ends_bind, Imp.ends_get]
  split
  · unfold iosOpen
    simp only [Imp.ends_bind, Imp.ends_get, Imp.ends_modify, Imp.ends_pure]
    rw [if_neg (Int.not_lt.2 (hd.opens w.opens))]
    exact ends_readIdToLowMem hd _
  · exact ends_readIdToLowMem hd w

/-- The second ID command fills the static `DiskID`. -/
theorem ends_readDvdId (hd : e.Delivers h) (hacc : idResult h = 0) (w : World) : Imp.Ends (readDvdId e) w
    (fun diskId w' => diskId = some .localId ∧ Holds (w'.mem .localId) h) (fun _ _ => False) := by
  unfold readDvdId copyToLocalId
  rw [Imp.ends_bind]
  refine (ends_wdvdLowReadDiskId hd w).mono ?_ (fun _ _ => id)
  rintro r w' ⟨hr, hm⟩
  rw [if_pos (hr.trans hacc), Imp.ends_bind, Imp.ends_modify, Imp.ends_pure]
  refine ⟨rfl, ?_⟩
  intro i hi
  have hi' : i < sizeofDiskID := Nat.lt_trans hi (by decide)
  simp [hi', hm i hi]

/-! ## Polling -/

/-- Two rounds are enough for an accepted header. -/
theorem ends_poll_accepted (hd : e.Delivers h) (hacc : idResult h = 0) {fuel : Nat} (hfuel : 2 ≤ fuel) (w : World) :
    Imp.Ends (Imp.loop .spin (pollRound e) fuel (-1)) w (fun _ _ => True) (fun _ _ => False) := by
  obtain ⟨n, rfl⟩ : ∃ n, fuel = n + 1 + 1 := ⟨fuel - 2, by omega⟩
  have hfirst := ends_wdvdLowReadDiskId hd w
  cases hrun : (wdvdLowReadDiskId e).run w with
  | error st w' => exact (hfirst.error hrun).elim
  | ok r w' =>
    have hr : r = 0 := (hfirst.ok hrun).1.trans hacc
    have hround : (pollRound e (-1)).run w = .ok (.next 0) w' := by
      unfold pollRound
      rw [if_pos (by omega), Imp.run_bind_ok hrun, hr]
      rfl
    exact (Imp.ends_of_ok ((Imp.loop_next hround).trans (Imp.loop_done rfl))).2 trivial

/-- A refused header is polled for ever. -/
theorem ends_poll_refused (hd : e.Delivers h) (href : idResult h ≠ 0) (fuel : Nat) (w : World) :
    Imp.Ends (Imp.loop .spin (pollRound e) fuel (-1)) w (fun _ _ => False) (fun st _ => st = .spin) := by
  refine Imp.ends_loop (I := fun idRet _ => idRet ≠ 0) ?_ (fun _ _ _ => rfl) fuel (by omega)
  intro idRet w' hI
  unfold pollRound
  rw [if_pos hI, Imp.ends_bind]
  refine (ends_wdvdLowReadDiskId hd w').mono ?_ (fun _ _ => False.elim)
  rintro r w'' ⟨rfl, -⟩
  exact Imp.ends_pure.2 href

theorem ends_pollAndReadId_accepted (hd : e.Delivers h) (hacc : idResult h = 0) {fuel : Nat} (hfuel : 2 ≤ fuel)
    (w : World) : Imp.Ends (pollAndReadId e fuel) w
      (fun r w' => r = 0 ∧ w'.globalDiskId = some .localId ∧ Holds (w'.mem .localId) h) (fun _ _ => False) := by
  unfold pollAndReadId
  rw [Imp.ends_bind]
  refine (ends_poll_accepted hd hacc hfuel w).mono (fun _ w' _ => ?_) (fun _ _ => id)
  rw [Imp.ends_bind]
  refine (ends_readDvdId hd hacc w').mono ?_ (fun _ _ => id)
  rintro diskId w'' ⟨rfl, hm⟩
  rw [Imp.ends_bind, Imp.ends_modify, if_neg (by simp), Imp.ends_pure]
  exact ⟨rfl, rfl, hm⟩

theorem ends_pollAndReadId_refused (hd : e.Delivers h) (href : idResult h ≠ 0) (fuel : Nat) (w : World) :
    Imp.Ends (pollAndReadId e fuel) w (fun _ _ => False) (fun st _ => st = .spin) := by
  unfold pollAndReadId
  rw [Imp.ends_bind]
  exact (ends_poll_refused hd href fuel w).mono (fun _ _ => False.elim) (fun _ _ => id)

/-! ## `initialize_disk` -/

theorem ends_raiseError (raises : Bool) (w : World) : Imp.Ends (raiseError raises) w
    (fun _ w' => ∃ regs, w' = { w with dvd := regs }) (fun _ _ => False) := by
  unfold raiseError
  cases raises
  · exact ⟨w.dvd, rfl⟩
  · exact ⟨_, rfl⟩

/-- What comes back for the error code is what the drive put in `dvd[8]`. -/
theorem ends_dvdGetError (w : World) : Imp.Ends (dvdGetError e) w (fun error w' =>
    error = (e.errorCode w.queries).code ∧ ∃ regs r, r.finding = true ∧
      w' = { w.log (.request r) with dvd := regs, queries := w.queries + 1 }) (fun _ _ => False) := by
  unfold dvdGetError setDvd startCommand emit
  simp only [Imp.ends_bind, Imp.ends_modify, Imp.ends_get, Imp.ends_pure]
  refine (ends_raiseError _ _).mono ?_ (fun _ _ => False.elim)
  rintro _ w' ⟨regs, rfl⟩
  exact ⟨Function.update_self .., _, _, rfl, rfl⟩

/-- The world in which `initialize_disk` has sent the commands `rs`, up to the registers and what it asked the drive. -/
def World.polled (w : World) (regs : Nat → UInt32) (queries : Nat) (dvdHardInit readCmd : UInt32)
    (rs : List Request) : World :=
  { w.logs (.print "Initializing DVD..." [] :: rs.map .request) with
    dvd := regs, queries := queries, dvdHardInit := dvdHardInit, readCmd := readCmd }

/-- The commands of `initialize_disk`. -/
def Finding (rs : List Request) : Prop := ∀ r ∈ rs, r.finding = true

theorem Finding.nil : Finding [] := fun _ h => absurd h List.not_mem_nil

theorem Finding.snoc {rs : List Request} {r : Request} (h : Finding rs) (hr : r.finding = true) :
    Finding (rs ++ [r]) := List.forall_mem_append.2 ⟨h, by simpa using hr⟩

section Polled

variable (w : World) (regs : Nat → UInt32) (n : Nat) (hard readCmd : UInt32) {rs : List Request}

/-- One more command. -/
theorem polled_log (regs' : Nat → UInt32) (n' : Nat) (hard' : UInt32) (rs : List Request) (r : Request) :
    { (w.polled regs n hard readCmd rs).log (.request r) with dvd := regs', queries := n', dvdHardInit := hard' } =
      w.polled regs' n' hard' readCmd (rs ++ [r]) := by
  simp [World.polled, World.logs, World.log]

variable (hrs : Finding rs)

include hrs

theorem ends_dvdGetError_polled : Imp.Ends (dvdGetError e) (w.polled regs n hard readCmd rs)
    (fun error w' => error = (e.errorCode n).code ∧
      ∃ regs rs, Finding rs ∧ w' = w.polled regs (n + 1) hard readCmd rs) (fun _ _ => False) := by
  refine (ends_dvdGetError _).mono ?_ (fun _ _ => False.elim)
  rintro error w' ⟨herror, regs', r, hr, rfl⟩
  exact ⟨herror, regs', _, hrs.snoc hr, polled_log w regs n hard readCmd regs' (n + 1) hard rs r⟩

/-- Asking whether the drive needs the ID read through the registers. -/
theorem ends_needsHardInit : Imp.Ends (needsHardInit e) (w.polled regs n hard readCmd rs)
    (fun _ w' => ∃ regs n rs, Finding rs ∧ w' = w.polled regs n hard readCmd rs) (fun _ _ => False) := by
  unfold needsHardInit
  rw [Imp.ends_bind, Imp.ends_get]
  split
  · exact Imp.ends_pure.2 ⟨regs, n, rs, hrs, rfl⟩
  · rw [Imp.ends_bind]
    refine (ends_dvdGetError_polled w regs n hard readCmd hrs).mono ?_ (fun _ _ => False.elim)
    rintro error w' ⟨-, regs', rs', hrs', rfl⟩
    exact Imp.ends_pure.2 ⟨regs', n + 1, rs', hrs', rfl⟩

theorem ends_hardInit : Imp.Ends (hardInit e) (w.polled regs n hard readCmd rs)
    (fun _ w' => ∃ regs rs, Finding rs ∧ w' = w.polled regs n 1 readCmd rs) (fun _ _ => False) := by
  unfold hardInit setStatus setDvd startCommand emit
  simp only [Imp.ends_bind, Imp.ends_modify, Imp.ends_get]
  refine (ends_raiseError _ _).mono ?_ (fun _ _ => False.elim)
  rintro _ w' ⟨regs', rfl⟩
  exact ⟨regs', _, hrs.snoc rfl, polled_log w regs n hard readCmd regs' n 1 rs _⟩

end Polled

/-- The read command is chosen by one more error code, then the polling starts. -/
theorem ends_choose {fuel : Nat} (w : World) {Q : Int → World → Prop} {E : Stop → World → Prop} (regs : Nat → UInt32)
    (n : Nat) {hard : UInt32} (readCmd : UInt32) {rs : List Request} (hrs : Finding rs)
    (hpoll : ∀ regs n readCmd rs, Finding rs →
      Imp.Ends (pollAndReadId e fuel) (w.polled regs n hard readCmd rs) Q E) :
    Imp.Ends (do
      let error ← dvdGetError e
      let readCmd := if error &&& 0xFFFFFF = 0x053000 then dvdDvdr else dvdNormal
      modify fun w => { w with readCmd := readCmd }
      pollAndReadId e fuel) (w.polled regs n hard readCmd rs) Q E := by
  rw [Imp.ends_bind]
  refine (ends_dvdGetError_polled w regs n hard readCmd hrs).mono ?_ (fun _ _ => False.elim)
  rintro error w' ⟨-, regs', rs', hrs', rfl⟩
  rw [Imp.ends_bind, Imp.ends_modify]
  exact hpoll regs' (n + 1) _ rs' hrs'

/-- `initialize_disk` polls unless the drive reports that there is no disc. -/
theorem ends_initializeDisk {fuel : Nat} {w : World} {Q : Int → World → Prop} {E : Stop → World → Prop}
    (hnone : (e.errorCode w.queries).code >>> 24 = 1 →
      ∀ regs n rs, Finding rs → Q dvdNoDisk (w.polled regs n w.dvdHardInit w.readCmd rs))
    (hpoll : (e.errorCode w.queries).code >>> 24 ≠ 1 → ∀ regs n hard readCmd rs, Finding rs →
      Imp.Ends (pollAndReadId e fuel) (w.polled regs n hard readCmd rs) Q E) :
    Imp.Ends (initializeDisk e fuel) w Q E := by
  have hstart : w.log (.print "Initializing DVD..." []) = w.polled w.dvd w.queries w.dvdHardInit w.readCmd [] := rfl
  unfold initializeDisk Logger.print emit
  rw [Imp.ends_bind, Imp.ends_modify, hstart, Imp.ends_bind]
  refine (ends_dvdGetError_polled w w.dvd w.queries w.dvdHardInit w.readCmd Finding.nil).mono ?_ (fun _ _ => False.elim)
  rintro error w₁ ⟨rfl, regs, rs, hrs, rfl⟩
  rw [Imp.ends_ite]
  constructor
  · intro hcode
    exact hnone hcode _ _ _ hrs
  · intro hcode
    rw [Imp.ends_bind]
    refine (ends_needsHardInit w regs _ _ _ hrs).mono ?_ (fun _ _ => False.elim)
    rintro hard w₂ ⟨regs₂, n, rs₂, hrs₂, rfl⟩
    cases hard with
    | true =>
      rw [if_pos rfl, Imp.ends_bind]
      refine (ends_hardInit w regs₂ n _ _ hrs₂).mono ?_ (fun _ _ => False.elim)
      rintro _ w₃ ⟨regs₃, rs₃, hrs₃, rfl⟩
      exact ends_choose w regs₃ n w.readCmd hrs₃ fun regs n => hpoll hcode regs n 1
    | false =>
      exact ends_choose w regs₂ n w.readCmd hrs₂ fun regs n => hpoll hcode regs n w.dvdHardInit

/-! ## Recognition -/

/-- The program takes the disc for one of the console's, at every step. -/
structure Recognised (e : Env) (w : World) (c : Console) : Prop where
  read : Imp.Ends (wdvdLowReadDiskId e) w (fun r _ => r = 0) (fun _ _ => False)
  init : ∀ fuel ≥ 2, Imp.Ends (initializeDisk e fuel) w (fun r w' => r = 0 ∧
    Imp.Ends (do identifyDisk e (← getDiskId)) w' (fun diskType _ => c.DiskType diskType) (fun _ _ => False))
    (fun _ _ => False)

/-- The program does not take the disc for one it knows. -/
structure Refused (e : Env) (w : World) : Prop where
  read : Imp.Ends (wdvdLowReadDiskId e) w (fun r _ => r ≠ 0) (fun _ _ => False)
  init : ∀ fuel, Imp.Ends (initializeDisk e fuel) w (fun r _ => r ≠ 0) (fun _ _ => True)

/-- Headers of either console are recognised and others are refused. -/
def HeaderRight (e : Env) (w : World) (h : Nat → UInt8) : Prop :=
  (∀ c : Console, c.Header h → Recognised e w c) ∧ ((∀ c : Console, ¬ c.Header h) → Refused e w)

/-- The word at 0x18 is enough to judge the header. -/
def JudgedAt18 (h : Nat → UInt8) : Prop :=
  magicWord h = wiiMagic ∨ magicWord h ≠ ngcMagic ∧ ¬ Console.gamecube.Header h

section Recognition

variable {w : World}

/-- A Wii header is recognised. -/
theorem recognised_wii (hd : e.Delivers h) (hdisc : (e.errorCode w.queries).code >>> 24 ≠ 1)
    (hh : magicWord h = wiiMagic) : Recognised e w .wii := by
  have hacc : idResult h = 0 := idResult_eq_zero.2 (Or.inl hh)
  constructor
  · exact (ends_wdvdLowReadDiskId hd w).mono (fun r _ hr => hr.1.trans hacc) (fun _ _ => id)
  · intro fuel hfuel
    refine ends_initializeDisk (fun hnone => absurd hnone hdisc) fun _ regs n hard readCmd rs _ => ?_
    refine (ends_pollAndReadId_accepted hd hacc hfuel _).mono ?_ (fun _ _ => id)
    rintro r w' ⟨hr, hid, hm⟩
    refine ⟨hr, ?_⟩
    unfold getDiskId
    rw [Imp.ends_bind, Imp.ends_bind, Imp.ends_get, Imp.ends_pure, hid,
      Imp.ends_of_ok (run_identifyDisk_wii (hm.magicWord.trans hh))]
    cases (e.attempt probeRange (w'.tried probeRange)).isOk
    · exact Or.inl rfl
    · exact Or.inr rfl

/-- A header without a magic word at 0x18 is refused, by polling it for ever. -/
theorem refused_of_idResult (hd : e.Delivers h) (hdisc : (e.errorCode w.queries).code >>> 24 ≠ 1)
    (href : idResult h ≠ 0) : Refused e w := by
  constructor
  · exact (ends_wdvdLowReadDiskId hd w).mono (fun r _ hr => hr.1 ▸ href) (fun _ _ => id)
  · intro fuel
    refine ends_initializeDisk (fun hnone => absurd hnone hdisc) fun _ regs n hard readCmd rs _ => ?_
    exact (ends_pollAndReadId_refused hd href fuel _).mono (fun _ _ => False.elim) (fun _ _ _ => trivial)

/-- What `WDVD_LowReadDiskId` returns decides between the two. -/
theorem not_recognised (hd : e.Delivers h) (href : idResult h ≠ 0) (c : Console) : ¬ Recognised e w c := by
  intro hr
  cases hrun : (wdvdLowReadDiskId e).run w with
  | ok r w' => exact href (((ends_wdvdLowReadDiskId hd w).ok hrun).1.symm.trans (hr.read.ok hrun))
  | error st w' => exact hr.read.error hrun

theorem not_refused (hd : e.Delivers h) (hacc : idResult h = 0) : ¬ Refused e w := by
  intro hr
  cases hrun : (wdvdLowReadDiskId e).run w with
  | ok r w' => exact hr.read.ok hrun (((ends_wdvdLowReadDiskId hd w).ok hrun).1.trans hacc)
  | error st w' => exact hr.read.error hrun

/-- A GameCube header has no magic word at 0x18. -/
theorem idResult_gamecube (hh : Console.gamecube.Header h) : idResult h ≠ 0 := by
  rw [Ne, idResult_eq_zero, magicWord, hh.2]
  decide

/-- **Header recognition.** The program is right about the header iff the word at 0x18 is enough to judge it: not for
a GameCube disc. -/
theorem header_right_iff (hd : e.Delivers h) (hdisc : (e.errorCode w.queries).code >>> 24 ≠ 1) :
    HeaderRight e w h ↔ JudgedAt18 h := by
  constructor
  · rintro ⟨hrec, href⟩
    by_cases hwii : magicWord h = wiiMagic
    · exact Or.inl hwii
    · have hcube : ¬ Console.gamecube.Header h := fun hh => not_recognised hd (idResult_gamecube hh) _ (hrec _ hh)
      refine Or.inr ⟨fun hngc => ?_, hcube⟩
      -- the GameCube word in the wrong place is accepted
      refine not_refused hd (idResult_eq_zero.2 (Or.inr hngc)) (href ?_)
      intro c
      cases c
      · exact hwii
      · exact hcube
  · intro hj
    constructor
    · rintro (_ | _) hh
      · exact recognised_wii hd hdisc hh
      · rcases hj with hwii | ⟨-, hcube⟩
        · rw [magicWord, hh.2] at hwii
          exact absurd hwii (by decide)
        · exact absurd hh hcube
    · intro hnone
      rcases hj with hwii | ⟨hngc, -⟩
      · exact absurd hwii (hnone .wii)
      · refine refused_of_idResult hd hdisc fun hacc => ?_
        exact (idResult_eq_zero.1 hacc).elim (hnone .wii) hngc

end Recognition

theorem calm_delivers (h : Nat → UInt8) : (Env.calm h).Delivers h where
  opens := fun _ => by simp [Env.calm]
  result := fun _ => by simp [Env.calm]
  data := fun _ => rfl

theorem header_right_wii : HeaderRight (Env.calm bareWiiHeader) wiiWorld bareWiiHeader ↔ JudgedAt18 bareWiiHeader :=
  header_right_iff (calm_delivers _) (by decide)

/-- The header of a GameCube disc: the magic word and nothing else. -/
def bareGameCubeHeader (i : Nat) : UInt8 :=
  if 0x1C ≤ i then ([0xC2, 0x33, 0x9F, 0x3D] : List UInt8).getD (i - 0x1C) 0 else 0

/-- A GameCube disc is not recognised. -/
theorem gamecube_refused : ∃ (e : Env) (w : World) (h : Nat → UInt8), Console.gamecube.Header h ∧ e.Delivers h ∧
    (e.errorCode w.queries).code >>> 24 ≠ 1 ∧ ¬ HeaderRight e w h := by
  have hd := calm_delivers bareGameCubeHeader
  have hh : Console.gamecube.Header bareGameCubeHeader := by decide
  refine ⟨_, wiiWorld, bareGameCubeHeader, hh, hd, by decide, ?_⟩
  rintro ⟨hrec, -⟩
  exact not_recognised hd (idResult_gamecube hh) .gamecube (hrec .gamecube hh)

end TakeADump
