import TakeADump.Lib.Retry
import TakeADump.Drive.Effects

/-!
# Whose header the disc ID is

`WDVD_LowReadDiskId` clears 0x20 bytes of low memory, has them filled by one ID command and looks for a magic word there.
What it returns and what it asks next depend on three numbers only, the file descriptor and how often IOS was asked
(`IdState`); `run_wdvdLowReadDiskId` is its run. `Looked` says what the polling loop and the second read leave: if 0 is
returned, the static `DiskID` starts with the header of the last reply (`disk_id_fresh`), and behind it there are four
bytes of low memory that were neither cleared nor transferred (`disk_id_own_iff`).
-/

namespace TakeADump

/-! ## One reply -/

/-- The bytes a reply leaves in the cleared output buffer. -/
def IoctlReply.delivered (reply : IoctlReply) : Nat → UInt8 := reply.data.getD fun _ => 0

/-- What `WDVD_LowReadDiskId` returns for a reply. -/
def IoctlReply.code (reply : IoctlReply) : Int := if reply.result < 0 then -reply.result else idResult reply.delivered

/-- The reply is a success and delivers a header with a magic word the program knows. -/
def IoctlReply.Valid (reply : IoctlReply) : Prop :=
  0 ≤ reply.result ∧ ∃ header, reply.data = some header ∧ (magicWord header = wiiMagic ∨ magicWord header = ngcMagic)

theorem IoctlReply.code_eq_zero (reply : IoctlReply) : reply.code = 0 ↔ reply.Valid := by
  unfold code Valid delivered
  by_cases hneg : reply.result < 0
  · rw [if_pos hneg]
    exact iff_of_false (by omega) fun h => by omega
  · rw [if_neg hneg, idResult_eq_zero]
    cases reply.data with
    | none => exact iff_of_false (by decide) (by simp)
    | some header => simp [Int.not_lt.1 hneg]

/-! ## One ID read -/

/-- What an ID read depends on: the file descriptor, and how often IOS was asked. -/
structure IdState where
  fd : Int
  opens : Nat
  ioctls : Nat

def World.idState (w : World) : IdState := ⟨w.diFd, w.opens, w.ioctls⟩

variable (e : Env)

/-- The device is not open and cannot be opened. -/
def IdState.Shut (s : IdState) : Prop := s.fd < 0 ∧ e.iosOpen s.opens < 0

instance (s : IdState) : Decidable (s.Shut e) := inferInstanceAs (Decidable (_ ∧ _))

/-- What `WDVD_LowReadDiskId` returns. -/
def IdState.code (s : IdState) : Int := if s.Shut e then -1 else (e.ioctl s.ioctls).code

/-- The state after `WDVD_LowReadDiskId`. -/
def IdState.next (s : IdState) : IdState :=
  if s.fd < 0 then ⟨e.iosOpen s.opens, s.opens + 1, if e.iosOpen s.opens < 0 then s.ioctls else s.ioctls + 1⟩
  else ⟨s.fd, s.opens, s.ioctls + 1⟩

/-- The world when the output buffer was cleared. -/
def World.cleared (w : World) : World :=
  { w with mem := Function.update w.mem .lowMem fun i => if i < 0x20 then 0 else w.mem .lowMem i }

/-- The world after an ID command. -/
def World.idRead (w : World) : World :=
  { w.log .ioctl with
    ioctls := w.ioctls + 1
    mem := Function.update w.mem .lowMem fun i =>
      if i < 0x20 then (e.ioctl w.ioctls).delivered i else w.mem .lowMem i }

/-- The world after the device was asked for. -/
def World.openDi (w : World) : World :=
  if w.diFd < 0 then { w with opens := w.opens + 1, diFd := e.iosOpen w.opens } else w

/-- The world after `WDVD_LowReadDiskId`. -/
def World.idNext (w : World) : World := if w.idState.Shut e then w.openDi e else (w.openDi e).idRead e

variable {e}

/-- The ID command fills the cleared bytes. -/
theorem run_iosIoctlReadId (w : World) :
    (iosIoctlReadId e).run w.cleared = .ok (e.ioctl w.ioctls).result (w.idRead e) := by
  have hget : (get : Prog World).run w.cleared = .ok w.cleared w.cleared := rfl
  have hioctl : e.ioctl w.cleared.ioctls = e.ioctl w.ioctls := rfl
  unfold iosIoctlReadId
  rw [Imp.run_bind_ok hget, hioctl, Imp.run_modify_bind]
  cases hdata : (e.ioctl w.ioctls).data with
  | none => simp [World.cleared, World.idRead, World.log, IoctlReply.delivered, hdata]
  | some d =>
    have hbytes : (fun i => if i < 0x20 then d i else if i < 0x20 then 0 else w.mem .lowMem i) =
        fun i => if i < 0x20 then d i else w.mem .lowMem i := by
      funext i
      split <;> rfl
    simp [World.cleared, World.idRead, World.log, IoctlReply.delivered, hdata, hbytes]

theorem lowMem_idRead (w : World) (i : Nat) : (w.idRead e).mem .lowMem i =
    if i < 0x20 then (e.ioctl w.ioctls).delivered i else w.mem .lowMem i := by
  simp [World.idRead]

theorem run_readIdToLowMem (w : World) :
    (readIdToLowMem e).run w = .ok (e.ioctl w.ioctls).code (w.idRead e) := by
  have hclear : clearLowMem.run w = .ok () w.cleared := rfl
  have hword : magicWord ((w.idRead e).mem .lowMem) = magicWord (e.ioctl w.ioctls).delivered :=
    Holds.magicWord fun i hi => by rw [lowMem_idRead, if_pos hi]
  unfold readIdToLowMem IoctlReply.code
  rw [Imp.run_bind_ok hclear, Imp.run_bind_ok (run_iosIoctlReadId w)]
  split
  · rfl
  · rw [Imp.run_bind_ok (show (get : Prog World).run (w.idRead e) = .ok _ _ from rfl)]
    dsimp only
    rw [hword, idResult]
    split <;> rfl

/-- **One call of `WDVD_LowReadDiskId`.** -/
theorem run_wdvdLowReadDiskId (w : World) :
    (wdvdLowReadDiskId e).run w = .ok (w.idState.code e) (w.idNext e) := by
  have hget : (get : Prog World).run w = .ok w w := rfl
  unfold wdvdLowReadDiskId World.idNext IdState.code IdState.Shut World.openDi World.idState
  rw [Imp.run_bind_ok hget]
  by_cases hfd : w.diFd < 0
  · have hopen : (iosOpen e).run w = .ok (e.iosOpen w.opens) { w with opens := w.opens + 1 } := rfl
    have hset : (modify fun v => { v with diFd := e.iosOpen w.opens } : Prog Unit).run { w with opens := w.opens + 1 } =
      .ok () { w with opens := w.opens + 1, diFd := e.iosOpen w.opens } := rfl
    by_cases hshut : e.iosOpen w.opens < 0
    · simp only [hfd, hshut, and_self, if_true]
      rw [Imp.run_bind_ok hopen, Imp.run_bind_ok hset, if_pos hshut]
      rfl
    · simp only [hfd, hshut, and_false, if_true, if_false]
      rw [Imp.run_bind_ok hopen, Imp.run_bind_ok hset, if_neg hshut]
      exact run_readIdToLowMem { w with opens := w.opens + 1, diFd := e.iosOpen w.opens }
  · simp only [hfd, false_and, if_false]
    exact run_readIdToLowMem w

@[simp] theorem idState_idNext (w : World) : (w.idNext e).idState = w.idState.next e := by
  unfold World.idNext IdState.Shut World.openDi World.idState IdState.next
  by_cases hfd : w.diFd < 0
  · by_cases hshut : e.iosOpen w.opens < 0
    · simp [hfd, hshut]
    · simp [hfd, hshut, World.idRead, World.log]
  · simp [hfd, World.idRead, World.log]

/-- The bytes behind the transfer stay. -/
theorem lowMem_idNext {i : Nat} (hi : 0x20 ≤ i) (w : World) : (w.idNext e).mem .lowMem i = w.mem .lowMem i := by
  have hopen : (w.openDi e).mem = w.mem := by unfold World.openDi; split <;> rfl
  unfold World.idNext
  split
  · rw [hopen]
  · rw [lowMem_idRead, if_neg (by omega), hopen]

/-- What an ID read that returned 0 says about the state before and after it. -/
theorem IdState.of_code {s : IdState} (h : s.code e = 0) : (e.ioctl s.ioctls).Valid ∧ 0 ≤ (s.next e).fd ∧
    (s.next e).ioctls = s.ioctls + 1 := by
  unfold code at h
  by_cases hshut : s.Shut e
  · rw [if_pos hshut] at h
    cases h
  · rw [if_neg hshut] at h
    have hvalid := (IoctlReply.code_eq_zero _).1 h
    unfold next
    split
    · have hopen : ¬ e.iosOpen s.opens < 0 := fun hopen => hshut ⟨‹_›, hopen⟩
      exact ⟨hvalid, Int.not_lt.1 hopen, if_neg hopen⟩
    · exact ⟨hvalid, Int.not_lt.1 ‹_›, rfl⟩

/-- With the device open, an ID read returns 0 iff the reply is valid. -/
theorem IdState.code_of_open {s : IdState} (h : 0 ≤ s.fd) :
    s.code e = (e.ioctl s.ioctls).code ∧ s.next e = ⟨s.fd, s.opens, s.ioctls + 1⟩ := by
  constructor
  · exact if_neg fun hshut => by have := hshut.1; omega
  · exact if_neg (by omega)

/-! ## Polling and the second read -/

theorem polls_pollRound : Imp.Polls (pollRound e) (fun w => w.idState.code e) (World.idNext e) := by
  intro ret w
  unfold pollRound
  split
  · rw [Imp.run_bind_ok (run_wdvdLowReadDiskId w)]
    rfl
  · rfl

theorem idState_iterate (w : World) (n : Nat) : ((World.idNext e)^[n] w).idState = (IdState.next e)^[n] w.idState := by
  induction n with
  | zero => rfl
  | succ n ih => rw [Function.iterate_succ_apply', Function.iterate_succ_apply', idState_idNext, ih]

theorem lowMem_iterate {i : Nat} (hi : 0x20 ≤ i) (w : World) (n : Nat) :
    ((World.idNext e)^[n] w).mem .lowMem i = w.mem .lowMem i := by
  induction n with
  | zero => rfl
  | succ n ih => rw [Function.iterate_succ_apply', lowMem_idNext hi, ih]

/-- What polling, left after ID read `n`, and one more ID read leave. -/
structure Looked (e : Env) (w : World) (n : Nat) (r : Int) (w' : World) : Prop where
  found : ((IdState.next e)^[n] w.idState).code e = 0
  before : ∀ k < n, ((IdState.next e)^[k] w.idState).code e ≠ 0
  idState : w'.idState = (IdState.next e)^[n + 2] w.idState
  ret : r = 0 ↔ ((IdState.next e)^[n + 1] w.idState).code e = 0
  disk : w'.globalDiskId = if r = 0 then some .localId else none
  bytes : r = 0 → ∀ i < sizeofDiskID, w'.mem .localId i =
    if i < 0x20 then (e.ioctl ((IdState.next e)^[n + 1] w.idState).ioctls).delivered i else w.mem .lowMem i

theorem lowMem_idNext_of_code {w : World} (h : w.idState.code e = 0) {i : Nat} (hi : i < 0x20) :
    (w.idNext e).mem .lowMem i = (e.ioctl w.ioctls).delivered i := by
  have hshut : ¬ w.idState.Shut e := fun hshut => by
    rw [IdState.code, if_pos hshut] at h
    cases h
  have hopen : (w.openDi e).ioctls = w.ioctls := by unfold World.openDi; split <;> rfl
  rw [World.idNext, if_neg hshut, lowMem_idRead, if_pos hi, hopen]

/-- The world after `memcpy(&localId, source, sizeof(DiskID))`. -/
def World.copied (w : World) : World :=
  { w with mem := Function.update w.mem .localId fun i =>
      if i < sizeofDiskID then w.mem .lowMem i else w.mem .localId i }

theorem localId_copied (w : World) (i : Nat) : w.copied.mem .localId i =
    if i < sizeofDiskID then w.mem .lowMem i else w.mem .localId i := by
  simp [World.copied]

theorem run_readDvdId (w : World) : (readDvdId e).run w =
    if w.idState.code e = 0 then .ok (some .localId) (w.idNext e).copied else .ok none (w.idNext e) := by
  unfold readDvdId
  rw [Imp.run_bind_ok (run_wdvdLowReadDiskId w)]
  split
  · rfl
  · rfl

/-- The polling loop and the second read. -/
theorem ends_pollAndReadId_looked (fuel : Nat) (w : World) : Imp.Ends (pollAndReadId e fuel) w
    (fun r w' => ∃ n, Looked e w n r w') (fun st _ => st = .spin) := by
  unfold pollAndReadId
  rw [Imp.ends_bind]
  refine (driveOnly_poll e fuel w).run.mono ?_ (fun _ _ h => h.1)
  rintro u w₁ ⟨hrun, -⟩
  obtain ⟨n, hfound, hbefore, rfl⟩ := polls_pollRound.of_ok (show (-1 : Int) ≠ 0 by omega) hrun
  simp only [idState_iterate] at hfound hbefore
  have hstate := idState_iterate (e := e) w (n + 1)
  have hnext : ((World.idNext e)^[n + 1] w).idNext e = (World.idNext e)^[n + 2] w :=
    (Function.iterate_succ_apply' ..).symm
  rw [Imp.ends_bind]
  by_cases hcode : ((IdState.next e)^[n + 1] w.idState).code e = 0
  · have hread := run_readDvdId (e := e) ((World.idNext e)^[n + 1] w)
    rw [hstate, if_pos hcode] at hread
    rw [Imp.ends_of_ok hread, Imp.ends_bind, Imp.ends_modify, if_neg (by simp), Imp.ends_pure]
    refine ⟨n, hfound, hbefore, ?_, iff_of_true rfl hcode, rfl, fun _ i hi => ?_⟩
    · rw [hnext]
      exact idState_iterate w (n + 2)
    · show (((World.idNext e)^[n + 1] w).idNext e).copied.mem .localId i = _
      rw [localId_copied, if_pos hi]
      split
      · rw [lowMem_idNext_of_code (by rw [hstate]; exact hcode) ‹_›, ← hstate]
        rfl
      · rw [hnext, lowMem_iterate (by omega)]
  · have hread := run_readDvdId (e := e) ((World.idNext e)^[n + 1] w)
    rw [hstate, if_neg hcode, hnext] at hread
    rw [Imp.ends_of_ok hread, Imp.ends_bind, Imp.ends_modify, if_pos rfl, Imp.ends_pure]
    have hret : (-1 : Int) ≠ 0 := by omega
    exact ⟨n, hfound, hbefore, idState_iterate w (n + 2), iff_of_false hret hcode, rfl, fun h => absurd h hret⟩

/-- **How `initialize_disk` ends.** -/
theorem ends_initializeDisk_looked (fuel : Nat) (w : World) : Imp.Ends (initializeDisk e fuel) w
    (fun r w' => (e.errorCode w.queries).code >>> 24 = 1 ∧ r = dvdNoDisk ∧ w'.ioctls = w.ioctls ∨
      (e.errorCode w.queries).code >>> 24 ≠ 1 ∧ ∃ n, Looked e w n r w') (fun st _ => st = .spin) := by
  refine ends_initializeDisk (fun hnone regs n rs _ => Or.inl ⟨hnone, rfl, rfl⟩)
    fun hdisc regs n hard readCmd rs _ => ?_
  refine (ends_pollAndReadId_looked fuel _).mono ?_ (fun _ _ h => h)
  rintro r w' ⟨k, h⟩
  exact Or.inr ⟨hdisc, k, h.found, h.before, h.idState, h.ret, h.disk, h.bytes⟩

namespace Looked

variable {w w' : World} {n : Nat} {r : Int}

/-- The second read asked with the device open. -/
theorem last (h : Looked e w n r w') : ((IdState.next e)^[n + 1] w.idState).ioctls = w'.ioctls - 1 ∧
    w.ioctls < w'.ioctls ∧ (r = 0 ↔ (e.ioctl (w'.ioctls - 1)).Valid) := by
  have hfd := (IdState.of_code h.found).2.1
  rw [← Function.iterate_succ_apply' (IdState.next e)] at hfd
  obtain ⟨hcode, hnext⟩ := IdState.code_of_open (e := e) hfd
  have hstate := h.idState
  rw [Function.iterate_succ_apply', hnext] at hstate
  have hioctls : w'.ioctls = ((IdState.next e)^[n + 1] w.idState).ioctls + 1 := congrArg IdState.ioctls hstate
  refine ⟨by omega, ?_, ?_⟩
  · have hle : ∀ k, w.ioctls ≤ ((IdState.next e)^[k] w.idState).ioctls := by
      intro k
      induction k with
      | zero => exact Nat.le_refl _
      | succ k ih =>
        rw [Function.iterate_succ_apply']
        refine Nat.le_trans ih ?_
        unfold IdState.next
        split
        · dsimp only
          split <;> omega
        · exact Nat.le_succ _
    have := hle (n + 1)
    omega
  · rw [h.ret, hcode, IoctlReply.code_eq_zero, hioctls, Nat.add_sub_cancel]

/-- The `DiskID` starts with the header of the last reply. -/
theorem holds (h : Looked e w n r w') (hr : r = 0) : Holds (w'.mem .localId) (e.ioctl (w'.ioctls - 1)).delivered := by
  intro i hi
  rw [h.bytes hr i (Nat.lt_trans hi (by decide)), if_pos hi, h.last.1]

end Looked

/-! ## The ID and the disc -/

/-- A disc with a magic word the program knows is given a class and a size. -/
theorem ends_identifyDisk_known (d : Region) (w : World)
    (h : magicWord (w.mem d) = wiiMagic ∨ magicWord (w.mem d) = ngcMagic) : Imp.Ends (identifyDisk e (some d)) w
      (fun diskType _ => diskType ≠ isUnkDisk ∧ getDiskSizeBytes diskType ≠ 0) (fun _ _ => False) := by
  by_cases hwii : magicWord (w.mem d) = wiiMagic
  · rw [Imp.ends_of_ok (run_identifyDisk_wii hwii)]
    split
    · decide
    · decide
  · unfold identifyDisk
    rw [Imp.ends_bind, Imp.ends_get, Imp.ends_bind, Imp.ends_of_ok (run_deref d w)]
    dsimp only
    rw [if_pos (h.resolve_left hwii), Imp.ends_pure]
    decide

/-- **No stale or unknown disc ID.** If `initialize_disk` returns 0, at least one ID command was issued, the ID starts
with the bytes the last one delivered, its magic word is known, and `identify_disk` gives it a class with a size. The
result is 0 iff the last reply was valid, and else there is no ID. -/
theorem disk_id_fresh (e : Env) (fuel : Nat) (w : World) : Imp.Ends (initializeDisk e fuel) w
    (fun r w' =>
      (r = 0 → w.ioctls < w'.ioctls ∧ ∃ d, w'.globalDiskId = some d ∧
        (∃ header, (e.ioctl (w'.ioctls - 1)).data = some header ∧ ∀ i < 0x20, w'.mem d i = header i) ∧
        (magicWord (w'.mem d) = wiiMagic ∨ magicWord (w'.mem d) = ngcMagic) ∧
        Imp.Ends (identifyDisk e w'.globalDiskId) w'
          (fun diskType _ => diskType ≠ isUnkDisk ∧ getDiskSizeBytes diskType ≠ 0) (fun _ _ => False)) ∧
      (w.ioctls < w'.ioctls → (r = 0 ↔ (e.ioctl (w'.ioctls - 1)).Valid) ∧
        (¬ (e.ioctl (w'.ioctls - 1)).Valid → w'.globalDiskId = none ∧ r ≠ 0)))
    (fun st _ => st = .spin) := by
  refine (ends_initializeDisk_looked fuel w).mono ?_ (fun _ _ h => h)
  rintro r w' (⟨-, rfl, hioctls⟩ | ⟨-, n, h⟩)
  · exact ⟨fun h => absurd h (by decide), fun h => absurd h (by omega)⟩
  · obtain ⟨-, hlt, hvalid⟩ := h.last
    have hdisk := h.disk
    refine ⟨fun hr => ⟨hlt, .localId, by rw [hdisk, if_pos hr], ?_⟩, fun _ => ⟨hvalid, fun hnot => ?_⟩⟩
    · obtain ⟨-, header, hdata, hmagic⟩ := hvalid.1 hr
      have hholds : Holds (w'.mem .localId) header := by
        have := h.holds hr
        rwa [IoctlReply.delivered, hdata] at this
      rw [← hholds.magicWord] at hmagic
      refine ⟨⟨header, hdata, hholds⟩, hmagic, ?_⟩
      rw [hdisk, if_pos hr]
      exact ends_identifyDisk_known .localId w' hmagic
    · have hr : r ≠ 0 := mt hvalid.1 hnot
      exact ⟨by rw [hdisk, if_neg hr], hr⟩

/-! ## The ID and what ran before -/

/-- The console with `low` in low memory. -/
def World.withLow (w : World) (low : Nat → UInt8) : World := { w with mem := Function.update w.mem .lowMem low }

/-- All bytes of `*globalDiskId`. -/
def World.diskId (w : World) : Option Bytes := w.globalDiskId.map fun d => bytesAt (w.mem d) sizeofDiskID

/-- What `initialize_disk` leaves when it returns 0. -/
theorem diskId_of_return {fuel : Nat} {w w' : World} (h : (initializeDisk e fuel).run w = .ok 0 w') :
    ∃ n, Looked e w n 0 w' := by
  rcases (ends_initializeDisk_looked fuel w).ok h with ⟨-, hr, -⟩ | ⟨-, hlooked⟩
  · cases hr
  · exact hlooked

/-- Two runs with the same replies poll equally often. -/
theorem Looked.unique {w v w' v' : World} {m n : Nat} {r s : Int} (hw : Looked e w n r w') (hv : Looked e v m s v')
    (hstate : w.idState = v.idState) : n = m := by
  have hfound := hv.found
  have hbefore := hv.before
  rw [← hstate] at hfound hbefore
  rcases Nat.lt_trichotomy n m with hlt | heq | hlt
  · exact absurd hw.found (hbefore n hlt)
  · exact heq
  · exact absurd hfound (hw.before m hlt)

/-- All bytes of the ID after a run that returned 0. -/
theorem Looked.diskId {w w' : World} {n : Nat} (h : Looked e w n 0 w') : w'.diskId =
    some ((List.range sizeofDiskID).map fun i =>
      if i < 0x20 then (e.ioctl ((IdState.next e)^[n + 1] w.idState).ioctls).delivered i else w.mem .lowMem i) := by
  rw [World.diskId, h.disk, if_pos rfl, Option.map_some, bytesAt]
  exact congrArg some (List.map_congr_left fun i hi => h.bytes rfl i (List.mem_range.1 hi))

@[simp] theorem lowMem_withLow (w : World) (low : Nat → UInt8) : (w.withLow low).mem .lowMem = low := by
  simp [World.withLow]

/-- The bytes behind the header are those low memory had. -/
theorem diskId_behind {fuel : Nat} {w w' : World} {low : Nat → UInt8}
    (h : (initializeDisk e fuel).run (w.withLow low) = .ok 0 w') {i : Nat} (hge : 0x20 ≤ i) (hlt : i < sizeofDiskID) :
    w'.diskId.bind (·[i]?) = some (low i) := by
  obtain ⟨n, hlooked⟩ := diskId_of_return h
  rw [hlooked.diskId]
  simp [hlt, Nat.not_lt.2 hge]

/-- **The disc ID and what ran before.** Two runs of `initialize_disk` with the same replies that return 0 leave the
same ID iff the low memories agree on the four bytes of `sizeof(DiskID)` behind the header. -/
theorem disk_id_own_iff {fuel fuel' : Nat} {w wa wb : World} {a b : Nat → UInt8}
    (ha : (initializeDisk e fuel).run (w.withLow a) = .ok 0 wa)
    (hb : (initializeDisk e fuel').run (w.withLow b) = .ok 0 wb) :
    wa.diskId = wb.diskId ↔ ∀ i, 0x20 ≤ i → i < sizeofDiskID → a i = b i := by
  constructor
  · intro h i hge hlt
    have hbehind := diskId_behind ha hge hlt
    rw [h, diskId_behind hb hge hlt, Option.some.injEq] at hbehind
    exact hbehind.symm
  · intro h
    obtain ⟨n, hla⟩ := diskId_of_return ha
    obtain ⟨m, hlb⟩ := diskId_of_return hb
    obtain rfl := hla.unique hlb rfl
    rw [hla.diskId, hlb.diskId, Option.some.injEq, List.map_inj_left]
    intro i hi
    rw [List.mem_range] at hi
    rw [lowMem_withLow, lowMem_withLow]
    -- the header is what the drive delivered, in both runs the same
    split
    · rfl
    · exact h i (by omega) hi

/-- A Wii disc is found whatever low memory holds. -/
theorem returns_wii (low : Nat → UInt8) :
    ∃ w', (initializeDisk (Env.calm bareWiiHeader) 2).run (wiiWorld.withLow low) = .ok 0 w' := by
  have h := (recognised_wii (w := wiiWorld.withLow low) (calm_delivers bareWiiHeader)
    (show (0 : UInt32) >>> 24 ≠ 1 by decide) (by decide)).init 2 (Nat.le_refl 2)
  cases hrun : (initializeDisk (Env.calm bareWiiHeader) 2).run (wiiWorld.withLow low) with
  | ok r w' =>
    obtain ⟨rfl, -⟩ := h.ok hrun
    exact ⟨w', rfl⟩
  | error st w' => exact (h.error hrun).elim

/-- Behind the header the two runs differ. -/
theorem disk_id_own_behind : ∃ wa wb,
    (initializeDisk (Env.calm bareWiiHeader) 2).run (wiiWorld.withLow fun _ => 0) = .ok 0 wa ∧
      (initializeDisk (Env.calm bareWiiHeader) 2).run (wiiWorld.withLow fun _ => 0x42) = .ok 0 wb ∧
      (wa.diskId = wb.diskId ↔ ∀ i, 0x20 ≤ i → i < sizeofDiskID → (0 : UInt8) = 0x42) := by
  obtain ⟨wa, ha⟩ := returns_wii fun _ => 0
  obtain ⟨wb, hb⟩ := returns_wii fun _ => 0x42
  exact ⟨wa, wb, ha, hb, disk_id_own_iff ha hb⟩

/-- The ID of a disc keeps four bytes of the program before. -/
theorem disk_id_leftover : ∃ (e : Env) (w : World) (a b : Nat → UInt8) (fuel : Nat) (wa wb : World),
    (initializeDisk e fuel).run (w.withLow a) = .ok 0 wa ∧ (initializeDisk e fuel).run (w.withLow b) = .ok 0 wb ∧
      wa.diskId ≠ wb.diskId := by
  obtain ⟨wa, ha⟩ := returns_wii fun _ => 0
  obtain ⟨wb, hb⟩ := returns_wii fun _ => 0x42
  refine ⟨_, wiiWorld, _, _, 2, wa, wb, ha, hb, fun heq => ?_⟩
  have hbehind := diskId_behind (i := 0x20) ha (by decide) (by decide)
  rw [heq, diskId_behind hb (by decide) (by decide)] at hbehind
  exact absurd hbehind (by decide)

end TakeADump
