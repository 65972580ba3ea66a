import TakeADump.Dump.Trace
import TakeADump.Dump.Directory

/-!
# How the image is cut into parts

`dump_partition`: a dump that nothing stops opens part `1`, `2`, ... up to `⌈size / CHUNK_SIZE⌉`, every part but the last
is exactly `CHUNK_SIZE` bytes long and none is empty, and each sector is written by one call of `fwrite`, to the part its
position falls into (`Core.fwrites_finished`).
-/

namespace TakeADump

open Rollover (Log)

/-- The calls of `fwrite`: the stream, the bytes asked for and the bytes accepted. -/
def fwrites (evs : List Event) : List (Option Nat × Nat × Nat) :=
  evs.filterMap fun
    | .fwrite fp asked written => some (fp, asked, written)
    | _ => none

/-- The sectors of an image of `size` bytes, a last one possibly partial. -/
def sectorCount (size : Nat) : Nat := (size + (sectorSize - 1)) / sectorSize

/-- The bytes of sector `s` of an image of `size` bytes. -/
def sectorLength (size s : Nat) : Nat := min sectorSize (size - sectorSize * s)

/-! ## Numbers of parts -/

/-- The last part is not empty, and there is no other after it. -/
theorem partCount_bounds {size : Nat} (h : 0 < partCount size) :
    (partCount size - 1) * chunkSize < size ∧ size ≤ partCount size * chunkSize := by
  have hchunk : chunkSize = 2147483648 := rfl
  unfold partCount at h ⊢
  rw [hchunk] at h ⊢
  omega

theorem partCount_eq_zero {size : Nat} : partCount size = 0 ↔ size = 0 := by
  have hchunk : chunkSize = 2147483648 := rfl
  unfold partCount
  rw [hchunk]
  omega

/-- The length of a part, and that the FAT32 limit is never reached. -/
theorem partLength_eq {size i : Nat} (hi : i < partCount size) :
    partLength size i = (if i + 1 < partCount size then chunkSize else size - (partCount size - 1) * chunkSize) ∧
      1 ≤ partLength size i ∧ partLength size i ≤ chunkSize ∧ partLength size i < 2 ^ 32 - 1 := by
  obtain ⟨hlast, hall⟩ := partCount_bounds (Nat.lt_of_le_of_lt (Nat.zero_le i) hi)
  have hchunk : chunkSize = 2147483648 := rfl
  unfold partLength
  rw [hchunk] at hlast hall ⊢
  split
  · omega
  · obtain rfl : i = partCount size - 1 := by omega
    omega

namespace Job

variable {j : Job} {w' : World}

/-! ## Writes -/

/-- The part sector `s` is written to. -/
theorem length_full_roll {s : Nat} (hs : s < j.sectors) :
    ((j.point s).log.roll chunkSize).full.length = sectorSize * s / chunkSize := by
  have hlt := j.lt_sectors.1 hs
  rw [(j.ready_point hs).length_full sectorSize_pos, Log.all_roll, length_point_all,
    Nat.min_eq_left (Nat.le_of_lt hlt)]

/-- A round writes its sector once. -/
theorem fwrites_roundEvents {s : Nat} (hs : s < j.sectors) : fwrites (j.roundEvents s) =
    [(some (j.base + sectorSize * s / chunkSize), j.len s, j.len s)] := by
  have hsettle : fwrites (j.settleEvents s) = [] := by
    unfold settleEvents
    split
    · rfl
    · rfl
  unfold fwrites at hsettle ⊢
  rw [filterMap_roundEvents, hsettle, length_full_roll hs]
  · rfl
  · rfl
  · intro ev hev
    cases ev <;> first | rfl | cases hev
  · intro ev hev
    cases ev <;> first | rfl | cases hev

/-- **The writes of a dump**: every sector once, in order, to the part of its position. -/
theorem Core.fwrites_finished {e : Env} {w : World} {size : UInt64}
    (hc : (enter e w size).Core ((enter e w size).finished ((enter e w size).point (enter e w size).sectors)) w') :
    fwrites (w'.trace.drop w.trace.length) = (List.range (sectorCount size.toNat)).map fun s =>
      (some (w.streams.length + sectorSize * s / chunkSize), sectorLength size.toNat s, sectorLength size.toNat s) := by
  have hpick := hc.filterMap_finished (f := fun
      | .fwrite fp asked written => some (fp, asked, written)
      | _ => none) ?_ ?_ fun s hs => fwrites_roundEvents hs
  · exact hpick.trans List.map_eq_flatMap.symm
  · intro ev hev
    cases ev <;> first | rfl | cases hev
  · intro ev hev
    cases ev <;> first | rfl | cases hev

end Job

section Partition

variable (e : Env) (fuel : Nat) (w : World) (diskType : Int) (size : UInt64)

/-- **The partition into parts.** A dump that tolerates errors, with all file operations succeeding and HOME never held,
returns 0. It opens the parts `1` to `n`, in this order and each once; all but the last hold exactly `CHUNK_SIZE` bytes,
the last one the rest, which is not empty; and each sector is written whole, once, to the part it falls into. -/
theorem dump_partition (hmem : e.memalign = true) (hcancel : w.cancelOnError = false)
    (hopen : ∀ n, e.fopen n = true) (hwrite : ∀ n, e.fwrite n = none) (hclose : ∀ n, e.fclose n = none)
    (hhome : ∀ n, e.pad n &&& wpadButtonHome = 0) (hcount : partCount size.toNat < 2 ^ 31) :
    let n := partCount size.toNat
    (n = 0 ↔ size.toNat = 0) ∧ (0 < n → (n - 1) * chunkSize < size.toNat ∧ size.toNat ≤ n * chunkSize) ∧
    ∃ w', (dump e fuel (some .localId) diskType size).run w = .ok 0 w' ∧
      w.fopenNames w' = (List.range n).map (fun i => partName (w.mem .localId) (Int32.ofNat (i + 1))) ∧
      (∀ i < n, (Int32.ofNat (i + 1)).toInt = i + 1) ∧
      (w.opened w').length = n ∧
      (∀ i (hi : i < (w.opened w').length),
        (w.opened w')[i].name = partName (w.mem .localId) (Int32.ofNat (i + 1)) ∧
        (w.opened w')[i].stored = some (w.opened w')[i].data ∧
        (w.opened w')[i].data.length = (if i + 1 < n then chunkSize else size.toNat - (n - 1) * chunkSize) ∧
        1 ≤ (w.opened w')[i].data.length ∧ (w.opened w')[i].data.length ≤ chunkSize ∧
        (w.opened w')[i].data.length < 2 ^ 32 - 1) ∧
      fwrites (w'.trace.drop w.trace.length) = (List.range (sectorCount size.toNat)).map fun s =>
        (some (w.streams.length + sectorSize * s / chunkSize), sectorLength size.toNat s,
          sectorLength size.toNat s) := by
  intro n
  obtain ⟨w', hrun, hc, -⟩ := (Job.ended_dump fuel w diskType size hmem).of_pass
    fun s hs => halt_enter e w size hopen hwrite hhome hs (Or.inr hcancel)
  refine ⟨partCount_eq_zero, partCount_bounds, w', hrun, ?_, fun i hi => ?_, (parts_of_return hrun).1, ?_,
    Job.Core.fwrites_finished hc⟩
  · exact Job.Core.fopenNames_finished hc
  · rw [Int32.toInt_ofNat_of_lt (by omega)]
    rfl
  · intro i hi
    obtain ⟨hlen, hparts⟩ := parts_of_return hrun
    have hi' : i < partCount size.toNat := by rwa [← hlen]
    have hlength : (w.opened w')[i].data.length = partLength size.toNat i := by
      rw [hparts i hi, Job.closedStream, partOf, List.length_take, List.length_drop, Job.length_image]
      rfl
    have hstored := (Job.stored_finished (w := w) hc rfl).2 fun i _ m hm => by
      rw [show (Job.enter e w size).env.fclose _ = none from hclose _] at hm
      cases hm
    have hname := congrArg Stream.name (hparts i hi)
    rw [hlength]
    exact ⟨hname, hstored _ (List.getElem_mem hi), partLength_eq hi'⟩

/-- An image of two full parts and one sector of 5 bytes. -/
theorem dump_partition_three :
    let w : World := { World.boot (fun _ _ => 0) (fun _ => none) with cancelOnError := false }
    ∃ w', (dump (Env.calm fun _ => 7) 0 (some .localId) isUnkDisk 0x100000005).run w = .ok 0 w' ∧
      ∃ h : 2 < (w.opened w').length, (w.opened w')[2].data.length = 5 := by
  intro w
  obtain ⟨-, -, w', hrun, -, -, hlen, hparts, -⟩ := dump_partition (Env.calm fun _ => 7) 0 w isUnkDisk 0x100000005 rfl
    rfl (fun _ => rfl) (fun _ => rfl) (fun _ => rfl) (fun _ => UInt32.zero_and) (by decide)
  have h : 2 < (w.opened w').length := by
    rw [hlen]
    decide
  obtain ⟨-, -, hlast, -⟩ := hparts 2 h
  exact ⟨w', hrun, h, hlast.trans (by decide)⟩

end Partition

end TakeADump
