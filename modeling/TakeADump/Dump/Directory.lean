import TakeADump.Dump.Naming
import TakeADump.Dump.Storage

/-!
# The directory after a dump

A dump creates its own parts and touches nothing else: a part it opened holds what `fclose` put on the medium of a part
of its image, whatever the file held before, and every file under another name is left as it was (`dump_directory`).
Parts of an older dump with higher numbers therefore stay next to the new ones.
-/

namespace TakeADump

open Rollover (Log)

/-- Part `i` of an image. -/
def partOf (image : Bytes) (i : Nat) : Bytes := (image.drop (i * chunkSize)).take chunkSize

/-- The files named as parts of the disc are exactly the parts a dump opened, each with its own bytes. -/
def OnlyOwnParts (w w' : World) (image : Bytes) : Prop :=
  ∀ k, 0 < k → k < 2 ^ 31 → w'.file (partName (w.mem .localId) (Int32.ofNat k)) =
    if k ≤ (w.opened w').length then some (partOf image (k - 1)) else none

/-! ## Names -/

/-- A game ID that leaves room for the rest of the name gives every part its own name. -/
theorem partName_injective {header : Nat → UInt8} (hlen : (CFormat.cstr 255 header).length ≤ 235) {m n : Nat}
    (hm : m < 2 ^ 31) (hn : n < 2 ^ 31)
    (h : partName header (Int32.ofNat m) = partName header (Int32.ofNat n)) : m = n := by
  have hroom : ∀ k : Nat, k < 2 ^ 31 → (CFormat.cstr 255 header ++ CFormat.ascii ".part" ++ CFormat.decimal k ++
      CFormat.ascii ".iso").length < 256 := by
    intro k hk
    have := CFormat.length_decimal_le (n := k) (m := 10) (by omega) (by omega)
    simp only [List.length_append, length_ascii_part, length_ascii_iso]
    omega
  unfold partName at h
  rw [Int32.toInt_ofNat_of_lt hm, Int32.toInt_ofNat_of_lt hn, CFormat.clip_of_le (hroom m hm),
    CFormat.clip_of_le (hroom n hn), List.append_left_inj, List.append_right_inj] at h
  exact CFormat.decimal_injective h

theorem length_cstr_wiiHeader (id : Bytes) : (CFormat.cstr 255 (wiiHeader id)).length ≤ 28 :=
  CFormat.length_cstr_le_of_zero rfl

/-! ## Files -/

/-- The file of a stream is that of the last stream of the name. -/
theorem exists_file_of_mem {w w' : World} {s : Stream} (hs : s ∈ w.opened w') :
    ∃ t ∈ w.opened w', t.name = s.name ∧ w'.file s.name = some (t.stored.getD t.data) := by
  have hsplit : w'.streams = w'.streams.take w.streams.length ++ w.opened w' := (List.take_append_drop _ _).symm
  cases hfind : (w.opened w').reverse.find? (fun t => t.name = s.name) with
  | none =>
    rw [List.find?_eq_none] at hfind
    exact absurd (decide_eq_true rfl) (hfind s (List.mem_reverse.2 hs))
  | some t =>
    refine ⟨t, List.mem_reverse.1 (List.mem_of_find?_eq_some hfind), by simpa using List.find?_some hfind, ?_⟩
    unfold World.file World.lastStream
    rw [hsplit, List.reverse_append, List.find?_append, hfind]
    rfl

namespace Job

variable {j : Job} {w w' : World}

/-- The parts of a dump that did all sectors. -/
theorem parts_finished (hc : j.Core (j.finished (j.point j.sectors)) w') (hw : j.start.streams = w.streams) :
    (w.opened w').length = partCount j.size.toNat ∧ ∀ i (h : i < (w.opened w').length),
      (w.opened w')[i] = j.closedStream i (partOf j.image i) := by
  rw [opened_finished hc hw]
  refine ⟨by rw [List.length_mapIdx, length_parts_all], fun i hi => ?_⟩
  rw [List.length_mapIdx] at hi
  rw [List.getElem_mapIdx, image_eq, partOf, ← Rollover.part_eq (j.filled_point (Nat.le_refl _)) hi]

end Job

section Directory

variable (e : Env) (fuel : Nat) (w : World) (diskType : Int) (size : UInt64)

variable {e fuel w diskType size} {w' : World} (hrun : (dump e fuel (some .localId) diskType size).run w = .ok 0 w')

include hrun

theorem parts_of_return : (w.opened w').length = partCount size.toNat ∧ ∀ i (h : i < (w.opened w').length),
    (w.opened w')[i] = (Job.enter e w size).closedStream i (partOf (Job.enter e w size).image i) :=
  Job.parts_finished (w := w) (Job.finished_of_return hrun).2 rfl

theorem names_of_return : (w.opened w').map Stream.name =
    (List.range (partCount size.toNat)).map fun i => partName (w.mem .localId) (Int32.ofNat (i + 1)) := by
  obtain ⟨hlen, hparts⟩ := parts_of_return hrun
  refine List.ext_getElem (by rw [List.length_map, List.length_map, List.length_range, hlen]) fun i hi _ => ?_
  rw [List.length_map] at hi
  rw [List.getElem_map, List.getElem_map, List.getElem_range, hparts i hi]
  rfl

/-- Files that are no parts of the dump keep their content. -/
theorem file_other_of_return {file : Bytes}
    (hfile : ∀ i < partCount size.toNat, file ≠ partName (w.mem .localId) (Int32.ofNat (i + 1))) :
    w'.file file = w.file file := by
  have hleaves := Job.leaves_finished (Job.finished_of_return hrun).2
  have hstreams : ∃ l, w'.streams = w.streams ++ l := ⟨_, hleaves.streams.trans (List.append_assoc _ _ _)⟩
  refine file_of_notMem hstreams hleaves.prior fun hmem => ?_
  rw [names_of_return hrun] at hmem
  obtain ⟨i, hi, heq⟩ := List.mem_map.1 hmem
  exact hfile i (List.mem_range.1 hi) heq.symm

/-- **The directory after a dump that returned 0.** It opened the `n` parts of its image. Each of them holds what its
close put on the medium of a part of that image and nothing else, of its own one if the names are distinct. Every other
file is as it was before. -/
theorem dump_directory :
    let image := (Job.enter e w size).image
    let name := fun i : Nat => partName (w.mem .localId) (Int32.ofNat (i + 1))
    (w.opened w').map Stream.name = (List.range (partCount size.toNat)).map name ∧
      (∀ i < partCount size.toNat, ∃ k < partCount size.toNat, name k = name i ∧
        w'.file (name i) = some (kept e (w.streams.length + k) (partOf image k))) ∧
      (DistinctParts (w.mem .localId) (partCount size.toNat) → ∀ i < partCount size.toNat,
        w'.file (name i) = some (kept e (w.streams.length + i) (partOf image i))) ∧
      ∀ file, (∀ i < partCount size.toNat, file ≠ name i) → w'.file file = w.file file := by
  intro image name
  obtain ⟨hlen, hparts⟩ := parts_of_return hrun
  have hnames := names_of_return hrun
  refine ⟨hnames, fun i hi => ?_, fun hdistinct i hi => ?_, fun file hfile => file_other_of_return hrun hfile⟩
  · rw [← hlen] at hi
    obtain ⟨t, ht, htname, htfile⟩ := exists_file_of_mem (List.getElem_mem hi)
    obtain ⟨k, hk, rfl⟩ := List.mem_iff_getElem.1 ht
    rw [hparts i hi, hparts k hk] at htname
    rw [hparts i hi, hparts k hk] at htfile
    exact ⟨k, by rwa [← hlen], htname, htfile⟩
  · have hnodup : ((w.opened w').map Stream.name).Nodup := by
      rw [hnames]
      exact Job.nodup_names (j := Job.enter e w size) hdistinct (Nat.le_refl _)
    rw [← hlen] at hi
    have hlast := lastStream_of_mem hnodup (List.getElem_mem hi)
    rw [hparts i hi] at hlast
    have hown : w'.lastStream (name i) = some ((Job.enter e w size).closedStream i (partOf image i)) := hlast
    rw [World.file, hown]
    rfl

end Directory

/-! ## Parts of an older dump -/

/-- A directory with one file of one byte. -/
def oneFile (name : Bytes) : Bytes → Option Bytes := fun file => if file = name then some [1] else none

theorem oneFile_self (name : Bytes) : oneFile name name = some [1] := if_pos rfl

/-- A drive with part 2 of an older dump of the disc. -/
def withOlderPart : World :=
  World.boot (fun _ => wiiHeader [0x52, 0x4D, 0x43, 0x45, 0x30, 0x31])
    (oneFile (partName (wiiHeader [0x52, 0x4D, 0x43, 0x45, 0x30, 0x31]) (Int32.ofNat 2)))

theorem file_withOlderPart (name : Bytes) : withOlderPart.file name =
    oneFile (partName (wiiHeader [0x52, 0x4D, 0x43, 0x45, 0x30, 0x31]) (Int32.ofNat 2)) name := rfl

/-- A dump of one part, which nothing stops. -/
theorem run_withOlderPart :
    ∃ w', (dump (Env.calm fun _ => 7) 0 (some .localId) isNgcDisk 0x58000000).run withOlderPart = .ok 0 w' := by
  obtain ⟨w', hrun, -⟩ := (Job.ended_dump (e := Env.calm fun _ => 7) 0 withOlderPart isNgcDisk 0x58000000 rfl).of_pass
    fun s hs => halt_enter _ _ _ (fun _ => rfl) (fun _ => rfl) (fun _ => UInt32.zero_and) hs
      (Or.inl (Job.readable_of_ok (fun _ _ => rfl)
        (Job.addressable_iff.2 (Nat.lt_trans ((Job.lt_sectors _).1 hs) (by decide)))))
  exact ⟨w', hrun⟩

/-- The dump next to the older part. -/
theorem dump_directory_older : ∃ w',
    (dump (Env.calm fun _ => 7) 0 (some .localId) isNgcDisk 0x58000000).run withOlderPart = .ok 0 w' ∧
      (withOlderPart.opened w').map Stream.name = [partName (withOlderPart.mem .localId) 1] := by
  obtain ⟨w', hrun⟩ := run_withOlderPart
  exact ⟨w', hrun, (dump_directory hrun).1⟩

/-- The older part stays. -/
theorem older_part_stays : ∃ w',
    (dump (Env.calm fun _ => 7) 0 (some .localId) isNgcDisk 0x58000000).run withOlderPart = .ok 0 w' ∧
      ¬ OnlyOwnParts withOlderPart w' (Job.enter (Env.calm fun _ => 7) withOlderPart 0x58000000).image := by
  obtain ⟨w', hrun⟩ := run_withOlderPart
  refine ⟨w', hrun, fun h => ?_⟩
  have hlen : (withOlderPart.opened w').length = 1 := (parts_of_return hrun).1
  have hfile : w'.file (partName (withOlderPart.mem .localId) (Int32.ofNat 2)) = some [1] := by
    rw [file_other_of_return hrun fun i hi heq => ?_]
    · rw [file_withOlderPart]
      exact oneFile_self _
    · have hshort := Nat.le_trans (length_cstr_wiiHeader [0x52, 0x4D, 0x43, 0x45, 0x30, 0x31])
        (show 28 ≤ 235 by omega)
      have hone : partCount (0x58000000 : UInt64).toNat = 1 := by decide
      have := partName_injective hshort (by omega) (by omega) heq
      omega
  have hnone := h 2 (by omega) (by omega)
  rw [hlen, if_neg (by omega), hfile] at hnone
  cases hnone

end TakeADump
