import Mathlib.Data.List.Pairwise
import TakeADump.Dump.Trace

/-!
# What a dump says about unreadable sectors

`reports` picks the error lines, the zero fills and the progress lines from a trace. In a dump of whole sectors that
returned 0 they are those of its sectors, one after the other: an error line with the sector's position and a zero fill
exactly for the sectors not read within three attempts, and a progress line with the number of these so far
(`error_report`).
-/

namespace TakeADump

open Rollover (Log)

/-- A line about the sectors, or a zero fill. -/
inductive Report
  | unreadable (offset : UInt64)
  | zeroed (n : Nat)
  | progress (offset total : UInt64) (errors : Int)
  deriving DecidableEq

def Event.report : Event → Option Report
  | .print fmt [.u64 offset] =>
    if fmt = "Error reading disk at offset 0x%08llX." then some (.unreadable offset) else none
  | .print _ [.megabytes offset, .megabytes total, .percent _ _, .int errors] => some (.progress offset total errors)
  | .memset n => some (.zeroed n)
  | _ => none

def reports (evs : List Event) : List Report := evs.filterMap Event.report

theorem report_errorReport (s : Nat) : (errorReport s).report = some (.unreadable (sectorOffset s)) := by
  unfold errorReport Event.report
  exact if_pos rfl

theorem report_reading {ev : Event} (h : ev.reading = true) : ev.report = none := by
  cases ev <;> first | rfl | cases h

theorem report_filing {ev : Event} (h : ev.filing = true) : ev.report = none := by
  cases ev <;> first | rfl | cases h

theorem report_framing {ev : Event} (h : ev.framing = true) : ev.report = none := by
  unfold Event.framing at h
  unfold Event.report
  split at h
  · rfl
  · rfl
  · rfl
  · rfl
  · cases h

def Report.unreadable? : Report → Option UInt64
  | .unreadable offset => some offset
  | _ => none

/-- The offsets of the error lines. -/
def errorOffsets (evs : List Event) : List UInt64 := (reports evs).filterMap Report.unreadable?

/-- The sectors before `n` that are not read within three attempts. -/
def unread (e : Env) (w : World) (n : Nat) : List Nat := (List.range n).filter fun s => ¬ ReadInThree e w s

/-- What a dump is to say about sector `s`. -/
def sectorReport (e : Env) (w : World) (size : UInt64) (s : Nat) : List Report :=
  (if ReadInThree e w s then [] else [.unreadable (sectorOffset s), .zeroed sectorSize]) ++
    [.progress (sectorOffset (s + 1)) size (w.errorCount + (unread e w (s + 1)).length)]

theorem unread_succ (e : Env) (w : World) (n : Nat) :
    unread e w (n + 1) = unread e w n ++ if ReadInThree e w n then [] else [n] := by
  unfold unread
  rw [List.range_succ, List.filter_append]
  congr 1
  by_cases h : ReadInThree e w n
  · simp [h]
  · simp [h]

theorem filterMap_sectorReport (e : Env) (w : World) (size : UInt64) (s : Nat) :
    (sectorReport e w size s).filterMap Report.unreadable? = if ReadInThree e w s then [] else [sectorOffset s] := by
  unfold sectorReport
  split
  · rfl
  · rfl

/-- The error lines of the first `n` sectors. -/
theorem filterMap_sectorReports (e : Env) (w : World) (size : UInt64) (n : Nat) :
    ((List.range n).flatMap (sectorReport e w size)).filterMap Report.unreadable? =
      (unread e w n).map sectorOffset := by
  induction n with
  | zero => rfl
  | succ n ih =>
    rw [List.range_succ, List.flatMap_append, List.filterMap_append, ih, List.flatMap_singleton,
      filterMap_sectorReport, unread_succ, List.map_append]
    congr 1
    split
    · rfl
    · rfl

/-! ## Offsets -/

/-- The offset of an unreadable sector is its position. -/
theorem toNat_sectorOffset_unread {e : Env} {w : World} {size : UInt64} (hmul : sectorSize ∣ size.toNat)
    (hle : size.toNat ≤ 2 ^ 34) {s : Nat} (hs : s ∈ unread e w (size.toNat / sectorSize)) :
    (sectorOffset s).toNat = sectorSize * s := by
  have hlt := List.mem_range.1 (List.mem_filter.1 hs).1
  apply Job.toNat_sectorOffset
  rw [sectorSize_eq] at hmul hlt ⊢
  omega

/-- The positions of the unreadable sectors increase. -/
theorem pairwise_positions {e : Env} {w : World} (n : Nat) : ((unread e w n).map (sectorSize * ·)).Pairwise (· < ·) := by
  apply (List.pairwise_lt_range.filter _).map
  intro a b hab
  exact Nat.mul_lt_mul_of_pos_left hab sectorSize_pos

namespace Job

variable {e : Env} {w : World} {size : UInt64} {s : Nat}

/-! ## Rounds -/

theorem errors_readyToWrite (j : Job) (p : Point) :
    (j.readyToWrite p).errors = p.errors + if j.readable p.done then 0 else 1 := by
  have hdone : (j.readStep (j.roll p)).done = p.done := rfl
  unfold readyToWrite settle
  rw [hdone]
  split
  · rfl
  · rfl

variable (hle : size.toNat ≤ 2 ^ 34)

include hle

/-- The unreadable sectors counted so far. -/
theorem errors_enter (hs : s ≤ size.toNat / sectorSize) :
    ((enter e w size).point s).errors = (unread e w s).length := by
  induction s with
  | zero => rfl
  | succ s ih =>
    have hread := readable_enter e w hle hs
    rw [show ((enter e w size).point (s + 1)).errors =
      ((enter e w size).readyToWrite ((enter e w size).point s)).errors from rfl, errors_readyToWrite, point_done,
      ih (Nat.le_of_succ_le hs), unread_succ, List.length_append]
    by_cases h : ReadInThree e w s
    · rw [if_pos (hread.2 h), if_pos h]
      rfl
    · rw [if_neg (mt hread.1 h), if_neg h]
      rfl

variable (hmul : sectorSize ∣ size.toNat)

include hmul

/-- What a round says about its sector. -/
theorem reports_roundEvents (hs : s < size.toNat / sectorSize) :
    reports ((enter e w size).roundEvents s) = sectorReport e w size s := by
  have hread := readable_enter e w hle hs
  have hlen := len_enter e w hs
  have hsettle : reports ((enter e w size).settleEvents s) =
      if ReadInThree e w s then [] else [.unreadable (sectorOffset s), .zeroed sectorSize] := by
    unfold settleEvents
    by_cases h : ReadInThree e w s
    · rw [if_pos (hread.2 h), if_pos h]
      rfl
    · rw [if_neg (mt hread.1 h), if_neg h, hlen, reports, List.filterMap_cons_some (report_errorReport s)]
      rfl
  have herrors : ((enter e w size).readyToWrite ((enter e w size).point s)).errors = (unread e w (s + 1)).length :=
    errors_enter hle (s := s + 1) hs
  have hoffset : min (sectorSize * (s + 1)) size.toNat = sectorSize * (s + 1) := by
    rw [sectorSize_eq] at hmul hs ⊢
    omega
  unfold reports sectorReport at *
  rw [filterMap_roundEvents, hsettle]
  · rw [List.filterMap_cons_none rfl, List.filterMap_cons_some (b := .progress (sectorOffset (s + 1)) size
      (w.errorCount + (unread e w (s + 1)).length)), List.filterMap_cons_none rfl]
    · rfl
    · show some (Report.progress (UInt64.ofNat (min (sectorSize * (s + 1)) size.toNat)) size
        (w.errorCount + ((enter e w size).readyToWrite ((enter e w size).point s)).errors)) = _
      rw [hoffset, herrors]
      rfl
  · rfl
  · exact fun ev hev => report_reading hev
  · exact fun ev hev => report_filing hev

/-- The sectors of a dump that did all of them, one after the other. -/
theorem Core.reports_finished {w' : World} (hc : (enter e w size).Core
      ((enter e w size).finished ((enter e w size).point (enter e w size).sectors)) w') :
    reports (w'.trace.drop w.trace.length) = (List.range (size.toNat / sectorSize)).flatMap (sectorReport e w size) := by
  rw [sectors_enter e w hmul] at hc
  apply hc.filterMap_finished
  · exact fun ev hev => report_framing hev
  · exact fun ev hev => report_filing hev
  · exact fun s hs => reports_roundEvents hle hmul hs

/-- What a dump that did all sectors wrote. -/
theorem Core.written_finished {w' : World} (hc : (enter e w size).Core
      ((enter e w size).finished ((enter e w size).point (enter e w size).sectors)) w')
    (hs : s < size.toNat / sectorSize) {i : Nat} (hi : i < sectorSize) : (w.written w')[sectorSize * s + i]? =
      some (if ReadInThree e w s then e.disc (sectorSize * s + i) else 0) := by
  have hwritten : w.written w' = (enter e w size).image := by
    rw [(leaves_finished hc).written_eq (w := w) rfl, Log.all_closed, image_eq]
  rw [hwritten, getElem?_image _ (by rw [sectors_enter e w hmul]; exact hs) (by rw [len_enter e w hs]; exact hi)]
  split
  · rw [data_enter_of_read e w hle hs ‹_›]
    simp [bytesAt, hi]
  · rw [data_enter_of_not_read e w hle hs ‹_›]
    simp [hi]

end Job

section Report

variable (e : Env) (fuel : Nat) {w w' : World} {diskType : Int} {size : UInt64}

/-- **The error report is complete and exact.** When a dump of `n` sectors has returned 0, the errors counted are the
sectors not read within three attempts; the error lines name their positions in increasing order, each with a zero fill;
every progress line counts those up to its own sector; and it is these sectors, and no others, that are zeros in the
image. -/
theorem error_report (hmul : sectorSize ∣ size.toNat) (hle : size.toNat ≤ 2 ^ 34)
    (hrun : (dump e fuel (some .localId) diskType size).run w = .ok 0 w') :
    let n := size.toNat / sectorSize
    w'.errorCount = w.errorCount + (unread e w n).length ∧
      reports (w'.trace.drop w.trace.length) = (List.range n).flatMap (sectorReport e w size) ∧
      errorOffsets (w'.trace.drop w.trace.length) = (unread e w n).map sectorOffset ∧
      (errorOffsets (w'.trace.drop w.trace.length)).map UInt64.toNat = (unread e w n).map (sectorSize * ·) ∧
      ((errorOffsets (w'.trace.drop w.trace.length)).map UInt64.toNat).Pairwise (· < ·) ∧
      ∀ s < n, ∀ i < sectorSize, (w.written w')[sectorSize * s + i]? =
        some (if ReadInThree e w s then e.disc (sectorSize * s + i) else 0) := by
  intro n
  obtain ⟨-, hc⟩ := Job.finished_of_return hrun
  have hreports := Job.Core.reports_finished hle hmul hc
  have hoffsets : errorOffsets (w'.trace.drop w.trace.length) = (unread e w n).map sectorOffset := by
    rw [errorOffsets, hreports, filterMap_sectorReports]
  have hnat : (errorOffsets (w'.trace.drop w.trace.length)).map UInt64.toNat = (unread e w n).map (sectorSize * ·) := by
    rw [hoffsets, List.map_map]
    exact List.map_congr_left fun s hs => toNat_sectorOffset_unread hmul hle hs
  refine ⟨?_, hreports, hoffsets, hnat, ?_, ?_⟩
  · rw [hc.errorCount]
    show w.errorCount + (((Job.enter e w size).point (Job.enter e w size).sectors).errors : Int) = _
    rw [Job.sectors_enter e w hmul, Job.errors_enter hle (Nat.le_refl _)]
  · rw [hnat]
    exact pairwise_positions _
  · intro s hs i hi
    exact Job.Core.written_finished hle hmul hc hs hi

/-- A disc of two sectors: the first one is read at the second try, the second one never. -/
theorem error_report_second :
    let e : Env := { Env.calm fun _ => 7 with
      attempt := fun r t => if r.start = 0 ∧ t = 1 then .ok else .err fun _ => 9 }
    let w : World := { World.boot (fun _ _ => 0) (fun _ => none) with cancelOnError := false }
    ∃ w', (dump e 0 (some .localId) isNgcDisk 4096).run w = .ok 0 w' ∧ w'.errorCount = 1 ∧
      errorOffsets (w'.trace.drop w.trace.length) = [2048] := by
  intro e w
  obtain ⟨w', hrun, -⟩ := (Job.ended_dump 0 w isNgcDisk 4096 (e := e) rfl).of_pass fun s hs =>
    halt_enter e w 4096 (fun _ => rfl) (fun _ => rfl) (fun _ => UInt32.zero_and) hs (Or.inr rfl)
  obtain ⟨hcount, -, hoffsets, -⟩ := error_report e 0 (by decide) (by decide) hrun
  exact ⟨w', hrun, hcount, hoffsets⟩

end Report

end TakeADump
