import TakeADump.Dump.Report
import TakeADump.Dump.Stages
import TakeADump.Model.Console
import TakeADump.Session.Account

/-!
# What a dump saves

The lengths of the parts at any moment of a dump are one of the two layouts of the bytes copied so far, with or without
an open part (`Layout`). `Saves`: the parts have given lengths and hold the disc, with zeros for the sectors that were
reported, as far as the events tell. The operations of `dump` move it on.
-/

namespace TakeADump

/-! ## Layouts -/

/-- The lengths of the parts that hold `b` bytes, -/
def partLengths (b : Nat) : List Nat :=
  List.replicate (b / chunkSize) chunkSize ++ if b % chunkSize = 0 then [] else [b % chunkSize]

/-- and when one with room for more is open. -/
def openLengths (b : Nat) : List Nat := List.replicate (b / chunkSize) chunkSize ++ [b % chunkSize]

/-- The parts hold `b` bytes. -/
def Layout (lens : List Nat) (b : Nat) : Prop := lens = partLengths b ∨ lens = openLengths b

section Layout

variable {b n : Nat} {lens : List Nat}

theorem partLengths_of_dvd (h : chunkSize ∣ b) : partLengths b = List.replicate (b / chunkSize) chunkSize := by
  rw [partLengths, if_pos (Nat.mod_eq_zero_of_dvd h), List.append_nil]

theorem openLengths_of_dvd (h : chunkSize ∣ b) : openLengths b = partLengths b ++ [0] := by
  rw [partLengths_of_dvd h, openLengths, Nat.mod_eq_zero_of_dvd h]

theorem openLengths_of_not_dvd (h : ¬ chunkSize ∣ b) : openLengths b = partLengths b := by
  rw [partLengths, if_neg fun h0 => h (Nat.dvd_of_mod_eq_zero h0)]
  rfl

theorem length_openLengths (b : Nat) : (openLengths b).length = b / chunkSize + 1 := by simp [openLengths]

/-- Less than a sector fits into the open part. -/
theorem openLengths_add (hb : sectorSize ∣ b) (hn : n < sectorSize) :
    openLengths (b + n) = List.replicate (b / chunkSize) chunkSize ++ [b % chunkSize + n] := by
  have hdiv : (b + n) / chunkSize = b / chunkSize ∧ (b + n) % chunkSize = b % chunkSize + n := by
    rw [sectorSize_eq] at hb hn
    unfold chunkSize
    omega
  rw [openLengths, hdiv.1, hdiv.2]

/-- A sector fits into the open part. -/
theorem partLengths_add (hb : sectorSize ∣ b) :
    partLengths (b + sectorSize) = List.replicate (b / chunkSize) chunkSize ++ [b % chunkSize + sectorSize] := by
  rw [sectorSize_eq] at hb ⊢
  by_cases hfull : b % chunkSize + 2048 = chunkSize
  · have hdiv : (b + 2048) / chunkSize = b / chunkSize + 1 ∧ (b + 2048) % chunkSize = 0 := by
      unfold chunkSize at hfull ⊢
      omega
    rw [partLengths, hdiv.1, if_pos hdiv.2, hfull, List.append_nil, List.replicate_succ']
  · have hdiv : (b + 2048) / chunkSize = b / chunkSize ∧ (b + 2048) % chunkSize = b % chunkSize + 2048 := by
      unfold chunkSize at hfull ⊢
      omega
    rw [partLengths, hdiv.1, hdiv.2, if_neg (by omega)]

theorem Layout.sum (h : Layout lens b) : lens.sum = b := by
  have hdiv := Nat.div_add_mod b chunkSize
  rw [Nat.mul_comm] at hdiv
  rcases h with rfl | rfl
  · unfold partLengths
    split
    · rename_i hmod
      rw [List.append_nil, List.sum_replicate_nat]
      omega
    · rw [List.sum_append, List.sum_replicate_nat, List.sum_singleton, hdiv]
  · rw [openLengths, List.sum_append, List.sum_replicate_nat, List.sum_singleton, hdiv]

/-- All parts but the last are full, and none is longer. -/
theorem Layout.full (h : Layout lens b) :
    (∀ i, i + 1 < lens.length → lens[i]? = some chunkSize) ∧ ∀ len ∈ lens, len ≤ chunkSize := by
  have hlt : b % chunkSize < chunkSize := Nat.mod_lt _ chunkSize_pos
  have hopen : (∀ i, i + 1 < (openLengths b).length → (openLengths b)[i]? = some chunkSize) ∧
      ∀ len ∈ openLengths b, len ≤ chunkSize := by
    refine ⟨fun i hi => ?_, fun len hlen => ?_⟩
    · rw [length_openLengths] at hi
      rw [openLengths, List.getElem?_append_left (by rw [List.length_replicate]; omega), List.getElem?_replicate,
        if_pos (by omega)]
    · rcases List.mem_append.1 hlen with hlen | hlen
      · rw [(List.mem_replicate.1 hlen).2]
      · rw [List.mem_singleton.1 hlen]
        exact hlt.le
  rcases h with rfl | rfl
  · by_cases hdvd : chunkSize ∣ b
    · rw [partLengths_of_dvd hdvd]
      refine ⟨fun i hi => ?_, fun len hlen => ((List.mem_replicate.1 hlen).2).le⟩
      rw [List.length_replicate] at hi
      rw [List.getElem?_replicate, if_pos (by omega)]
    · rwa [← openLengths_of_not_dvd hdvd]
  · exact hopen

end Layout

/-! ## What a dump saves -/

/-- The progress lines among the events. -/
def shownLines (evs : List Event) : Nat := (evs.filterMap Event.percent).length

/-- The disc, with zeros for the sectors that were reported. -/
def salvaged (disc : Nat → UInt8) (evs : List Event) (i : Nat) : UInt8 :=
  if sectorOffset (i / sectorSize) ∈ errorOffsets evs then 0 else disc i

/-- The parts have these lengths and hold the disc, one after the other. -/
def Saves (disc : Nat → UInt8) (past : List Event) (lens : List Nat) : Prop :=
  ∃ parts, (account disc past).parts = some parts ∧ parts.map List.length = lens ∧
    parts.flatten = bytesAt (salvaged disc past) lens.sum

/-- The parts stay as they are, and no sector is told of. -/
structure Still (ev : Event) : Prop where
  parts : ∀ disc (a : Account), (a.step disc ev).parts = a.parts
  percent : ev.percent = none
  report : errorOffsets [ev] = []

section Saves

variable {disc : Nat → UInt8} {past : List Event} {ev : Event} {lens : List Nat} {i k n : Nat}

theorem errorOffsets_snoc (past : List Event) (ev : Event) :
    errorOffsets (past ++ [ev]) = errorOffsets past ++ errorOffsets [ev] := by
  simp [errorOffsets, reports, List.filterMap_append]

theorem errorOffsets_none (h : errorOffsets [ev] = []) : errorOffsets (past ++ [ev]) = errorOffsets past := by
  rw [errorOffsets_snoc, h, List.append_nil]

theorem errorOffsets_print {fmt : String} (h : fmt ≠ reportLine) (args : List Arg) :
    errorOffsets [.print fmt args] = [] := by
  have hreport : ∀ offset, (Event.print fmt args).report ≠ some (.unreadable offset) := by
    intro offset
    unfold Event.report
    split
    · rename_i heq
      cases heq
      exact fun hsome => h (Option.ite_none_right_eq_some.1 hsome).1
    · exact nofun
    · rename_i heq
      cases heq
    · exact nofun
  cases hcase : (Event.print fmt args).report with
  | none => simp [errorOffsets, reports, hcase]
  | some r =>
    cases r with
    | unreadable offset => exact absurd hcase (hreport offset)
    | zeroed _ | progress _ _ _ => simp [errorOffsets, reports, hcase, Report.unreadable?]

theorem errorOffsets_errorReport (n : Nat) : errorOffsets [errorReport n] = [sectorOffset n] := by
  rw [errorOffsets, reports, List.filterMap_cons_some (report_errorReport n)]
  rfl

theorem sectorOffset_ne (hk : k < n) (hn : sectorSize * n < 2 ^ 64) : sectorOffset k ≠ sectorOffset n := by
  intro heq
  have hlt : sectorSize * k < sectorSize * n := Nat.mul_lt_mul_of_pos_left hk sectorSize_pos
  have h := congrArg UInt64.toNat heq
  rw [Job.toNat_sectorOffset hn, Job.toNat_sectorOffset (hlt.trans hn)] at h
  omega

theorem shownLines_none (h : ev.percent = none) : shownLines (past ++ [ev]) = shownLines past := by
  rw [shownLines, List.filterMap_append, List.filterMap_cons_none h, List.filterMap_nil, List.append_nil, shownLines]

theorem salvaged_of_no_report (h : errorOffsets [ev] = []) : salvaged disc (past ++ [ev]) = salvaged disc past := by
  funext i
  rw [salvaged, errorOffsets_none h, salvaged]

/-- A report says nothing of the sectors before. -/
theorem salvaged_report (hi : i < sectorSize * n) (hn : sectorSize * n < 2 ^ 64) :
    salvaged disc (past ++ [errorReport n]) i = salvaged disc past i := by
  have hne : sectorOffset (i / sectorSize) ≠ sectorOffset n :=
    sectorOffset_ne (Nat.div_lt_of_lt_mul hi) hn
  rw [salvaged, errorOffsets_snoc, errorOffsets_errorReport, salvaged]
  simp [hne]

theorem Saves.still (h : Saves disc past lens) (hev : Still ev) : Saves disc (past ++ [ev]) lens := by
  obtain ⟨parts, hparts, hlens, hbytes⟩ := h
  refine ⟨parts, ?_, hlens, ?_⟩
  · rw [account_snoc, hev.parts, hparts]
  · rw [salvaged_of_no_report hev.report, hbytes]

theorem Saves.report (h : Saves disc past lens) (hsum : lens.sum ≤ sectorSize * n) (hn : sectorSize * n < 2 ^ 64) :
    Saves disc (past ++ [errorReport n]) lens := by
  obtain ⟨parts, hparts, hlens, hbytes⟩ := h
  refine ⟨parts, ?_, hlens, ?_⟩
  · rw [account_snoc]
    exact hparts
  · rw [hbytes, Job.bytesAt_congr]
    exact fun i hi => (salvaged_report (hi.trans_le hsum) hn).symm

theorem Saves.fopen (h : Saves disc past lens) (filename : Bytes) :
    Saves disc (past ++ [.fopen filename true]) (lens ++ [0]) := by
  obtain ⟨parts, hparts, hlens, hbytes⟩ := h
  refine ⟨parts ++ [[]], ?_, by simp [hlens], ?_⟩
  · rw [account_snoc]
    exact congrArg (Option.map (· ++ [[]])) hparts
  · rw [salvaged_of_no_report rfl]
    simp [hbytes]

/-- What is known to stand in the buffer goes to the last part. -/
theorem Saves.fwrite {full : List Nat} {last m : Nat} (h : Saves disc past (full ++ [last]))
    (hbuffer : (account disc past).buffer = bytesAt (fun i => salvaged disc past ((full ++ [last]).sum + i)) m)
    (hn : n ≤ m) (asked : Nat) :
    Saves disc (past ++ [.fwrite (some full.length) asked n]) (full ++ [last + n]) := by
  obtain ⟨parts, hparts, hlens, hbytes⟩ := h
  obtain ⟨front, back, rfl, hfront, hback⟩ := List.map_eq_append_iff.1 hlens
  obtain ⟨p, rfl, rfl⟩ := List.map_eq_singleton_iff.1 hback
  have htake : (account disc past).buffer.take n =
      bytesAt (fun i => salvaged disc past ((full ++ [p.length]).sum + i)) n := by
    rw [hbuffer, ← Job.bytesAt_take _ hn]
  refine ⟨front ++ [p ++ (account disc past).buffer.take n], ?_, ?_, ?_⟩
  · rw [account_snoc]
    show (if n ≤ (account disc past).buffer.length then Option.map _ (account disc past).parts else none) = _
    rw [if_pos (by rwa [hbuffer, length_bytesAt]), hparts, Option.map_some, ← hfront, List.length_map]
    exact congrArg some (Job.modify_last _ p front)
  · rw [List.map_append, hfront, List.map_singleton, List.length_append, htake, length_bytesAt]
  · rw [salvaged_of_no_report rfl, List.flatten_append, List.flatten_singleton, ← List.append_assoc, htake]
    rw [List.flatten_append, List.flatten_singleton] at hbytes
    rw [hbytes, ← bytesAt_add]
    simp [Nat.add_assoc]

end Saves

end TakeADump
