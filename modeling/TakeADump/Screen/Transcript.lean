import TakeADump.Model.Console
import TakeADump.Dump.Report

/-!
# Reading the console

The text a dump leaves on the console is read back line by line (`readErrors`): the cursor sequences before a line are
dropped, and a line that begins as an error line has an offset in hexadecimal. What is read back is what was meant
(`readErrors_text`), since no other line of a dump begins like that, and none has a newline inside. So from the console
text of a dump that returned 0 alone one knows which sectors of the image are zeros in place of data
(`transcript_report`).
-/

namespace TakeADump

open Printf

/-! ## The reader -/

/-- How an error line begins. -/
def errorText : Bytes := CFormat.ascii "Error reading disk at offset 0x"

/-- A line without the cursor sequences before it. -/
def dropUps : Bytes → Bytes
  | 27 :: 91 :: 49 :: 65 :: l => dropUps l
  | l => l

/-- The offset of an error line. -/
def readError (l : Bytes) : Option Nat :=
  if errorText.isPrefixOf l then some (value 16 ((l.drop errorText.length).takeWhile (· ≠ 46))) else none

/-- The offsets of the error lines of a text that goes on the unfinished line `cur`. -/
def readErrorsFrom (cur text : Bytes) : List Nat := (lines cur text).filterMap fun l => readError (dropUps l)

def readErrors (text : Bytes) : List Nat := readErrorsFrom [] text

/-- The offset an error line is about. -/
def Event.errorAt (ev : Event) : Option Nat := (ev.report.bind Report.unreadable?).map UInt64.toNat

theorem filterMap_errorAt (evs : List Event) : evs.filterMap Event.errorAt = (errorOffsets evs).map UInt64.toNat := by
  rw [errorOffsets, reports, List.filterMap_filterMap, List.map_filterMap]
  rfl

/-! ## Tidy events -/

/-- So many cursor sequences. -/
def ups (n : Nat) : Bytes := (List.replicate n escUp).flatten

/-- An event with no text, one cursor sequence, or one line that is read as what it says. -/
inductive Tidy (minutes : Int) (ev : Event) : Prop
  | silent (htext : ev.text minutes = []) (h : ev.errorAt = none)
  | up (htext : ev.text minutes = escUp) (h : ev.errorAt = none)
  | line (l : Bytes) (htext : ev.text minutes = l ++ [10]) (hl : 10 ∉ l) (hesc : l.head? ≠ some 27)
    (h : readError l = ev.errorAt)

theorem dropUps_of_head {l : Bytes} (h : l.head? ≠ some 27) : dropUps l = l := by
  unfold dropUps
  split
  · exact absurd rfl h
  · rfl

theorem dropUps_ups {l : Bytes} (h : l.head? ≠ some 27) (n : Nat) : dropUps (ups n ++ l) = l := by
  induction n with
  | zero => exact dropUps_of_head h
  | succ n ih =>
    rw [ups, List.replicate_succ, List.flatten_cons, List.append_assoc]
    exact ih

theorem newline_not_mem_escUp : 10 ∉ escUp := by decide

/-- **The text of tidy events** is read as what they say. -/
theorem readErrors_text {minutes : Int} {evs : List Event} (h : ∀ ev ∈ evs, Tidy minutes ev) (n : Nat) :
    readErrorsFrom (ups n) (evs.flatMap (Event.text minutes)) = evs.filterMap Event.errorAt := by
  induction evs generalizing n with
  | nil => rfl
  | cons ev evs ih =>
    have hrest := fun n => ih (fun ev hev => h ev (List.mem_cons_of_mem _ hev)) n
    rw [List.flatMap_cons]
    rcases h ev List.mem_cons_self with ⟨htext, hat⟩ | ⟨htext, hat⟩ | ⟨l, htext, hl, hesc, hat⟩
    · rw [htext, List.nil_append, hrest, List.filterMap_cons_none hat]
    · have hups : ups n ++ escUp = ups (n + 1) := by
        rw [ups, ups, List.replicate_succ', List.flatten_append, List.flatten_singleton]
      rw [htext, readErrorsFrom, lines_append newline_not_mem_escUp, hups, ← readErrorsFrom, hrest,
        List.filterMap_cons_none hat]
    · have hrest₀ := hrest 0
      unfold readErrorsFrom at hrest₀ ⊢
      rw [htext, List.append_assoc, List.singleton_append, lines_line hl, List.filterMap_cons, dropUps_ups hesc, hat,
        List.filterMap_cons]
      rw [show ups 0 = [] from rfl] at hrest₀
      rw [hrest₀]

/-! ## The lines of a dump -/

section Lines

variable {minutes : Int} {b : UInt8}

/-- What numbers are written with: digits, minus and point. -/
def Numeric (b : UInt8) : Prop := 48 ≤ b ∧ b ≤ 57 ∨ 65 ≤ b ∧ b ≤ 70 ∨ b = 45 ∨ b = 46

theorem numeric_numeral {base n : Nat} (h2 : 1 < base) (hbase : base ≤ 16) (h : b ∈ numeral base n) :
    48 ≤ b ∧ b ≤ 57 ∨ 65 ≤ b ∧ b ≤ 70 := by
  unfold numeral at h
  split at h
  · rw [List.mem_singleton.1 h]
    decide
  · obtain ⟨d, hd, rfl⟩ := List.mem_map.1 (List.mem_reverse.1 h)
    have hlt : d < 16 := (Nat.digits_lt_base h2 hd).trans_le hbase
    clear h hd
    revert d
    decide

theorem numeric_pad {width : Nat} {l : Bytes} (hl : ∀ b ∈ l, 48 ≤ b ∧ b ≤ 57 ∨ 65 ≤ b ∧ b ≤ 70) (h : b ∈ pad width l) :
    48 ≤ b ∧ b ≤ 57 ∨ 65 ≤ b ∧ b ≤ 70 := by
  rcases List.mem_append.1 h with h | h
  · rw [(List.mem_replicate.1 h).2]
    decide
  · exact hl b h

theorem numeric_signed {width : Nat} {k : Int} (h : b ∈ signed width k) : Numeric b := by
  have hpad : ∀ {width n}, b ∈ pad width (numeral 10 n) → Numeric b := fun h =>
    (numeric_pad (fun _ => numeric_numeral (by decide) (by decide)) h).elim Or.inl fun h => Or.inr (Or.inl h)
  unfold signed at h
  split at h
  · rcases List.mem_cons.1 h with rfl | h
    · exact Or.inr (Or.inr (Or.inl rfl))
    · exact hpad h
  · exact hpad h

theorem numeric_fixed {x : ℚ} (h : b ∈ fixed x) : Numeric b := by
  have hpad : ∀ {n}, b ∈ numeral 10 n → Numeric b := fun h =>
    (numeric_numeral (by decide) (by decide) h).elim Or.inl fun h => Or.inr (Or.inl h)
  unfold fixed at h
  rcases List.mem_append.1 h with h | h
  · exact hpad h
  · rcases List.mem_cons.1 h with rfl | h
    · exact Or.inr (Or.inr (Or.inr rfl))
    · exact (numeric_pad (fun _ => numeric_numeral (by decide) (by decide)) h).elim Or.inl fun h => Or.inr (Or.inl h)

/-- An argument that is not a string. -/
def Arg.number : Arg → Prop
  | .text _ | .chars _ => False
  | _ => True

theorem numeric_convert {c : Conv} {a : Arg} (ha : a.number) (h : b ∈ a.convert minutes c) : Numeric b := by
  unfold Arg.convert at h
  split at h
  · exact ha.elim
  · exact ha.elim
  · exact numeric_signed h
  · exact numeric_signed h
  · exact numeric_signed h
  · exact numeric_signed h
  · exact (numeric_pad (fun _ => numeric_numeral (by decide) (by decide)) h).elim Or.inl fun h => Or.inr (Or.inl h)
  · exact numeric_fixed h
  · cases h

/-- A format without newline, with numbers for its conversions. -/
theorem newline_not_mem_vprintf {ps : List Piece} {args : List Arg} (hps : .byte 10 ∉ ps)
    (hargs : ∀ a ∈ args, a.number) : 10 ∉ Printf.vprintf (Arg.convert minutes) ps args := by
  have hne : ∀ b ∈ Printf.vprintf (Arg.convert minutes) ps args, b ≠ 10 := by
    refine forall_mem_vprintf (fun b hb heq => hps (heq ▸ hb)) fun a ha c b hb => ?_
    rintro rfl
    exact absurd (numeric_convert (hargs a ha) hb) (by unfold Numeric; decide)
  exact fun h => hne 10 h rfl

/-- A line that does not begin like an error line. -/
theorem tidy_print {fmt : String} {args : List Arg} {ps : List Piece} (hfmt : pieces fmt.toList = .byte b :: ps)
    (hesc : b ≠ 27) (hE : b ≠ 69) (hps : .byte 10 ∉ (.byte b :: ps : List Piece)) (hargs : ∀ a ∈ args, a.number)
    (hat : (Event.print fmt args).errorAt = none) : Tidy minutes (.print fmt args) := by
  have hnewline : 10 ∉ Printf.vprintf (Arg.convert minutes) (.byte b :: ps) args := newline_not_mem_vprintf hps hargs
  refine .line (Printf.vprintf (Arg.convert minutes) (.byte b :: ps) args) ?_ hnewline ?_ ?_
  · rw [← hfmt]
    rfl
  · rw [Printf.vprintf, List.head?_cons]
    exact fun h => hesc (Option.some.inj h)
  · rw [hat]
    have hprefix : errorText.isPrefixOf (Printf.vprintf (Arg.convert minutes) (.byte b :: ps) args) = false := by
      rw [Printf.vprintf, show errorText = 69 :: errorText.tail from rfl, List.isPrefixOf_cons_cons]
      simp [Ne.symm hE]
    rw [readError, hprefix]
    rfl

/-- The text of an error line. -/
theorem text_errorReport (s : Nat) : (errorReport s).text minutes =
    errorText ++ (pad 8 (numeral 16 (sectorOffset s).toNat) ++ [46]) ++ [10] := by
  have hpieces : pieces "Error reading disk at offset 0x%08llX.".toList =
      errorText.map .byte ++ [.conv (.hex 8), .byte 46] := by decide +kernel
  show Printf.vprintf (Arg.convert minutes) (pieces "Error reading disk at offset 0x%08llX.".toList)
    [.u64 (sectorOffset s)] ++ [10] = _
  rw [hpieces, vprintf_bytes]
  rfl

/-- **An error line** is read as the offset it is about. -/
theorem tidy_errorReport (s : Nat) : Tidy minutes (errorReport s) := by
  have hhex : ∀ {b}, b ∈ pad 8 (numeral 16 (sectorOffset s).toNat) → 48 ≤ b ∧ b ≤ 57 ∨ 65 ≤ b ∧ b ≤ 70 :=
    numeric_pad fun _ => numeric_numeral (by decide) (by decide)
  have hpoint : ∀ b ∈ pad 8 (numeral 16 (sectorOffset s).toNat), decide (b ≠ 46) = true := by
    intro b hb
    rw [decide_eq_true_iff]
    rintro rfl
    exact absurd (hhex hb) (by decide)
  refine .line _ (text_errorReport s) ?_ nofun ?_
  · rw [List.mem_append, List.mem_append, not_or, not_or]
    exact ⟨by decide, fun h => absurd (hhex h) (by decide), by decide⟩
  · have hprefix : errorText.isPrefixOf (errorText ++ (pad 8 (numeral 16 (sectorOffset s).toNat) ++ [46])) = true :=
      List.isPrefixOf_iff_prefix.2 (List.prefix_append _ _)
    rw [readError, if_pos hprefix, List.drop_left, List.takeWhile_append_of_pos hpoint,
      List.takeWhile_cons_of_neg (by decide),
      List.append_nil, value_pad, value_numeral (by decide) (by decide)]
    rw [Event.errorAt, report_errorReport]
    rfl

end Lines

/-! ## Dumps -/

namespace Job

variable {j : Job} {minutes : Int} {ev : Event}

theorem tidy_filing (h : ev.filing = true) : Tidy minutes ev := by
  cases ev <;> first | exact .silent rfl rfl | cases h

theorem tidy_reading (h : ev.reading = true) : Tidy minutes ev := by
  cases ev <;> first | exact .silent rfl rfl | cases h

theorem tidy_progress (p : Point) : Tidy minutes (j.progress p) :=
  tidy_print (b := 68) rfl (by decide) (by decide) (by decide) (by simp [Arg.number]) rfl

/-- All events of a round are tidy. -/
theorem tidy_roundEvents (s : Nat) (h : ev ∈ j.roundEvents s) : Tidy minutes ev := by
  unfold roundEvents at h
  simp only [List.mem_cons, List.mem_append, List.not_mem_nil, or_false] at h
  rcases h with rfl | ((h | h) | h) | rfl | rfl | rfl
  · exact .up rfl rfl
  · exact tidy_filing (j.filing_rollEvents _ ev h)
  · exact tidy_reading (j.reading_readEvents s ev h)
  · unfold settleEvents at h
    split at h
    · cases h
    · rcases List.mem_cons.1 h with rfl | h
      · exact tidy_errorReport s
      · rw [List.mem_singleton.1 h]
        exact .silent rfl rfl
  · exact .silent rfl rfl
  · exact tidy_progress _
  · exact .silent rfl rfl

/-- All events of a dump that did all sectors are tidy. -/
theorem tidy_finished {e : Env} {w w' : World} {size : UInt64} {k : Nat}
    (hc : (enter e w size).Core ((enter e w size).finished ((enter e w size).point k)) w')
    (h : ev ∈ w'.trace.drop w.trace.length) : Tidy minutes ev := by
  rw [hc.trace_enter, trace_finished, point_trace] at h
  simp only [List.mem_append, List.mem_cons, List.not_mem_nil, or_false, List.mem_flatMap] at h
  rcases h with (rfl | rfl | rfl) | ⟨s, -, h⟩ | h | rfl | rfl
  · exact .silent rfl rfl
  · exact tidy_print (b := 84) rfl (by decide) (by decide) (by decide) nofun rfl
  · exact tidy_print (b := 68) rfl (by decide) (by decide) (by decide) nofun rfl
  · exact tidy_roundEvents s h
  · exact tidy_filing (filing_closeEvents _ _ ev h)
  · exact .silent rfl rfl
  · exact tidy_print (b := 68) rfl (by decide) (by decide) (by decide) (by simp [Arg.number]) rfl

end Job

section Transcript

variable (e : Env) (fuel : Nat) {w w' : World} {diskType : Int} {size : UInt64}

/-- **The console tells which sectors are missing.** From the bytes a dump that returned 0 sent to the console, cursor
sequences and all, one reads the positions of exactly the sectors that were not read within three attempts, in order. -/
theorem transcript_report (minutes : Int) (hmul : sectorSize ∣ size.toNat) (hle : size.toNat ≤ 2 ^ 34)
    (hrun : (dump e fuel (some .localId) diskType size).run w = .ok 0 w') :
    readErrors ((w'.trace.drop w.trace.length).flatMap (Event.text minutes)) =
      (unread e w (size.toNat / sectorSize)).map (sectorSize * ·) := by
  obtain ⟨-, hc⟩ := Job.finished_of_return hrun
  have htidy : ∀ ev ∈ w'.trace.drop w.trace.length, Tidy minutes ev := fun ev hev => Job.tidy_finished hc hev
  have htext := readErrors_text htidy 0
  rw [readErrors, show ([] : Bytes) = ups 0 from rfl, htext, filterMap_errorAt, errorOffsets,
    Job.Core.reports_finished hle hmul hc, filterMap_sectorReports, List.map_map]
  exact List.map_congr_left fun s hs => toNat_sectorOffset_unread hmul hle hs

/-- A disc of two sectors, of which the second one is never read. -/
theorem transcript_report_second :
    let e : Env := { Env.calm fun _ => 7 with attempt := fun r _ => if r.start = 0 then .ok else .err fun _ => 9 }
    let w : World := { World.boot (fun _ _ => 0) (fun _ => none) with cancelOnError := false }
    ∃ w', (dump e 0 (some .localId) isNgcDisk 4096).run w = .ok 0 w' ∧
      readErrors ((w'.trace.drop w.trace.length).flatMap (Event.text 0)) = [2048] := by
  intro e w
  obtain ⟨w', hrun, -⟩ := (Job.ended_dump 0 w isNgcDisk 4096 (e := e) rfl).of_pass fun s hs =>
    halt_enter e w 4096 (fun _ => rfl) (fun _ => rfl) (fun _ => UInt32.zero_and) hs (Or.inr rfl)
  exact ⟨w', hrun, transcript_report e 0 0 (by decide) (by decide) hrun⟩

end Transcript

end TakeADump
