import TakeADump.Screen.Progress
import TakeADump.Screen.Rows
import TakeADump.Session.Reset

/-!
# What is seen of a dump

The bytes of a dump on a terminal: before each sector the cursor goes up one row, so the next line replaces the last
progress line. Lines are not cleared, so this is right only because no progress line is shorter than the one before,
and because no line of a dump is longer than a row.

`main_screen`: whenever a progress line was printed, it stands alone in its row, below the error reports, each of which
still has its own row, and the rows above the dump are as they were.
-/

namespace TakeADump

open Printf

namespace Session

section Seen

variable {σ : Type} (T : Terminal σ) (minutes : Int) (t : σ)

/-- What is seen after some events. -/
def seen (evs : List Event) : Option View := T.view (T.feeds t (evs.flatMap (Event.text minutes)))

variable {T minutes t} {past : List Event} {ev : Event} {v : View} {l : Bytes}

theorem seen_snoc (past : List Event) (ev : Event) : seen T minutes t (past ++ [ev]) =
    T.view (T.feeds (T.feeds t (past.flatMap (Event.text minutes))) (ev.text minutes)) := by
  rw [seen, List.flatMap_append, List.flatMap_singleton, T.feeds_append]

theorem seen_silent (h : ev.text minutes = []) : seen T minutes t (past ++ [ev]) = seen T minutes t past := by
  rw [seen_snoc, h]
  rfl

theorem seen_up (h : seen T minutes t past = some v) (hrow : 0 < v.row) :
    seen T minutes t (past ++ [.moveUp]) = some v.up := by
  rw [seen_snoc]
  exact T.up h hrow

theorem seen_line (h : seen T minutes t past = some v) (htext : ev.text minutes = l ++ [10])
    (hl : ∀ b ∈ l, Printable b) (hwidth : l.length ≤ T.width) (hcol : v.col = 0) :
    seen T minutes t (past ++ [ev]) = some (v.line l) := by
  rw [seen_snoc, htext]
  exact T.view_line h hl hwidth hcol

end Seen

/-- The next progress line. -/
def Copy.line (c : Copy) : Bytes := progressText (sectorOffset (c.done + 1)) c.size c.errors

/-- The rows of a dump between its first one and the cursor, apart from those of the reports. -/
def Sector.below : Sector → Nat
  | .heading => 0
  | .ready | .shown => 2
  | _ => 1

/-- The counters of a copy and what the events tell of them. -/
structure Counted (past : List Event) (c : Copy) (s : Sector) : Prop where
  errors : c.errors = (errorOffsets past).length
  bound : c.errors ≤ c.done ∨ s.late ∧ c.errors = c.done + 1
  start : s = .heading → c.errors = 0
  room : ¬ s.between → sectorSize * c.done < c.size.toNat
  size : c.size.toNat ≤ 2 ^ 34
  whole : sectorSize ∣ c.size.toNat

/-- The copy as it is seen. -/
structure Displayed (v₀ : View) (past : List Event) (c : Copy) (s : Sector) (v : View) : Prop where
  col : v.col = 0
  row : v.row = v₀.row + s.below + (errorOffsets past).length
  rows : Rows v₀ (errorOffsets past) c.line.length v

section Display

variable {σ : Type} {T : Terminal σ} {minutes : Int} {t : σ} {v₀ v : View} {past : List Event} {ev : Event}
  {c c' : Copy} {s s' : Sector} {q q' : Phase}

variable (T minutes t v₀) in
/-- A copy and how it is seen. -/
def OnScreen (past : List Event) (c : Copy) (s : Sector) : Prop :=
  Counted past c s ∧ ∃ v, seen T minutes t past = some v ∧ Displayed v₀ past c s v

variable (T minutes t v₀) in
/-- A dump was started on a terminal with nothing below the cursor. -/
structure Opening (past : List Event) (c : Copy) : Prop where
  seen : seen T minutes t past = some v₀
  col : v₀.col = 0
  blank : ∀ r, v₀.row < r → v₀.text r = []
  reported : errorOffsets past = []
  errors : c.errors = 0
  size : c.size.toNat ≤ 2 ^ 34
  whole : sectorSize ∣ c.size.toNat

variable (T minutes t v₀) in
/-- What is seen of a dump in each phase. -/
def Display (past : List Event) : Phase → Prop
  | .starting c => Opening T minutes t v₀ past c
  | .copying c s => OnScreen T minutes t v₀ past c s
  | .returning due _ => ∀ ev ∈ due, Closing ev
  | .failing line => line.percent = none
  | .leaving | .quitting | .exiting | .exited => True
  | _ => False

/-- An event without text. -/
theorem OnScreen.silent (h : OnScreen T minutes t v₀ past c s) (htext : ev.text minutes = [])
    (hreport : errorOffsets [ev] = []) (hc : c'.done = c.done ∧ c'.errors = c.errors ∧ c'.size = c.size)
    (hbelow : s'.below = s.below) (hlate : s.late → s'.late) (hstart : s' ≠ .heading)
    (hroom : ¬ s'.between → sectorSize * c.done < c.size.toNat) : OnScreen T minutes t v₀ (past ++ [ev]) c' s' := by
  obtain ⟨hdone, herrors, hsize⟩ := hc
  obtain ⟨hcount, v, hseen, hdisplayed⟩ := h
  have hline : c'.line = c.line := by rw [Copy.line, hdone, herrors, hsize, Copy.line]
  constructor
  · constructor
    · rw [herrors, errorOffsets_none hreport, hcount.errors]
    · rw [herrors, hdone]
      exact hcount.bound.imp_right fun h => ⟨hlate h.1, h.2⟩
    · exact fun heq => (hstart heq).elim
    · rw [hdone, hsize]
      exact hroom
    · rw [hsize]
      exact hcount.size
    · rw [hsize]
      exact hcount.whole
  · refine ⟨v, (seen_silent htext).trans hseen, hdisplayed.col, ?_, ?_⟩
    · rw [errorOffsets_none hreport, hbelow]
      exact hdisplayed.row
    · rw [errorOffsets_none hreport, hline]
      exact hdisplayed.rows

/-- A line without arguments. -/
theorem text_plain {fmt : String} (h : pieces fmt.toList = (CFormat.ascii fmt).map .byte) :
    (Event.print fmt []).text minutes = CFormat.ascii fmt ++ [10] := by
  show Printf.vprintf (Arg.convert minutes) (pieces fmt.toList) [] ++ [10] = _
  rw [h, ← List.append_nil (List.map _ _), vprintf_bytes, Printf.vprintf, List.append_nil]

/-- The heading. -/
theorem onScreen_heading (hwidth : 60 ≤ T.width) (h : OnScreen T minutes t v₀ past c .heading) :
    OnScreen T minutes t v₀ (past ++ [.print "Taking a dump..." []]) c .zero := by
  obtain ⟨hcount, v, hseen, hdisplayed⟩ := h
  have hnone : errorOffsets past = [] := List.length_eq_zero_iff.1 (hcount.errors.symm.trans (hcount.start rfl))
  have hreport : errorOffsets (past ++ [.print "Taking a dump..." []]) = [] := (errorOffsets_none rfl).trans hnone
  have hrow := hdisplayed.row
  have hrows := hdisplayed.rows
  rw [hnone] at hrow hrows
  have htext : (Event.print "Taking a dump..." []).text minutes = CFormat.ascii "Taking a dump..." ++ [10] :=
    text_plain (by decide +kernel)
  have hlen : (CFormat.ascii "Taking a dump...").length ≤ T.width := le_trans (by decide) hwidth
  constructor
  · exact ⟨by rw [hreport, hcount.start rfl]; rfl, hcount.bound.imp_right fun h => h.1.elim, nofun,
      fun hs => (hs trivial).elim, hcount.size, hcount.whole⟩
  · refine ⟨_, seen_line hseen htext (by decide +kernel) hlen hdisplayed.col, rfl, ?_, ?_⟩
    · rw [hreport]
      show v.row + 1 = v₀.row + 1 + 0
      rw [hrow]
      rfl
    · rw [hreport]
      exact hrows.heading hrow _

/-- The first progress line. -/
theorem onScreen_zero (hwidth : 60 ≤ T.width) (h : OnScreen T minutes t v₀ past c .zero) :
    OnScreen T minutes t v₀ (past ++ [.print "Dumped 0 bytes" []]) c .ready := by
  obtain ⟨hcount, v, hseen, hdisplayed⟩ := h
  have htext : (Event.print "Dumped 0 bytes" []).text minutes = CFormat.ascii "Dumped 0 bytes" ++ [10] :=
    text_plain (by decide +kernel)
  have hlen : (CFormat.ascii "Dumped 0 bytes").length = 14 := by decide
  have hshort : 14 ≤ c.line.length := by
    have hascii : (CFormat.ascii "Dumped ").length = 7 ∧ (CFormat.ascii " errors)").length = 8 := by decide
    unfold Copy.line progressText
    simp only [List.length_append]
    omega
  have hreport : errorOffsets (past ++ [.print "Dumped 0 bytes" []]) = errorOffsets past := errorOffsets_none rfl
  constructor
  · exact ⟨by rw [hreport]; exact hcount.errors, hcount.bound.imp_right fun h => h.1.elim, nofun,
      fun hs => (hs trivial).elim, hcount.size, hcount.whole⟩
  · refine ⟨_, seen_line hseen htext (by decide +kernel) (by omega) hdisplayed.col, rfl, ?_, ?_⟩
    · rw [hreport]
      show v.row + 1 = _
      rw [hdisplayed.row]
      show v₀.row + 1 + _ + 1 = v₀.row + 2 + _
      omega
    · rw [hreport]
      exact hdisplayed.rows.line hdisplayed.row (by omega) (Nat.le_refl _)

/-- The cursor goes back to the last progress line. -/
theorem onScreen_moveUp (h : OnScreen T minutes t v₀ past c .ready) (hroom : sectorSize * c.done < c.size.toNat)
    (hs' : s'.below = 1) : OnScreen T minutes t v₀ (past ++ [.moveUp]) c s' := by
  obtain ⟨hcount, v, hseen, hdisplayed⟩ := h
  have hrow : v.row = v₀.row + 2 + (errorOffsets past).length := hdisplayed.row
  have hreport : errorOffsets (past ++ [.moveUp]) = errorOffsets past := errorOffsets_none rfl
  constructor
  · refine ⟨by rw [hreport]; exact hcount.errors, hcount.bound.imp_right fun h => h.1.elim, ?_, fun _ => hroom,
      hcount.size, hcount.whole⟩
    rintro rfl
    cases hs'
  · refine ⟨_, seen_up hseen (by omega), hdisplayed.col, ?_, ?_⟩
    · rw [hreport, hs']
      show v.row - 1 = _
      omega
    · rw [hreport]
      exact ⟨hdisplayed.rows.last, hdisplayed.rows.blank, hdisplayed.rows.reports, hdisplayed.rows.above⟩

/-- An error report takes the place of the last progress line. -/
theorem onScreen_report (hwidth : 60 ≤ T.width) {n : Nat} (h : OnScreen T minutes t v₀ past c (.reading n)) :
    OnScreen T minutes t v₀ (past ++ [errorReport c.done]) { c with errors := c.errors + 1 } .reported := by
  obtain ⟨hcount, v, hseen, hdisplayed⟩ := h
  have hroom := hcount.room id
  have hsize := hcount.size
  have hreport : errorOffsets (past ++ [errorReport c.done]) = errorOffsets past ++ [sectorOffset c.done] := by
    rw [errorOffsets_snoc, errorOffsets_errorReport]
  have hoffset : (sectorOffset c.done).toNat < 2 ^ 34 := by
    rw [Job.toNat_sectorOffset (by omega)]
    omega
  have hlen := (length_reportText_le hoffset).trans hwidth
  constructor
  · refine ⟨?_, ?_, nofun, fun _ => hroom, hsize, hcount.whole⟩
    · rw [hreport, List.length_append, ← hcount.errors]
      rfl
    · rcases hcount.bound with hle | ⟨hlate, -⟩
      · exact (Nat.lt_or_eq_of_le (Nat.succ_le_succ hle)).imp Nat.le_of_lt_succ fun heq => ⟨trivial, heq⟩
      · exact hlate.elim
  · refine ⟨_, seen_line hseen (text_errorReport c.done) (printable_reportText _) hlen hdisplayed.col, rfl, ?_, ?_⟩
    · rw [hreport, List.length_append, List.length_singleton]
      show v.row + 1 = v₀.row + 1 + _
      rw [hdisplayed.row]
      rfl
    · rw [hreport]
      exact hdisplayed.rows.report hdisplayed.row _ _

/-- The next progress line fits into a row. -/
theorem Counted.length_line (h : Counted past c s) (hs : ¬ s.between) : c.line.length ≤ 60 := by
  have hroom := h.room hs
  have hsize := h.size
  obtain ⟨m, hm⟩ := h.whole
  have hle : sectorSize * (c.done + 1) ≤ c.size.toNat := by
    rw [hm] at hroom ⊢
    exact Nat.mul_le_mul_left _ (Nat.lt_of_mul_lt_mul_left hroom)
  refine length_progressText_le ?_ hsize (by omega) ?_
  · rw [UInt64.le_iff_toNat_le, Job.toNat_sectorOffset (by omega)]
    exact hle
  · rw [sectorSize_eq] at hroom
    have hbound := h.bound
    omega

/-- The progress line takes the place of the last one, or follows the error report. -/
theorem onScreen_progress (hwidth : 60 ≤ T.width) (hcount : Counted past c .written)
    (hseen : seen T minutes t past = some v) (hdisplayed : Displayed v₀ past c .written v) :
    OnScreen T minutes t v₀ (past ++ [c.progress]) { c with done := c.done + 1 } .shown := by
  have hreport : errorOffsets (past ++ [c.progress]) = errorOffsets past := errorOffsets_none rfl
  have hmono : c.line.length ≤ ({ c with done := c.done + 1 } : Copy).line.length := by
    have hroom := hcount.room id
    have hsize := hcount.size
    rw [sectorSize_eq] at hroom
    refine length_progressText_mono ?_
    rw [UInt64.le_iff_toNat_le, Job.toNat_sectorOffset (by rw [sectorSize_eq]; omega),
      Job.toNat_sectorOffset (by rw [sectorSize_eq]; show 2048 * (c.done + 1 + 1) < _; omega)]
    exact Nat.mul_le_mul_left _ (Nat.le_succ _)
  constructor
  · refine ⟨by rw [hreport]; exact hcount.errors, Or.inl ?_, nofun, fun hs => (hs trivial).elim, hcount.size,
      hcount.whole⟩
    show c.errors ≤ c.done + 1
    exact hcount.bound.elim (fun h => h.trans (Nat.le_succ _)) fun h => h.2.le
  · refine ⟨_, seen_line hseen (text_progressLine _ _ _) (printable_progressText _ _ _)
      ((hcount.length_line id).trans hwidth) hdisplayed.col, rfl, ?_, ?_⟩
    · rw [hreport]
      show v.row + 1 = v₀.row + 2 + _
      rw [hdisplayed.row]
      show v₀.row + 1 + _ + 1 = _
      omega
    · rw [hreport]
      exact hdisplayed.rows.line hdisplayed.row hmono hmono

/-- **Each step of the copy** is seen as it should be. -/
theorem display_copy (hwidth : 60 ≤ T.width) (h : OnScreen T minutes t v₀ past c s) (hmove : CopyMove c s ev q') :
    Display T minutes t v₀ (past ++ [ev]) q' := by
  cases hmove with
  | heading => exact onScreen_heading hwidth h
  | zero => exact onScreen_zero hwidth h
  | moveUp hroom hs' =>
    refine onScreen_moveUp h hroom ?_
    rcases hs' with ⟨-, rfl | rfl⟩ | ⟨-, rfl⟩ <;> rfl
  | close | create _ | command _ | invalidate | read | retry =>
    exact h.silent rfl rfl ⟨rfl, rfl, rfl⟩ rfl False.elim nofun fun _ => h.1.room id
  | report => exact onScreen_report hwidth h
  | fill | write => exact h.silent rfl rfl ⟨rfl, rfl, rfl⟩ rfl (fun _ => trivial) nofun fun _ => h.1.room id
  | progress =>
    obtain ⟨hcount, v, hseen, hdisplayed⟩ := h
    exact onScreen_progress hwidth hcount hseen hdisplayed
  | goOn buttons => exact h.silent rfl rfl ⟨rfl, rfl, rfl⟩ rfl False.elim nofun fun hs => (hs trivial).elim
  | complete _ | refused _ | short _ =>
    show ∀ ev ∈ _, Closing ev
    simp [Closing, Neutral, progressLine, reportLine]
  | cancel _ | home _ => trivial

theorem onScreen_allocate (h : Opening T minutes t v₀ past c) :
    OnScreen T minutes t v₀ (past ++ [.memalign true]) c .heading := by
  have hreport : errorOffsets (past ++ [.memalign true]) = [] := (errorOffsets_none rfl).trans h.reported
  constructor
  · exact ⟨by rw [hreport, h.errors]; rfl, Or.inl (by rw [h.errors]; exact Nat.zero_le _), fun _ => h.errors,
      fun hs => (hs trivial).elim, h.size, h.whole⟩
  · refine ⟨v₀, (seen_silent rfl).trans h.seen, h.col, by rw [hreport]; rfl, ?_⟩
    rw [hreport]
    exact ⟨by rw [h.blank _ (by simp)]; exact Nat.zero_le _, fun r hr => h.blank r (by simp at hr; omega), by simp,
      fun _ _ => rfl⟩

/-- **Each step of a session**, once a dump was started. -/
theorem Display.step (hwidth : 60 ≤ T.width) (h : Display T minutes t v₀ past q) (hstep : q.step ev = some q') :
    Display T minutes t v₀ (past ++ [ev]) q' := by
  cases move_of_step hstep with
  | allocate => exact onScreen_allocate h
  | refuse hdue _ => exact hdue
  | copy _ _ _ _ _ | progress | stop _ _ _ | cancel _ | quit _ => exact display_copy hwidth h (copyMove_of_step hstep)
  | due => exact fun ev hev => h ev (List.mem_cons_of_mem _ hev)
  | dumped =>
    unfold afterDump
    split
    · trivial
    · exact rfl
  | ask hq _ =>
    cases q with
    | leaving => trivial
    | choosing _ | mounting _ _ | finding _ | confirming _ _ => exact h.elim
    | _ => cases hq
  | fail | leave | quitted | exit => trivial
  | _ => exact h.elim

/-- **A progress line** stands alone in its row. -/
theorem Display.progress (hwidth : 60 ≤ T.width) (h : Display T minutes t v₀ past q) (hstep : q.step ev = some q')
    (hline : ev.percent ≠ none) : ∃ v, seen T minutes t (past ++ [ev]) = some v ∧
      ev.text minutes = v.text (v₀.row + 1 + (errorOffsets past).length) ++ [10] ∧
        Rows v₀ (errorOffsets past) (v.text (v₀.row + 1 + (errorOffsets past).length)).length v := by
  cases move_of_step hstep with
  | progress =>
    obtain ⟨hcount, v, hseen, hdisplayed⟩ := h
    have hrow : v.row = v₀.row + 1 + (errorOffsets past).length := hdisplayed.row
    have hlast := hdisplayed.rows.last
    have halone : (v.line _).text v.row = _ := View.line_text (hrow ▸ hlast)
    refine ⟨_, seen_line hseen (text_progressLine _ _ _) (printable_progressText _ _ _)
      ((hcount.length_line id).trans hwidth) hdisplayed.col, ?_, ?_⟩
    · rw [← hrow]
      exact (text_progressLine _ _ _).trans (congrArg (· ++ [10]) halone.symm)
    · rw [← hrow, View.line_text (hrow ▸ hlast)]
      exact hdisplayed.rows.line hrow (Nat.le_refl _) (Nat.le_refl _)
  | allocate | refuse _ _ | cancel _ | quit _ | dumped | leave | quitted | exit => exact (hline rfl).elim
  | copy hev _ _ _ _ | stop hev _ _ => exact (hline hev.plain.1).elim
  | due => exact (hline (h _ List.mem_cons_self).still.percent).elim
  | fail => exact (hline h).elim
  | ask hq hs => exact (hline hs.still.percent).elim
  | _ => exact h.elim

end Display

end Session

theorem size_whole (diskType : Int) : (getDiskSizeBytes diskType).toNat ≤ 2 ^ 34 ∧
    sectorSize ∣ (getDiskSizeBytes diskType).toNat := by
  unfold getDiskSizeBytes
  split
  · decide
  · split
    · decide
    · split <;> decide

/-- **What is seen of a dump.** In every run of `main`, on a terminal that is at the start of a row with nothing below
it when a dump is started: whenever a progress line was printed, it stands alone in its row, the report of each read
error begins a row of its own above, in order, and the rows above the dump are as they were. -/
theorem main_screen {σ : Type} (T : Terminal σ) (hwidth : 60 ≤ T.width) (minutes : Int) (e : Env) (fuel : Nat)
    {w : World} (hw : w.Initial) : Imp.Ends (main e fuel) w (fun _ _ => False) (fun _ w' =>
      ∀ early disk diskType size before line late,
        w'.trace = early ++ .stage (.dump disk diskType size) :: (before ++ line :: late) → line.percent ≠ none →
        ∀ t v, T.view t = some v → v.col = 0 → (∀ r, v.row < r → v.text r = []) →
          ∃ v', T.view (T.feeds t ((before ++ [line]).flatMap (Event.text minutes))) = some v' ∧
            line.text minutes = v'.text (v.row + 1 + (errorOffsets before).length) ++ [10] ∧
            (∀ i offset, (errorOffsets before)[i]? = some offset → reportText offset <+: v'.text (v.row + 1 + i)) ∧
            ∀ r < v.row, v'.text r = v.text r) := by
  refine (Session.ends_main hw).mono (fun _ _ => id) ?_
  rintro _ w' ⟨q, hread, -⟩ early disk diskType size before line late htrace hline t v hview hcol hblank
  rw [htrace] at hread
  obtain ⟨confirming, starting, hearly, hstep, hrun⟩ := Monitor.exists_step_of_run hread
  obtain ⟨q₁, q₂, hbefore, hprogress, -⟩ := Monitor.exists_step_of_run hrun
  cases Session.move_of_step hstep with
  | @dump stop diskType =>
    have hwhole := size_whole diskType
    have hopening : Session.Display T minutes t v [] (.starting ⟨getDiskSizeBytes diskType, stop, 0, 0, 0⟩) :=
      ⟨hview, hcol, hblank, rfl, rfl, hwhole.1, hwhole.2⟩
    have hdisplay := Monitor.history_of_run (fun _ _ _ _ h => Session.Display.step hwidth h) hopening hbefore
    obtain ⟨v', hseen, htext, hrows⟩ := hdisplay.progress hwidth hprogress hline
    exact ⟨v', hseen, htext, hrows.reports, hrows.above⟩
  | choose hs | probe hs | ask _ hs | copy hs _ _ _ _ | stop hs _ _ => exact hs.elim
  | due => exact ((Session.kept_of_read hearly : Session.Kept e.disc early _).2 _ List.mem_cons_self).elim
  | fail =>
    obtain ⟨-, _, _, _, hline⟩ := (Session.kept_of_read hearly : Session.Kept e.disc early _)
    cases hline

/-- The dump of `homer` shows progress. -/
theorem exists_progress_homer : ∃ w' early size before line late, (main homer 3).run wiiWorld = .error (.exit 0) w' ∧
    w'.trace = early ++ .stage (.dump (some .localId) isWiiDualDisk size) :: (before ++ line :: late) ∧
      line.percent ≠ none := by
  obtain ⟨st, w', hrun, rfl, hdump, line, hmem, hline⟩ : ∃ st w', (main homer 3).run wiiWorld = .error st w' ∧
      st = .exit 0 ∧ (w'.trace.dropWhile (· ≠ homerDump)).head? = some homerDump ∧
      ∃ line ∈ (w'.trace.dropWhile (· ≠ homerDump)).tail, line.percent.isSome :=
    Imp.exists_error_of_decide (by decide +kernel)
  obtain ⟨rest, hrest⟩ := List.head?_eq_some_iff.1 hdump
  rw [hrest, List.tail_cons] at hmem
  obtain ⟨before, late, hsplit⟩ := List.append_of_mem hmem
  refine ⟨w', w'.trace.takeWhile (· ≠ homerDump), getDiskSizeBytes isWiiDualDisk, before, line, late, hrun, ?_,
    Option.isSome_iff_ne_none.1 hline⟩
  exact hsplit ▸ hrest ▸ List.takeWhile_append_dropWhile.symm

theorem main_screen_homer : ∃ w' early size before line late v', (main homer 3).run wiiWorld = .error (.exit 0) w' ∧
    w'.trace = early ++ .stage (.dump (some .localId) isWiiDualDisk size) :: (before ++ line :: late) ∧
      (Terminal.grid 80).view ((Terminal.grid 80).feeds (⟨0, 0, fun _ => []⟩, [])
        ((before ++ [line]).flatMap (Event.text 0))) = some v' ∧
      line.text 0 = v'.text (0 + 1 + (errorOffsets before).length) ++ [10] := by
  obtain ⟨w', early, size, before, line, late, hrun, htrace, hline⟩ := exists_progress_homer
  -- the user is forgotten: nothing below evaluates the run again
  generalize homer = e at hrun ⊢
  have hends := (main_screen (Terminal.grid 80) (by decide) 0 e 3
    (initial_boot (fun _ => bareWiiHeader) fun _ => none)).error hrun
  obtain ⟨v', hview, htext, -⟩ := hends early _ _ _ before line late htrace hline (⟨0, 0, fun _ => []⟩, []) _ rfl rfl
    fun _ _ => rfl
  exact ⟨w', early, size, before, line, late, v', hrun, htrace, hview, htext⟩

end TakeADump
