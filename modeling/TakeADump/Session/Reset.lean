import TakeADump.Session.Course
import TakeADump.Session.Move
import TakeADump.Session.Saves

/-!
# The Reset button

`reset_callback` leaves the program at any moment. A run records its streams with each event, and what they hold then is
what the events up to that moment put there (`Recorded`). Each step of a session keeps that the parts hold the disc up
to where the copy stands (`Kept.step`), so wherever a run of `main` is left, they do, and the progress line shown last
is never ahead of them and at most one sector behind (`main_reset`).
-/

namespace TakeADump

/-! ## What is kept -/

namespace Session

variable {disc : Nat → UInt8} {q q' : Phase} {ev : Event} {past : List Event} {c : Copy} {s s' : Sector}

theorem Screen.still (h : Screen ev) : Still ev := by
  cases ev with
  | print fmt args => exact ⟨fun _ _ => rfl, percent_print h.1 args, errorOffsets_print h.2 args⟩
  | newline | sample _ => exact ⟨fun _ _ => rfl, rfl, rfl⟩
  | _ => exact h.elim

theorem Command.still (h : Command ev) : Still ev := by
  cases ev with
  | request _ | dcInvalidate _ _ | finished _ => exact ⟨fun _ _ => rfl, rfl, rfl⟩
  | _ => exact h.elim

theorem Closing.still (h : Closing ev) : Still ev := by
  cases ev with
  | print fmt args => exact ⟨fun _ _ => rfl, percent_print h.1 args, errorOffsets_print h.2 args⟩
  | newline | free | fclose _ => exact ⟨fun _ _ => rfl, rfl, rfl⟩
  | _ => exact h.elim

/-- The lengths of the parts where the copy of a sector stands. -/
def Sector.lengths (c : Copy) : Sector → List Nat
  | .heading | .zero | .ready | .shown | .rolling | .closed => partLengths (sectorSize * c.done)
  | .reading _ | .commanded _ | .waiting _ | .reported | .settled => openLengths (sectorSize * c.done)
  | .written => partLengths (sectorSize * c.done + sectorSize)

/-- What is known of the command, and then of the buffer. -/
def Sector.Known (disc : Nat → UInt8) (past : List Event) (c : Copy) : Sector → Prop
  | .commanded _ => c.reads (account disc past).request = true
  | .waiting _ => c.reads (account disc past).request = true ∧ (account disc past).dst = .buffer
  | .reported => sectorOffset c.done ∈ errorOffsets past
  | .settled =>
    (account disc past).buffer = bytesAt (fun i => salvaged disc past (sectorSize * c.done + i)) sectorSize
  | _ => True

/-- The old part is full. -/
def Sector.full : Sector → Prop
  | .rolling | .closed => True
  | _ => False

/-- The sector may have been reported. -/
def Sector.late : Sector → Prop
  | .reported | .settled | .written => True
  | _ => False

/-- The copy of a sector. -/
structure Copying (disc : Nat → UInt8) (past : List Event) (c : Copy) (s : Sector) : Prop where
  saves : Saves disc past (s.lengths c)
  known : s.Known disc past c
  parts : c.parts = (s.lengths c).length
  full : s.full → chunkSize ∣ sectorSize * c.done
  shown : shownLines past = c.done
  reported : ∀ offset ∈ errorOffsets past, ∃ k, offset = sectorOffset k ∧ (k < c.done ∨ s.late ∧ k = c.done)
  room : ¬ s.between → sectorSize * c.done < c.size.toNat

/-- Nothing was written. -/
structure Empty (disc : Nat → UInt8) (past : List Event) : Prop where
  saves : Saves disc past []
  shown : shownLines past = 0
  reported : errorOffsets past = []

/-- Whatever was done: a layout of parts, and progress that is at most one sector behind. -/
def Saved (disc : Nat → UInt8) (past : List Event) : Prop :=
  ∃ b lens, Layout lens b ∧ Saves disc past lens ∧
    sectorSize * shownLines past ≤ b ∧ b ≤ sectorSize * (shownLines past + 1)

def Kept (disc : Nat → UInt8) (past : List Event) : Phase → Prop
  | .choosing _ | .mounting _ _ | .mounted _ | .finding _ | .probing _ | .confirming _ _ => Empty disc past
  | .starting c => Empty disc past ∧ c.done = 0 ∧ c.parts = 0
  | .copying c s => Copying disc past c s
  | .returning due _ => Saved disc past ∧ ∀ ev ∈ due, Closing ev
  | .failing line => Saved disc past ∧ ∃ code fmt args, line = .errorLine code fmt args
  | .leaving | .quitting | .exiting | .exited => Saved disc past

theorem Empty.snoc (h : Empty disc past) (hev : Still ev) : Empty disc (past ++ [ev]) where
  saves := h.saves.still hev
  shown := (shownLines_none hev.percent).trans h.shown
  reported := (errorOffsets_none hev.report).trans h.reported

theorem Saved.snoc (h : Saved disc past) (hev : Still ev) : Saved disc (past ++ [ev]) := by
  obtain ⟨b, lens, hlayout, hsaves, hbounds⟩ := h
  exact ⟨b, lens, hlayout, hsaves.still hev, by rwa [shownLines_none hev.percent]⟩

theorem partLengths_zero : partLengths 0 = [] := by simp [partLengths]

theorem Empty.saved (h : Empty disc past) : Saved disc past :=
  ⟨0, [], Or.inl partLengths_zero.symm, h.saves, by simp [h.shown]⟩

theorem Copying.saved (h : Copying disc past c s) : Saved disc past := by
  have hsaves := h.saves
  unfold Saved
  rw [h.shown]
  cases s with
  | written => exact ⟨_, _, Or.inl rfl, hsaves, Nat.le_add_right _ _, Nat.le_refl _⟩
  | heading | zero | ready | shown | rolling | closed =>
    exact ⟨_, _, Or.inl rfl, hsaves, Nat.le_refl _, Nat.mul_le_mul_left _ (Nat.le_succ _)⟩
  | _ => exact ⟨_, _, Or.inr rfl, hsaves, Nat.le_refl _, Nat.mul_le_mul_left _ (Nat.le_succ _)⟩

/-! ## Steps of the copy -/

/-- The sectors of a disc have different offsets. -/
theorem Copying.lt (h : Copying disc past c s) (hs : ¬ s.between) : sectorSize * c.done < 2 ^ 64 :=
  (h.room hs).trans c.size.toNat_lt

/-- A sector that was not reported is not among those before. -/
theorem Copying.not_reported (h : Copying disc past c s) (hs : ¬ s.between) (hlate : ¬ s.late) :
    sectorOffset c.done ∉ errorOffsets past := by
  intro hmem
  obtain ⟨k, heq, hk | ⟨hk, -⟩⟩ := h.reported _ hmem
  · exact sectorOffset_ne hk (h.lt hs) heq.symm
  · exact hlate hk

theorem Copying.still (h : Copying disc past c s) (hev : Still ev) (hlens : s'.lengths c = s.lengths c)
    (hknown : s'.Known disc (past ++ [ev]) c) (hfull : s'.full → chunkSize ∣ sectorSize * c.done)
    (hlate : s.late → s'.late) (hroom : ¬ s'.between → sectorSize * c.done < c.size.toNat) :
    Copying disc (past ++ [ev]) c s' where
  saves := by
    rw [hlens]
    exact h.saves.still hev
  known := hknown
  parts := by rw [hlens, h.parts]
  full := hfull
  shown := by rw [shownLines_none hev.percent, h.shown]
  reported := by
    rw [errorOffsets_none hev.report]
    intro offset hoffset
    obtain ⟨k, heq, hk⟩ := h.reported offset hoffset
    exact ⟨k, heq, hk.imp_right fun hk => ⟨hlate hk.1, hk.2⟩⟩
  room := hroom

/-- The next sector begins. -/
theorem kept_moveUp (h : Copying disc past c .ready) (hroom : sectorSize * c.done < c.size.toNat)
    (hs' : c.rolls = true ∧ (s' = .closed ∨ s' = .rolling) ∨ c.rolls = false ∧ s' = .reading 0) :
    Copying disc (past ++ [.moveUp]) c s' := by
  have hmove : Still .moveUp := ⟨fun _ _ => rfl, rfl, rfl⟩
  rcases hs' with ⟨hrolls, rfl | rfl⟩ | ⟨hrolls, rfl⟩
  · exact h.still hmove rfl trivial (fun _ => of_decide_eq_true hrolls) False.elim fun _ => hroom
  · exact h.still hmove rfl trivial (fun _ => of_decide_eq_true hrolls) False.elim fun _ => hroom
  · have hndvd : ¬ chunkSize ∣ sectorSize * c.done := of_decide_eq_false hrolls
    exact h.still hmove (openLengths_of_not_dvd hndvd) trivial False.elim False.elim fun _ => hroom

/-- A part is opened. -/
theorem kept_fopen (h : Copying disc past c .closed) (filename : Bytes) :
    Copying disc (past ++ [.fopen filename true]) { c with parts := c.parts + 1 } (.reading 0) := by
  have hopen : openLengths (sectorSize * c.done) = partLengths (sectorSize * c.done) ++ [0] :=
    openLengths_of_dvd (h.full trivial)
  refine ⟨?_, trivial, ?_, False.elim, (shownLines_none rfl).trans h.shown, ?_, fun _ => h.room id⟩
  · rw [Sector.lengths, hopen]
    exact h.saves.fopen filename
  · show c.parts + 1 = (openLengths (sectorSize * c.done)).length
    rw [hopen, h.parts, List.length_append]
    rfl
  · rw [errorOffsets_none rfl]
    simpa [Sector.late] using h.reported

/-- The sector is reported. -/
theorem kept_report {n : Nat} (h : Copying disc past c (.reading n)) :
    Copying disc (past ++ [errorReport c.done]) { c with errors := c.errors + 1 } .reported := by
  have hsum : (openLengths (sectorSize * c.done)).sum = sectorSize * c.done := Layout.sum (Or.inr rfl)
  refine ⟨h.saves.report hsum.le (h.lt id), ?_, h.parts, False.elim, (shownLines_none rfl).trans h.shown, ?_,
    fun _ => h.room id⟩
  · show sectorOffset c.done ∈ errorOffsets (past ++ [errorReport c.done])
    rw [errorOffsets_snoc, errorOffsets_errorReport]
    exact List.mem_append_right _ List.mem_cons_self
  · rw [errorOffsets_snoc, errorOffsets_errorReport]
    intro offset hoffset
    rcases List.mem_append.1 hoffset with hoffset | hoffset
    · obtain ⟨k, heq, hk⟩ := h.reported offset hoffset
      exact ⟨k, heq, hk.imp_right fun hk => hk.1.elim⟩
    · exact ⟨c.done, List.mem_singleton.1 hoffset, Or.inr ⟨trivial, rfl⟩⟩

/-- Inside a sector the salvaged disc is all zeros or the disc. -/
theorem salvaged_add {evs : List Event} {n i : Nat} (hi : i < sectorSize) :
    salvaged disc evs (sectorSize * n + i) =
      if sectorOffset n ∈ errorOffsets evs then 0 else disc (sectorSize * n + i) := by
  rw [salvaged, Nat.mul_add_div sectorSize_pos, Nat.div_eq_of_lt hi, Nat.add_zero]

/-- The sector is read. -/
theorem kept_read {n : Nat} (h : Copying disc past c (.waiting n)) :
    Copying disc (past ++ [.finished true]) c .settled := by
  obtain ⟨hreads, hdst⟩ := h.known
  obtain ⟨hrange, hcount⟩ := of_decide_eq_true hreads
  refine h.still ⟨fun _ _ => rfl, rfl, rfl⟩ rfl ?_ False.elim False.elim fun _ => h.room id
  show (account disc (past ++ [.finished true])).buffer = _
  rw [account_snoc]
  show (if (account disc past).dst = .buffer then (account disc past).request.delivered disc else _) = _
  rw [if_pos hdst, Request.delivered, hrange, hcount, Nat.min_self, salvaged_of_no_report rfl, Job.bytesAt_congr]
  intro i hi
  rw [salvaged_add hi, if_neg (h.not_reported id id)]

/-- The buffer is zeroed. -/
theorem kept_memset (h : Copying disc past c .reported) : Copying disc (past ++ [.memset sectorSize]) c .settled := by
  refine h.still ⟨fun _ _ => rfl, rfl, rfl⟩ rfl ?_ False.elim (fun _ => trivial) fun _ => h.room id
  show (account disc (past ++ [.memset sectorSize])).buffer = _
  rw [account_snoc]
  show List.replicate sectorSize 0 = _
  rw [← bytesAt_const, salvaged_of_no_report rfl, Job.bytesAt_congr]
  intro i hi
  have hreported : sectorOffset c.done ∈ errorOffsets past := h.known
  rw [salvaged_add hi, if_pos hreported]

/-- After a write to the open part. -/
theorem saves_fwrite (h : Copying disc past c .settled) {written : Nat} (hle : written ≤ sectorSize) (asked : Nat) :
    Saves disc (past ++ [.fwrite c.part asked written])
      (List.replicate (sectorSize * c.done / chunkSize) chunkSize ++ [sectorSize * c.done % chunkSize + written]) := by
  have hpart : c.part = some (List.replicate (sectorSize * c.done / chunkSize) chunkSize).length := by
    rw [Copy.part, h.parts, List.length_replicate]
    show some ((openLengths (sectorSize * c.done)).length - 1) = _
    rw [length_openLengths, Nat.add_sub_cancel]
  have hsum : (openLengths (sectorSize * c.done)).sum = sectorSize * c.done := Layout.sum (Or.inr rfl)
  rw [hpart]
  refine Saves.fwrite (m := sectorSize) h.saves ?_ hle asked
  rw [h.known]
  exact congrArg (fun b => bytesAt (fun i => salvaged disc past (b + i)) sectorSize) hsum.symm

/-- A sector is written. -/
theorem kept_fwrite (h : Copying disc past c .settled) :
    Copying disc (past ++ [.fwrite c.part sectorSize sectorSize]) c .written := by
  have hlens : Sector.written.lengths c =
      List.replicate (sectorSize * c.done / chunkSize) chunkSize ++ [sectorSize * c.done % chunkSize + sectorSize] :=
    partLengths_add (Nat.dvd_mul_right _ _)
  refine ⟨?_, trivial, ?_, False.elim, (shownLines_none rfl).trans h.shown, ?_, fun _ => h.room id⟩
  · rw [hlens]
    exact saves_fwrite h (Nat.le_refl _) _
  · rw [hlens, h.parts]
    show (openLengths (sectorSize * c.done)).length = _
    simp [length_openLengths]
  · rw [errorOffsets_none rfl]
    simpa [Sector.late] using h.reported

/-- A sector is not accepted in full. -/
theorem saved_fwrite (h : Copying disc past c .settled) {written : Nat} (hlt : written < sectorSize) :
    Saved disc (past ++ [.fwrite c.part sectorSize written]) := by
  have hlens := openLengths_add (Nat.dvd_mul_right sectorSize c.done) hlt
  refine ⟨sectorSize * c.done + written, _, Or.inr rfl, ?_, ?_, ?_⟩
  · rw [hlens]
    exact saves_fwrite h hlt.le _
  · rw [shownLines_none rfl, h.shown]
    exact Nat.le_add_right _ _
  · rw [shownLines_none rfl, h.shown, Nat.mul_succ]
    exact Nat.add_le_add_left hlt.le _

/-- The progress line catches up. -/
theorem kept_progress (h : Copying disc past c .written) :
    Copying disc (past ++ [c.progress]) { c with done := c.done + 1 } .shown := by
  have hlens : Sector.shown.lengths { c with done := c.done + 1 } = Sector.written.lengths c := by
    show partLengths (sectorSize * (c.done + 1)) = partLengths (sectorSize * c.done + sectorSize)
    rw [Nat.mul_succ]
  refine ⟨?_, trivial, h.parts.trans (by rw [hlens]), False.elim, ?_, ?_, fun hs => (hs trivial).elim⟩
  · obtain ⟨parts, hparts, hlengths, hbytes⟩ := h.saves
    refine ⟨parts, ?_, hlengths.trans hlens.symm, ?_⟩
    · rw [account_snoc]
      exact hparts
    · rw [hlens, salvaged_of_no_report rfl]
      exact hbytes
  · rw [shownLines, List.filterMap_append, List.length_append]
    show shownLines past + 1 = c.done + 1
    rw [h.shown]
  · rw [errorOffsets_none rfl]
    intro offset hoffset
    obtain ⟨k, heq, hk⟩ := h.reported offset hoffset
    exact ⟨k, heq, Or.inl (hk.elim Nat.lt_succ_of_lt fun hk => hk.2 ▸ Nat.lt_succ_self _)⟩

/-- **Each step of the copy** keeps what is saved. -/
theorem kept_copy (h : Copying disc past c s) (hmove : CopyMove c s ev q') : Kept disc (past ++ [ev]) q' := by
  cases hmove with
  | heading | zero | goOn _ =>
    exact h.still ⟨fun _ _ => rfl, rfl, rfl⟩ rfl trivial False.elim id fun hs => (hs trivial).elim
  | moveUp hroom hs' => exact kept_moveUp h hroom hs'
  | close => exact h.still ⟨fun _ _ => rfl, rfl, rfl⟩ rfl trivial h.full id fun _ => h.room id
  | create filename => exact kept_fopen h filename
  | command hreads =>
    refine h.still ⟨fun _ _ => rfl, rfl, rfl⟩ rfl ?_ False.elim id fun _ => h.room id
    rw [Sector.Known, account_snoc]
    exact hreads
  | report => exact kept_report h
  | invalidate =>
    refine h.still ⟨fun _ _ => rfl, rfl, rfl⟩ rfl ?_ False.elim id fun _ => h.room id
    rw [Sector.Known, account_snoc]
    exact ⟨h.known, rfl⟩
  | read => exact kept_read h
  | retry => exact h.still ⟨fun _ _ => rfl, rfl, rfl⟩ rfl trivial False.elim False.elim fun _ => h.room id
  | fill => exact kept_memset h
  | write => exact kept_fwrite h
  | short hlt => exact ⟨saved_fwrite h hlt, by simp [Closing, Neutral, progressLine, reportLine]⟩
  | progress => exact kept_progress h
  | complete _ | refused _ =>
    exact ⟨h.saved.snoc ⟨fun _ _ => rfl, rfl, rfl⟩, by simp [Closing, Neutral, progressLine, reportLine]⟩
  | cancel _ | home _ => exact h.saved.snoc ⟨fun _ _ => rfl, rfl, rfl⟩

/-! ## Steps of the session -/

theorem kept_afterMount (h : Empty disc past) (stop : Bool) (iface : Interface) (res : MountResult) :
    Kept disc (past ++ [.fatMount iface res]) (afterMount stop res) := by
  have h' : Empty disc (past ++ [.fatMount iface res]) := h.snoc ⟨fun _ _ => rfl, rfl, rfl⟩
  match res with
  | .returned true => exact h'
  | .returned false | .exception _ | .unknownException => exact ⟨h'.saved, _, _, _, rfl⟩

theorem kept_afterInitialize (h : Empty disc past) (stop : Bool) (ret : Int) :
    Kept disc (past ++ [.stage (.initialized ret)]) (afterInitialize stop ret) := by
  have h' : Empty disc (past ++ [.stage (.initialized ret)]) := h.snoc ⟨fun _ _ => rfl, rfl, rfl⟩
  unfold afterInitialize
  split
  · exact h'
  · exact ⟨h'.saved, _, _, _, rfl⟩

theorem kept_afterDump (h : Saved disc past) (ret : Int) :
    Kept disc (past ++ [.stage (.dumped ret)]) (afterDump ret) := by
  have h' : Saved disc (past ++ [.stage (.dumped ret)]) := h.snoc ⟨fun _ _ => rfl, rfl, rfl⟩
  unfold afterDump
  split
  · exact h'
  · exact ⟨h', _, _, _, rfl⟩

theorem kept_allocate (h : Empty disc past) (hdone : c.done = 0) (hparts : c.parts = 0) :
    Copying disc (past ++ [.memalign true]) c .heading := by
  have h' : Empty disc (past ++ [.memalign true]) := h.snoc ⟨fun _ _ => rfl, rfl, rfl⟩
  have hlens : Sector.heading.lengths c = [] := by rw [Sector.lengths, hdone, Nat.mul_zero, partLengths_zero]
  refine ⟨?_, trivial, ?_, False.elim, h'.shown.trans hdone.symm, ?_, fun hs => (hs trivial).elim⟩
  · rw [hlens]
    exact h'.saves
  · rw [hlens]
    exact hparts
  · rw [h'.reported]
    exact nofun

/-- **Each step of the session** keeps what is saved. -/
theorem Kept.step (h : Kept disc past q) (hstep : q.step ev = some q') : Kept disc (past ++ [ev]) q' := by
  have hmove := move_of_step hstep
  cases hmove with
  | choose hs => exact Empty.snoc h hs.still
  | giveUp => exact (Empty.saved h).snoc ⟨fun _ _ => rfl, rfl, rfl⟩
  | select | mounted | ioctl | seek _ | identified _ => exact Empty.snoc h ⟨fun _ _ => rfl, rfl, rfl⟩
  | ask hq hs =>
    cases q with
    | leaving => exact Saved.snoc h hs.still
    | choosing _ | mounting _ _ | finding _ | confirming _ _ => exact Empty.snoc h hs.still
    | _ => cases hq
  | mount res => exact kept_afterMount h _ _ res
  | initialized ret => exact kept_afterInitialize h _ ret
  | probe hc => exact Empty.snoc h hc.still
  | dump => exact ⟨Empty.snoc h ⟨fun _ _ => rfl, rfl, rfl⟩, rfl, rfl⟩
  | allocate => exact kept_allocate h.1 h.2.1 h.2.2
  | refuse hdue _ => exact ⟨(h.1.snoc ⟨fun _ _ => rfl, rfl, rfl⟩).saved, hdue⟩
  | copy _ _ _ _ _ | progress | stop _ _ _ | cancel _ | quit _ => exact kept_copy h (copyMove_of_step hstep)
  | due => exact ⟨h.1.snoc (h.2 _ List.mem_cons_self).still, fun ev hev => h.2 ev (List.mem_cons_of_mem _ hev)⟩
  | dumped => exact kept_afterDump h.1 _
  | fail =>
    obtain ⟨hsaved, _, _, _, rfl⟩ := h
    exact hsaved.snoc ⟨fun _ _ => rfl, rfl, rfl⟩
  | leave | quitted | exit => exact Saved.snoc h ⟨fun _ _ => rfl, rfl, rfl⟩

theorem Kept.saved (h : Kept disc past q) : Saved disc past := by
  cases q with
  | copying c s => exact Copying.saved h
  | starting c => exact Empty.saved h.1
  | returning due ret => exact h.1
  | failing line => exact h.1
  | leaving | quitting | exiting | exited => exact h
  | _ => exact Empty.saved h

theorem kept_of_read {evs : List Event} (h : read evs = some q) : Kept disc evs q := by
  have hstart : Kept disc [] (.choosing true) := ⟨⟨[], rfl, rfl, rfl⟩, rfl, rfl⟩
  exact Monitor.history_of_run (fun _ _ _ _ => Kept.step) hstart h

end Session

/-- Parts that hold the disc up to the sectors shown, or one sector further. -/
structure Consistent (disc : Nat → UInt8) (past : List Event) (parts : List Bytes) : Prop where
  full : ∀ i, i + 1 < parts.length → (parts.map List.length)[i]? = some chunkSize
  fits : ∀ part ∈ parts, part.length ≤ chunkSize
  holds : ∃ b, parts.flatten = bytesAt (salvaged disc past) b ∧
    sectorSize * shownLines past ≤ b ∧ b ≤ sectorSize * (shownLines past + 1)

/-- The streams of a run that came to `w`, at the moment when it had recorded `n` events: what the next event tells of
may have happened already. -/
def World.StreamsAt (w : World) (n : Nat) (streams : List Stream) : Prop :=
  ([] :: w.seen)[n]? = some streams ∨ ([] :: w.seen)[n + 1]? = some streams

section Moments

variable {disc : Nat → UInt8} {past before after : List Event} {ev : Event} {parts : List Bytes}
  {streams : List Stream} {w : World}

theorem consistent_of_saved (h : Session.Saved disc past) (hparts : ∀ told ∈ (account disc past).parts, parts = told) :
    Consistent disc past parts := by
  obtain ⟨b, lens, hlayout, ⟨told, htold, rfl, hbytes⟩, hle, hge⟩ := h
  obtain rfl := hparts told htold
  refine ⟨fun i hi => hlayout.full.1 i ?_, fun part hpart => ?_, b, ?_, hle, hge⟩
  · rwa [List.length_map]
  · exact hlayout.full.2 _ (List.mem_map_of_mem hpart)
  · rw [hbytes, hlayout.sum]

/-- Only what is printed tells of a sector, and what is printed changes no account. -/
theorem step_or_silent (disc : Nat → UInt8) (ev : Event) :
    (∀ a : Account, a.step disc ev = a) ∨ ev.percent = none ∧ errorOffsets [ev] = [] := by
  cases ev with
  | print fmt args => exact Or.inl fun _ => rfl
  | _ => exact Or.inr ⟨rfl, rfl⟩

theorem Consistent.of_snoc (h : Consistent disc (past ++ [ev]) parts)
    (hev : ev.percent = none ∧ errorOffsets [ev] = []) : Consistent disc past parts where
  full := h.full
  fits := h.fits
  holds := by
    obtain ⟨b, hbytes, hbounds⟩ := h.holds
    rw [salvaged_of_no_report hev.2] at hbytes
    rw [shownLines_none hev.1] at hbounds
    exact ⟨b, hbytes, hbounds⟩

/-- A run that was read kept its parts consistent at every moment. -/
theorem consistent_of_read {q : Session.Phase} (hread : Session.read w.trace = some q) (hw : w.Accounted disc)
    (htrace : w.trace = before ++ after) (hstreams : w.StreamsAt before.length streams) :
    Consistent disc before (streams.map Stream.data) := by
  have hsaved : ∀ pre post, w.trace = pre ++ post → Session.Saved disc pre := by
    intro pre post hsplit
    rw [hsplit] at hread
    obtain ⟨mid, hpre, -⟩ := Monitor.exists_run_of_append hread
    exact (Session.kept_of_read hpre).saved
  have hbefore := hsaved before after htrace
  rcases hstreams with hlast | hnext
  · have htold := hw.recorded.told hlast
    rw [htrace, List.take_left] at htold
    exact consistent_of_saved hbefore htold
  · cases after with
    | nil =>
      have hout : ([] :: w.seen).length ≤ before.length + 1 := by
        rw [List.length_cons, hw.recorded.length, htrace, List.append_nil]
      rw [List.getElem?_eq_none hout] at hnext
      cases hnext
    | cons ev after =>
      have hsplit : w.trace = (before ++ [ev]) ++ after := by rw [htrace, List.append_assoc, List.singleton_append]
      have htold := hw.recorded.told hnext
      rw [hsplit, List.take_left' (by simp)] at htold
      rcases step_or_silent disc ev with hstep | hsilent
      · rw [account_snoc, hstep] at htold
        exact consistent_of_saved hbefore htold
      · exact (consistent_of_saved (hsaved _ _ hsplit) htold).of_snoc hsilent

end Moments

/-- The callback leaves the parts as they are. -/
theorem ends_resetCallback (u : World) : Imp.Ends resetCallback u (fun _ _ => False)
    (fun st u' => st = .exit 0 ∧ u'.parts = u.parts) := by
  rw [resetCallback, Imp.ends_of_error (run_reset 0 u)]
  exact ⟨rfl, rfl⟩

/-- **The Reset button.** Press it at any moment of a run of `main`, after the events `before`, whether or not what the
next event tells of has happened: the program is left by `exit(0)`. All parts but the last are full, none is longer than
a part may be, and one after the other they hold the disc from its first byte on, with zeros for the sectors that were
reported. They hold the sectors the progress line shown last counts, and at most one sector more. -/
theorem main_reset (e : Env) (fuel : Nat) {w : World} (hw : w.Initial) :
    Imp.Ends (main e fuel) w (fun _ _ => False) (fun _ w' => w'.seen.length = w'.trace.length ∧
      ∀ before after, w'.trace = before ++ after →
        ∀ u : World, u.trace = before → w'.StreamsAt before.length u.streams →
          Imp.Ends resetCallback u (fun _ _ => False) (fun st u' => st = .exit 0 ∧
            Consistent e.disc before u'.parts)) := by
  refine ((Session.ends_main hw).and (Session.course_main hw)).mono (fun _ _ h => h.1) ?_
  rintro _ w' ⟨⟨q, hread, -⟩, hcourse⟩
  have haccounted : w'.Accounted e.disc := hcourse.told.1 (Accounted.initial hw)
  refine ⟨haccounted.recorded.length, ?_⟩
  intro before after htrace u _ hstreams
  have hconsistent := consistent_of_read hread haccounted htrace hstreams
  refine (ends_resetCallback u).mono (fun _ _ => id) ?_
  rintro st u' ⟨hst, hu'⟩
  rw [hu']
  exact ⟨hst, hconsistent⟩

theorem exists_shown_homer : ∃ w' before after, (main homer 3).run wiiWorld = .error (.exit 0) w' ∧
    w'.trace = before ++ after ∧ shownLines before = 1 ∧ shownLines w'.trace = 2 := by
  obtain ⟨st, w', hrun, rfl, ⟨n, -, hfirst⟩, hshown⟩ : ∃ st w', (main homer 3).run wiiWorld = .error st w' ∧
      st = .exit 0 ∧ (∃ n < w'.trace.length, shownLines (w'.trace.take n) = 1) ∧ shownLines w'.trace = 2 :=
    Imp.exists_error_of_decide (by decide +kernel)
  exact ⟨w', _, _, hrun, (List.take_append_drop n w'.trace).symm, hfirst, hshown⟩

/-- Reset is pressed in the middle of the dump of `homer`. -/
theorem main_reset_homer : ∃ w' u u', (main homer 3).run wiiWorld = .error (.exit 0) w' ∧
    u.trace <+: w'.trace ∧ shownLines u.trace = 1 ∧ shownLines w'.trace = 2 ∧
      w'.StreamsAt u.trace.length u.streams ∧ resetCallback.run u = .error (.exit 0) u' ∧
        Consistent bareWiiHeader u.trace u'.parts := by
  obtain ⟨w', before, after, hrun, htrace, hfirst, hshown⟩ := exists_shown_homer
  have hdisc : homer.disc = bareWiiHeader := by
    unfold homer
    rfl
  -- the user is forgotten: nothing below evaluates the run again
  generalize homer = e at hrun hdisc ⊢
  obtain ⟨hlength, hcut⟩ := (main_reset e 3 (initial_boot (fun _ => bareWiiHeader) fun _ => none)).error hrun
  have hmoment : before.length < ([] :: w'.seen).length := by
    rw [List.length_cons, hlength, htrace, List.length_append]
    omega
  have hstreams : w'.StreamsAt before.length ([] :: w'.seen)[before.length] := Or.inl (List.getElem?_eq_getElem hmoment)
  have h := hcut before after htrace { w' with trace := before, streams := ([] :: w'.seen)[before.length] } rfl hstreams
  have hreset := run_reset 0 { w' with trace := before, streams := ([] :: w'.seen)[before.length] }
  obtain ⟨-, hconsistent⟩ := h.error hreset
  rw [hdisc] at hconsistent
  exact ⟨w', _, _, hrun, ⟨after, htrace.symm⟩, hfirst, hshown, hstreams, hreset, hconsistent⟩

end TakeADump
