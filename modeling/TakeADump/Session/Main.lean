import TakeADump.Session.Copying

/-!
# Every run of `main` is a session

However a dump ends, it ends as the session allows (`ends_dump`), and `main` goes on from there (`ends_dumpAndLeave`).
`main_session` puts the two halves together: the trace of every run of `main`, for every environment, is allowed by the
machine of `Phase.lean`; the run is left by `exit(0)`, or the user or the disc is waited for.
-/

namespace TakeADump

open Rollover (Log)

namespace Session

/-! ## The ends of a dump -/

section Ends

variable {j : Job} {stop : Bool} {k : Nat} {p : Point} {q : Phase} {w w' : World}

/-- The world of a dump tells of what its point tells of. -/
theorem read_of_core (hstart : read j.start.trace = some (.copying (copyOf j stop 0) .ready)) (hc : j.Core p w')
    (hp : Reads j stop p q) : read w'.trace = some q := by
  rw [read, hc.trace, Monitor.run_append_of hstart]
  exact hp

/-- All sectors are done. -/
theorem reads_finished (h : Disc j) (hpos : 0 < j.size.toNat)
    (hp : Reads j stop (j.point j.sectors) (.copying (copyOf j stop j.sectors) .ready)) :
    Reads j stop (j.finished (j.point j.sectors)) (.returning [] 0) := by
  have hdone : ¬ sectorSize * (copyOf j stop j.sectors).done < (copyOf j stop j.sectors).size.toNat :=
    fun hlt => Nat.lt_irrefl _ (j.lt_sectors.2 hlt)
  unfold Reads at hp ⊢
  rw [Job.trace_finished, Monitor.run_append_of hp]
  rcases closeEvents_before (Nat.le_refl j.sectors) with ⟨hzero, -⟩ | ⟨hparts, hclose⟩
  · have hchunk := chunkSize_pos
    rw [Job.length_parts_all, partCount, Nat.div_eq_zero_iff_lt hchunk] at hzero
    omega
  · have hstep : Phase.step (.copying (copyOf j stop j.sectors) .ready)
        (.fclose (some ((j.point j.sectors).log.parts.length - 1))) =
        some (.returning [.free, .print "Dump complete after %d minutes!" [.minutes]] 0) :=
      if_pos ⟨hdone, hparts, rfl⟩
    rw [hclose, h.base, Nat.zero_add, List.singleton_append, Monitor.run_cons_of hstep]
    rfl

/-- A part was refused. -/
theorem reads_atRefused (h : Disc j) (hk : k < j.sectors) (hneed : (j.point k).log.needsPart chunkSize)
    (hp : Reads j stop (j.point k) (.copying (copyOf j stop k) .ready)) :
    Reads j stop (j.atRefused k) (.returning [] (-2)) := by
  unfold Reads at hp ⊢
  rw [Job.trace_atRefused, Monitor.run_append_of hp, ← List.cons_append, Monitor.run_append_of (run_close h hk hneed)]
  simp [Job.refusedEvents, Monitor.run_cons, Phase.step, Copy.step]

/-- A sector was reported, and that is not tolerated. -/
theorem reads_atUnreadable (h : Disc j) (hk : k < j.sectors) (hr : j.readable k = false)
    (hp : Reads j stop (j.point k) (.copying (copyOf j stop k) .ready)) :
    Reads j stop (j.atUnreadable k) (.copying { copyOf j stop (k + 1) with done := k } .reported) := by
  unfold Reads at hp ⊢
  rw [Job.trace_atUnreadable, Monitor.run_append_of hp, Monitor.run_append_of (run_roll h hk),
    Monitor.run_append_of (run_readEvents h hk rfl), if_neg (by simp [hr])]
  refine (Monitor.run_cons_of (step_report rfl) []).trans ?_
  simp [copyOf, errors_succ, hr]

/-- Not all of a sector was accepted. -/
theorem reads_atShort (h : Disc j) (hk : k < j.sectors) (hstay : j.readable k = true ∨ stop = false)
    (hshort : j.taken k ≠ j.len k) (hp : Reads j stop (j.point k) (.copying (copyOf j stop k) .ready)) :
    Reads j stop (j.atShort k) (.returning [] (-2)) := by
  have hle := j.taken_le k
  have hdone : (j.readyToWrite (j.point k)).done = k := by simp
  obtain ⟨c, hcur⟩ := Log.roll_cur chunkSize (j.point k).log
  have hclose : j.closeEvents (j.writeStep (j.taken k) (j.readyToWrite (j.point k))).log =
      [.fclose (some (j.base + (j.readyToWrite (j.point k)).log.full.length))] := by
    rw [Job.writeStep, Job.log_readyToWrite, Job.closeEvents, Log.append, hcur]
    rfl
  have hwrite : Phase.step (.copying (settledCopy j stop k) .settled)
      (.fwrite (settledCopy j stop k).part sectorSize (j.taken k)) =
      some (.returning [.print "Error writing file. Bytes written: %d. Bytes expected: %d."
          [.int (j.taken k), .u32 (UInt32.ofNat sectorSize)],
        .fclose (settledCopy j stop k).part, .free] (-2)) := by
    rw [h.len_eq hk] at hle hshort
    simp [Phase.step, Copy.step, hle, hshort]
  have hp' := reads_readyToWrite h hk hstay hp
  unfold Reads at hp' ⊢
  rw [Job.atShort, Job.trace_cutShort, hdone, hclose, Job.writeStep, hdone, h.len_eq hk, List.append_assoc,
    Monitor.run_append_of hp', ← part_settledCopy h stop k, List.singleton_append,
    Monitor.run_cons_of hwrite]
  simp [Monitor.run_cons, Phase.step]

/-- HOME was held. -/
theorem reads_left (h : Disc j) (hk : k < j.sectors) (hstay : j.readable k = true ∨ stop = false)
    (hhome : j.home k = true) (hp : Reads j stop (j.point k) (.copying (copyOf j stop k) .ready)) :
    Reads j stop (j.left (j.atWritten k)) .exited := by
  have hp' := reads_advance h hk hstay hp
  rw [hhome, if_pos rfl, Job.point_succ] at hp'
  exact hp'.note rfl

end Ends

/-! ## `dump` and `main` -/

section Main

variable {e : Env} {fuel : Nat} {stop : Bool} {size : UInt64} {diskType : Int} {w : World}

/-- The session enters the loop of `dump`. -/
theorem read_enter (h : In (.starting ⟨size, stop, 0, 0, 0⟩) stop w) :
    read (Job.enter e w size).start.trace =
      some (.copying (copyOf (Job.enter e w size) stop 0) .ready) := by
  have hread := h.read
  unfold read at hread ⊢
  rw [show (Job.enter e w size).start.trace = w.trace ++ _ from rfl, Monitor.run_append_of hread]
  rfl

/-- The job of a dump in a session. -/
theorem disc_enter (h : In (.starting ⟨size, stop, 0, 0, 0⟩) stop w) (hwhole : sectorSize ∣ size.toNat)
    (hreach : size.toNat ≤ 2 ^ 34) : Disc (Job.enter e w size) where
  base := by
    show w.streams.length = 0
    rw [h.streams]
    rfl
  errorCount := h.errorCount
  whole := hwhole
  reach := hreach

/-- A dump cancelled at a sector reports it and ends the session. -/
theorem over_unreadable (hd : Disc (Job.enter e w size)) (h : In (.starting ⟨size, true, 0, 0, 0⟩) true w)
    (hmem : e.memalign = true) {k : Nat} (hk : k < (Job.enter e w size).sectors)
    (hpre : ∀ s < k, (Job.enter e w size).halt s = none) (hhalt : (Job.enter e w size).halt k = some .unreadable)
    {st : Stop} {w' : World} (hrun : (dump e fuel (some .localId) diskType size).run w = .error st w') :
    Over st w' := by
  obtain ⟨ret, w₁, hc, herror⟩ := Job.run_dump_unreadable fuel w diskType hmem hk hpre hhalt
  have hread₁ := read_of_core (read_enter h) hc (reads_atUnreadable hd hk (Job.halt_inv _ hhalt).1
    (reads_point hd h.stop (Nat.le_of_lt hk) hpre))
  have hends : Imp.Ends (Logger.error e fuel ret "Unrecovered read error." []) w₁ (fun _ _ => False) Over := by
    unfold Logger.error
    rw [ends_emit_bind]
    exact ends_leave e fuel (read_log hread₁ (by simp [Phase.step, Copy.step, copyOf]))
  cases hrun₁ : (Logger.error e fuel ret "Unrecovered read error." []).run w₁ with
  | ok u w₂ => exact (hends.ok hrun₁).elim
  | error st₁ w₂ =>
    have hsame := (herror st₁ w₂ hrun₁).symm.trans hrun
    cases hsame
    exact hends.error hrun₁

/-- **However a dump ends**, the session goes on. -/
theorem ends_dump (e : Env) (fuel : Nat) (diskType : Int) (h : In (.starting ⟨size, stop, 0, 0, 0⟩) stop w)
    (hpos : 0 < size.toNat) (hwhole : sectorSize ∣ size.toNat) (hreach : size.toNat ≤ 2 ^ 34) :
    Imp.Ends (dump e fuel (some .localId) diskType size) w
      (fun ret w' => read w'.trace = some (.returning [] ret)) Over := by
  cases hmem : e.memalign with
  | false =>
    rw [Imp.ends_of_ok (Job.run_dump_memalign fuel hmem _ _)]
    exact read_log (read_log h.read rfl) (by simp [Phase.step])
  | true =>
    have hd : Disc (Job.enter e w size) := disc_enter h hwhole hreach
    have hpoint : ∀ {k : Nat}, k ≤ (Job.enter e w size).sectors → (∀ s < k, (Job.enter e w size).halt s = none) →
        Reads (Job.enter e w size) stop ((Job.enter e w size).point k)
          (.copying (copyOf (Job.enter e w size) stop k) .ready) := fun hk hpre => reads_point hd h.stop hk hpre
    have hstay : ∀ {k : Nat}, (Job.enter e w size).halt k = some .short ∨ (Job.enter e w size).halt k = some .home →
        (Job.enter e w size).readable k = true ∨ stop = false := by
      intro k hhalt
      rw [← h.stop]
      rcases hhalt with hhalt | hhalt
      · exact Job.stays_of_halt _ (by rw [hhalt]; decide) (by rw [hhalt]; decide)
      · exact Job.stays_of_halt _ (by rw [hhalt]; decide) (by rw [hhalt]; decide)
    have hended := Job.ended_dump (e := e) fuel w diskType size hmem
    cases hrun : (dump e fuel (some .localId) diskType size).run w with
    | ok ret w' =>
      rw [Imp.ends_of_ok hrun]
      rw [hrun] at hended
      cases hended with
      | finished hall hc _ =>
        exact read_of_core (read_enter h) hc (reads_finished hd hpos (hpoint (Nat.le_refl _) hall))
      | refused hk hpre hhalt hc _ =>
        exact read_of_core (read_enter h) hc
          (reads_atRefused hd hk (Job.halt_inv _ hhalt).1 (hpoint (Nat.le_of_lt hk) hpre))
      | short hk hpre hhalt hc _ =>
        exact read_of_core (read_enter h) hc
          (reads_atShort hd hk (hstay (Or.inl hhalt)) (Job.halt_inv _ hhalt) (hpoint (Nat.le_of_lt hk) hpre))
    | error st w' =>
      rw [Imp.ends_of_error hrun]
      rw [hrun] at hended
      cases hended with
      | unreadable hk hpre hhalt _ _ _ _ =>
        obtain rfl : true = stop := (Job.halt_inv _ hhalt).2.symm.trans h.stop
        exact over_unreadable hd h hmem hk hpre hhalt hrun
      | home hk hpre hhalt hc _ =>
        exact ⟨.exited, read_of_core (read_enter h) hc
          (reads_left hd hk (hstay (Or.inr hhalt)) (Job.halt_inv _ hhalt) (hpoint (Nat.le_of_lt hk) hpre)),
          Or.inl ⟨rfl, rfl⟩⟩

theorem Set.size_ok {args : DumpArgs} (h : Set stop args w) :
    0 < args.size.toNat ∧ sectorSize ∣ args.size.toNat ∧ args.size.toNat ≤ 2 ^ 34 := by
  obtain ⟨htype, hne⟩ := h.known
  rw [h.size]
  rcases htype with htype | htype | htype | htype
  · rw [htype]
    decide
  · rw [htype]
    decide
  · rw [htype]
    decide
  · exact absurd htype hne

/-- **The second half of `main`.** -/
theorem ends_dumpAndLeave {args : DumpArgs} (h : Set stop args w) :
    Imp.Ends (dumpAndLeave e fuel args) w (fun _ _ => False) Over := by
  obtain ⟨hpos, hwhole, hreach⟩ := h.size_ok
  have hstart : In (.starting ⟨args.size, stop, 0, 0, 0⟩) stop
      (w.log (.stage (.dump args.disk args.diskType args.size))) := by
    rw [h.disk, h.size]
    exact h.toIn.log (if_pos ⟨rfl, rfl, rfl⟩)
  unfold dumpAndLeave enter
  rw [ends_emit_bind, Imp.ends_bind]
  have hdump := ends_dump e fuel args.diskType hstart hpos hwhole hreach
  rw [← h.disk] at hdump
  refine hdump.mono (fun ret w' hread => ?_) fun _ _ => id
  have hread' : read (w'.log (.stage (.dumped ret))).trace = some (afterDump ret) := read_log hread (if_pos rfl)
  unfold afterDump at hread'
  rw [ends_emit_bind]
  by_cases hret : ret = 0
  · rw [if_pos hret] at hread'
    rw [if_neg (not_not.2 hret)]
    exact ends_leave e fuel hread'
  · rw [if_neg hret] at hread'
    rw [if_pos hret]
    exact ends_error e fuel hread'

/-- `main` from the start of the program. -/
theorem ends_main (hw : w.Initial) : Imp.Ends (main e fuel) w (fun _ _ => False) Over := by
  unfold main
  rw [Imp.ends_bind]
  refine (ends_setUp hw).mono ?_ fun _ _ => id
  rintro args w' ⟨stop, h⟩
  exact ends_dumpAndLeave h

end Main

end Session

/-- **Every run of `main` is a session.** Whatever the user, the drive, the disc and the medium do, `main` never comes
back and never follows a null pointer. Its trace is that of a session, and it is left by `exit(0)` at the end of the
session, or waits for the user or the disc. -/
theorem main_session (e : Env) (fuel : Nat) {w : World} (hw : w.Initial) :
    Imp.Ends (main e fuel) w (fun _ _ => False) (fun st w' => ∃ q, Session.read w'.trace = some q ∧
      (st = .exit 0 ∧ q = .exited ∨ st = .spin ∧ q.waits = true)) := Session.ends_main hw

/-- A user who dumps to a USB drive and holds HOME at the second sector. -/
@[irreducible] def homer : Env :=
  { Env.calm bareWiiHeader with
    pad := fun n => ([wpadButtonA, 0, wpadButton1, wpadButtonA, 0, wpadButtonA, 0, wpadButtonA, 0, 0, wpadButtonHome] :
      List UInt32).getD n 0 }

/-- The call of `dump` in the session of `homer`. -/
def homerDump : Event := .stage (.dump (some .localId) isWiiDualDisk (getDiskSizeBytes isWiiDualDisk))

theorem exists_run_homer : ∃ w', (main homer 3).run wiiWorld = .error (.exit 0) w' ∧ homerDump ∈ w'.trace := by
  obtain ⟨st, w', hrun, rfl, hmem⟩ : ∃ st w', (main homer 3).run wiiWorld = .error st w' ∧ st = .exit 0 ∧
      homerDump ∈ w'.trace := Imp.exists_error_of_decide (by decide +kernel)
  exact ⟨w', hrun, hmem⟩

theorem main_session_homer : ∃ w', (main homer 3).run wiiWorld = .error (.exit 0) w' ∧ homerDump ∈ w'.trace ∧
    Session.read w'.trace = some .exited := by
  obtain ⟨w', hrun, hmem⟩ := exists_run_homer
  obtain ⟨q, hread, ⟨-, rfl⟩ | ⟨hspin, -⟩⟩ :=
    (main_session homer 3 (initial_boot (fun _ => bareWiiHeader) fun _ => none)).error hrun
  · exact ⟨w', hrun, hmem, hread⟩
  · cases hspin

end TakeADump
