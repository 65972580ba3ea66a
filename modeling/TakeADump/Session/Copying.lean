import TakeADump.Session.Media
import TakeADump.Dump.Cancelled
import TakeADump.Dump.Trace

/-!
# `main` is a session: the copy

A `Session.Disc` is a job for one of the discs of `get_disk_size_bytes`, with nothing opened and no error counted
before. One round of its loop moves the session from `ready` to `ready`, one sector further (`run_round`), so the
rounds before a sector lead to that sector (`run_point`); each way a dump ends goes on from there (`ends_dump`).
-/

namespace TakeADump

open Rollover (Log)

namespace Session

/-- The copy of a job when `s` sectors are done. -/
def copyOf (j : Job) (stop : Bool) (s : Nat) : Copy :=
  ⟨j.size, stop, s, (j.point s).errors, (j.point s).log.parts.length⟩

/-- A job of whole sectors in reach, the first one of its session. -/
structure Disc (j : Job) : Prop where
  base : j.base = 0
  errorCount : j.start.errorCount = 0
  whole : sectorSize ∣ j.size.toNat
  reach : j.size.toNat ≤ 2 ^ 34

variable {j : Job} {stop : Bool} {s k : Nat}

/-! ## Sectors -/

theorem Disc.lt_iff (h : Disc j) : s < j.sectors ↔ sectorSize * (s + 1) ≤ j.size.toNat := by
  obtain ⟨n, hn⟩ := h.whole
  rw [j.lt_sectors, hn, sectorSize_eq]
  omega

theorem Disc.len_eq (h : Disc j) (hs : s < j.sectors) : j.len s = sectorSize := by
  have hle := h.lt_iff.1 hs
  unfold Job.len
  rw [sectorSize_eq] at hle ⊢
  omega

theorem Disc.addressable (h : Disc j) (hs : s < j.sectors) : addressable s = true := by
  have hlt := j.lt_sectors.1 hs
  have hreach := h.reach
  exact Job.addressable_iff.2 (by omega)

theorem Disc.reads (h : Disc j) (hs : s < j.sectors) (c : Copy) (hc : c.done = s) : c.reads (j.request s) = true := by
  have hlt : s < j.size.toNat / sectorSize := by
    have hle := h.lt_iff.1 hs
    rw [sectorSize_eq] at hle ⊢
    omega
  have hcount : (j.request s).count.toNat = sectorSize := by
    rw [show (j.request s).count = UInt32.ofNat (j.len s) from rfl, j.toNat_len, h.len_eq hs]
  rw [Copy.reads, hc, j.range_whole (h.addressable hs) hlt, hcount]
  simp

/-! ## One sector -/

theorem errors_succ (j : Job) (s : Nat) :
    (j.point (s + 1)).errors = (j.point s).errors + if j.readable s then 0 else 1 := by
  rw [Job.point_succ, show (j.advance (j.atWritten s)).errors = (j.readyToWrite (j.point s)).errors from rfl]
  unfold Job.readyToWrite Job.settle
  rw [show (j.readStep (j.roll (j.point s))).done = s from j.point_done s]
  split <;> simp_all [Job.readStep, Job.roll]

theorem parts_succ (j : Job) (s : Nat) :
    (j.point (s + 1)).log.parts.length = ((j.point s).log.roll chunkSize).parts.length := by
  rw [Job.point_succ_log, Log.length_parts_append]

/-- Between two sectors there is no part yet, or one is open. -/
theorem closeEvents_before (hs : s ≤ j.sectors) :
    (j.point s).log.parts.length = 0 ∧ j.closeEvents (j.point s).log = [] ∨
      0 < (j.point s).log.parts.length ∧
        j.closeEvents (j.point s).log = [.fclose (some (j.base + ((j.point s).log.parts.length - 1)))] := by
  cases hcur : (j.point s).log.cur with
  | none =>
    have hfull := (j.filled_point hs).none hcur
    exact Or.inl ⟨by simp [Log.parts, hcur, hfull], by simp [Job.closeEvents, hcur]⟩
  | some c => exact Or.inr ⟨by simp [Log.parts, hcur], by simp [Job.closeEvents, Log.parts, hcur]⟩

/-- The cursor moves up, and the full part is closed. -/
theorem run_close (h : Disc j) (hs : s < j.sectors) (hneed : (j.point s).log.needsPart chunkSize) :
    Monitor.run Phase.step (.copying (copyOf j stop s) .ready) (.moveUp :: j.closeEvents (j.point s).log) =
      some (.copying (copyOf j stop s) .closed) := by
  have hlt : sectorSize * (copyOf j stop s).done < (copyOf j stop s).size.toNat := j.lt_sectors.1 hs
  have hrolls : (copyOf j stop s).rolls = true := decide_eq_true ((Job.rolls_iff hs).1 hneed)
  have hmove : Phase.step (.copying (copyOf j stop s) .ready) .moveUp =
      some (.copying (copyOf j stop s) (if (copyOf j stop s).parts = 0 then .closed else .rolling)) := by
    simp only [Phase.step, Copy.step, Copy.next, if_pos hlt, if_pos hrolls]
  rw [Monitor.run_cons_of hmove]
  rcases closeEvents_before (Nat.le_of_lt hs) with ⟨hzero, hnil⟩ | ⟨hpos, hclose⟩
  · have hparts : (copyOf j stop s).parts = 0 := hzero
    rw [hnil, if_pos hparts]
    rfl
  · have hparts : (copyOf j stop s).parts ≠ 0 := Nat.ne_of_gt hpos
    have hstep : Phase.step (.copying (copyOf j stop s) .rolling)
        (.fclose (some ((j.point s).log.parts.length - 1))) = some (.copying (copyOf j stop s) .closed) := if_pos rfl
    rw [hclose, if_neg hparts, h.base, Nat.zero_add, Monitor.run_cons_of hstep]
    rfl

/-- A part is open. -/
theorem run_roll (h : Disc j) (hs : s < j.sectors) :
    Monitor.run Phase.step (.copying (copyOf j stop s) .ready) (.moveUp :: j.rollEvents (j.point s).log) =
      some (.copying { copyOf j stop s with parts := (j.point (s + 1)).log.parts.length } (.reading 0)) := by
  rw [parts_succ]
  by_cases hneed : (j.point s).log.needsPart chunkSize
  · rw [Job.rollEvents, if_pos hneed, ← List.cons_append, Monitor.run_append_of (run_close h hs hneed),
      Log.roll_pos hneed, Log.length_parts_open]
    rfl
  · have hlt : sectorSize * (copyOf j stop s).done < (copyOf j stop s).size.toNat := j.lt_sectors.1 hs
    have hrolls : ¬ (copyOf j stop s).rolls = true := fun hr =>
      hneed ((Job.rolls_iff hs).2 (of_decide_eq_true hr))
    rw [Job.rollEvents, if_neg hneed, Log.roll_neg hneed, Monitor.run_cons, Phase.step, Copy.step, Copy.next,
      if_pos hlt, if_neg hrolls]
    rfl

/-- One try. -/
theorem run_try (h : Disc j) (hs : s < j.sectors) {c : Copy} (hc : c.done = s) {t : Nat} (ht : t < 3) (ok : Bool) :
    Monitor.run Phase.step (.copying c (.reading t))
        [.request (j.request s), .dcInvalidate .buffer (j.len s), .finished ok] =
      some (.copying c (if ok then .settled else .reading (t + 1))) := by
  have hcommand : Phase.step (.copying c (.reading t)) (.request (j.request s)) =
      some (.copying c (.commanded t)) := if_pos ⟨ht, h.reads hs c hc⟩
  have hinvalidate : Phase.step (.copying c (.commanded t)) (.dcInvalidate .buffer sectorSize) =
      some (.copying c (.waiting t)) := by simp [Phase.step, Copy.step]
  rw [Monitor.run_cons_of hcommand, h.len_eq hs, Monitor.run_cons_of hinvalidate]
  rfl

/-- The tries of a sector. -/
theorem run_readEvents (h : Disc j) (hs : s < j.sectors) {c : Copy} (hc : c.done = s) :
    Monitor.run Phase.step (.copying c (.reading 0)) (j.readEvents s) =
      some (.copying c (if j.readable s then .settled else .reading 3)) := by
  obtain ⟨haddr, n, hn, hlast⟩ := (j.tries_eq s).resolve_left fun hno => by
    have htries := Imp.tries_pos (o := fun t => (j.attempt s t).isOk) (n := 3) (by omega)
    rw [Job.tries, if_pos (h.addressable hs)] at hno
    omega
  have htries : j.tries s = Imp.tries (fun t => (j.attempt s t).isOk) 3 := if_pos haddr
  have hle : n + 1 ≤ 3 := by
    rw [← hn, htries]
    exact Imp.tries_le _ _
  have hfail : ∀ t < n, (j.attempt s t).isOk = false := fun t ht =>
    Imp.not_of_lt_tries (o := fun t => (j.attempt s t).isOk) (n := 3) (by rw [← htries, hn]; omega)
  have hrounds : Monitor.run Phase.step (.copying c (.reading 0)) ((List.range n).flatMap fun t =>
      [.request (j.request s), .dcInvalidate .buffer (j.len s), .finished (j.attempt s t).isOk]) =
        some (.copying c (.reading n)) := by
    refine Monitor.run_rounds (f := fun t => Phase.copying c (.reading t)) fun t ht => ?_
    rw [run_try h hs hc (by omega), hfail t ht]
    rfl
  rw [Job.readEvents, hn, List.range_succ, List.flatMap_append, List.flatMap_singleton,
    Monitor.run_append_of hrounds, run_try h hs hc hle, hlast]
  cases hr : j.readable s with
  | true => rfl
  | false =>
    have hthree : n + 1 = 3 := by
      rw [← hn, htries]
      refine Imp.tries_eq_of_none fun t ht => ?_
      by_contra hok
      have hhit : Imp.hit (fun t => (j.attempt s t).isOk) 3 = true :=
        Imp.hit_iff.2 ⟨t, ht, by simpa using hok⟩
      rw [Job.readable, haddr, hhit] at hr
      cases hr
    rw [hthree]

/-- A sector that could not be read is reported. -/
theorem step_report {c : Copy} (hc : c.done = s) : Phase.step (.copying c (.reading 3)) (errorReport s) =
    some (.copying { c with errors := c.errors + 1 } .reported) := by
  subst hc
  simp [Phase.step, Copy.step, errorReport]

/-- The copy of sector `s` when its data is settled. -/
def settledCopy (j : Job) (stop : Bool) (s : Nat) : Copy := { copyOf j stop (s + 1) with done := s }

/-- The sector is read, or reported and zeroed. -/
theorem run_settled (h : Disc j) (hs : s < j.sectors) (hstay : j.readable s = true ∨ stop = false) :
    Monitor.run Phase.step (.copying (copyOf j stop s) .ready)
        (.moveUp :: (j.rollEvents (j.point s).log ++ j.readEvents s ++ j.settleEvents s)) =
      some (.copying (settledCopy j stop s) .settled) := by
  rw [List.append_assoc, ← List.cons_append, Monitor.run_append_of (run_roll h hs),
    Monitor.run_append_of (run_readEvents h hs rfl)]
  simp only [settledCopy, copyOf, errors_succ, Job.settleEvents]
  cases hr : j.readable s with
  | true => rfl
  | false =>
    obtain rfl : stop = false := hstay.resolve_left (by simp [hr])
    rw [h.len_eq hs]
    exact (Monitor.run_cons_of (step_report rfl) _).trans rfl

/-! ## The points of the copy -/

/-- The trace of the copy up to `p` leads to phase `q`. -/
def Reads (j : Job) (stop : Bool) (p : Point) (q : Phase) : Prop :=
  Monitor.run Phase.step (.copying (copyOf j stop 0) .ready) p.trace = some q

variable {p : Point} {q q' : Phase}

theorem Reads.note (h : Reads j stop p q) {evs : List Event} (hrun : Monitor.run Phase.step q evs = some q') :
    Reads j stop (p.note evs) q' := by
  unfold Reads at h ⊢
  rw [Point.note, Monitor.run_append_of h, hrun]

/-- The sector is settled. -/
theorem reads_readyToWrite (h : Disc j) (hs : s < j.sectors) (hstay : j.readable s = true ∨ stop = false)
    (hp : Reads j stop (j.point s) (.copying (copyOf j stop s) .ready)) :
    Reads j stop (j.readyToWrite (j.point s)) (.copying (settledCopy j stop s) .settled) := by
  unfold Reads at hp ⊢
  rw [Job.trace_readyToWrite, Monitor.run_append_of hp, run_settled h hs hstay]

/-- The part a settled sector goes to. -/
theorem part_settledCopy (h : Disc j) (stop : Bool) (s : Nat) :
    (settledCopy j stop s).part = some (j.base + (j.readyToWrite (j.point s)).log.full.length) := by
  obtain ⟨c, hcur⟩ := Log.roll_cur chunkSize (j.point s).log
  have hparts : (settledCopy j stop s).parts = ((j.point s).log.roll chunkSize).full.length + 1 := by
    show (j.point (s + 1)).log.parts.length = _
    rw [parts_succ, Log.parts, hcur]
    simp
  rw [Copy.part, hparts, Job.log_readyToWrite, h.base, Nat.zero_add, Nat.add_sub_cancel]

/-- A sector that is accepted in full. -/
theorem step_fwrite (c : Copy) : Phase.step (.copying c .settled) (.fwrite c.part sectorSize sectorSize) =
    some (.copying c .written) := by
  simp [Phase.step, Copy.step]

theorem step_progress (c : Copy) : Phase.step (.copying c .written) c.progress =
    some (.copying { c with done := c.done + 1 } .shown) := by
  simp [Phase.step, Copy.step]

/-- The sector is written. -/
theorem reads_atWritten (h : Disc j) (hs : s < j.sectors) (hstay : j.readable s = true ∨ stop = false)
    (hp : Reads j stop (j.point s) (.copying (copyOf j stop s) .ready)) :
    Reads j stop (j.atWritten s) (.copying (settledCopy j stop s) .written) := by
  refine (reads_readyToWrite h hs hstay hp).note ?_
  rw [Job.done_readyToWrite, Job.point_done, h.len_eq hs, ← part_settledCopy h stop s]
  exact Monitor.run_cons_of (step_fwrite _) []

/-- The progress line after a sector. -/
theorem progress_eq (h : Disc j) (stop : Bool) (hs : s < j.sectors) :
    j.progress { j.atWritten s with done := (j.atWritten s).done + 1 } = (settledCopy j stop s).progress := by
  have hdone : (j.atWritten s).done = s := by simp [Job.atWritten, Job.writeStep]
  have herrors : (j.atWritten s).errors = (j.point (s + 1)).errors := by
    rw [Job.point_succ]
    rfl
  rw [Job.progress, hdone, herrors, h.errorCount, Nat.min_eq_left (h.lt_iff.1 hs), Int.zero_add]
  rfl

/-- The progress is shown and HOME looked at. -/
theorem reads_advance (h : Disc j) (hs : s < j.sectors) (hstay : j.readable s = true ∨ stop = false)
    (hp : Reads j stop (j.point s) (.copying (copyOf j stop s) .ready)) :
    Reads j stop (j.point (s + 1))
      (if j.home s then .quitting else .copying (copyOf j stop (s + 1)) .ready) := by
  have hsamples : (j.atWritten s).samples = s := by simp [Job.atWritten, Job.writeStep]
  rw [Job.point_succ]
  refine (reads_atWritten h hs hstay hp).note ?_
  rw [progress_eq h stop hs, Monitor.run_cons_of (step_progress _), hsamples]
  unfold Job.home
  by_cases hhome : j.env.pad (j.start.samples + s) &&& wpadButtonHome ≠ 0
  · rw [decide_eq_true hhome]
    exact (Monitor.run_cons_of (congrArg some (if_pos hhome)) []).trans rfl
  · rw [decide_eq_false hhome]
    exact (Monitor.run_cons_of (congrArg some (if_neg hhome)) []).trans rfl

/-- **The rounds of the loop** lead from sector to sector. -/
theorem reads_point (h : Disc j) (hstop : j.start.cancelOnError = stop) (hk : k ≤ j.sectors)
    (hpre : ∀ s < k, j.halt s = none) : Reads j stop (j.point k) (.copying (copyOf j stop k) .ready) := by
  induction k with
  | zero => rfl
  | succ k ih =>
    have hnone := hpre k (Nat.lt_succ_self k)
    have hstay := j.stays_of_halt (s := k) (by rw [hnone]; exact nofun) (by rw [hnone]; exact nofun)
    have hhome := j.home_of_halt hnone
    rw [hstop] at hstay
    have hstep := reads_advance h hk hstay (ih (Nat.le_of_succ_le hk) fun s hs => hpre s (Nat.lt_succ_of_lt hs))
    rwa [hhome] at hstep

end Session

end TakeADump
