import TakeADump.Dump.Copy
import TakeADump.Wait.Quiet

/-!
# The statements of the loop follow the copy

`Core j p w` says that the world of the dump stands where the copy `p` stands, `Counters` the same of the five counters
and the stream pointer. Each statement of the loop has one lemma for the case that it goes on (`rollover_ok`,
`readSector_core`, `settle_ok`, `writeSector_ok`, `advance_ok`) and one for each way to leave (`rollover_fail`,
`settle_cancel`, `writeSector_short`, `advance_home`).
-/

namespace TakeADump

open Rollover (Log)

namespace Job

variable (j : Job) {p : Point} {w : World}

/-- The world `w` of the dump stands where the copy `p` stands, the counters aside. -/
structure Core (j : Job) (p : Point) (w : World) : Prop where
  streams : w.streams = j.streams p.log
  trace : w.trace = j.start.trace ++ p.trace
  buffer : w.mem .buffer = p.mem
  id : w.mem .localId = j.start.mem .localId
  readCmd : w.readCmd = j.start.readCmd
  cancelOnError : w.cancelOnError = j.start.cancelOnError
  prior : w.prior = j.start.prior
  errorCount : w.errorCount = j.start.errorCount + p.errors
  samples : w.samples = j.start.samples + p.samples
  writes : w.writes = j.start.writes + p.writes
  tried : ∀ s, addressable s = true → w.tried (j.request s).range =
    j.start.tried (j.request s).range + if s < p.read then j.tries s else 0

/-- The counters of `dump` when `n` sectors are done and the log is `l`. -/
structure Counters (j : Job) (n : Nat) (l : Log UInt8) (f : Frame) : Prop where
  offset : f.offset.toNat = min (sectorSize * n) j.size.toNat
  remaining : f.remaining.toNat = j.size.toNat - sectorSize * n
  lba : sectorSize * n < j.size.toNat → f.lba.toNat = n
  fp : f.fp = l.cur.map fun _ => j.base + l.full.length
  chunkOffset : ∀ c, l.cur = some c → f.chunkOffset.toNat = c.length
  chunkIndex : f.chunkIndex = Int32.ofNat (l.parts.length + 1)

/-! ## Streams of a log -/

theorem modify_last {α : Type} (f : α → α) (a : α) (xs : List α) :
    (xs ++ [a]).modify xs.length f = xs ++ [f a] := by
  induction xs with
  | nil => rfl
  | cons x xs ih => simp [ih]

theorem length_streams (l : Log UInt8) : (j.streams l).length = j.base + l.parts.length := by
  cases hc : l.cur <;> simp [streams, base, Log.parts, hc]

/-- The streams of a log with an open part. -/
theorem streams_of_cur {l : Log UInt8} {c : Bytes} (h : l.cur = some c) :
    j.streams l = (j.start.streams ++ l.full.mapIdx j.closedStream) ++ [j.openStream l.full.length c] ∧
      (j.start.streams ++ l.full.mapIdx j.closedStream).length = j.base + l.full.length := by
  simp [streams, h, base]

/-- Closing the current part. -/
theorem streams_close {l : Log UInt8} {c : Bytes} (h : l.cur = some c) :
    (j.streams l).modify (j.base + l.full.length) (Stream.close j.env (j.base + l.full.length)) =
      j.streams l.closed := by
  obtain ⟨hs, hl⟩ := j.streams_of_cur h
  rw [hs, ← hl, modify_last, hl]
  simp [streams, Log.closed, Log.parts, h, Stream.close, openStream, closedStream, List.mapIdx_append]

/-- Opening the next part. -/
theorem streams_open (l : Log UInt8) :
    j.streams l.closed ++ [⟨j.name l.parts.length, [], none⟩] = j.streams ⟨l.parts, some []⟩ := by
  simp [streams, Log.closed, openStream]

/-- Writing to the current part. -/
theorem streams_write {l : Log UInt8} {c : Bytes} (h : l.cur = some c) (x : Bytes) :
    (j.streams l).modify (j.base + l.full.length) (fun s => { s with data := s.data ++ x }) =
      j.streams (l.append x) := by
  obtain ⟨hs, hl⟩ := j.streams_of_cur h
  rw [hs, ← hl, modify_last]
  simp [streams, Log.append, h, openStream]

/-! ## Small steps -/

variable {j} {n : Nat} {f : Frame}

/-- A line in the trace. -/
theorem Core.log (hc : j.Core p w) (ev : Event) : j.Core (p.note [ev]) (w.log ev) :=
  { hc with
    trace := by
      show w.trace ++ [ev] = j.start.trace ++ (p.trace ++ [ev])
      rw [hc.trace, List.append_assoc] }

/-- The counters are not part of the core. -/
theorem Core.setFrame (hc : j.Core p w) (f : Frame) : j.Core p { w with frame := f } := { hc with }

theorem run_emit (ev : Event) (w : World) : (emit ev).run w = .ok () (w.log ev) := rfl

theorem run_setFrame (g : Frame → Frame) (w : World) :
    (TakeADump.setFrame g).run w = .ok () { w with frame := g w.frame } := rfl

theorem run_get (w : World) : (get : Prog World).run w = .ok w w := rfl

/-! ## Opening a part -/

/-- The open part is closed. -/
theorem Core.fclose {c : Bytes} (hc : j.Core p w) (hcur : p.log.cur = some c) :
    ∃ w', (fclose j.env (some (j.base + p.log.full.length))).run w = .ok () w' ∧ w'.frame = w.frame ∧
      j.Core (j.closeStep p) w' := by
  refine ⟨_, rfl, rfl, { hc with streams := ?_, trace := ?_ }⟩
  · show w.streams.modify _ _ = _
    rw [hc.streams, j.streams_close hcur]
    rfl
  · show w.trace ++ _ = j.start.trace ++ (p.trace ++ _)
    rw [hc.trace, closeEvents, hcur, List.append_assoc]

/-- A new part is opened. -/
theorem Core.fopen_ok (hc : j.Core p w) (hcur : p.log.cur = none)
    (hopen : j.env.fopen (j.base + p.log.parts.length) = true) :
    ∃ w', (fopen j.env (j.name p.log.parts.length)).run w = .ok (some (j.base + p.log.parts.length)) w' ∧
      w'.frame = w.frame ∧
      j.Core { p with
        log := ⟨p.log.parts, some []⟩
        trace := p.trace ++ [.fopen (j.name p.log.parts.length) true] } w' := by
  have hlen : w.streams.length = j.base + p.log.parts.length := by rw [hc.streams, length_streams]
  refine ⟨World.log { w with streams := w.streams ++ [⟨j.name p.log.parts.length, [], none⟩] }
    (.fopen (j.name p.log.parts.length) true), ?_, rfl, { hc with streams := ?_, trace := ?_ }⟩
  · generalize j.name p.log.parts.length = filename
    unfold TakeADump.fopen
    rw [Imp.run_bind_ok (run_get w), hlen, if_pos hopen]
    rfl
  · show w.streams ++ _ = _
    rw [hc.streams, ← streams_open, Log.closed_of_none hcur]
  · show w.trace ++ _ = j.start.trace ++ (p.trace ++ _)
    rw [hc.trace, List.append_assoc]

/-- A new part is refused. -/
theorem Core.fopen_fail (hc : j.Core p w) (hopen : j.env.fopen (j.base + p.log.parts.length) = false) :
    (fopen j.env (j.name p.log.parts.length)).run w =
      .ok none (w.log (.fopen (j.name p.log.parts.length) false)) := by
  have hlen : w.streams.length = j.base + p.log.parts.length := by rw [hc.streams, length_streams]
  generalize j.name p.log.parts.length = filename
  unfold TakeADump.fopen
  rw [Imp.run_bind_ok (run_get w), hlen, if_neg (by rw [hopen]; exact Bool.false_ne_true)]
  rfl

theorem run_openPart {e : Env} {filename : Bytes} (h : partName (w.mem .localId) w.frame.chunkIndex = filename) :
    (openPart e (some .localId)).run w = (openFile e filename).run w := by
  have hderef : (deref (some .localId)).run w = .ok .localId w := rfl
  unfold openPart
  rw [Imp.run_bind_ok hderef, Imp.run_bind_ok (run_get w), h]

/-- The counters after a part was opened. -/
def opened (i : Nat) (f : Frame) : Frame := { f with chunkIndex := f.chunkIndex + 1, fp := some i, chunkOffset := 0 }

theorem openFile_ok (hc : j.Core p w) (hcur : p.log.cur = none)
    (hopen : j.env.fopen (j.base + p.log.parts.length) = true) :
    ∃ w', (openFile j.env (j.name p.log.parts.length)).run w = .ok true w' ∧
      w'.frame = opened (j.base + p.log.parts.length) w.frame ∧
      j.Core { p with
        log := ⟨p.log.parts, some []⟩
        trace := p.trace ++ [.fopen (j.name p.log.parts.length) true] } w' := by
  have hc₀ := hc.setFrame { w.frame with chunkIndex := w.frame.chunkIndex + 1 }
  obtain ⟨w₁, hrun, hframe, hc₁⟩ := hc₀.fopen_ok hcur hopen
  refine ⟨{ w₁ with frame := opened (j.base + p.log.parts.length) w.frame }, ?_, rfl, hc₁.setFrame _⟩
  unfold openFile
  rw [Imp.run_bind_ok (run_setFrame _ _), Imp.run_bind_ok hrun, Imp.run_bind_ok (run_setFrame _ _),
    if_neg (by simp), Imp.run_bind_ok (run_setFrame _ _), hframe]
  rfl

/-- The next part is refused: the dump gives up. -/
theorem openFile_fail (hc : j.Core p w) (hopen : j.env.fopen (j.base + p.log.parts.length) = false) :
    ∃ w', (openFile j.env (j.name p.log.parts.length)).run w = .ok false w' ∧ w'.frame.offset = w.frame.offset ∧
      j.Core (p.note (j.refusedEvents p.log.parts.length)) w' := by
  have hrun := (hc.setFrame { w.frame with chunkIndex := w.frame.chunkIndex + 1 }).fopen_fail hopen
  have hc' := (((hc.log (.fopen (j.name p.log.parts.length) false)).log .newline).log
    (.print "Failed to create file: %s" [.chars (j.name p.log.parts.length)])).log .free
  simp only [Point.note_note, List.cons_append, List.nil_append] at hc'
  replace hc' := hc'.setFrame { w.frame with chunkIndex := w.frame.chunkIndex + 1, fp := none }
  refine ⟨_, ?_, ?_, hc'⟩
  rotate_left
  · rfl
  unfold openFile Logger.newline Logger.print free
  rw [Imp.run_bind_ok (run_setFrame _ _), Imp.run_bind_ok hrun, Imp.run_bind_ok (run_setFrame _ _), if_pos rfl,
    Imp.run_bind_ok (run_emit _ _), Imp.run_bind_ok (run_emit _ _), Imp.run_bind_ok (run_emit _ _)]
  rfl

/-! ## Rolling over -/

/-- The loop opens a part iff the log needs one. -/
theorem Counters.needsPart_iff {l : Log UInt8} (hf : j.Counters n l f) :
    f.fp = none ∨ f.chunkOffset.toNat ≥ chunkSize ↔ l.needsPart chunkSize = true := by
  cases hcur : l.cur with
  | none => simp [hf.fp, hcur, Log.needsPart]
  | some c => simp [hf.fp, hcur, Log.needsPart, hf.chunkOffset c hcur]

theorem Counters.fp_eq_none {l : Log UInt8} (hf : j.Counters n l f) : f.fp = none ↔ l.cur = none := by
  rw [hf.fp]
  cases l.cur <;> simp

/-- The counters after a part was opened fit the log after it. -/
theorem Counters.opened {l : Log UInt8} (hf : j.Counters n l f) :
    j.Counters n ⟨l.parts, some []⟩ (opened (j.base + l.parts.length) f) where
  offset := hf.offset
  remaining := hf.remaining
  lba := hf.lba
  fp := rfl
  chunkOffset c hc := by cases hc; rfl
  chunkIndex := by
    show f.chunkIndex + 1 = _
    rw [hf.chunkIndex, Log.length_parts_open, Int32.ofNat_add (l.parts.length + 1) 1]
    rfl

/-- A part that needs closing is closed. -/
theorem close_before_open (hc : j.Core p w) (hf : j.Counters n p.log w.frame) :
    ∃ w', (fcloseOpen j.env w.frame.fp).run w = .ok () w' ∧ w'.frame = w.frame ∧
      j.Core (j.closeStep p) w' := by
  cases hcur : p.log.cur with
  | none =>
    have hfp : w.frame.fp = none := hf.fp_eq_none.2 hcur
    refine ⟨w, by simp [fcloseOpen, hfp], rfl, ?_⟩
    rw [closeStep, Log.closed_of_none hcur, closeEvents, hcur, List.append_nil]
    exact hc
  | some c =>
    have hfp : w.frame.fp = some (j.base + p.log.full.length) := by rw [hf.fp, hcur]; rfl
    rw [hfp, fcloseOpen, if_pos (by simp)]
    exact hc.fclose hcur

theorem rollover_open (hc : j.Core p w) (hf : j.Counters n p.log w.frame) (hneed : p.log.needsPart chunkSize) :
    ∃ w₁, w₁.frame = w.frame ∧
      j.Core (j.closeStep p) w₁ ∧
      (rollover j.env (some .localId)).run w = (openFile j.env (j.name p.log.parts.length)).run w₁ := by
  obtain ⟨w₁, hclose, hframe, hc₁⟩ := close_before_open hc hf
  refine ⟨w₁, hframe, hc₁, ?_⟩
  have hname : partName (w₁.mem .localId) w₁.frame.chunkIndex = j.name p.log.parts.length := by
    rw [hc₁.id, hframe, hf.chunkIndex, name]
  unfold rollover
  rw [Imp.run_bind_ok (run_get w), if_pos (hf.needsPart_iff.2 hneed), Imp.run_bind_ok hclose, run_openPart hname]

/-- `rollover` rolls the log over if the part it needs can be created. -/
theorem rollover_ok (hc : j.Core p w) (hf : j.Counters n p.log w.frame)
    (hopen : p.log.needsPart chunkSize → j.env.fopen (j.base + p.log.parts.length) = true) :
    ∃ w', (rollover j.env (some .localId)).run w = .ok true w' ∧
      j.Core { p with log := p.log.roll chunkSize, trace := p.trace ++ j.rollEvents p.log } w' ∧
      j.Counters n (p.log.roll chunkSize) w'.frame := by
  by_cases hneed : p.log.needsPart chunkSize
  · obtain ⟨w₁, hframe, hc₁, hrun⟩ := rollover_open hc hf hneed
    obtain ⟨w', hrun', hframe', hc'⟩ := openFile_ok hc₁ rfl (by simpa using hopen hneed)
    simp only [parts_closeStep] at hrun' hframe' hc'
    refine ⟨w', hrun.trans hrun', ?_, ?_⟩
    · rw [rollEvents, if_pos hneed, Log.roll_pos hneed, ← List.append_assoc]
      exact hc'
    · rw [Log.roll_pos hneed, hframe', hframe]
      exact hf.opened
  · refine ⟨w, ?_, ?_, ?_⟩
    · unfold rollover
      rw [Imp.run_bind_ok (run_get w), if_neg (mt hf.needsPart_iff.1 hneed)]
      rfl
    · rw [rollEvents, if_neg hneed, Log.roll_neg hneed, List.append_nil]
      exact hc
    · rw [Log.roll_neg hneed]
      exact hf

/-- `rollover` gives up if the part it needs cannot be created. -/
theorem rollover_fail (hc : j.Core p w) (hf : j.Counters n p.log w.frame) (hneed : p.log.needsPart chunkSize)
    (hopen : j.env.fopen (j.base + p.log.parts.length) = false) :
    ∃ w', (rollover j.env (some .localId)).run w = .ok false w' ∧ w'.frame.offset = w.frame.offset ∧
      j.Core ((j.closeStep p).note (j.refusedEvents p.log.parts.length)) w' := by
  obtain ⟨w₁, hframe, hc₁, hrun⟩ := rollover_open hc hf hneed
  obtain ⟨w', hrun', hoff, hc'⟩ := openFile_fail hc₁ (by simpa using hopen)
  simp only [parts_closeStep] at hrun' hc'
  exact ⟨w', hrun.trans hrun', by rw [hoff, hframe], hc'⟩

/-! ## Reading -/

/-- `lba << 11` is the sector's position. -/
theorem Counters.lba_shift {l : Log UInt8} (hf : j.Counters n l f) (hn : n < j.sectors) :
    f.lba <<< 11 = sectorOffset n := by
  have hlt := j.lt_sectors.1 hn
  have hsize := j.size.toNat_lt
  have hlba := hf.lba hlt
  have hoff := toNat_sectorOffset (s := n) (by omega)
  apply UInt64.toNat_inj.1
  rw [sectorSize_eq] at hlt hoff
  rw [hoff, UInt64.toNat_shiftLeft, hlba, Nat.shiftLeft_eq, show 2 ^ ((11 : UInt64).toNat % 64) = 2048 from rfl,
    Nat.mod_eq_of_lt (by omega), Nat.mul_comm]

/-- `read_size` is the sector's length. -/
theorem Counters.readSize {l : Log UInt8} (hf : j.Counters n l f) : f.readSize = UInt32.ofNat (j.len n) := by
  have hsec := sectorSize_eq
  unfold Frame.readSize len
  rw [hf.remaining]
  split
  · rw [Nat.min_eq_left (by omega)]
  · rw [Nat.min_eq_right (by omega), ← UInt64.ofNat_toNat (x := f.remaining), hf.remaining]
    apply UInt32.toNat_inj.1
    simp

theorem accepts_sectorOffset (hn : n < j.sectors) : accepts (sectorOffset n) ↔ addressable n = true := by
  have hlt := j.lt_sectors.1 hn
  have hsize := j.size.toNat_lt
  rw [accepts_iff, addressable_iff, toNat_sectorOffset (by omega)]

/-- What the tries deliver to the buffer is what the job says. -/
theorem triedMem_eq {len : UInt32} {offset : UInt64}
    (hlen : len = UInt32.ofNat (j.len n)) (hoff : offset = sectorOffset n)
    (hcmd : w.readCmd = j.start.readCmd) (ht : ∀ t, tryAttempt j.env .buffer len offset w t = j.attempt n t)
    (k : Nat) : triedMem j.env .buffer len offset w k = j.filled n (w.mem .buffer) k := by
  induction k with
  | zero => rfl
  | succ k ih =>
    rw [triedMem, filled, ht, ih, hlen, hoff, hcmd]
    rfl

theorem Core.request_eq (hc : j.Core p w) (s : Nat) :
    readRequest j.env .buffer (UInt32.ofNat (j.len s)) (sectorOffset s) w.readCmd = j.request s := by
  rw [hc.readCmd]
  rfl

/-- A try on the next sector is the job's. -/
theorem Core.tryAttempt_eq (hc : j.Core p w) (ha : addressable p.done = true) (hread : p.read = p.done) (t : Nat) :
    tryAttempt j.env .buffer (UInt32.ofNat (j.len p.done)) (sectorOffset p.done) w t = j.attempt p.done t := by
  have htried := hc.tried p.done ha
  rw [if_neg (by omega), Nat.add_zero] at htried
  rw [tryAttempt, hc.request_eq, htried, attempt]

/-- The tries on a sector within reach follow `readStep`. -/
theorem Core.afterTries (hc : j.Core p w) (ha : addressable p.done = true) (hread : p.read = p.done)
    (regs : Nat → UInt32) : j.Core (j.readStep p) (afterTries j.env .buffer (UInt32.ofNat (j.len p.done))
      (sectorOffset p.done) w regs (j.tries p.done)) := by
  have hatt := hc.tryAttempt_eq ha hread
  refine { hc with trace := ?_, buffer := ?_, tried := ?_ }
  · show w.trace ++ tryEvents _ _ _ _ _ _ = j.start.trace ++ (p.trace ++ j.readEvents p.done)
    rw [hc.trace, List.append_assoc, readEvents, tryEvents]
    simp only [hatt, hc.request_eq, j.toNat_len]
  · simp only [TakeADump.afterTries, Function.update_self]
    rw [triedMem_eq rfl rfl hc.readCmd hatt, hc.buffer, readStep]
  · intro s hs
    show Function.update w.tried _ _ _ = _ + if s < p.read + 1 then _ else _
    rw [hc.request_eq]
    by_cases hsn : s = p.done
    · subst hsn
      rw [Function.update_self, hc.tried _ hs, if_neg (by omega), if_pos (by omega), Nat.add_zero]
    · have hne : (j.request s).range ≠ (j.request p.done).range := fun h => hsn (j.range_request_inj hs ha h)
      rw [Function.update_of_ne hne, hc.tried _ hs]
      congr 1
      split <;> split <;> first | rfl | omega

/-- A sector out of reach is not tried. -/
theorem Core.rejected (hc : j.Core p w) (ha : ¬ addressable p.done = true) (hread : p.read = p.done) :
    j.Core (j.readStep p) w := by
  have htries : j.tries p.done = 0 := if_neg ha
  refine { hc with trace := ?_, buffer := ?_, tried := ?_ }
  · rw [hc.trace, readStep, readEvents, htries]
    simp
  · rw [hc.buffer, readStep, htries]
    rfl
  · intro s hs
    rw [hc.tried s hs]
    congr 1
    have hne : s ≠ p.done := fun h => ha (h ▸ hs)
    show _ = if s < p.read + 1 then _ else _
    split <;> split <;> first | rfl | omega

/-- The three tries of a sector follow `readStep`. -/
theorem readSector_core (hc : j.Core p w) (hf : j.Counters p.done p.log w.frame) (hn : p.done < j.sectors)
    (hread : p.read = p.done) :
    ∃ ret w', (readSector j.env (UInt32.ofNat (j.len p.done))).run w = .ok ret w' ∧
      (ret = 0 ↔ j.readable p.done = true) ∧ w'.frame = w.frame ∧ j.Core (j.readStep p) w' := by
  have hrun : (readSector j.env (UInt32.ofNat (j.len p.done))).run w =
      (Imp.retry .spin 3 (dvdLowRead64 j.env .buffer (UInt32.ofNat (j.len p.done)) (sectorOffset p.done))).run w := by
    unfold readSector
    rw [Imp.run_bind_ok (run_get w), ← hf.lba_shift hn]
  by_cases ha : addressable p.done = true
  · obtain ⟨regs, htries⟩ := run_tries j.env .buffer (UInt32.ofNat (j.len p.done)) (sectorOffset p.done) w
      ((accepts_sectorOffset hn).2 ha)
    have hcount : j.tries p.done = Imp.tries (fun t => (j.attempt p.done t).isOk) 3 := if_pos ha
    simp only [hc.tryAttempt_eq ha hread] at htries
    rw [← hcount] at htries
    refine ⟨_, _, hrun.trans htries, ?_, rfl, hc.afterTries ha hread regs⟩
    simp [readable, ha]
  · have hreject := run_tries_rejected j.env .buffer (UInt32.ofNat (j.len p.done)) (sectorOffset p.done) w
      (mt (accepts_sectorOffset hn).1 ha)
    refine ⟨-1, w, hrun.trans hreject, ?_, rfl, hc.rejected ha hread⟩
    simp [readable, ha]

/-! ## Settling a failed read -/

theorem Counters.offset_eq {l : Log UInt8} (hf : j.Counters n l f) (hn : n < j.sectors) :
    f.offset = sectorOffset n := by
  have hlt := j.lt_sectors.1 hn
  have hsize := j.size.toNat_lt
  apply UInt64.toNat_inj.1
  rw [hf.offset, toNat_sectorOffset (by omega), Nat.min_eq_left (by omega)]

/-- The world when the unreadable sector `n` was counted and reported. -/
def reported (n : Nat) (w : World) : World := { w with errorCount := w.errorCount + 1 }.log (errorReport n)

theorem Core.report (hc : j.Core p w) :
    j.Core { p.note [errorReport p.done] with errors := p.errors + 1 } (reported p.done w) :=
  { hc with
    trace := by
      show w.trace ++ _ = j.start.trace ++ (p.trace ++ _)
      rw [hc.trace, List.append_assoc]
    errorCount := by
      show w.errorCount + 1 = j.start.errorCount + ((p.errors + 1 : Nat) : Int)
      rw [hc.errorCount]
      omega }

/-- The buffer is zeroed. -/
theorem Core.memset (hc : j.Core p w) (n : Nat) : ∃ w', (memset n).run w = .ok () w' ∧ w'.frame = w.frame ∧
    j.Core { p with
      mem := fun i => if i < n then 0 else p.mem i
      trace := p.trace ++ [.memset n] } w' := by
  refine ⟨_, rfl, rfl, { hc.log (.memset n) with buffer := ?_, id := ?_ }⟩
  · simp only [World.log, Function.update_self]
    rw [hc.buffer]
  · simp only [World.log, Function.update_of_ne (show Region.localId ≠ .buffer by decide)]
    exact hc.id

theorem run_settle (fuel : Nat) {ret : Int} (readSize : UInt32) (hret : ret ≠ 0)
    (hf : j.Counters p.done p.log w.frame) (hn : p.done < j.sectors) :
    (TakeADump.settle j.env fuel ret readSize).run w =
      (if w.cancelOnError then Logger.error j.env fuel ret "Unrecovered read error." []
        else TakeADump.memset readSize.toNat : Prog Unit).run (reported p.done w) := by
  unfold TakeADump.settle reported errorReport
  rw [if_pos hret, ← hf.offset_eq hn]
  rfl

/-- `settle` follows the copy if it does not have to leave. -/
theorem settle_ok (fuel : Nat) {ret : Int} (hc : j.Core p w) (hf : j.Counters p.done p.log w.frame)
    (hn : p.done < j.sectors) (hret : ret = 0 ↔ j.readable p.done = true)
    (hstay : j.readable p.done = true ∨ j.start.cancelOnError = false) :
    ∃ w', (TakeADump.settle j.env fuel ret (UInt32.ofNat (j.len p.done))).run w = .ok () w' ∧ w'.frame = w.frame ∧
      j.Core (j.settle p) w' := by
  by_cases hr : j.readable p.done = true
  · refine ⟨w, ?_, rfl, ?_⟩
    · unfold TakeADump.settle
      rw [if_neg (not_not.2 (hret.2 hr))]
      rfl
    · rw [settle, if_pos hr]
      exact hc
  · have hcancel : w.cancelOnError = false := by rw [hc.cancelOnError]; exact hstay.resolve_left hr
    have hrun := run_settle fuel (UInt32.ofNat (j.len p.done)) (mt hret.1 hr) hf hn
    rw [hcancel, if_neg Bool.false_ne_true, j.toNat_len] at hrun
    obtain ⟨w', hmemset, hframe, hc'⟩ := hc.report.memset (j.len p.done)
    refine ⟨w', hrun.trans hmemset, hframe, ?_⟩
    rw [settle, if_neg hr]
    simpa only [Point.note, List.append_assoc, List.cons_append, List.nil_append] using hc'

/-- `settle` leaves the program over an unreadable sector when told to. -/
theorem settle_cancel (fuel : Nat) {ret : Int} {readSize : UInt32} (hc : j.Core p w)
    (hf : j.Counters p.done p.log w.frame) (hn : p.done < j.sectors) (hret : ret ≠ 0)
    (hcancel : j.start.cancelOnError = true) :
    Imp.Ends (TakeADump.settle j.env fuel ret readSize) w (fun _ _ => False) (fun st w' =>
      (st = .exit 0 ∨ st = .spin) ∧ ∃ w₁, Quiet w₁ w' ∧ w₁.frame = w.frame ∧
        j.Core { p.note [errorReport p.done] with errors := p.errors + 1 } w₁) := by
  have hrun := run_settle fuel readSize hret hf hn
  rw [hc.cancelOnError, hcancel, if_pos rfl] at hrun
  rw [Imp.ends_congr hrun]
  refine (ends_error j.env fuel ret "Unrecovered read error." [] (reported p.done w)).mono (fun _ _ h => h)
    (fun st w' h => ⟨h.1, _, (quiet_log rfl).trans h.2, rfl, hc.report⟩)

/-! ## Writing -/

/-- `fwrite` appends what it accepts. -/
theorem Core.fwrite {c : Bytes} (hc : j.Core p w) (hcur : p.log.cur = some c) :
    ∃ w', (fwrite j.env (j.len p.done) (some (j.base + p.log.full.length))).run w =
        .ok (accepted j.env (j.start.writes + p.writes) (j.len p.done)) w' ∧ w'.frame = w.frame ∧
      j.Core (j.writeStep (accepted j.env (j.start.writes + p.writes) (j.len p.done)) p) w' := by
  rw [← hc.writes]
  refine ⟨_, rfl, rfl, { hc.log (.fwrite _ _ _) with streams := ?_, writes := ?_ }⟩
  · show w.streams.modify _ (fun s => { s with data := s.data ++ bytesAt (w.mem .buffer) _ }) = _
    rw [hc.streams, hc.buffer, j.streams_write hcur]
    rfl
  · show w.writes + 1 = j.start.writes + (p.writes + 1)
    rw [hc.writes, Nat.add_assoc]

theorem run_writeSector {w₁ : World} {m : Nat} (hfp : w.frame.fp = some (j.base + p.log.full.length))
    (h : (fwrite j.env (j.len p.done) (some (j.base + p.log.full.length))).run w = .ok m w₁) :
    (writeSector j.env (UInt32.ofNat (j.len p.done))).run w =
      (if m ≠ j.len p.done then do
        Logger.print "Error writing file. Bytes written: %d. Bytes expected: %d."
          [.int m, .u32 (UInt32.ofNat (j.len p.done))]
        TakeADump.fclose j.env (some (j.base + p.log.full.length))
        free
        pure false
      else
        pure true : Prog Bool).run w₁ := by
  unfold writeSector
  rw [Imp.run_bind_ok (run_get w), hfp, j.toNat_len, Imp.run_bind_ok h]

theorem fp_eq {c : Bytes} (hf : j.Counters n p.log w.frame) (hcur : p.log.cur = some c) :
    w.frame.fp = some (j.base + p.log.full.length) := by rw [hf.fp, hcur]; rfl

/-- `writeSector` follows the copy if everything is accepted. -/
theorem writeSector_ok {c : Bytes} (hc : j.Core p w) (hf : j.Counters n p.log w.frame) (hcur : p.log.cur = some c)
    (hall : accepted j.env (j.start.writes + p.writes) (j.len p.done) = j.len p.done) :
    ∃ w', (writeSector j.env (UInt32.ofNat (j.len p.done))).run w = .ok true w' ∧ w'.frame = w.frame ∧
      j.Core (j.writeStep (j.len p.done) p) w' := by
  obtain ⟨w₁, hrun, hframe, hc₁⟩ := hc.fwrite hcur
  rw [hall] at hrun hc₁
  refine ⟨w₁, ?_, hframe, hc₁⟩
  rw [run_writeSector (fp_eq hf hcur) hrun, if_neg (not_not.2 rfl)]
  rfl

/-- `writeSector` gives up if not everything is accepted. -/
theorem writeSector_short {c : Bytes} (hc : j.Core p w) (hf : j.Counters n p.log w.frame) (hcur : p.log.cur = some c)
    (hshort : accepted j.env (j.start.writes + p.writes) (j.len p.done) ≠ j.len p.done) :
    ∃ w', (writeSector j.env (UInt32.ofNat (j.len p.done))).run w = .ok false w' ∧ w'.frame = w.frame ∧
      j.Core (j.cutShort (accepted j.env (j.start.writes + p.writes) (j.len p.done)) p) w' := by
  obtain ⟨w₁, hrun, hframe, hc₁⟩ := hc.fwrite hcur
  generalize accepted j.env (j.start.writes + p.writes) (j.len p.done) = m at *
  obtain ⟨w₃, hclose, hframe', hc₃⟩ := (hc₁.log (.print "Error writing file. Bytes written: %d. Bytes expected: %d."
    [.int m, .u32 (UInt32.ofNat (j.len p.done))])).fclose (c := c ++ bytesAt p.mem m) (by
      show (p.log.append (bytesAt p.mem m)).cur = _
      rw [Log.append, hcur]
      rfl)
  replace hclose : (TakeADump.fclose j.env (some (j.base + p.log.full.length))).run _ = .ok () w₃ := hclose
  refine ⟨w₃.log .free, ?_, hframe'.trans hframe, hc₃.log .free⟩
  rw [run_writeSector (fp_eq hf hcur) hrun, if_pos hshort]
  unfold Logger.print free
  rw [Imp.run_bind_ok (run_emit _ _), Imp.run_bind_ok hclose, Imp.run_bind_ok (run_emit _ _)]
  rfl

/-! ## Advancing -/

/-- The counters after a sector of `readSize` bytes. -/
def advanced (readSize : UInt32) (f : Frame) : Frame :=
  { f with
    lba := f.lba + (readSize >>> 11).toUInt64
    offset := f.offset + readSize.toUInt64
    chunkOffset := f.chunkOffset + readSize.toUInt64
    remaining := f.remaining - readSize.toUInt64 }

theorem Counters.advanced {l : Log UInt8} (hf : j.Counters n l f) (hn : n < j.sectors)
    (hready : Rollover.Ready chunkSize sectorSize l) {x : Bytes} (hx : x.length = j.len n) :
    j.Counters (n + 1) (l.append x) (advanced (UInt32.ofNat (j.len n)) f) := by
  obtain ⟨c, hcur, _, hroom⟩ := hready.cur
  have hlt := j.lt_sectors.1 hn
  have hsize := j.size.toNat_lt
  have hlen := j.toNat_len n
  have hle := j.len_le n
  have hsec := sectorSize_eq
  have hchunk : chunkSize = 2147483648 := rfl
  have hlenDef : j.len n = min sectorSize (j.size.toNat - sectorSize * n) := rfl
  have hoff := hf.offset
  have hrem := hf.remaining
  have hlba := hf.lba hlt
  have hco := hf.chunkOffset c hcur
  rw [hsec] at hlt hle hlenDef hoff hrem hroom
  exact {
    offset := by
      show (f.offset + _).toNat = _
      rw [UInt64.toNat_add, UInt32.toNat_toUInt64, hlen, hoff, Nat.mod_eq_of_lt (by omega), hsec]
      omega
    remaining := by
      show (f.remaining - _).toNat = _
      rw [UInt64.toNat_sub_of_le _ _ (by rw [UInt64.le_iff_toNat_le, UInt32.toNat_toUInt64]; omega),
        UInt32.toNat_toUInt64, hlen, hrem, hsec]
      omega
    lba := by
      intro hmore
      show (f.lba + _).toNat = _
      rw [hsec] at hmore
      rw [UInt64.toNat_add, UInt32.toNat_toUInt64, UInt32.toNat_shiftRight, hlen, hlba,
        show j.len n = 2048 by omega]
      show (n + 2048 >>> 11) % 2 ^ 64 = n + 1
      rw [show 2048 >>> 11 = 1 from rfl, Nat.mod_eq_of_lt (by omega)]
    fp := by
      rw [show (Job.advanced (UInt32.ofNat (j.len n)) f).fp = f.fp from rfl, hf.fp, hcur]
      simp [Log.append, hcur]
    chunkOffset := by
      intro d hd
      simp only [Log.append, hcur, Option.map_some, Option.some.injEq] at hd
      subst hd
      show (f.chunkOffset + _).toNat = _
      rw [UInt64.toNat_add, UInt32.toNat_toUInt64, hlen, hco, List.length_append, hx, Nat.mod_eq_of_lt (by omega)]
    chunkIndex := by
      rw [Rollover.Log.parts_append hcur]
      show f.chunkIndex = _
      rw [hf.chunkIndex]
      simp [Log.parts, hcur] }

/-- HOME is held in the `n`-th sample. -/
def home (j : Job) (n : Nat) : Bool := j.env.pad (j.start.samples + n) &&& wpadButtonHome ≠ 0

theorem home_iff {n : Nat} : j.home n = true ↔ j.env.pad (j.start.samples + n) &&& wpadButtonHome ≠ 0 := by
  rw [home, decide_eq_true_iff]

/-- The world after the counters, the progress line and the sample. -/
def progressed (j : Job) (readSize : UInt32) (w : World) : World :=
  { w.logs [.print "Dumped %.2f MB / %.2f MB (%d%%) (%d errors)"
      [.megabytes (advanced readSize w.frame).offset, .megabytes j.size,
        .percent (advanced readSize w.frame).offset j.size, .int w.errorCount], .sample (j.env.pad w.samples)] with
    frame := advanced readSize w.frame
    samples := w.samples + 1 }

theorem run_advance (readSize : UInt32) (w : World) : (TakeADump.advance j.env j.size readSize).run w =
    (if j.env.pad w.samples &&& wpadButtonHome ≠ 0 then Global.reset 0 else pure () : Prog Unit).run
      (j.progressed readSize w) := by
  unfold TakeADump.advance Logger.print progressed
  rw [Imp.run_bind_ok (run_setFrame _ w), Imp.run_bind_ok (run_get _), Imp.run_bind_ok (run_emit _ _),
    Imp.run_bind_ok (run_getControllerButtonsPressed j.env _)]
  simp only [World.log, World.logs, List.append_assoc, List.cons_append, List.nil_append, List.map_cons, List.map_nil]
  rfl

theorem Core.progressed (hc : j.Core p w) {readSize : UInt32} {l : Log UInt8}
    (hf : j.Counters (p.done + 1) l (advanced readSize w.frame)) :
    j.Core (j.advance p) (j.progressed readSize w) := by
  have hoff : (advanced readSize w.frame).offset =
      UInt64.ofNat (min (sectorSize * (p.done + 1)) j.size.toNat) := by
    rw [← hf.offset, UInt64.ofNat_toNat]
  exact { hc with
    trace := by
      show w.trace ++ _ = j.start.trace ++ (p.trace ++ _)
      rw [hc.trace, List.append_assoc, hoff, hc.errorCount, hc.samples]
      rfl
    samples := by
      show w.samples + 1 = j.start.samples + (p.samples + 1)
      rw [hc.samples, Nat.add_assoc] }

/-- `advance` follows the copy unless HOME is held. -/
theorem advance_ok (hc : j.Core p w)
    (hf : j.Counters (p.done + 1) p.log (advanced (UInt32.ofNat (j.len p.done)) w.frame))
    (hhome : j.home p.samples = false) :
    ∃ w', (TakeADump.advance j.env j.size (UInt32.ofNat (j.len p.done))).run w = .ok () w' ∧
      j.Core (j.advance p) w' ∧ j.Counters (p.done + 1) (j.advance p).log w'.frame := by
  refine ⟨_, ?_, hc.progressed hf, hf⟩
  rw [run_advance, hc.samples, if_neg fun h => by rw [home_iff.2 h] at hhome; cases hhome]
  rfl

/-- `advance` leaves the program if HOME is held. -/
theorem advance_home (hc : j.Core p w)
    (hf : j.Counters (p.done + 1) p.log (advanced (UInt32.ofNat (j.len p.done)) w.frame))
    (hhome : j.home p.samples = true) :
    ∃ w', (TakeADump.advance j.env j.size (UInt32.ofNat (j.len p.done))).run w = .error (.exit 0) w' ∧
      j.Core (j.left p) w' ∧ j.Counters (p.done + 1) p.log w'.frame := by
  have hc' := ((hc.progressed hf).log (.print "Exiting with code %02d..." [.int 0])).log (.exit 0)
  rw [Point.note_note] at hc'
  refine ⟨_, ?_, hc', hf⟩
  rw [run_advance, hc.samples, if_pos (home_iff.1 hhome), run_reset]

end Job

end TakeADump
