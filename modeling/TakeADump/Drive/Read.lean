import TakeADump.Lib.Retry
import TakeADump.Model.Drive

/-!
# One read and three tries

`DVD_LowRead64` either rejects an offset from `2^34` on and changes nothing, or runs one command and returns whether
the drive raised its error flag on it: the flag of an earlier command is cleared by the store to `dvd[0]`
(`run_dvdLowRead64`). `run_tries` says what the retry loop returns and leaves behind.
-/

namespace TakeADump

/-! ## The error flag -/

/-- The device-error flag of a status. -/
def errorFlag (status : UInt32) : Bool := status &&& 0x4 ≠ 0

theorem errorFlag_eq (status : UInt32) : errorFlag status = status.toBitVec[2] := by
  have hbit : status &&& 0x4 = 0 ↔ status.toBitVec[2] = false := by
    rw [← UInt32.toBitVec_inj, UInt32.toBitVec_and, show (0x4 : UInt32).toBitVec = BitVec.twoPow 32 2 from rfl,
      BitVec.and_twoPow, BitVec.getLsbD_eq_getElem (by omega)]
    cases status.toBitVec[2] <;> decide
  rw [errorFlag, Bool.eq_iff_iff, decide_eq_true_iff, Ne, hbit, Bool.not_eq_false]

/-- A store clears the flag iff it is written as one. -/
theorem errorFlag_statusAfterWrite (old v : UInt32) :
    errorFlag (statusAfterWrite old v) = (errorFlag old && !errorFlag v) := by
  simp only [errorFlag_eq, statusAfterWrite, UInt32.toBitVec_or, UInt32.toBitVec_and, UInt32.toBitVec_not,
    BitVec.getElem_or, BitVec.getElem_and, BitVec.getElem_not]
  simp

/-- The store `dvd[0] = 0x2E` clears the flag. -/
theorem status_cleared (old : UInt32) : statusAfterWrite old 0x2E &&& 0x4 = 0 := by
  have h := errorFlag_statusAfterWrite old 0x2E
  rw [show errorFlag 0x2E = true from rfl, Bool.not_true, Bool.and_false] at h
  simpa [errorFlag] using h

/-- A raised flag is seen. -/
theorem status_raised (v : UInt32) : (v ||| 0x4) &&& 0x4 ≠ 0 := by
  have h : errorFlag (v ||| 0x4) = true := by simp [errorFlag_eq]
  exact of_decide_eq_true h

/-! ## One command -/

section Once

variable (e : Env) (dst : Region) (len : UInt32) (offset : UInt64)

/-- The guard of `DVD_LowRead64` lets the offset through. -/
def accepts : Prop := ¬ offset >>> 2 > 0xFFFFFFFF

instance : Decidable (accepts offset) := inferInstanceAs (Decidable (¬ _))

theorem accepts_iff : accepts offset ↔ offset.toNat < 2 ^ 34 := by
  unfold accepts
  rw [gt_iff_lt, UInt64.lt_iff_toNat_lt]
  simp only [UInt64.toNat_shiftRight, UInt64.reduceToNat, Nat.reduceMod, Nat.shiftRight_eq_div_pow]
  omega

/-- The command `DVD_LowRead64` puts in the registers. -/
def readRequest (readCmd : UInt32) : Request :=
  ⟨readCmd, if readCmd = dvdDvdr then (offset >>> 11).toUInt32 else (offset >>> 2).toUInt32,
    if readCmd = dvdDvdr then len >>> 11 else len, e.addr dst &&& 0x1FFFFFFF, len⟩

/-- The registers when the command is started. -/
def readRegs (w : World) : Nat → UInt32 :=
  let r := readRequest e dst len offset w.readCmd
  Function.update (Function.update (Function.update (Function.update (Function.update (Function.update
    (Function.update w.dvd 0 (statusAfterWrite (w.dvd 0) 0x2E)) 1 0) 2 r.cmd) 3 r.addr) 4 r.len) 5 r.dma) 6 r.count

/-- How the command ends. -/
def readAttempt (w : World) : Attempt :=
  let r := readRequest e dst len offset w.readCmd
  e.attempt r.range (w.tried r.range)

/-- The world after one call that was not rejected. -/
def readAccepted (w : World) : World :=
  let r := readRequest e dst len offset w.readCmd
  let a := readAttempt e dst len offset w
  let regs := readRegs e dst len offset w
  { w.logs [.request r, .dcInvalidate dst len.toNat, .finished a.isOk] with
    mem := Function.update w.mem dst (a.fill e.disc r (w.mem dst))
    tried := Function.update w.tried r.range (w.tried r.range + 1)
    dvd := if a.isOk then regs else Function.update regs 0 (regs 0 ||| 0x4) }

/-- The world after one call. -/
def readOnce (w : World) : World := if accepts offset then readAccepted e dst len offset w else w

/-- What one call returns. -/
def readResult (w : World) : Int :=
  if accepts offset then if (readAttempt e dst len offset w).isOk then 0 else 1 else -1

variable {e dst len offset}

theorem pending_readRegs (w : World) :
    ({ w with dvd := readRegs e dst len offset w } : World).pending = readRequest e dst len offset w.readCmd := by
  simp [World.pending, readRegs, readRequest]

variable (e dst len offset)

theorem run_startAndWait (w : World) : (startAndWait e dst len).run w = .ok () ((w.afterRead e dst).logs
    [.request w.pending, .dcInvalidate dst len.toNat, .finished (w.answer e).isOk]) := by
  simp only [startAndWait, startCommand, emit, World.log, World.logs, EStateM.run_bind, EStateM.run_get,
    EStateM.run_modify]
  simp only [World.afterRead, World.answer, World.pending, List.append_assoc, List.cons_append, List.nil_append,
    List.map_cons, List.map_nil]
  rfl

/-- **One call of `DVD_LowRead64`.** -/
theorem run_dvdLowRead64 (w : World) :
    (dvdLowRead64 e dst len offset).run w = .ok (readResult e dst len offset w) (readOnce e dst len offset w) := by
  by_cases h : accepts offset
  · have hstores : (dvdLowRead64 e dst len offset).run w = (do
        startAndWait e dst len
        if (← get).dvd 0 &&& 0x4 ≠ 0 then pure 1 else pure 0 : Prog Int).run
          { w with dvd := readRegs e dst len offset w } := by
      unfold dvdLowRead64
      rw [if_neg h]
      rfl
    have hstart := run_startAndWait e dst len { w with dvd := readRegs e dst len offset w }
    simp only [World.afterRead, World.answer, pending_readRegs] at hstart
    have hclear : readRegs e dst len offset w 0 &&& 0x4 = 0 := by simp [readRegs, status_cleared]
    rw [hstores, Imp.run_bind_ok hstart]
    simp only [readResult, readOnce, if_pos h, readAccepted]
    cases ha : (readAttempt e dst len offset w).isOk with
    | true =>
      rw [readAttempt] at ha
      simp [readAttempt, ha, hclear, World.logs]
    | false =>
      rw [readAttempt] at ha
      simp [readAttempt, ha, status_raised, World.logs]
  · unfold dvdLowRead64
    rw [if_pos (Decidable.not_not.1 h)]
    simp only [readResult, readOnce, if_neg h]
    rfl

end Once

/-! ## Several tries -/

section Tries

variable (e : Env) (dst : Region) (len : UInt32) (offset : UInt64) (w : World)

/-- How try `t` from `w` on ends. -/
def tryAttempt (t : Nat) : Attempt :=
  let r := readRequest e dst len offset w.readCmd
  e.attempt r.range (w.tried r.range + t)

/-- The destination after `n` tries. -/
def triedMem : Nat → Nat → UInt8
  | 0 => w.mem dst
  | n + 1 => (tryAttempt e dst len offset w n).fill e.disc (readRequest e dst len offset w.readCmd) (triedMem n)

/-- What `n` tries leave in the trace. -/
def tryEvents (n : Nat) : List Event :=
  (List.range n).flatMap fun t =>
    [.request (readRequest e dst len offset w.readCmd), .dcInvalidate dst len.toNat,
      .finished (tryAttempt e dst len offset w t).isOk]

/-- The world after `n` tries, with `regs` in the registers. -/
def afterTries (regs : Nat → UInt32) (n : Nat) : World :=
  let r := readRequest e dst len offset w.readCmd
  { w.logs (tryEvents e dst len offset w n) with
    dvd := regs
    mem := Function.update w.mem dst (triedMem e dst len offset w n)
    tried := Function.update w.tried r.range (w.tried r.range + n) }

variable {e dst len offset w}

theorem readAttempt_afterTries (regs : Nat → UInt32) (n : Nat) :
    readAttempt e dst len offset (afterTries e dst len offset w regs n) = tryAttempt e dst len offset w n := by
  simp [readAttempt, tryAttempt, afterTries, World.logs]

theorem tryEvents_succ (n : Nat) : tryEvents e dst len offset w (n + 1) = tryEvents e dst len offset w n ++
    [.request (readRequest e dst len offset w.readCmd), .dcInvalidate dst len.toNat,
      .finished (tryAttempt e dst len offset w n).isOk] := by
  simp [tryEvents, List.range_succ]

/-- One more try. -/
theorem readAccepted_afterTries (regs : Nat → UInt32) (n : Nat) :
    ∃ regs', readAccepted e dst len offset (afterTries e dst len offset w regs n) =
      afterTries e dst len offset w regs' (n + 1) := by
  refine ⟨(readAccepted e dst len offset (afterTries e dst len offset w regs n)).dvd, ?_⟩
  simp only [readAccepted, readAttempt_afterTries]
  simp [afterTries, triedMem, tryEvents_succ, Nat.add_assoc, World.logs]

variable (e dst len offset w)

theorem iterate_readOnce (h : accepts offset) (n : Nat) :
    ∃ regs, (readOnce e dst len offset)^[n] w = afterTries e dst len offset w regs n := by
  induction n with
  | zero => exact ⟨w.dvd, by simp [afterTries, triedMem, tryEvents]⟩
  | succ n ih =>
    obtain ⟨regs, hn⟩ := ih
    rw [Function.iterate_succ_apply', hn, readOnce, if_pos h]
    exact readAccepted_afterTries regs n

theorem readResult_iterate (h : accepts offset) (n : Nat) :
    readResult e dst len offset ((readOnce e dst len offset)^[n] w) =
      if (tryAttempt e dst len offset w n).isOk then 0 else 1 := by
  obtain ⟨regs, hn⟩ := iterate_readOnce e dst len offset w h n
  rw [hn, readResult, if_pos h, readAttempt_afterTries]

theorem succeeds_readOnce (h : accepts offset) :
    Imp.succeeds (readResult e dst len offset) (readOnce e dst len offset) w =
      fun t => (tryAttempt e dst len offset w t).isOk := by
  funext t
  rw [Imp.succeeds, readResult_iterate e dst len offset w h]
  cases (tryAttempt e dst len offset w t).isOk <;> rfl

/-- **The retry loop on an accepted offset**: tries up to the first success, at most three. -/
theorem run_tries (h : accepts offset) :
    ∃ regs, (Imp.retry .spin 3 (dvdLowRead64 e dst len offset)).run w =
      .ok (if Imp.hit (fun t => (tryAttempt e dst len offset w t).isOk) 3 then 0 else 1)
        (afterTries e dst len offset w regs (Imp.tries (fun t => (tryAttempt e dst len offset w t).isOk) 3)) := by
  have hrun := Imp.run_retry Stop.spin (run_dvdLowRead64 e dst len offset) 2 w
  rw [succeeds_readOnce e dst len offset w h] at hrun
  obtain ⟨regs, hn⟩ := iterate_readOnce e dst len offset w h
    (Imp.tries (fun t => (tryAttempt e dst len offset w t).isOk) 3)
  refine ⟨regs, ?_⟩
  rw [hrun, readResult_iterate e dst len offset w h, hn, ← Imp.last_tries]

/-- The retry loop on a rejected offset does nothing. -/
theorem run_tries_rejected (h : ¬ accepts offset) :
    (Imp.retry .spin 3 (dvdLowRead64 e dst len offset)).run w = .ok (-1) w := by
  have hid : ∀ n, (readOnce e dst len offset)^[n] w = w := by
    intro n
    induction n with
    | zero => rfl
    | succ n ih => rw [Function.iterate_succ_apply', ih, readOnce, if_neg h]
  have hrun := Imp.run_retry Stop.spin (run_dvdLowRead64 e dst len offset) 2 w
  rw [hrun, hid, hid, readResult, if_neg h]

end Tries

end TakeADump
