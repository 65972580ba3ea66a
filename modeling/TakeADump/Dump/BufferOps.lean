import Mathlib.Order.Interval.Set.Defs
import TakeADump.Lib.Cache
import TakeADump.Dump.Trace

/-!
# What a dump does to its buffer

`bufferOps` reads the trace as the operations on the sector buffer that the data cache sees: a command is started,
`DCInvalidateRange` is called, the command ends, `memset` stores, `fwrite` loads. For a dump that tolerates errors they
are those of the sectors it writes, one after the other (`Ended.bufferOps`).
-/

namespace TakeADump

open Cache (Op Transfer)

/-- The 32-byte cache line of a byte of the buffer, which is aligned. -/
def cacheLine (i : Nat) : Nat := i / 32

/-- The transfer of a read command: at most the bytes of the range and of the transfer length. -/
def transferOf (disc : Nat → UInt8) (r : Request) (ok : Bool) : Transfer Nat UInt8 where
  ok := ok
  dest := Set.Iio r.count.toNat
  data := fun i => if i < min r.range.length r.count.toNat then some (disc (r.range.start + i)) else none

/-- How the command just started ends. -/
def outcome : List Event → Bool
  | [] => false
  | .finished ok :: _ => ok
  | _ :: evs => outcome evs

/-- The operation on the buffer an event records, with the events after it. -/
def Event.bufferOp (disc : Nat → UInt8) (evs : List Event) : Event → Option (Op Nat UInt8)
  | .request r => some (.start (transferOf disc r (outcome evs)))
  | .dcInvalidate _ n => some (.invalidate (Set.Iio n))
  | .finished _ => some .wait
  | .memset n => some (.store (Set.Iio n) fun _ => 0)
  | .fwrite _ asked _ => some (.load (Set.Iio asked))
  | _ => none

def bufferOps (disc : Nat → UInt8) : List Event → List (Op Nat UInt8)
  | [] => []
  | ev :: evs => (ev.bufferOp disc evs).toList ++ bufferOps disc evs

/-- Events that are no operation on the buffer. -/
def Event.silent : Event → Bool
  | .request _ | .dcInvalidate _ _ | .finished _ | .memset _ | .fwrite _ _ _ => false
  | _ => true

theorem bufferOp_of_silent {disc : Nat → UInt8} {evs : List Event} {ev : Event} (h : ev.silent = true) :
    ev.bufferOp disc evs = none := by
  cases ev <;> first | rfl | exact absurd h (by simp [Event.silent])

theorem bufferOps_silent {disc : Nat → UInt8} {evs : List Event} (rest : List Event)
    (h : ∀ ev ∈ evs, ev.silent = true) : bufferOps disc (evs ++ rest) = bufferOps disc rest := by
  induction evs with
  | nil => rfl
  | cons ev evs ih =>
    rw [List.cons_append, bufferOps, bufferOp_of_silent (h ev (List.mem_cons_self ..)),
      ih fun x hx => h x (List.mem_cons_of_mem _ hx)]
    rfl

namespace Job

variable (j : Job)

/-- The transfer of try `t` of sector `s`. -/
def transfer (s t : Nat) : Transfer Nat UInt8 := transferOf j.env.disc (j.request s) (j.attempt s t).isOk

/-- The bytes of the buffer that hold sector `s`. -/
def place (s : Nat) : Set Nat := Set.Iio (j.len s)

def tryOps (s t : Nat) : List (Op Nat UInt8) := [.start (j.transfer s t), .invalidate (j.place s), .wait]

def settleOps (s : Nat) : List (Op Nat UInt8) := if j.readable s then [] else [.store (j.place s) fun _ => 0]

/-- What a round does to the buffer. -/
def roundOps (s : Nat) : List (Op Nat UInt8) :=
  (List.range (j.tries s)).flatMap (j.tryOps s) ++ (j.settleOps s ++ [.load (j.place s)])

/-! ## Rounds -/

theorem bufferOps_tries (s : Nat) (rest : List Event) (ts : List Nat) :
    bufferOps j.env.disc ((ts.flatMap fun t =>
      [.request (j.request s), .dcInvalidate .buffer (j.len s), .finished (j.attempt s t).isOk]) ++ rest) =
      ts.flatMap (j.tryOps s) ++ bufferOps j.env.disc rest := by
  induction ts with
  | nil => rfl
  | cons t ts ih =>
    simp only [List.flatMap_cons, List.append_assoc, List.cons_append, List.nil_append]
    rw [bufferOps, bufferOps, bufferOps, ih]
    rfl

theorem bufferOps_settle (s : Nat) (rest : List Event) :
    bufferOps j.env.disc (j.settleEvents s ++ rest) = j.settleOps s ++ bufferOps j.env.disc rest := by
  unfold settleEvents settleOps
  split
  · rfl
  · rfl

theorem silent_closeEvents (l : Rollover.Log UInt8) : ∀ ev ∈ j.closeEvents l, ev.silent = true := by
  intro ev hev
  obtain ⟨fp, rfl⟩ := j.mem_closeEvents hev
  rfl

theorem silent_rollEvents (l : Rollover.Log UInt8) : ∀ ev ∈ j.rollEvents l, ev.silent = true := by
  intro ev hev
  rcases j.mem_rollEvents hev with ⟨fp, rfl⟩ | ⟨name, rfl⟩ <;> rfl

/-- A round up to `fwrite`, whatever is accepted. -/
theorem bufferOps_round (s n : Nat) (fp : Option Nat) (rest : List Event) :
    bufferOps j.env.disc (.moveUp :: (j.rollEvents (j.point s).log ++ j.readEvents s ++ j.settleEvents s) ++
      .fwrite fp (j.len s) n :: rest) = j.roundOps s ++ bufferOps j.env.disc rest := by
  simp only [List.append_assoc, List.cons_append]
  rw [← List.singleton_append, bufferOps_silent _ (by simp [Event.silent]),
    bufferOps_silent _ (j.silent_rollEvents _), readEvents, bufferOps_tries, bufferOps_settle]
  simp only [roundOps, List.append_assoc]
  rfl

/-- What the rounds up to `m` do to the buffer. -/
def bodyOps (m : Nat) : List (Op Nat UInt8) := (List.range m).flatMap j.roundOps

theorem bodyOps_succ (m : Nat) : j.bodyOps (m + 1) = j.bodyOps m ++ j.roundOps m := by
  simp [bodyOps, List.range_succ]

theorem bufferOps_point (m : Nat) (rest : List Event) :
    bufferOps j.env.disc ((j.point m).trace ++ rest) = j.bodyOps m ++ bufferOps j.env.disc rest := by
  induction m generalizing rest with
  | zero => rfl
  | succ m ih =>
    rw [point_succ_trace, List.append_assoc, ih, bodyOps_succ, List.append_assoc, roundEvents]
    have hround := j.bufferOps_round m (j.len m) (some (j.base + ((j.point m).log.roll chunkSize).full.length))
      (j.progress { j.writeStep (j.len m) (j.readyToWrite (j.point m)) with done := m + 1 } ::
        .sample (j.env.pad (j.start.samples + m)) :: rest)
    simp only [List.append_assoc, List.cons_append, List.nil_append] at hround ⊢
    rw [hround]
    rfl

/-- A sector up to its `fwrite`, whatever is accepted. -/
theorem bufferOps_written (k n : Nat) (rest : List Event) :
    bufferOps j.env.disc ((j.writeStep n (j.readyToWrite (j.point k))).trace ++ rest) =
      j.bodyOps (k + 1) ++ bufferOps j.env.disc rest := by
  have hround := j.bufferOps_round k n
    (some (j.base + (j.readyToWrite (j.point k)).log.full.length)) rest
  rw [writeStep, trace_readyToWrite, done_readyToWrite, point_done, bodyOps_succ]
  simp only [List.append_assoc, List.cons_append, List.nil_append] at hround ⊢
  rw [bufferOps_point, hround]

/-! ## Runs -/

/-- `fwrite` is called for sector `s`. -/
def Writes (s : Nat) : Prop := s < j.sectors ∧ (∀ r < s, j.halt r = none) ∧ j.halt s ≠ some .refused

variable {j} {e : Env} {w : World} {size : UInt64}

/-- A dump that stops at sector `k` writes the sectors before, and `k` too unless its part was refused. -/
theorem writes_iff {k : Nat} {why : Halt} (hk : k < j.sectors) (hpre : ∀ s < k, j.halt s = none)
    (hhalt : j.halt k = some why) (s : Nat) : j.Writes s ↔ s < k ∨ s = k ∧ why ≠ .refused := by
  constructor
  · rintro ⟨-, hbefore, hhere⟩
    rcases Nat.lt_trichotomy s k with hs | rfl | hs
    · exact Or.inl hs
    · exact Or.inr ⟨rfl, fun h => hhere (h ▸ hhalt)⟩
    · rw [hbefore k hs] at hhalt
      cases hhalt
  · rintro (hs | ⟨rfl, hwhy⟩)
    · exact ⟨Nat.lt_trans hs hk, fun r hr => hpre r (Nat.lt_trans hr hs), by simp [hpre s hs]⟩
    · exact ⟨hk, hpre, by simp [hhalt, hwhy]⟩

/-- The operations of a copy whose trace ends in silent events. -/
theorem bufferOps_core {p : Point} {w' : World} (hc : (enter e w size).Core p w') {body tail : List Event}
    {ops : List (Op Nat UInt8)} (hp : p.trace = body ++ tail) (htail : ∀ ev ∈ tail, ev.silent = true)
    (hbody : ∀ rest, bufferOps e.disc (body ++ rest) = ops ++ bufferOps e.disc rest) :
    bufferOps e.disc (w'.trace.drop w.trace.length) = ops := by
  rw [hc.trace_enter, bufferOps_silent _ (by simp [Event.silent]), hp, hbody, ← List.append_nil tail,
    bufferOps_silent _ htail]
  exact List.append_nil ops

/-- **What a dump that tolerates errors does to its buffer** is what its sectors do, one after the other. -/
theorem Ended.ops {r : EStateM.Result Stop World Int} (h : (enter e w size).Ended r)
    (hcancel : w.cancelOnError = false) : ∃ m,
      bufferOps e.disc ((finalWorld r).trace.drop w.trace.length) = (enter e w size).bodyOps m ∧
        ∀ s, s < m ↔ (enter e w size).Writes s := by
  have hclose := (enter e w size).silent_closeEvents
  have hpoint := bufferOps_point (enter e w size)
  have hwritten := bufferOps_written (enter e w size)
  cases h with
  | finished hall hc _ =>
    refine ⟨_, bufferOps_core hc (trace_finished _ _) ?_ (hpoint _), fun s => ?_⟩
    · exact List.forall_mem_append.2 ⟨hclose _, by simp [Event.silent]⟩
    · exact ⟨fun hs => ⟨hs, fun r hr => hall r (Nat.lt_trans hr hs), by simp [hall s hs]⟩, fun h => h.1⟩
  | @refused k w' hk hpre hhalt hc _ =>
    refine ⟨k, bufferOps_core hc (trace_atRefused _ k) ?_ (hpoint k),
      fun s => by rw [writes_iff hk hpre hhalt s]; simp⟩
    exact List.forall_mem_cons.2 ⟨rfl, List.forall_mem_append.2 ⟨hclose _, by simp [refusedEvents, Event.silent]⟩⟩
  | unreadable _ _ hhalt =>
    exact absurd (halt_inv _ hhalt).2 (by simp [show (enter e w size).start.cancelOnError = false from hcancel])
  | @short k w' hk hpre hhalt hc _ =>
    refine ⟨k + 1, bufferOps_core hc (trace_cutShort _ _ _) ?_ (hwritten k _),
      fun s => by rw [writes_iff hk hpre hhalt s, Nat.lt_succ_iff_lt_or_eq]; simp⟩
    exact List.forall_mem_cons.2 ⟨rfl, List.forall_mem_append.2 ⟨hclose _, by simp [Event.silent]⟩⟩
  | @home k w' hk hpre hhalt hc _ =>
    refine ⟨k + 1, bufferOps_core hc (trace_left _ _) ?_ (hwritten k _),
      fun s => by rw [writes_iff hk hpre hhalt s, Nat.lt_succ_iff_lt_or_eq]; simp⟩
    exact List.forall_mem_cons.2 ⟨rfl, by simp [Event.silent]⟩

end Job

end TakeADump
