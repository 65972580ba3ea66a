import TakeADump.Drive.Address
import TakeADump.Dump.Trace

/-!
# Where the reads of a dump go

`ReadsAt` is the moment in round `k` when the part is open and the sector is about to be read; every command in the
trace of a dump was issued at such a moment (`ReadsAt.of_request`). In a dump of whole sectors within the guard, every
read issued there commands the bytes that `offset` and `read_size` name, although the address comes from `lba`, which is
counted separately (`Reading.of_readsAt`, `read_addressing`).
-/

namespace TakeADump

variable (e : Env) (fuel : Nat) (w : World) (size : UInt64)

/-- The reads of round `k` of the loop of `dump` are issued from `w₁`. -/
structure ReadsAt (k : Nat) (w₁ : World) : Prop where
  alloc : e.memalign = true
  reached : ∃ v, Imp.Rounds (dumpRound e fuel (some .localId) size) () (Job.enter e w size).start k () v ∧
    0 < v.frame.remaining.toNat ∧ (rollover e (some .localId)).run (v.log .moveUp) = .ok true w₁

namespace Job

variable {e fuel w size} {k : Nat} {v : World}

/-- The rounds of a dump are those of the copy. -/
theorem at_of_rounds {j : Job} {start : World} (hstart : j.At 0 start)
    {u : Unit} (h : Imp.Rounds (dumpRound j.env fuel (some .localId) j.size) () start k u v) : j.At k v := by
  induction h with
  | zero => exact hstart
  | @succ n _ _ s' _ _ round ih =>
    rcases Nat.lt_or_eq_of_le ih.le with hk | rfl
    · exact (ends_round fuel ih hk).ok round
    · exact ((ends_last fuel ih).ok round).elim

/-- The counters when the sector is read. -/
theorem counters_rolled {j : Job} {w₁ : World} (h : j.At k v)
    (hroll : (rollover j.env (some .localId)).run (v.log .moveUp) = .ok true w₁) :
    j.Counters k ((j.point k).log.roll chunkSize) w₁.frame := by
  have hc : j.Core ((j.point k).note [.moveUp]) (v.log .moveUp) := h.core.log .moveUp
  have hf : j.Counters k ((j.point k).note [.moveUp]).log (v.log .moveUp).frame := h.counters
  by_cases hopen : j.rolls k = true → j.opens k = true
  · obtain ⟨w', hrun, -, hf'⟩ := rollover_ok hc hf hopen
    rw [hroll] at hrun
    cases hrun
    exact hf'
  · simp only [Classical.not_imp, Bool.not_eq_true] at hopen
    obtain ⟨w', hrun, -⟩ := rollover_fail hc hf hopen.1 hopen.2
    rw [hroll] at hrun
    cases hrun

/-! ## The commands of a dump -/

/-- The events hold no command. -/
def Idle (evs : List Event) : Prop := ∀ q, .request q ∉ evs

section Commands

variable {j : Job} {evs : List Event} {q : Request}

theorem idle_append {a b : List Event} (ha : Idle a) (hb : Idle b) : Idle (a ++ b) :=
  fun q hq => (List.mem_append.1 hq).elim (ha q) (hb q)

theorem idle_cons {ev : Event} (hev : ∀ q, .request q ≠ ev) (h : Idle evs) : Idle (ev :: evs) :=
  fun q hq => (List.mem_cons.1 hq).elim (hev q) (h q)

theorem idle_close (l : Rollover.Log UInt8) : Idle (j.closeEvents l) := by
  intro q hq
  obtain ⟨fp, hfp⟩ := j.mem_closeEvents hq
  cases hfp

theorem idle_roll (l : Rollover.Log UInt8) : Idle (j.rollEvents l) := by
  intro q hq
  rcases j.mem_rollEvents hq with ⟨fp, hfp⟩ | ⟨name, hname⟩
  · cases hfp
  · cases hname

theorem request_of_read {s : Nat} (hq : .request q ∈ j.readEvents s) : q = j.request s := by
  rcases j.mem_readEvents hq with h | h | ⟨ok, h⟩
  · exact Event.request.inj h
  · cases h
  · cases h

/-- What is left of a trace whose last events hold no command. -/
theorem mem_of_idle {a b : List Event} (hb : Idle b) (hq : .request q ∈ a ++ b) : .request q ∈ a :=
  (List.mem_append.1 hq).resolve_right (hb q)

/-- A sector is read up to the moment it is to be written. -/
theorem request_of_settled {k : Nat} (hq : .request q ∈ (j.readyToWrite (j.point k)).trace) :
    .request q ∈ (j.point k).trace ∨ q = j.request k := by
  rw [trace_readyToWrite] at hq
  rcases List.mem_append.1 hq with hq | hq
  · exact Or.inl hq
  · simp only [List.mem_cons, reduceCtorEq, false_or] at hq
    have hsettle : Idle (j.settleEvents k) := by
      unfold settleEvents
      split <;> simp [Idle, errorReport]
    rcases List.mem_append.1 (mem_of_idle hsettle hq) with hq | hq
    · exact (idle_roll _ q hq).elim
    · exact Or.inr (request_of_read hq)

theorem request_of_written {k m : Nat} (hq : .request q ∈ (j.writeStep m (j.readyToWrite (j.point k))).trace) :
    .request q ∈ (j.point k).trace ∨ q = j.request k := request_of_settled (mem_of_idle (by simp [Idle]) hq)

/-- The commands of the first `k` sectors. -/
theorem request_of_point {k : Nat} (hq : .request q ∈ (j.point k).trace) : ∃ s < k, q = j.request s := by
  induction k with
  | zero => cases hq
  | succ k ih =>
    rw [point_succ] at hq
    have hadvance : Idle [j.progress { j.atWritten k with done := (j.atWritten k).done + 1 },
        .sample (j.env.pad (j.start.samples + (j.atWritten k).samples))] := by simp [Idle, progress]
    rcases request_of_written (mem_of_idle hadvance hq) with hq | rfl
    · obtain ⟨s, hs, rfl⟩ := ih hq
      exact ⟨s, Nat.lt_succ_of_lt hs, rfl⟩
    · exact ⟨k, Nat.lt_succ_self k, rfl⟩

/-- The sector a dump comes to read. -/
structure ComesTo (j : Job) (k : Nat) : Prop where
  lt : k < j.sectors
  before : ∀ s < k, j.halt s = none
  opened : j.halt k ≠ some .refused

theorem comesTo_of_point {k : Nat} (hk : k ≤ j.sectors) (hpre : ∀ s < k, j.halt s = none)
    (hq : .request q ∈ (j.point k).trace) : ∃ s, j.ComesTo s ∧ q = j.request s := by
  obtain ⟨s, hs, rfl⟩ := request_of_point hq
  exact ⟨s, ⟨Nat.lt_of_lt_of_le hs hk, fun t ht => hpre t (ht.trans hs), by rw [hpre s hs]; decide⟩, rfl⟩

theorem Core.request {p : Point} {v : World} (hc : (enter e w size).Core p v)
    (hq : .request q ∈ v.trace.drop w.trace.length) : .request q ∈ p.trace := by
  rw [hc.trace_enter] at hq
  exact (List.mem_append.1 hq).resolve_left (by simp)

/-- Waiting and leaving commands nothing. -/
theorem Core.request_quiet {p : Point} {w₁ w' : World} (hc : (enter e w size).Core p w₁) (hquiet : Quiet w₁ w')
    (hq : .request q ∈ w'.trace.drop w.trace.length) : .request q ∈ p.trace := by
  obtain ⟨n, evs, rfl, hevs⟩ := hquiet
  have hle : w.trace.length ≤ w₁.trace.length := by
    rw [hc.trace, List.length_append]
    exact Nat.le_trans (by simp [enter]) (Nat.le_add_right _ _)
  have hidle : Idle evs := fun q hq => by cases hevs _ hq
  replace hq : .request q ∈ (w₁.trace ++ evs).drop w.trace.length := hq
  rw [List.drop_append_of_le_length hle] at hq
  exact hc.request (mem_of_idle hidle hq)

/-- **The commands of a dump** are those of the sectors it came to. -/
theorem Ended.request {r : EStateM.Result Stop World Int} (h : (enter e w size).Ended r)
    (hq : .request q ∈ (finalWorld r).trace.drop w.trace.length) :
    ∃ k, (enter e w size).ComesTo k ∧ q = (enter e w size).request k := by
  cases h with
  | finished hall hc _ =>
    have hmem := hc.request hq
    rw [trace_finished] at hmem
    have hend : Idle [.free, .print "Dump complete after %d minutes!" [.minutes]] := by simp [Idle]
    exact comesTo_of_point (Nat.le_refl _) hall (mem_of_idle (idle_append (idle_close _) hend) hmem)
  | refused hk hpre _ hc _ =>
    have hmem := hc.request hq
    rw [trace_atRefused] at hmem
    have hend : ∀ i, Idle ((enter e w size).refusedEvents i) := by simp [Idle, refusedEvents]
    exact comesTo_of_point (Nat.le_of_lt hk) hpre
      (mem_of_idle (idle_cons (by simp) (idle_append (idle_close _) (hend _))) hmem)
  | @unreadable k _ _ _ hk hpre hhalt _ hquiet hc _ =>
    have hmem := hc.request_quiet hquiet hq
    rw [trace_atUnreadable, List.mem_append, List.mem_append] at hmem
    have hend : Idle [errorReport k] := by simp [Idle, errorReport]
    rcases hmem with hmem | hmem | hmem
    · exact comesTo_of_point (Nat.le_of_lt hk) hpre hmem
    · exact (idle_cons (by simp) (idle_roll _) q hmem).elim
    · exact ⟨k, ⟨hk, hpre, by rw [hhalt]; decide⟩, request_of_read (mem_of_idle hend hmem)⟩
  | @short k _ hk hpre hhalt hc _ =>
    have hmem := hc.request hq
    rw [atShort, trace_cutShort] at hmem
    have hend : Idle [.free] := by simp [Idle]
    rcases request_of_written (mem_of_idle (idle_cons (by simp) (idle_append (idle_close _) hend)) hmem) with hmem | rfl
    · exact comesTo_of_point (Nat.le_of_lt hk) hpre hmem
    · exact ⟨k, ⟨hk, hpre, by rw [hhalt]; decide⟩, rfl⟩
  | @home k _ hk hpre hhalt hc _ =>
    have hmem := hc.request hq
    rw [trace_left] at hmem
    rcases request_of_written (mem_of_idle (by simp [Idle, progress]) hmem) with hmem | rfl
    · exact comesTo_of_point (Nat.le_of_lt hk) hpre hmem
    · exact ⟨k, ⟨hk, hpre, by rw [hhalt]; decide⟩, rfl⟩

end Commands

end Job

/-! ## Reading a sector -/

/-- The read of a sector: `lba` and `offset` name the same place, and there is a whole sector to read there. -/
structure Reading (k : Nat) (f : Frame) : Prop where
  offset : f.offset.toNat = sectorSize * k
  lba : f.lba.toNat * 2 ^ 11 = f.offset.toNat
  shift : (f.lba <<< 11).toNat = f.lba.toNat * 2 ^ 11
  readSize : f.readSize.toNat = sectorSize
  lt : f.offset.toNat < 2 ^ 34

section Reading

variable {e fuel w size} {k : Nat} {w₁ : World}

/-- Every command of a dump was issued by a round that came to read its sector. -/
theorem ReadsAt.of_request {diskType : Int} {r : EStateM.Result Stop World Int}
    (hrun : (dump e fuel (some .localId) diskType size).run w = r) {q : Request}
    (hq : .request q ∈ (finalWorld r).trace.drop w.trace.length) : ∃ k w₁, ReadsAt e fuel w size k w₁ ∧
      q = readRequest e .buffer w₁.frame.readSize (w₁.frame.lba <<< 11) w₁.readCmd := by
  subst hrun
  cases hmem : e.memalign with
  | false =>
    rw [Job.run_dump_memalign fuel hmem, finalWorld_ok] at hq
    simp [World.log] at hq
  | true =>
    obtain ⟨k, hk, rfl⟩ := (Job.ended_dump fuel w diskType size hmem).request hq
    obtain ⟨v, hat, hrounds⟩ := Job.rounds_point fuel (Nat.le_of_lt hk.lt) hk.before
    obtain ⟨w₁, hroll, hc, hf, -⟩ := Job.rolled fuel hat hk.lt (Job.opens_of_halt _ hk.opened)
    refine ⟨k, w₁, ⟨hmem, v, hrounds, Job.remaining_pos hat hk.lt, hroll⟩, ?_⟩
    rw [hf.readSize, hf.lba_shift hk.lt, hc.readCmd]
    rfl

theorem Reading.of_readsAt (hmul : sectorSize ∣ size.toNat) (hle : size.toNat ≤ 2 ^ 34)
    (h : ReadsAt e fuel w size k w₁) : Reading k w₁.frame := by
  obtain ⟨v, hrounds, hpos, hroll⟩ := h.reached
  have hat : (Job.enter e w size).At k v := Job.at_of_rounds Job.at_enter hrounds
  have hf := Job.counters_rolled hat hroll
  have hk : k < (Job.enter e w size).sectors := by
    rw [hat.counters.remaining] at hpos
    rw [Job.lt_sectors]
    omega
  have hlt : sectorSize * k < size.toNat := (Job.lt_sectors _).1 hk
  have hlba := hf.lba hlt
  have hoffset : w₁.frame.offset.toNat = sectorSize * k := by
    rw [hf.offset]
    exact Nat.min_eq_left (Nat.le_of_lt hlt)
  have hmul' : w₁.frame.lba.toNat * 2 ^ 11 = sectorSize * k := by
    rw [hlba, Nat.mul_comm]
    rfl
  exact {
    offset := hoffset
    lba := hmul'.trans hoffset.symm
    shift := by
      rw [hf.lba_shift hk, hmul']
      exact Job.toNat_sectorOffset (by omega)
    readSize := by
      rw [hf.readSize, Job.toNat_len]
      exact Job.len_enter e w (by rwa [← Job.sectors_enter e w hmul])
    lt := by omega }

/-- A read of the sector from any world, the first one or a retry, commands its range. -/
theorem Reading.request {f : Frame} (h : Reading k f) (dst : Region) (readCmd : UInt32) :
    (readRequest e dst f.readSize (f.lba <<< 11) readCmd).range = ⟨f.offset.toNat, f.readSize.toNat⟩ := by
  have hoffset : (f.lba <<< 11).toNat = f.offset.toNat := h.shift.trans h.lba
  rw [range_readRequest, hoffset]
  · rw [hoffset]
    exact h.lt
  · rw [hoffset, h.offset]
    exact Nat.dvd_mul_right _ _
  · exact ⟨1, by rw [h.readSize, Nat.mul_one]⟩

/-- The tries of a sector issue nothing but its command. -/
theorem Reading.tries (h : Reading k w₁.frame) : ∃ ret w₂,
    (readSector e w₁.frame.readSize).run w₁ = .ok ret w₂ ∧ ret ≠ -1 ∧
      ∀ q, .request q ∈ w₂.trace.drop w₁.trace.length →
        q.range = ⟨w₁.frame.offset.toNat, w₁.frame.readSize.toNat⟩ ∧ q.count = w₁.frame.readSize := by
  have hlt : (w₁.frame.lba <<< 11).toNat < 2 ^ 34 := by rw [h.shift, h.lba]; exact h.lt
  obtain ⟨regs, hrun⟩ := run_tries e .buffer w₁.frame.readSize (w₁.frame.lba <<< 11) w₁ ((accepts_iff _).2 hlt)
  refine ⟨_, _, (Imp.run_bind_ok (Job.run_get w₁)).trans hrun, ?_, fun q hq => ?_⟩
  · split <;> omega
  · simp only [afterTries, trace_logs, List.drop_left, tryEvents, List.mem_flatMap, List.mem_cons, Event.request.injEq,
      List.not_mem_nil, or_false, reduceCtorEq] at hq
    obtain ⟨t, -, rfl⟩ := hq
    exact ⟨h.request .buffer w₁.readCmd, rfl⟩

end Reading

/-- **Read addressing.** `DVD_LowRead64` returns -1 exactly from `2^34` on, and then leaves everything alone; otherwise
the address register times its unit is the offset rounded down to the unit. In a dump of whole sectors up to `2^34`,
`lba << 11` does not overflow and is the offset of the round, and whatever the world a read of the round is issued
from, it is not rejected and its registers decode to the range `[offset, offset + read_size)`. So do those of every
command the tries of the round start, and every command in the trace of the dump, however it ends, was started by such
a round. -/
theorem read_addressing (hmul : sectorSize ∣ size.toNat) (hle : size.toNat ≤ 2 ^ 34) :
    (∀ (e : Env) (dst : Region) (len : UInt32) (offset : UInt64) (w : World), ∃ r w',
      (dvdLowRead64 e dst len offset).run w = .ok r w' ∧ (r = -1 ↔ 2 ^ 34 ≤ offset.toNat) ∧
        (2 ^ 34 ≤ offset.toNat → w' = w) ∧
        (offset.toNat < 2 ^ 34 → (w'.dvd 3).toNat * addressUnit w.readCmd =
          offset.toNat / addressUnit w.readCmd * addressUnit w.readCmd)) ∧
    (∀ k w₁, ReadsAt e fuel w size k w₁ →
      w₁.frame.lba.toNat * 2 ^ 11 < 2 ^ 64 ∧ w₁.frame.lba.toNat * 2 ^ 11 = w₁.frame.offset.toNat ∧
      w₁.frame.offset.toNat = sectorSize * k ∧ w₁.frame.readSize.toNat = sectorSize ∧
      (∀ v, ∃ r v', (dvdLowRead64 e .buffer w₁.frame.readSize (w₁.frame.lba <<< 11)).run v = .ok r v' ∧ r ≠ -1 ∧
        (v'.dvd 3).toNat * addressUnit v.readCmd = w₁.frame.offset.toNat ∧
        (v'.dvd 4).toNat * lengthUnit v.readCmd = w₁.frame.readSize.toNat ∧ v'.dvd 6 = w₁.frame.readSize ∧
        v'.pending.range = ⟨w₁.frame.offset.toNat, w₁.frame.readSize.toNat⟩) ∧
      ∃ ret w₂, (readSector e w₁.frame.readSize).run w₁ = .ok ret w₂ ∧ ret ≠ -1 ∧
        ∀ q, .request q ∈ w₂.trace.drop w₁.trace.length →
          q.range = ⟨w₁.frame.offset.toNat, w₁.frame.readSize.toNat⟩ ∧ q.count = w₁.frame.readSize) ∧
    ∀ diskType q, .request q ∈
        (finalWorld ((dump e fuel (some .localId) diskType size).run w)).trace.drop w.trace.length →
      ∃ k w₁, ReadsAt e fuel w size k w₁ ∧ q.addr.toNat * addressUnit w₁.readCmd = w₁.frame.offset.toNat ∧
        q.len.toNat * lengthUnit w₁.readCmd = w₁.frame.readSize.toNat ∧ q.count = w₁.frame.readSize ∧
        q.range = ⟨w₁.frame.offset.toNat, w₁.frame.readSize.toNat⟩ := by
  refine ⟨fun e dst len offset w => ⟨_, _, run_dvdLowRead64 e dst len offset w,
    readResult_eq_neg_one e dst len offset w, readOnce_rejected e dst len offset w, fun h => ?_⟩, fun k w₁ hreads => ?_,
    fun diskType q hq => ?_⟩
  · have haddr := congrArg Request.addr (pending_readOnce e dst len offset w h)
    rw [show (readOnce e dst len offset w).dvd 3 = _ from haddr]
    exact addr_readRequest e dst len w.readCmd h
  · have h := Reading.of_readsAt hmul hle hreads
    have hlt : (w₁.frame.lba <<< 11).toNat < 2 ^ 34 := by rw [h.shift, h.lba]; exact h.lt
    refine ⟨by have := h.lba; have := h.lt; omega, h.lba, h.offset, h.readSize, fun v => ?_, h.tries⟩
    have hpending := pending_readOnce e .buffer w₁.frame.readSize (w₁.frame.lba <<< 11) v hlt
    have hrange := h.request (e := e) .buffer v.readCmd
    have hdecoded := hrange
    rw [Request.range_eq, Range.mk.injEq] at hdecoded
    refine ⟨_, _, run_dvdLowRead64 e .buffer _ _ v, ?_, ?_, ?_, congrArg Request.count hpending, ?_⟩
    · rw [Ne, readResult_eq_neg_one]
      omega
    · rw [show World.dvd _ 3 = _ from congrArg Request.addr hpending]
      exact hdecoded.1
    · rw [show World.dvd _ 4 = _ from congrArg Request.len hpending]
      exact hdecoded.2
    · rw [hpending]
      exact hrange
  · obtain ⟨k, w₁, hreads, rfl⟩ := ReadsAt.of_request rfl hq
    have hrange := (Reading.of_readsAt hmul hle hreads).request (e := e) .buffer w₁.readCmd
    have hdecoded := hrange
    rw [Request.range_eq, Range.mk.injEq] at hdecoded
    exact ⟨k, w₁, hreads, hdecoded.1, hdecoded.2, rfl, hrange⟩

/-- The first read of a dump of two sectors. -/
theorem read_addressing_first :
    let e := Env.calm fun _ => 7
    let w := World.boot (fun _ _ => 0) fun _ => none
    ∃ w₁, ReadsAt e 0 w 4096 0 w₁ ∧ ∃ r v', (dvdLowRead64 e .buffer w₁.frame.readSize (w₁.frame.lba <<< 11)).run w₁ =
      .ok r v' ∧ v'.pending.range = ⟨0, 2048⟩ := by
  intro e w
  have hat : (Job.enter e w 4096).At 0 (Job.enter e w 4096).start := Job.at_enter
  obtain ⟨w₁, hroll, -, -⟩ := Job.rollover_ok (hat.core.log .moveUp) hat.counters fun _ => rfl
  have hreads : ReadsAt e 0 w 4096 0 w₁ := ⟨rfl, _, .zero, by decide, hroll⟩
  obtain ⟨-, -, hoffset, hsize, hread, -⟩ :=
    (read_addressing e 0 w 4096 (by decide) (by decide)).2.1 0 w₁ hreads
  obtain ⟨r, v', hrun, -, -, -, -, hrange⟩ := hread w₁
  refine ⟨w₁, hreads, r, v', hrun, ?_⟩
  rw [hrange, hoffset, hsize]
  rfl

end TakeADump
