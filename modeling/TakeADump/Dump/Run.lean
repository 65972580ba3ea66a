import TakeADump.Dump.Image
import TakeADump.Dump.Stages

/-!
# Every run of `dump`

`Job.halt s` says, from the job alone, whether and why a dump stops at sector `s`. `ended_dump`: a dump does all
sectors and returns 0, or stops at the first sector where it has to, and its files, its trace and its counters are
those of the copy at that point (`Ended`).
-/

namespace TakeADump

namespace Job

/-- Why a dump stops before the end. -/
inductive Halt
  | refused     -- the next part cannot be created
  | unreadable  -- the sector cannot be read, and that is not tolerated
  | short       -- not all of the sector is accepted by `fwrite`
  | home        -- HOME is held after the sector
  deriving DecidableEq

variable (j : Job)

/-- Sector `s` goes to a new part. -/
def rolls (s : Nat) : Bool := (j.point s).log.needsPart chunkSize

/-- The part opened next when `s` sectors are done can be created. -/
def opens (s : Nat) : Bool := j.env.fopen (j.base + (j.point s).log.parts.length)

/-- The bytes of sector `s` that `fwrite` accepts. -/
def taken (s : Nat) : Nat := accepted j.env (j.start.writes + s) (j.len s)

/-- Whether and why a dump stops at sector `s`. -/
def halt (s : Nat) : Option Halt :=
  if j.rolls s && !j.opens s then some .refused
  else if !j.readable s && j.start.cancelOnError then some .unreadable
  else if j.taken s ≠ j.len s then some .short
  else if j.home s then some .home
  else none

theorem taken_of_halt {s : Nat} (h : j.halt s = none ∨ j.halt s = some .home) : j.taken s = j.len s := by
  unfold halt at h
  by_contra hne
  rw [if_pos hne] at h
  split at h
  · simp at h
  · split at h <;> simp at h

/-- What it takes to stop at sector `s`. -/
theorem halt_inv {s : Nat} {why : Halt} (h : j.halt s = some why) : match why with
    | .refused => j.rolls s = true ∧ j.opens s = false
    | .unreadable => j.readable s = false ∧ j.start.cancelOnError = true
    | .short => j.taken s ≠ j.len s
    | .home => j.home s = true := by
  unfold halt at h
  split_ifs at h with hrefused hunreadable hshort hhome
  · cases h
    simpa using hrefused
  · cases h
    simpa using hunreadable
  · cases h
    exact hshort
  · cases h
    exact hhome

theorem opens_of_halt {s : Nat} (h : j.halt s ≠ some .refused) : (j.rolls s && !j.opens s) = false := by
  cases hrefused : (j.rolls s && !j.opens s) with
  | false => rfl
  | true =>
    rw [halt, if_pos hrefused] at h
    exact absurd rfl h

/-- A sector that comes to `fwrite` was read, or its error is tolerated. -/
theorem stays_of_halt {s : Nat} (h : j.halt s ≠ some .refused) (h' : j.halt s ≠ some .unreadable) :
    j.readable s = true ∨ j.start.cancelOnError = false := by
  by_contra hstop
  rw [not_or, Bool.not_eq_true, Bool.not_eq_false] at hstop
  apply h'
  rw [halt, if_neg (by rw [j.opens_of_halt h]; exact Bool.false_ne_true), if_pos (by rw [hstop.1, hstop.2]; rfl)]

theorem readable_of_halt {s : Nat} (h : j.halt s = none ∨ j.halt s = some .home)
    (hcancel : j.start.cancelOnError = true) : j.readable s = true := by
  refine (j.stays_of_halt (s := s) ?_ ?_).resolve_right (by rw [hcancel]; decide)
  · rcases h with h | h <;> rw [h] <;> decide
  · rcases h with h | h <;> rw [h] <;> decide

theorem home_of_halt {s : Nat} (h : j.halt s = none) : j.home s = false := by
  unfold halt at h
  split_ifs at h with _ _ _ hhome
  exact Bool.not_eq_true _ ▸ hhome

/-- The copy when the part for sector `s` was refused. -/
def atRefused (s : Nat) : Point :=
  (j.closeStep ((j.point s).note [.moveUp])).note (j.refusedEvents (j.point s).log.parts.length)

/-- The copy when sector `s` was read. -/
def atRead (s : Nat) : Point := j.readStep (j.roll (j.point s))

/-- The copy when the unreadable sector `s` was reported. -/
def atUnreadable (s : Nat) : Point :=
  { (j.atRead s).note [errorReport s] with errors := (j.atRead s).errors + 1 }

/-- The copy when sector `s` was not accepted in full. -/
def atShort (s : Nat) : Point := j.cutShort (j.taken s) (j.readyToWrite (j.point s))

/-- The copy when sector `s` was written. -/
def atWritten (s : Nat) : Point := j.writeStep (j.len s) (j.readyToWrite (j.point s))

/-- How the loop of `dump` ends. -/
inductive Ended : EStateM.Result Stop World Int → Prop
  | finished {w' : World} (hall : ∀ s < j.sectors, j.halt s = none)
      (hc : j.Core (j.finished (j.point j.sectors)) w') (hoff : w'.frame.offset = j.size) : Ended (.ok 0 w')
  | refused {k : Nat} {w' : World} (hk : k < j.sectors) (hpre : ∀ s < k, j.halt s = none)
      (hhalt : j.halt k = some .refused) (hc : j.Core (j.atRefused k) w')
      (hoff : w'.frame.offset = sectorOffset k) : Ended (.ok (-2) w')
  | unreadable {k : Nat} {st : Stop} {w₁ w' : World} (hk : k < j.sectors) (hpre : ∀ s < k, j.halt s = none)
      (hhalt : j.halt k = some .unreadable) (hst : st = .exit 0 ∨ st = .spin) (hq : Quiet w₁ w')
      (hc : j.Core (j.atUnreadable k) w₁) (hoff : w'.frame.offset = sectorOffset k) : Ended (.error st w')
  | short {k : Nat} {w' : World} (hk : k < j.sectors) (hpre : ∀ s < k, j.halt s = none)
      (hhalt : j.halt k = some .short) (hc : j.Core (j.atShort k) w')
      (hoff : w'.frame.offset = sectorOffset k) : Ended (.ok (-2) w')
  | home {k : Nat} {w' : World} (hk : k < j.sectors) (hpre : ∀ s < k, j.halt s = none)
      (hhalt : j.halt k = some .home) (hc : j.Core (j.left (j.atWritten k)) w')
      (hoff : w'.frame.offset.toNat = min (sectorSize * (k + 1)) j.size.toNat) : Ended (.error (.exit 0) w')

/-! ## One round -/

variable {j} {w : World} {k : Nat}

/-- The loop is about to start round `k`. -/
structure At (j : Job) (k : Nat) (w : World) : Prop where
  core : j.Core (j.point k) w
  counters : j.Counters k (j.point k).log w.frame
  le : k ≤ j.sectors
  before : ∀ s < k, j.halt s = none

theorem remaining_pos (h : j.At k w) (hk : k < j.sectors) : w.frame.remaining.toNat > 0 := by
  have := j.lt_sectors.1 hk
  rw [h.counters.remaining]
  omega

/-- A round up to the open part. -/
theorem run_dumpRound (fuel : Nat) (h : j.At k w) (hk : k < j.sectors) {b : Bool} {w' : World}
    (hroll : (rollover j.env (some .localId)).run (w.log .moveUp) = .ok b w') :
    (dumpRound j.env fuel (some .localId) j.size ()).run w =
      (if b then copySector j.env fuel j.size else pure (.done (-2)) : Prog (Imp.Round Unit Int)).run w' := by
  unfold dumpRound Logger.moveUp
  rw [Imp.run_bind_ok (run_get w), if_pos (remaining_pos h hk), Imp.run_bind_ok (run_emit .moveUp w),
    Imp.run_bind_ok hroll]

/-- Rolled over, `read_size` set: the sector is read. -/
theorem run_copySector_read (fuel : Nat) {w₁ : World} (hk : k < j.sectors) (hc : j.Core (j.roll (j.point k)) w₁)
    (hf : j.Counters k (j.roll (j.point k)).log w₁.frame) :
    ∃ ret w₂, (ret = 0 ↔ j.readable k = true) ∧ w₂.frame = w₁.frame ∧ j.Core (j.atRead k) w₂ ∧
      (copySector j.env fuel j.size).run w₁ = (do
        TakeADump.settle j.env fuel ret (UInt32.ofNat (j.len k))
        if ← writeSector j.env (UInt32.ofNat (j.len k)) then do
          TakeADump.advance j.env j.size (UInt32.ofNat (j.len k))
          pure (.next ())
        else
          pure (.done (-2)) : Prog (Imp.Round Unit Int)).run w₂ := by
  have hdone : (j.roll (j.point k)).done = k := j.point_done k
  have hread : (j.roll (j.point k)).read = (j.roll (j.point k)).done := by
    rw [hdone]
    exact j.point_read k
  obtain ⟨ret, w₂, hrun, hret, hframe, hc₂⟩ :=
    readSector_core hc (by rw [hdone]; exact hf) (by rw [hdone]; exact hk) hread
  rw [hdone] at hrun hret
  refine ⟨ret, w₂, hret, hframe, hc₂, ?_⟩
  unfold copySector
  rw [Imp.run_bind_ok (run_get w₁), hf.readSize, Imp.run_bind_ok hrun]

/-- The unreadable sector ends the run. -/
theorem ends_unreadable (fuel : Nat) {w₁ : World} (h : j.At k w) (hk : k < j.sectors)
    (hc : j.Core (j.roll (j.point k)) w₁) (hf : j.Counters k (j.roll (j.point k)).log w₁.frame)
    (hhalt : j.halt k = some .unreadable) :
    Imp.Ends (copySector j.env fuel j.size) w₁ (fun _ _ => False) fun st w' => j.Ended (.error st w') := by
  obtain ⟨hr, hcancel⟩ := halt_inv _ hhalt
  obtain ⟨ret, w₂, hret, hframe, hc₂, hrun⟩ := run_copySector_read fuel hk hc hf
  have hdone : (j.atRead k).done = k := j.point_done k
  rw [Imp.ends_congr hrun, Imp.ends_bind]
  refine (settle_cancel fuel hc₂ (by rw [hframe, hdone]; exact hf) (by rw [hdone]; exact hk)
    (fun h0 => by rw [hret.1 h0] at hr; cases hr) hcancel).mono (fun _ _ h => h.elim) fun st w' hend => ?_
  obtain ⟨hst, w₃, hq, hframe₃, hc₃⟩ := hend
  rw [hdone] at hc₃
  have hoff : w'.frame.offset = sectorOffset k := by
    obtain ⟨n, evs, rfl, _⟩ := hq
    show w₃.frame.offset = _
    rw [hframe₃, hframe, hf.offset_eq hk]
  exact .unreadable hk h.before hhalt hst hq hc₃ hoff

/-- The sector is settled: it is written. -/
theorem run_copySector_settled (fuel : Nat) {w₁ : World} (hk : k < j.sectors) (hc : j.Core (j.roll (j.point k)) w₁)
    (hf : j.Counters k (j.roll (j.point k)).log w₁.frame)
    (hstay : j.readable k = true ∨ j.start.cancelOnError = false) :
    ∃ w₂ c, (j.readyToWrite (j.point k)).log.cur = some c ∧ j.Core (j.readyToWrite (j.point k)) w₂ ∧
      j.Counters k (j.readyToWrite (j.point k)).log w₂.frame ∧ (copySector j.env fuel j.size).run w₁ = (do
        if ← writeSector j.env (UInt32.ofNat (j.len k)) then do
          TakeADump.advance j.env j.size (UInt32.ofNat (j.len k))
          pure (.next ())
        else
          pure (.done (-2)) : Prog (Imp.Round Unit Int)).run w₂ := by
  obtain ⟨ret, w₂, hret, hframe, hc₂, hrun⟩ := run_copySector_read fuel hk hc hf
  have hdone : (j.atRead k).done = k := j.point_done k
  obtain ⟨w₃, hsettle, hframe₃, hc₃⟩ := settle_ok fuel hc₂ (by rw [hframe, hdone]; exact hf)
    (by rw [hdone]; exact hk) (by rw [hdone]; exact hret) (by rw [hdone]; exact hstay)
  rw [hdone] at hsettle
  have hready := j.ready_point hk
  rw [← log_readyToWrite] at hready
  obtain ⟨c, hcur, -, -⟩ := hready.cur
  refine ⟨w₃, c, hcur, hc₃, ?_, hrun.trans (Imp.run_bind_ok hsettle)⟩
  rw [hframe₃, hframe, log_readyToWrite]
  exact hf

@[simp] theorem writes_readyToWrite (p : Point) : (j.readyToWrite p).writes = p.writes := by
  simp [readyToWrite, readStep, roll]

@[simp] theorem samples_readyToWrite (p : Point) : (j.readyToWrite p).samples = p.samples := by
  simp [readyToWrite, readStep, roll]

theorem log_atWritten (k : Nat) : (j.atWritten k).log = (j.point (k + 1)).log := by
  rw [point_succ_log]
  show (j.readyToWrite (j.point k)).log.append _ = _
  rw [log_readyToWrite, data, sector, done_readyToWrite, point_done]

theorem point_succ (k : Nat) : j.point (k + 1) = j.advance (j.atWritten k) := by
  rw [point, next, point_done]
  rfl

/-- All of the sector is accepted: the counters move on. -/
theorem run_copySector_written (fuel : Nat) {w₁ : World} (hk : k < j.sectors) (hc : j.Core (j.roll (j.point k)) w₁)
    (hf : j.Counters k (j.roll (j.point k)).log w₁.frame)
    (hstay : j.readable k = true ∨ j.start.cancelOnError = false) (hall : j.taken k = j.len k) :
    ∃ w₂, j.Core (j.atWritten k) w₂ ∧
      j.Counters (k + 1) (j.atWritten k).log (advanced (UInt32.ofNat (j.len k)) w₂.frame) ∧
      (copySector j.env fuel j.size).run w₁ = (do
        TakeADump.advance j.env j.size (UInt32.ofNat (j.len k))
        pure (.next ()) : Prog (Imp.Round Unit Int)).run w₂ := by
  obtain ⟨w₂, c, hcur, hc₂, hf₂, hrun⟩ := run_copySector_settled fuel hk hc hf hstay
  have hdone : (j.readyToWrite (j.point k)).done = k := by simp
  have hwrites : (j.readyToWrite (j.point k)).writes = k := by simp
  obtain ⟨w₃, hwrite, hframe₃, hc₃⟩ := writeSector_ok hc₂ hf₂ hcur (by rw [hdone, hwrites]; exact hall)
  rw [hdone] at hwrite hc₃
  have hready := j.ready_point hk
  rw [← log_readyToWrite] at hready
  refine ⟨w₃, hc₃, ?_, ?_⟩
  · rw [hframe₃]
    exact hf₂.advanced hk hready (length_bytesAt _ _)
  · rw [hrun, Imp.run_bind_ok hwrite, if_pos rfl]

/-- The part for the sector is open. -/
theorem rolled (fuel : Nat) (h : j.At k w) (hk : k < j.sectors) (hopen : (j.rolls k && !j.opens k) = false) :
    ∃ w₁, (rollover j.env (some .localId)).run (w.log .moveUp) = .ok true w₁ ∧ j.Core (j.roll (j.point k)) w₁ ∧
      j.Counters k (j.roll (j.point k)).log w₁.frame ∧
      (dumpRound j.env fuel (some .localId) j.size ()).run w = (copySector j.env fuel j.size).run w₁ := by
  have hc₀ : j.Core ((j.point k).note [.moveUp]) (w.log .moveUp) := h.core.log .moveUp
  have hf₀ : j.Counters k ((j.point k).note [.moveUp]).log (w.log .moveUp).frame := h.counters
  obtain ⟨w₁, hrun, hc₁, hf₁⟩ := rollover_ok hc₀ hf₀ fun hneed => by
    have hrolls : j.rolls k = true := hneed
    have hopens : j.opens k = true := by simpa [hrolls] using hopen
    exact hopens
  refine ⟨w₁, hrun, ?_, hf₁, ?_⟩
  · simpa only [Point.note, roll, List.append_assoc, List.cons_append, List.nil_append] using hc₁
  · rw [run_dumpRound fuel h hk hrun, if_pos rfl]

/-- The counters move on, and HOME is looked for. -/
theorem counters_atWritten {f : Frame}
    (hf : j.Counters (k + 1) (j.atWritten k).log (advanced (UInt32.ofNat (j.len k)) f)) :
    (j.atWritten k).done = k ∧ (j.atWritten k).samples = k ∧
      j.Counters ((j.atWritten k).done + 1) (j.atWritten k).log
        (advanced (UInt32.ofNat (j.len (j.atWritten k).done)) f) := by
  have hdone : (j.atWritten k).done = k := by simp [atWritten, writeStep]
  refine ⟨hdone, by simp [atWritten, writeStep], ?_⟩
  rw [hdone]
  exact hf

/-- **A round that nothing stops** does its sector. -/
theorem round_pass (fuel : Nat) (h : j.At k w) (hk : k < j.sectors) (hhalt : j.halt k = none) :
    ∃ w', (dumpRound j.env fuel (some .localId) j.size ()).run w = .ok (.next ()) w' ∧ j.At (k + 1) w' := by
  have hopen := j.opens_of_halt (s := k) (by rw [hhalt]; exact nofun)
  have hstay := j.stays_of_halt (s := k) (by rw [hhalt]; exact nofun) (by rw [hhalt]; exact nofun)
  obtain ⟨w₁, -, hc₁, hf₁, hround⟩ := rolled fuel h hk hopen
  obtain ⟨w₂, hc₂, hf₂, hcopy⟩ := run_copySector_written fuel hk hc₁ hf₁ hstay (j.taken_of_halt (Or.inl hhalt))
  obtain ⟨hdone, hsamples, hf₃⟩ := counters_atWritten hf₂
  obtain ⟨w', hadv, hc', hf'⟩ := advance_ok hc₂ hf₃ (by rw [hsamples]; exact j.home_of_halt hhalt)
  rw [hdone] at hadv hf'
  rw [← point_succ] at hc' hf'
  refine ⟨w', by rw [hround, hcopy, Imp.run_bind_ok hadv]; rfl, hc', hf', hk, fun s hs => ?_⟩
  rcases Nat.lt_succ_iff_lt_or_eq.1 hs with hs | rfl
  · exact h.before s hs
  · exact hhalt

/-- Not all of the sector is accepted. -/
theorem ends_short (fuel : Nat) {w₁ : World} (h : j.At k w) (hk : k < j.sectors)
    (hc : j.Core (j.roll (j.point k)) w₁) (hf : j.Counters k (j.roll (j.point k)).log w₁.frame)
    (hstay : j.readable k = true ∨ j.start.cancelOnError = false) (hhalt : j.halt k = some .short) :
    Imp.Ends (copySector j.env fuel j.size) w₁ (fun r w' => r = .done (-2) ∧ j.Ended (.ok (-2) w'))
      fun _ _ => False := by
  obtain ⟨w₂, c, hcur, hc₂, hf₂, hrun⟩ := run_copySector_settled fuel hk hc hf hstay
  have hdone : (j.readyToWrite (j.point k)).done = k := by simp
  have hwrites : (j.readyToWrite (j.point k)).writes = k := by simp
  obtain ⟨w', hwrite, hframe, hc'⟩ := writeSector_short hc₂ hf₂ hcur (by rw [hdone, hwrites]; exact halt_inv _ hhalt)
  rw [hdone] at hwrite
  rw [hdone, hwrites] at hc'
  rw [Imp.ends_congr hrun, Imp.ends_bind, Imp.ends_of_ok hwrite, if_neg Bool.false_ne_true, Imp.ends_pure]
  exact ⟨rfl, .short hk h.before hhalt hc' (by rw [hframe, hf₂.offset_eq hk])⟩

/-- HOME is held after the sector. -/
theorem ends_home (fuel : Nat) {w₁ : World} (h : j.At k w) (hk : k < j.sectors)
    (hc : j.Core (j.roll (j.point k)) w₁) (hf : j.Counters k (j.roll (j.point k)).log w₁.frame)
    (hstay : j.readable k = true ∨ j.start.cancelOnError = false) (hhalt : j.halt k = some .home) :
    Imp.Ends (copySector j.env fuel j.size) w₁ (fun _ _ => False) fun st w' => j.Ended (.error st w') := by
  obtain ⟨w₂, hc₂, hf₂, hrun⟩ := run_copySector_written fuel hk hc hf hstay (j.taken_of_halt (Or.inr hhalt))
  obtain ⟨hdone, hsamples, hf₃⟩ := counters_atWritten hf₂
  obtain ⟨w', hadv, hc', hf'⟩ := advance_home hc₂ hf₃ (by rw [hsamples]; exact halt_inv _ hhalt)
  rw [hdone] at hadv hf'
  rw [Imp.ends_congr hrun, Imp.ends_bind, Imp.ends_of_error hadv]
  exact .home hk h.before hhalt hc' hf'.offset

/-- The part for the sector is refused. -/
theorem ends_refused (fuel : Nat) (h : j.At k w) (hk : k < j.sectors) (hhalt : j.halt k = some .refused) :
    Imp.Ends (dumpRound j.env fuel (some .localId) j.size ()) w (fun r w' => r = .done (-2) ∧ j.Ended (.ok (-2) w'))
      fun _ _ => False := by
  have hc₀ : j.Core ((j.point k).note [.moveUp]) (w.log .moveUp) := h.core.log .moveUp
  have hf₀ : j.Counters k ((j.point k).note [.moveUp]).log (w.log .moveUp).frame := h.counters
  obtain ⟨hneed, hfail⟩ := halt_inv _ hhalt
  obtain ⟨w', hrun, hoff, hc'⟩ := rollover_fail hc₀ hf₀ hneed hfail
  rw [Imp.ends_congr (run_dumpRound fuel h hk hrun), if_neg Bool.false_ne_true, Imp.ends_pure]
  exact ⟨rfl, .refused hk h.before hhalt hc' (hoff.trans (h.counters.offset_eq hk))⟩

/-- A round that does a sector, or stops at it. -/
theorem ends_round (fuel : Nat) (h : j.At k w) (hk : k < j.sectors) :
    Imp.Ends (dumpRound j.env fuel (some .localId) j.size ()) w
      (fun r w' => match r with
        | .next _ => j.At (k + 1) w'
        | .done a => j.Ended (.ok a w'))
      fun st w' => j.Ended (.error st w') := by
  cases hhalt : j.halt k with
  | none =>
    obtain ⟨w', hrun, hat⟩ := round_pass fuel h hk hhalt
    rw [Imp.ends_of_ok hrun]
    exact hat
  | some why =>
    by_cases hrefused : why = .refused
    · subst hrefused
      refine (ends_refused fuel h hk hhalt).mono ?_ fun _ _ h => h.elim
      rintro r w' ⟨rfl, hended⟩
      exact hended
    have hopen : j.halt k ≠ some .refused := by simpa [hhalt] using hrefused
    obtain ⟨w₁, -, hc₁, hf₁, hround⟩ := rolled fuel h hk (j.opens_of_halt hopen)
    rw [Imp.ends_congr hround]
    by_cases hunreadable : why = .unreadable
    · subst hunreadable
      exact (ends_unreadable fuel h hk hc₁ hf₁ hhalt).mono (fun _ _ h => h.elim) fun _ _ h => h
    have hstay := j.stays_of_halt hopen (by simpa [hhalt] using hunreadable)
    cases why with
    | refused => exact absurd rfl hrefused
    | unreadable => exact absurd rfl hunreadable
    | short =>
      refine (ends_short fuel h hk hc₁ hf₁ hstay hhalt).mono ?_ fun _ _ h => h.elim
      rintro r w' ⟨rfl, hended⟩
      exact hended
    | home => exact (ends_home fuel h hk hc₁ hf₁ hstay hhalt).mono (fun _ _ h => h.elim) fun _ _ h => h

/-! ## The loop -/

/-- After the last sector the open part is closed and 0 returned. -/
theorem ends_last (fuel : Nat) (h : j.At j.sectors w) :
    Imp.Ends (dumpRound j.env fuel (some .localId) j.size ()) w
      (fun r w' => match r with
        | .next _ => False
        | .done a => j.Ended (.ok a w'))
      fun _ _ => False := by
  have hrem : ¬ w.frame.remaining.toNat > 0 := by
    have := mt j.lt_sectors.2 (Nat.lt_irrefl j.sectors)
    rw [h.counters.remaining]
    omega
  obtain ⟨w₁, hclose, hframe, hc₁⟩ := close_before_open h.core h.counters
  have hc' := (hc₁.log .free).log (.print "Dump complete after %d minutes!" [.minutes])
  rw [Point.note_note] at hc'
  have hrun : (dumpRound j.env fuel (some .localId) j.size ()).run w =
      .ok (.done 0) ((w₁.log .free).log (.print "Dump complete after %d minutes!" [.minutes])) := by
    unfold dumpRound finish free Logger.print
    rw [Imp.run_bind_ok (run_get w), if_neg hrem]
    simp only [bind_assoc]
    rw [Imp.run_bind_ok (run_get w), Imp.run_bind_ok hclose, Imp.run_bind_ok (run_emit _ _),
      Imp.run_bind_ok (run_emit _ _)]
    rfl
  rw [Imp.ends_of_ok hrun]
  refine .finished h.before hc' ?_
  have hoff := h.counters.offset
  have := mt j.lt_sectors.2 (Nat.lt_irrefl j.sectors)
  apply UInt64.toNat_inj.1
  show w₁.frame.offset.toNat = _
  rw [hframe, hoff]
  omega

/-- The loop of `dump`, from any of its rounds on. -/
theorem ended_loop (fuel : Nat) {n : Nat} (h : j.At k w) (hn : w.frame.remaining.toNat < n) :
    Imp.Ends (Imp.loop .spin (dumpRound j.env fuel (some .localId) j.size) n ()) w
      (fun a w' => j.Ended (.ok a w')) fun st w' => j.Ended (.error st w') := by
  refine Imp.ends_loop_lt (I := fun _ w => ∃ k, j.At k w) (fun _ w => w.frame.remaining.toNat) ?_ n ⟨k, h⟩ hn
  rintro _ w ⟨k, h⟩
  rcases Nat.lt_or_eq_of_le h.le with hk | rfl
  · refine (ends_round fuel h hk).mono (fun r w' hr => ?_) fun _ _ h => h
    cases r with
    | done a => exact hr
    | next _ =>
      have hpos := j.lt_sectors.1 hk
      refine ⟨⟨k + 1, hr⟩, ?_⟩
      rw [hr.counters.remaining, h.counters.remaining]
      rw [sectorSize_eq] at hpos ⊢
      omega
  · refine (ends_last fuel h).mono (fun r w' hr => ?_) fun _ _ h => h.elim
    cases r with
    | done a => exact hr
    | next _ => exact hr.elim

/-- The loop entered by a dump from `w`. -/
def enter (e : Env) (w : World) (size : UInt64) : Job where
  env := e
  start := { w.logs [.memalign true, .print "Taking a dump..." [], .print "Dumped 0 bytes" []] with
    frame := ⟨none, 0, 1, 0, size, 0⟩ }
  size := size

variable {e : Env} {size : UInt64}

theorem at_enter : (enter e w size).At 0 (enter e w size).start where
  core := {
    streams := by simp [streams, enter, point, Rollover.Log.empty]
    trace := by simp [point]
    buffer := rfl
    id := rfl
    readCmd := rfl
    cancelOnError := rfl
    prior := rfl
    errorCount := by simp [point]
    samples := rfl
    writes := rfl
    tried := by simp [point] }
  counters := {
    offset := by simp [enter]
    remaining := by simp [enter]
    lba := fun _ => by simp [enter]
    fp := rfl
    chunkOffset := fun c hc => by cases hc
    chunkIndex := rfl }
  le := Nat.zero_le _
  before := fun _ hs => absurd hs (Nat.not_lt_zero _)

/-- A dump with a buffer runs its loop from the job entered. -/
theorem run_dump_enter (fuel : Nat) (w : World) (diskType : Int) (size : UInt64) (hmem : e.memalign = true) :
    (dump e fuel (some .localId) diskType size).run w =
      (Imp.loop .spin (dumpRound e fuel (some .localId) size) (size.toNat + 1) ()).run (enter e w size).start := by
  have hmemalign : (memalign e).run w = .ok true (w.log (.memalign true)) := by
    unfold memalign
    rw [Imp.run_bind_ok (run_emit _ w), hmem]
    rfl
  unfold dump Logger.print enter
  rw [Imp.run_bind_ok hmemalign, if_pos rfl, Imp.run_bind_ok (run_setFrame _ _), Imp.run_bind_ok (run_emit _ _),
    Imp.run_bind_ok (run_emit _ _)]
  simp only [World.log, World.logs, List.append_assoc, List.cons_append, List.nil_append, List.map_cons, List.map_nil]

/-- A dump goes on from every round it reaches. -/
theorem run_dump_of_rounds {fuel : Nat} {v : World} (hmem : e.memalign = true) (diskType : Int)
    (h : Imp.Rounds (dumpRound e fuel (some .localId) size) () (enter e w size).start k () v) {m : Nat}
    (hm : k + m = size.toNat + 1) : (dump e fuel (some .localId) diskType size).run w =
      (Imp.loop .spin (dumpRound e fuel (some .localId) size) m ()).run v := by
  rw [run_dump_enter fuel w diskType size hmem, ← hm, h.run]

/-- A dump reaches the round of every sector before which nothing stops it. -/
theorem rounds_point (fuel : Nat) (hk : k ≤ (enter e w size).sectors)
    (hpre : ∀ s < k, (enter e w size).halt s = none) : ∃ v, (enter e w size).At k v ∧
      Imp.Rounds (dumpRound e fuel (some .localId) size) () (enter e w size).start k () v := by
  induction k with
  | zero => exact ⟨_, at_enter, .zero⟩
  | succ k ih =>
    obtain ⟨v, hat, hrounds⟩ := ih (Nat.le_of_succ_le hk) fun s hs => hpre s (Nat.lt_succ_of_lt hs)
    obtain ⟨v', hrun, hat'⟩ := round_pass fuel hat hk (hpre k (Nat.lt_succ_self k))
    exact ⟨v', hat', hrounds.succ hrun⟩

/-- **Every run of `dump`** does all sectors, or stops at the first one where it has to. -/
theorem ended_dump (fuel : Nat) (w : World) (diskType : Int) (size : UInt64) (hmem : e.memalign = true) :
    (enter e w size).Ended ((dump e fuel (some .localId) diskType size).run w) := by
  have hloop := ended_loop fuel (at_enter (e := e) (w := w)) (Nat.lt_succ_self size.toNat)
  rw [run_dump_enter fuel w diskType size hmem]
  exact (Imp.ends_result (P := (enter e w size).Ended)).1 hloop

/-- Without a buffer nothing is done. -/
theorem run_dump_memalign (fuel : Nat) (hmem : e.memalign = false) (disk : Option Region) (diskType : Int) :
    (dump e fuel disk diskType size).run w =
      .ok 1 ((w.log (.memalign false)).log (.print "Failed to allocate buffer." [])) := by
  have hmemalign : (memalign e).run w = .ok false (w.log (.memalign false)) := by
    unfold memalign
    rw [Imp.run_bind_ok (run_emit _ w), hmem]
    rfl
  unfold dump Logger.print
  rw [Imp.run_bind_ok hmemalign, if_neg Bool.false_ne_true, Imp.run_bind_ok (run_emit _ _)]
  rfl

/-- A dump that returned 0 did all sectors. -/
theorem finished_of_return {diskType : Int} {fuel : Nat} {w' : World}
    (hrun : (dump e fuel (some .localId) diskType size).run w = .ok 0 w') :
    (∀ s < (enter e w size).sectors, (enter e w size).halt s = none) ∧
      (enter e w size).Core ((enter e w size).finished ((enter e w size).point (enter e w size).sectors)) w' := by
  cases hmem : e.memalign with
  | false =>
    rw [run_dump_memalign fuel hmem] at hrun
    cases hrun
  | true =>
    have hended := ended_dump fuel w diskType size hmem
    rw [hrun] at hended
    cases hended with
    | finished hall hc _ => exact ⟨hall, hc⟩

end Job

end TakeADump
