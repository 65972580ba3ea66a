import TakeADump.Drive.Read
import TakeADump.Lib.Rollover
import TakeADump.Model.Dump

/-!
# Copying a disc, abstractly

A `Job` is a dump seen from the moment its loop is entered. What the dump does to sector `s` depends on the job alone:
the command it issues (`Job.request`), the tries it makes (`Job.tries`), whether one of them succeeds
(`Job.readable`). A `Point` is the state of the copy between two statements of the loop; the five steps of the body
(`roll`, `read`, `settle`, `write`, `advance`) move it, and `Job.point s` is where a copy stands that has done `s`
sectors without stopping. `Stages.lean` proves that the loop follows these points.

`Image.lean` says what a point holds: its parts are `Job.data` of the sectors done, rolled over at `CHUNK_SIZE`
(`point_log`), where the data of a sector are the disc's bytes if it was read (`data_of_readable`) and zeros otherwise
(`data_of_not_readable`).
-/

namespace TakeADump

open Rollover (Log)

/-- The image position of sector `s`. -/
def sectorOffset (s : Nat) : UInt64 := UInt64.ofNat (sectorSize * s)

/-- `DVD_LowRead64` does not reject sector `s`. -/
def addressable (s : Nat) : Bool := sectorSize * s < 2 ^ 34

/-- The line about an unreadable sector. -/
def errorReport (s : Nat) : Event := .print "Error reading disk at offset 0x%08llX." [.u64 (sectorOffset s)]

structure Job where
  env : Env
  start : World
  size : UInt64

/-- The state of the copy: the sectors done, the sectors read, the samples and the writes made, the parts, the buffer,
the unreadable sectors counted and the trace since the start. -/
structure Point where
  done : Nat
  read : Nat
  writes : Nat
  samples : Nat
  log : Log UInt8
  mem : Nat → UInt8
  errors : Nat
  trace : List Event

/-- More in the trace. -/
def Point.note (p : Point) (evs : List Event) : Point := { p with trace := p.trace ++ evs }

@[simp] theorem Point.note_note (p : Point) (a b : List Event) : (p.note a).note b = p.note (a ++ b) := by
  simp [Point.note]

namespace Job

variable (j : Job)

/-! ## Sectors -/

/-- The sectors of the disc, a last one possibly partial. -/
def sectors : Nat := (j.size.toNat + (sectorSize - 1)) / sectorSize

/-- The bytes of sector `s`. -/
def len (s : Nat) : Nat := min sectorSize (j.size.toNat - sectorSize * s)

/-- The command for sector `s`. -/
def request (s : Nat) : Request := readRequest j.env .buffer (UInt32.ofNat (j.len s)) (sectorOffset s) j.start.readCmd

/-- Try `t` of sector `s`. -/
def attempt (s t : Nat) : Attempt := j.env.attempt (j.request s).range (j.start.tried (j.request s).range + t)

/-- The tries made on sector `s`. -/
def tries (s : Nat) : Nat := if addressable s then Imp.tries (fun t => (j.attempt s t).isOk) 3 else 0

/-- One of the tries on sector `s` succeeds. -/
def readable (s : Nat) : Bool := addressable s && Imp.hit (fun t => (j.attempt s t).isOk) 3

/-- The buffer after `n` tries of sector `s`. -/
def filled (s : Nat) (mem : Nat → UInt8) : Nat → Nat → UInt8
  | 0 => mem
  | n + 1 => (j.attempt s n).fill j.env.disc (j.request s) (filled s mem n)

/-- What the tries of sector `s` leave in the trace. -/
def readEvents (s : Nat) : List Event :=
  (List.range (j.tries s)).flatMap fun t =>
    [.request (j.request s), .dcInvalidate .buffer (j.len s), .finished (j.attempt s t).isOk]

theorem mem_readEvents {s : Nat} {ev : Event} (h : ev ∈ j.readEvents s) :
    ev = .request (j.request s) ∨ ev = .dcInvalidate .buffer (j.len s) ∨ ∃ ok, ev = .finished ok := by
  obtain ⟨t, -, ht⟩ := List.mem_flatMap.1 h
  simp only [List.mem_cons, List.not_mem_nil, or_false] at ht
  rcases ht with rfl | rfl | rfl
  · exact Or.inl rfl
  · exact Or.inr (Or.inl rfl)
  · exact Or.inr (Or.inr ⟨_, rfl⟩)

/-! ## Parts -/

/-- The streams opened before. -/
def base : Nat := j.start.streams.length

/-- The name of the part opened when `i` were opened before. -/
def name (i : Nat) : Bytes := partName (j.start.mem .localId) (Int32.ofNat (i + 1))

def closedStream (i : Nat) (data : Bytes) : Stream := ⟨j.name i, data, some (kept j.env (j.base + i) data)⟩

def openStream (i : Nat) (data : Bytes) : Stream := ⟨j.name i, data, none⟩

/-- The streams of a log. -/
def streams (l : Log UInt8) : List Stream :=
  j.start.streams ++ l.full.mapIdx j.closedStream ++ (l.cur.map (j.openStream l.full.length)).toList

/-- What rolling over leaves in the trace before the new part is opened. -/
def closeEvents (l : Log UInt8) : List Event :=
  match l.cur with
  | none => []
  | some _ => [.fclose (some (j.base + l.full.length))]

def rollEvents (l : Log UInt8) : List Event :=
  if l.needsPart chunkSize then j.closeEvents l ++ [.fopen (j.name l.parts.length) true] else []

theorem mem_closeEvents {l : Log UInt8} {ev : Event} (h : ev ∈ j.closeEvents l) : ∃ fp, ev = .fclose fp := by
  unfold closeEvents at h
  split at h
  · cases h
  · exact ⟨_, List.mem_singleton.1 h⟩

theorem mem_rollEvents {l : Log UInt8} {ev : Event} (h : ev ∈ j.rollEvents l) :
    (∃ fp, ev = .fclose fp) ∨ ∃ name, ev = .fopen name true := by
  unfold rollEvents at h
  split at h
  · rcases List.mem_append.1 h with h | h
    · exact Or.inl (j.mem_closeEvents h)
    · exact Or.inr ⟨_, List.mem_singleton.1 h⟩
  · cases h

/-! ## Steps -/

def roll (p : Point) : Point :=
  { p with log := p.log.roll chunkSize, trace := p.trace ++ .moveUp :: j.rollEvents p.log }

def readStep (p : Point) : Point :=
  { p with
    read := p.read + 1
    mem := j.filled p.done p.mem (j.tries p.done)
    trace := p.trace ++ j.readEvents p.done }

def settle (p : Point) : Point :=
  if j.readable p.done then p
  else { p with
    errors := p.errors + 1
    mem := fun i => if i < j.len p.done then 0 else p.mem i
    trace := p.trace ++ [errorReport p.done, .memset (j.len p.done)] }

/-- The bytes `fwrite` is given for sector `p.done`. -/
def sector (p : Point) : Bytes := bytesAt p.mem (j.len p.done)

/-- A write of which `n` bytes are accepted. -/
def writeStep (n : Nat) (p : Point) : Point :=
  { p with
    writes := p.writes + 1
    log := p.log.append (bytesAt p.mem n)
    trace := p.trace ++ [.fwrite (some (j.base + p.log.full.length)) (j.len p.done) n] }

def progress (p : Point) : Event :=
  .print "Dumped %.2f MB / %.2f MB (%d%%) (%d errors)"
    [.megabytes (UInt64.ofNat (min (sectorSize * p.done) j.size.toNat)), .megabytes j.size,
      .percent (UInt64.ofNat (min (sectorSize * p.done) j.size.toNat)) j.size, .int (j.start.errorCount + p.errors)]

def advance (p : Point) : Point :=
  let q := { p with done := p.done + 1 }
  { q with
    samples := p.samples + 1
    trace := p.trace ++ [j.progress q, .sample (j.env.pad (j.start.samples + p.samples))] }

/-- Where the body of the loop is just before `fwrite`. -/
def readyToWrite (p : Point) : Point := j.settle (j.readStep (j.roll p))

/-- The open part, if any, is closed. -/
def closeStep (p : Point) : Point := { p with log := p.log.closed, trace := p.trace ++ j.closeEvents p.log }

@[simp] theorem parts_closeStep (p : Point) : (j.closeStep p).log.parts = p.log.parts := Log.parts_closed p.log

/-- What a refused part leaves in the trace. -/
def refusedEvents (i : Nat) : List Event :=
  [.fopen (j.name i) false, .newline, .print "Failed to create file: %s" [.chars (j.name i)], .free]

/-- The copy when only `m` bytes of the sector were accepted. -/
def cutShort (m : Nat) (p : Point) : Point :=
  (j.closeStep ((j.writeStep m p).note [.print "Error writing file. Bytes written: %d. Bytes expected: %d."
    [.int m, .u32 (UInt32.ofNat (j.len p.done))]])).note [.free]

/-- The copy when HOME is held: it leaves. -/
def left (p : Point) : Point := (j.advance p).note [.print "Exiting with code %02d..." [.int 0], .exit 0]

/-- The copy when the last sector is done. -/
def finished (p : Point) : Point := (j.closeStep p).note [.free, .print "Dump complete after %d minutes!" [.minutes]]

/-- One undisturbed round. -/
def next (p : Point) : Point := j.advance (j.writeStep (j.len p.done) (j.readyToWrite p))

/-- The copy with `s` sectors done. -/
def point : Nat → Point
  | 0 => ⟨0, 0, 0, 0, Log.empty, j.start.mem .buffer, 0, []⟩
  | s + 1 => j.next (point s)

/-- What is written for sector `s`. -/
def data (s : Nat) : Bytes := j.sector (j.readyToWrite (j.point s))

/-- What is written for all sectors. -/
def image : Bytes := ((List.range j.sectors).map j.data).flatten

/-! ## Lengths and ranges -/

theorem len_le (s : Nat) : j.len s ≤ sectorSize := Nat.min_le_left _ _

theorem toNat_len (s : Nat) : (UInt32.ofNat (j.len s)).toNat = j.len s := by
  have hle := j.len_le s
  have hsec := sectorSize_eq
  rw [UInt32.toNat_ofNat']
  exact Nat.mod_eq_of_lt (by omega)

/-- A sector is done iff its first byte is before the end. -/
theorem lt_sectors {s : Nat} : s < j.sectors ↔ sectorSize * s < j.size.toNat := by
  rw [sectors, sectorSize_eq]
  omega

theorem toNat_sectorOffset {s : Nat} (h : sectorSize * s < 2 ^ 64) : (sectorOffset s).toNat = sectorSize * s := by
  rw [sectorOffset, UInt64.toNat_ofNat']
  exact Nat.mod_eq_of_lt h

theorem addressable_iff {s : Nat} : addressable s = true ↔ sectorSize * s < 2 ^ 34 := by simp [addressable]

/-- The range commanded for a sector: whole sectors only for `DVD_DVDR`. -/
theorem range_request {s : Nat} (h : addressable s = true) : (j.request s).range =
    if j.start.readCmd = dvdDvdr then ⟨sectorSize * s, j.len s / sectorSize * sectorSize⟩
    else ⟨sectorSize * s, j.len s⟩ := by
  have hs : sectorSize * s < 2 ^ 34 := addressable_iff.1 h
  have hoff := toNat_sectorOffset (s := s) (by omega)
  have hlen := j.toNat_len s
  rw [sectorSize_eq] at hs hoff
  by_cases hc : j.start.readCmd = dvdDvdr
  · simp only [request, readRequest, Request.range, hc, ↓reduceIte]
    simp [UInt64.toNat_shiftRight, hoff, hlen, Nat.shiftRight_eq_div_pow, sectorSize_eq]
    omega
  · simp only [request, readRequest, Request.range, hc, ↓reduceIte]
    simp [UInt64.toNat_shiftRight, hoff, hlen, Nat.shiftRight_eq_div_pow, sectorSize_eq]
    omega

/-- Every sector that ends before the end of the disc is whole. -/
theorem len_whole {s : Nat} (hs : s < j.size.toNat / sectorSize) : j.len s = sectorSize := by
  unfold len
  rw [sectorSize_eq] at hs ⊢
  omega

/-- A whole sector is commanded as it is. -/
theorem range_whole {s : Nat} (h : addressable s = true) (hs : s < j.size.toNat / sectorSize) :
    (j.request s).range = ⟨sectorSize * s, sectorSize⟩ := by
  rw [range_request _ h, len_whole j hs]
  split <;> rfl

/-- Different sectors are read with different commands. -/
theorem range_request_inj {s t : Nat} (hs : addressable s = true) (ht : addressable t = true)
    (h : (j.request s).range = (j.request t).range) : s = t := by
  rw [j.range_request hs, j.range_request ht] at h
  have hstart : sectorSize * s = sectorSize * t := by
    split at h
    · exact congrArg Range.start h
    · exact congrArg Range.start h
  rw [sectorSize_eq] at hstart
  omega

end Job

end TakeADump
