import TakeADump.Dump.Copy

/-!
# Where the copy stands after `s` sectors

* `point_log`: its parts are the data of the first `s` sectors, rolled over at `CHUNK_SIZE`.
* `filled_point`, `ready_point`: all parts but the last are full, and a part with room for a whole sector is open when
  a sector is written.
* `data_of_readable`, `data_of_not_readable`: the data of a sector is the disc's, or zeros.
-/

namespace TakeADump

open Rollover (Log Filled Aligned Ready)

namespace Job

variable (j : Job)

/-! ## Counts -/

@[simp] theorem settle_done (p : Point) : (j.settle p).done = p.done := by unfold settle; split <;> rfl

@[simp] theorem settle_read (p : Point) : (j.settle p).read = p.read := by unfold settle; split <;> rfl

@[simp] theorem settle_writes (p : Point) : (j.settle p).writes = p.writes := by unfold settle; split <;> rfl

@[simp] theorem settle_samples (p : Point) : (j.settle p).samples = p.samples := by unfold settle; split <;> rfl

@[simp] theorem settle_log (p : Point) : (j.settle p).log = p.log := by unfold settle; split <;> rfl

/-- All counts of the copy go up by one a round. -/
theorem point_counts (s : Nat) :
    (j.point s).done = s ∧ (j.point s).read = s ∧ (j.point s).writes = s ∧ (j.point s).samples = s := by
  induction s with
  | zero => exact ⟨rfl, rfl, rfl, rfl⟩
  | succ s ih =>
    obtain ⟨hd, hr, hw, hs⟩ := ih
    simp [point, next, advance, writeStep, readyToWrite, readStep, roll, hd, hr, hw, hs]

@[simp] theorem point_done (s : Nat) : (j.point s).done = s := (j.point_counts s).1

@[simp] theorem point_read (s : Nat) : (j.point s).read = s := (j.point_counts s).2.1

@[simp] theorem point_writes (s : Nat) : (j.point s).writes = s := (j.point_counts s).2.2.1

@[simp] theorem point_samples (s : Nat) : (j.point s).samples = s := (j.point_counts s).2.2.2

/-! ## Parts -/

theorem log_readyToWrite (p : Point) : (j.readyToWrite p).log = p.log.roll chunkSize := by
  simp [readyToWrite, readStep, roll]

@[simp] theorem done_readyToWrite (p : Point) : (j.readyToWrite p).done = p.done := by
  simp [readyToWrite, readStep, roll]

@[simp] theorem length_data (s : Nat) : (j.data s).length = j.len s := by simp [data, sector]

/-- **The parts** of the copy are the data of the sectors done, rolled over. -/
theorem point_log (s : Nat) : (j.point s).log = Log.ofRecords chunkSize ((List.range s).map j.data) := by
  induction s with
  | zero => rfl
  | succ s ih =>
    rw [List.range_succ, List.map_append, List.map_singleton, Log.ofRecords_snoc, ← ih]
    show ((j.readyToWrite (j.point s)).log.append _) = _
    rw [log_readyToWrite, data, sector, done_readyToWrite]

/-- The bytes written when `s` sectors are done. -/
theorem point_all (s : Nat) : (j.point s).log.all = ((List.range s).map j.data).flatten := by
  rw [point_log, Log.all_ofRecords]

/-- Every sector but the last is whole. -/
theorem len_eq {s : Nat} (h : s + 1 < j.sectors) : j.len s = sectorSize := by
  have hlt := j.lt_sectors.1 h
  unfold len
  rw [sectorSize_eq] at hlt ⊢
  omega

theorem len_pos {s : Nat} (h : s < j.sectors) : 0 < j.len s := by
  have hlt := j.lt_sectors.1 h
  unfold len
  rw [sectorSize_eq] at hlt ⊢
  omega

theorem sectorSize_dvd_chunkSize : sectorSize ∣ chunkSize := ⟨1048576, rfl⟩

/-- Before the last sector is done the parts are filled with whole sectors. -/
theorem whole_point {s : Nat} (h : s < j.sectors) :
    Filled chunkSize (j.point s).log ∧ Aligned sectorSize (j.point s).log := by
  rw [point_log]
  refine Rollover.filled_ofRecords sectorSize_dvd_chunkSize chunkSize_pos sectorSize_pos fun x hx => ?_
  obtain ⟨r, hr, rfl⟩ := List.mem_map.1 hx
  have := List.mem_range.1 hr
  rw [length_data, len_eq j (by omega)]

/-- When a sector is written, a part with room for it is open. -/
theorem ready_point {s : Nat} (h : s < j.sectors) : Ready chunkSize sectorSize ((j.point s).log.roll chunkSize) :=
  (j.whole_point h).1.ready (j.whole_point h).2 sectorSize_dvd_chunkSize chunkSize_pos

theorem point_succ_log (s : Nat) : (j.point (s + 1)).log = ((j.point s).log.roll chunkSize).append (j.data s) := by
  rw [point_log, point_log, List.range_succ, List.map_append, List.map_singleton, Log.ofRecords_snoc]

/-- All parts but the last are full. -/
theorem filled_point {s : Nat} (h : s ≤ j.sectors) : Filled chunkSize (j.point s).log := by
  cases s with
  | zero => exact Rollover.filled_empty
  | succ s =>
    rw [point_succ_log]
    apply (j.ready_point h).filled_append
    · rw [length_data]
      exact j.len_pos h
    · rw [length_data]
      exact j.len_le s

theorem point_succ_all (s : Nat) : (j.point (s + 1)).log.all = (j.point s).log.all ++ j.data s := by
  simp [point_all, List.range_succ]

/-- The bytes written so far. -/
theorem length_point_all (s : Nat) : (j.point s).log.all.length = min (sectorSize * s) j.size.toNat := by
  induction s with
  | zero => rw [point_all, Nat.mul_zero, Nat.zero_min, List.range_zero, List.map_nil, List.flatten_nil, List.length_nil]
  | succ s ih =>
    rw [point_succ_all, List.length_append, ih, length_data, len]
    rw [sectorSize_eq]
    omega

/-- What is written is a prefix of the image. -/
theorem point_all_prefix {s t : Nat} (h : s ≤ t) : (j.point s).log.all <+: (j.point t).log.all := by
  obtain ⟨d, rfl⟩ := Nat.exists_eq_add_of_le h
  rw [point_all, point_all, List.range_add, List.map_append, List.flatten_append]
  exact List.prefix_append _ _

theorem image_eq : j.image = (j.point j.sectors).log.all := (j.point_all _).symm

theorem length_image : j.image.length = j.size.toNat := by
  have hsec := sectorSize_eq
  have hsectors : j.sectors = (j.size.toNat + (sectorSize - 1)) / sectorSize := rfl
  rw [image_eq, length_point_all]
  rw [hsec] at hsectors ⊢
  omega

/-- The data of a sector at its place in the image. -/
theorem getElem?_image {s i : Nat} (hs : s < j.sectors) (hi : i < j.len s) :
    j.image[sectorSize * s + i]? = (j.data s)[i]? := by
  have hlt := j.lt_sectors.1 hs
  have hlen := j.length_point_all s
  rw [Nat.min_eq_left (Nat.le_of_lt hlt)] at hlen
  obtain ⟨rest, hrest⟩ := j.point_all_prefix hs
  rw [image_eq, ← hrest, point_succ_all, List.append_assoc, List.getElem?_append_right (by omega), hlen,
    Nat.add_sub_cancel_left, List.getElem?_append_left (by rw [length_data]; exact hi)]

/-! ## Trace -/

/-- What settling sector `s` leaves in the trace. -/
def settleEvents (s : Nat) : List Event := if j.readable s then [] else [errorReport s, .memset (j.len s)]

/-- What an undisturbed round leaves in the trace. -/
def roundEvents (s : Nat) : List Event :=
  .moveUp :: (j.rollEvents (j.point s).log ++ j.readEvents s ++ j.settleEvents s ++
    [.fwrite (some (j.base + ((j.point s).log.roll chunkSize).full.length)) (j.len s) (j.len s),
      j.progress { j.writeStep (j.len s) (j.readyToWrite (j.point s)) with done := s + 1 },
      .sample (j.env.pad (j.start.samples + s))])

theorem trace_readyToWrite (s : Nat) : (j.readyToWrite (j.point s)).trace =
    (j.point s).trace ++ .moveUp :: (j.rollEvents (j.point s).log ++ j.readEvents s ++ j.settleEvents s) := by
  have hdone : (j.readStep (j.roll (j.point s))).done = s := j.point_done s
  unfold readyToWrite settle settleEvents
  rw [hdone]
  split <;> simp [readStep, roll]

theorem point_succ_trace (s : Nat) : (j.point (s + 1)).trace = (j.point s).trace ++ j.roundEvents s := by
  have hsamples : (j.readyToWrite (j.point s)).samples = s := by simp [readyToWrite, readStep, roll]
  have hlog : (j.readyToWrite (j.point s)).log = (j.point s).log.roll chunkSize := j.log_readyToWrite _
  rw [point, next, advance, writeStep]
  simp only [point_done, done_readyToWrite, trace_readyToWrite, hsamples, hlog, roundEvents, List.append_assoc,
    List.cons_append, List.nil_append]
  rfl

theorem point_trace (s : Nat) : (j.point s).trace = (List.range s).flatMap j.roundEvents := by
  induction s with
  | zero => rfl
  | succ s ih => rw [point_succ_trace, ih, List.range_succ, List.flatMap_append, List.flatMap_singleton]

/-! ## Data -/

theorem mem_readyToWrite (p : Point) : (j.readyToWrite p).mem =
    if j.readable p.done then j.filled p.done p.mem (j.tries p.done)
    else fun i => if i < j.len p.done then 0 else j.filled p.done p.mem (j.tries p.done) i := by
  unfold readyToWrite settle
  split <;> simp_all [readStep, roll]

/-- A sector that could not be read is zeros. -/
theorem data_of_not_readable {s : Nat} (h : j.readable s = false) : j.data s = List.replicate (j.len s) 0 := by
  rw [data, sector, done_readyToWrite, mem_readyToWrite, point_done, h]
  refine List.ext_getElem (by simp) fun i hi _ => ?_
  simp only [bytesAt, List.length_map, List.length_range] at hi
  simp [bytesAt, hi]

/-- A sector out of reach is not tried; any other is tried up to the first success. -/
theorem tries_eq (s : Nat) : j.tries s = 0 ∧ j.readable s = false ∨
    addressable s = true ∧ ∃ n, j.tries s = n + 1 ∧ (j.attempt s n).isOk = j.readable s := by
  unfold tries readable
  cases ha : addressable s with
  | false => exact Or.inl ⟨rfl, rfl⟩
  | true =>
    have hpos := Imp.tries_pos (o := fun t => (j.attempt s t).isOk) (n := 3) (by omega)
    have hlast := Imp.last_tries (fun t => (j.attempt s t).isOk) 2
    refine Or.inr ⟨rfl, _, ?_, hlast⟩
    rw [if_pos rfl]
    exact (Nat.succ_pred_eq_of_pos hpos).symm

/-- After its tries, a sector that was read stands in the buffer. -/
theorem filled_of_readable {s : Nat} (h : j.readable s = true)
    (hwhole : j.start.readCmd ≠ dvdDvdr ∨ sectorSize ∣ j.len s) (mem : Nat → UInt8) {i : Nat} (hi : i < j.len s) :
    j.filled s mem (j.tries s) i = j.env.disc (sectorSize * s + i) := by
  obtain ⟨ha, n, hn, hlast⟩ := (j.tries_eq s).resolve_left fun hno => by simp [h] at hno
  rw [h] at hlast
  rw [hn, filled]
  cases hatt : j.attempt s n with
  | err junk => rw [hatt] at hlast; cases hlast
  | ok =>
    have hlen : i < min (j.request s).range.length (j.request s).count.toNat := by
      rw [show (j.request s).count = UInt32.ofNat (j.len s) from rfl, j.toNat_len, j.range_request ha]
      refine Nat.lt_min.2 ⟨?_, hi⟩
      split
      · rename_i hc
        show i < j.len s / sectorSize * sectorSize
        rwa [Nat.div_mul_cancel (hwhole.resolve_left (not_not.2 hc))]
      · exact hi
    have hstart : (j.request s).range.start = sectorSize * s := by
      rw [j.range_request ha]
      split <;> rfl
    simp only [Attempt.fill, if_pos hlen, hstart]

/-- A sector that was read is the disc's. -/
theorem data_of_readable {s : Nat} (h : j.readable s = true)
    (hwhole : j.start.readCmd ≠ dvdDvdr ∨ sectorSize ∣ j.len s) :
    j.data s = bytesAt (fun i => j.env.disc (sectorSize * s + i)) (j.len s) := by
  rw [data, sector, done_readyToWrite, mem_readyToWrite, point_done, if_pos h]
  refine List.ext_getElem (by simp) fun i hi _ => ?_
  simp only [bytesAt, List.length_map, List.length_range] at hi
  simp [bytesAt, j.filled_of_readable h hwhole _ hi]

end Job

end TakeADump
