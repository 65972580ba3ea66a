import TakeADump.Dump.Fidelity

/-!
# Interrupted dumps

The image of a dump does not depend on where the dump is stopped: it is what the same dump writes in
`Env.uninterrupted`, where every file opens, every byte is accepted and HOME is never held, with errors tolerated.
`Ended.piece`: however a dump ends, its parts are a piece of that image from the start, all but the last one full, and
`offset` is at most a sector behind them.
-/

namespace TakeADump

open Rollover (Log)

/-- The same disc and drive, with nothing to stop a dump that tolerates errors. -/
def Env.uninterrupted (e : Env) : Env :=
  { e with fopen := fun _ => true, fwrite := fun _ => none, pad := fun _ => 0 }

/-- The same world, with errors tolerated. -/
def World.tolerant (w : World) : World := { w with cancelOnError := false }

/-- The files of the parts `1`, `2`, ... opened since `w`, as far as `fwrite` accepted them. -/
def World.indexedParts (w w' : World) : List Bytes :=
  (List.range (w.opened w').length).map fun i =>
    (w'.writtenFile (partName (w.mem .localId) (Int32.ofNat (i + 1)))).getD []

namespace Job

/-! ## The image -/

section Uninterrupted

variable (e : Env) (w : World) (size : UInt64)

theorem mem_point_succ (j : Job) (s : Nat) : (j.point (s + 1)).mem = (j.readyToWrite (j.point s)).mem := rfl

theorem filled_uninterrupted (s : Nat) (mem : Nat → UInt8) (n : Nat) :
    (enter e.uninterrupted w.tolerant size).filled s mem n = (enter e w size).filled s mem n := by
  induction n with
  | zero => rfl
  | succ n ih =>
    rw [filled, filled, ih]
    rfl

theorem mem_uninterrupted (s : Nat) :
    ((enter e.uninterrupted w.tolerant size).point s).mem = ((enter e w size).point s).mem := by
  induction s with
  | zero => rfl
  | succ s ih =>
    simp only [mem_point_succ, mem_readyToWrite, point_done, ih, filled_uninterrupted]
    rfl

/-- What is written for a sector does not depend on files and buttons. -/
theorem image_uninterrupted : (enter e.uninterrupted w.tolerant size).image = (enter e w size).image := by
  have hdata : ∀ s, (enter e.uninterrupted w.tolerant size).data s = (enter e w size).data s := by
    intro s
    simp only [data, sector, done_readyToWrite, mem_readyToWrite, point_done, mem_uninterrupted, filled_uninterrupted]
    rfl
  rw [image, image, List.map_congr_left fun s _ => hdata s]
  rfl

end Uninterrupted

/-- The bytes of the image. -/
theorem image_byte (j : Job) {s i : Nat} (hi : i < sectorSize) (hlt : sectorSize * s + i < j.size.toNat)
    (hwhole : j.start.readCmd ≠ dvdDvdr ∨ sectorSize * (s + 1) ≤ j.size.toNat) :
    j.image[sectorSize * s + i]? = some (if j.readable s then j.env.disc (sectorSize * s + i) else 0) := by
  have hs : s < j.sectors := j.lt_sectors.2 (Nat.lt_of_le_of_lt (Nat.le_add_right _ i) hlt)
  have hlen : i < j.len s := Nat.lt_min.2 ⟨hi, Nat.lt_sub_of_add_lt (by rwa [Nat.add_comm])⟩
  rw [j.getElem?_image hs hlen]
  cases hr : j.readable s with
  | false =>
    rw [j.data_of_not_readable hr]
    simp [hlen]
  | true =>
    rw [j.data_of_readable hr (hwhole.imp_right fun hle => ⟨1, ?_⟩)]
    · rw [bytesAt, List.getElem?_map, List.getElem?_range hlen]
      rfl
    · rw [Nat.mul_one]
      exact Nat.min_eq_left (Nat.le_sub_of_add_le (by rwa [Nat.add_comm, ← Nat.mul_succ]))

/-! ## Pieces of the image -/

/-- Parts that are a piece of the image from the start, and `offset` at most a sector behind them. -/
structure Piece (j : Job) (l : Log UInt8) (offset : UInt64) : Prop where
  initial : l.all <+: j.image
  count : l.parts.length ≤ partCount j.size.toNat
  full : ∀ c ∈ l.parts.dropLast, c.length = chunkSize
  offset_le : offset.toNat ≤ l.all.length
  lt_offset : l.all.length < offset.toNat + sectorSize

variable {j : Job} {k : Nat}

theorem partCount_mono {a b : Nat} (h : a ≤ b) : partCount a ≤ partCount b :=
  Nat.div_le_div_right (by omega)

theorem length_parts_le (hk : k ≤ j.sectors) : (j.point k).log.parts.length ≤ partCount j.size.toNat := by
  rw [length_parts_point hk]
  exact partCount_mono (Nat.min_le_right _ _)

/-- A log that holds the data of the first sectors. -/
theorem piece_point (hk : k ≤ j.sectors) {offset : UInt64} (hoff : offset.toNat = min (sectorSize * k) j.size.toNat) :
    j.Piece (j.point k).log offset where
  initial := by
    rw [image_eq]
    exact j.point_all_prefix hk
  count := length_parts_le hk
  full := Rollover.length_of_mem_dropLast (j.filled_point hk).full (j.filled_point hk).none
  offset_le := by rw [length_point_all, hoff]
  lt_offset := by
    rw [length_point_all, hoff]
    exact Nat.lt_add_of_pos_right sectorSize_pos

theorem Piece.closed {l : Log UInt8} {offset : UInt64} (h : j.Piece l offset) : j.Piece l.closed offset where
  initial := by rw [Log.all_closed]; exact h.initial
  count := by rw [Log.parts_closed]; exact h.count
  full := by rw [Log.parts_closed]; exact h.full
  offset_le := by rw [Log.all_closed]; exact h.offset_le
  lt_offset := by rw [Log.all_closed]; exact h.lt_offset

theorem offset_point (hk : k < j.sectors) : (sectorOffset k).toNat = min (sectorSize * k) j.size.toNat := by
  have hlt := j.lt_sectors.1 hk
  have hsize := j.size.toNat_lt
  rw [toNat_sectorOffset (by omega), Nat.min_eq_left (Nat.le_of_lt hlt)]

/-- A log with part of the next sector. -/
theorem piece_taken (hk : k < j.sectors) {m : Nat} (hm : m < j.len k) :
    j.Piece (((j.point k).log.roll chunkSize).append ((j.data k).take m)) (sectorOffset k) := by
  obtain ⟨c, hcur, -, -⟩ := (j.ready_point hk).cur
  have hlen := j.length_point_all k
  have hle := j.len_le k
  have hoff := offset_point hk
  have hall : (((j.point k).log.roll chunkSize).append ((j.data k).take m)).all =
      (j.point k).log.all ++ (j.data k).take m := by rw [Log.all_append hcur, Log.all_roll]
  have hparts : (((j.point k).log.roll chunkSize).append ((j.data k).take m)).parts.length =
      (j.point (k + 1)).log.parts.length := by
    rw [point_succ_log, Log.length_parts_append, Log.length_parts_append]
  exact {
    initial := by
      rw [hall, image_eq]
      refine List.IsPrefix.trans ?_ (j.point_all_prefix hk)
      rw [point_succ_all, List.prefix_append_right_inj]
      exact List.take_prefix _ _
    count := by
      rw [hparts]
      exact length_parts_le hk
    full := by
      refine Rollover.length_of_mem_dropLast (j.ready_point hk).full fun hn => ?_
      rw [Log.append, hcur] at hn
      cases hn
    offset_le := by
      rw [hall, List.length_append, hlen, hoff]
      omega
    lt_offset := by
      rw [hall, List.length_append, List.length_take, length_data, hlen, hoff]
      omega }

/-- **However a dump ends**, its parts are a piece of the image. -/
theorem Ended.piece {r : EStateM.Result Stop World Int} (h : j.Ended r) :
    ∃ l n, j.Leaves l n (finalWorld r) ∧ j.Piece l (finalWorld r).frame.offset := by
  cases h with
  | finished _ hc hoff =>
    refine ⟨_, _, leaves_finished hc, (piece_point (Nat.le_refl _) ?_).closed⟩
    rw [min_sectors]
    exact congrArg UInt64.toNat hoff
  | @refused k w' hk _ _ hc hoff =>
    refine ⟨_, _, leaves_refused hc, (piece_point (Nat.le_of_lt hk) ?_).closed⟩
    rw [← offset_point hk]
    exact congrArg UInt64.toNat hoff
  | @unreadable k st w₁ w' hk _ _ _ hq hc hoff =>
    refine ⟨_, _, leaves_unreadable hc hq, ?_⟩
    obtain ⟨c, hcur, -, -⟩ := (j.ready_point hk).cur
    have hpiece := piece_taken hk (j.len_pos hk)
    rw [List.take_zero, Log.append_nil] at hpiece
    rw [show (finalWorld (.error st w')).frame.offset = sectorOffset k from hoff]
    exact hpiece
  | @short k w' hk _ hhalt hc hoff =>
    refine ⟨_, _, leaves_short hc, ?_⟩
    rw [show (finalWorld (.ok (-2) w')).frame.offset = sectorOffset k from hoff]
    exact (piece_taken hk (Nat.lt_of_le_of_ne (j.taken_le k) (j.halt_inv hhalt))).closed
  | @home k w' hk _ _ hc hoff => exact ⟨_, _, leaves_home hc, piece_point hk hoff⟩

end Job

/-! ## Failures -/

/-- A file that could not be opened, or bytes that were not accepted. -/
def Event.failure : Event → Bool
  | .fopen _ ok => !ok
  | .fwrite _ asked written => asked != written
  | _ => false

namespace Job

variable {j : Job} {k : Nat}

theorem failure_closeEvents (l : Log UInt8) : ∀ ev ∈ j.closeEvents l, ev.failure = false := by
  intro ev hev
  obtain ⟨fp, rfl⟩ := j.mem_closeEvents hev
  rfl

theorem failure_rollEvents (l : Log UInt8) : ∀ ev ∈ j.rollEvents l, ev.failure = false := by
  intro ev hev
  rcases j.mem_rollEvents hev with ⟨fp, rfl⟩ | ⟨name, rfl⟩ <;> rfl

/-- No round that goes on has a failure. -/
theorem failure_roundEvents (s : Nat) : ∀ ev ∈ j.roundEvents s, ev.failure = false := by
  intro ev hev
  rw [roundEvents, List.mem_cons, List.mem_append, List.mem_append, List.mem_append] at hev
  rcases hev with rfl | ((hev | hev) | hev) | hev
  · rfl
  · exact failure_rollEvents _ ev hev
  · rcases j.mem_readEvents hev with rfl | rfl | ⟨ok, rfl⟩ <;> rfl
  · unfold settleEvents errorReport at hev
    split at hev
    · cases hev
    · simp only [List.mem_cons, List.not_mem_nil, or_false] at hev
      rcases hev with rfl | rfl <;> rfl
  · simp only [List.mem_cons, List.not_mem_nil, or_false] at hev
    rcases hev with rfl | rfl | rfl
    · exact bne_self_eq_false _
    · rfl
    · rfl

theorem failure_finished : ∀ ev ∈ (j.finished (j.point k)).trace, ev.failure = false := by
  intro ev hev
  simp only [finished, Point.note, closeStep, List.mem_append] at hev
  rcases hev with (hev | hev) | hev
  · rw [point_trace] at hev
    obtain ⟨s, -, hs⟩ := List.mem_flatMap.1 hev
    exact failure_roundEvents s ev hs
  · exact failure_closeEvents _ ev hev
  · simp only [List.mem_cons, List.not_mem_nil, or_false] at hev
    rcases hev with rfl | rfl <;> rfl

/-- A dump that returns 0 met no failure. -/
theorem failure_of_return {e : Env} {w w' : World} {size : UInt64} (h : (enter e w size).Ended (.ok 0 w')) :
    ∀ ev ∈ w'.trace.drop w.trace.length, ev.failure = false := by
  intro ev hev
  cases h with
  | finished _ hc _ =>
    rw [hc.trace_enter, List.mem_append] at hev
    rcases hev with hev | hev
    · simp only [List.mem_cons, List.not_mem_nil, or_false] at hev
      rcases hev with rfl | rfl | rfl <;> rfl
    · exact failure_finished ev hev

/-- Part files by number are the part files in the order they were opened. -/
theorem Leaves.indexedParts_eq {e : Env} {w w' : World} {size : UInt64} {l : Log UInt8} {n : Nat}
    (h : (enter e w size).Leaves l n w') : w.indexedParts w' = w.partFiles w' := by
  have hname := h.name_opened (w := w) rfl
  have hlen : (w.opened w').length = l.parts.length := by
    rw [← List.length_map Stream.data, h.data_opened (w := w) rfl]
  calc w.indexedParts w'
      = ((List.range l.parts.length).map (enter e w size).name).map fun name => (w'.writtenFile name).getD [] := by
        rw [World.indexedParts, hlen, List.map_map]
        rfl
    _ = w.partFiles w' := by
        rw [← hname, List.map_map]
        rfl

/-- With distinct names, the part files of a piece are its parts. -/
theorem Leaves.indexedParts_of_piece {e : Env} {w w' : World} {size : UInt64} {l : Log UInt8} {n : Nat}
    {offset : UInt64} (h : (enter e w size).Leaves l n w') (hpiece : (enter e w size).Piece l offset)
    (hnames : DistinctParts (w.mem .localId) (partCount size.toNat)) : w.indexedParts w' = l.parts := by
  rw [h.indexedParts_eq, h.partFiles_eq (w := w) rfl
    (nodup_names (j := enter e w size) hnames hpiece.count)]

end Job

section Interrupted

variable (e : Env) (fuel : Nat) (w : World) (diskType : Int) (size : UInt64)

/-- The uninterrupted dump writes the image. -/
theorem run_uninterrupted (hmem : e.memalign = true)
    (hnames : DistinctParts (w.mem .localId) (partCount size.toNat)) :
    ∃ w₀, (dump e.uninterrupted fuel (some .localId) diskType size).run w.tolerant = .ok 0 w₀ ∧
      (w.tolerant.indexedParts w₀).flatten = (Job.enter e w size).image := by
  obtain ⟨w₀, hrun, hc, -⟩ := (Job.ended_dump fuel w.tolerant diskType size (e := e.uninterrupted) hmem).of_pass
    fun s hs => halt_enter _ _ _ (fun _ => rfl) (fun _ => rfl) (fun _ => UInt32.zero_and) hs (Or.inr rfl)
  refine ⟨w₀, hrun, ?_⟩
  rw [(Job.leaves_finished hc).indexedParts_eq, Job.partFiles_finished (w := w.tolerant) hc rfl hnames,
    Job.image_uninterrupted]

/-- **Every interrupted dump leaves a piece of the image.** The image is what the uninterrupted dump writes: the disc's
bytes for every sector that was read, zeros for the others. -/
theorem dump_interrupted (hmem : e.memalign = true)
    (hnames : DistinctParts (w.mem .localId) (partCount size.toNat)) :
    ∃ image : Bytes,
      (∃ w₀, (dump e.uninterrupted fuel (some .localId) diskType size).run w.tolerant = .ok 0 w₀ ∧
        (w.tolerant.indexedParts w₀).flatten = image) ∧
      image.length = size.toNat ∧
      (∀ s i, i < sectorSize → sectorSize * s + i < size.toNat →
        w.readCmd ≠ dvdDvdr ∨ sectorSize * (s + 1) ≤ size.toNat →
        image[sectorSize * s + i]? =
          some (if (Job.enter e w size).readable s then e.disc (sectorSize * s + i) else 0)) ∧
      let r := (dump e fuel (some .localId) diskType size).run w
      let w' := finalWorld r
      let parts := w.indexedParts w'
      parts.flatten <+: image ∧
        (∀ part ∈ parts.dropLast, part.length = 2 ^ 31) ∧
        w'.frame.offset.toNat ≤ parts.flatten.length ∧
        parts.flatten.length < w'.frame.offset.toNat + 2048 ∧
        ((∃ ev ∈ w'.trace.drop w.trace.length, ev.failure = true) → r ≠ .ok 0 w') := by
  refine ⟨(Job.enter e w size).image, run_uninterrupted e fuel w diskType size hmem hnames, Job.length_image _,
    fun s i hi hlt hwhole => Job.image_byte _ hi hlt hwhole, ?_⟩
  intro r w' parts
  have hended : (Job.enter e w size).Ended r := Job.ended_dump fuel w diskType size hmem
  obtain ⟨l, n, hleaves, hpiece⟩ := hended.piece
  have hparts : parts = l.parts := hleaves.indexedParts_of_piece hpiece hnames
  rw [hparts]
  refine ⟨hpiece.initial, hpiece.full, hpiece.offset_le, hpiece.lt_offset, ?_⟩
  rintro ⟨ev, hev, hfail⟩ hr
  have hnone : ∀ ev ∈ w'.trace.drop w.trace.length, ev.failure = false :=
    Job.failure_of_return (hr ▸ hended)
  rw [hnone ev hev] at hfail
  cases hfail

/-- A drive that accepts 100 bytes of the second of two sectors. -/
theorem dump_interrupted_short :
    let e : Env := { Env.calm fun _ => 7 with fwrite := fun n => if n = 1 then some 100 else none }
    let w : World := World.boot (fun _ _ => 0) fun _ => none
    ∃ image : Bytes, image.length = 4096 ∧
      (w.indexedParts (finalWorld ((dump e 0 (some .localId) isNgcDisk 4096).run w))).flatten <+: image := by
  intro e w
  obtain ⟨image, -, hlen, -, hinitial, -⟩ := dump_interrupted e 0 w isNgcDisk 4096 rfl fun i hi k hk _ => by
    have : partCount (4096 : UInt64).toNat = 1 := by decide
    omega
  exact ⟨image, hlen, hinitial⟩

end Interrupted

end TakeADump
