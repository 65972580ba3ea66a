import TakeADump.Dump.Run

/-!
# What a run leaves on the drive

The final world of a dump, read off the copy it followed: the streams it opened (`World.opened`), their names and
contents (`Leaves.data_opened`, `Leaves.name_opened`), what was written under these names (`Leaves.partFiles_eq`) and
every other file (`file_of_notMem`). `halt_eq_none_iff` says in terms of the environment alone that a dump gets past a sector.
-/

namespace TakeADump

open Rollover (Log)

/-- The world a run ends in. -/
def finalWorld {α : Type} : EStateM.Result Stop World α → World
  | .ok _ w => w
  | .error _ w => w

@[simp] theorem finalWorld_ok {α : Type} (a : α) (w : World) : finalWorld (.ok a w) = w := rfl

/-- The streams opened since `w`. -/
def World.opened (w w' : World) : List Stream := w'.streams.drop w.streams.length

/-- The bytes `fwrite` accepted since `w`, in order. -/
def World.written (w w' : World) : Bytes := ((w.opened w').map Stream.data).flatten

/-- The files of the parts opened since `w`, in the order they were opened, as far as `fwrite` accepted them. -/
def World.partFiles (w w' : World) : List Bytes := (w.opened w').map fun s => (w'.writtenFile s.name).getD []

/-! ## Files -/

/-- The stream found last under a name. -/
theorem find?_reverse_of_nodup {l : List Stream} (h : (l.map Stream.name).Nodup) {s : Stream} (hs : s ∈ l)
    (l₀ : List Stream) : (l₀ ++ l).reverse.find? (fun t => t.name = s.name) = some s := by
  induction l using List.reverseRecOn with
  | nil => cases hs
  | append_singleton l t ih =>
    rw [List.map_append, List.nodup_append] at h
    obtain ⟨hnodup, -, hdisj⟩ := h
    rw [← List.append_assoc, List.reverse_append, List.reverse_singleton, List.singleton_append, List.find?_cons]
    rcases List.mem_append.1 hs with hs | hs
    · have hne : t.name ≠ s.name := fun heq =>
        hdisj _ (List.mem_map_of_mem hs) t.name (by simp) heq.symm
      rw [decide_eq_false hne]
      exact ih hnodup hs
    · rw [List.mem_singleton.1 hs, decide_eq_true rfl]

/-- With distinct names, a file is that of its stream. -/
theorem lastStream_of_mem {w w' : World} (h : ((w.opened w').map Stream.name).Nodup) {s : Stream}
    (hs : s ∈ w.opened w') : w'.lastStream s.name = some s := by
  have hsplit : w'.streams = w'.streams.take w.streams.length ++ w.opened w' := (List.take_append_drop _ _).symm
  unfold World.lastStream
  rw [hsplit, find?_reverse_of_nodup h hs]

theorem partFiles_eq {w w' : World} (h : ((w.opened w').map Stream.name).Nodup) :
    w.partFiles w' = (w.opened w').map Stream.data := by
  unfold World.partFiles
  refine List.map_congr_left fun s hs => ?_
  rw [World.writtenFile, lastStream_of_mem h hs]
  rfl

/-- A file under none of the names opened keeps its content. -/
theorem file_of_notMem {w w' : World} (hstreams : ∃ l, w'.streams = w.streams ++ l) (hprior : w'.prior = w.prior)
    {name : Bytes} (h : name ∉ (w.opened w').map Stream.name) : w'.file name = w.file name := by
  obtain ⟨l, hl⟩ := hstreams
  have hopened : w.opened w' = l := by rw [World.opened, hl, List.drop_left]
  rw [hopened] at h
  have hnone : l.reverse.find? (fun s => s.name = name) = none := by
    rw [List.find?_eq_none]
    intro s hs heq
    exact h (List.mem_map.2 ⟨s, List.mem_reverse.1 hs, by simpa using heq⟩)
  unfold World.file World.lastStream
  rw [hl, List.reverse_append, List.find?_append, hnone, Option.none_or, hprior]

namespace Job

variable {j : Job} {p : Point} {l : Log UInt8} {n k : Nat} {w w' : World}

/-- A run of the dump that was over when the log was `l` and `n` sectors had been read. -/
structure Leaves (j : Job) (l : Log UInt8) (n : Nat) (w' : World) : Prop where
  streams : w'.streams = j.streams l
  prior : w'.prior = j.start.prior
  tried : ∀ s, addressable s = true → w'.tried (j.request s).range =
    j.start.tried (j.request s).range + if s < n then j.tries s else 0

theorem Core.leaves (hc : j.Core p w') : j.Leaves p.log p.read w' := ⟨hc.streams, hc.prior, hc.tried⟩

theorem Leaves.quiet {w₁ : World} (h : j.Leaves l n w₁) (hq : Quiet w₁ w') : j.Leaves l n w' := by
  obtain ⟨m, evs, rfl, _⟩ := hq
  exact ⟨h.streams, h.prior, h.tried⟩

/-! ## The streams of a run -/

section Streams

variable (h : j.Leaves l n w') (hw : j.start.streams = w.streams)

include h hw

theorem Leaves.opened :
    w.opened w' = l.full.mapIdx j.closedStream ++ (l.cur.map (j.openStream l.full.length)).toList := by
  rw [World.opened, h.streams, Job.streams, ← hw, List.append_assoc, List.drop_left]

/-- The contents of the streams opened are the parts. -/
theorem Leaves.data_opened : (w.opened w').map Stream.data = l.parts := by
  have hclosed : (l.full.mapIdx j.closedStream).map Stream.data = l.full :=
    List.ext_getElem (by simp) fun i _ _ => by simp [closedStream]
  rw [h.opened hw, List.map_append, hclosed, Log.parts]
  cases l.cur <;> rfl

/-- The names of the streams opened are those of the parts `1`, `2`, ... -/
theorem Leaves.name_opened : (w.opened w').map Stream.name = (List.range l.parts.length).map j.name := by
  have hclosed : (l.full.mapIdx j.closedStream).map Stream.name = (List.range l.full.length).map j.name :=
    List.ext_getElem (by simp) fun i _ _ => by simp [closedStream]
  rw [h.opened hw, List.map_append, hclosed, Log.parts]
  cases l.cur with
  | none => simp
  | some c =>
    rw [Option.toList_some, List.length_append, List.length_singleton, List.range_succ, List.map_append]
    rfl

/-- The bytes written are those of the parts. -/
theorem Leaves.written_eq : w.written w' = l.all := by rw [World.written, h.data_opened hw, Log.all]

/-- With distinct names, the part files are the parts. -/
theorem Leaves.partFiles_eq (hnames : ((List.range l.parts.length).map j.name).Nodup) : w.partFiles w' = l.parts := by
  rw [TakeADump.partFiles_eq (by rw [h.name_opened hw]; exact hnames), h.data_opened hw]

end Streams

/-! ## Where a run is over -/

theorem leaves_finished (hc : j.Core (j.finished (j.point j.sectors)) w') :
    j.Leaves (j.point j.sectors).log.closed j.sectors w' := by
  have := hc.leaves
  rwa [show (j.finished (j.point j.sectors)).read = j.sectors from j.point_read _] at this

theorem leaves_refused (hc : j.Core (j.atRefused k) w') : j.Leaves (j.point k).log.closed k w' := by
  have := hc.leaves
  rwa [show (j.atRefused k).read = k from j.point_read _] at this

theorem leaves_unreadable {w₁ : World} (hc : j.Core (j.atUnreadable k) w₁) (hq : Quiet w₁ w') :
    j.Leaves ((j.point k).log.roll chunkSize) (k + 1) w' := by
  have := hc.leaves.quiet hq
  rwa [show (j.atUnreadable k).read = k + 1 from congrArg (· + 1) (j.point_read k)] at this

theorem bytesAt_take (mem : Nat → UInt8) {m n : Nat} (h : m ≤ n) : bytesAt mem m = (bytesAt mem n).take m := by
  rw [bytesAt, bytesAt, ← List.map_take, List.take_range, Nat.min_eq_left h]

theorem taken_le (s : Nat) : j.taken s ≤ j.len s := by
  unfold taken accepted
  split <;> omega

theorem leaves_short (hc : j.Core (j.atShort k) w') :
    j.Leaves (((j.point k).log.roll chunkSize).append ((j.data k).take (j.taken k))).closed (k + 1) w' := by
  have := hc.leaves
  have hread : (j.readyToWrite (j.point k)).read = k + 1 := by simp [readyToWrite, readStep, roll]
  have hlog : (j.atShort k).log =
      (((j.point k).log.roll chunkSize).append ((j.data k).take (j.taken k))).closed := by
    have hle := j.taken_le k
    rw [data, sector, done_readyToWrite, point_done, ← bytesAt_take _ hle, ← log_readyToWrite]
    rfl
  rwa [hlog, show (j.atShort k).read = k + 1 from hread] at this

theorem leaves_home (hc : j.Core (j.left (j.atWritten k)) w') : j.Leaves (j.point (k + 1)).log (k + 1) w' := by
  have := hc.leaves
  have hread : (j.readyToWrite (j.point k)).read = k + 1 := by simp [readyToWrite, readStep, roll]
  rwa [show (j.left (j.atWritten k)).log = (j.point (k + 1)).log from j.log_atWritten k,
    show (j.left (j.atWritten k)).read = k + 1 from hread] at this

/-! ## Getting past a sector -/

theorem rolls_iff {s : Nat} (hs : s < j.sectors) : j.rolls s = true ↔ chunkSize ∣ sectorSize * s := by
  have hlt := j.lt_sectors.1 hs
  rw [rolls, Rollover.needsPart_iff (j.whole_point hs).1, length_point_all, Nat.min_eq_left (Nat.le_of_lt hlt)]

theorem opens_eq {s : Nat} (hs : s < j.sectors) (hr : j.rolls s = true) :
    j.opens s = j.env.fopen (j.base + sectorSize * s / chunkSize) := by
  have hlt := j.lt_sectors.1 hs
  rw [opens, Rollover.length_parts_of_needsPart (j.whole_point hs).1 chunkSize_pos hr, length_point_all,
    Nat.min_eq_left (Nat.le_of_lt hlt)]

theorem taken_eq_iff {s : Nat} :
    j.taken s = j.len s ↔ ∀ m, j.env.fwrite (j.start.writes + s) = some m → j.len s ≤ m := by
  unfold taken accepted
  cases j.env.fwrite (j.start.writes + s) with
  | none => simp
  | some m =>
    simp only [Option.some.injEq, forall_eq']
    omega

/-- **A dump gets past a sector** iff its part can be created, it is read or need not be, all of it is accepted, and
HOME is not held. -/
theorem halt_eq_none_iff {s : Nat} (hs : s < j.sectors) : j.halt s = none ↔
    (chunkSize ∣ sectorSize * s → j.env.fopen (j.base + sectorSize * s / chunkSize) = true) ∧
      (j.readable s = true ∨ j.start.cancelOnError = false) ∧
      (∀ m, j.env.fwrite (j.start.writes + s) = some m → j.len s ≤ m) ∧ j.home s = false := by
  have hopen : (j.rolls s = true → j.env.fopen (j.base + sectorSize * s / chunkSize) = true) ↔
      (j.rolls s && !j.opens s) = false := by
    cases hr : j.rolls s with
    | false => simp
    | true => simp [opens_eq hs hr]
  have hread : j.readable s = true ∨ j.start.cancelOnError = false ↔
      (!j.readable s && j.start.cancelOnError) = false := by
    cases j.readable s <;> simp
  rw [← taken_eq_iff, ← rolls_iff hs, hopen, hread]
  unfold halt
  split_ifs <;> simp_all

end Job

end TakeADump
