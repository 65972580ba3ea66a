import Mathlib.Data.List.Nodup
import TakeADump.Dump.Outcome
import TakeADump.Model.Main

/-!
# The image is the disc

The dump of a disc of whole sectors, seen from outside: `attemptOk e w s t` is attempt `t` on sector `s`, counted from
the world the dump starts in.

* `dump_image`: with errors tolerated, the parts hold the disc's bytes for every sector read within three attempts and
  zeros for every other one.
* `dump_no_fabricated`: with errors not tolerated, nothing but the disc's bytes is ever written, and a dump that meets
  an unreadable sector ends there.
-/

namespace TakeADump

open Rollover (Log)

/-! ## Sectors and attempts -/

/-- The range of sector `s`. -/
def sectorRange (s : Nat) : Range := ⟨sectorSize * s, sectorSize⟩

/-- Attempt `t` on sector `s`, counted from `w`, succeeds. -/
def attemptOk (e : Env) (w : World) (s t : Nat) : Bool :=
  (e.attempt (sectorRange s) (w.tried (sectorRange s) + t)).isOk

/-- One of the first three attempts on sector `s` succeeds. -/
def ReadInThree (e : Env) (w : World) (s : Nat) : Prop := ∃ t < 3, attemptOk e w s t = true

instance (e : Env) (w : World) (s : Nat) : Decidable (ReadInThree e w s) :=
  inferInstanceAs (Decidable (∃ t < 3, attemptOk e w s t = true))

/-- The parts of an image of `size` bytes. -/
def partCount (size : Nat) : Nat := (size + chunkSize - 1) / chunkSize

/-- The names of the first `n` parts are distinct. -/
def DistinctParts (header : Nat → UInt8) (n : Nat) : Prop :=
  ∀ i < n, ∀ k < n, partName header (Int32.ofNat (i + 1)) = partName header (Int32.ofNat (k + 1)) → i = k

namespace Job

/-! ## Discs of whole sectors -/

section Whole

variable (e : Env) (w : World) {size : UInt64}

theorem sectors_enter (hmul : sectorSize ∣ size.toNat) : (enter e w size).sectors = size.toNat / sectorSize := by
  show (size.toNat + (sectorSize - 1)) / sectorSize = _
  rw [sectorSize_eq] at hmul ⊢
  omega

variable (hle : size.toNat ≤ 2 ^ 34) {s : Nat} (hs : s < size.toNat / sectorSize)

include hs

theorem len_enter : (enter e w size).len s = sectorSize := len_whole _ hs

include hle

theorem addressable_enter : addressable s = true := by
  rw [addressable_iff]
  rw [sectorSize_eq] at hs ⊢
  omega

theorem range_enter : ((enter e w size).request s).range = sectorRange s :=
  range_whole _ (addressable_enter hle hs) hs

theorem attempt_enter (t : Nat) : ((enter e w size).attempt s t).isOk = attemptOk e w s t := by
  rw [attempt, range_enter e w hle hs]
  rfl

theorem readable_enter : (enter e w size).readable s = true ↔ ReadInThree e w s := by
  simp only [readable, addressable_enter hle hs, attempt_enter e w hle hs, Bool.true_and, Imp.hit_iff]
  rfl

theorem tries_enter : (enter e w size).tries s = Imp.tries (attemptOk e w s) 3 := by
  simp only [tries, addressable_enter hle hs, attempt_enter e w hle hs, if_true]

/-- The data of a sector that was read. -/
theorem data_enter_of_read (h : ReadInThree e w s) :
    (enter e w size).data s = bytesAt (fun i => e.disc (sectorSize * s + i)) sectorSize := by
  rw [data_of_readable _ ((readable_enter e w hle hs).2 h)
    (Or.inr ⟨1, by rw [len_enter e w hs, Nat.mul_one]⟩), len_enter e w hs]
  rfl

/-- The data of a sector that was not. -/
theorem data_enter_of_not_read (h : ¬ ReadInThree e w s) :
    (enter e w size).data s = List.replicate sectorSize 0 := by
  rw [data_of_not_readable _ (Bool.eq_false_iff.2 (mt (readable_enter e w hle hs).1 h)), len_enter e w hs]

end Whole

/-! ## Iterations -/

theorem count_readEvents (j : Job) (s : Nat) : (j.readEvents s).count .moveUp = 0 := by
  rw [List.count_eq_zero]
  intro h
  obtain ⟨t, -, ht⟩ := List.mem_flatMap.1 h
  simp at ht

theorem count_rollEvents (j : Job) (l : Log UInt8) : (j.rollEvents l).count .moveUp = 0 := by
  unfold rollEvents closeEvents
  cases l.cur <;> split <;> simp

/-- Each round starts with one `moveUp`. -/
theorem count_roundEvents (j : Job) (s : Nat) : (j.roundEvents s).count .moveUp = 1 := by
  have hsettle : (j.settleEvents s).count .moveUp = 0 := by
    unfold settleEvents errorReport
    split <;> simp
  simp [roundEvents, List.count_append, count_rollEvents, count_readEvents, hsettle, progress]

theorem count_point (j : Job) (s : Nat) : (j.point s).trace.count .moveUp = s := by
  induction s with
  | zero => rfl
  | succ s ih => rw [point_succ_trace, List.count_append, ih, count_roundEvents]

theorem count_finished (j : Job) (p : Point) : (j.finished p).trace.count .moveUp = p.trace.count .moveUp := by
  have hclose : (j.closeEvents p.log).count .moveUp = 0 := by
    unfold closeEvents
    split <;> simp
  simp [finished, Point.note, closeStep, List.count_append, hclose]

/-- The trace since the dump was called. -/
theorem Core.trace_enter {e : Env} {w w' : World} {size : UInt64} {p : Point} (hc : (enter e w size).Core p w') :
    w'.trace.drop w.trace.length =
      [.memalign true, .print "Taking a dump..." [], .print "Dumped 0 bytes" []] ++ p.trace := by
  rw [hc.trace]
  show List.drop _ ((w.trace ++ _) ++ p.trace) = _
  rw [List.append_assoc, List.drop_left]

/-! ## Runs that nothing stops -/

/-- What a dump that gets past every sector returns and leaves. -/
theorem Ended.of_pass {j : Job} {r : EStateM.Result Stop World Int} (h : j.Ended r)
    (hall : ∀ s < j.sectors, j.halt s = none) :
    ∃ w', r = .ok 0 w' ∧ j.Core (j.finished (j.point j.sectors)) w' ∧ w'.frame.offset = j.size := by
  cases h with
  | finished _ hc hoff => exact ⟨_, rfl, hc, hoff⟩
  | refused hk _ hhalt => rw [hall _ hk] at hhalt; cases hhalt
  | unreadable hk _ hhalt => rw [hall _ hk] at hhalt; cases hhalt
  | short hk _ hhalt => rw [hall _ hk] at hhalt; cases hhalt
  | home hk _ hhalt => rw [hall _ hk] at hhalt; cases hhalt

end Job

/-! ## Part files -/

namespace Job

variable {j : Job} {w w' : World}

theorem length_parts_point {k : Nat} (hk : k ≤ j.sectors) :
    (j.point k).log.parts.length = partCount (min (sectorSize * k) j.size.toNat) := by
  rw [Rollover.length_parts (j.filled_point hk) chunkSize_pos, length_point_all]
  rfl

theorem min_sectors : min (sectorSize * j.sectors) j.size.toNat = j.size.toNat := by
  rw [← length_point_all, ← image_eq, length_image]

theorem nodup_names {n : Nat} (h : DistinctParts (j.start.mem .localId) n) {m : Nat} (hm : m ≤ n) :
    ((List.range m).map j.name).Nodup := by
  refine List.Nodup.map_on (fun x hx y hy hxy => ?_) List.nodup_range
  rw [List.mem_range] at hx hy
  exact h x (by omega) y (by omega) hxy

theorem length_parts_all : (j.point j.sectors).log.parts.length = partCount j.size.toNat := by
  rw [length_parts_point (Nat.le_refl _), min_sectors]

/-- The streams of a dump that did all sectors. -/
theorem opened_finished (hc : j.Core (j.finished (j.point j.sectors)) w') (hw : j.start.streams = w.streams) :
    w.opened w' = (j.point j.sectors).log.parts.mapIdx j.closedStream := by
  rw [(leaves_finished hc).opened hw, Log.closed]
  exact List.append_nil _

/-- The part files of a dump that did all sectors make up the image. -/
theorem partFiles_finished (hc : j.Core (j.finished (j.point j.sectors)) w') (hw : j.start.streams = w.streams)
    (hnames : DistinctParts (j.start.mem .localId) (partCount j.size.toNat)) :
    (w.partFiles w').flatten = j.image := by
  have hlen : (j.point j.sectors).log.closed.parts.length = partCount j.size.toNat := by
    rw [Log.parts_closed, length_parts_all]
  rw [(leaves_finished hc).partFiles_eq hw (nodup_names hnames (Nat.le_of_eq hlen)), Log.parts_closed, image_eq]
  rfl

end Job

/-! ## Attempts -/

/-- The attempts made when the first success is known. -/
theorem tries_of_first {o : Nat → Bool} {first : Nat} (h : o first = true) (hbefore : ∀ t < first, o t = false)
    (n : Nat) : Imp.tries o n = min n (first + 1) := by
  rw [Imp.tries_eq_min ⟨first, h⟩]
  congr 2
  exact (Nat.find_eq_iff _).2 ⟨h, fun t ht => by simp [hbefore t ht]⟩

section Image

variable (e : Env) (fuel : Nat) (w : World) (diskType : Int) (size : UInt64)

/-- In an environment that accepts everything, without HOME, tolerance gets a dump past every sector. -/
theorem halt_enter (hopen : ∀ n, e.fopen n = true) (hwrite : ∀ n, e.fwrite n = none)
    (hhome : ∀ n, e.pad n &&& wpadButtonHome = 0) {s : Nat} (hs : s < (Job.enter e w size).sectors)
    (hread : (Job.enter e w size).readable s = true ∨ w.cancelOnError = false) :
    (Job.enter e w size).halt s = none := by
  rw [Job.halt_eq_none_iff hs]
  refine ⟨fun _ => hopen _, hread, fun m hm => ?_, ?_⟩
  · rw [show (Job.enter e w size).env.fwrite _ = none from hwrite _] at hm
    cases hm
  · rw [← Bool.not_eq_true, Job.home_iff, not_not]
    exact hhome _

/-- **Image fidelity with errors tolerated.** A dump of `n` sectors in an environment that accepts all files and bytes,
without HOME, returns 0 after `n` rounds. Its parts, as far as `fwrite` accepted them and in the order they were opened,
hold the disc's bytes for every sector read within three attempts and zeros for every other sector, and each sector is
attempted up to its first success, at most three times. -/
theorem dump_image (hmem : e.memalign = true) (hmul : sectorSize ∣ size.toNat) (hle : size.toNat ≤ 2 ^ 34)
    (hcancel : w.cancelOnError = false) (hopen : ∀ n, e.fopen n = true) (hwrite : ∀ n, e.fwrite n = none)
    (hhome : ∀ n, e.pad n &&& wpadButtonHome = 0)
    (hnames : DistinctParts (w.mem .localId) (partCount size.toNat)) :
    ∃ w', (dump e fuel (some .localId) diskType size).run w = .ok 0 w' ∧
      (w'.trace.drop w.trace.length).count .moveUp = size.toNat / sectorSize ∧
      (w.partFiles w').flatten.length = size.toNat ∧
      (∀ s < size.toNat / sectorSize, ∀ i < sectorSize, (w.partFiles w').flatten[sectorSize * s + i]? =
        some (if ReadInThree e w s then e.disc (sectorSize * s + i) else 0)) ∧
      ∀ s < size.toNat / sectorSize,
        (∀ first, attemptOk e w s first = true → (∀ t < first, attemptOk e w s t = false) →
          w'.tried (sectorRange s) = w.tried (sectorRange s) + min 3 (first + 1)) ∧
        ((∀ t, attemptOk e w s t = false) → w'.tried (sectorRange s) = w.tried (sectorRange s) + 3) := by
  obtain ⟨w', hrun, hc, -⟩ := (Job.ended_dump fuel w diskType size hmem).of_pass
    fun s hs => halt_enter e w size hopen hwrite hhome hs (Or.inr hcancel)
  have hsectors := Job.sectors_enter e w hmul
  have hfiles : (w.partFiles w').flatten = (Job.enter e w size).image := Job.partFiles_finished hc rfl hnames
  refine ⟨w', hrun, ?_, ?_, fun s hs i hi => ?_, fun s hs => ?_⟩
  · rw [hc.trace_enter, List.count_append, Job.count_finished, Job.count_point, hsectors]
    simp
  · rw [hfiles, Job.length_image]
    rfl
  · rw [hfiles, Job.getElem?_image _ (by rw [hsectors]; exact hs) (by rw [Job.len_enter e w hs]; exact hi)]
    split
    · rw [Job.data_enter_of_read e w hle hs ‹_›]
      simp [bytesAt, hi]
    · rw [Job.data_enter_of_not_read e w hle hs ‹_›]
      simp [hi]
  · have htried := (Job.leaves_finished hc).tried s (Job.addressable_enter hle hs)
    rw [Job.range_enter e w hle hs, if_pos (by rw [hsectors]; exact hs), Job.tries_enter e w hle hs] at htried
    refine ⟨fun first hfirst hbefore => ?_, fun hnone => ?_⟩
    · rw [htried, tries_of_first hfirst hbefore]
      rfl
    · rw [htried, Imp.tries_eq_of_none fun t _ => hnone t]
      rfl

/-- A disc of two sectors, the second one damaged. -/
theorem dump_image_damaged :
    let e : Env := { Env.calm fun _ => 7 with
      attempt := fun r _ => if r.start = 0 then .ok else .err fun _ => 9 }
    let w : World := { World.boot (fun _ _ => 0) (fun _ => none) with cancelOnError := false }
    ∃ w', (dump e 0 (some .localId) isNgcDisk 4096).run w = .ok 0 w' ∧
      (w.partFiles w').flatten[0]? = some 7 ∧ (w.partFiles w').flatten[2048]? = some 0 := by
  intro e w
  obtain ⟨w', hrun, -, -, himage, -⟩ := dump_image e 0 w isNgcDisk 4096 rfl (by decide) (by decide) rfl
    (fun _ => rfl) (fun _ => rfl) (fun _ => UInt32.zero_and) (fun i hi k hk _ => by
      have : partCount (4096 : UInt64).toNat = 1 := by decide
      omega)
  exact ⟨w', hrun, himage 0 (by decide) 0 (by decide), himage 1 (by decide) 0 (by decide)⟩

end Image

/-! ## Errors not tolerated -/

theorem bytesAt_add (mem : Nat → UInt8) (a b : Nat) :
    bytesAt mem (a + b) = bytesAt mem a ++ bytesAt (fun i => mem (a + i)) b := by
  simp [bytesAt, List.range_add]

section Cancel

variable (e : Env) (fuel : Nat) (w : World) (diskType : Int) {size : UInt64}

/-- While all sectors are read, the disc's bytes are written. -/
theorem written_of_read (hle : size.toNat ≤ 2 ^ 34) {k : Nat}
    (hk : k ≤ size.toNat / sectorSize) (hread : ∀ s < k, ReadInThree e w s) :
    ((Job.enter e w size).point k).log.all = bytesAt e.disc (sectorSize * k) := by
  induction k with
  | zero => rfl
  | succ k ih =>
    have hbefore := ih (Nat.le_of_succ_le hk) fun s hs => hread s (by omega)
    have hlast := Job.data_enter_of_read e w hle hk (hread k (Nat.lt_succ_self k))
    rw [Job.point_succ_all, hbefore, hlast, Nat.mul_succ, bytesAt_add]

/-- A sector not read within three attempts is attempted three times. -/
theorem tries_of_not_read {s : Nat} (h : ¬ ReadInThree e w s) : Imp.tries (attemptOk e w s) 3 = 3 :=
  Imp.tries_eq_of_none fun t ht => Bool.eq_false_iff.2 fun hok => h ⟨t, ht, hok⟩

/-- The world a dump leaves when it stops without errors being tolerated: the disc's bytes up to a sector `k`, and no
attempt on a sector from `m` on. -/
structure StoppedAt (e : Env) (w : World) (size : UInt64) (k m : Nat) (w' : World) : Prop where
  written : w.written w' = bytesAt e.disc (sectorSize * k)
  tried : ∀ s < size.toNat / sectorSize, s < m →
    w'.tried (sectorRange s) = w.tried (sectorRange s) + Imp.tries (attemptOk e w s) 3
  untried : ∀ s < size.toNat / sectorSize, m ≤ s → w'.tried (sectorRange s) = w.tried (sectorRange s)

theorem StoppedAt.of_leaves (hle : size.toNat ≤ 2 ^ 34) {l : Log UInt8} {k m : Nat}
    {w' : World} (h : (Job.enter e w size).Leaves l m w') (hk : k ≤ size.toNat / sectorSize)
    (hread : ∀ s < k, ReadInThree e w s) (hall : l.all = ((Job.enter e w size).point k).log.all) :
    StoppedAt e w size k m w' where
  written := by rw [h.written_eq (w := w) rfl, hall, written_of_read e w hle hk hread]
  tried s hs hsm := by
    have := h.tried s (Job.addressable_enter hle hs)
    rwa [Job.range_enter e w hle hs, if_pos hsm, Job.tries_enter e w hle hs] at this
  untried s hs hms := by
    have := h.tried s (Job.addressable_enter hle hs)
    rwa [Job.range_enter e w hle hs, if_neg (by omega), Nat.add_zero] at this

theorem StoppedAt.disc {e : Env} {w w' : World} {size : UInt64} {k m : Nat} (h : StoppedAt e w size k m w') :
    ∀ i b, (w.written w')[i]? = some b → b = e.disc i := by
  intro i b hb
  rw [h.written, bytesAt, List.getElem?_map] at hb
  obtain ⟨i', hi', rfl⟩ := Option.map_eq_some_iff.1 hb
  rw [(List.getElem?_eq_some_iff.1 hi').2.symm, List.getElem_range]

/-- How a dump ends that tolerates no error, when files and bytes are accepted. -/
inductive Cancelled (e : Env) (w : World) (size : UInt64) : EStateM.Result Stop World Int → Prop
  | finished {w' : World} (hread : ∀ s < size.toNat / sectorSize, ReadInThree e w s)
      (hstop : StoppedAt e w size (size.toNat / sectorSize) (size.toNat / sectorSize) w') :
      Cancelled e w size (.ok 0 w')
  | unreadable {k : Nat} {st : Stop} {w' : World} (hk : k < size.toNat / sectorSize)
      (hread : ∀ s < k, ReadInThree e w s) (hbad : ¬ ReadInThree e w k) (hst : st = .exit 0 ∨ st = .spin)
      (hstop : StoppedAt e w size k (k + 1) w') : Cancelled e w size (.error st w')
  | home {k : Nat} {w' : World} (hk : k < size.toNat / sectorSize) (hread : ∀ s < k + 1, ReadInThree e w s)
      (hhome : e.pad (w.samples + k) &&& wpadButtonHome ≠ 0) (hstop : StoppedAt e w size (k + 1) (k + 1) w') :
      Cancelled e w size (.error (.exit 0) w')

theorem cancelled_dump (hmem : e.memalign = true) (hmul : sectorSize ∣ size.toNat) (hle : size.toNat ≤ 2 ^ 34)
    (hcancel : w.cancelOnError = true) (hopen : ∀ n, e.fopen n = true) (hwrite : ∀ n, e.fwrite n = none) :
    Cancelled e w size ((dump e fuel (some .localId) diskType size).run w) := by
  have hsectors := Job.sectors_enter e w hmul
  have hreads : ∀ {s : Nat}, s < size.toNat / sectorSize →
      ((Job.enter e w size).halt s = none ∨ (Job.enter e w size).halt s = some .home) → ReadInThree e w s :=
    fun hs h => (Job.readable_enter e w hle hs).1 (Job.readable_of_halt _ h hcancel)
  have hended := Job.ended_dump fuel w diskType size hmem
  generalize (dump e fuel (some .localId) diskType size).run w = r at hended
  cases hended with
  | finished hall hc _ =>
    rw [hsectors] at hall
    have hread : ∀ s < size.toNat / sectorSize, ReadInThree e w s := fun s hs => hreads hs (Or.inl (hall s hs))
    have hleaves := Job.leaves_finished hc
    rw [hsectors] at hleaves
    exact .finished hread (.of_leaves e w hle hleaves (Nat.le_refl _) hread (Log.all_closed _))
  | refused hk hpre hhalt hc _ =>
    have hopened := (Job.halt_inv _ hhalt).2
    rw [Job.opens, show (Job.enter e w size).env.fopen _ = true from hopen _] at hopened
    cases hopened
  | @unreadable k st w₁ w' hk hpre hhalt hst hq hc _ =>
    rw [hsectors] at hk
    have hread : ∀ s < k, ReadInThree e w s := fun s hs => hreads (by omega) (Or.inl (hpre s hs))
    have hbad : ¬ ReadInThree e w k := fun h => by
      have := (Job.halt_inv _ hhalt).1
      rw [(Job.readable_enter e w hle hk).2 h] at this
      cases this
    exact .unreadable hk hread hbad hst
      (.of_leaves e w hle (Job.leaves_unreadable hc hq) (Nat.le_of_lt hk) hread (Log.all_roll _ _))
  | short hk hpre hhalt hc _ =>
    have htaken := Job.halt_inv _ hhalt
    rw [Job.taken, accepted, show (Job.enter e w size).env.fwrite _ = none from hwrite _] at htaken
    exact absurd rfl htaken
  | @home k w' hk hpre hhalt hc _ =>
    rw [hsectors] at hk
    have hread : ∀ s < k + 1, ReadInThree e w s := fun s hs => by
      rcases Nat.lt_succ_iff_lt_or_eq.1 hs with hs | rfl
      · exact hreads (by omega) (Or.inl (hpre s hs))
      · exact hreads hk (Or.inr hhalt)
    exact .home hk hread (Job.home_iff.1 (Job.halt_inv _ hhalt))
      (.of_leaves e w hle (Job.leaves_home hc) hk hread rfl)

variable (size)

/-- **No fabricated data with errors not tolerated.** Whatever a dump wrote is the disc's. If sector `s` is the first
one not read within three attempts, the dump ended in front of it because HOME was held, or it wrote exactly the bytes
before `s`, attempted `s` three times and no later sector, and did not return. It returns 0 only if all sectors were
read, and `Logger::error` never comes back. -/
theorem dump_no_fabricated (hmem : e.memalign = true) (hmul : sectorSize ∣ size.toNat) (hle : size.toNat ≤ 2 ^ 34)
    (hcancel : w.cancelOnError = true) (hopen : ∀ n, e.fopen n = true) (hwrite : ∀ n, e.fwrite n = none) :
    let r := (dump e fuel (some .localId) diskType size).run w
    let w' := finalWorld r
    (∀ i b, (w.written w')[i]? = some b → b = e.disc i) ∧
      (∀ s < size.toNat / sectorSize, ¬ ReadInThree e w s → (∀ k < s, ReadInThree e w k) →
        (∀ k < size.toNat / sectorSize, s < k → w'.tried (sectorRange k) = w.tried (sectorRange k)) ∧
        ((∃ k < s, e.pad (w.samples + k) &&& wpadButtonHome ≠ 0) ∧ r = .error (.exit 0) w' ∧
            w'.tried (sectorRange s) = w.tried (sectorRange s) ∨
          w.written w' = bytesAt e.disc (sectorSize * s) ∧
            w'.tried (sectorRange s) = w.tried (sectorRange s) + 3 ∧
            (r = .error (.exit 0) w' ∨ r = .error .spin w'))) ∧
      (r = .ok 0 w' → ∀ s < size.toNat / sectorSize, ReadInThree e w s) ∧
      ∀ code fmt args w₀, ∃ w₁, (Logger.error e fuel code fmt args).run w₀ = .error (.exit 0) w₁ ∨
        (Logger.error e fuel code fmt args).run w₀ = .error .spin w₁ := by
  intro r w'
  have hr : Cancelled e w size r := cancelled_dump e fuel w diskType hmem hmul hle hcancel hopen hwrite
  have herror := run_error e fuel
  clear_value r
  cases hr with
  | finished hread hstop =>
    exact ⟨hstop.disc, fun s hs hbad _ => absurd (hread s hs) hbad, fun _ => hread, herror⟩
  | @unreadable k st w₁ hk hread hbad hst hstop =>
    refine ⟨hstop.disc, fun s hs hbad' hread' => ?_, fun h => (by cases h), herror⟩
    obtain rfl : k = s := by
      rcases Nat.lt_trichotomy k s with hlt | heq | hlt
      · exact absurd (hread' k hlt) hbad
      · exact heq
      · exact absurd (hread s hlt) hbad'
    have htried := hstop.tried k hs (Nat.lt_succ_self k)
    rw [tries_of_not_read e w hbad] at htried
    refine ⟨fun m hm hlt => hstop.untried m hm hlt, Or.inr ⟨hstop.written, htried, ?_⟩⟩
    · rcases hst with rfl | rfl
      · exact Or.inl rfl
      · exact Or.inr rfl
  | @home k w₁ hk hread hhome hstop =>
    refine ⟨hstop.disc, fun s hs hbad' hread' => ?_, fun h => (by cases h), herror⟩
    have hlt : k < s := by
      by_contra hge
      exact hbad' (hread s (by omega))
    exact ⟨fun m hm hlt' => hstop.untried m hm (by omega), Or.inl ⟨⟨k, hlt, hhome⟩, rfl, hstop.untried s hs hlt⟩⟩

/-- A disc of two sectors, the second one damaged: only the first one is written. -/
theorem dump_no_fabricated_damaged :
    let e : Env := { Env.calm fun _ => 7 with
      attempt := fun r _ => if r.start = 0 then .ok else .err fun _ => 9 }
    let w : World := World.boot (fun _ _ => 0) fun _ => none
    w.written (finalWorld ((dump e 0 (some .localId) isNgcDisk 4096).run w)) = bytesAt e.disc 2048 := by
  intro e w
  obtain ⟨-, hfirst, -⟩ := dump_no_fabricated e 0 w isNgcDisk 4096 rfl (by decide) (by decide) rfl
    (fun _ => rfl) (fun _ => rfl)
  obtain ⟨-, ⟨⟨k, -, hhome⟩, -⟩ | ⟨hwritten, -⟩⟩ := hfirst 1 (by decide) (by decide) (by decide)
  · exact absurd UInt32.zero_and hhome
  · exact hwritten

end Cancel

end TakeADump
