import TakeADump.Lib.Exclusive
import TakeADump.Dump.BufferOps

/-!
# Streams and the buffer of a dump

`streamOps` and `heapOps` read the trace as operations on handles: the streams `fopen` returned, numbered as they come,
and the sector buffer. However a dump returns, both sequences keep the discipline of handles held one at a time and end
with nothing held (`Ended.returned`); from this `dump_handles` reads off that every stream is closed exactly once and
the buffer freed exactly once, and that neither is touched before or after.
-/

namespace TakeADump

open Rollover (Log)
open Exclusive (Op)

/-! ## Streams -/

/-- A file was created. -/
def Event.opens : Event → Bool
  | .fopen _ ok => ok
  | _ => false

/-- How many streams were opened. -/
def streamsOpened (evs : List Event) : Nat := evs.countP Event.opens

def Event.closes : Event → Option (Option Nat)
  | .fclose fp => some fp
  | _ => none

/-- The arguments of `fclose`. -/
def streamsClosed (evs : List Event) : List (Option Nat) := evs.filterMap Event.closes

/-- The operation on a stream, when `n` streams were opened before. -/
def Event.streamOp (n : Nat) : Event → Option (Op (Option Nat))
  | .fopen _ true => some (.acquire (some n))
  | .fwrite fp _ _ => some (.use fp)
  | .fclose fp => some (.release fp)
  | _ => none

def streamOps : Nat → List Event → List (Op (Option Nat))
  | _, [] => []
  | n, ev :: evs => (ev.streamOp n).toList ++ streamOps (n + streamsOpened [ev]) evs

/-- The stream `fp` was opened and not closed, when `n` streams were opened before. -/
def OpenStream (n : Nat) (evs : List Event) (fp : Option Nat) : Prop :=
  (∃ i < streamsOpened evs, fp = some (n + i)) ∧ fp ∉ streamsClosed evs

theorem streamsOpened_append (a b : List Event) : streamsOpened (a ++ b) = streamsOpened a + streamsOpened b :=
  List.countP_append

theorem streamsOpened_cons (ev : Event) (evs : List Event) :
    streamsOpened (ev :: evs) = streamsOpened [ev] + streamsOpened evs := by
  rw [← streamsOpened_append, List.singleton_append]

theorem streamOps_append (n : Nat) (a b : List Event) :
    streamOps n (a ++ b) = streamOps n a ++ streamOps (n + streamsOpened a) b := by
  induction a generalizing n with
  | nil => rfl
  | cons ev a ih =>
    rw [List.cons_append, streamOps, streamOps, ih, streamsOpened_cons ev a, List.append_assoc, Nat.add_assoc]

/-- An event opens the next stream, or acquires nothing. -/
theorem streamOp_cases (n : Nat) (ev : Event) :
    ev.streamOp n = some (.acquire (some n)) ∧ streamsOpened [ev] = 1 ∨
      (∀ fp, ev.streamOp n ≠ some (.acquire fp)) ∧ streamsOpened [ev] = 0 := by
  unfold Event.streamOp
  split
  · exact Or.inl ⟨rfl, rfl⟩
  · exact Or.inr ⟨by simp, rfl⟩
  · exact Or.inr ⟨by simp, rfl⟩
  · rename_i hopen _ _
    refine Or.inr ⟨by simp, ?_⟩
    cases ev with
    | fopen filename ok =>
      cases ok with
      | true => exact absurd rfl (hopen filename)
      | false => rfl
    | _ => rfl

/-- The streams acquired are those opened, by number. -/
theorem count_acquire (n : Nat) (evs : List Event) (fp : Option Nat) : (streamOps n evs).count (.acquire fp) =
    if ∃ i < streamsOpened evs, fp = some (n + i) then 1 else 0 := by
  induction evs generalizing n with
  | nil => simp [streamOps, streamsOpened]
  | cons ev evs ih =>
    rw [streamOps, List.count_append, ih, streamsOpened_cons ev evs]
    rcases streamOp_cases n ev with ⟨hop, hone⟩ | ⟨hop, hzero⟩
    · rw [hop, hone]
      by_cases hfp : fp = some n
      · have hlater : ¬ ∃ i < streamsOpened evs, fp = some (n + 1 + i) := by
          rintro ⟨i, -, hi⟩
          rw [hfp, Option.some.injEq] at hi
          omega
        rw [if_neg hlater, if_pos ⟨0, by omega, hfp⟩, hfp]
        simp
      · have hiff : (∃ i < streamsOpened evs, fp = some (n + 1 + i)) ↔
            ∃ i < 1 + streamsOpened evs, fp = some (n + i) := by
          constructor
          · rintro ⟨i, hi, rfl⟩
            exact ⟨i + 1, by omega, by rw [Nat.add_assoc, Nat.add_comm 1 i]⟩
          · rintro ⟨i, hi, rfl⟩
            have hpos : i ≠ 0 := fun h => hfp (by rw [h, Nat.add_zero])
            exact ⟨i - 1, by omega, by congr 1; omega⟩
        rw [if_congr hiff rfl rfl, Option.toList_some, List.count_singleton, if_neg (by simpa using Ne.symm hfp),
          Nat.zero_add]
    · rw [hzero, Nat.add_zero, Nat.zero_add, List.count_eq_zero.2, Nat.zero_add]
      rw [Option.mem_toList]
      exact hop fp

theorem count_release_streamOp (n : Nat) (ev : Event) (fp : Option Nat) :
    (ev.streamOp n).toList.count (.release fp) = ev.closes.toList.count fp := by
  cases ev with
  | fopen filename ok => cases ok <;> simp [Event.streamOp, Event.closes]
  | fwrite fp' asked written => simp [Event.streamOp, Event.closes]
  | fclose fp' => simp [Event.streamOp, Event.closes, List.count_singleton]
  | _ => rfl

/-- The streams released are those closed. -/
theorem count_release (n : Nat) (evs : List Event) (fp : Option Nat) :
    (streamOps n evs).count (.release fp) = (streamsClosed evs).count fp := by
  induction evs generalizing n with
  | nil => rfl
  | cons ev evs ih =>
    rw [streamOps, List.count_append, ih, count_release_streamOp, streamsClosed, streamsClosed,
      Job.filterMap_cons_toList, List.count_append]

/-- The open stream is the one held. -/
theorem openStream_iff {n : Nat} {evs : List Event} {held : Option (Option Nat)}
    (h : Exclusive.run none (streamOps n evs) = some held) (fp : Option Nat) :
    OpenStream n evs fp ↔ held = some fp := by
  have hcount := Exclusive.count_run h fp
  rw [count_acquire, count_release, Exclusive.holds_none, Nat.zero_add] at hcount
  unfold OpenStream
  rw [← Exclusive.holds_eq_one, ← List.count_eq_zero]
  by_cases hopen : ∃ i < streamsOpened evs, fp = some (n + i)
  · rw [if_pos hopen] at hcount
    simp only [hopen, true_and]
    omega
  · rw [if_neg hopen] at hcount
    simp only [hopen, false_and, false_iff]
    omega

/-! ## The buffer -/

/-- The operation on the sector buffer. -/
def Event.heapOp : Event → Option (Op Unit)
  | .memalign true => some (.acquire ())
  | .free => some (.release ())
  | .memset _ | .request _ | .dcInvalidate _ _ | .finished _ | .fwrite _ _ _ => some (.use ())
  | _ => none

def heapOps (evs : List Event) : List (Op Unit) := evs.filterMap Event.heapOp

/-- The buffer is allocated or freed. -/
def Event.owner : Event → Bool
  | .memalign _ | .free => true
  | _ => false

/-- Between its allocation and its release the buffer is only used. -/
theorem heapOps_body {evs : List Event} (h : ∀ ev ∈ evs, ev.owner = false) : ∀ op ∈ heapOps evs, op = .use () := by
  intro op hop
  obtain ⟨ev, hev, hsome⟩ := List.mem_filterMap.1 hop
  have howner := h ev hev
  unfold Event.heapOp at hsome
  split at hsome <;> first | exact (Option.some.inj hsome).symm | cases howner | cases hsome

theorem mem_heapOps_acquire {evs : List Event} : .acquire () ∈ heapOps evs ↔ .memalign true ∈ evs := by
  unfold heapOps
  rw [List.mem_filterMap]
  constructor
  · rintro ⟨ev, hev, hsome⟩
    unfold Event.heapOp at hsome
    split at hsome <;> first | exact hev | cases hsome
  · intro hev
    exact ⟨_, hev, rfl⟩

/-- What is no operation on the buffer does not use it. -/
theorem silent_of_not_use {evs : List Event} (h : .use () ∉ heapOps evs) : ∀ ev ∈ evs, ev.silent = true := by
  intro ev hev
  by_contra hloud
  apply h
  refine List.mem_filterMap.2 ⟨ev, hev, ?_⟩
  cases ev <;> first | rfl | exact absurd rfl hloud

/-- A buffer allocated once is not used after its release. -/
theorem after_free {evs a b : List Event} (hrun : Exclusive.run none (heapOps evs) = some none)
    (honce : evs.count (.memalign true) ≤ 1) (hevs : evs = a ++ .free :: b) :
    .memalign true ∈ a ∧ ∀ ev ∈ b, ev.silent = true := by
  have hops : heapOps evs = heapOps a ++ .release () :: heapOps b := by
    rw [hevs]
    exact List.filterMap_append
  rw [hops] at hrun
  obtain ⟨ha, hb⟩ := Exclusive.held_of_release hrun
  have hmem : .memalign true ∈ a := by
    rw [← mem_heapOps_acquire, ← List.count_pos_iff]
    have hcount := Exclusive.count_run ha ()
    rw [Exclusive.holds_none, Exclusive.holds_eq_one.2 rfl] at hcount
    omega
  refine ⟨hmem, silent_of_not_use (Exclusive.not_mem_of_not_held hb (by simp) fun hagain => ?_).1⟩
  have htwice : 1 < evs.count (.memalign true) := by
    rw [hevs, List.count_append, List.count_cons_of_ne (by simp)]
    have h₁ := List.count_pos_iff.2 hmem
    have h₂ := List.count_pos_iff.2 (mem_heapOps_acquire.1 hagain)
    omega
  omega

/-- The buffer is acquired where it is allocated and released where it is freed. -/
theorem count_heapOps (evs : List Event) : (heapOps evs).count (.acquire ()) = evs.count (.memalign true) ∧
    (heapOps evs).count (.release ()) = evs.count .free := by
  induction evs with
  | nil => exact ⟨rfl, rfl⟩
  | cons ev evs ih =>
    have hev : ev.heapOp.toList.count (.acquire ()) = [ev].count (.memalign true) ∧
        ev.heapOp.toList.count (.release ()) = [ev].count .free := by
      cases ev with
      | memalign ok => cases ok <;> exact ⟨rfl, rfl⟩
      | _ => exact ⟨rfl, rfl⟩
    rw [← List.singleton_append, List.count_append, List.count_append, ← ih.1, ← ih.2, ← hev.1, ← hev.2,
      ← List.count_append, ← List.count_append, List.singleton_append, heapOps, heapOps, Job.filterMap_cons_toList]
    exact ⟨rfl, rfl⟩

/-! ## Traces of dumps that returned -/

/-- When `n` streams were opened before: the streams are held one at a time, and so is the buffer; `opened` streams were
opened, `allocated` times the buffer was allocated, and at the end nothing is held. -/
structure Returned (n : Nat) (evs : List Event) (opened allocated : Nat) : Prop where
  streams : Exclusive.run none (streamOps n evs) = some none
  opened : streamsOpened evs = opened
  heap : Exclusive.run none (heapOps evs) = some none
  allocated : evs.count (.memalign true) = allocated

namespace Returned

variable {n m k : Nat} {evs a b : List Event}

theorem count_closed (h : Returned n evs m k) (fp : Option Nat) : (streamsClosed evs).count fp =
    if ∃ i < streamsOpened evs, fp = some (n + i) then 1 else 0 := by
  have hcount := Exclusive.count_run h.streams fp
  rw [count_acquire, count_release, Exclusive.holds_none, Nat.zero_add, Nat.add_zero] at hcount
  exact hcount.symm

theorem count_free (h : Returned n evs m k) : evs.count .free = evs.count (.memalign true) := by
  have hcount := Exclusive.count_run h.heap ()
  rw [Exclusive.holds_none, Nat.zero_add, Nat.add_zero, (count_heapOps evs).1, (count_heapOps evs).2] at hcount
  exact hcount.symm

/-- Two open streams are one. -/
theorem open_unique (h : Returned n (a ++ b) m k) {fp fp' : Option Nat} (hfp : OpenStream n a fp)
    (hfp' : OpenStream n a fp') : fp = fp' := by
  have hrun := h.streams
  rw [streamOps_append] at hrun
  obtain ⟨held, hheld, -⟩ := Exclusive.exists_run_of_append hrun
  rw [openStream_iff hheld] at hfp hfp'
  rw [hfp] at hfp'
  exact Option.some.inj hfp'

theorem open_of_fwrite {fp : Option Nat} {asked written : Nat}
    (h : Returned n (a ++ .fwrite fp asked written :: b) m k) : OpenStream n a fp := by
  have hrun := h.streams
  rw [streamOps_append] at hrun
  exact (openStream_iff (Exclusive.held_of_use hrun) fp).2 rfl

theorem open_of_fclose {fp : Option Nat} (h : Returned n (a ++ .fclose fp :: b) m k) : OpenStream n a fp := by
  have hrun := h.streams
  rw [streamOps_append] at hrun
  exact (openStream_iff (Exclusive.held_of_release hrun).1 fp).2 rfl

end Returned

/-! ## Rounds -/

/-- No operation on a stream, and the buffer is neither allocated nor freed. -/
def Event.plain : Event → Bool
  | .fopen _ ok => !ok
  | .fwrite _ _ _ | .fclose _ | .memalign _ | .free => false
  | _ => true

theorem owner_of_plain {ev : Event} (h : ev.plain = true) : ev.owner = false := by
  cases ev <;> first | rfl | cases h

theorem plain_of_reading {ev : Event} (h : ev.reading = true) : ev.plain = true := by
  cases ev <;> first | rfl | cases h

theorem streamOps_eq_nil {evs : List Event} (h : ∀ ev ∈ evs, ev.plain = true) (n : Nat) :
    streamOps n evs = [] ∧ streamsOpened evs = 0 := by
  induction evs generalizing n with
  | nil => exact ⟨rfl, rfl⟩
  | cons ev evs ih =>
    have hev := h ev (List.mem_cons_self ..)
    have hop : ev.streamOp n = none ∧ streamsOpened [ev] = 0 := by
      cases ev with
      | fopen filename ok =>
        cases ok with
        | true => cases hev
        | false => exact ⟨rfl, rfl⟩
      | fwrite fp asked written => cases hev
      | fclose fp => cases hev
      | _ => exact ⟨rfl, rfl⟩
    obtain ⟨hops, hopened⟩ := ih (fun x hx => h x (List.mem_cons_of_mem _ hx)) (n + streamsOpened [ev])
    rw [streamOps, streamsOpened_cons ev evs, hop.1, hops, hop.2, hopened]
    exact ⟨rfl, rfl⟩

namespace Job

variable (j : Job)

/-- The stream of the open part. -/
def held (l : Log UInt8) : Option (Option Nat) := l.cur.map fun _ => some (j.base + l.full.length)

/-- The streams a trace opened and the one it holds are those of the log, and the buffer stays allocated. -/
structure Holds (j : Job) (evs : List Event) (l : Log UInt8) : Prop where
  body : ∀ ev ∈ evs, ev.owner = false
  opened : streamsOpened evs = l.parts.length
  run : Exclusive.run none (streamOps j.base evs) = some (j.held l)

variable {j} {evs evs' : List Event} {l l' : Log UInt8}

theorem Holds.nil : j.Holds [] Log.empty := ⟨by simp, rfl, rfl⟩

theorem Holds.append (h : j.Holds evs l) (hbody : ∀ ev ∈ evs', ev.owner = false)
    (hopened : l.parts.length + streamsOpened evs' = l'.parts.length)
    (hrun : Exclusive.run (j.held l) (streamOps (j.base + l.parts.length) evs') = some (j.held l')) :
    j.Holds (evs ++ evs') l' where
  body := List.forall_mem_append.2 ⟨h.body, hbody⟩
  opened := by rw [streamsOpened_append, h.opened, hopened]
  run := by rw [streamOps_append, h.opened, Exclusive.run_append_of h.run, hrun]

theorem Holds.quiet (h : j.Holds evs l) (evs' : List Event) (hq : ∀ ev ∈ evs', ev.plain = true) :
    j.Holds (evs ++ evs') l := by
  obtain ⟨hops, hopened⟩ := streamOps_eq_nil hq (j.base + l.parts.length)
  apply h.append
  · exact fun ev hev => owner_of_plain (hq ev hev)
  · rw [hopened, Nat.add_zero]
  · rw [hops, Exclusive.run_nil]

/-- The open part is closed. -/
theorem Holds.close (h : j.Holds evs l) : j.Holds (evs ++ j.closeEvents l) l.closed := by
  apply h.append
  · unfold closeEvents
    split <;> simp [Event.owner]
  · unfold closeEvents
    split <;> simp [streamsOpened, Event.opens]
  · unfold closeEvents held
    cases hcur : l.cur with
    | none => rfl
    | some c =>
      show Exclusive.run _ [.release _] = _
      simp [Exclusive.run, Exclusive.step, Log.closed]

/-- The next part is opened. -/
theorem Holds.open (h : j.Holds evs l) (hcur : l.cur = none) (filename : Bytes) :
    j.Holds (evs ++ [.fopen filename true]) ⟨l.parts, some []⟩ := by
  apply h.append
  · simp [Event.owner]
  · simp [streamsOpened, Event.opens]
  · unfold held
    rw [hcur]
    rfl

theorem Holds.roll (h : j.Holds evs l) : j.Holds (evs ++ j.rollEvents l) (l.roll chunkSize) := by
  unfold rollEvents
  by_cases hneed : l.needsPart chunkSize
  · have hopen := h.close.open rfl (j.name l.parts.length)
    rw [if_pos hneed, Log.roll_pos hneed, ← List.append_assoc]
    rwa [Log.parts_closed] at hopen
  · rw [if_neg hneed, Log.roll_neg hneed, List.append_nil]
    exact h

/-- The open part is written to. -/
theorem Holds.write {c : Bytes} (h : j.Holds evs l) (hcur : l.cur = some c) (asked written : Nat) (x : Bytes) :
    j.Holds (evs ++ [.fwrite (some (j.base + l.full.length)) asked written]) (l.append x) := by
  apply h.append
  · simp [Event.owner]
  · rw [Log.length_parts_append]
    rfl
  · unfold held Log.append
    rw [hcur]
    show Exclusive.run _ [.use _] = _
    simp [Exclusive.run, Exclusive.step]

theorem plain_settleEvents (s : Nat) : ∀ ev ∈ j.settleEvents s, ev.plain = true := by
  unfold settleEvents
  split
  · simp
  · simp [errorReport, Event.plain]

/-- A round up to `fwrite`. -/
theorem Holds.readyToWrite {k : Nat} (h : j.Holds (j.point k).trace (j.point k).log) :
    j.Holds (j.readyToWrite (j.point k)).trace (j.readyToWrite (j.point k)).log := by
  have hmove := h.quiet [.moveUp] (by simp [Event.plain])
  have hread := hmove.roll.quiet _ fun ev hev => plain_of_reading (j.reading_readEvents k ev hev)
  have hsettle := hread.quiet _ (plain_settleEvents (j := j) k)
  rw [trace_readyToWrite, log_readyToWrite]
  simpa only [List.append_assoc, List.cons_append, List.nil_append] using hsettle

/-- A round up to its write, whatever is accepted. -/
theorem Holds.writeStep {k : Nat} (h : j.Holds (j.point k).trace (j.point k).log) (m : Nat) :
    j.Holds (j.writeStep m (j.readyToWrite (j.point k))).trace (j.writeStep m (j.readyToWrite (j.point k))).log := by
  obtain ⟨c, hcur⟩ := Log.roll_cur chunkSize (j.point k).log
  rw [← log_readyToWrite] at hcur
  exact h.readyToWrite.write hcur _ _ _

/-- **Along the rounds** one stream is held, that of the open part. -/
theorem holds_point (k : Nat) : j.Holds (j.point k).trace (j.point k).log := by
  induction k with
  | zero => exact Holds.nil
  | succ k ih =>
    rw [point_succ]
    exact (ih.writeStep (j.len k)).quiet _ (by simp [progress, Event.plain])

/-! ## Returns -/

/-- Enough for it: what lies between the allocation and the release holds no stream at its end. -/
theorem Holds.returned (h : j.Holds evs l) (hcur : l.cur = none) {tail : List Event} (htail : tail = [] ∨
    tail = [.print "Dump complete after %d minutes!" [.minutes]]) :
    Returned j.base (.memalign true :: (evs ++ .free :: tail)) l.parts.length 1 where
  streams := by
    show Exclusive.run none (streamOps j.base (evs ++ .free :: tail)) = some none
    have hheld : j.held l = none := by rw [held, hcur]; rfl
    rw [streamOps_append, Exclusive.run_append_of h.run, hheld]
    rcases htail with rfl | rfl
    · rfl
    · rfl
  opened := by
    show streamsOpened (evs ++ .free :: tail) = _
    rw [streamsOpened_append, h.opened]
    rcases htail with rfl | rfl
    · rfl
    · rfl
  heap := by
    have hops : heapOps (.memalign true :: (evs ++ .free :: tail)) =
        .acquire () :: (heapOps evs ++ .release () :: heapOps tail) := congrArg _ List.filterMap_append
    rw [hops, Exclusive.run]
    show Exclusive.run (some ()) _ = _
    rw [Exclusive.run_append_of (Exclusive.run_uses (heapOps_body h.body))]
    rcases htail with rfl | rfl
    · rfl
    · rfl
  allocated := by
    rw [List.count_cons_self, List.count_append, List.count_eq_zero.2 fun hin => by cases h.body _ hin]
    rcases htail with rfl | rfl
    · rfl
    · rfl

/-- Lines before. -/
theorem Holds.after {before : List Event} (h : j.Holds evs l) (hq : ∀ ev ∈ before, ev.plain = true) :
    j.Holds (before ++ evs) l := by
  obtain ⟨hops, hopened⟩ := streamOps_eq_nil hq j.base
  exact {
    body := List.forall_mem_append.2 ⟨fun ev hev => owner_of_plain (hq ev hev), h.body⟩
    opened := by rw [streamsOpened_append, hopened, Nat.zero_add, h.opened]
    run := by rw [streamOps_append, hops, hopened, List.nil_append, Nat.add_zero, h.run] }

/-- **However a dump with a buffer returns**, all streams were held one at a time and are closed, and the buffer is
freed. -/
theorem Ended.returned {e : Env} {w w' : World} {size : UInt64} {ret : Int} (h : (enter e w size).Ended (.ok ret w')) :
    Returned (enter e w size).base (w'.trace.drop w.trace.length) (w.opened w').length 1 := by
  have hlines : ∀ ev ∈ ([.print "Taking a dump..." [], .print "Dumped 0 bytes" []] : List Event), ev.plain = true := by
    simp [Event.plain]
  have hlength : ∀ p : Point, (enter e w size).Core p w' → (w.opened w').length = p.log.parts.length := by
    intro p hc
    rw [← List.length_map Stream.data, hc.leaves.data_opened (w := w) rfl]
  cases h with
  | finished _ hc _ =>
    have hheld := (holds_point (j := enter e w size) (enter e w size).sectors).close.after hlines
    have hlen : (w.opened w').length = ((enter e w size).point (enter e w size).sectors).log.closed.parts.length :=
      hlength _ hc
    rw [hlen, hc.trace_enter, trace_finished]
    simpa using hheld.returned rfl (Or.inr rfl)
  | @refused k w' hk _ _ hc _ =>
    have hmove := (holds_point (j := enter e w size) k).quiet [.moveUp] (by simp [Event.plain])
    have hrefused := hmove.close.quiet [.fopen ((enter e w size).name
      ((enter e w size).point k).log.parts.length) false, .newline, .print "Failed to create file: %s"
      [.chars ((enter e w size).name ((enter e w size).point k).log.parts.length)]] (by simp [Event.plain])
    have hlen : (w.opened w').length = ((enter e w size).point k).log.closed.parts.length := hlength _ hc
    rw [hlen, hc.trace_enter, trace_atRefused]
    simpa [refusedEvents] using (hrefused.after hlines).returned rfl (Or.inl rfl)
  | @short k w' hk _ _ hc _ =>
    have hwrite := (holds_point (j := enter e w size) k).writeStep ((enter e w size).taken k)
    have hline := hwrite.quiet [.print "Error writing file. Bytes written: %d. Bytes expected: %d."
      [.int ((enter e w size).taken k), .u32 (UInt32.ofNat ((enter e w size).len k))]] (by simp [Event.plain])
    have hlen : (w.opened w').length = ((enter e w size).writeStep ((enter e w size).taken k)
        ((enter e w size).readyToWrite ((enter e w size).point k))).log.closed.parts.length := hlength _ hc
    rw [hlen, hc.trace_enter, atShort, trace_cutShort]
    simpa using (hline.close.after hlines).returned rfl (Or.inl rfl)

/-- A dump whose first part is refused. -/
theorem Ended.of_refused {r : EStateM.Result Stop World Int} (h : j.Ended r) (hpos : 0 < j.sectors)
    (hhalt : j.halt 0 = some .refused) : ∃ w', r = .ok (-2) w' := by
  have hfirst : ∀ {k why}, (∀ s < k, j.halt s = none) → j.halt k = some why → why = .refused := by
    intro k why hpre hk
    cases k with
    | zero =>
      rw [hhalt] at hk
      exact (Option.some.inj hk).symm
    | succ k =>
      rw [hpre 0 (Nat.succ_pos k)] at hhalt
      cases hhalt
  cases h with
  | finished hall _ _ =>
    rw [hall 0 hpos] at hhalt
    cases hhalt
  | refused _ _ _ _ _ => exact ⟨_, rfl⟩
  | unreadable _ hpre hk _ _ _ _ => cases hfirst hpre hk
  | short _ _ _ _ _ => exact ⟨_, rfl⟩
  | home _ hpre hk _ _ => cases hfirst hpre hk

end Job

/-! ## Handle discipline -/

section Handles

variable (e : Env) (fuel : Nat) (w : World) {w' : World} (diskType : Int) (size : UInt64) {ret : Int}

/-- Without a buffer nothing is opened. -/
theorem returned_memalign (w : World) :
    let w' := (w.log (.memalign false)).log (.print "Failed to allocate buffer." [])
    Returned w.streams.length (w'.trace.drop w.trace.length) (w.opened w').length 0 := by
  intro w'
  have hevs : w'.trace.drop w.trace.length = [.memalign false, .print "Failed to allocate buffer." []] := by
    show List.drop _ ((w.trace ++ _) ++ _) = _
    rw [List.append_assoc, List.drop_left]
    rfl
  have hopened : (w.opened w').length = 0 := by
    show (w.streams.drop w.streams.length).length = 0
    rw [List.drop_length, List.length_nil]
  rw [hevs, hopened]
  exact ⟨rfl, rfl, rfl, rfl⟩

/-- **Handle and buffer discipline.** However a dump returns, every stream that `fopen` returned was passed to `fclose`
exactly once and nothing else was; at any time at most one was open; `fwrite` and `fclose` were called on an open stream
only; and the buffer, if it was allocated, was freed exactly once and not used afterwards. -/
theorem dump_handles (hrun : (dump e fuel (some .localId) diskType size).run w = .ok ret w') :
    let evs := w'.trace.drop w.trace.length
    let n := w.streams.length
    streamsOpened evs = (w.opened w').length ∧
      (∀ fp, (streamsClosed evs).count fp = if ∃ i < streamsOpened evs, fp = some (n + i) then 1 else 0) ∧
      (∀ a b, evs = a ++ b → ∀ fp fp', OpenStream n a fp → OpenStream n a fp' → fp = fp') ∧
      (∀ a fp asked written b, evs = a ++ .fwrite fp asked written :: b → OpenStream n a fp) ∧
      (∀ a fp b, evs = a ++ .fclose fp :: b → OpenStream n a fp) ∧
      evs.count (.memalign true) = (if e.memalign then 1 else 0) ∧
      evs.count .free = evs.count (.memalign true) ∧
      ∀ a b, evs = a ++ .free :: b → .memalign true ∈ a ∧ ∀ ev ∈ b, ev.silent = true := by
  intro evs n
  have hreturned : Returned n evs (w.opened w').length (if e.memalign then 1 else 0) := by
    cases hmem : e.memalign with
    | false =>
      rw [Job.run_dump_memalign fuel hmem] at hrun
      cases hrun
      exact returned_memalign w
    | true =>
      have hended := Job.ended_dump fuel w diskType size hmem
      rw [hrun] at hended
      exact hended.returned
  refine ⟨hreturned.opened, hreturned.count_closed, ?_, ?_, ?_, hreturned.allocated, hreturned.count_free, ?_⟩
  · intro a b hevs fp fp' hfp hfp'
    rw [hevs] at hreturned
    exact hreturned.open_unique hfp hfp'
  · intro a fp asked written b hevs
    rw [hevs] at hreturned
    exact hreturned.open_of_fwrite
  · intro a fp b hevs
    rw [hevs] at hreturned
    exact hreturned.open_of_fclose
  · intro a b hevs
    apply after_free hreturned.heap _ hevs
    rw [hreturned.allocated]
    split <;> simp

/-- No part can be created. -/
theorem dump_handles_refused :
    let e : Env := { Env.calm fun _ => 7 with fopen := fun _ => false }
    let w : World := World.boot (fun _ _ => 0) fun _ => none
    ∃ w', (dump e 0 (some .localId) isNgcDisk 4096).run w = .ok (-2) w' ∧
      (w'.trace.drop w.trace.length).count .free = 1 := by
  intro e w
  obtain ⟨w', hrun⟩ : ∃ w', (dump e 0 (some .localId) isNgcDisk 4096).run w = .ok (-2) w' :=
    (Job.ended_dump 0 w isNgcDisk 4096 rfl).of_refused (by decide) rfl
  obtain ⟨-, -, -, -, -, hallocated, hfree, -⟩ := dump_handles e 0 w isNgcDisk 4096 hrun
  exact ⟨w', hrun, hfree.trans hallocated⟩

end Handles

end TakeADump
