import TakeADump.Drive.Effects
import TakeADump.Dump.Fidelity

/-!
# Reading the trace of a dump

What a dump left in the trace, by the way it ended (`trace_finished`, `trace_atRefused`, `trace_atUnreadable`,
`trace_cutShort`, `trace_left`), and how to pick events of one kind from it: from one round (`filterMap_roundEvents`)
and, by induction on the sectors, from a dump that did all of them (`Core.filterMap_finished`).
-/

namespace TakeADump

open Rollover (Log)

/-- Events of opening and closing files. -/
def Event.filing : Event → Bool
  | .fopen _ _ | .fclose _ => true
  | _ => false

/-- Events of the start and the end of a dump: the buffer, and lines without numbers. -/
def Event.framing : Event → Bool
  | .memalign _ | .free | .print _ [] | .print _ [.minutes] => true
  | _ => false

namespace Job

variable (j : Job)

/-! ## The ends of a dump -/

theorem trace_finished (p : Point) : (j.finished p).trace =
    p.trace ++ (j.closeEvents p.log ++ [.free, .print "Dump complete after %d minutes!" [.minutes]]) :=
  List.append_assoc _ _ _

theorem trace_atRefused (k : Nat) : (j.atRefused k).trace = (j.point k).trace ++
    .moveUp :: (j.closeEvents (j.point k).log ++ j.refusedEvents (j.point k).log.parts.length) := by
  simp [atRefused, closeStep, Point.note]

theorem trace_atUnreadable (k : Nat) : (j.atUnreadable k).trace =
    (j.point k).trace ++ ((.moveUp :: j.rollEvents (j.point k).log) ++ (j.readEvents k ++ [errorReport k])) := by
  simp [atUnreadable, atRead, readStep, roll, Point.note]

theorem trace_cutShort (m : Nat) (p : Point) : (j.cutShort m p).trace = (j.writeStep m p).trace ++
    .print "Error writing file. Bytes written: %d. Bytes expected: %d." [.int m, .u32 (UInt32.ofNat (j.len p.done))] ::
      (j.closeEvents (j.writeStep m p).log ++ [.free]) := by
  simp [cutShort, closeStep, Point.note]

theorem trace_left (p : Point) : (j.left p).trace = p.trace ++
    [j.progress { p with done := p.done + 1 }, .sample (j.env.pad (j.start.samples + p.samples)),
      .print "Exiting with code %02d..." [.int 0], .exit 0] := by
  simp [left, advance, Point.note]

/-! ## Picking events -/

section Pick

variable {β : Type} {f : Event → Option β}

theorem filterMap_eq_nil {evs : List Event} {p : Event → Bool} (hf : ∀ ev, p ev = true → f ev = none)
    (h : ∀ ev ∈ evs, p ev = true) : evs.filterMap f = [] :=
  List.filterMap_eq_nil_iff.2 fun ev hev => hf ev (h ev hev)

theorem filterMap_cons_toList (ev : Event) (evs : List Event) :
    (ev :: evs).filterMap f = (f ev).toList ++ evs.filterMap f := by
  cases h : f ev with
  | none => rw [List.filterMap_cons_none h, Option.toList_none, List.nil_append]
  | some b => rw [List.filterMap_cons_some h, Option.toList_some, List.singleton_append]

theorem filing_closeEvents (l : Log UInt8) : ∀ ev ∈ j.closeEvents l, ev.filing = true := by
  intro ev hev
  obtain ⟨fp, rfl⟩ := j.mem_closeEvents hev
  rfl

theorem filing_rollEvents (l : Log UInt8) : ∀ ev ∈ j.rollEvents l, ev.filing = true := by
  intro ev hev
  rcases j.mem_rollEvents hev with ⟨fp, rfl⟩ | ⟨name, rfl⟩ <;> rfl

theorem reading_readEvents (s : Nat) : ∀ ev ∈ j.readEvents s, ev.reading = true := by
  intro ev hev
  rcases j.mem_readEvents hev with rfl | rfl | ⟨ok, rfl⟩ <;> rfl

/-- What is picked from a round does not come from its files or its tries. -/
theorem filterMap_roundEvents (hmove : f .moveUp = none) (hread : ∀ ev, ev.reading = true → f ev = none)
    (hfile : ∀ ev, ev.filing = true → f ev = none) (s : Nat) : (j.roundEvents s).filterMap f =
      (j.settleEvents s).filterMap f ++
        [.fwrite (some (j.base + ((j.point s).log.roll chunkSize).full.length)) (j.len s) (j.len s),
          j.progress { j.writeStep (j.len s) (j.readyToWrite (j.point s)) with done := s + 1 },
          .sample (j.env.pad (j.start.samples + s))].filterMap f := by
  rw [roundEvents, List.filterMap_cons_none hmove, List.filterMap_append, List.filterMap_append, List.filterMap_append,
    filterMap_eq_nil hfile (j.filing_rollEvents _), filterMap_eq_nil hread (j.reading_readEvents s)]
  rfl

theorem filterMap_point {g : Nat → List β} {m : Nat} (h : ∀ s < m, (j.roundEvents s).filterMap f = g s) :
    (j.point m).trace.filterMap f = (List.range m).flatMap g := by
  rw [point_trace, List.filterMap_flatMap]
  exact List.flatMap_congr fun s hs => h s (List.mem_range.1 hs)

/-- What is picked from a dump that did all sectors comes from its rounds. -/
theorem Core.filterMap_finished {e : Env} {w w' : World} {size : UInt64} {m : Nat}
    (hc : (enter e w size).Core ((enter e w size).finished ((enter e w size).point m)) w')
    (hframe : ∀ ev, ev.framing = true → f ev = none) (hfile : ∀ ev, ev.filing = true → f ev = none)
    {g : Nat → List β} (h : ∀ s < m, ((enter e w size).roundEvents s).filterMap f = g s) :
    (w'.trace.drop w.trace.length).filterMap f = (List.range m).flatMap g := by
  have hstart : ([.memalign true, .print "Taking a dump..." [], .print "Dumped 0 bytes" []] : List Event).filterMap f =
      [] := filterMap_eq_nil hframe (by simp [Event.framing])
  have hend : ([.free, .print "Dump complete after %d minutes!" [.minutes]] : List Event).filterMap f = [] :=
    filterMap_eq_nil hframe (by simp [Event.framing])
  rw [hc.trace_enter, trace_finished, List.filterMap_append, List.filterMap_append, List.filterMap_append, hstart, hend,
    filterMap_eq_nil hfile ((enter e w size).filing_closeEvents _), filterMap_point _ h]
  simp

end Pick

end Job

end TakeADump
