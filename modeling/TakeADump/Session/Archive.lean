import TakeADump.Dump.Directory
import TakeADump.Dump.Handles
import TakeADump.Session.Order
import TakeADump.Session.Reset

/-!
# Dumps of different discs on one medium

Parts are named after the disc, so the dumps of different discs do not touch each other's files. `Sittings` are sessions
one after the other on one medium, each left by itself or by Reset at any moment. What a session may leave of the
directory is said of its events and streams (`Sitting.Leaves`), and the directory of the model is such a one
(`Sitting.leaves_file`). `dumps_kept`: whatever the sessions do, the parts of a disc stay as they are until a disc of
the same name is dumped, and those of a disc that was dumped to the end hold the whole disc.
-/

namespace TakeADump

open Rollover (Log)

/-! ## Names -/

/-- A part of a disc is named like a part of another disc only if both discs are named alike; the name of the first one
must leave room for the rest. -/
theorem cstr_eq_of_partName {a b : Nat → UInt8} (hroom : (CFormat.cstr 255 a).length ≤ 235) {n : Nat} (hn : n < 2 ^ 31)
    {k : Int32} (h : partName a (Int32.ofNat n) = partName b k) : CFormat.cstr 255 a = CFormat.cstr 255 b := by
  have hsplit : ∀ (s : Bytes) (k : Int), s ++ CFormat.ascii ".part" ++ CFormat.decimal k =
      (s ++ CFormat.ascii ".par") ++ 116 :: CFormat.decimal k := fun s k => by
    rw [show CFormat.ascii ".part" = CFormat.ascii ".par" ++ [116] by decide]
    simp only [List.append_assoc, List.singleton_append]
  have hlength : ∀ (s : Bytes) (k : Int), (s ++ CFormat.ascii ".part" ++ CFormat.decimal k ++
      CFormat.ascii ".iso").length = s.length + 9 + (CFormat.decimal k).length := fun s k => by
    simp only [List.length_append, length_ascii_part, length_ascii_iso]
    omega
  have hdigits := CFormat.length_decimal_le (n := n) (m := 10) (by omega) (by omega)
  -- a name that fills the buffer is longer than the first one
  have hlen := congrArg List.length h
  unfold partName at h hlen
  rw [Int32.toInt_ofNat_of_lt hn] at h hlen
  rw [CFormat.length_clip, CFormat.length_clip, hlength, hlength] at hlen
  rw [CFormat.clip_of_le (by rw [hlength]; omega), CFormat.clip_of_le (by rw [hlength]; omega), List.append_left_inj,
    hsplit, hsplit] at h
  have hletter : 57 < (116 : UInt8).toNat := by decide
  have hnames := CFormat.append_cons_inj_of_last (CFormat.not_mem_decimal hletter _)
    (CFormat.not_mem_decimal hletter _) h
  exact (List.append_left_inj _).1 hnames.1

/-! ## A dump of the whole disc -/

/-- Every close puts all of a part on the medium. -/
def Env.Closes (e : Env) : Prop := ∀ n m, e.fclose n = some m → chunkSize ≤ m

section Whole

variable {e : Env} {fuel : Nat} {w w' : World} {diskType : Int} {size : UInt64}

theorem opened_eq (hw : w.streams = []) : w.opened w' = w'.streams := by
  rw [World.opened, hw, List.length_nil, List.drop_zero]

variable (hw : w.streams = []) (hrun : (dump e fuel (some .localId) diskType size).run w = .ok 0 w')

include hw hrun

theorem length_of_return : w'.streams.length = partCount size.toNat ∧ w'.parts.flatten.length = size.toNat := by
  have hleaves := Job.leaves_finished (Job.finished_of_return hrun).2
  have hdata := hleaves.data_opened (w := w) rfl
  rw [opened_eq hw] at hdata
  have hlength := (parts_of_return hrun).1
  rw [opened_eq hw] at hlength
  refine ⟨hlength, ?_⟩
  rw [World.parts, hdata]
  show (Log.all _).length = _
  rw [Log.all_closed, ← Job.image_eq, Job.length_image]
  rfl

variable {i : Nat} {s : Stream} (hs : w'.streams[i]? = some s)

include hs

theorem name_of_return : s.name = partName (w.mem .localId) (Int32.ofNat (i + 1)) := by
  obtain ⟨hi, rfl⟩ := List.getElem?_eq_some_iff.1 hs
  have hopened : w.opened w' = w'.streams := opened_eq hw
  have hparts := congrArg Stream.name ((parts_of_return hrun).2 i (by rwa [hopened]))
  simp only [hopened] at hparts
  exact hparts

/-- All of it is on the medium. -/
theorem stored_of_return (hclose : e.Closes) : s.stored = some s.data := by
  have hc := (Job.finished_of_return hrun).2
  have hopened : s ∈ w.opened w' := by
    rw [opened_eq hw]
    exact List.mem_of_getElem? hs
  refine (Job.stored_finished (w := w) hc rfl).2 (fun i _ m hm => ?_) s hopened
  exact (Nat.min_le_left _ _).trans (hclose _ m hm)

/-- It was closed. -/
theorem fclose_of_return : .fclose (some i) ∈ w'.trace := by
  have hmem : e.memalign = true := by
    by_contra hmem
    rw [Job.run_dump_memalign fuel (Bool.eq_false_of_not_eq_true hmem)] at hrun
    cases hrun
  have hended := Job.ended_dump fuel w diskType size hmem
  rw [hrun] at hended
  have hreturned := hended.returned
  have hi : i < w'.streams.length := (List.getElem?_eq_some_iff.1 hs).1
  have hcount := hreturned.count_closed (some i)
  have hnumber : (Job.enter e w size).base + i = i := by
    show w.streams.length + i = i
    rw [hw, List.length_nil, Nat.zero_add]
  rw [if_pos ⟨i, by rw [hreturned.opened, opened_eq hw]; exact hi, by rw [hnumber]⟩] at hcount
  have hclosed : some i ∈ streamsClosed (w'.trace.drop w.trace.length) :=
    List.count_pos_iff.1 (by rw [hcount]; exact Nat.one_pos)
  obtain ⟨ev, hev, hcloses⟩ := List.mem_filterMap.1 hclosed
  cases ev with
  | fclose fp =>
    cases hcloses
    exact List.mem_of_mem_drop hev
  | _ => cases hcloses

end Whole

/-! ## What a session told of a whole disc -/

namespace Session

variable {disc : Nat → UInt8} {evs before after : List Event} {q : Phase} {ev : Event}

/-- The return of a successful dump leads to the way out. -/
theorem last_of_dumped {q' : Phase} (hkept : Kept disc evs q) (h : Move q (.stage (.dumped 0)) q') : Last q' := by
  generalize hstage : Event.stage (.dumped 0) = ev at h
  cases h with
  | dumped =>
    cases hstage
    exact Or.inl rfl
  | fail => exact Or.inl rfl
  | due =>
    have hdue := hkept.2 _ List.mem_cons_self
    rw [← hstage] at hdue
    exact hdue.elim
  | choose hev | ask _ hev | probe hev | copy hev _ _ _ _ | stop hev _ _ =>
    rw [← hstage] at hev
    exact hev.elim
  | _ => cases hstage

/-- After an error line or a successful dump no sector is reported. -/
theorem Tail.report (h : Tail ev) : errorOffsets [ev] = [] := by
  obtain ⟨args, rfl⟩ | ⟨buttons, rfl⟩ | rfl | rfl := h
  · exact errorOffsets_print (by decide) args
  · rfl
  · exact errorOffsets_print (by decide) _
  · rfl

theorem errorOffsets_tail {past : List Event} (h : ∀ ev ∈ evs, Tail ev) :
    errorOffsets (past ++ evs) = errorOffsets past := by
  induction evs generalizing past with
  | nil => rw [List.append_nil]
  | cons ev evs ih =>
    rw [List.append_cons, ih fun x hx => h x (List.mem_cons_of_mem _ hx)]
    exact errorOffsets_none (h ev List.mem_cons_self).report

/-- What a dump that came back with success had saved is what the whole session tells. -/
theorem saved_of_dumped (h : read (before ++ .stage (.dumped 0) :: after) = some q) :
    ∃ parts, (account disc before).parts = some parts ∧ parts.flatten =
      bytesAt (salvaged disc (before ++ .stage (.dumped 0) :: after)) parts.flatten.length := by
  obtain ⟨mid, mid', hbefore, hstep, hafter⟩ := Monitor.exists_step_of_run h
  have hkept : Kept disc before mid := kept_of_read hbefore
  have hlast := last_of_dumped hkept (move_of_step hstep)
  have htail : ∀ ev ∈ after, Tail ev :=
    Monitor.forall_mem_of_run (I := Last) (fun _ _ _ hl hs => hl.step hs) hlast hafter
  obtain ⟨b, lens, hlayout, ⟨parts, hparts, rfl, hbytes⟩, -⟩ := hkept.saved
  refine ⟨parts, hparts, ?_⟩
  have hreports : errorOffsets (before ++ .stage (.dumped 0) :: after) = errorOffsets before := by
    rw [List.append_cons, errorOffsets_tail htail]
    exact errorOffsets_none rfl
  have hsalvaged : salvaged disc (before ++ .stage (.dumped 0) :: after) = salvaged disc before := by
    funext i
    rw [salvaged, hreports, salvaged]
  rw [hsalvaged, List.length_flatten]
  exact hbytes

end Session

theorem partCount_getDiskSizeBytes (diskType : Int) :
    partCount (getDiskSizeBytes diskType).toNat < 2 ^ 31 - 1 := by
  unfold getDiskSizeBytes
  split_ifs <;> decide

/-! ## Sessions on a medium -/

/-- The files of a medium. -/
abbrev Directory := Bytes → Option Bytes

/-- A session: a run of `main`, left after the events `evs`: by itself, by Reset or by switching off. -/
structure Sitting where
  env : Env
  fuel : Nat
  start : World
  stop : Stop
  last : World
  evs : List Event
  initial : start.Initial
  run : (main env fuel).run start = .error stop last
  cut : evs <+: last.trace

namespace Sitting

/-- The `DiskID` of the disc. -/
def header (s : Sitting) : Nat → UInt8 := s.last.mem .localId

/-- The name `%s` reads from it. -/
def disc (s : Sitting) : Bytes := CFormat.cstr 255 s.header

/-- Part `k` of the disc. -/
def part (s : Sitting) (k : Nat) : Bytes := partName s.header (Int32.ofNat k)

/-- What a session leaves of a medium: files it did not open stay as they were, and one that was closed holds what the
close put there, unless another one of the name was opened later. -/
structure Leaves (s : Sitting) (dir : Directory) : Prop where
  other : ∀ name ∉ openedNames s.evs, dir name = s.start.prior name
  closed : ∀ i st, s.last.streams[i]? = some st → .fclose (some i) ∈ s.evs →
    (∀ k st', i < k → s.last.streams[k]? = some st' → st'.name ≠ st.name) → dir st.name = st.stored

variable {s : Sitting}

theorem course (s : Sitting) : Session.Course s.env s.fuel s.start s.last := (Session.course_main s.initial).error s.run

theorem listed (s : Sitting) : s.last.Listed := s.course.told.2.1 (Listed.initial s.initial)

/-- **A session opens parts of its disc only.** -/
theorem named {name : Bytes} (h : name ∈ openedNames s.evs) : ∃ k, name = partName s.header k := by
  have hlast : name ∈ openedNames s.last.trace := by
    obtain ⟨rest, hrest⟩ := s.cut
    rw [← hrest, openedNames_append]
    exact List.mem_append_left _ h
  rw [← s.listed] at hlast
  obtain ⟨st, hst, rfl⟩ := List.mem_map.1 hlast
  exact s.course.named s.initial st hst

/-- A session that came as far as the return of a successful dump: called from `w₁`, it came back in `w₂`, and nothing
after it opened a file. -/
structure Completes (s : Sitting) (args : DumpArgs) (w₁ w₂ : World) : Prop where
  size : args.size = getDiskSizeBytes args.diskType
  disk : args.disk = some .localId
  fresh : (Session.called args w₁).streams = []
  run : (dump s.env s.fuel (some .localId) args.diskType args.size).run (Session.called args w₁) = .ok 0 w₂
  accounted : w₂.Accounted s.env.disc
  upto : w₂.trace ++ [.stage (.dumped 0)] <+: s.evs
  streams : s.last.streams = w₂.streams
  header : s.header = w₁.mem .localId

/-- A session that tells of a successful dump is one. -/
theorem complete (hdone : .stage (.dumped 0) ∈ s.evs) : ∃ args w₁ w₂, s.Completes args w₁ w₂ := by
  obtain ⟨stop, args, w₁, w₂, hset, hrun, hreturns, haccounted, n, evs, hlast, -⟩ :=
    s.course.complete s.initial (s.cut.subset hdone)
  have hid : w₂.mem .localId = w₁.mem .localId := (Job.finished_of_return hrun).2.id
  refine ⟨args, w₁, w₂, hset.size, hset.disk, hset.streams, hrun, haccounted, ?_, by rw [hlast]; rfl, ?_⟩
  · have hupto : w₂.trace ++ [.stage (.dumped 0)] <+: s.last.trace := by
      rw [hlast]
      exact List.prefix_append _ _
    -- both are cuts of the same run, and the shorter one does not tell of the return
    rcases List.prefix_or_prefix_of_prefix hupto s.cut with h | h
    · exact h
    · rcases List.prefix_concat_iff.1 h with h | h
      · rw [h]
      · have hmem : (0 : Int) ∈ returns w₂.trace := List.mem_filterMap.2 ⟨_, h.subset hdone, rfl⟩
        rw [hreturns] at hmem
        cases hmem
  · rw [Sitting.header, hlast]
    exact hid

/-- What a complete session put on the medium: the parts of the disc, which make up all of it, with zeros for the
sectors that were reported. -/
def Holds (s : Sitting) (dir : Directory) : Prop :=
  ∃ diskType, .stage (.dump (some .localId) diskType (getDiskSizeBytes diskType)) ∈ s.evs ∧ ∃ parts : List Bytes,
    (List.range (partCount (getDiskSizeBytes diskType).toNat)).map (fun i => dir (s.part (i + 1))) = parts.map some ∧
    parts.flatten = bytesAt (salvaged s.env.disc s.evs) (getDiskSizeBytes diskType).toNat

section Completes

variable {args : DumpArgs} {w₁ w₂ : World} {mid : Directory} (h : s.Completes args w₁ w₂)

include h

theorem Completes.few : w₂.streams.length < 2 ^ 31 - 1 := by
  rw [(length_of_return h.fresh h.run).1, h.size]
  exact partCount_getDiskSizeBytes args.diskType

/-- The parts of a complete session, one by one. -/
theorem part_of_complete (hleft : s.Leaves mid) (hclose : s.env.Closes) (hroom : s.disc.length ≤ 235) {i : Nat}
    {st : Stream} (hst : w₂.streams[i]? = some st) : mid (s.part (i + 1)) = some st.data := by
  have hname : ∀ {k : Nat} {st : Stream}, w₂.streams[k]? = some st → st.name = s.part (k + 1) := fun hst => by
    rw [part, h.header]
    exact name_of_return h.fresh h.run hst
  have hcount : ∀ {k : Nat} {st : Stream}, w₂.streams[k]? = some st → k + 1 < 2 ^ 31 := fun hst => by
    have hfew := h.few
    have hk := (List.getElem?_eq_some_iff.1 hst).1
    omega
  have hfclose := fclose_of_return h.fresh h.run hst
  rw [← hname hst, ← stored_of_return h.fresh h.run hst hclose]
  refine hleft.closed i st (by rw [h.streams]; exact hst) (h.upto.subset (List.mem_append_left _ hfclose)) ?_
  intro k st' hik hst' heq
  rw [h.streams] at hst'
  rw [hname hst, hname hst'] at heq
  have hnumber := partName_injective hroom (hcount hst') (hcount hst) heq
  omega

theorem Completes.stage : .stage (.dump (some .localId) args.diskType (getDiskSizeBytes args.diskType)) ∈ s.evs := by
  refine h.upto.subset (List.mem_append_left _ ?_)
  rw [(Job.finished_of_return h.run).2.trace, ← h.size, ← h.disk]
  simp [Job.enter, Session.called, World.log]

/-- What was dumped is what the events of the session tell. -/
theorem Completes.bytes : w₂.parts.flatten = bytesAt (salvaged s.env.disc s.evs) args.size.toNat := by
  obtain ⟨after, hevs⟩ := h.upto
  rw [List.append_assoc, List.singleton_append] at hevs
  obtain ⟨q, hread, -⟩ := (Session.ends_main s.initial).error s.run
  obtain ⟨rest, hrest⟩ := s.cut
  rw [← hrest] at hread
  obtain ⟨q', hread', -⟩ := Monitor.exists_run_of_append hread
  rw [← hevs] at hread' ⊢
  obtain ⟨parts, hparts, hbytes⟩ := Session.saved_of_dumped hread'
  rw [← h.accounted.parts parts hparts, (length_of_return h.fresh h.run).2] at hbytes
  exact hbytes

end Completes

/-- **A session that dumped a disc to the end** leaves the whole disc. -/
theorem holds_of_complete {mid : Directory} (hdone : .stage (.dumped 0) ∈ s.evs) (hleft : s.Leaves mid)
    (hclose : s.env.Closes) (hroom : s.disc.length ≤ 235) : s.Holds mid := by
  obtain ⟨args, w₁, w₂, h⟩ := complete hdone
  refine ⟨args.diskType, h.stage, w₂.parts, ?_, by rw [← h.size]; exact h.bytes⟩
  rw [← h.size, ← (length_of_return h.fresh h.run).1]
  refine List.ext_getElem (by simp [World.parts]) fun i hi _ => ?_
  rw [List.length_map, List.length_range] at hi
  simp only [World.parts, List.getElem_map, List.getElem_range]
  exact part_of_complete h hleft hclose hroom (List.getElem?_eq_getElem hi)

end Sitting

/-- The stream of a name found first from the end. -/
theorem find?_reverse_of_last {l : List Stream} {i : Nat} {st : Stream} (hst : l[i]? = some st)
    (hlast : ∀ k st', i < k → l[k]? = some st' → st'.name ≠ st.name) :
    l.reverse.find? (fun s => s.name = st.name) = some st := by
  obtain ⟨hi, rfl⟩ := List.getElem?_eq_some_iff.1 hst
  have hsplit : l = l.take i ++ l[i] :: l.drop (i + 1) := by
    rw [← List.drop_eq_getElem_cons hi, List.take_append_drop]
  have hnone : (l.drop (i + 1)).reverse.find? (fun s => s.name = l[i].name) = none := by
    rw [List.find?_eq_none]
    intro s hs
    obtain ⟨k, hk⟩ := List.mem_iff_getElem?.1 (List.mem_reverse.1 hs)
    rw [List.getElem?_drop] at hk
    simpa using hlast _ s (by omega) hk
  have hreverse : l.reverse = (l.drop (i + 1)).reverse ++ l[i] :: (l.take i).reverse :=
    (congrArg List.reverse hsplit).trans (by simp)
  rw [hreverse, List.find?_append, hnone, Option.none_or, List.find?_cons_of_pos (by simp)]

/-- The directory of the model is one that a session leaves, if it was not cut off and every file it closed is on the
medium. -/
theorem Sitting.leaves_file {s : Sitting} (hwhole : s.evs = s.last.trace)
    (hstored : ∀ i st, s.last.streams[i]? = some st → .fclose (some i) ∈ s.evs → st.stored = some st.data) :
    s.Leaves s.last.file where
  other name hname := by
    rw [hwhole, ← s.listed] at hname
    have hnone : s.last.streams.reverse.find? (fun st => st.name = name) = none := by
      rw [List.find?_eq_none]
      intro st hst
      have hne : st.name ≠ name := fun h => hname (List.mem_map.2 ⟨st, List.mem_reverse.1 hst, h⟩)
      simpa using hne
    rw [World.file, World.lastStream, hnone]
    exact congrFun s.course.told.2.2 name
  closed i st hst hfclose hlast := by
    rw [World.file, World.lastStream, find?_reverse_of_last hst hlast]
    show some (st.stored.getD st.data) = st.stored
    rw [hstored i st hst hfclose]
    rfl

/-- Sessions one after the other on a medium: each finds what the one before it left. -/
inductive Sittings : Directory → List Sitting → Directory → Prop
  | nil (dir : Directory) : Sittings dir [] dir
  | cons {mid dir : Directory} {s : Sitting} {rest : List Sitting} (hleft : s.Leaves mid)
      (hrest : Sittings mid rest dir) : Sittings s.start.prior (s :: rest) dir

/-- Files that no session opens stay as they are. -/
theorem Sittings.keeps {dir dir' : Directory} {later : List Sitting} (h : Sittings dir later dir') {name : Bytes}
    (hname : ∀ s ∈ later, name ∉ openedNames s.evs) : dir' name = dir name := by
  induction h with
  | nil => rfl
  | cons hleft _ ih =>
    rw [ih fun s hs => hname s (List.mem_cons_of_mem _ hs)]
    exact hleft.other name (hname _ List.mem_cons_self)

/-- **Dumps of different discs live side by side.** After a session, other sessions on the same medium, however each of
them ends, leave its parts as they are as long as no disc of the same name is dumped. If the session dumped its disc to
the end, the parts still hold all of it. -/
theorem dumps_kept {s : Sitting} {later : List Sitting} {mid dir : Directory} (hleft : s.Leaves mid)
    (hlater : Sittings mid later dir) (hroom : s.disc.length ≤ 235)
    (hother : ∀ t ∈ later, t.disc = s.disc → openedNames t.evs = []) :
    (∀ k < 2 ^ 31, dir (s.part k) = mid (s.part k)) ∧
      (s.env.Closes → .stage (.dumped 0) ∈ s.evs → s.Holds dir) := by
  have hkept : ∀ k < 2 ^ 31, dir (s.part k) = mid (s.part k) := by
    intro k hk
    refine hlater.keeps fun t ht hopened => ?_
    obtain ⟨i, hi⟩ := Sitting.named hopened
    rw [hother t ht (cstr_eq_of_partName hroom hk hi).symm] at hopened
    cases hopened
  refine ⟨hkept, fun hclose hdone => ?_⟩
  obtain ⟨diskType, hstage, parts, hparts, hbytes⟩ := Sitting.holds_of_complete hdone hleft hclose hroom
  refine ⟨diskType, hstage, parts, ?_, hbytes⟩
  rw [← hparts]
  refine List.map_congr_left fun i hi => hkept (i + 1) ?_
  have hfew := partCount_getDiskSizeBytes diskType
  have hi := List.mem_range.1 hi
  omega

/-! ## Two sessions -/

/-- A session that was not cut off. -/
def Sitting.ofRun {e : Env} {fuel : Nat} {w w' : World} {st : Stop} (hw : w.Initial)
    (hrun : (main e fuel).run w = .error st w') : Sitting := ⟨e, fuel, w, st, w', w'.trace, hw, hrun, List.prefix_rfl⟩

/-- A disc, and a user who presses these buttons one after the other. -/
def presser (disc : Nat → UInt8) (buttons : List UInt32) : Env :=
  { Env.calm disc with pad := fun n => buttons.getD n 0 }

/-- Once the buttons are released nothing stops a dump. -/
theorem exists_return_presser {disc : Nat → UInt8} {buttons : List UInt32} {w : World} {size : UInt64} (fuel : Nat)
    (diskType : Int) (hsamples : buttons.length ≤ w.samples) (hsize : size.toNat ≤ 2 ^ 34) :
    ∃ w', (dump (presser disc buttons) fuel (some .localId) diskType size).run w = .ok 0 w' := by
  obtain ⟨w', hrun, -⟩ := (Job.ended_dump (e := presser disc buttons) fuel w diskType size rfl).of_pass fun s hs => by
    have ha : addressable s = true := Job.addressable_iff.2 (Nat.lt_of_lt_of_le ((Job.lt_sectors _).1 hs) hsize)
    refine (Job.halt_enter_iff hs).2 ⟨fun _ => rfl, Or.inl (Job.readable_of_ok (fun _ _ => rfl) ha), nofun, ?_⟩
    have hnone : buttons.getD (w.samples + s) 0 = 0 := by
      rw [List.getD_eq_getElem?_getD, List.getElem?_eq_none (by omega)]
      rfl
    show buttons.getD (w.samples + s) 0 &&& wpadButtonHome = 0
    rw [hnone]
    decide
  exact ⟨w', hrun⟩

/-- The disc `RMCE01`, and the disc `RMCP01`. -/
def firstHeader : Nat → UInt8 := wiiHeader [0x52, 0x4D, 0x43, 0x45, 0x30, 0x31]
def secondHeader : Nat → UInt8 := wiiHeader [0x52, 0x4D, 0x43, 0x50, 0x30, 0x31]

/-- A user who dumps the first disc to a USB drive, and then leaves the console alone. -/
def dumper : Env := presser firstHeader [wpadButtonA, 0, wpadButton1, wpadButtonA, 0, wpadButtonA, 0, wpadButtonA]

def firstWorld : World := World.boot (fun _ => firstHeader) fun _ => none

theorem exists_setUp_dumper : ∃ args w₁, (setUp dumper 3).run firstWorld = .ok args w₁ ∧
    args.size.toNat ≤ 2 ^ 34 ∧ 8 ≤ w₁.samples ∧
    CFormat.cstr 255 (w₁.mem .localId) = [0x52, 0x4D, 0x43, 0x45, 0x30, 0x31] :=
  Imp.exists_ok_of_decide (by decide +kernel)

theorem initial_firstWorld : firstWorld.Initial := initial_boot _ _

/-- What the first session leaves. -/
@[irreducible] def firstShelf : Directory := (finalWorld ((main dumper 3).run firstWorld)).file

theorem exists_sitting_dumper : ∃ s : Sitting, s.Leaves firstShelf ∧ .stage (.dumped 0) ∈ s.evs ∧ s.env.Closes ∧
    s.disc = [0x52, 0x4D, 0x43, 0x45, 0x30, 0x31] := by
  obtain ⟨args, w₁, hsetUp, hsize, hsamples, hdisc⟩ := exists_setUp_dumper
  obtain ⟨stop, hset⟩ := (Session.ends_setUp initial_firstWorld).ok hsetUp
  obtain ⟨w₂, hdump⟩ : ∃ w₂, (dump dumper 3 (some .localId) args.diskType args.size).run (Session.called args w₁) =
      .ok 0 w₂ := exists_return_presser 3 args.diskType hsamples hsize
  have hcloses : dumper.Closes := nofun
  have hcalled : (Session.called args w₁).streams = [] := hset.streams
  have hid : w₂.mem .localId = w₁.mem .localId := (Job.finished_of_return hdump).2.id
  have hstored : ∀ (i : Nat) (st : Stream), w₂.streams[i]? = some st → st.stored = some st.data := fun i st hst =>
    stored_of_return hcalled hdump hst hcloses
  have hmain : (main dumper 3).run firstWorld =
      (Global.resetAfterPause dumper 3).run (w₂.log (.stage (.dumped 0))) := by
    unfold main dumpAndLeave enter
    rw [Imp.run_bind_ok hsetUp, Imp.run_bind_ok (Job.run_emit _ _), hset.disk]
    rw [Session.called, hset.disk] at hdump
    rw [Imp.run_bind_ok hdump, Imp.run_bind_ok (Job.run_emit _ _), if_neg (not_not.2 rfl)]
  unfold firstShelf
  -- the user is forgotten: nothing below evaluates the run again
  generalize dumper = e at hmain hcloses ⊢
  have hleave := ends_resetAfterPause e 3 (w₂.log (.stage (.dumped 0)))
  cases hrun : (Global.resetAfterPause e 3).run (w₂.log (.stage (.dumped 0))) with
  | ok u w' => exact (hleave.ok hrun).elim
  | error st w' =>
    obtain ⟨-, n, evs, rfl, -⟩ := hleave.error hrun
    rw [hrun] at hmain
    rw [hmain]
    refine ⟨.ofRun initial_firstWorld hmain, Sitting.leaves_file rfl fun i st hst _ => hstored i st hst, ?_, hcloses,
      ?_⟩
    · show _ ∈ (w₂.trace ++ [.stage (.dumped 0)]) ++ evs
      simp
    · show CFormat.cstr 255 (w₂.mem .localId) = _
      rw [hid, hdisc]

/-- A user who dumps the second disc to the same drive and holds HOME at the second sector. -/
def quitter : Env := presser secondHeader
  [wpadButtonA, 0, wpadButton1, wpadButtonA, 0, wpadButtonA, 0, wpadButtonA, 0, 0, wpadButtonHome]

def secondWorld : World := World.boot (fun _ => secondHeader) firstShelf

theorem exists_run_quitter : ∃ st w', (main quitter 3).run secondWorld = .error st w' ∧
    CFormat.cstr 255 (w'.mem .localId) = [0x52, 0x4D, 0x43, 0x50, 0x30, 0x31] ∧ openedNames w'.trace ≠ [] ∧
    streamsClosed w'.trace = [] := Imp.exists_error_of_decide (by decide +kernel)

theorem exists_sitting_quitter : ∃ (t : Sitting) (dir : Directory), t.start.prior = firstShelf ∧ t.Leaves dir ∧
    t.disc = [0x52, 0x4D, 0x43, 0x50, 0x30, 0x31] ∧ openedNames t.evs ≠ [] := by
  obtain ⟨st, w', hrun, hdisc, hopened, hclosed⟩ := exists_run_quitter
  have hinitial : secondWorld.Initial := initial_boot _ _
  have hprior : secondWorld.prior = firstShelf := rfl
  generalize quitter = e at hrun
  generalize secondWorld = w at hrun hinitial hprior
  refine ⟨.ofRun hinitial hrun, _, hprior, Sitting.leaves_file rfl fun i s _ hfclose => ?_, hdisc, hopened⟩
  have hmem : some i ∈ streamsClosed w'.trace := List.mem_filterMap.2 ⟨_, hfclose, rfl⟩
  rw [hclosed] at hmem
  cases hmem

theorem dumps_kept_two : ∃ (s t : Sitting) (dir : Directory), s.Leaves t.start.prior ∧ t.Leaves dir ∧
    t.disc ≠ s.disc ∧ openedNames t.evs ≠ [] ∧ s.Holds dir := by
  obtain ⟨s, hleft, hdone, hcloses, hdisc⟩ := exists_sitting_dumper
  obtain ⟨t, dir, hprior, hleft', hdisc', hopened⟩ := exists_sitting_quitter
  have hne : t.disc ≠ s.disc := by
    rw [hdisc, hdisc']
    decide
  rw [← hprior] at hleft
  refine ⟨s, t, dir, hleft, hleft', hne, hopened, (dumps_kept hleft (.cons hleft' (.nil dir)) ?_ ?_).2 hcloses hdone⟩
  · rw [hdisc]
    decide
  · intro t' ht' heq
    rw [List.mem_singleton.1 ht'] at heq
    exact absurd heq hne

end TakeADump
