import TakeADump.Dump.Interrupted

/-!
# The names of the parts

`%s` of `diskId->gameCode` runs on into `makerCode` and whatever follows until a zero byte. `Named` is the invariant
that the names passed to `fopen` so far are those of the parts opened; `part_names_iff`: they are the four characters of
the game code, `.part`, the number and `.iso` exactly when `makerCode[0]` is zero.
-/

namespace TakeADump

open Rollover (Log)

/-- The name meant for part `k`. -/
def meantName (header : Nat → UInt8) (k : Int) : Bytes :=
  bytesAt header 4 ++ CFormat.ascii ".part" ++ CFormat.decimal k ++ CFormat.ascii ".iso"

/-- The names passed to `fopen`. -/
def fopenNames (evs : List Event) : List Bytes :=
  evs.filterMap fun
    | .fopen name _ => some name
    | _ => none

/-- The names a run passes to `fopen`, in order. -/
def World.fopenNames (w w' : World) : List Bytes := TakeADump.fopenNames (w'.trace.drop w.trace.length)

@[simp] theorem fopenNames_append (a b : List Event) : fopenNames (a ++ b) = fopenNames a ++ fopenNames b :=
  List.filterMap_append

/-! ## One name -/

section Name

variable {header : Nat → UInt8}

theorem length_ascii_part : (CFormat.ascii ".part").length = 5 := by decide

theorem length_ascii_iso : (CFormat.ascii ".iso").length = 4 := by decide

theorem length_meantName (header : Nat → UInt8) {n : Nat} (h : n < 2 ^ 31) : (meantName header n).length ≤ 23 := by
  have := CFormat.length_decimal_le (n := n) (m := 10) (by omega) (by omega)
  simp only [meantName, List.length_append, length_bytesAt, length_ascii_part, length_ascii_iso]
  omega

/-- Different numbers give different names. -/
theorem meantName_injective {m n : Nat} (h : meantName header m = meantName header n) : m = n := by
  unfold meantName at h
  rw [List.append_left_inj, List.append_right_inj] at h
  exact CFormat.decimal_injective h

/-- The name of a part of a disc whose maker code starts with a zero byte. -/
theorem partName_of_zero (hcode : ∀ i < 4, header i ≠ 0) (h : header 4 = 0) {n : Nat} (hn : n < 2 ^ 31) :
    partName header (Int32.ofNat n) = meantName header n := by
  have hlen := length_meantName header hn
  unfold partName
  rw [Int32.toInt_ofNat_of_lt hn, CFormat.cstr_of_zero (k := 4) (by omega) hcode h]
  exact CFormat.clip_of_le (by unfold meantName bytesAt at hlen; omega)

/-- The name of a part of any other disc is longer. -/
theorem partName_of_ne_zero (hcode : ∀ i < 4, header i ≠ 0) (h : header 4 ≠ 0) {n : Nat} (hn : n < 2 ^ 31) :
    partName header (Int32.ofNat n) ≠ meantName header n := by
  intro heq
  have hlen := length_meantName header hn
  have hlong : 4 < (CFormat.cstr 255 header).length :=
    CFormat.lt_length_cstr (by omega) fun i hi => by
      rcases Nat.lt_or_eq_of_le hi with hi | rfl
      · exact hcode i hi
      · exact h
  have hlength := congrArg List.length heq
  unfold partName at hlength
  rw [Int32.toInt_ofNat_of_lt hn, CFormat.length_clip] at hlength
  simp only [meantName, List.length_append, length_bytesAt, length_ascii_part, length_ascii_iso] at hlength hlen
  omega

end Name

/-! ## The names of a copy -/

namespace Job

variable {j : Job} {p : Point} {k : Nat}

/-- The names passed to `fopen` so far are those of the parts opened. -/
def Named (j : Job) (p : Point) : Prop := fopenNames p.trace = (List.range p.log.parts.length).map j.name

theorem Named.note (h : j.Named p) {evs : List Event} (hev : fopenNames evs = []) : j.Named (p.note evs) := by
  unfold Named Point.note
  rw [fopenNames_append, hev, List.append_nil]
  exact h

theorem fopenNames_closeEvents (l : Log UInt8) : fopenNames (j.closeEvents l) = [] := by
  unfold closeEvents
  split <;> rfl

theorem Named.closeStep (h : j.Named p) : j.Named (j.closeStep p) := by
  unfold Named
  rw [parts_closeStep]
  exact h.note (fopenNames_closeEvents p.log)

/-- Rolling over opens at most one part, under the next name. -/
theorem Named.roll (h : j.Named p) : j.Named (j.roll p) := by
  unfold Named at h ⊢
  show fopenNames (p.trace ++ ([.moveUp] ++ j.rollEvents p.log)) = _
  rw [fopenNames_append, fopenNames_append, rollEvents, h]
  by_cases hn : p.log.needsPart chunkSize
  · rw [if_pos hn, fopenNames_append, fopenNames_closeEvents, show (j.roll p).log = ⟨p.log.parts, some []⟩ from
      Log.roll_pos hn, Log.length_parts_open, List.range_succ, List.map_append]
    rfl
  · rw [if_neg hn, show (j.roll p).log = p.log from Log.roll_neg hn]
    exact List.append_nil _

theorem Named.readStep (h : j.Named p) : j.Named (j.readStep p) := by
  have hread : fopenNames (j.readEvents p.done) = [] := by
    unfold readEvents fopenNames
    rw [List.filterMap_flatMap]
    simp
  exact h.note hread

theorem Named.settle (h : j.Named p) : j.Named (j.settle p) := by
  unfold Job.settle
  split
  · exact h
  · exact h.note (show fopenNames [errorReport p.done, .memset (j.len p.done)] = [] from rfl)

theorem Named.writeStep (h : j.Named p) (n : Nat) : j.Named (j.writeStep n p) := by
  unfold Named
  rw [show (j.writeStep n p).log.parts.length = p.log.parts.length from Log.length_parts_append _ _]
  exact h.note (show fopenNames [.fwrite _ _ _] = [] from rfl)

theorem Named.advance (h : j.Named p) : j.Named (j.advance p) :=
  h.note (show fopenNames [j.progress _, .sample _] = [] from rfl)

theorem Named.readyToWrite (h : j.Named p) : j.Named (j.readyToWrite p) := h.roll.readStep.settle

theorem named_point (s : Nat) : j.Named (j.point s) := by
  induction s with
  | zero => rfl
  | succ s ih => exact (ih.readyToWrite.writeStep _).advance

/-! ## The names of a run -/

theorem fopenNames_quiet {evs : List Event} (h : ∀ ev ∈ evs, ev.quiet = true) : fopenNames evs = [] := by
  unfold fopenNames
  rw [List.filterMap_eq_nil_iff]
  intro ev hev
  have hq := h ev hev
  cases ev <;> first | rfl | cases hq

theorem Core.fopenNames_enter {e : Env} {w w' : World} {size : UInt64} (hc : (enter e w size).Core p w') :
    w.fopenNames w' = fopenNames p.trace := by
  rw [World.fopenNames, hc.trace_enter, fopenNames_append]
  rfl

/-- A log in which a sector has a part. -/
theorem parts_pos {l : Log UInt8} {c : Bytes} (h : l.cur = some c) : 0 < l.parts.length := by
  simp [Log.parts, h]

theorem length_parts_roll (hk : k < j.sectors) :
    0 < ((j.point k).log.roll chunkSize).parts.length ∧
      ((j.point k).log.roll chunkSize).parts.length ≤ partCount j.size.toNat := by
  obtain ⟨c, hcur, -, -⟩ := (j.ready_point hk).cur
  refine ⟨parts_pos hcur, ?_⟩
  have hle := length_parts_le (j := j) hk
  rwa [point_succ_log, Log.length_parts_append] at hle

/-- Waiting and leaving opens nothing. -/
theorem Core.fopenNames_after {e : Env} {w w₁ w' : World} {size : UInt64} (hc : (enter e w size).Core p w₁)
    (hq : Quiet w₁ w') : w.fopenNames w' = fopenNames p.trace := by
  obtain ⟨n, evs, rfl, hquiet⟩ := hq
  have htrace : w₁.trace = (enter e w size).start.trace ++ p.trace := hc.trace
  have hle : w.trace.length ≤ w₁.trace.length := by
    rw [htrace, List.length_append]
    exact Nat.le_trans (by simp [enter]) (Nat.le_add_right _ _)
  rw [← hc.fopenNames_enter, World.fopenNames, World.fopenNames]
  show TakeADump.fopenNames (List.drop _ (w₁.trace ++ evs)) = _
  rw [List.drop_append_of_le_length hle, fopenNames_append, fopenNames_quiet hquiet, List.append_nil]

theorem partCount_pos {n : Nat} (h : 0 < n) : 0 < partCount n := Nat.div_pos (by omega) chunkSize_pos

/-! ### Where a run is over -/

theorem named_finished (k : Nat) : j.Named (j.finished (j.point k)) := (named_point k).closeStep.note rfl

theorem fopenNames_atRefused (k : Nat) : fopenNames (j.atRefused k).trace =
    (List.range ((j.point k).log.parts.length + 1)).map j.name := by
  have h : j.Named (j.closeStep ((j.point k).note [.moveUp])) := ((named_point k).note rfl).closeStep
  rw [Named, parts_closeStep] at h
  rw [atRefused, Point.note, fopenNames_append, h, List.range_succ, List.map_append]
  rfl

theorem named_atUnreadable (k : Nat) : j.Named (j.atUnreadable k) :=
  (named_point k).roll.readStep.note (show fopenNames [errorReport k] = [] from rfl)

theorem named_atShort (k : Nat) : j.Named (j.atShort k) :=
  Named.note (Named.closeStep (Named.note ((named_point k).readyToWrite.writeStep _) rfl)) rfl

theorem named_left (k : Nat) : j.Named (j.left (j.atWritten k)) :=
  Named.note (Named.advance ((named_point k).readyToWrite.writeStep _)) rfl

theorem length_parts_atShort (k : Nat) :
    (j.atShort k).log.parts.length = ((j.point k).log.roll chunkSize).parts.length := by
  calc (j.atShort k).log.parts.length
      = (j.writeStep (j.taken k) (j.readyToWrite (j.point k))).log.parts.length :=
        congrArg List.length (j.parts_closeStep _)
    _ = (j.readyToWrite (j.point k)).log.parts.length := Log.length_parts_append _ _
    _ = ((j.point k).log.roll chunkSize).parts.length := by rw [log_readyToWrite]

theorem length_parts_left (k : Nat) :
    (j.left (j.atWritten k)).log.parts.length = ((j.point k).log.roll chunkSize).parts.length := by
  rw [show (j.left (j.atWritten k)).log = _ from j.log_atWritten k, point_succ_log, Log.length_parts_append]

/-- A dump that did all sectors opened all parts. -/
theorem Core.fopenNames_finished {e : Env} {w w' : World} {size : UInt64}
    (hc : (enter e w size).Core ((enter e w size).finished ((enter e w size).point (enter e w size).sectors)) w') :
    w.fopenNames w' = (List.range (partCount size.toNat)).map (enter e w size).name := by
  have hlen := length_parts_all (j := enter e w size)
  have hnamed := named_finished (j := enter e w size) (enter e w size).sectors
  rw [Named, show ((enter e w size).finished _).log.parts = _ from parts_closeStep (enter e w size) _, hlen] at hnamed
  exact hc.fopenNames_enter.trans hnamed

/-- **The names of a run** are those of the first parts, at least one if there is a sector. -/
theorem Ended.fopenNames {e : Env} {w : World} {size : UInt64} {r : EStateM.Result Stop World Int}
    (h : (enter e w size).Ended r) : ∃ m, w.fopenNames (finalWorld r) = (List.range m).map (enter e w size).name ∧
      m ≤ partCount size.toNat ∧ (0 < size.toNat → 0 < m) := by
  cases h with
  | finished _ hc _ =>
    exact ⟨_, hc.fopenNames_finished, Nat.le_refl _, partCount_pos⟩
  | @refused k w' hk _ hhalt hc _ =>
    have hroll := length_parts_roll hk
    rw [Log.roll_pos (halt_inv _ hhalt).1, Log.length_parts_open] at hroll
    exact ⟨_, hc.fopenNames_enter.trans (fopenNames_atRefused k), hroll.2, fun _ => hroll.1⟩
  | @unreadable k st w₁ w' hk _ _ _ hq hc _ =>
    have hroll := length_parts_roll hk
    exact ⟨_, (hc.fopenNames_after hq).trans (named_atUnreadable k), hroll.2, fun _ => hroll.1⟩
  | @short k w' hk _ _ hc _ =>
    have hroll := length_parts_roll hk
    rw [← length_parts_atShort] at hroll
    exact ⟨_, hc.fopenNames_enter.trans (named_atShort k), hroll.2, fun _ => hroll.1⟩
  | @home k w' hk _ _ hc _ =>
    have hroll := length_parts_roll hk
    rw [← length_parts_left] at hroll
    exact ⟨_, hc.fopenNames_enter.trans (named_left k), hroll.2, fun _ => hroll.1⟩

end Job

/-! ## Right names -/

section Naming

variable (e : Env) (fuel : Nat) (w : World) (diskType : Int) (size : UInt64)

/-- The names a dump passes to `fopen` are the ones meant, none fills the buffer, and no two are the same. -/
structure NamesRight (header : Nat → UInt8) (names : List Bytes) : Prop where
  meant : names = (List.range names.length).map fun i => meantName header (i + 1 : Nat)
  short : ∀ name ∈ names, name.length < 255
  distinct : names.Nodup

theorem namesRight_meant {header : Nat → UInt8} {m : Nat} (hm : m < 2 ^ 31) :
    NamesRight header ((List.range m).map fun i => meantName header (i + 1 : Nat)) where
  meant := by rw [List.length_map, List.length_range]
  short := by
    intro name hname
    obtain ⟨i, hi, rfl⟩ := List.mem_map.1 hname
    have hi := List.mem_range.1 hi
    have hlen := length_meantName header (n := i + 1) (by omega)
    omega
  distinct := by
    refine List.Nodup.map_on (fun x _ y _ hxy => ?_) List.nodup_range
    exact Nat.succ_injective (meantName_injective hxy)

/-- A dump of a disc whose byte after the game code is not zero uses another name for its first part. -/
theorem not_namesRight (hmem : e.memalign = true) (hpos : 0 < size.toNat) (hcode : ∀ i < 4, w.mem .localId i ≠ 0)
    (hne : w.mem .localId 4 ≠ 0) :
    ¬ NamesRight (w.mem .localId) (w.fopenNames (finalWorld ((dump e fuel (some .localId) diskType size).run w))) := by
  intro h
  obtain ⟨m, hnames, -, hm⟩ := (Job.ended_dump fuel w diskType size hmem).fopenNames
  rw [hnames] at h
  have hfirst := congrArg (fun names : List Bytes => names[0]?) h.meant
  have hname : (Job.enter e w size).name 0 = meantName (w.mem .localId) (1 : Nat) := by simpa [hm hpos] using hfirst
  exact partName_of_ne_zero hcode hne (n := 1) (by omega) hname

/-- **Part file names.** For a disc whose four game code bytes are not zero, the names a dump passes to `fopen` are the
game code, `.part`, the number and `.iso`, are not cut off and differ, exactly when no part is opened at all or the byte
after the game code is zero. -/
theorem part_names_iff (hcode : ∀ i < 4, w.mem .localId i ≠ 0) (hsize : partCount size.toNat < 2 ^ 31) :
    NamesRight (w.mem .localId) (w.fopenNames (finalWorld ((dump e fuel (some .localId) diskType size).run w))) ↔
      e.memalign = false ∨ size.toNat = 0 ∨ w.mem .localId 4 = 0 := by
  cases hmem : e.memalign with
  | false =>
    have hnone : w.fopenNames ((w.log (.memalign false)).log (.print "Failed to allocate buffer." [])) = [] := by
      simp [World.fopenNames, fopenNames, World.log]
    rw [Job.run_dump_memalign fuel hmem, finalWorld_ok, hnone]
    exact ⟨fun _ => Or.inl rfl, fun _ => namesRight_meant (m := 0) (by omega)⟩
  | true =>
    constructor
    · intro h
      rcases Nat.eq_zero_or_pos size.toNat with hzero | hpos
      · exact Or.inr (Or.inl hzero)
      · exact Or.inr (Or.inr (not_not.1 fun hne => not_namesRight e fuel w diskType size hmem hpos hcode hne h))
    · obtain ⟨m, hnames, hle, -⟩ := (Job.ended_dump fuel w diskType size hmem).fopenNames
      rw [hnames]
      rintro (h | h | h)
      · cases h
      · have hzero : m = 0 := by
          rw [h] at hle
          exact Nat.le_zero.1 hle
        rw [hzero]
        exact namesRight_meant (m := 0) (by omega)
      · have hmap : (List.range m).map (Job.enter e w size).name =
            (List.range m).map fun i => meantName (w.mem .localId) (i + 1 : Nat) :=
          List.map_congr_left fun i hi => by
            have hi := List.mem_range.1 hi
            exact partName_of_zero hcode h (by omega)
        rw [hmap]
        exact namesRight_meant (by omega)

/-- A Wii header with the game ID `id`. -/
def wiiHeader (id : Bytes) : Nat → UInt8 := fun i =>
  if 0x18 ≤ i then [0x5D, 0x1C, 0x9E, 0xA3].getD (i - 0x18) 0 else id.getD i 0

/-- A disc without a maker code. -/
theorem part_names_no_maker :
    let w := World.boot (fun _ => wiiHeader [0x52, 0x4D, 0x43, 0x45]) fun _ => none
    NamesRight (w.mem .localId) (w.fopenNames
      (finalWorld ((dump (Env.calm fun _ => 7) 0 (some .localId) isWiiSingleDisk 0x114000000).run w))) := by
  intro w
  exact (part_names_iff (Env.calm fun _ => 7) 0 w isWiiSingleDisk 0x114000000 (by decide) (by decide)).2
    (Or.inr (Or.inr (by decide)))

/-- The disc `RMCE01`. -/
theorem part_names_maker :
    let w := World.boot (fun _ => wiiHeader [0x52, 0x4D, 0x43, 0x45, 0x30, 0x31]) fun _ => none
    ¬ NamesRight (w.mem .localId) (w.fopenNames
      (finalWorld ((dump (Env.calm fun _ => 7) 0 (some .localId) isWiiSingleDisk 0x114000000).run w))) := by
  intro w
  exact not_namesRight (Env.calm fun _ => 7) 0 w isWiiSingleDisk 0x114000000 rfl (by decide) (by decide) (by decide)

end Naming

end TakeADump
