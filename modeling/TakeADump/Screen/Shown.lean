import TakeADump.Screen.Percent
import TakeADump.Dump.Cancelled
import TakeADump.Dump.Trace

/-!
# The progress of a dump

What a dump shows of its progress, for a disc of any size and however it ends: one percentage for each sector that was
copied (`Ended.shown`), and nothing else with a percentage, also not on the way out after a read error
(`unshown_error`). So the display only grows, and a dump that succeeds ends it with 100 % (`dump_percents`).
-/

namespace TakeADump

open Rollover (Log)

/-! ## Events without a percentage -/

/-- The percentages on the screen. -/
def World.percents (w : World) : List Int := w.trace.filterMap Event.percent

/-- No percentage is shown. -/
def unshownFrame : Imp.Frame World :=
  ⟨fun w w' => w'.percents = w.percents, fun _ => rfl, fun h h' => h'.trans h⟩

section Unshown

variable (e : Env)

theorem unshown_log {w : World} {ev : Event} (h : ev.percent = none) : (w.log ev).percents = w.percents := by
  unfold World.percents World.log
  rw [List.filterMap_append, List.filterMap_cons_none h, List.filterMap_nil, List.append_nil]

theorem unshown_emit {ev : Event} (h : ev.percent = none) :
    Imp.Within unshownFrame (fun _ => True) (emit ev : Prog Unit) := Imp.within_modify fun _ => unshown_log h

theorem unshown_wait (p : UInt32 → Bool) (fuel : Nat) :
    Imp.Within unshownFrame (fun _ => True) (Imp.loop .spin (Global.waitRound e p) fuel () : Prog Unit) := by
  refine Imp.within_loop trivial (fun _ => ?_) fuel ()
  unfold Global.waitRound Global.getControllerButtonsPressed
  refine Imp.within_bind ?_ fun buttons => Imp.within_ite (fun _ => Imp.within_pure _) fun _ => Imp.within_pure _
  refine Imp.within_get_bind fun w => Imp.within_bind (Imp.within_modify fun _ => unshown_log rfl) fun _ =>
    Imp.within_pure _

theorem unshown_error (fuel : Nat) (code : Int) (fmt : String) (args : List Arg) :
    Imp.Within unshownFrame (fun _ => True) (Logger.error e fuel code fmt args) := by
  unfold Logger.error Global.resetAfterPause Global.waitForA Global.waitForButtonRelease Logger.print
  refine Imp.within_bind (unshown_emit rfl) fun _ => Imp.within_bind (unshown_emit rfl) fun _ => ?_
  refine Imp.within_bind (unshown_wait e _ fuel) fun _ => Imp.within_bind (unshown_wait e _ fuel) fun _ => ?_
  refine Imp.within_bind (unshown_wait e _ fuel) fun _ w => ?_
  rw [Imp.ends_of_error (run_reset 0 w)]
  exact ⟨trivial, (unshown_log rfl).trans (unshown_log rfl)⟩

end Unshown

namespace Job

variable {j : Job} {k : Nat} {w : World}

/-! ## Sectors -/

/-- The percentage after a sector. -/
def percentAfter (j : Job) (s : Nat) : Int := percentOf (UInt64.ofNat (min (sectorSize * (s + 1)) j.size.toNat)) j.size

/-- The percentages of the first `k` sectors. -/
def percents (j : Job) (k : Nat) : List Int := (List.range k).map j.percentAfter

theorem percent_reading {ev : Event} (h : ev.reading = true) : ev.percent = none := by
  cases ev <;> first | rfl | cases h

theorem percent_filing {ev : Event} (h : ev.filing = true) : ev.percent = none := by
  cases ev <;> first | rfl | cases h

/-- The copy showed nothing more since it was at sector `k`. -/
def Unshown (j : Job) (k : Nat) (p : Point) : Prop :=
  ∃ evs, p.trace = (j.point k).trace ++ evs ∧ evs.filterMap Event.percent = []

variable {p : Point}

theorem Unshown.note (h : j.Unshown k p) {q : Point} {evs : List Event} (hq : q.trace = p.trace ++ evs)
    (hevs : evs.filterMap Event.percent = []) : j.Unshown k q := by
  obtain ⟨before, hp, hbefore⟩ := h
  exact ⟨before ++ evs, by rw [hq, hp, List.append_assoc],
    by rw [List.filterMap_append, hbefore, hevs, List.append_nil]⟩

theorem unshown_point (j : Job) (k : Nat) : j.Unshown k (j.point k) := ⟨[], by simp, rfl⟩

theorem filterMap_close (l : Log UInt8) : (j.closeEvents l).filterMap Event.percent = [] :=
  filterMap_eq_nil (fun _ => percent_filing) (j.filing_closeEvents l)

theorem filterMap_roll (l : Log UInt8) : (j.rollEvents l).filterMap Event.percent = [] :=
  filterMap_eq_nil (fun _ => percent_filing) (j.filing_rollEvents l)

theorem filterMap_read (s : Nat) : (j.readEvents s).filterMap Event.percent = [] :=
  filterMap_eq_nil (fun _ => percent_reading) (j.reading_readEvents s)

theorem unshown_finished (j : Job) (k : Nat) : j.Unshown k (j.finished (j.point k)) := by
  refine (unshown_point j k).note (j.trace_finished _) ?_
  rw [List.filterMap_append, filterMap_close]
  rfl

theorem unshown_atRefused (j : Job) (k : Nat) : j.Unshown k (j.atRefused k) := by
  refine (unshown_point j k).note (j.trace_atRefused k) ?_
  rw [List.filterMap_cons_none rfl, List.filterMap_append, filterMap_close]
  rfl

theorem unshown_readyToWrite (j : Job) (k : Nat) : j.Unshown k (j.readyToWrite (j.point k)) := by
  refine (unshown_point j k).note (j.trace_readyToWrite k) ?_
  rw [List.filterMap_cons_none rfl, List.filterMap_append, List.filterMap_append, filterMap_roll, filterMap_read,
    settleEvents]
  split <;> rfl

theorem unshown_atShort (j : Job) (k : Nat) : j.Unshown k (j.atShort k) := by
  have hwrite : j.Unshown k (j.writeStep (j.taken k) (j.readyToWrite (j.point k))) :=
    (unshown_readyToWrite j k).note rfl rfl
  refine hwrite.note (j.trace_cutShort _ _) ?_
  rw [List.filterMap_cons_none rfl, List.filterMap_append, filterMap_close]
  rfl

theorem unshown_atUnreadable (j : Job) (k : Nat) : j.Unshown k (j.atUnreadable k) := by
  refine (unshown_point j k).note (j.trace_atUnreadable k) ?_
  rw [List.filterMap_append, List.filterMap_append, List.filterMap_cons_none rfl, filterMap_roll, filterMap_read]
  rfl

theorem unshown_left (j : Job) (k : Nat) : j.Unshown (k + 1) (j.left (j.atWritten k)) := by
  have htrace : (j.left (j.atWritten k)).trace =
      (j.point (k + 1)).trace ++ [.print "Exiting with code %02d..." [.int 0], .exit 0] := by
    rw [j.point_succ]
    rfl
  exact (unshown_point j (k + 1)).note htrace rfl

theorem percents_of_core (hc : j.Core p w) (h : j.Unshown k p) : w.percents = j.start.percents ++ j.percents k := by
  obtain ⟨evs, hp, hevs⟩ := h
  have hround : ∀ s < k, (j.roundEvents s).filterMap Event.percent = [j.percentAfter s] := by
    intro s _
    rw [j.filterMap_roundEvents rfl (fun _ => percent_reading) (fun _ => percent_filing) s, settleEvents]
    split <;> rfl
  rw [World.percents, hc.trace, hp, List.filterMap_append, List.filterMap_append, j.filterMap_point hround,
    hevs, List.append_nil, ← List.map_eq_flatMap]
  rfl

/-- **However a dump ends**, it showed one percentage for each sector it copied. -/
theorem percents_dump {e : Env} (fuel : Nat) (w : World) (diskType : Int) (size : UInt64) (hmem : e.memalign = true) :
    ∃ k ≤ (enter e w size).sectors, Imp.Ends (dump e fuel (some .localId) diskType size) w
      (fun ret w' => w'.percents = (enter e w size).start.percents ++ (enter e w size).percents k ∧
        (ret = 0 → k = (enter e w size).sectors))
      (fun _ w' => w'.percents = (enter e w size).start.percents ++ (enter e w size).percents k) := by
  have h := ended_dump (e := e) fuel w diskType size hmem
  cases hrun : (dump e fuel (some .localId) diskType size).run w with
  | ok ret w' =>
    simp only [Imp.ends_of_ok hrun]
    rw [hrun] at h
    cases h with
    | finished hall hc _ => exact ⟨_, Nat.le_refl _, percents_of_core hc (unshown_finished _ _), fun _ => rfl⟩
    | refused hk _ _ hc _ => exact ⟨_, Nat.le_of_lt hk, percents_of_core hc (unshown_atRefused _ _), nofun⟩
    | short hk _ _ hc _ => exact ⟨_, Nat.le_of_lt hk, percents_of_core hc (unshown_atShort _ _), nofun⟩
  | error st w' =>
    simp only [Imp.ends_of_error hrun]
    rw [hrun] at h
    cases h with
    | unreadable hk hpre hhalt _ _ _ _ =>
      obtain ⟨ret, w₁, hc, herror⟩ := run_dump_unreadable fuel w diskType hmem hk hpre hhalt
      refine ⟨_, Nat.le_of_lt hk, Eq.trans ?_ (percents_of_core hc (unshown_atUnreadable _ _))⟩
      have hquiet := unshown_error e fuel ret "Unrecovered read error." [] w₁
      have hends := ends_error e fuel ret "Unrecovered read error." [] w₁
      cases hrun₁ : (Logger.error e fuel ret "Unrecovered read error." []).run w₁ with
      | ok u w₂ => exact (hends.ok hrun₁).elim
      | error st₁ w₂ =>
        have hsame := (herror st₁ w₂ hrun₁).symm.trans hrun
        cases hsame
        exact (hquiet.error hrun₁).2
    | home hk _ _ hc _ => exact ⟨_, hk, percents_of_core hc (unshown_left _ _)⟩

/-! ## The display -/

/-- What is done is part of the disc. -/
theorem toNat_doneAfter (j : Job) (s : Nat) :
    (UInt64.ofNat (min (sectorSize * (s + 1)) j.size.toNat)).toNat = min (sectorSize * (s + 1)) j.size.toNat := by
  have hle : min (sectorSize * (s + 1)) j.size.toNat ≤ j.size.toNat := Nat.min_le_right _ _
  exact UInt64.toNat_ofNat_of_lt' (hle.trans_lt j.size.toNat_lt)

theorem pairwise_percents (j : Job) (k : Nat) : (j.percents k).Pairwise (· ≤ ·) := by
  refine List.pairwise_map.2 (List.pairwise_lt_range.imp fun {s t} hst => ?_)
  have hle : sectorSize * (s + 1) ≤ sectorSize * (t + 1) := Nat.mul_le_mul_left _ (by omega)
  refine percentOf_mono (UInt64.le_iff_toNat_le.2 ?_)
  rw [j.toNat_doneAfter, j.toNat_doneAfter]
  omega

theorem percents_bounds {percent : Int} (h : percent ∈ j.percents k) : 0 ≤ percent ∧ percent ≤ 100 := by
  obtain ⟨s, -, rfl⟩ := List.mem_map.1 h
  refine percentOf_bounds (UInt64.le_iff_toNat_le.2 ?_)
  rw [j.toNat_doneAfter]
  exact Nat.min_le_right _ _

theorem getLast?_percents (hpos : 0 < j.size.toNat) : (j.percents j.sectors).getLast? = some 100 := by
  obtain ⟨m, hm⟩ : ∃ m, j.sectors = m + 1 := Nat.exists_eq_succ_of_ne_zero fun h => by
    have := j.lt_sectors.2 (show sectorSize * 0 < j.size.toNat from hpos)
    omega
  have hall : UInt64.ofNat (min (sectorSize * (m + 1)) j.size.toNat) = j.size := by
    have hle : ¬ sectorSize * (m + 1) < j.size.toNat := fun h => by
      have := j.lt_sectors.2 h
      omega
    rw [Nat.min_eq_right (Nat.le_of_not_lt hle), UInt64.ofNat_toNat]
  rw [percents, hm, List.range_succ, List.map_append, List.map_singleton, List.getLast?_concat, percentAfter, hall,
    percentOf_self hpos]

end Job

/-- **The display of a dump.** For a disc of any size, and however the dump ends, the percentages it showed never fall
and stay between 0 and 100; a dump that returns 0 ends them with 100. -/
theorem dump_percents (e : Env) (fuel : Nat) (diskType : Int) (size : UInt64) (w : World) :
    Imp.Ends (dump e fuel (some .localId) diskType size) w
      (fun ret w' => ∃ percents, w'.percents = w.percents ++ percents ∧ percents.Pairwise (· ≤ ·) ∧
        (∀ percent ∈ percents, 0 ≤ percent ∧ percent ≤ 100) ∧
        (ret = 0 → 0 < size.toNat → percents.getLast? = some 100))
      (fun _ w' => ∃ percents, w'.percents = w.percents ++ percents ∧ percents.Pairwise (· ≤ ·) ∧
        ∀ percent ∈ percents, 0 ≤ percent ∧ percent ≤ 100) := by
  cases hmem : e.memalign with
  | false =>
    rw [Imp.ends_of_ok (Job.run_dump_memalign fuel hmem _ _)]
    exact ⟨[], by rw [unshown_log rfl, unshown_log rfl, List.append_nil], .nil, by simp, nofun⟩
  | true =>
    have hstart : (Job.enter e w size).start.percents = w.percents := by
      show List.filterMap _ (w.trace ++ _) = _
      rw [List.filterMap_append]
      exact List.append_nil _
    obtain ⟨k, -, hends⟩ := Job.percents_dump fuel w diskType size hmem
    rw [hstart] at hends
    refine hends.mono ?_ fun st w' h => ⟨_, h, Job.pairwise_percents _ _, fun _ => Job.percents_bounds⟩
    rintro ret w' ⟨h, hret⟩
    refine ⟨_, h, Job.pairwise_percents _ _, fun _ => Job.percents_bounds, fun hzero hpos => ?_⟩
    rw [hret hzero]
    exact Job.getLast?_percents hpos

end TakeADump
