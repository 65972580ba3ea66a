import TakeADump.Screen.Percent
import TakeADump.Session.Move
import TakeADump.Session.Main

/-!
# The progress of a session

The percentages a session shows are counted along the moves of its machine (`Tally.step`): one for each sector that is
done, and none before or after the copy. `main_progress`: in every run of `main` they are the exact percentages of the
first sectors of a disc of one of the three sizes, in order, up to 100 if the dump comes back with success.
-/

namespace TakeADump

namespace Session

variable {q q' : Phase} {ev : Event} {past : List Event}

/-! ## Events without progress -/

/-- Neither a percentage nor the return of a successful dump. -/
def Plain (ev : Event) : Prop := ev.percent = none ∧ ev ≠ .stage (.dumped 0)

theorem Screen.plain (h : Screen ev) : Plain ev := by
  cases ev with
  | print fmt args => exact ⟨percent_print h.1 args, nofun⟩
  | newline | sample _ => exact ⟨rfl, nofun⟩
  | _ => exact h.elim

theorem Command.plain (h : Command ev) : Plain ev := by
  cases ev with
  | request _ | dcInvalidate _ _ | finished _ => exact ⟨rfl, nofun⟩
  | _ => exact h.elim

theorem Work.plain (h : Work ev) : Plain ev := by
  cases ev with
  | print fmt args => exact ⟨percent_print h args, nofun⟩
  | errorLine _ _ _ | exit _ | fatMount _ _ | ioctl | stage _ => exact h.elim
  | _ => exact ⟨rfl, nofun⟩

/-! ## The tally -/

/-- The percentages of the first `n` sectors. -/
def shown (size : UInt64) (n : Nat) : List Int :=
  (List.range n).map fun s => percentOf (sectorOffset (s + 1)) size

/-- The progress of `n` sectors of a disc of size `size` was shown. -/
structure Tallied (past : List Event) (size : UInt64) (n : Nat) : Prop where
  percents : past.filterMap Event.percent = shown size n
  known : ∃ diskType, getDiskSizeBytes diskType ≠ 0 ∧ size = getDiskSizeBytes diskType
  le : sectorSize * n ≤ size.toNat

/-- No dump came back with success. -/
def Open (past : List Event) : Prop := .stage (.dumped 0) ∉ past

/-- Nothing was shown yet. -/
def Silent (past : List Event) : Prop := past.filterMap Event.percent = [] ∧ Open past

/-- All progress was shown if the dump came back with success. -/
def Closed (past : List Event) : Prop :=
  ∃ size n, Tallied past size n ∧ (.stage (.dumped 0) ∈ past → sectorSize * n = size.toNat)

/-- What was shown up to a phase. -/
def Tally (past : List Event) : Phase → Prop
  | .choosing _ | .mounting _ _ | .mounted _ | .finding _ | .probing _ => Silent past
  | .confirming _ diskType => getDiskSizeBytes diskType ≠ 0 ∧ Silent past
  | .starting c => Tallied past c.size 0 ∧ c.done = 0 ∧ Open past
  | .copying c s => Tallied past c.size c.done ∧ (¬ s.between → sectorSize * c.done < c.size.toNat) ∧ Open past
  | .returning due ret => (∃ size n, Tallied past size n ∧ (ret = 0 → sectorSize * n = size.toNat)) ∧ Open past ∧
    ∀ ev ∈ due, Closing ev
  | .failing line => Plain line ∧ Closed past
  | .leaving | .quitting | .exiting | .exited => Closed past

section Step

variable {size : UInt64} {n : Nat} {stop : Bool}

theorem filterMap_percent (h : ev.percent = none) :
    (past ++ [ev]).filterMap Event.percent = past.filterMap Event.percent := by
  rw [List.filterMap_append, List.filterMap_cons_none h, List.filterMap_nil, List.append_nil]

theorem Tallied.snoc (ht : Tallied past size n) (h : ev.percent = none) : Tallied (past ++ [ev]) size n :=
  ⟨(filterMap_percent h).trans ht.percents, ht.known, ht.le⟩

theorem Open.snoc (ho : Open past) (h : Plain ev) : Open (past ++ [ev]) := by
  simpa [Open] using ⟨ho, h.2.symm⟩

theorem Silent.snoc (hs : Silent past) (h : Plain ev) : Silent (past ++ [ev]) :=
  ⟨(filterMap_percent h.1).trans hs.1, hs.2.snoc h⟩

theorem Closed.snoc (hc : Closed past) (h : Plain ev) : Closed (past ++ [ev]) := by
  obtain ⟨size, n, ht, hfinished⟩ := hc
  refine ⟨size, n, ht.snoc h.1, fun hmem => hfinished ?_⟩
  simpa [h.2.symm] using hmem

theorem Tallied.closed (ht : Tallied past size n) (ho : Open past) : Closed past :=
  ⟨size, n, ht, fun hmem => absurd hmem ho⟩

theorem Silent.tallied (hs : Silent past) {diskType : Int} (h : getDiskSizeBytes diskType ≠ 0) :
    Tallied past (getDiskSizeBytes diskType) 0 := ⟨hs.1, ⟨diskType, h, rfl⟩, Nat.zero_le _⟩

theorem Silent.closed (hs : Silent past) : Closed past :=
  (hs.tallied (show getDiskSizeBytes isNgcDisk ≠ 0 by decide)).closed hs.2

theorem tally_afterMount (hs : Silent past) (iface : Interface) (res : MountResult) :
    Tally (past ++ [.fatMount iface res]) (afterMount stop res) := by
  have hs' : Silent (past ++ [.fatMount iface res]) := hs.snoc ⟨rfl, nofun⟩
  match res with
  | .returned true => exact hs'
  | .returned false | .exception _ | .unknownException => exact ⟨⟨rfl, nofun⟩, hs'.closed⟩

theorem tally_afterInitialize (hs : Silent past) (ret : Int) :
    Tally (past ++ [.stage (.initialized ret)]) (afterInitialize stop ret) := by
  have hs' : Silent (past ++ [.stage (.initialized ret)]) := hs.snoc ⟨rfl, nofun⟩
  unfold afterInitialize
  split
  · exact hs'
  · exact ⟨⟨rfl, nofun⟩, hs'.closed⟩

theorem tally_afterDump {ret : Int} (ht : Tallied past size n) (hret : ret = 0 → sectorSize * n = size.toNat)
    (ho : Open past) : Tally (past ++ [.stage (.dumped ret)]) (afterDump ret) := by
  unfold afterDump
  split
  · rename_i h
    exact ⟨size, n, ht.snoc rfl, fun _ => hret h⟩
  · rename_i h
    have hplain : Plain (.stage (.dumped ret)) := ⟨rfl, fun heq => h (by injection heq with heq; injection heq)⟩
    exact ⟨⟨rfl, nofun⟩, (ht.snoc rfl).closed (ho.snoc hplain)⟩

/-- The progress line of one more sector. -/
theorem tallied_progress {c : Copy} (ht : Tallied past c.size c.done) (hroom : sectorSize * c.done < c.size.toNat) :
    Tallied (past ++ [c.progress]) c.size (c.done + 1) := by
  refine ⟨?_, ht.known, ?_⟩
  · rw [List.filterMap_append, ht.percents, shown, shown, List.range_succ, List.map_append]
    rfl
  · obtain ⟨diskType, hne, hsize⟩ := ht.known
    have hdvd : sectorSize ∣ c.size.toNat := by
      rw [hsize]
      unfold getDiskSizeBytes at hne ⊢
      split_ifs at hne ⊢ <;> decide
    obtain ⟨m, hm⟩ := hdvd
    rw [hm] at hroom ⊢
    exact Nat.mul_le_mul_left _ (Nat.lt_of_mul_lt_mul_left hroom)

/-- **Each move keeps the tally.** -/
theorem Tally.step (ht : Tally past q) (h : Move q ev q') : Tally (past ++ [ev]) q' := by
  cases h with
  | choose hs => exact ht.snoc hs.plain
  | giveUp => exact ht.closed.snoc ⟨rfl, nofun⟩
  | select | mounted | ioctl | seek _ => exact ht.snoc ⟨rfl, nofun⟩
  | ask hq hs =>
    cases q with
    | choosing _ | mounting _ _ | finding _ => exact Silent.snoc ht hs.plain
    | confirming _ _ => exact ⟨ht.1, ht.2.snoc hs.plain⟩
    | leaving => exact Closed.snoc ht hs.plain
    | _ => cases hq
  | mount res => exact tally_afterMount ht _ res
  | initialized ret => exact tally_afterInitialize ht ret
  | probe hc => exact ht.snoc hc.plain
  | identified hsize => exact ⟨hsize, ht.snoc ⟨rfl, nofun⟩⟩
  | @dump _ diskType =>
    have hs' := Silent.snoc ht.2
      (show Plain (.stage (.dump (some .localId) diskType (getDiskSizeBytes diskType))) from ⟨rfl, nofun⟩)
    exact ⟨hs'.tallied ht.1, rfl, hs'.2⟩
  | allocate =>
    obtain ⟨ht, hdone, ho⟩ := ht
    rw [← hdone] at ht
    exact ⟨ht.snoc rfl, fun h => absurd trivial h, ho.snoc ⟨rfl, nofun⟩⟩
  | refuse hdue hret =>
    obtain ⟨ht, -, ho⟩ := ht
    exact ⟨⟨_, 0, ht.snoc rfl, fun h => absurd h hret⟩, ho.snoc ⟨rfl, nofun⟩, hdue⟩
  | copy hev hdone hsize hroom _ =>
    obtain ⟨ht, hlt, ho⟩ := ht
    rw [← hdone, ← hsize] at ht hlt hroom
    refine ⟨ht.snoc hev.plain.1, fun hbetween => ?_, ho.snoc hev.plain⟩
    exact hroom.elim (fun h => absurd h hbetween) fun h => h.elim hlt id
  | progress =>
    obtain ⟨ht, hlt, ho⟩ := ht
    refine ⟨tallied_progress ht (hlt id), fun h => absurd trivial h, ?_⟩
    simpa [Open, Copy.progress] using ho
  | stop hev hdue hret =>
    obtain ⟨ht, -, ho⟩ := ht
    exact ⟨⟨_, _, ht.snoc hev.plain.1, fun h => Nat.le_antisymm ht.le (hret h)⟩, ho.snoc hev.plain, hdue⟩
  | cancel ret | quit buttons =>
    obtain ⟨ht, -, ho⟩ := ht
    exact (ht.closed ho).snoc ⟨rfl, nofun⟩
  | due =>
    obtain ⟨⟨size, n, ht, hret⟩, ho, hdue⟩ := ht
    have hplain := (hdue _ List.mem_cons_self).work.plain
    exact ⟨⟨size, n, ht.snoc hplain.1, hret⟩, ho.snoc hplain, fun ev hev => hdue ev (List.mem_cons_of_mem _ hev)⟩
  | dumped =>
    obtain ⟨⟨size, n, ht, hret⟩, ho, -⟩ := ht
    exact tally_afterDump ht hret ho
  | fail => exact ht.2.snoc ht.1
  | leave | quitted | exit => exact Closed.snoc ht ⟨rfl, nofun⟩

theorem Tally.closed (ht : Tally past q) : Closed past := by
  cases q with
  | choosing _ | mounting _ _ | mounted _ | finding _ | probing _ => exact Silent.closed ht
  | confirming _ _ => exact ht.2.closed
  | starting _ => exact ht.1.closed ht.2.2
  | copying _ _ => exact ht.1.closed ht.2.2
  | returning _ _ =>
    obtain ⟨⟨size, n, ht, -⟩, ho, -⟩ := ht
    exact ht.closed ho
  | failing _ => exact ht.2
  | leaving | quitting | exiting | exited => exact ht

theorem closed_of_read {evs : List Event} (h : read evs = some q) : Closed evs :=
  (Monitor.history_of_run (H := Tally) (fun _ _ _ _ ht hstep => ht.step (move_of_step hstep))
    (show Tally [] (.choosing true) from ⟨rfl, by simp [Open]⟩) h).closed

end Step

/-! ## Exact percentages -/

section Exact

variable {diskType : Int} {n : Nat}

/-- What the sizes of discs have in common. -/
theorem size_spec (h : getDiskSizeBytes diskType ≠ 0) : 0 < (getDiskSizeBytes diskType).toNat ∧
    (getDiskSizeBytes diskType).toNat < 2 ^ 44 ∧ ¬ 5 ∣ (getDiskSizeBytes diskType).toNat := by
  unfold getDiskSizeBytes at h ⊢
  split_ifs at h ⊢
  · decide
  · decide
  · decide
  · exact absurd rfl h

/-- The percentages of the first `n` sectors of a disc of `size` bytes, the middle of two rounded up. -/
def exactPercents (size n : Nat) : List Int :=
  (List.range n).map fun s => ((200 * (sectorSize * (s + 1)) + size) / (2 * size) : Nat)

theorem shown_eq (h : getDiskSizeBytes diskType ≠ 0) (hn : sectorSize * n ≤ (getDiskSizeBytes diskType).toNat) :
    shown (getDiskSizeBytes diskType) n = exactPercents (getDiskSizeBytes diskType).toNat n := by
  obtain ⟨hpos, hlt, h5⟩ := size_spec h
  refine List.map_congr_left fun s hs => ?_
  have hle : sectorSize * (s + 1) ≤ (getDiskSizeBytes diskType).toNat :=
    (Nat.mul_le_mul_left _ (List.mem_range.1 hs)).trans hn
  have hoff : (sectorOffset (s + 1)).toNat = sectorSize * (s + 1) := by
    refine Job.toNat_sectorOffset (hle.trans_lt (hlt.trans_le ?_))
    norm_num
  have hoffset : sectorOffset (s + 1) ≤ getDiskSizeBytes diskType := by
    rw [UInt64.le_iff_toNat_le, hoff]
    exact hle
  rw [percentOf_eq hoffset hpos hlt h5, hoff]

variable {size : Nat}

theorem pairwise_exactPercents (size n : Nat) : (exactPercents size n).Pairwise (· ≤ ·) := by
  refine List.pairwise_map.2 (List.pairwise_lt_range.imp fun {s t} hst => ?_)
  have hle : sectorSize * (s + 1) ≤ sectorSize * (t + 1) := Nat.mul_le_mul_left _ (by omega)
  exact_mod_cast Nat.div_le_div_right (by omega)

theorem exactPercents_bounds (hpos : 0 < size) (hn : sectorSize * n ≤ size) {percent : Int}
    (h : percent ∈ exactPercents size n) : 0 ≤ percent ∧ percent ≤ 100 := by
  obtain ⟨s, hs, rfl⟩ := List.mem_map.1 h
  have hle : sectorSize * (s + 1) ≤ size := (Nat.mul_le_mul_left _ (List.mem_range.1 hs)).trans hn
  have hdiv : (200 * (sectorSize * (s + 1)) + size) / (2 * size) < 101 := Nat.div_lt_of_lt_mul (by omega)
  exact ⟨Int.natCast_nonneg _, by exact_mod_cast Nat.le_of_lt_succ hdiv⟩

theorem getLast?_exactPercents (hpos : 0 < size) (hn : sectorSize * n = size) :
    (exactPercents size n).getLast? = some 100 := by
  obtain ⟨m, rfl⟩ : ∃ m, n = m + 1 := Nat.exists_eq_succ_of_ne_zero fun h => by simp [h] at hn; omega
  have hdiv : (200 * size + size) / (2 * size) = 100 := by
    rw [show 200 * size + size = size + 100 * (2 * size) by ring, Nat.add_mul_div_right _ _ (by omega),
      Nat.div_eq_of_lt (by omega)]
  rw [exactPercents, List.range_succ, List.map_append, List.map_singleton, List.getLast?_concat, hn, hdiv]
  rfl

end Exact

end Session

/-- **Progress.** In every run of `main` the percentages on the screen, computed in binary64, are the exact ones of the
first sectors of a disc of one of the three sizes, in order. They never fall, stay between 0 and 100, and if the dump
comes back with success all sectors were shown, the last one with 100 %. -/
theorem main_progress (e : Env) (fuel : Nat) {w : World} (hw : w.Initial) :
    Imp.Ends (main e fuel) w (fun _ _ => False) (fun _ w' => ∃ diskType n, getDiskSizeBytes diskType ≠ 0 ∧
      sectorSize * n ≤ (getDiskSizeBytes diskType).toNat ∧
      w'.trace.filterMap Event.percent = Session.exactPercents (getDiskSizeBytes diskType).toNat n ∧
      (w'.trace.filterMap Event.percent).Pairwise (· ≤ ·) ∧
      (∀ percent ∈ w'.trace.filterMap Event.percent, 0 ≤ percent ∧ percent ≤ 100) ∧
      (.stage (.dumped 0) ∈ w'.trace → sectorSize * n = (getDiskSizeBytes diskType).toNat ∧
        (w'.trace.filterMap Event.percent).getLast? = some 100)) := by
  refine (Session.ends_main hw).mono (fun _ _ => id) ?_
  rintro st w' ⟨q, hread, -⟩
  obtain ⟨size, n, ⟨hpercents, ⟨diskType, hne, rfl⟩, hle⟩, hfinished⟩ := Session.closed_of_read hread
  obtain ⟨hpos, -, -⟩ := Session.size_spec hne
  rw [Session.shown_eq hne hle] at hpercents
  rw [hpercents]
  exact ⟨diskType, n, hne, hle, rfl, Session.pairwise_exactPercents _ _,
    fun _ => Session.exactPercents_bounds hpos hle,
    fun hmem => ⟨hfinished hmem, Session.getLast?_exactPercents hpos (hfinished hmem)⟩⟩

/-- The session of `homer` shows two sectors. -/
theorem exists_percents_homer : ∃ w', (main homer 3).run wiiWorld = .error (.exit 0) w' ∧
    (w'.trace.filterMap Event.percent).length = 2 := by
  obtain ⟨st, w', hrun, rfl, hshown⟩ : ∃ st w', (main homer 3).run wiiWorld = .error st w' ∧ st = .exit 0 ∧
      (w'.trace.filterMap Event.percent).length = 2 := Imp.exists_error_of_decide (by decide +kernel)
  exact ⟨w', hrun, hshown⟩

theorem main_progress_homer : ∃ w' diskType n, (main homer 3).run wiiWorld = .error (.exit 0) w' ∧
    w'.trace.filterMap Event.percent = Session.exactPercents (getDiskSizeBytes diskType).toNat n ∧ n = 2 := by
  obtain ⟨w', hrun, hshown⟩ := exists_percents_homer
  obtain ⟨diskType, n, -, -, hpercents, -⟩ :=
    (main_progress homer 3 (initial_boot (fun _ => bareWiiHeader) fun _ => none)).error hrun
  rw [hpercents, Session.exactPercents, List.length_map, List.length_range] at hshown
  exact ⟨w', diskType, n, hrun, hpercents, hshown⟩

end TakeADump
