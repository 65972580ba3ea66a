import TakeADump.Dump.BufferOps

/-!
# Stale bytes in the buffer

`DVD_LowRead64` invalidates the buffer only after it started the command. A dirty line of the buffer may be written back
in between, over bytes the drive has delivered. The lines are dirty when `dump` starts, if the heap left them so, and
after a sector that was zeroed (`Leftover`); the first command for a sector drops them. `faithful_bodyOps_iff`: every
interleaving writes what was delivered iff no sector is read at its first try over a dirty line that holds other bytes
(`Clash`).
-/

namespace TakeADump

open Cache (Op Transfer State Run Faithful Dirties Settled latest)

namespace Job

variable (j : Job) (cache : State Nat Nat UInt8)

/-- Byte `i` of sector `s` as the drive delivers it. -/
def delivered (s i : Nat) : Option UInt8 := (transferOf j.env.disc (j.request s) true).data i

/-- What a dirty line may hold at byte `i` when the first command for sector `s` is started. -/
def Leftover : Nat → Nat → UInt8 → Prop
  | 0, i, x => cache.Dirty cacheLine i ∧ x = cache.held i
  | s + 1, _, x => j.readable s = false ∧ x = 0

/-- Sector `s` is read at its first try, over a dirty line that holds other bytes. -/
def Clash (s : Nat) : Prop :=
  addressable s = true ∧ (j.attempt s 0).isOk = true ∧
    ∃ i v x, j.delivered s i = some v ∧ j.Leftover cache s i x ∧ x ≠ v

variable {j cache}

theorem delivered_lt {s i : Nat} {v : UInt8} (h : j.delivered s i = some v) : i ∈ j.place s := by
  unfold delivered transferOf at h
  dsimp only at h
  split at h
  · rename_i hi
    rw [show (j.request s).count = UInt32.ofNat (j.len s) from rfl, j.toNat_len] at hi
    exact Nat.lt_of_lt_of_le hi (Nat.min_le_right _ _)
  · cases h

theorem place_succ (s : Nat) : j.place (s + 1) ⊆ j.place s := by
  intro i hi
  have hlen : j.len (s + 1) ≤ j.len s := by
    unfold len
    rw [sectorSize_eq]
    omega
  exact Nat.lt_of_lt_of_le hi hlen

/-- A first try that succeeds is the only one. -/
theorem tries_first {s : Nat} (ha : addressable s = true) (hok : (j.attempt s 0).isOk = true) :
    j.tries s = 1 ∧ j.readable s = true := by
  have hone : j.tries s = 1 := by simp [tries, ha, Imp.tries, hok]
  refine ⟨hone, ?_⟩
  rcases j.tries_eq s with ⟨h, -⟩ | ⟨-, n, hn, hlast⟩
  · omega
  · obtain rfl : n = 0 := by omega
    exact hlast.symm.trans hok

/-! ## Every interleaving -/

section Safe

variable {s : Nat} {c : State Nat Nat UInt8} {last : Option (Transfer Nat UInt8)} {ops : List (Op Nat UInt8)}

/-- The last transfer after try `t` of sector `s`. -/
def after (j : Job) (s t : Nat) : Option (Transfer Nat UInt8) :=
  if (j.transfer s t).ok then some (j.transfer s t) else none

/-- The tries after one that has settled. -/
theorem faithful_more_tries {n t : Nat} (hc : Settled cacheLine (j.transfer s t) (j.place s) c)
    (hrest : ∀ c', Settled cacheLine (j.transfer s (t + n)) (j.place s) c' →
      Faithful cacheLine (j.after s (t + n)) c' ops) :
    Faithful cacheLine (j.after s t) c ((List.range' (t + 1) n).flatMap (j.tryOps s) ++ ops) := by
  induction n generalizing t c with
  | zero => exact hrest c hc
  | succ n ih =>
    rw [List.range'_succ, List.flatMap_cons, List.append_assoc]
    have hclean : Dirties cacheLine (fun i _ => i ∉ j.place s) c := ⟨hc.1, fun i hd hi => (hc.2 i hi).1 hd⟩
    refine Cache.faithful_transfer hclean ?_ fun c' hc' => ?_
    · intro _ i v hv
      exact ⟨delivered_lt hv, fun x hx => absurd (delivered_lt hv) hx⟩
    · apply ih hc'
      intro c'' hc''
      rw [Nat.add_right_comm] at hc'' ⊢
      exact hrest c'' hc''

/-- A round of a sector that does not clash. -/
theorem faithful_round (hc : Dirties cacheLine (fun i x => i ∈ j.place s → j.Leftover cache s i x) c)
    (hclash : ¬ j.Clash cache s)
    (hrest : ∀ c' last', Dirties cacheLine (fun i x => i ∈ j.place (s + 1) → j.Leftover cache (s + 1) i x) c' →
      Faithful cacheLine last' c' ops) : Faithful cacheLine last c (j.roundOps s ++ ops) := by
  -- the sector is zeroed
  have hzero : ∀ {c' last' Q}, j.readable s = false → Dirties cacheLine Q c' →
      Faithful cacheLine last' c' (j.settleOps s ++ .load (j.place s) :: ops) := by
    intro c' last' Q hr hc'
    rw [settleOps, if_neg (by simp [hr])]
    refine Cache.faithful_store hc' _ _ fun c'' hc'' => hrest c'' _ ⟨hc''.1, fun i hd hi => ?_⟩
    exact ⟨hr, hc''.2 i hd (place_succ s hi)⟩
  unfold roundOps
  simp only [List.append_assoc, List.cons_append, List.nil_append]
  rcases j.tries_eq s with ⟨hn, hr⟩ | ⟨ha, n, hn, hlast⟩
  · rw [hn]
    exact hzero hr hc
  · rw [hn, List.range_eq_range', List.range'_succ, List.flatMap_cons, List.append_assoc]
    refine Cache.faithful_transfer hc (fun hok i v hv => ⟨delivered_lt hv, fun x hx => ?_⟩) fun c₁ h₁ => ?_
    · by_contra hne
      exact hclash ⟨ha, hok, i, v, x, hv, hx (delivered_lt hv), hne⟩
    · refine faithful_more_tries (n := n) h₁ fun c₂ h₂ => ?_
      rw [Nat.zero_add] at h₂ ⊢
      cases hr : j.readable s with
      | false =>
        exact hzero hr (Q := fun _ _ => True) ⟨h₂.1, fun _ _ => trivial⟩
      | true =>
        rw [settleOps, if_pos hr]
        refine Cache.faithful_load h₂ (fun _ i v hv => delivered_lt hv) _ fun c₃ h₃ => hrest c₃ _ ⟨h₃.1, ?_⟩
        exact fun i hd hi => absurd hd (h₃.2 i (place_succ s hi)).1

theorem faithful_rounds {n : Nat} (hc : Dirties cacheLine (fun i x => i ∈ j.place s → j.Leftover cache s i x) c)
    (hclash : ∀ r < s + n, ¬ j.Clash cache r) :
    Faithful cacheLine last c ((List.range' s n).flatMap j.roundOps) := by
  induction n generalizing s c last with
  | zero => exact Cache.faithful_nil
  | succ n ih =>
    rw [List.range'_succ, List.flatMap_cons]
    refine faithful_round hc (hclash s (by omega)) fun c' last' hc' => ?_
    exact ih hc' fun r hr => hclash r (by omega)

end Safe

/-! ## A stale interleaving -/

section Stale

theorem exists_run_tries (s : Nat) (ts : List Nat) (c : State Nat Nat UInt8) :
    ∃ c', Run cacheLine c (ts.flatMap (j.tryOps s)) c' := by
  induction ts generalizing c with
  | nil => exact ⟨c, .nil c⟩
  | cons t ts ih =>
    obtain ⟨c₁, h₁⟩ := Cache.exists_run_transfer cacheLine c (j.transfer s t) (j.place s)
    obtain ⟨c₂, h₂⟩ := ih c₁
    exact ⟨c₂, Cache.run_append h₁ h₂⟩

theorem exists_run_round (s : Nat) (c : State Nat Nat UInt8) : ∃ c', Run cacheLine c (j.roundOps s) c' := by
  obtain ⟨c₁, h₁⟩ := exists_run_tries (j := j) s (List.range (j.tries s)) c
  cases hr : j.readable s with
  | true =>
    refine ⟨Cache.Op.apply cacheLine c₁ (.load (j.place s)), Cache.run_append h₁ ?_⟩
    rw [settleOps, if_pos hr]
    exact .op trivial (.nil _)
  | false =>
    obtain ⟨c₂, h₂, -⟩ := Cache.exists_run_store cacheLine c₁ (j.place s) (j.place s) fun _ => 0
    refine ⟨c₂, Cache.run_append h₁ ?_⟩
    rw [settleOps, if_neg (by simp [hr])]
    exact h₂

theorem exists_run_body (c : State Nat Nat UInt8) (m : Nat) : ∃ c', Run cacheLine c (j.bodyOps m) c' := by
  induction m with
  | zero => exact ⟨c, .nil c⟩
  | succ m ih =>
    obtain ⟨c₁, h₁⟩ := ih
    obtain ⟨c₂, h₂⟩ := exists_run_round (j := j) m c₁
    refine ⟨c₂, ?_⟩
    rw [bodyOps_succ]
    exact Cache.run_append h₁ h₂

/-- Before the first command for a sector, whatever `Leftover` allows may stand in a dirty line. -/
theorem exists_run_leftover {s i : Nat} {x : UInt8} (hi : i ∈ j.place s) (hx : j.Leftover cache s i x) :
    ∃ c, Run cacheLine cache (j.bodyOps s) c ∧ c.Dirty cacheLine i ∧ c.held i = x := by
  cases s with
  | zero => exact ⟨cache, .nil cache, hx.1, hx.2.symm⟩
  | succ s =>
    obtain ⟨hr, rfl⟩ := hx
    obtain ⟨c₁, h₁⟩ := exists_run_body (j := j) cache s
    obtain ⟨c₂, h₂⟩ := exists_run_tries (j := j) s (List.range (j.tries s)) c₁
    obtain ⟨c₃, h₃, hstored⟩ := Cache.exists_run_store cacheLine c₂ (j.place s) (j.place s) fun _ => 0
    refine ⟨c₃, ?_, hstored i (place_succ s hi)⟩
    rw [bodyOps_succ, roundOps, settleOps, if_neg (by simp [hr])]
    exact Cache.run_append h₁ (Cache.run_append h₂ h₃)

theorem bodyOps_split {s m : Nat} (h : s < m) : ∃ rest, j.bodyOps m = j.bodyOps s ++ (j.roundOps s ++ rest) := by
  obtain ⟨d, rfl⟩ : ∃ d, m = s + (d + 1) := ⟨m - s - 1, by omega⟩
  refine ⟨(List.range d).flatMap fun r => j.roundOps (s + (r + 1)), ?_⟩
  rw [bodyOps, List.range_add, List.range_succ_eq_map]
  simp [bodyOps, List.flatMap_map]

theorem not_faithful_of_clash {s m : Nat} (hs : s < m) (hclash : j.Clash cache s) :
    ¬ Faithful cacheLine none cache (j.bodyOps m) := by
  obtain ⟨ha, hok, i, v, x, hv, hx, hne⟩ := hclash
  intro hfaithful
  obtain ⟨htries, hr⟩ := tries_first ha hok
  obtain ⟨c, hc, hdirty, hheld⟩ := exists_run_leftover (delivered_lt hv) hx
  obtain ⟨c', hc', hvisible⟩ := Cache.exists_run_stale (t := j.transfer s 0) (A := j.place s) hok hdirty
  obtain ⟨rest, hrest⟩ := bodyOps_split (j := j) hs
  have hround : j.roundOps s = j.tryOps s 0 ++ [.load (j.place s)] := by
    simp [roundOps, settleOps, htries, hr]
  rw [hrest, hround, List.append_assoc, ← List.append_assoc, List.singleton_append] at hfaithful
  have hlast : (j.bodyOps s ++ j.tryOps s 0).foldl latest none = some (j.transfer s 0) := by
    rw [List.foldl_append]
    exact if_pos hok
  have hread := hfaithful.delivers (Cache.run_append hc hc') _ hlast i (delivered_lt hv) v hv
  exact hne (hheld.symm.trans (hvisible.symm.trans hread))

end Stale

/-- **Every interleaving writes what was delivered iff no sector clashes.** -/
theorem faithful_bodyOps_iff (hbusy : cache.busy = none) (m : Nat) :
    Faithful cacheLine none cache (j.bodyOps m) ↔ ∀ s < m, ¬ j.Clash cache s := by
  constructor
  · intro h s hs hclash
    exact not_faithful_of_clash hs hclash h
  · intro h
    rw [bodyOps, List.range_eq_range']
    refine faithful_rounds ⟨hbusy, fun i hd _ => ⟨hd, rfl⟩⟩ fun r hr => ?_
    exact h r (by omega)

end Job

/-! ## Runs of `dump` -/

section Runs

variable (e : Env) (fuel : Nat) (w : World) (diskType : Int) (size : UInt64)

/-- What the dump does to its buffer, from its call to its end. -/
def dumpOps : List (Op Nat UInt8) :=
  bufferOps e.disc ((finalWorld ((dump e fuel (some .localId) diskType size).run w)).trace.drop w.trace.length)

/-- Without a buffer nothing is done to it. -/
theorem dumpOps_no_buffer (hmem : e.memalign = false) : dumpOps e fuel w diskType size = [] := by
  rw [dumpOps, Job.run_dump_memalign fuel hmem, finalWorld_ok]
  simp [World.log, bufferOps, Event.bufferOp]

/-- **When a dump writes what was delivered**, whatever the cache does in between: iff no sector that is written was
read at its first try over a dirty line of the buffer that holds other bytes, left there by the heap or by the `memset`
of the sector before. -/
theorem dump_coherent_iff (hcancel : w.cancelOnError = false) (mem : Nat → UInt8) (status : Nat → Cache.Status)
    (held : Nat → UInt8) :
    Faithful cacheLine none (State.idle mem status held) (dumpOps e fuel w diskType size) ↔
      (e.memalign = true → ∀ s, (Job.enter e w size).Writes s →
        ¬ (Job.enter e w size).Clash (State.idle mem status held) s) := by
  cases hmem : e.memalign with
  | false =>
    rw [dumpOps_no_buffer e fuel w diskType size hmem]
    exact iff_of_true Cache.faithful_nil fun h => by cases h
  | true =>
    obtain ⟨m, hops, hwrites⟩ := (Job.ended_dump fuel w diskType size hmem).ops hcancel
    rw [dumpOps, hops, Job.faithful_bodyOps_iff rfl]
    simp only [hwrites, true_implies]

end Runs

/-- A disc of sevens whose first sector cannot be read. -/
def badFirst : Env :=
  { Env.calm fun _ => 7 with attempt := fun r _ => if r.start = 0 then .err fun _ => 0 else .ok }

/-- The console when `dump` is called with errors tolerated. -/
def tolerantWorld : World := { World.boot (fun _ _ => 0) fun _ => none with cancelOnError := false }

/-- A cache with nothing in it. -/
def emptyCache : State Nat Nat UInt8 := State.idle (fun _ => 0) (fun _ => .absent) fun _ => 0

theorem dump_coherent_iff_bad_first :
    Faithful cacheLine none emptyCache (dumpOps badFirst 0 tolerantWorld isNgcDisk 4096) ↔
      (badFirst.memalign = true → ∀ s, (Job.enter badFirst tolerantWorld 4096).Writes s →
        ¬ (Job.enter badFirst tolerantWorld 4096).Clash emptyCache s) :=
  dump_coherent_iff badFirst 0 tolerantWorld isNgcDisk 4096 rfl _ _ _

/-- The second sector may be written as the zeros of the first one. -/
theorem stale_after_zeroed :
    ¬ Faithful cacheLine none emptyCache (dumpOps badFirst 0 tolerantWorld isNgcDisk 4096) := by
  obtain ⟨m, hops, hwrites⟩ := (Job.ended_dump 0 tolerantWorld isNgcDisk 4096 (e := badFirst) rfl).ops rfl
  rw [dumpOps, hops]
  refine Job.not_faithful_of_clash (s := 1) ((hwrites 1).2 ?_) ?_
  · refine ⟨by decide, fun r hr => ?_, ?_⟩
    · have hr : r < (Job.enter badFirst tolerantWorld 4096).sectors := Nat.lt_trans hr (by decide)
      exact halt_enter _ _ _ (fun _ => rfl) (fun _ => rfl) (fun _ => UInt32.zero_and) hr (Or.inr rfl)
    · rw [halt_enter _ _ _ (fun _ => rfl) (fun _ => rfl) (fun _ => UInt32.zero_and) (by decide) (Or.inr rfl)]
      simp
  · exact ⟨by decide, by decide, 0, 7, 0, by decide, ⟨by decide, rfl⟩, by decide⟩

end TakeADump
