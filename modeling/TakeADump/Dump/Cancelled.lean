import TakeADump.Dump.Fidelity

/-!
# The sector a dump is cancelled at

`ended_dump` says of a dump that is told to stop on a read error only that it ends in `Logger.error`, after quiet
events. Here the run is followed into that call: the loop goes through all sectors before the unreadable one, and the run
of the dump is then that of `Logger.error` (`run_dump_unreadable`).
-/

namespace TakeADump

namespace Job

variable {j : Job} {k : Nat} {w : World}

/-- The round of a sector that cannot be read, when that is not tolerated. -/
theorem run_round_unreadable (fuel : Nat) (h : j.At k w) (hk : k < j.sectors)
    (hhalt : j.halt k = some .unreadable) : ∃ ret w₁, j.Core (j.atUnreadable k) w₁ ∧ ∀ st w',
      (Logger.error j.env fuel ret "Unrecovered read error." []).run w₁ = .error st w' →
        (dumpRound j.env fuel (some .localId) j.size ()).run w = .error st w' := by
  obtain ⟨hr, hcancel⟩ := j.halt_inv hhalt
  obtain ⟨w₁, -, hc₁, hf₁, hrun⟩ := rolled fuel h hk (j.opens_of_halt (by rw [hhalt]; decide))
  obtain ⟨ret, w₂, hret, hframe, hc₂, hrun₂⟩ := run_copySector_read fuel hk hc₁ hf₁
  have hdone : (j.atRead k).done = k := j.point_done k
  have hne : ret ≠ 0 := fun h0 => by rw [hret.1 h0] at hr; cases hr
  have hsettle := run_settle fuel (p := j.atRead k) (UInt32.ofNat (j.len k)) hne
    (by rw [hframe, hdone]; exact hf₁) (by rw [hdone]; exact hk)
  rw [hc₂.cancelOnError, hcancel, if_pos rfl] at hsettle
  have hreport := hc₂.report
  rw [hdone] at hsettle hreport
  refine ⟨ret, reported k w₂, hreport, fun st w' herror => ?_⟩
  rw [hrun, hrun₂]
  exact Imp.run_bind_error (hsettle.trans herror)

/-- **A cancelled dump** ends as `Logger.error` does, called where the copy stands at the unreadable sector. -/
theorem run_dump_unreadable {e : Env} {size : UInt64} (fuel : Nat) (w : World) (diskType : Int)
    (hmem : e.memalign = true) (hk : k < (enter e w size).sectors) (hpre : ∀ s < k, (enter e w size).halt s = none)
    (hhalt : (enter e w size).halt k = some .unreadable) :
    ∃ ret w₁, (enter e w size).Core ((enter e w size).atUnreadable k) w₁ ∧ ∀ st w',
      (Logger.error e fuel ret "Unrecovered read error." []).run w₁ = .error st w' →
        (dump e fuel (some .localId) diskType size).run w = .error st w' := by
  obtain ⟨wk, hat, hrounds⟩ := rounds_point fuel (Nat.le_of_lt hk) hpre
  obtain ⟨ret, w₁, hc, hround⟩ := run_round_unreadable fuel hat hk hhalt
  refine ⟨ret, w₁, hc, fun st w' herror => ?_⟩
  have hlt : sectorSize * k < size.toNat := (enter e w size).lt_sectors.1 hk
  obtain ⟨m, hm⟩ : ∃ m, size.toNat + 1 = k + (m + 1) := by
    rw [sectorSize_eq] at hlt
    exact ⟨size.toNat - k, by omega⟩
  rw [run_dump_of_rounds hmem diskType hrounds hm.symm]
  exact Imp.loop_stop (hround st w' herror)

end Job

end TakeADump
