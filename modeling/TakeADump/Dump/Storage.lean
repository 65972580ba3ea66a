import TakeADump.Dump.Interrupted

/-!
# What is on the medium

`fwrite` may accept bytes that only reach the medium when the stream is closed, and a failure of that is reported by
`fclose` alone. `dump` looks at no result of `fclose`: a dump that gets past every sector returns 0, and what it wrote
is on the medium iff every close of its parts put everything there (`stored_iff_of_pass`).
-/

namespace TakeADump

open Rollover (Log)

/-- The bytes of part `i` of an image of `size` bytes. -/
def partLength (size i : Nat) : Nat := min chunkSize (size - i * chunkSize)

/-- Nothing stops a dump at sector `s`. -/
def Passes (e : Env) (w : World) (size : UInt64) (s : Nat) : Prop :=
  (chunkSize ∣ sectorSize * s → e.fopen (w.streams.length + sectorSize * s / chunkSize) = true) ∧
    ((Job.enter e w size).readable s = true ∨ w.cancelOnError = false) ∧
    (∀ m, e.fwrite (w.writes + s) = some m → (Job.enter e w size).len s ≤ m) ∧
    e.pad (w.samples + s) &&& wpadButtonHome = 0

/-- Every close of a part puts all of it on the medium. -/
def ClosesKeep (e : Env) (w : World) (size : UInt64) : Prop :=
  ∀ i < partCount size.toNat, ∀ m, e.fclose (w.streams.length + i) = some m → partLength size.toNat i ≤ m

/-- If the dump returns 0, everything `fwrite` accepted for its parts is on the medium. -/
def StoredOnReturn (e : Env) (fuel : Nat) (w : World) (diskType : Int) (size : UInt64) : Prop :=
  ∀ w', (dump e fuel (some .localId) diskType size).run w = .ok 0 w' → ∀ s ∈ w.opened w', s.stored = some s.data

namespace Job

variable {j : Job} {w w' : World}

/-- On a disc without damage every addressable sector is read. -/
theorem readable_of_ok {s : Nat} (hok : ∀ r t, j.env.attempt r t = .ok) (ha : addressable s = true) :
    j.readable s = true := by
  rw [readable, ha, Bool.true_and, Imp.hit_iff]
  refine ⟨0, by omega, ?_⟩
  rw [attempt, hok]
  rfl

theorem halt_enter_iff {e : Env} {size : UInt64} {s : Nat} (hs : s < (enter e w size).sectors) :
    (enter e w size).halt s = none ↔ Passes e w size s := by
  have hhome : (enter e w size).home s = false ↔ e.pad (w.samples + s) &&& wpadButtonHome = 0 := by
    rw [← Bool.not_eq_true, home_iff, not_not]
    rfl
  rw [halt_eq_none_iff hs, hhome]
  rfl

/-- The length of a part of the image. -/
theorem length_part {i : Nat} (hi : i < (j.point j.sectors).log.parts.length) :
    (j.point j.sectors).log.parts[i].length = partLength j.size.toNat i := by
  have hlen : (j.point j.sectors).log.all.length = j.size.toNat := by rw [← image_eq, length_image]
  rw [Rollover.length_part (j.filled_point (Nat.le_refl _)) hi, hlen]
  rfl

theorem kept_eq_iff {e : Env} {n : Nat} {data : Bytes} :
    kept e n data = data ↔ ∀ m, e.fclose n = some m → data.length ≤ m := by
  unfold kept
  cases e.fclose n with
  | none => simp
  | some m =>
    simp only [Option.some.injEq, forall_eq']
    constructor
    · intro h
      rw [← h, List.length_take]
      exact Nat.min_le_left _ _
    · exact List.take_of_length_le

/-- What a dump that did all sectors put on the medium. -/
theorem stored_finished (hc : j.Core (j.finished (j.point j.sectors)) w') (hw : j.start.streams = w.streams) :
    (∀ s ∈ w.opened w', s.stored = some s.data) ↔
      ∀ i < partCount j.size.toNat, ∀ m, j.env.fclose (j.base + i) = some m → partLength j.size.toNat i ≤ m := by
  have hlen := length_parts_all (j := j)
  rw [opened_finished hc hw]
  constructor
  · intro h i hi m hm
    rw [← hlen] at hi
    have hmem := h (j.closedStream i (j.point j.sectors).log.parts[i])
      (List.mem_mapIdx.2 ⟨i, hi, rfl⟩)
    rw [← length_part hi]
    exact kept_eq_iff.1 (Option.some.inj hmem) m hm
  · intro h s hs
    obtain ⟨i, hi, rfl⟩ := List.mem_mapIdx.1 hs
    refine congrArg some (kept_eq_iff.2 fun m hm => ?_)
    rw [length_part hi]
    exact h i (by rwa [← hlen]) m hm

end Job

section Stored

variable (e : Env) (fuel : Nat) (w : World) (diskType : Int) (size : UInt64)

/-- A dump that nothing stops. -/
theorem stored_iff_of_pass (hmem : e.memalign = true) (hpass : ∀ s, sectorSize * s < size.toNat → Passes e w size s) :
    StoredOnReturn e fuel w diskType size ↔ ClosesKeep e w size := by
  obtain ⟨w', hrun, hc, -⟩ := (Job.ended_dump fuel w diskType size hmem).of_pass fun s hs =>
    (Job.halt_enter_iff hs).2 (hpass s ((Job.lt_sectors _).1 hs))
  have hiff := Job.stored_finished (w := w) hc rfl
  constructor
  · intro h
    exact hiff.1 (h w' hrun)
  · intro h w'' hrun'
    rw [hrun] at hrun'
    cases hrun'
    exact hiff.2 h

/-- A dump that something stops does not return 0. -/
theorem not_return_of_not_pass {s : Nat} (hs : sectorSize * s < size.toNat) (h : ¬ Passes e w size s) (w' : World) :
    (dump e fuel (some .localId) diskType size).run w ≠ .ok 0 w' := by
  intro hrun
  have hlt := (Job.lt_sectors (Job.enter e w size)).2 hs
  exact h ((Job.halt_enter_iff hlt).1 ((Job.finished_of_return hrun).1 s hlt))

/-- **Success means stored** exactly when the dump does not get past every sector, or every close of a part puts all of
it on the medium. -/
theorem stored_iff : StoredOnReturn e fuel w diskType size ↔
    e.memalign = false ∨ (∃ s, sectorSize * s < size.toNat ∧ ¬ Passes e w size s) ∨ ClosesKeep e w size := by
  cases hmem : e.memalign with
  | false =>
    refine ⟨fun _ => Or.inl rfl, fun _ w' hrun => ?_⟩
    rw [Job.run_dump_memalign fuel hmem] at hrun
    cases hrun
  | true =>
    by_cases hpass : ∃ s, sectorSize * s < size.toNat ∧ ¬ Passes e w size s
    · obtain ⟨s, hs, hnot⟩ := hpass
      exact ⟨fun _ => Or.inr (Or.inl ⟨s, hs, hnot⟩), fun _ w' hrun =>
        absurd hrun (not_return_of_not_pass e fuel w diskType size hs hnot w')⟩
    · have hall : ∀ s, sectorSize * s < size.toNat → Passes e w size s :=
        fun s hs => not_not.1 fun hnot => hpass ⟨s, hs, hnot⟩
      rw [stored_iff_of_pass e fuel w diskType size hmem hall]
      constructor
      · exact fun h => Or.inr (Or.inr h)
      · rintro (h | h | h)
        · cases h
        · exact absurd h hpass
        · exact h

/-- A dump of one part whose close puts nothing on the medium. -/
theorem not_stored : ¬ StoredOnReturn { Env.calm fun _ => 7 with fclose := fun _ => some 0 } 0
    (World.boot (fun _ _ => 0) fun _ => none) isNgcDisk 0x58000000 := by
  rw [stored_iff_of_pass _ _ _ _ _ rfl]
  · intro h
    exact absurd (h 0 (by decide) 0 rfl) (by decide)
  · intro s hs
    have ha : addressable s = true := Job.addressable_iff.2 (Nat.lt_trans hs (by decide))
    exact ⟨fun _ => rfl, Or.inl (Job.readable_of_ok (fun _ _ => rfl) ha), fun m hm => (by cases hm), UInt32.zero_and⟩

end Stored

end TakeADump
