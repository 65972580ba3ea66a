import TakeADump.Dump.Storage

/-!
# The two read commands

Two dumps that differ in `read_cmd` only, on a drive that fails for both alike. Whole sectors are commanded the same
way, so both copies stand at the same point until the partial last sector (`log_withReadCmd`), and they end the same
way (`halt_withReadCmd`). The last sector is where they part: `DVD_DVDR` counts its length in whole sectors, so the
command delivers nothing and what stands in the buffer is written. `modes_agree_iff` says when that makes no difference.
-/

namespace TakeADump

open Rollover (Log)

def World.withReadCmd (w : World) (cmd : UInt32) : World := { w with readCmd := cmd }

/-- The sectors before the partial one. -/
def tailIndex (size : UInt64) : Nat := size.toNat / sectorSize

/-- The bytes of the partial sector, if there is one. -/
def tailLength (size : UInt64) : Nat := size.toNat % sectorSize

theorem Attempt.fill_congr (a : Attempt) (disc : Nat → UInt8) {r r' : Request} (hrange : r.range = r'.range)
    (hcount : r.count = r'.count) : a.fill disc r = a.fill disc r' := by
  funext mem
  cases a with
  | ok => simp only [fill, hrange, hcount]
  | err junk => rfl

namespace Job

/-- The same job under another read command. -/
def withReadCmd (j : Job) (cmd : UInt32) : Job := { j with start := j.start.withReadCmd cmd }

variable {j : Job} (cmd : UInt32) {s : Nat}

/-! ## Whole sectors -/

section Whole

variable (ha : addressable s = true) (hs : s < j.size.toNat / sectorSize)

include ha hs

theorem range_withReadCmd : ((j.withReadCmd cmd).request s).range = (j.request s).range := by
  rw [range_whole _ ha hs, range_whole (j.withReadCmd cmd) ha hs]

theorem attempt_withReadCmd (t : Nat) : (j.withReadCmd cmd).attempt s t = j.attempt s t := by
  rw [attempt, attempt, range_withReadCmd cmd ha hs]
  rfl

theorem tries_withReadCmd : (j.withReadCmd cmd).tries s = j.tries s := by
  simp only [tries, attempt_withReadCmd cmd ha hs]

theorem readable_withReadCmd : (j.withReadCmd cmd).readable s = j.readable s := by
  simp only [readable, attempt_withReadCmd cmd ha hs]

theorem filled_withReadCmd (mem : Nat → UInt8) (n : Nat) :
    (j.withReadCmd cmd).filled s mem n = j.filled s mem n := by
  induction n with
  | zero => rfl
  | succ n ih =>
    rw [filled, filled, ih, attempt_withReadCmd cmd ha hs]
    exact congrFun (Attempt.fill_congr _ _ (range_withReadCmd cmd ha hs) rfl) _

end Whole

theorem lt_sectors_of_whole (hs : s < j.size.toNat / sectorSize) : s < j.sectors := by
  rw [lt_sectors]
  rw [sectorSize_eq] at hs ⊢
  omega

theorem le_whole_of_lt_sectors (hs : s < j.sectors) : s ≤ j.size.toNat / sectorSize := by
  rw [lt_sectors] at hs
  rw [sectorSize_eq] at hs ⊢
  omega

section Points

variable (hle : j.size.toNat ≤ 2 ^ 34)

include hle

theorem addressable_whole (hs : s < j.sectors) : addressable s = true :=
  addressable_iff.2 (Nat.lt_of_lt_of_le (j.lt_sectors.1 hs) hle)

/-- Until the partial sector the buffer is the same. -/
theorem mem_withReadCmd (hs : s ≤ j.size.toNat / sectorSize) :
    ((j.withReadCmd cmd).point s).mem = (j.point s).mem := by
  induction s with
  | zero => rfl
  | succ s ih =>
    have ha := addressable_whole hle (lt_sectors_of_whole hs)
    simp only [mem_point_succ, mem_readyToWrite, point_done, ih (Nat.le_of_succ_le hs),
      filled_withReadCmd cmd ha hs, tries_withReadCmd cmd ha hs, readable_withReadCmd cmd ha hs]
    rfl

/-- Until the partial sector the same is written. -/
theorem data_withReadCmd (hs : s < j.size.toNat / sectorSize) : (j.withReadCmd cmd).data s = j.data s := by
  have ha := addressable_whole hle (lt_sectors_of_whole hs)
  simp only [data, sector, done_readyToWrite, mem_readyToWrite, point_done, mem_withReadCmd cmd hle (Nat.le_of_lt hs),
    filled_withReadCmd cmd ha hs, tries_withReadCmd cmd ha hs, readable_withReadCmd cmd ha hs]
  rfl

theorem log_withReadCmd (hs : s ≤ j.size.toNat / sectorSize) :
    ((j.withReadCmd cmd).point s).log = (j.point s).log := by
  rw [point_log, point_log]
  congr 1
  apply List.map_congr_left
  intro r hr
  exact data_withReadCmd cmd hle (Nat.lt_of_lt_of_le (List.mem_range.1 hr) hs)

/-- Both dumps stop at the same sector for the same reason, if the partial sector is read by both or by none. -/
theorem halt_withReadCmd (hs : s < j.sectors) (hread : (j.withReadCmd cmd).readable s = j.readable s) :
    (j.withReadCmd cmd).halt s = j.halt s := by
  have hlog := log_withReadCmd cmd hle (le_whole_of_lt_sectors hs)
  simp only [halt, rolls, opens, hlog, hread]
  rfl

end Points

/-! ## Ends -/

/-- The parts of a copy that stops at sector `k`. -/
def stopLog (j : Job) (k : Nat) : Halt → Log UInt8
  | .refused => (j.point k).log.closed
  | .unreadable => (j.point k).log.roll chunkSize
  | .short => (((j.point k).log.roll chunkSize).append ((j.data k).take (j.taken k))).closed
  | .home => (j.point (k + 1)).log

/-- The parts of a copy that does all sectors, or stops at the first one where it has to. -/
inductive Stops (j : Job) : Log UInt8 → Prop
  | finished (hall : ∀ s < j.sectors, j.halt s = none) : Stops j (j.point j.sectors).log.closed
  | stopped {k : Nat} {why : Halt} (hk : k < j.sectors) (hpre : ∀ s < k, j.halt s = none)
      (hhalt : j.halt k = some why) : Stops j (j.stopLog k why)

theorem Ended.stops {r : EStateM.Result Stop World Int} (h : j.Ended r) :
    ∃ l n, j.Leaves l n (finalWorld r) ∧ j.Stops l := by
  cases h with
  | finished hall hc _ => exact ⟨_, _, leaves_finished hc, .finished hall⟩
  | refused hk hpre hhalt hc _ => exact ⟨_, _, leaves_refused hc, .stopped hk hpre hhalt⟩
  | unreadable hk hpre hhalt _ hq hc _ => exact ⟨_, _, leaves_unreadable hc hq, .stopped hk hpre hhalt⟩
  | short hk hpre hhalt hc _ => exact ⟨_, _, leaves_short hc, .stopped hk hpre hhalt⟩
  | home hk hpre hhalt hc _ => exact ⟨_, _, leaves_home hc, .stopped hk hpre hhalt⟩

/-- The copy gets to write the partial sector. -/
structure WritesTail (j : Job) : Prop where
  lt : tailIndex j.size < j.sectors
  before : ∀ s < tailIndex j.size, j.halt s = none
  opened : j.halt (tailIndex j.size) ≠ some .refused
  settled : j.halt (tailIndex j.size) ≠ some .unreadable

/-- The parts when `x` was written for the partial sector. -/
def tailLog (j : Job) (x : Bytes) : Log UInt8 :=
  let l := ((j.point (tailIndex j.size)).log.roll chunkSize).append x
  if j.halt (tailIndex j.size) = some .home then l else l.closed

theorem all_tailLog (x : Bytes) : (j.tailLog x).all = (j.point (tailIndex j.size)).log.all ++ x := by
  obtain ⟨c, hcur⟩ := Log.roll_cur chunkSize (j.point (tailIndex j.size)).log
  unfold tailLog
  split
  · rw [Log.all_append hcur, Log.all_roll]
  · rw [Log.all_closed, Log.all_append hcur, Log.all_roll]

theorem tailLog_withReadCmd (hle : j.size.toNat ≤ 2 ^ 34)
    (hhalt : (j.withReadCmd cmd).halt (tailIndex j.size) = j.halt (tailIndex j.size)) (x : Bytes) :
    (j.withReadCmd cmd).tailLog x = j.tailLog x := by
  have hindex : tailIndex (j.withReadCmd cmd).size = tailIndex j.size := rfl
  have hlog : ((j.withReadCmd cmd).point (tailIndex j.size)).log = (j.point (tailIndex j.size)).log :=
    log_withReadCmd cmd hle (Nat.le_refl _)
  unfold tailLog
  rw [hindex, hlog, hhalt]

theorem take_data_of_taken {k : Nat} (h : j.taken k = j.len k) : (j.data k).take (j.taken k) = j.data k := by
  rw [h, ← j.length_data k, List.take_length]

/-- What is left by a copy that gets to the partial sector. -/
theorem Stops.eq_tailLog {l : Log UInt8} (h : j.Stops l) (hw : j.WritesTail) :
    l = j.tailLog ((j.data (tailIndex j.size)).take (j.taken (tailIndex j.size))) := by
  cases h with
  | finished hall =>
    have hnone := hall _ hw.lt
    have hlt := hw.lt
    have hlast : j.sectors - 1 ≤ tailIndex j.size := le_whole_of_lt_sectors (by omega)
    have hsectors : j.sectors = tailIndex j.size + 1 := by omega
    rw [tailLog, if_neg (by simp [hnone]), take_data_of_taken (taken_of_halt _ (Or.inl hnone)), hsectors,
      point_succ_log]
  | @stopped k why hk hpre hhalt =>
    obtain rfl : k = tailIndex j.size := by
      refine Nat.le_antisymm (le_whole_of_lt_sectors hk) (Nat.le_of_not_lt fun hlt => ?_)
      rw [hw.before k hlt] at hhalt
      cases hhalt
    cases why with
    | refused => exact absurd hhalt hw.opened
    | unreadable => exact absurd hhalt hw.settled
    | short =>
      rw [tailLog, if_neg (by simp [hhalt])]
      rfl
    | home =>
      rw [tailLog, if_pos hhalt, take_data_of_taken (taken_of_halt _ (Or.inr hhalt)), stopLog, point_succ_log]

/-- There is one first success. -/
theorem first_eq {o : Nat → Bool} {t t' : Nat} (hok : o t = true) (hfirst : ∀ r < t, o r = false) (hok' : o t' = true)
    (hfirst' : ∀ r < t', o r = false) : t = t' := by
  apply Nat.le_antisymm
  · refine Nat.le_of_not_lt fun hlt => ?_
    rw [hfirst t' hlt] at hok'
    cases hok'
  · refine Nat.le_of_not_lt fun hlt => ?_
    rw [hfirst' t hlt] at hok
    cases hok

/-- The first sector with an answer, and the answer. -/
theorem first_unique {α : Type} {f : Nat → Option α} {k k' : Nat} {a a' : α} (hpre : ∀ s < k, f s = none)
    (h : f k = some a) (hpre' : ∀ s < k', f s = none) (h' : f k' = some a') : k' = k ∧ a' = a := by
  obtain rfl : k' = k := first_eq (o := fun s => (f s).isSome) (by simp [h']) (fun s hs => by simp [hpre' s hs])
    (by simp [h]) (fun s hs => by simp [hpre s hs])
  rw [h] at h'
  exact ⟨rfl, (Option.some.inj h').symm⟩

/-- Up to the partial sector, two copies that stop leave the same. -/
theorem stopLog_withReadCmd (hle : j.size.toNat ≤ 2 ^ 34) {k : Nat} (hk : k ≤ tailIndex j.size) {why : Halt}
    (hwhy : k < tailIndex j.size ∨ why = .refused ∨ why = .unreadable) :
    (j.withReadCmd cmd).stopLog k why = j.stopLog k why ∧
      (j.stopLog k why).all.length ≤ sectorSize * tailIndex j.size := by
  have hlog := log_withReadCmd cmd hle hk
  have hlen : (j.point k).log.all.length ≤ sectorSize * tailIndex j.size := by
    rw [length_point_all]
    exact Nat.le_trans (Nat.min_le_left _ _) (Nat.mul_le_mul_left _ hk)
  cases why with
  | refused => exact ⟨congrArg Log.closed hlog, by rwa [stopLog, Log.all_closed]⟩
  | unreadable => exact ⟨congrArg (Log.roll chunkSize) hlog, by rwa [stopLog, Log.all_roll]⟩
  | short =>
    have hlt : k < tailIndex j.size := hwhy.resolve_right (by simp)
    obtain ⟨c, hcur⟩ := Log.roll_cur chunkSize (j.point k).log
    constructor
    · rw [stopLog, stopLog, hlog, data_withReadCmd cmd hle hlt]
      rfl
    · have hsucc : sectorSize * (k + 1) ≤ sectorSize * tailIndex j.size := Nat.mul_le_mul_left _ hlt
      rw [stopLog, Log.all_closed, Log.all_append hcur, Log.all_roll, List.length_append, List.length_take, length_data,
        length_point_all, len]
      rw [Nat.mul_succ] at hsucc
      omega
  | home =>
    have hlt : k < tailIndex j.size := hwhy.resolve_right (by simp)
    constructor
    · exact log_withReadCmd cmd hle hlt
    · rw [stopLog, length_point_all]
      exact Nat.le_trans (Nat.min_le_left _ _) (Nat.mul_le_mul_left _ hlt)

/-- Two copies that do not get there leave the same. -/
theorem Stops.eq_of_not_writesTail (hle : j.size.toNat ≤ 2 ^ 34) {l l' : Log UInt8} (h : j.Stops l)
    (h' : (j.withReadCmd cmd).Stops l') (hhalt : ∀ s < j.sectors, (j.withReadCmd cmd).halt s = j.halt s)
    (hw : ¬ j.WritesTail) : l' = l ∧ l.all.length ≤ sectorSize * tailIndex j.size := by
  cases h with
  | finished hall =>
    have hsectors : j.sectors ≤ tailIndex j.size := by
      refine Nat.le_of_not_lt fun hlt => hw ⟨hlt, fun s hs => hall s (Nat.lt_trans hs hlt), ?_, ?_⟩
      · simp [hall _ hlt]
      · simp [hall _ hlt]
    cases h' with
    | finished _ =>
      refine ⟨congrArg Log.closed (log_withReadCmd cmd hle hsectors), ?_⟩
      rw [Log.all_closed, length_point_all]
      exact Nat.le_trans (Nat.min_le_left _ _) (Nat.mul_le_mul_left _ hsectors)
    | stopped hk _ hstop =>
      rw [hhalt _ hk, hall _ hk] at hstop
      cases hstop
  | @stopped k why hk hpre hstop =>
    have hwhy : k < tailIndex j.size ∨ why = .refused ∨ why = .unreadable := by
      refine (Nat.lt_or_eq_of_le (le_whole_of_lt_sectors hk)).imp_right fun hlast => ?_
      by_contra hnot
      rw [not_or] at hnot
      subst hlast
      exact hw ⟨hk, hpre, fun h => hnot.1 (Option.some.inj (hstop.symm.trans h)),
        fun h => hnot.2 (Option.some.inj (hstop.symm.trans h))⟩
    cases h' with
    | finished hall =>
      rw [← hhalt k hk, hall k hk] at hstop
      cases hstop
    | @stopped k' why' hk' hpre' hstop' =>
      obtain ⟨rfl, rfl⟩ := first_unique hpre hstop (fun s hs => (hhalt s (Nat.lt_trans hs hk')).symm.trans (hpre' s hs))
        ((hhalt k' hk').symm.trans hstop')
      exact stopLog_withReadCmd cmd hle (le_whole_of_lt_sectors hk) hwhy

/-- What it takes to get to write a sector. -/
theorem halt_passed_iff {s : Nat} : (j.halt s ≠ some .refused ∧ j.halt s ≠ some .unreadable) ↔
    (j.rolls s = true → j.opens s = true) ∧ (j.readable s = true ∨ j.start.cancelOnError = false) := by
  have hopen : (j.rolls s = true → j.opens s = true) ↔ (j.rolls s && !j.opens s) = false := by
    cases j.rolls s <;> simp
  have hread : j.readable s = true ∨ j.start.cancelOnError = false ↔
      (!j.readable s && j.start.cancelOnError) = false := by
    cases j.readable s <;> simp
  rw [hopen, hread]
  unfold halt
  split_ifs <;> simp_all

end Job

/-! ## The partial sector -/

section Tail

variable (e : Env) (w : World) (size : UInt64)

/-- Attempt `t` on the partial sector; `DVD_DVDR` commands no bytes of it. -/
def tailAttempt (cmd : UInt32) (t : Nat) : Attempt :=
  let r : Range := ⟨sectorSize * tailIndex size, if cmd = dvdDvdr then 0 else tailLength size⟩
  e.attempt r (w.tried r + t)

/-- The attempts on the partial sector fail alike under both commands. -/
def SameFailures : Prop :=
  ∀ t < 3, (tailAttempt e w size dvdNormal t).isOk = (tailAttempt e w size dvdDvdr t).isOk

/-- One of the three attempts on the partial sector succeeds. -/
def TailRead : Prop := ∃ t < 3, (tailAttempt e w size dvdDvdr t).isOk = true

instance : Decidable (TailRead e w size) := inferInstanceAs (Decidable (∃ t < 3, _))

/-- The buffer before attempt `t` under `DVD_DVDR`: the sector before the partial one, or what a failed attempt left. -/
def tailBuffer : Nat → Nat → UInt8
  | 0 =>
    match tailIndex size with
    | 0 => w.mem .buffer
    | s + 1 => fun i => if ReadInThree e w s then e.disc (sectorSize * s + i) else 0
  | t + 1 =>
    match tailAttempt e w size dvdDvdr t with
    | .ok => tailBuffer t
    | .err junk => junk

variable {e w size} in
/-- Before the first attempt on the partial sector stands the sector before it. -/
theorem tailBuffer_zero {s : Nat} (h : tailIndex size = s + 1) (i : Nat) :
    tailBuffer e w size 0 i = if ReadInThree e w s then e.disc (sectorSize * s + i) else 0 := by
  unfold tailBuffer
  rw [h]

/-- Nothing stops a dump before the partial sector, and its part can be created. -/
def TailReached : Prop :=
  (∀ s < tailIndex size, Passes e w size s) ∧
    (chunkSize ∣ sectorSize * tailIndex size →
      e.fopen (w.streams.length + sectorSize * tailIndex size / chunkSize) = true)

/-- The bytes of the partial sector that are accepted stand in the buffer before the attempt that succeeds. -/
def TailCovered : Prop :=
  e.memalign = true → TailReached e w size →
    ∀ t < 3, (tailAttempt e w size dvdDvdr t).isOk = true →
      (∀ t' < t, (tailAttempt e w size dvdDvdr t').isOk = false) →
      ∀ i < accepted e (w.writes + tailIndex size) (tailLength size),
        tailBuffer e w size t i = e.disc (sectorSize * tailIndex size + i)

end Tail

namespace Job

variable {e : Env} {w : World} {size : UInt64} (cmd : UInt32)

theorem len_tail (j : Job) : j.len (tailIndex j.size) = tailLength j.size := by
  unfold len tailIndex tailLength
  rw [sectorSize_eq]
  omega

theorem tailLength_lt (size : UInt64) : tailLength size < sectorSize := Nat.mod_lt _ sectorSize_pos

/-- The range commanded for the partial sector. -/
theorem range_tail (ha : addressable (tailIndex size) = true) :
    ((enter e (w.withReadCmd cmd) size).request (tailIndex size)).range =
      ⟨sectorSize * tailIndex size, if cmd = dvdDvdr then 0 else tailLength size⟩ := by
  have hlen : (enter e (w.withReadCmd cmd) size).len (tailIndex size) = tailLength size := len_tail _
  have hzero : tailLength size / sectorSize * sectorSize = 0 := by
    rw [Nat.div_eq_of_lt (tailLength_lt size), Nat.zero_mul]
  rw [range_request _ ha, hlen, hzero]
  show (if cmd = dvdDvdr then _ else _) = _
  split
  · rfl
  · rfl

theorem attempt_tail (ha : addressable (tailIndex size) = true) (t : Nat) :
    (enter e (w.withReadCmd cmd) size).attempt (tailIndex size) t = tailAttempt e w size cmd t := by
  unfold attempt
  rw [range_tail cmd ha]
  rfl

theorem readable_tail (ha : addressable (tailIndex size) = true) :
    (enter e (w.withReadCmd cmd) size).readable (tailIndex size) = true ↔
      ∃ t < 3, (tailAttempt e w size cmd t).isOk = true := by
  simp only [readable, ha, attempt_tail cmd ha, Bool.true_and, Imp.hit_iff]

/-- The buffer before the first attempt on the partial sector. -/
theorem mem_point_tail (hle : size.toNat ≤ 2 ^ 34) {i : Nat} (hi : i < sectorSize) :
    ((enter e (w.withReadCmd cmd) size).point (tailIndex size)).mem i = tailBuffer e w size 0 i := by
  have hindex : tailIndex size = size.toNat / sectorSize := rfl
  cases hm : tailIndex size with
  | zero =>
    unfold tailBuffer
    rw [hm]
    rfl
  | succ s =>
    have hs : s < size.toNat / sectorSize := by omega
    have hread := readable_enter e (w.withReadCmd cmd) hle hs
    have hlen := len_enter e (w.withReadCmd cmd) hs
    rw [mem_point_succ, mem_readyToWrite, point_done, tailBuffer_zero hm]
    by_cases h : ReadInThree e w s
    · have hok := hread.2 h
      rw [if_pos hok, if_pos h]
      exact filled_of_readable _ hok (Or.inr ⟨1, by rw [hlen, Nat.mul_one]⟩) _ (by rw [hlen]; exact hi)
    · rw [if_neg (mt hread.1 h), if_neg h, if_pos (by rw [hlen]; exact hi)]

/-- Under `DVD_DVDR` no attempt on the partial sector delivers anything. -/
theorem filled_tail (hle : size.toNat ≤ 2 ^ 34) (ha : addressable (tailIndex size) = true) {i : Nat}
    (hi : i < sectorSize) (t : Nat) :
    (enter e (w.withReadCmd dvdDvdr) size).filled (tailIndex size)
      ((enter e (w.withReadCmd dvdDvdr) size).point (tailIndex size)).mem t i = tailBuffer e w size t i := by
  induction t with
  | zero => exact mem_point_tail dvdDvdr hle hi
  | succ t ih =>
    have hrange : ((enter e (w.withReadCmd dvdDvdr) size).request (tailIndex size)).range.length = 0 := by
      rw [range_tail dvdDvdr ha]
      show (if dvdDvdr = dvdDvdr then 0 else tailLength size) = 0
      exact if_pos rfl
    rw [filled, attempt_tail dvdDvdr ha, tailBuffer]
    cases tailAttempt e w size dvdDvdr t with
    | ok =>
      show (if i < min _ _ then _ else _) = _
      rw [hrange, Nat.zero_min, if_neg (Nat.not_lt_zero i)]
      exact ih
    | err junk => rfl

theorem bytesAt_congr {f g : Nat → UInt8} {n : Nat} : bytesAt f n = bytesAt g n ↔ ∀ i < n, f i = g i := by
  unfold bytesAt
  rw [List.map_inj_left]
  simp only [List.mem_range]

/-- The partial sector under `DVD_NORMAL`: the disc's bytes. -/
theorem data_tail_normal (hread : (enter e (w.withReadCmd dvdNormal) size).readable (tailIndex size) = true) :
    (enter e (w.withReadCmd dvdNormal) size).data (tailIndex size) =
      bytesAt (fun i => e.disc (sectorSize * tailIndex size + i)) (tailLength size) := by
  have hlen : (enter e (w.withReadCmd dvdNormal) size).len (tailIndex size) = tailLength size := len_tail _
  have hcmd : (enter e (w.withReadCmd dvdNormal) size).start.readCmd ≠ dvdDvdr := by
    show dvdNormal ≠ dvdDvdr
    decide
  rw [data_of_readable _ hread (Or.inl hcmd), hlen]
  rfl

/-- The partial sector under `DVD_DVDR`: what stood in the buffer before the attempt that succeeded. -/
theorem data_tail_dvdr (hle : size.toNat ≤ 2 ^ 34) (ha : addressable (tailIndex size) = true) {t : Nat} (ht : t < 3)
    (hok : (tailAttempt e w size dvdDvdr t).isOk = true)
    (hfirst : ∀ t' < t, (tailAttempt e w size dvdDvdr t').isOk = false) :
    (enter e (w.withReadCmd dvdDvdr) size).data (tailIndex size) =
      bytesAt (tailBuffer e w size t) (tailLength size) := by
  have hlen : (enter e (w.withReadCmd dvdDvdr) size).len (tailIndex size) = tailLength size := len_tail _
  have hread : (enter e (w.withReadCmd dvdDvdr) size).readable (tailIndex size) = true :=
    (readable_tail dvdDvdr ha).2 ⟨t, ht, hok⟩
  have htries : (enter e (w.withReadCmd dvdDvdr) size).tries (tailIndex size) = t + 1 := by
    simp only [tries, ha, attempt_tail dvdDvdr ha, if_true]
    rw [tries_of_first hok hfirst]
    omega
  have hlast : tailBuffer e w size (t + 1) = tailBuffer e w size t := by
    rw [tailBuffer]
    cases hatt : tailAttempt e w size dvdDvdr t with
    | ok => rfl
    | err junk =>
      rw [hatt] at hok
      cases hok
  rw [data, sector, done_readyToWrite, mem_readyToWrite, point_done, if_pos hread, htries, hlen, bytesAt_congr]
  intro i hi
  rw [filled_tail hle ha (Nat.lt_trans hi (tailLength_lt size)), hlast]

theorem passes_withReadCmd (hle : size.toNat ≤ 2 ^ 34) {s : Nat} (hs : s < size.toNat / sectorSize) :
    Passes e (w.withReadCmd cmd) size s ↔ Passes e w size s := by
  have hread : (enter e (w.withReadCmd cmd) size).readable s = (enter e w size).readable s :=
    readable_withReadCmd (j := enter e w size) cmd (addressable_enter hle hs) hs
  unfold Passes
  rw [hread]
  exact Iff.rfl

/-- A dump gets to write the partial sector iff there is one, nothing stops it before, and it need not or can be read. -/
theorem writesTail_iff (hle : size.toNat ≤ 2 ^ 34) : (enter e (w.withReadCmd cmd) size).WritesTail ↔
    0 < tailLength size ∧ TailReached e w size ∧
      ((enter e (w.withReadCmd cmd) size).readable (tailIndex size) = true ∨ w.cancelOnError = false) := by
  have hlt : tailIndex size < (enter e (w.withReadCmd cmd) size).sectors ↔ 0 < tailLength size := by
    rw [lt_sectors]
    show sectorSize * (size.toNat / sectorSize) < size.toNat ↔ 0 < size.toNat % sectorSize
    rw [sectorSize_eq]
    omega
  have hbefore : (∀ s < tailIndex size, (enter e (w.withReadCmd cmd) size).halt s = none) ↔
      ∀ s < tailIndex size, Passes e w size s :=
    forall₂_congr fun s hs => (halt_enter_iff (lt_sectors_of_whole hs)).trans (passes_withReadCmd cmd hle hs)
  have hopen (h : tailIndex size < (enter e (w.withReadCmd cmd) size).sectors) :
      ((enter e (w.withReadCmd cmd) size).rolls (tailIndex size) = true →
        (enter e (w.withReadCmd cmd) size).opens (tailIndex size) = true) ↔
      (chunkSize ∣ sectorSize * tailIndex size →
        e.fopen (w.streams.length + sectorSize * tailIndex size / chunkSize) = true) := by
    rw [← rolls_iff h]
    refine forall_congr' fun hrolls => ?_
    rw [opens_eq h hrolls]
    exact Iff.rfl
  constructor
  · intro h
    obtain ⟨hopened, hread⟩ := halt_passed_iff.1 ⟨h.opened, h.settled⟩
    exact ⟨hlt.1 h.lt, ⟨hbefore.1 h.before, (hopen h.lt).1 hopened⟩, hread⟩
  · rintro ⟨hpos, ⟨hpass, hfopen⟩, hread⟩
    obtain ⟨hopened, hsettled⟩ := halt_passed_iff.2 ⟨(hopen (hlt.2 hpos)).2 hfopen, hread⟩
    exact ⟨hlt.2 hpos, hbefore.2 hpass, hopened, hsettled⟩

end Job

/-! ## Agreement -/

section Agree

variable (e : Env) (fuel : Nat) (w : World) (diskType : Int) (size : UInt64)

/-- What was written for the partial sector is the disc's, or zeros if it could not be read. -/
def TailRight (w' : World) : Prop :=
  ∀ i b, (w.written w')[sectorSize * tailIndex size + i]? = some b →
    b = if TailRead e w size then e.disc (sectorSize * tailIndex size + i) else 0

/-- Dumps under both read commands leave the same parts, and the partial sector in them is right. -/
def ModesAgree : Prop :=
  let normal := finalWorld ((dump e fuel (some .localId) diskType size).run (w.withReadCmd dvdNormal))
  let dvdr := finalWorld ((dump e fuel (some .localId) diskType size).run (w.withReadCmd dvdDvdr))
  w.opened normal = w.opened dvdr ∧ TailRight e w size normal ∧ TailRight e w size dvdr

variable {e w size}

theorem addressable_tail (hle : size.toNat ≤ 2 ^ 34) (hpos : 0 < tailLength size) :
    addressable (tailIndex size) = true := by
  apply Job.addressable_iff.2
  unfold tailLength at hpos
  unfold tailIndex
  rw [sectorSize_eq] at hpos ⊢
  omega

/-- Under the same failures both commands read the partial sector, or none does. -/
theorem readable_tail_iff (hle : size.toNat ≤ 2 ^ 34) (hpos : 0 < tailLength size) (hsame : SameFailures e w size) :
    ((Job.enter e (w.withReadCmd dvdNormal) size).readable (tailIndex size) = true ↔ TailRead e w size) ∧
      ((Job.enter e (w.withReadCmd dvdDvdr) size).readable (tailIndex size) = true ↔ TailRead e w size) := by
  have ha := addressable_tail hle hpos
  refine ⟨(Job.readable_tail dvdNormal ha).trans ?_, Job.readable_tail dvdDvdr ha⟩
  unfold TailRead
  refine exists_congr fun t => and_congr_right fun ht => ?_
  rw [hsame t ht]

/-- Under the same failures both dumps stop at the same sector for the same reason. -/
theorem halt_twin (hle : size.toNat ≤ 2 ^ 34) (hsame : SameFailures e w size) {s : Nat}
    (hs : s < (Job.enter e (w.withReadCmd dvdNormal) size).sectors) :
    (Job.enter e (w.withReadCmd dvdDvdr) size).halt s = (Job.enter e (w.withReadCmd dvdNormal) size).halt s := by
  apply Job.halt_withReadCmd (j := Job.enter e (w.withReadCmd dvdNormal) size) dvdDvdr hle hs
  have hlt := (Job.lt_sectors _).1 hs
  rcases Nat.lt_or_eq_of_le (Job.le_whole_of_lt_sectors hs) with hwhole | hlast
  · exact Job.readable_withReadCmd dvdDvdr (Job.addressable_whole hle hs) hwhole
  · obtain rfl : s = tailIndex size := hlast
    have hpos : 0 < tailLength size := by
      have hlt : sectorSize * (size.toNat / sectorSize) < size.toNat := hlt
      unfold tailLength
      rw [sectorSize_eq] at hlt ⊢
      omega
    obtain ⟨hnormal, hdvdr⟩ := readable_tail_iff hle hpos hsame
    rw [Bool.eq_iff_iff]
    exact hdvdr.trans hnormal.symm

/-- What of the partial sector was written. -/
theorem tailRight_iff {w' : World} {before x : Bytes} (hwritten : w.written w' = before ++ x)
    (hbefore : before.length = sectorSize * tailIndex size) : TailRight e w size w' ↔
      ∀ i b, x[i]? = some b → b = if TailRead e w size then e.disc (sectorSize * tailIndex size + i) else 0 := by
  unfold TailRight
  rw [hwritten, ← hbefore]
  refine forall_congr' fun i => ?_
  rw [List.getElem?_append_right (Nat.le_add_right _ i), Nat.add_sub_cancel_left]

/-- Dumps that do not get to write the partial sector agree. -/
theorem agree_of_not_writesTail (hle : size.toNat ≤ 2 ^ 34) (hsame : SameFailures e w size) (hmem : e.memalign = true)
    (hw : ¬ (Job.enter e (w.withReadCmd dvdNormal) size).WritesTail) :
    ModesAgree e fuel w diskType size ∧ TailCovered e w size := by
  obtain ⟨l, n, hleaves, hstops⟩ := (Job.ended_dump fuel (w.withReadCmd dvdNormal) diskType size hmem).stops
  obtain ⟨l', n', hleaves', hstops'⟩ := (Job.ended_dump fuel (w.withReadCmd dvdDvdr) diskType size hmem).stops
  obtain ⟨rfl, hlen⟩ := hstops.eq_of_not_writesTail dvdDvdr hle hstops' (fun s hs => halt_twin hle hsame hs) hw
  have hlen : l'.all.length ≤ sectorSize * tailIndex size := hlen
  have hright {w' : World} (hwritten : w.written w' = l'.all) : TailRight e w size w' := by
    intro i b hb
    rw [hwritten, List.getElem?_eq_none (Nat.le_trans hlen (Nat.le_add_right _ i))] at hb
    cases hb
  constructor
  · refine ⟨?_, hright (hleaves.written_eq rfl), hright (hleaves'.written_eq rfl)⟩
    rw [hleaves.opened (w := w) rfl, hleaves'.opened (w := w) rfl]
    rfl
  · intro _ hreached t ht hok _ i hi
    have hpos : 0 < tailLength size := by
      unfold accepted at hi
      split at hi <;> omega
    refine absurd ((Job.writesTail_iff dvdNormal hle).2 ⟨hpos, hreached, Or.inl ?_⟩) hw
    exact (readable_tail_iff hle hpos hsame).1.2 ⟨t, ht, hok⟩

/-- The first attempt that succeeds. -/
theorem exists_first (h : TailRead e w size) : ∃ t < 3, (tailAttempt e w size dvdDvdr t).isOk = true ∧
    ∀ t' < t, (tailAttempt e w size dvdDvdr t').isOk = false := by
  obtain ⟨t, ht, hok⟩ := h
  have hex : ∃ t, (tailAttempt e w size dvdDvdr t).isOk = true := ⟨t, hok⟩
  refine ⟨Nat.find hex, Nat.lt_of_le_of_lt (Nat.find_min' hex hok) ht, Nat.find_spec hex, ?_⟩
  exact fun t' ht' => Bool.eq_false_iff.2 (Nat.find_min hex ht')

theorem of_getElem?_bytesAt {f : Nat → UInt8} {n i : Nat} {b : UInt8} (h : (bytesAt f n)[i]? = some b) : b = f i := by
  rw [bytesAt, List.getElem?_map] at h
  obtain ⟨i', hi', rfl⟩ := Option.map_eq_some_iff.1 h
  obtain ⟨-, rfl⟩ := List.getElem?_eq_some_iff.1 hi'
  rw [List.getElem_range]

theorem accepted_le (call n : Nat) : accepted e call n ≤ n := by
  unfold accepted
  split
  · exact Nat.le_refl n
  · exact Nat.min_le_right _ _

/-- The parts of dumps that get to write the partial sector differ in what was accepted of it at most. -/
theorem written_of_writesTail (hle : size.toNat ≤ 2 ^ 34) (hsame : SameFailures e w size) (hmem : e.memalign = true)
    (hw : (Job.enter e (w.withReadCmd dvdNormal) size).WritesTail) :
    let normal := finalWorld ((dump e fuel (some .localId) diskType size).run (w.withReadCmd dvdNormal))
    let dvdr := finalWorld ((dump e fuel (some .localId) diskType size).run (w.withReadCmd dvdDvdr))
    let taken := accepted e (w.writes + tailIndex size) (tailLength size)
    ∃ before : Bytes, before.length = sectorSize * tailIndex size ∧
      w.written normal =
        before ++ ((Job.enter e (w.withReadCmd dvdNormal) size).data (tailIndex size)).take taken ∧
      w.written dvdr =
        before ++ ((Job.enter e (w.withReadCmd dvdDvdr) size).data (tailIndex size)).take taken ∧
      (w.opened normal = w.opened dvdr ↔
        ((Job.enter e (w.withReadCmd dvdNormal) size).data (tailIndex size)).take taken =
          ((Job.enter e (w.withReadCmd dvdDvdr) size).data (tailIndex size)).take taken) := by
  intro normal dvdr taken
  obtain ⟨hpos, hreached, hread⟩ := (Job.writesTail_iff dvdNormal hle).1 hw
  obtain ⟨hnormal, hdvdr⟩ := readable_tail_iff hle hpos hsame
  have hw' : (Job.enter e (w.withReadCmd dvdDvdr) size).WritesTail :=
    (Job.writesTail_iff dvdDvdr hle).2 ⟨hpos, hreached, hread.imp_left fun h => hdvdr.2 (hnormal.1 h)⟩
  obtain ⟨l, n, hleaves, hstops⟩ := (Job.ended_dump fuel (w.withReadCmd dvdNormal) diskType size hmem).stops
  obtain ⟨l', n', hleaves', hstops'⟩ := (Job.ended_dump fuel (w.withReadCmd dvdDvdr) diskType size hmem).stops
  have htaken : (Job.enter e (w.withReadCmd dvdNormal) size).taken (tailIndex size) = taken :=
    congrArg (accepted e (w.writes + tailIndex size)) (Job.len_tail _)
  have hl : l = (Job.enter e (w.withReadCmd dvdNormal) size).tailLog
      (((Job.enter e (w.withReadCmd dvdNormal) size).data (tailIndex size)).take taken) := by
    rw [hstops.eq_tailLog hw, ← htaken]
    rfl
  have hl' : l' = (Job.enter e (w.withReadCmd dvdNormal) size).tailLog
      (((Job.enter e (w.withReadCmd dvdDvdr) size).data (tailIndex size)).take taken) := by
    rw [hstops'.eq_tailLog hw', ← htaken]
    exact Job.tailLog_withReadCmd (j := Job.enter e (w.withReadCmd dvdNormal) size) dvdDvdr hle
      (halt_twin hle hsame hw.lt) _
  have hwritten : w.written normal = l.all := hleaves.written_eq rfl
  have hwritten' : w.written dvdr = l'.all := hleaves'.written_eq rfl
  rw [hl, Job.all_tailLog] at hwritten
  rw [hl', Job.all_tailLog] at hwritten'
  refine ⟨_, ?_, hwritten, hwritten', ?_, ?_⟩
  · rw [Job.length_point_all]
    exact Nat.min_eq_left (Nat.mul_div_le size.toNat sectorSize)
  · intro h
    have heq : w.written normal = w.written dvdr := congrArg (fun s => (s.map Stream.data).flatten) h
    rw [hwritten, hwritten'] at heq
    exact List.append_cancel_left heq
  · intro h
    rw [hleaves.opened (w := w) rfl, hleaves'.opened (w := w) rfl, hl, hl', h]
    rfl

/-- What the partial sector holds: the disc's bytes under `DVD_NORMAL`, the leftover under `DVD_DVDR`. -/
theorem agree_iff_of_writesTail (hle : size.toNat ≤ 2 ^ 34) (hsame : SameFailures e w size) (hmem : e.memalign = true)
    (hw : (Job.enter e (w.withReadCmd dvdNormal) size).WritesTail) :
    ModesAgree e fuel w diskType size ↔ TailCovered e w size := by
  obtain ⟨hpos, hreached, -⟩ := (Job.writesTail_iff dvdNormal hle).1 hw
  obtain ⟨hnormal, hdvdr⟩ := readable_tail_iff hle hpos hsame
  have ha := addressable_tail hle hpos
  obtain ⟨before, hbefore, hwritten, hwritten', hopened⟩ := written_of_writesTail fuel diskType hle hsame hmem hw
  have hlen := accepted_le (e := e) (w.writes + tailIndex size) (tailLength size)
  unfold ModesAgree
  dsimp only
  rw [hopened, tailRight_iff hwritten hbefore, tailRight_iff hwritten' hbefore]
  by_cases hread : TailRead e w size
  · obtain ⟨t, ht, hok, hfirst⟩ := exists_first hread
    rw [Job.data_tail_normal (hnormal.2 hread), Job.data_tail_dvdr hle ha ht hok hfirst, ← Job.bytesAt_take _ hlen,
      ← Job.bytesAt_take _ hlen, Job.bytesAt_congr]
    constructor
    · rintro ⟨heq, -, -⟩ - - t' - hok' hfirst' i hi
      rw [Job.first_eq hok' hfirst' hok hfirst]
      exact (heq i hi).symm
    · intro hcovered
      have heq : ∀ i < accepted e (w.writes + tailIndex size) (tailLength size),
          e.disc (sectorSize * tailIndex size + i) = tailBuffer e w size t i :=
        fun i hi => (hcovered hmem hreached t ht hok hfirst i hi).symm
      have hright : ∀ i b, (bytesAt (fun i => e.disc (sectorSize * tailIndex size + i))
          (accepted e (w.writes + tailIndex size) (tailLength size)))[i]? = some b →
          b = if TailRead e w size then e.disc (sectorSize * tailIndex size + i) else 0 := by
        intro i b hb
        rw [if_pos hread]
        exact of_getElem?_bytesAt (f := fun i => e.disc (sectorSize * tailIndex size + i)) hb
      refine ⟨heq, hright, ?_⟩
      rw [← Job.bytesAt_congr.2 heq]
      exact hright
  · have hzeros {n : Nat} : ∀ i b, ((List.replicate n (0 : UInt8)).take
        (accepted e (w.writes + tailIndex size) (tailLength size)))[i]? = some b →
        b = if TailRead e w size then e.disc (sectorSize * tailIndex size + i) else 0 := by
      intro i b hb
      rw [if_neg hread]
      exact List.eq_of_mem_replicate (List.mem_of_mem_take (List.mem_of_getElem? hb))
    rw [Job.data_of_not_readable _ (Bool.eq_false_iff.2 (mt hnormal.1 hread)),
      Job.data_of_not_readable _ (Bool.eq_false_iff.2 (mt hdvdr.1 hread))]
    exact iff_of_true ⟨rfl, hzeros, hzeros⟩ fun _ _ t ht hok _ => absurd ⟨t, ht, hok⟩ hread

/-- With a buffer, agreement is decided by the partial sector. -/
theorem agree_iff (hle : size.toNat ≤ 2 ^ 34) (hsame : SameFailures e w size) (hmem : e.memalign = true) :
    ModesAgree e fuel w diskType size ↔ TailCovered e w size := by
  by_cases hw : (Job.enter e (w.withReadCmd dvdNormal) size).WritesTail
  · exact agree_iff_of_writesTail fuel diskType hle hsame hmem hw
  · obtain ⟨hagree, hcovered⟩ := agree_of_not_writesTail fuel diskType hle hsame hmem hw
    exact iff_of_true hagree hcovered

variable (e w size)

/-- **When the read commands agree.** Dumps under `DVD_NORMAL` and `DVD_DVDR`, with the same failures, leave the same
parts with the right bytes for the partial sector iff no buffer is allocated, the dump does not get to that sector, none
of its attempts succeeds, or what stands in the buffer before the one that does is the disc's. -/
theorem modes_agree_iff (hle : size.toNat ≤ 2 ^ 34) (hsame : SameFailures e w size) :
    ModesAgree e fuel w diskType size ↔ TailCovered e w size := by
  cases hmem : e.memalign with
  | true => exact agree_iff fuel diskType hle hsame hmem
  | false =>
    have hopened : ∀ cmd, w.opened
        (finalWorld ((dump e fuel (some .localId) diskType size).run (w.withReadCmd cmd))) = [] := by
      intro cmd
      rw [Job.run_dump_memalign fuel hmem]
      exact List.drop_length
    have hright : ∀ cmd, TailRight e w size
        (finalWorld ((dump e fuel (some .localId) diskType size).run (w.withReadCmd cmd))) := by
      intro cmd i b hb
      rw [World.written, hopened] at hb
      cases hb
    refine iff_of_true ⟨(hopened _).trans (hopened _).symm, hright _, hright _⟩ fun h => ?_
    rw [hmem] at h
    cases h

end Agree

theorem tailReached_calm (disc : Nat → UInt8) (w : World) (size : UInt64) :
    TailReached (Env.calm disc) w.tolerant size := by
  refine ⟨fun s _ => ⟨fun _ => rfl, Or.inr rfl, ?_, UInt32.zero_and⟩, fun _ => rfl⟩
  intro m hm
  cases hm

/-- On a disc of sevens the leftover of the first sector is right for the last byte. -/
theorem modes_agree_iff_sevens :
    let w : World := (World.boot (fun _ _ => 0) fun _ => none).tolerant
    ModesAgree (Env.calm fun _ => 7) 0 w isNgcDisk 2049 := by
  intro w
  apply (modes_agree_iff (Env.calm fun _ => 7) 0 w isNgcDisk 2049 (by decide) fun _ _ => rfl).2
  intro _ _ t _ _ hfirst i _
  have ht : t = 0 := by
    by_contra hne
    have hfail : (tailAttempt (Env.calm fun _ => 7) w 2049 dvdDvdr 0).isOk = false :=
      hfirst 0 (Nat.pos_of_ne_zero hne)
    cases hfail
  subst ht
  rw [tailBuffer_zero (s := 0) (by decide)]
  exact if_pos ⟨0, by decide, rfl⟩

/-- On a disc of a sector of ones and a byte of two, `DVD_DVDR` writes a one for the last byte. -/
theorem modes_disagree :
    let e := Env.calm fun i => if i < 2048 then 1 else 2
    let w : World := (World.boot (fun _ _ => 0) fun _ => none).tolerant
    SameFailures e w 2049 ∧ ¬ ModesAgree e 0 w isNgcDisk 2049 := by
  intro e w
  refine ⟨fun _ _ => rfl, fun hagree => ?_⟩
  have hcovered := (agree_iff 0 isNgcDisk (by decide) (fun _ _ => rfl) rfl).1 hagree
  have hbyte := hcovered rfl (tailReached_calm _ _ _) 0 (by decide) rfl (fun _ h => absurd h (Nat.not_lt_zero _)) 0
    (by decide)
  have hleft : tailBuffer e w 2049 0 0 = 1 := by
    rw [tailBuffer_zero (s := 0) (by decide)]
    exact if_pos ⟨0, by decide, rfl⟩
  rw [hleft] at hbyte
  exact absurd hbyte (by decide)

end TakeADump
