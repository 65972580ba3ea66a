import TakeADump.Drive.Address
import TakeADump.Drive.Effects

/-!
# A result is that of its own command

The error flag of `dvd[0]` stays up until it is written as one, and `initialize_disk`, `identify_disk` and every read
may leave it up. A `session` is any history of such calls. What its reads return are the outcomes of their own commands,
one after the other, whatever the registers held before (`session_results`, `read_result_own`).
-/

namespace TakeADump

/-- How the commands ended. -/
def outcomes (evs : List Event) : List Bool :=
  evs.filterMap fun
    | .finished ok => some ok
    | _ => none

/-- What a read is to return for its command. -/
def resultOf (ok : Bool) : Int := if ok then 0 else 1

theorem resultOf_eq_one (ok : Bool) : resultOf ok = 1 ↔ ok = false := by cases ok <;> decide

theorem resultOf_eq_zero (ok : Bool) : resultOf ok = 0 ↔ ok = true := by cases ok <;> decide

/-- A call that talks to the drive. -/
inductive DriveCall
  | getError
  | findDisk (fuel : Nat)
  | identify (disk : Region)
  | read (dst : Region) (len : UInt32) (offset : UInt64)

/-- What the class of a disc says about the probe. -/
def probeResult (diskType : Int) : List Int :=
  if diskType = isWiiDualDisk then [0] else if diskType = isWiiSingleDisk then [1] else []

variable (e : Env)

/-- The call, with what its read returned, if it made one. -/
def DriveCall.run : DriveCall → Prog (List Int)
  | .getError => do
    let _ ← dvdGetError e
    pure []
  | .findDisk fuel => do
    let _ ← initializeDisk e fuel
    pure []
  | .identify disk => do
    let diskType ← identifyDisk e (some disk)
    pure (probeResult diskType)
  | .read dst len offset => do
    let ret ← dvdLowRead64 e dst len offset
    pure [ret]

/-- The calls, one after the other. -/
def session : List DriveCall → Prog (List Int)
  | [] => pure []
  | c :: cs => do
    let rets ← c.run e
    let rets' ← session cs
    pure (rets ++ rets')

/-! ## One call -/

@[simp] theorem outcomes_append (a b : List Event) : outcomes (a ++ b) = outcomes a ++ outcomes b :=
  List.filterMap_append

/-- The results that are not rejections are those of the commands in the trace. -/
def Reported (w : World) (rets : List Int) (w' : World) : Prop :=
  ∃ evs, w'.trace = w.trace ++ evs ∧ rets.filter (· ≠ -1) = (outcomes evs).map resultOf

theorem Reported.append {w w₁ w₂ : World} {rets rets' : List Int} (h : Reported w rets w₁) (h' : Reported w₁ rets' w₂) :
    Reported w (rets ++ rets') w₂ := by
  obtain ⟨evs, htrace, hrets⟩ := h
  obtain ⟨evs', htrace', hrets'⟩ := h'
  refine ⟨evs ++ evs', ?_, ?_⟩
  · rw [htrace', htrace, List.append_assoc]
  · rw [List.filter_append, hrets, hrets', outcomes_append, List.map_append]

/-- A call that starts no read command. -/
theorem Drives.reported {w w' : World} (h : Drives Event.finding w w') : Reported w [] w' := by
  obtain ⟨evs, htrace, hev⟩ := h.trace
  refine ⟨evs, htrace, ?_⟩
  have hnone : outcomes evs = [] := List.filterMap_eq_nil_iff.2 fun ev hmem => by
    have := hev ev hmem
    cases ev <;> first | rfl | exact absurd this (by simp [Event.finding])
  rw [hnone]
  rfl

/-- The read of an accepted offset returns how its command ended. -/
theorem run_read_accepted {dst : Region} {len : UInt32} {offset : UInt64} (h : offset.toNat < 2 ^ 34) (w : World) :
    (dvdLowRead64 e dst len offset).run w = .ok (resultOf (readAttempt e dst len offset w).isOk)
      (readAccepted e dst len offset w) := by
  have hacc := (accepts_iff offset).2 h
  rw [run_dvdLowRead64, readResult, readOnce, if_pos hacc, if_pos hacc]
  rfl

/-- After a command the flag says how it ended. -/
theorem errorFlag_readAccepted (dst : Region) (len : UInt32) (offset : UInt64) (w : World) :
    errorFlag ((readAccepted e dst len offset w).dvd 0) = !(readAttempt e dst len offset w).isOk := by
  have hclear : errorFlag (readRegs e dst len offset w 0) = false := by
    simp [errorFlag, readRegs, status_cleared]
  unfold readAccepted
  dsimp only
  cases (readAttempt e dst len offset w).isOk with
  | true => exact hclear
  | false => simp [errorFlag, status_raised]

theorem reported_read (dst : Region) (len : UInt32) (offset : UInt64) (w : World) :
    Reported w [readResult e dst len offset w] (readOnce e dst len offset w) := by
  by_cases h : accepts offset
  · rw [readResult, readOnce, if_pos h, if_pos h]
    refine ⟨_, rfl, ?_⟩
    cases (readAttempt e dst len offset w).isOk <;> rfl
  · rw [readResult, readOnce, if_neg h, if_neg h]
    exact ⟨[], by simp, rfl⟩

theorem ends_identify_reported (d : Region) (w : World) : Imp.Ends (identifyDisk e (some d)) w
    (fun diskType w' => Reported w (probeResult diskType) w') (fun _ _ => False) := by
  have hsame : ∀ {diskType : Int}, probeResult diskType = [] → Reported w (probeResult diskType) w :=
    fun h => ⟨[], by simp, by rw [h]; rfl⟩
  by_cases hwii : magicWord (w.mem d) = wiiMagic
  · rw [Imp.ends_of_ok (run_identifyDisk_wii hwii)]
    have h := reported_read e .buf2 2048 0x16A00000 w
    rw [readResult, if_pos (by decide), readAttempt, range_readRequest_probe] at h
    cases hok : (e.attempt probeRange (w.tried probeRange)).isOk with
    | true => rw [hok] at h; exact h
    | false => rw [hok] at h; exact h
  · unfold identifyDisk
    rw [Imp.ends_bind, Imp.ends_get, Imp.ends_bind, Imp.ends_of_ok (run_deref d w)]
    exact Imp.ends_ite.2 ⟨fun _ => hsame rfl, fun _ => Imp.ends_ite.2 ⟨fun h => absurd h hwii, fun _ => hsame rfl⟩⟩

theorem DriveCall.reported (c : DriveCall) (w : World) :
    Imp.Ends (c.run e) w (fun rets w' => Reported w rets w') (fun _ _ => True) := by
  cases c with
  | getError =>
    unfold DriveCall.run
    rw [Imp.ends_bind]
    refine (ends_dvdGetError w).mono ?_ (fun _ _ => False.elim)
    rintro _ w' ⟨-, regs, r, -, rfl⟩
    exact ⟨[.request r], rfl, rfl⟩
  | findDisk fuel =>
    unfold DriveCall.run
    rw [Imp.ends_bind]
    exact (driveOnly_initializeDisk e fuel w).mono (fun _ _ h => h.reported) (fun _ _ _ => trivial)
  | identify disk =>
    unfold DriveCall.run
    rw [Imp.ends_bind]
    exact (ends_identify_reported e disk w).mono (fun _ _ h => h) (fun _ _ => False.elim)
  | read dst len offset =>
    unfold DriveCall.run
    rw [Imp.ends_bind, Imp.ends_of_ok (run_dvdLowRead64 e dst len offset w)]
    exact reported_read e dst len offset w

/-! ## Histories -/

/-- The results of a session are the outcomes of its commands. -/
theorem session_results (calls : List DriveCall) (w : World) :
    Imp.Ends (session e calls) w (fun rets w' => Reported w rets w') (fun _ _ => True) := by
  induction calls generalizing w with
  | nil => exact ⟨[], by simp, rfl⟩
  | cons c cs ih =>
    unfold session
    rw [Imp.ends_bind]
    refine (c.reported e w).mono (fun rets w₁ h₁ => ?_) (fun _ _ h => h)
    rw [Imp.ends_bind]
    exact (ih w₁).mono (fun rets' w₂ h₂ => h₁.append h₂) (fun _ _ h => h)

/-- **A result is that of its own command.** After any history of calls to the drive, the read of an accepted offset
starts one command and returns 1 iff the drive raised the error flag in it, else 0; and the results of the reads of the
history, rejected offsets aside, were the outcomes of their commands in order. -/
theorem read_result_own {calls : List DriveCall} {w w₁ : World} {rets : List Int}
    (hsession : (session e calls).run w = .ok rets w₁) :
    rets.filter (· ≠ -1) = (outcomes (w₁.trace.drop w.trace.length)).map resultOf ∧
      ∀ (dst : Region) (len : UInt32) (offset : UInt64), offset.toNat < 2 ^ 34 →
        let q := readRequest e dst len offset w₁.readCmd
        let ok := (e.attempt q.range (w₁.tried q.range)).isOk
        ∃ r w₂, (dvdLowRead64 e dst len offset).run w₁ = .ok r w₂ ∧
          w₂.trace = w₁.trace ++ [.request q, .dcInvalidate dst len.toNat, .finished ok] ∧
          errorFlag (w₂.dvd 0) = !ok ∧ (r = 1 ↔ ok = false) ∧ (r = 0 ↔ ok = true) := by
  obtain ⟨evs, htrace, hrets⟩ := (session_results e calls w).ok hsession
  refine ⟨by rw [htrace, List.drop_left, hrets], ?_⟩
  intro dst len offset h q ok
  refine ⟨_, _, run_read_accepted e h w₁, rfl, ?_⟩
  exact ⟨errorFlag_readAccepted e dst len offset w₁, resultOf_eq_one ok, resultOf_eq_zero ok⟩

/-- A single-layer disc: the failed probe does not spoil the next read. -/
theorem read_result_own_probe :
    let e := (Env.calm bareWiiHeader).withDisc fun r => r ≠ probeRange
    ∃ w₁ w₂, (session e [.identify .localId]).run wiiWorld = .ok [1] w₁ ∧
      (dvdLowRead64 e .buffer 2048 0).run w₁ = .ok 0 w₂ := by
  intro e
  have hprobe : (identifyDisk e (some .localId)).run wiiWorld =
      .ok isWiiSingleDisk (readOnce e .buf2 2048 0x16A00000 wiiWorld) := by
    rw [run_identifyDisk_wii (by decide)]
    rfl
  have hcall : ((DriveCall.identify .localId).run e).run wiiWorld =
      .ok [1] (readOnce e .buf2 2048 0x16A00000 wiiWorld) := Imp.run_bind_ok hprobe
  have hsession : (session e [.identify .localId]).run wiiWorld =
      .ok [1] (readOnce e .buf2 2048 0x16A00000 wiiWorld) := Imp.run_bind_ok hcall
  obtain ⟨r, w₂, hread, -, -, -, hzero⟩ := (read_result_own e hsession).2 .buffer 2048 0 (by decide)
  obtain rfl : r = 0 := hzero.2 rfl
  exact ⟨_, w₂, hsession, hread⟩

end TakeADump
