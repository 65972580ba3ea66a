import TakeADump.Drive.Identity

/-!
# Whether polling ends

The polling loop of `initialize_disk` has no bound: it is left only when an ID read returns 0, so for a disc without a
valid header, and for a device that never opens, `initialize_disk` does not come back and no error of `main` is
reached (`init_ends_iff`).
-/

namespace TakeADump

/-! ## Polling as a machine -/

namespace IdState

variable {e : Env} {s : IdState}

/-- With the device open every poll takes the next reply. -/
theorem iterate_of_open (h : 0 ≤ s.fd) (n : Nat) : (next e)^[n] s = ⟨s.fd, s.opens, s.ioctls + n⟩ := by
  induction n with
  | zero => rfl
  | succ n ih =>
    rw [Function.iterate_succ_apply', ih, (code_of_open (s := ⟨s.fd, s.opens, s.ioctls + n⟩) h).2, Nat.add_assoc]

/-- A valid reply is found with the device open. -/
theorem found_of_open (h : 0 ≤ s.fd) {m : Nat} (hm : (e.ioctl (s.ioctls + m)).Valid) :
    ((next e)^[m] s).code e = 0 := by
  rw [iterate_of_open h, (code_of_open (s := ⟨s.fd, s.opens, s.ioctls + m⟩) h).1]
  exact (IoctlReply.code_eq_zero _).2 hm

/-- A valid reply is found with a device that opens now. -/
theorem found_of_opens_now (hopen : 0 ≤ e.iosOpen s.opens) {m : Nat} (hm : (e.ioctl (s.ioctls + m)).Valid) :
    ∃ n, ((next e)^[n] s).code e = 0 := by
  by_cases hfd : 0 ≤ s.fd
  · exact ⟨m, found_of_open hfd hm⟩
  · have hnext : next e s = ⟨e.iosOpen s.opens, s.opens + 1, s.ioctls + 1⟩ := by
      rw [next, if_pos (Int.not_le.1 hfd), if_neg (Int.not_lt.2 hopen)]
    cases m with
    | zero =>
      refine ⟨0, ?_⟩
      show s.code e = 0
      rw [code, if_neg fun hshut => Int.not_lt.2 hopen hshut.2]
      exact (IoctlReply.code_eq_zero _).2 hm
    | succ m =>
      refine ⟨m + 1, ?_⟩
      rw [Function.iterate_succ_apply, hnext]
      refine found_of_open hopen ?_
      rwa [show s.ioctls + 1 + m = s.ioctls + (m + 1) by omega]

/-- The device opens at last, and a valid reply is found. -/
theorem found_of_opens {k : Nat} (hk : 0 ≤ e.iosOpen (s.opens + k)) {m : Nat}
    (hm : (e.ioctl (s.ioctls + m)).Valid) : ∃ n, ((next e)^[n] s).code e = 0 := by
  induction k generalizing s with
  | zero => exact found_of_opens_now hk hm
  | succ k ih =>
    by_cases hopen : 0 ≤ e.iosOpen s.opens
    · exact found_of_opens_now hopen hm
    · by_cases hfd : 0 ≤ s.fd
      · exact ⟨m, found_of_open hfd hm⟩
      · -- one more failure to open: no reply is used up
        have hnext : next e s = ⟨e.iosOpen s.opens, s.opens + 1, s.ioctls⟩ := by
          rw [next, if_pos (Int.not_le.1 hfd), if_pos (Int.not_le.1 hopen)]
        obtain ⟨n, hn⟩ := ih (s := next e s) (by rw [hnext]; rwa [show s.opens + 1 + k = s.opens + (k + 1) by omega])
          (by rw [hnext]; exact hm)
        exact ⟨n + 1, hn⟩

/-- What polling has found when it ends. -/
theorem opens_of_found {n : Nat} (h : ((next e)^[n] s).code e = 0) :
    (0 ≤ s.fd ∨ ∃ k, 0 ≤ e.iosOpen (s.opens + k)) ∧ ∃ m, (e.ioctl (s.ioctls + m)).Valid := by
  induction n generalizing s with
  | zero =>
    refine ⟨?_, 0, (of_code (s := s) h).1⟩
    have hfd := (of_code (s := s) h).2.1
    unfold next at hfd
    split at hfd
    · exact Or.inr ⟨0, hfd⟩
    · exact Or.inl hfd
  | succ n ih =>
    obtain ⟨hopen, m, hm⟩ := ih (s := next e s) h
    by_cases hfd : 0 ≤ s.fd
    · refine ⟨Or.inl hfd, m + 1, ?_⟩
      rwa [(code_of_open hfd).2, show s.ioctls + 1 + m = s.ioctls + (m + 1) by omega] at hm
    · unfold next at hopen hm
      rw [if_pos (Int.not_le.1 hfd)] at hopen hm
      refine ⟨Or.inr ?_, ?_⟩
      · rcases hopen with hnow | ⟨k, hk⟩
        · exact ⟨0, hnow⟩
        · exact ⟨k + 1, by rwa [show s.opens + (k + 1) = s.opens + 1 + k by omega]⟩
      · dsimp only at hm
        split at hm
        · exact ⟨m, hm⟩
        · exact ⟨m + 1, by rwa [show s.ioctls + (m + 1) = s.ioctls + 1 + m by omega]⟩

/-- **Polling ends** iff the device is open or opens some day and some reply is valid. -/
theorem found_iff (e : Env) (s : IdState) : (∃ n, ((next e)^[n] s).code e = 0) ↔
    (0 ≤ s.fd ∨ ∃ k, 0 ≤ e.iosOpen (s.opens + k)) ∧ ∃ m, (e.ioctl (s.ioctls + m)).Valid := by
  constructor
  · rintro ⟨n, hn⟩
    exact opens_of_found hn
  · rintro ⟨hfd | ⟨k, hk⟩, m, hm⟩
    · exact ⟨m, found_of_open hfd hm⟩
    · exact found_of_opens hk hm

end IdState

/-! ## `initialize_disk` -/

/-- The drive reports that there is no disc. -/
def ReportsNoDisk (e : Env) (w : World) : Prop := (e.errorCode w.queries).code >>> 24 = 1

/-- The device is open or opens some day, and some ID command from then on delivers a valid header. -/
def SomeDayValid (e : Env) (w : World) : Prop :=
  (0 ≤ w.diFd ∨ ∃ k, 0 ≤ e.iosOpen (w.opens + k)) ∧ ∃ m, (e.ioctl (w.ioctls + m)).Valid

/-- `initialize_disk` comes back when it is given enough rounds, and not with 0 if no reply is valid. -/
def InitEnds (e : Env) (w : World) : Prop :=
  ∃ N, ∀ fuel ≥ N, Imp.Ends (initializeDisk e fuel) w
    (fun r _ => (∀ m, ¬ (e.ioctl (w.ioctls + m)).Valid) → r ≠ 0) (fun _ _ => False)

/-- Enough rounds for the poll that finds the header. -/
theorem ends_pollAndReadId_of_found {e : Env} {w : World} {n : Nat} (h : ((IdState.next e)^[n] w.idState).code e = 0)
    (hbefore : ∀ k < n, ((IdState.next e)^[k] w.idState).code e ≠ 0) (m : Nat) :
    Imp.Ends (pollAndReadId e (n + (m + 2))) w (fun _ _ => True) (fun _ _ => False) := by
  simp only [← idState_iterate] at h hbefore
  unfold pollAndReadId
  rw [Imp.ends_bind, Imp.ends_of_ok (polls_pollRound.run_found h hbefore m (by omega)), Imp.ends_bind]
  have hread := run_readDvdId (e := e) ((World.idNext e)^[n + 1] w)
  split at hread
  · rw [Imp.ends_of_ok hread]
    trivial
  · rw [Imp.ends_of_ok hread]
    trivial

/-- **Whether disc initialisation ends.** `initialize_disk` comes back, and with an error when no reply is valid, iff
the drive reports that there is no disc, or polling meets a valid header some day. -/
theorem init_ends_iff (e : Env) (w : World) : InitEnds e w ↔ ReportsNoDisk e w ∨ SomeDayValid e w := by
  constructor
  · rintro ⟨N, hN⟩
    by_cases hnone : ReportsNoDisk e w
    · exact Or.inl hnone
    · refine Or.inr ((IdState.found_iff e w.idState).1 ?_)
      have hends := hN N (Nat.le_refl N)
      cases hrun : (initializeDisk e N).run w with
      | error st w' => exact (hends.error hrun).elim
      | ok r w' =>
        rcases (ends_initializeDisk_looked N w).ok hrun with ⟨hcode, -⟩ | ⟨-, n, h⟩
        · exact absurd hcode hnone
        · exact ⟨n, h.found⟩
  · rintro (hnone | ⟨hopen, m, hm⟩)
    · refine ⟨0, fun fuel _ => ends_initializeDisk (fun _ regs n rs _ _ => by decide) fun hdisc => absurd hnone hdisc⟩
    · classical
      have hfound := (IdState.found_iff e w.idState).2 ⟨hopen, m, hm⟩
      refine ⟨Nat.find hfound + 2, fun fuel hfuel => ?_⟩
      obtain ⟨d, rfl⟩ : ∃ d, fuel = Nat.find hfound + (d + 2) := ⟨fuel - (Nat.find hfound + 2), by omega⟩
      refine ends_initializeDisk (fun _ _ _ _ _ hnever => absurd hm (hnever m)) fun _ regs k hard readCmd rs _ => ?_
      refine (ends_pollAndReadId_of_found (w := w.polled regs k hard readCmd rs) (Nat.find_spec hfound)
        (fun k hk => Nat.find_min hfound hk) d).mono ?_ (fun _ _ h => h)
      exact fun _ _ _ hnever => absurd hm (hnever m)

/-- A disc of no known kind: every ID command delivers zeros. -/
theorem init_never_ends : ∃ (e : Env) (w : World), w.Initial ∧ ¬ InitEnds e w := by
  refine ⟨Env.calm fun _ => 0, wiiWorld, initial_boot _ _, ?_⟩
  rintro ⟨N, hN⟩
  have hspin : Imp.Ends (initializeDisk (Env.calm fun _ => 0) N) wiiWorld (fun _ _ => False) (fun _ _ => True) :=
    ends_initializeDisk (fun hnone => absurd hnone (by decide)) fun _ regs n hard readCmd rs _ =>
      (ends_pollAndReadId_refused (calm_delivers fun _ => 0) (by decide) N _).mono (fun _ _ h => h)
        (fun _ _ _ => trivial)
  have hends := hN N (Nat.le_refl N)
  cases hrun : (initializeDisk (Env.calm fun _ => 0) N).run wiiWorld with
  | ok r w' => exact hspin.ok hrun
  | error st w' => exact hends.error hrun

end TakeADump
