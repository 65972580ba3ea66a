import TakeADump.Session.Choice
import TakeADump.Drive.Identity

/-!
# `main` is a session: drive and disc

The mount (`ends_insertDrive`), the search for the disc (`ends_insertDisk`) and the probe (`ends_identify`) move the
session on or end it. A disc that `initialize_disk` returned 0 for has a known magic word (`Looked.known`), so it is
identified; `ends_setUp` leads from the start of the program to the call of `dump`.
-/

namespace TakeADump

/-- A disc that was found has a known magic word. -/
theorem Looked.known {e : Env} {w w' : World} {n : Nat} (h : Looked e w n 0 w') :
    magicWord (w'.mem .localId) = wiiMagic ∨ magicWord (w'.mem .localId) = ngcMagic := by
  obtain ⟨-, header, hdata, hmagic⟩ := h.last.2.2.1 rfl
  have hholds : Holds (w'.mem .localId) header := by
    have := h.holds rfl
    rwa [IoctlReply.delivered, hdata] at this
  rwa [← hholds.magicWord] at hmagic

namespace Session

variable {e : Env} {fuel : Nat} {q : Phase} {stop : Bool} {w w' : World}

/-! ## The drive -/

/-- The mount of the drive that was chosen, with its exceptions. -/
theorem ends_mount {iface : Interface} (h : In (.mounting stop iface) stop w) :
    Imp.Ends (do
        let ret ← (do mountRetOf e fuel (← fatMountSimple e iface) : Prog Int)
        if ret = 0 then Logger.error e fuel ret "Unable to mount drive." [] : Prog Unit) w
      (fun _ w' => In (.mounted stop) stop w') Over := by
  unfold fatMountSimple emit mountRetOf
  simp only [Imp.ends_bind, Imp.ends_modify, Imp.ends_pure]
  have h' : In (afterMount stop (e.mount iface)) stop (w.log (.fatMount iface (e.mount iface))) := h.log (if_pos rfl)
  cases hres : e.mount iface with
  | returned ok =>
    rw [hres] at h'
    cases ok with
    | true => exact h'
    | false => exact ends_error e fuel h'.read
  | exception what =>
    rw [hres] at h'
    rw [Imp.ends_bind]
    exact ends_error e fuel h'.read
  | unknownException =>
    rw [hres] at h'
    rw [Imp.ends_bind]
    exact ends_error e fuel h'.read

theorem ends_mountDrive (h : In (.mounting stop (interfaceOf w.driveType)) stop w) (hfs : w.driveFs = fsFat32)
    (hdrive : w.driveType = driveUsb ∨ w.driveType = driveSd) :
    Imp.Ends (mountDrive e fuel) w (fun _ w' => In (.mounted stop) stop w') Over := by
  unfold mountDrive mountFat32 tryMount
  rw [Imp.ends_bind, Imp.ends_get, if_pos hfs, bind_assoc, Imp.ends_bind, Imp.ends_get]
  rcases hdrive with husb | hsd
  · rw [if_neg (by rw [husb]; decide), if_pos husb]
    rw [husb] at h
    exact ends_mount h
  · rw [if_pos hsd]
    rw [hsd] at h
    exact ends_mount h

/-- **The mount.** -/
theorem ends_insertDrive (h : In (.mounting stop (interfaceOf w.driveType)) stop w) (hfs : w.driveFs = fsFat32)
    (hdrive : w.driveType = driveUsb ∨ w.driveType = driveSd) :
    Imp.Ends (insertDrive e fuel) w (fun _ w' => In (.finding stop) stop w') Over := by
  unfold insertDrive Logger.print
  rw [Imp.ends_bind, Imp.ends_get]
  refine h.next rfl (staysIn_emit rfl) fun _ w₁ h₁ hs₁ => ?_
  refine h₁.next rfl (staysIn_confirm e fuel fun _ => rfl) fun _ w₂ h₂ hs₂ => ?_
  have hset : settings w₂ = settings w := hs₂.trans hs₁
  simp only [settings, Prod.mk.injEq] at hset
  obtain ⟨-, htype, hfs', -, -⟩ := hset
  rw [Imp.ends_bind]
  rw [← htype] at h₂ hdrive
  refine (ends_mountDrive h₂ (hfs'.trans hfs) hdrive).mono (fun _ w₃ h₃ => ?_) fun _ _ => id
  exact h₃.log rfl

/-! ## The disc -/

theorem Drives.stays {p : Event → Bool} (h : Drives p w w') (hp : ∀ ev, p ev = true → q.step ev = some q) :
    Stays q w w' := by
  obtain ⟨evs, htrace, hev⟩ := h.trace
  exact ⟨h.keeps settings fun _ => rfl, evs, htrace, fun ev hmem => hp ev (hev ev hmem)⟩

/-- The search for the disc. -/
theorem stays_finding (h : Drives Event.finding w w') : Stays (.finding stop) w w' := by
  refine Drives.stays h fun ev hev => ?_
  cases ev with
  | ioctl => rfl
  | request r =>
    have hr : r.finding = true := hev
    exact if_pos hr
  | print fmt args =>
    have hfmt : fmt = "Initializing DVD..." := by simpa [Event.finding] using hev
    rw [hfmt]
    rfl
  | _ => cases hev

/-- A probe. -/
theorem stays_probing (h : Drives Event.reading w w') : Stays (.probing stop) w w' := by
  refine Drives.stays h fun ev hev => ?_
  cases ev <;> first | rfl | cases hev

/-- The disc was found. -/
structure Found (stop : Bool) (w : World) : Prop extends In (.probing stop) stop w where
  disk : w.globalDiskId = some .localId
  known : magicWord (w.mem .localId) = wiiMagic ∨ magicWord (w.mem .localId) = ngcMagic

/-- **The search for the disc.** -/
theorem ends_insertDisk (h : In (.finding stop) stop w) :
    Imp.Ends (insertDisk e fuel) w (fun _ w' => Found stop w') Over := by
  unfold insertDisk Logger.print enter emit
  refine h.next rfl (staysIn_emit rfl) fun _ w₁ h₁ _ => ?_
  refine h₁.next rfl (staysIn_confirm e fuel fun _ => rfl) fun _ w₂ h₂ _ => ?_
  rw [Imp.ends_bind]
  refine (driveOnly_initializeDisk e fuel w₂).run.mono ?_ ?_
  · rintro ret w₃ ⟨hrun, hdrives⟩
    have h₃ : In (afterInitialize stop ret) stop (w₃.log (.stage (.initialized ret))) :=
      (h₂.stays (stays_finding hdrives)).log rfl
    rw [Imp.ends_bind, Imp.ends_modify]
    unfold afterInitialize at h₃
    by_cases hret : ret = 0
    · subst hret
      rw [if_pos rfl] at h₃
      rw [if_neg (not_not.2 rfl)]
      obtain ⟨n, hlooked⟩ := diskId_of_return hrun
      exact ⟨h₃, hlooked.disk, hlooked.known⟩
    · rw [if_neg hret] at h₃
      rw [if_pos hret]
      exact ends_error e fuel h₃.read
  · rintro st w₃ ⟨rfl, hdrives⟩
    exact over_of_waits h₂.read rfl (stays_finding hdrives)

/-- Ready for the copy. -/
structure Set (stop : Bool) (args : DumpArgs) (w : World) : Prop
    extends In (.confirming stop args.diskType) stop w where
  disk : args.disk = some .localId
  size : args.size = getDiskSizeBytes args.diskType
  known : IsDiskType args.diskType ∧ args.diskType ≠ isUnkDisk

theorem Set.stays {args : DumpArgs} (h : Set stop args w) (hs : Stays (.confirming stop args.diskType) w w') :
    Set stop args w' := ⟨h.toIn.stays hs, h.disk, h.size, h.known⟩

/-- **The probe** and the last prompt. -/
theorem ends_identify (h : Found stop w) : Imp.Ends (identify e fuel) w (fun args w' => Set stop args w') Over := by
  unfold identify getDiskId enter Logger.print
  rw [Imp.ends_bind, Imp.ends_bind, Imp.ends_get, Imp.ends_pure, h.disk, Imp.ends_bind]
  have hdrives := ends_identifyDisk_drives e .localId w
  have hknown := ends_identifyDisk_known (e := e) .localId w h.known
  have htype := ends_identifyDisk e .localId w
  cases hrun : (identifyDisk e (some .localId)).run w with
  | error st w' => exact (hknown.error hrun).elim
  | ok diskType w₁ =>
    rw [Imp.ends_of_ok hrun]
    obtain ⟨hne, hsize⟩ := hknown.ok hrun
    have hstays : Stays (.probing stop) w w₁ := stays_probing (hdrives.ok hrun)
    have h₁ : In (.confirming stop diskType) stop (w₁.log (.stage (.identified diskType))) :=
      (h.toIn.stays hstays).log (if_neg hsize)
    rw [ends_emit_bind, if_neg hne]
    refine h₁.next rfl (staysIn_emit rfl) fun _ w₂ h₂ _ => ?_
    refine h₂.next rfl (staysIn_emit rfl) fun _ w₃ h₃ _ => ?_
    refine h₃.next rfl (staysIn_confirm e fuel fun _ => rfl) fun _ w₄ h₄ _ => ?_
    exact ⟨h₄, rfl, rfl, (htype.ok hrun).1, hne⟩

/-- **Up to the copy.** -/
theorem ends_setUp (hw : w.Initial) :
    Imp.Ends (setUp e fuel) w (fun args w' => ∃ stop, Set stop args w') Over := by
  unfold setUp
  rw [Imp.ends_bind]
  refine (ends_welcome hw).mono (fun _ w₁ h₁ => ?_) fun _ _ => id
  rw [Imp.ends_bind]
  refine (ends_menuLoop h₁).mono ?_ fun _ _ => id
  rintro _ w₂ ⟨stop, h₂, hfs, hdrive⟩
  rw [Imp.ends_bind]
  refine (ends_insertDrive h₂ hfs hdrive).mono (fun _ w₃ h₃ => ?_) fun _ _ => id
  rw [Imp.ends_bind]
  refine (ends_insertDisk h₃).mono (fun _ w₄ h₄ => ?_) fun _ _ => id
  exact (ends_identify h₄).mono (fun args w₅ h₅ => ⟨stop, h₅⟩) fun _ _ => id

end Session

end TakeADump
