import TakeADump.Lib.Fuel
import TakeADump.Model.Main

/-!
# Budgets of rounds

The waits of the program are followed for `fuel` rounds. What a run does that is not cut off there does not depend on
`fuel`: each function that waits, or calls one that does, is steady, up to `main` (`steady_main`).
-/

namespace TakeADump

/-- A run of `p` that is not still waiting does not depend on the rounds it was followed for. -/
abbrev Steady {α : Type} (p : Nat → Prog α) : Prop := Imp.Steady Stop.spin p

variable (e : Env)

theorem steady_wait (p : UInt32 → Bool) : Steady fun fuel => Imp.loop Stop.spin (Global.waitRound e p) fuel () :=
  Imp.steady_loop (fun _ => Imp.steady_const _) ()

theorem steady_waitForA : Steady (Global.waitForA e) := steady_wait e _

theorem steady_waitForButtonRelease : Steady (Global.waitForButtonRelease e) := steady_wait e _

theorem steady_confirm : Steady (confirm e) :=
  Imp.steady_bind (steady_waitForA e) fun _ => steady_waitForButtonRelease e

theorem steady_resetAfterPause : Steady (Global.resetAfterPause e) := by
  refine Imp.steady_bind (Imp.steady_const _) fun _ => ?_
  refine Imp.steady_bind (steady_waitForButtonRelease e) fun _ => ?_
  refine Imp.steady_bind (steady_waitForA e) fun _ => ?_
  exact Imp.steady_bind (steady_waitForButtonRelease e) fun _ => Imp.steady_const _

theorem steady_error (code : Int) (fmt : String) (args : List Arg) :
    Steady fun fuel => Logger.error e fuel code fmt args :=
  Imp.steady_bind (Imp.steady_const _) fun _ => steady_resetAfterPause e

/-! ## Before the copy -/

theorem steady_welcome : Steady (welcome e) := by
  iterate 6 refine Imp.steady_bind (Imp.steady_const _) fun _ => ?_
  exact Imp.steady_bind (steady_confirm e) fun _ => Imp.steady_const _

theorem steady_menuRound (u : Unit) : Steady fun fuel => menuRound e fuel u := by
  refine Imp.steady_bind (Imp.steady_const _) fun buttons => Imp.steady_bind (Imp.steady_const _) fun left => ?_
  refine Imp.steady_ite (fun _ => Imp.steady_const _) fun _ => Imp.steady_ite (fun _ => ?_) fun _ => Imp.steady_const _
  exact Imp.steady_bind (steady_waitForButtonRelease e) fun _ => Imp.steady_const _

theorem steady_menuLoop : Steady (menuLoop e) :=
  Imp.steady_bind (Imp.steady_loop (steady_menuRound e) ()) fun _ => Imp.steady_const _

theorem steady_mountRetOf (res : MountResult) : Steady fun fuel => mountRetOf e fuel res := by
  cases res with
  | returned ok => exact Imp.steady_const _
  | exception what => exact Imp.steady_bind (steady_error e _ _ _) fun _ => Imp.steady_const _
  | unknownException => exact Imp.steady_bind (steady_error e _ _ _) fun _ => Imp.steady_const _

theorem steady_tryMount : Steady (tryMount e) := by
  refine Imp.steady_bind (Imp.steady_const _) fun w => Imp.steady_ite (fun _ => ?_) fun _ =>
    Imp.steady_ite (fun _ => ?_) fun _ => ?_
  · exact Imp.steady_bind (Imp.steady_const _) fun res => steady_mountRetOf e res
  · exact Imp.steady_bind (Imp.steady_const _) fun res => steady_mountRetOf e res
  · exact Imp.steady_bind (steady_error e _ _ _) fun _ => Imp.steady_const _

theorem steady_mountDrive : Steady (mountDrive e) := by
  refine Imp.steady_bind (Imp.steady_const _) fun w => Imp.steady_ite (fun _ => ?_) fun _ =>
    Imp.steady_ite (fun _ => steady_error e _ _ _) fun _ => steady_error e _ _ _
  refine Imp.steady_bind (steady_tryMount e) fun mountRet => ?_
  exact Imp.steady_ite (fun _ => steady_error e _ _ _) fun _ => Imp.steady_const _

theorem steady_insertDrive : Steady (insertDrive e) := by
  refine Imp.steady_bind (Imp.steady_const _) fun w => Imp.steady_bind (Imp.steady_const _) fun _ => ?_
  refine Imp.steady_bind (steady_confirm e) fun _ => ?_
  exact Imp.steady_bind (steady_mountDrive e) fun _ => Imp.steady_const _

theorem steady_pollAndReadId : Steady (pollAndReadId e) :=
  Imp.steady_bind (Imp.steady_loop (fun idRet => Imp.steady_const (pollRound e idRet)) (-1)) fun _ => Imp.steady_const _

theorem steady_initializeDisk : Steady (initializeDisk e) := by
  refine Imp.steady_bind (Imp.steady_const _) fun _ => Imp.steady_bind (Imp.steady_const _) fun error => ?_
  refine Imp.steady_ite (fun _ => Imp.steady_const _) fun _ => Imp.steady_bind (Imp.steady_const _) fun hard => ?_
  refine Imp.steady_ite (fun _ => ?_) fun _ => ?_
  · refine Imp.steady_bind (Imp.steady_const _) fun _ => Imp.steady_bind (Imp.steady_const _) fun error => ?_
    exact Imp.steady_bind (Imp.steady_const _) fun _ => steady_pollAndReadId e
  · refine Imp.steady_bind (Imp.steady_const _) fun error => ?_
    exact Imp.steady_bind (Imp.steady_const _) fun _ => steady_pollAndReadId e

theorem steady_insertDisk : Steady (insertDisk e) := by
  refine Imp.steady_bind (Imp.steady_const _) fun _ => Imp.steady_bind (steady_confirm e) fun _ => ?_
  refine Imp.steady_bind (steady_initializeDisk e) fun initRet => Imp.steady_bind (Imp.steady_const _) fun _ => ?_
  exact Imp.steady_ite (fun _ => steady_error e _ _ _) fun _ => Imp.steady_const _

theorem steady_identify : Steady (identify e) := by
  refine Imp.steady_bind (Imp.steady_const _) fun disk => Imp.steady_bind (Imp.steady_const _) fun type => ?_
  have hprompt : Steady fun fuel => (do
      Logger.print "Press A to start dumping." []
      Logger.print "Press Home or Reset to exit." []
      confirm e fuel
      pure ⟨disk, type, getDiskSizeBytes type⟩ : Prog DumpArgs) := by
    refine Imp.steady_bind (Imp.steady_const _) fun _ => Imp.steady_bind (Imp.steady_const _) fun _ => ?_
    exact Imp.steady_bind (steady_confirm e) fun _ => Imp.steady_const _
  refine Imp.steady_bind (Imp.steady_const _) fun _ => Imp.steady_ite (fun _ => ?_) fun _ => hprompt
  exact Imp.steady_bind (steady_error e _ _ _) fun _ => hprompt

theorem steady_setUp : Steady (setUp e) := by
  refine Imp.steady_bind (steady_welcome e) fun _ => Imp.steady_bind (steady_menuLoop e) fun _ => ?_
  refine Imp.steady_bind (steady_insertDrive e) fun _ => Imp.steady_bind (steady_insertDisk e) fun _ => ?_
  exact steady_identify e

/-! ## The copy -/

theorem steady_settle (ret : Int) (readSize : UInt32) : Steady fun fuel => settle e fuel ret readSize := by
  refine Imp.steady_ite (fun _ => ?_) fun _ => Imp.steady_const _
  iterate 4 refine Imp.steady_bind (Imp.steady_const _) fun _ => ?_
  exact Imp.steady_ite (fun _ => steady_error e _ _ _) fun _ => Imp.steady_const _

theorem steady_copySector (diskSize : UInt64) : Steady fun fuel => copySector e fuel diskSize := by
  refine Imp.steady_bind (Imp.steady_const _) fun w => Imp.steady_bind (Imp.steady_const _) fun ret => ?_
  exact Imp.steady_bind (steady_settle e _ _) fun _ => Imp.steady_const _

theorem steady_dumpRound (diskId : Option Region) (diskSize : UInt64) (u : Unit) :
    Steady fun fuel => dumpRound e fuel diskId diskSize u := by
  refine Imp.steady_bind (Imp.steady_const _) fun w => Imp.steady_ite (fun _ => ?_) fun _ => Imp.steady_const _
  refine Imp.steady_bind (Imp.steady_const _) fun _ => Imp.steady_bind (Imp.steady_const _) fun opened => ?_
  exact Imp.steady_ite (fun _ => steady_copySector e diskSize) fun _ => Imp.steady_const _

theorem steady_dump (diskId : Option Region) (diskType : Int) (diskSize : UInt64) :
    Steady fun fuel => dump e fuel diskId diskType diskSize := by
  refine Imp.steady_bind (Imp.steady_const _) fun allocated => Imp.steady_ite (fun _ => ?_) fun _ => Imp.steady_const _
  iterate 3 refine Imp.steady_bind (Imp.steady_const _) fun _ => ?_
  exact Imp.steady_loop_const (steady_dumpRound e diskId diskSize) _ ()

theorem steady_dumpAndLeave (args : DumpArgs) : Steady fun fuel => dumpAndLeave e fuel args := by
  refine Imp.steady_bind (Imp.steady_const _) fun _ => Imp.steady_bind (steady_dump e _ _ _) fun dumpRet => ?_
  refine Imp.steady_bind (Imp.steady_const _) fun _ => ?_
  exact Imp.steady_ite (fun _ => steady_error e _ _ _) fun _ => steady_resetAfterPause e

/-- **`main` is steady.** -/
theorem steady_main : Steady (main e) := Imp.steady_bind (steady_setUp e) fun args => steady_dumpAndLeave e args

end TakeADump
