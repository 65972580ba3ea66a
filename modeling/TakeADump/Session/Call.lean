import TakeADump.Session.Course
import TakeADump.Session.Order

/-!
# The call of `dump`

The trace of a run of `main` tells of the call of `dump`, with its arguments. `Ready.lean` follows the run up to there.
Behind the call nothing is set up any more (`not_setsUp_of_read`), so there is no second one, and `dump_when_ready` says
of every call a trace tells of what the run went through before it.
-/

namespace TakeADump

/-- What belongs to the preparation of a dump, its call included. -/
def Event.setsUp : Event → Bool
  | .fatMount _ _ | .ioctl => true
  | .stage (.dumped _) => false
  | .stage _ => true
  | _ => false

/-- A step that can fail, or the call of `dump`. -/
theorem Event.setsUp_of_fails {ev : Event} (h : ev.fails = true) : ev.setsUp = true := by
  cases ev with
  | fatMount _ _ => rfl
  | stage s => cases s <;> first | rfl | cases h
  | _ => cases h

namespace Session

variable {q q' : Phase} {ev : Event} {past evs before after : List Event} {disk : Option Region} {diskType : Int}
  {size : UInt64}

/-! ## After the call -/

/-- The dump was called. -/
def Called : Phase → Prop
  | .starting _ | .copying _ _ | .leaving | .quitting | .exiting | .exited => True
  | .returning due _ => ∀ ev ∈ due, Closing ev
  | .failing line => line.setsUp = false
  | _ => False

theorem Work.not_setsUp (h : Work ev) : ev.setsUp = false := by
  cases ev with
  | fatMount _ _ | ioctl | stage _ => exact h.elim
  | _ => rfl

theorem called_afterDump (ret : Int) : Called (afterDump ret) := by
  unfold afterDump
  split
  · trivial
  · rfl

/-- After the call nothing is set up. -/
theorem Called.step (hc : Called q) (h : Move q ev q') : Called q' ∧ ev.setsUp = false := by
  cases h with
  | ask hq hs =>
    refine ⟨hc, ?_⟩
    cases ev with
    | print _ _ | newline | sample _ => rfl
    | _ => exact hs.elim
  | refuse hdue _ => exact ⟨hdue, rfl⟩
  | copy hev _ _ _ _ => exact ⟨trivial, Work.not_setsUp hev⟩
  | stop hev hdue _ => exact ⟨hdue, Work.not_setsUp hev⟩
  | due => exact ⟨fun ev hev => hc ev (List.mem_cons_of_mem _ hev), Work.not_setsUp (hc _ List.mem_cons_self).work⟩
  | dumped => exact ⟨called_afterDump _, rfl⟩
  | fail => exact ⟨trivial, hc⟩
  | allocate | progress | cancel _ | quit _ | leave | quitted | exit => exact ⟨trivial, rfl⟩
  | choose _ | giveUp | select | mount _ | mounted | ioctl | seek _ | initialized _ | probe _ | identified _ | dump =>
    exact hc.elim

theorem called_of_dump (hb : Behind past q) (h : Move q (.stage (.dump disk diskType size)) q') : Called q' := by
  generalize hdump : Event.stage (.dump disk diskType size) = ev at h
  cases h with
  | dump | fail => trivial
  | due =>
    have hwork := (hb.2 _ List.mem_cons_self).work
    rw [← hdump] at hwork
    exact hwork.elim
  | choose hs | ask _ hs | probe hs | copy hs _ _ _ _ | stop hs _ _ =>
    rw [← hdump] at hs
    exact hs.elim
  | _ => cases hdump

/-- **Nothing is set up behind the call of `dump`.** -/
theorem not_setsUp_of_read (h : read (before ++ .stage (.dump disk diskType size) :: after) = some q) :
    ∀ ev ∈ after, ev.setsUp = false := by
  obtain ⟨mid, mid', hbefore, hstep, hafter⟩ := Monitor.exists_step_of_run h
  have hcalled := called_of_dump (behind_of_read hbefore) (move_of_step hstep)
  exact Monitor.forall_mem_of_run (I := Called) (fun _ _ _ hc hs => hc.step (move_of_step hs)) hcalled hafter

end Session

/-! ## Before the call -/

/-- Two splits of a list at elements of a kind that occurs once are the same. -/
theorem split_eq_of_once {α : Type} {P : α → Prop} {l r pre post : List α} {a b : α} (hl : ∀ x ∈ l, ¬ P x)
    (hr : ∀ x ∈ r, ¬ P x) (hb : P b) (h : l ++ a :: r = pre ++ b :: post) : l = pre ∧ a = b := by
  rcases List.append_eq_append_iff.1 h with ⟨m, hpre, htail⟩ | ⟨m, hl', htail⟩
  · cases m with
    | nil =>
      rw [List.append_nil] at hpre
      cases htail
      exact ⟨hpre.symm, rfl⟩
    | cons c m =>
      rw [List.cons_append, List.cons.injEq] at htail
      exact absurd hb (hr b (by simp [htail.2]))
  · cases m with
    | nil =>
      rw [List.append_nil] at hl'
      cases htail
      exact ⟨hl', rfl⟩
    | cons c m =>
      rw [List.cons_append, List.cons.injEq] at htail
      exact absurd hb (hl b (by simp [hl', htail.1]))

section Main

variable {e : Env} {fuel : Nat} {w v w' : World} {args : DumpArgs} {st : Stop}

theorem grows_refl (w : World) : w.trace <+: w.trace := List.prefix_rfl

/-- Events are only added. -/
def growFrame : Imp.Frame World where
  rel w w' := w.trace <+: w'.trace
  refl := grows_refl
  trans := List.IsPrefix.trans

theorem Accounts.grows {shut : Prop} {α : Type} {x : Prog α} (h : Accounts e shut x) :
    Imp.Within growFrame (fun _ => True) x := Imp.Within.mono h (fun h => h.grows) fun _ => id

/-- The events of a run that came to the call of `dump` begin with those up to it. -/
theorem called_of_dumpAndLeave (hrun : (dumpAndLeave e fuel args).run v = .error st w') :
    ∃ post, w'.trace = v.trace ++ .stage (.dump args.disk args.diskType args.size) :: post := by
  have hafter : ∀ ret, Imp.Within growFrame (fun _ => True) (do
      enter (.dumped ret)
      if ret ≠ 0 then Logger.error e fuel ret "Dump failed." [] else Global.resetAfterPause e fuel : Prog Unit) := by
    intro ret
    have herror : Accounts e True (Logger.error e fuel ret "Dump failed." []) := accounts_error e fuel _ _ _
    have hleave : Accounts e True (Global.resetAfterPause e fuel) := accounts_resetAfterPause e fuel
    refine Imp.within_bind (Imp.within_modify fun w => List.prefix_append _ _) fun _ => ?_
    exact Imp.within_ite (fun _ => herror.grows) fun _ => hleave.grows
  have hends := Imp.within_bind (accounts_dump e fuel args.disk args.diskType args.size).grows hafter
  unfold dumpAndLeave enter at hrun
  rw [Imp.run_bind_ok (Job.run_emit _ v)] at hrun
  obtain ⟨post, hpost⟩ := ((hends _).error hrun).2
  exact ⟨post, by rw [← hpost, World.log, List.append_assoc]; rfl⟩

/-- **`main` calls `dump` only when everything is set up.** Of every call of `dump` that the events of a run of `main`
tell of, the run up to there set up everything, in a world from which `main` goes on with that very call. A run without
one was left before it, and so was every run in which a step failed. -/
theorem dump_when_ready (hw : w.Initial) : Imp.Ends (main e fuel) w (fun _ _ => False) (fun st w' =>
    (∀ pre disk diskType size post, w'.trace = pre ++ .stage (.dump disk diskType size) :: post →
      ∃ v, v.trace = pre ∧ Ready e fuel w ⟨disk, diskType, size⟩ v ∧
        (main e fuel).run w = (dumpAndLeave e fuel ⟨disk, diskType, size⟩).run v) ∧
    ((∀ disk diskType size, .stage (.dump disk diskType size) ∉ w'.trace) → Halted st w') ∧
    ∀ ev ∈ w'.trace, ev.fails = true → Halted st w') := by
  have hsession : Imp.Ends (main e fuel) w (fun _ _ => False) fun _ w' => ∃ q, Session.read w'.trace = some q :=
    (main_session e fuel hw).mono (fun _ _ => id) fun _ _ ⟨q, hread, _⟩ => ⟨q, hread⟩
  cases hrun : (main e fuel).run w with
  | ok _ w' => exact (hsession.ok hrun).elim
  | error st w' =>
    rw [Imp.ends_of_error hrun]
    obtain ⟨q, hread⟩ := hsession.error hrun
    cases hsetUp : (setUp e fuel).run w with
    | error st₁ w₁ =>
      -- left before the call
      have hhalted := (ends_setUp_ready hw).error hsetUp
      have hsame : (main e fuel).run w = .error st₁ w₁ := Imp.run_bind_error hsetUp
      rw [hrun] at hsame
      cases hsame
      refine ⟨fun pre disk diskType size post htrace => ?_, fun _ => hhalted, fun _ _ _ => hhalted⟩
      have hnone := hhalted.dumps (.stage (.dump disk diskType size)) (by simp [htrace])
      cases hnone
    | ok args v =>
      have hready := (ends_setUp_ready hw).ok hsetUp
      have hmain : (main e fuel).run w = (dumpAndLeave e fuel args).run v := Imp.run_bind_ok hsetUp
      obtain ⟨after, htrace⟩ := called_of_dumpAndLeave (hmain.symm.trans hrun)
      rw [htrace] at hread
      have hafter := Session.not_setsUp_of_read hread
      refine ⟨fun pre disk diskType size post hcall => ?_, fun hnone => ?_, fun ev hev hfails => ?_⟩
      · have honce := split_eq_of_once (P := fun ev => ev.setsUp = true ∧ ev.fails = false ∧ ev.dumps = true)
          (fun ev hev h => ?_) (fun ev hev h => ?_) ⟨rfl, rfl, rfl⟩ (htrace.symm.trans hcall)
        · obtain ⟨hpre, hargs⟩ := honce
          cases args
          cases hargs
          exact ⟨v, hpre, hready, hrun.symm.trans hmain⟩
        · have hclear := hready.dumps ev hev
          rw [h.2.2] at hclear
          cases hclear
        · have hlate := hafter ev hev
          rw [h.1] at hlate
          cases hlate
      · exact absurd (by simp [htrace]) (hnone args.disk args.diskType args.size)
      · exfalso
        rw [htrace] at hev
        rcases List.mem_append.1 hev with hev | hev
        · rw [hready.fails ev hev] at hfails
          cases hfails
        · rcases List.mem_cons.1 hev with rfl | hev
          · cases hfails
          · have hlate := hafter ev hev
            rw [Event.setsUp_of_fails hfails] at hlate
            cases hlate

end Main

theorem dump_when_ready_homer : ∃ w' v post, (main homer 3).run wiiWorld = .error (.exit 0) w' ∧
    w'.trace = v.trace ++ homerDump :: post ∧
      Ready homer 3 wiiWorld ⟨some .localId, isWiiDualDisk, getDiskSizeBytes isWiiDualDisk⟩ v := by
  obtain ⟨w', hrun, hmem⟩ := exists_run_homer
  obtain ⟨pre, post, htrace⟩ := List.append_of_mem hmem
  have hends := @dump_when_ready homer 3 wiiWorld (initial_boot (fun _ => bareWiiHeader) fun _ => none)
  obtain ⟨v, rfl, hready, -⟩ := (hends.error hrun).1 pre _ _ _ post htrace
  exact ⟨w', v, post, hrun, htrace, hready⟩

end TakeADump
