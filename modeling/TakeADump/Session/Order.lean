import TakeADump.Session.Move
import TakeADump.Session.Main

/-!
# What comes before what

Every run of `main` is a session (`Main.lean`), so what the machine keeps holds of every run. What lies behind a phase
is kept by each of its moves (`Behind.step`).

* `main_error_line`: each error line directly follows the failure it reports, and nothing follows it but the wait for A
  and the exit. So a session shows at most one of them, and touches neither drive nor files after it.
* `main_in_order`: the drive is asked for a disc only after the chosen medium was mounted, it is sent a command to read
  only after the disc was found, and files are touched only after the disc was identified, with the size its type has.
-/

namespace TakeADump

namespace Session

variable {q q' : Phase} {ev : Event} {past : List Event} {stop : Bool}

/-! ## What lies behind a phase -/

/-- The failure an error line reports. -/
inductive Explains : Event → Event → Prop
  | mount (iface : Interface) : Explains (.fatMount iface (.returned false)) (.errorLine 0 "Unable to mount drive." [])
  | exception (iface : Interface) (what : String) :
    Explains (.fatMount iface (.exception what)) (.errorLine 1 "Unhandled FAT exception: %s" [.text what])
  | unknownException (iface : Interface) :
    Explains (.fatMount iface .unknownException) (.errorLine 2 "Unhandled FAT exception" [])
  | disc {ret : Int} (h : ret ≠ 0) :
    Explains (.stage (.initialized ret)) (.errorLine ret "Unable to initialize disk." [])
  | sector (k : Nat) (ret : Int) : Explains (errorReport k) (.errorLine ret "Unrecovered read error." [])
  | dump {ret : Int} (h : ret ≠ 0) : Explains (.stage (.dumped ret)) (.errorLine ret "Dump failed." [])

/-- The last event has the next error line as its consequence. -/
def Blames (past : List Event) (line : Event) : Prop := ∃ before cause, past = before ++ [cause] ∧ Explains cause line

/-- The milestones of a session with medium `driveType`, up to the disc that was found, -/
def toDisc (driveType : Int) : List Event :=
  [.stage (.menuLeft driveType fsFat32), .fatMount (interfaceOf driveType) (.returned true), .stage .mounted,
    .stage (.initialized 0)]

/-- and up to the dump of a disc of type `diskType`. -/
def toDump (driveType diskType : Int) : List Event :=
  toDisc driveType ++
    [.stage (.identified diskType), .stage (.dump (some .localId) diskType (getDiskSizeBytes diskType))]

/-- What lies behind a phase. -/
def Behind (past : List Event) : Phase → Prop
  | .choosing _ | .leaving | .quitting | .exiting | .exited => True
  | .mounting _ iface => ∃ d, interfaceOf d = iface ∧ ((toDisc d).take 1).Sublist past
  | .mounted _ => ∃ d, ((toDisc d).take 2).Sublist past
  | .finding _ => ∃ d, ((toDisc d).take 3).Sublist past
  | .probing _ => ∃ d, (toDisc d).Sublist past
  | .confirming _ diskType => ∃ d, ((toDump d diskType).take 5).Sublist past
  | .starting _ => ∃ d diskType, (toDump d diskType).Sublist past
  | .returning due _ => (∃ d diskType, (toDump d diskType).Sublist past) ∧ ∀ ev ∈ due, Closing ev
  | .copying _ s => (∃ d diskType, (toDump d diskType).Sublist past) ∧
    (s = .reported → ∃ before k, past = before ++ [errorReport k])
  | .failing line => Blames past line

theorem behind_afterMount {iface : Interface} (h : Behind past (.mounting stop iface)) (res : MountResult) :
    Behind (past ++ [.fatMount iface res]) (afterMount stop res) := by
  obtain ⟨d, rfl, hroad⟩ := h
  match res with
  | .returned true => exact ⟨d, hroad.append (List.Sublist.refl _)⟩
  | .returned false => exact ⟨past, _, rfl, .mount _⟩
  | .exception what => exact ⟨past, _, rfl, .exception _ what⟩
  | .unknownException => exact ⟨past, _, rfl, .unknownException _⟩

theorem behind_afterInitialize (h : Behind past (.finding stop)) (ret : Int) :
    Behind (past ++ [.stage (.initialized ret)]) (afterInitialize stop ret) := by
  obtain ⟨d, hroad⟩ := h
  unfold afterInitialize
  split
  · rename_i hret
    rw [hret]
    exact ⟨d, hroad.append (List.Sublist.refl _)⟩
  · rename_i hret
    exact ⟨past, _, rfl, .disc hret⟩

theorem behind_afterDump (past : List Event) (ret : Int) : Behind (past ++ [.stage (.dumped ret)]) (afterDump ret) := by
  unfold afterDump
  split
  · trivial
  · rename_i hret
    exact ⟨past, _, rfl, .dump hret⟩

/-- Each step keeps it. -/
theorem Behind.step (hb : Behind past q) (h : Move q ev q') : Behind (past ++ [ev]) q' := by
  cases h with
  | choose _ | giveUp | fail | leave | quitted | exit | cancel _ | quit _ => trivial
  | select => exact ⟨_, rfl, List.sublist_append_right _ _⟩
  | ask hq _ =>
    cases q with
    | choosing _ | leaving => trivial
    | mounting _ _ =>
      obtain ⟨d, hiface, hroad⟩ := hb
      exact ⟨d, hiface, hroad.trans (List.sublist_append_left _ _)⟩
    | finding _ | confirming _ _ =>
      obtain ⟨d, hroad⟩ := hb
      exact ⟨d, hroad.trans (List.sublist_append_left _ _)⟩
    | _ => cases hq
  | mount res => exact behind_afterMount hb res
  | mounted =>
    obtain ⟨d, hroad⟩ := hb
    exact ⟨d, hroad.append (List.Sublist.refl _)⟩
  | ioctl | seek _ | probe _ =>
    obtain ⟨d, hroad⟩ := hb
    exact ⟨d, hroad.trans (List.sublist_append_left _ _)⟩
  | initialized ret => exact behind_afterInitialize hb ret
  | identified _ =>
    obtain ⟨d, hroad⟩ := hb
    exact ⟨d, hroad.append (List.Sublist.refl _)⟩
  | dump =>
    obtain ⟨d, hroad⟩ := hb
    exact ⟨d, _, hroad.append (List.Sublist.refl _)⟩
  | allocate =>
    obtain ⟨d, diskType, hroad⟩ := hb
    exact ⟨⟨d, diskType, hroad.trans (List.sublist_append_left _ _)⟩, nofun⟩
  | refuse hdue _ =>
    obtain ⟨d, diskType, hroad⟩ := hb
    exact ⟨⟨d, diskType, hroad.trans (List.sublist_append_left _ _)⟩, hdue⟩
  | copy _ _ _ _ hreport =>
    obtain ⟨⟨d, diskType, hroad⟩, -⟩ := hb
    exact ⟨⟨d, diskType, hroad.trans (List.sublist_append_left _ _)⟩, fun hs => ⟨past, _, by rw [hreport hs]⟩⟩
  | progress =>
    obtain ⟨⟨d, diskType, hroad⟩, -⟩ := hb
    exact ⟨⟨d, diskType, hroad.trans (List.sublist_append_left _ _)⟩, nofun⟩
  | stop _ hdue _ =>
    obtain ⟨⟨d, diskType, hroad⟩, -⟩ := hb
    exact ⟨⟨d, diskType, hroad.trans (List.sublist_append_left _ _)⟩, hdue⟩
  | due =>
    obtain ⟨⟨d, diskType, hroad⟩, hdue⟩ := hb
    exact ⟨⟨d, diskType, hroad.trans (List.sublist_append_left _ _)⟩,
      fun ev hev => hdue ev (List.mem_cons_of_mem _ hev)⟩
  | dumped => exact behind_afterDump past _

theorem behind_of_read {evs : List Event} (h : read evs = some q) : Behind evs q :=
  Monitor.history_of_run (H := Behind) (fun _ _ _ _ hb hstep => hb.step (move_of_step hstep))
    (show Behind [] (.choosing true) from trivial) h

/-! ## Error lines -/

/-- What follows an error line. -/
def Tail (ev : Event) : Prop :=
  (∃ args, ev = .print "Press A to exit." args) ∨ (∃ buttons, ev = .sample buttons) ∨ ev = exitLine ∨ ev = .exit 0

/-- The way out. -/
def Last (q : Phase) : Prop := q = .leaving ∨ q = .exiting ∨ q = .exited

theorem Last.step (hl : Last q) (h : q.step ev = some q') : Last q' ∧ Tail ev := by
  obtain rfl | rfl | rfl := hl
  · by_cases hexit : ev = exitLine
    · rw [Phase.step, if_pos hexit] at h
      cases h
      exact ⟨Or.inr (Or.inl rfl), Or.inr (Or.inr (Or.inl hexit))⟩
    · rw [Phase.step, if_neg hexit] at h
      cases ev with
      | print fmt args =>
        obtain ⟨hfmt, ⟨⟩⟩ := Option.ite_none_right_eq_some.1 h
        exact ⟨Or.inl rfl, Or.inl ⟨args, by rw [List.mem_singleton.1 hfmt]⟩⟩
      | sample buttons =>
        cases h
        exact ⟨Or.inl rfl, Or.inr (Or.inl ⟨buttons, rfl⟩)⟩
      | _ => cases h
  · obtain ⟨rfl, ⟨⟩⟩ := Option.ite_none_right_eq_some.1 h
    exact ⟨Or.inr (Or.inr rfl), Or.inr (Or.inr (Or.inr rfl))⟩
  · cases h

/-- An error line is due where it is read. -/
theorem Behind.blames {code : Int} {fmt : String} {args : List Arg} (hb : Behind past q)
    (h : Move q (.errorLine code fmt args) q') : Blames past (.errorLine code fmt args) ∧ q' = .leaving := by
  generalize hline : Event.errorLine code fmt args = line at h
  cases h with
  | fail => exact ⟨hb, rfl⟩
  | cancel ret =>
    obtain ⟨before, k, hpast⟩ := hb.2 rfl
    exact ⟨⟨before, _, hpast, .sector k ret⟩, rfl⟩
  | due =>
    have hwork := (hb.2 _ List.mem_cons_self).work
    rw [← hline] at hwork
    exact hwork.elim
  | choose hev | ask _ hev | probe hev | copy hev _ _ _ _ | stop hev _ _ =>
    rw [← hline] at hev
    exact hev.elim
  | _ => cases hline

theorem error_line {evs before after : List Event} {code : Int} {fmt : String} {args : List Arg}
    (h : read evs = some q) (hevs : evs = before ++ .errorLine code fmt args :: after) :
    Blames before (.errorLine code fmt args) ∧ ∀ ev ∈ after, Tail ev := by
  rw [hevs] at h
  obtain ⟨mid, mid', hbefore, hstep, hafter⟩ := Monitor.exists_step_of_run h
  obtain ⟨hblames, rfl⟩ := (behind_of_read hbefore).blames (move_of_step hstep)
  exact ⟨hblames, Monitor.forall_mem_of_run (I := Last) (fun _ _ _ hl hs => hl.step hs) (Or.inl rfl) hafter⟩

/-! ## The milestones -/

theorem Blames.not_work {line : Event} (h : Blames past line) : ¬ Work line := by
  obtain ⟨before, cause, -, hcause⟩ := h
  cases hcause <;> exact id

theorem toDisc_sublist (driveType diskType : Int) : (toDisc driveType).Sublist (toDump driveType diskType) :=
  List.sublist_append_left _ _

/-- Only a medium that was chosen is mounted. -/
theorem Behind.fatMount {iface : Interface} {res : MountResult} (hb : Behind past q)
    (h : Move q (.fatMount iface res) q') :
    ∃ d, interfaceOf d = iface ∧ [.stage (.menuLeft d fsFat32)].Sublist past := by
  generalize hmount : Event.fatMount iface res = ev at h
  cases h with
  | mount _ =>
    cases hmount
    exact hb
  | fail =>
    obtain ⟨before, cause, -, hcause⟩ := hb
    rw [← hmount] at hcause
    cases hcause
  | choose hs | ask _ hs | probe hs | copy hs _ _ _ _ | stop hs _ _ =>
    rw [← hmount] at hs
    exact hs.elim
  | due =>
    have hwork := (hb.2 _ List.mem_cons_self).work
    rw [← hmount] at hwork
    exact hwork.elim
  | _ => cases hmount

/-- Only a disc that was found is read. -/
theorem Behind.command (hb : Behind past q) (h : Move q ev q') (hev : Command ev) (hseek : ¬ Seek ev) :
    ∃ d, (toDisc d).Sublist past := by
  cases h with
  | probe _ => exact hb
  | copy _ _ _ _ _ | progress | stop _ _ _ | due =>
    obtain ⟨⟨d, diskType, hroad⟩, -⟩ := hb
    exact ⟨d, (toDisc_sublist d diskType).trans hroad⟩
  | seek hr => exact (hseek hr).elim
  | fail => exact (hb.not_work (by cases ev <;> trivial)).elim
  | choose hs | ask _ hs => cases ev <;> first | exact hs.elim | exact hev.elim
  | _ => exact hev.elim

/-- A disc is looked for only when there is a medium to dump it to. -/
theorem Behind.seek (hb : Behind past q) (h : Move q ev q') (hev : Command ev ∨ Seek ev) :
    ∃ d, ((toDisc d).take 3).Sublist past := by
  by_cases hfound : Command ev ∧ ¬ Seek ev
  · obtain ⟨d, hroad⟩ := hb.command h hfound.1 hfound.2
    exact ⟨d, (List.take_sublist 3 _).trans hroad⟩
  · have hseek : Seek ev := by tauto
    cases h with
    | ioctl | seek _ => exact hb
    | probe _ =>
      obtain ⟨d, hroad⟩ := hb
      exact ⟨d, (List.take_sublist 3 _).trans hroad⟩
    | copy _ _ _ _ _ | progress | stop _ _ _ | due =>
      obtain ⟨⟨d, diskType, hroad⟩, -⟩ := hb
      exact ⟨d, (List.take_sublist 3 _).trans ((toDisc_sublist d diskType).trans hroad)⟩
    | fail =>
      obtain ⟨before, cause, -, hcause⟩ := hb
      cases hcause <;> exact hseek.elim
    | choose hs | ask _ hs => cases ev <;> first | exact hs.elim | exact hseek.elim
    | _ => exact hseek.elim

/-- Only the dump of a disc touches files. -/
theorem Behind.file (hb : Behind past q) (h : Move q ev q') (hev : File ev) :
    ∃ d diskType, (toDump d diskType).Sublist past := by
  cases h with
  | allocate | refuse _ _ => exact hb
  | copy _ _ _ _ _ | progress | stop _ _ _ | due => exact hb.1
  | fail => exact (hb.not_work (by cases ev <;> trivial)).elim
  | choose hs | ask _ hs => cases ev <;> first | exact hs.elim | exact hev.elim
  | probe hs => cases ev <;> first | exact hs.elim | exact hev.elim
  | _ => exact hev.elim

end Session

/-- **Error lines.** In every run of `main` each error line directly follows the failure it reports, and nothing
follows it but the wait for A and the exit: no other error line, and nothing that touches the drive or the files. -/
theorem main_error_line (e : Env) (fuel : Nat) {w : World} (hw : w.Initial) :
    Imp.Ends (main e fuel) w (fun _ _ => False) (fun _ w' => ∀ before code fmt args after,
      w'.trace = before ++ .errorLine code fmt args :: after →
        Session.Blames before (.errorLine code fmt args) ∧ ∀ ev ∈ after, Session.Tail ev) :=
  (Session.ends_main hw).mono (fun _ _ => id) fun _ _ ⟨_, hread, _⟩ _ _ _ _ _ => Session.error_line hread

/-- A medium that cannot be mounted, and a user who chooses it. -/
def unmountable : Env :=
  { Env.calm bareWiiHeader with
    pad := fun n => ([wpadButtonA, 0, wpadButton1, 0, wpadButtonA, 0, 0, wpadButtonA] : List UInt32).getD n 0
    mount := fun _ => .returned false }

theorem exists_run_unmountable : ∃ w', (main unmountable 3).run wiiWorld = .error (.exit 0) w' ∧
    .errorLine 0 "Unable to mount drive." [] ∈ w'.trace := by
  obtain ⟨st, w', hrun, rfl, hmem⟩ : ∃ st w', (main unmountable 3).run wiiWorld = .error st w' ∧ st = .exit 0 ∧
      .errorLine 0 "Unable to mount drive." [] ∈ w'.trace := Imp.exists_error_of_decide (by decide +kernel)
  exact ⟨w', hrun, hmem⟩

theorem main_error_line_mount :
    ∃ w' before after, (main unmountable 3).run wiiWorld = .error (.exit 0) w' ∧
      w'.trace = before ++ .errorLine 0 "Unable to mount drive." [] :: after ∧
      Session.Blames before (.errorLine 0 "Unable to mount drive." []) ∧ ∀ ev ∈ after, Session.Tail ev := by
  obtain ⟨w', hrun, hmem⟩ := exists_run_unmountable
  obtain ⟨before, after, htrace⟩ := List.append_of_mem hmem
  have hends := main_error_line unmountable 3 (initial_boot (fun _ => bareWiiHeader) fun _ => none)
  exact ⟨w', before, after, hrun, htrace, hends.error hrun before _ _ _ after htrace⟩

/-- **Milestones.** In every run of `main` a medium is mounted only after it was chosen, the drive is asked for a disc
only after the medium was mounted, every other command is sent only after the disc was found, and memory and files of a
dump are touched only after the disc was identified and its dump was started with the size of its type: each event has
the milestones before it, in this order. -/
theorem main_in_order (e : Env) (fuel : Nat) {w : World} (hw : w.Initial) :
    Imp.Ends (main e fuel) w (fun _ _ => False) (fun _ w' => ∀ before ev after, w'.trace = before ++ ev :: after →
      (∀ iface res, ev = .fatMount iface res →
        ∃ d, interfaceOf d = iface ∧ [.stage (.menuLeft d fsFat32)].Sublist before) ∧
      (Session.Command ev ∨ Session.Seek ev → ∃ d, ((Session.toDisc d).take 3).Sublist before) ∧
      (Session.Command ev → ¬ Session.Seek ev → ∃ d, (Session.toDisc d).Sublist before) ∧
      (Session.File ev → ∃ d diskType, (Session.toDump d diskType).Sublist before)) := by
  refine (Session.ends_main hw).mono (fun _ _ => id) ?_
  rintro st w' ⟨q, hread, -⟩ before ev after htrace
  rw [htrace] at hread
  obtain ⟨mid, mid', hbefore, hstep, -⟩ := Monitor.exists_step_of_run hread
  have hb := Session.behind_of_read hbefore
  have hmove := Session.move_of_step hstep
  refine ⟨?_, hb.seek hmove, hb.command hmove, hb.file hmove⟩
  rintro iface res rfl
  exact hb.fatMount hmove

/-- The session of `homer` reads the disc. -/
theorem exists_command_homer : ∃ w' r, (main homer 3).run wiiWorld = .error (.exit 0) w' ∧
    .request r ∈ w'.trace ∧ r.cmd = dvdNormal := by
  let reads : Event → Bool
    | .request r => r.cmd = dvdNormal
    | _ => false
  obtain ⟨st, w', hrun, rfl, hany⟩ : ∃ st w', (main homer 3).run wiiWorld = .error st w' ∧ st = .exit 0 ∧
      w'.trace.any reads = true := Imp.exists_error_of_decide (by decide +kernel)
  obtain ⟨ev, hmem, hev⟩ := List.any_eq_true.1 hany
  cases ev with
  | request r => exact ⟨w', r, hrun, hmem, of_decide_eq_true hev⟩
  | _ => cases hev

theorem main_in_order_homer : ∃ w' before r after d, (main homer 3).run wiiWorld = .error (.exit 0) w' ∧
    w'.trace = before ++ .request r :: after ∧ r.cmd = dvdNormal ∧ (Session.toDisc d).Sublist before := by
  obtain ⟨w', r, hrun, hmem, hcmd⟩ := exists_command_homer
  obtain ⟨before, after, htrace⟩ := List.append_of_mem hmem
  have hends := main_in_order homer 3 (initial_boot (fun _ => bareWiiHeader) fun _ => none)
  have hseek : ¬ Session.Seek (.request r) := by
    show ¬ Request.finding r = true
    rw [Request.finding, hcmd]
    decide
  obtain ⟨d, hroad⟩ := (hends.error hrun before _ after htrace).2.2.1 trivial hseek
  exact ⟨w', before, r, after, d, hrun, htrace, hcmd, hroad⟩

end TakeADump
