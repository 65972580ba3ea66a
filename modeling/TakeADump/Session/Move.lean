import TakeADump.Model.Console
import TakeADump.Session.Phase

/-!
# The moves of a session

`Move` says once what a step of the session machine can do, as far as the invariants of its runs look at it; every
step is such a move (`move_of_step`), with one lemma for each part of the machine.
-/

namespace TakeADump

namespace Session

/-! ## Events -/

/-- A line that tells of no sector. -/
def Neutral (fmt : String) : Prop := fmt ≠ progressLine ∧ fmt ≠ reportLine

instance (fmt : String) : Decidable (Neutral fmt) := inferInstanceAs (Decidable (_ ∧ _))

/-- Screen and Wiimote only, and no word of a sector. -/
def Screen : Event → Prop
  | .print fmt _ => Neutral fmt
  | .newline | .sample _ => True
  | _ => False

/-- A command of the drive. -/
def Command : Event → Prop
  | .request _ | .dcInvalidate _ _ | .finished _ => True
  | _ => False

/-- What the drive is asked when a disc is looked for. -/
def Seek : Event → Prop
  | .request r => r.finding = true
  | .ioctl => True
  | _ => False

/-- The buffer and the files of a dump. -/
def File : Event → Prop
  | .memalign _ | .free | .memset _ | .fopen _ _ | .fwrite _ _ _ | .fclose _ => True
  | _ => False

/-- What a dump does, error lines and progress apart. -/
def Work : Event → Prop
  | .errorLine _ _ _ | .exit _ | .fatMount _ _ | .ioctl | .stage _ => False
  | .print fmt _ => fmt ≠ progressLine
  | _ => True

/-- What a dump does on its way out. -/
def Closing : Event → Prop
  | .print fmt _ => Neutral fmt
  | .newline | .free | .fclose _ => True
  | _ => False

theorem Closing.work {ev : Event} (h : Closing ev) : Work ev := by
  cases ev with
  | print fmt args => exact h.1
  | newline | free | fclose _ => trivial
  | _ => exact h.elim

/-! ## Moves -/

/-- No sector is being copied. -/
def Sector.between : Sector → Prop
  | .heading | .zero | .ready | .shown => True
  | _ => False

/-- What a step can do. -/
inductive Move : Phase → Event → Phase → Prop
  | choose {stop stop' ev} (h : Screen ev) : Move (.choosing stop) ev (.choosing stop')
  | giveUp {stop} : Move (.choosing stop) exitLine .exiting
  | select {stop driveType} :
    Move (.choosing stop) (.stage (.menuLeft driveType fsFat32)) (.mounting stop (interfaceOf driveType))
  | ask {q ev} (hq : q.waits = true) (h : Screen ev) : Move q ev q
  | mount {stop iface} (res : MountResult) : Move (.mounting stop iface) (.fatMount iface res) (afterMount stop res)
  | mounted {stop} : Move (.mounted stop) (.stage .mounted) (.finding stop)
  | ioctl {stop} : Move (.finding stop) .ioctl (.finding stop)
  | seek {stop r} (h : r.finding = true) : Move (.finding stop) (.request r) (.finding stop)
  | initialized {stop} (ret : Int) : Move (.finding stop) (.stage (.initialized ret)) (afterInitialize stop ret)
  | probe {stop ev} (h : Command ev) : Move (.probing stop) ev (.probing stop)
  | identified {stop diskType} (h : getDiskSizeBytes diskType ≠ 0) :
    Move (.probing stop) (.stage (.identified diskType)) (.confirming stop diskType)
  | dump {stop diskType} : Move (.confirming stop diskType)
    (.stage (.dump (some .localId) diskType (getDiskSizeBytes diskType)))
    (.starting ⟨getDiskSizeBytes diskType, stop, 0, 0, 0⟩)
  | allocate {c} : Move (.starting c) (.memalign true) (.copying c .heading)
  | refuse {c due ret} (hdue : ∀ ev ∈ due, Closing ev) (hret : ret ≠ 0) :
    Move (.starting c) (.memalign false) (.returning due ret)
  | copy {c s ev c' s'} (hev : Work ev) (hdone : c'.done = c.done) (hsize : c'.size = c.size)
    (hroom : s'.between ∨ ¬ s.between ∨ sectorSize * c.done < c.size.toNat)
    (h : s' = .reported → ev = errorReport c.done) : Move (.copying c s) ev (.copying c' s')
  | progress {c} : Move (.copying c .written) c.progress (.copying { c with done := c.done + 1 } .shown)
  | stop {c s ev due ret} (hev : Work ev) (hdue : ∀ ev ∈ due, Closing ev)
    (hret : ret = 0 → c.size.toNat ≤ sectorSize * c.done) : Move (.copying c s) ev (.returning due ret)
  | cancel {c} (ret : Int) : Move (.copying c .reported) (.errorLine ret "Unrecovered read error." []) .leaving
  | quit {c s} (buttons : UInt32) : Move (.copying c s) (.sample buttons) .quitting
  | due {ev rest ret} : Move (.returning (ev :: rest) ret) ev (.returning rest ret)
  | dumped {ret} : Move (.returning [] ret) (.stage (.dumped ret)) (afterDump ret)
  | fail {line} : Move (.failing line) line .leaving
  | leave : Move .leaving exitLine .exiting
  | quitted : Move .quitting exitLine .exiting
  | exit : Move .exiting (.exit 0) .exited

/-- What a step of the copy can do. -/
inductive CopyMove (c : Copy) : Sector → Event → Phase → Prop
  | heading : CopyMove c .heading (.print "Taking a dump..." []) (.copying c .zero)
  | zero : CopyMove c .zero (.print "Dumped 0 bytes" []) (.copying c .ready)
  | moveUp {s'} (hroom : sectorSize * c.done < c.size.toNat)
    (h : c.rolls = true ∧ (s' = .closed ∨ s' = .rolling) ∨ c.rolls = false ∧ s' = .reading 0) :
    CopyMove c .ready .moveUp (.copying c s')
  | complete (hdone : c.size.toNat ≤ sectorSize * c.done) : CopyMove c .ready (.fclose c.part)
    (.returning [.free, .print "Dump complete after %d minutes!" [.minutes]] 0)
  | close : CopyMove c .rolling (.fclose c.part) (.copying c .closed)
  | create (filename : Bytes) :
    CopyMove c .closed (.fopen filename true) (.copying { c with parts := c.parts + 1 } (.reading 0))
  | refused (filename : Bytes) : CopyMove c .closed (.fopen filename false)
    (.returning [.newline, .print "Failed to create file: %s" [.chars filename], .free] (-2))
  | command {n r} (hreads : c.reads r = true) : CopyMove c (.reading n) (.request r) (.copying c (.commanded n))
  | report {n} : CopyMove c (.reading n) (errorReport c.done) (.copying { c with errors := c.errors + 1 } .reported)
  | invalidate {n} : CopyMove c (.commanded n) (.dcInvalidate .buffer sectorSize) (.copying c (.waiting n))
  | read {n} : CopyMove c (.waiting n) (.finished true) (.copying c .settled)
  | retry {n} : CopyMove c (.waiting n) (.finished false) (.copying c (.reading (n + 1)))
  | cancel (ret : Int) : CopyMove c .reported (.errorLine ret "Unrecovered read error." []) .leaving
  | fill : CopyMove c .reported (.memset sectorSize) (.copying c .settled)
  | write : CopyMove c .settled (.fwrite c.part sectorSize sectorSize) (.copying c .written)
  | short {written} (h : written < sectorSize) : CopyMove c .settled (.fwrite c.part sectorSize written)
    (.returning [.print "Error writing file. Bytes written: %d. Bytes expected: %d."
      [.int written, .u32 (UInt32.ofNat sectorSize)], .fclose c.part, .free] (-2))
  | progress : CopyMove c .written c.progress (.copying { c with done := c.done + 1 } .shown)
  | goOn (buttons : UInt32) : CopyMove c .shown (.sample buttons) (.copying c .ready)
  | home (buttons : UInt32) : CopyMove c .shown (.sample buttons) .quitting

variable {q q' : Phase} {ev : Event} {c : Copy} {s : Sector} {stop : Bool}

theorem move_prompt (lines : List String) (hq : q.waits = true) (hlines : ∀ line ∈ lines, Neutral line)
    (h : prompt lines q ev = some q') : Move q ev q' := by
  cases ev with
  | print fmt args =>
    obtain ⟨hfmt, ⟨⟩⟩ := Option.ite_none_right_eq_some.1 h
    exact .ask hq (hlines fmt hfmt)
  | sample buttons =>
    cases h
    exact .ask hq trivial
  | _ => cases h

theorem move_choose (h : choose stop ev = some q') : Move (.choosing stop) ev q' := by
  unfold choose at h
  split at h
  · split at h
    · rename_i heq
      cases h
      rw [heq]
      exact .giveUp
    · split at h
      · rename_i hfmt
        cases h
        rw [hfmt]
        exact .choose (by decide : Neutral _)
      · obtain ⟨hfmt, ⟨⟩⟩ := Option.ite_none_right_eq_some.1 h
        exact .choose ((by decide : ∀ line ∈ menuLines, Neutral line) _ hfmt)
  · cases h
    exact .choose trivial
  · cases h
    exact .choose trivial
  · split at h
    · rename_i hfat
      cases h
      rw [hfat.1]
      exact .select
    · cases h
  · cases h

theorem copyMove_of_next (h : c.next ev = some q') : CopyMove c .ready ev q' := by
  unfold Copy.next at h
  split at h
  · obtain ⟨hroom, ⟨⟩⟩ := Option.ite_none_right_eq_some.1 h
    refine .moveUp hroom ?_
    split
    · rename_i hrolls
      refine Or.inl ⟨hrolls, ?_⟩
      split
      · exact Or.inl rfl
      · exact Or.inr rfl
    · rename_i hrolls
      exact Or.inr ⟨Bool.eq_false_of_not_eq_true hrolls, rfl⟩
  · obtain ⟨⟨hdone, -, rfl⟩, ⟨⟩⟩ := Option.ite_none_right_eq_some.1 h
    exact .complete (Nat.not_lt.1 hdone)
  · cases h

theorem copyMove_of_step (h : c.step s ev = some q') : CopyMove c s ev q' := by
  unfold Copy.step at h
  split at h
  case h_1 =>
    obtain ⟨rfl, ⟨⟩⟩ := Option.ite_none_right_eq_some.1 h
    exact .heading
  case h_2 =>
    obtain ⟨rfl, ⟨⟩⟩ := Option.ite_none_right_eq_some.1 h
    exact .zero
  case h_3 => exact copyMove_of_next h
  case h_4 =>
    obtain ⟨rfl, ⟨⟩⟩ := Option.ite_none_right_eq_some.1 h
    exact .close
  case h_5 =>
    cases h
    exact .create _
  case h_6 =>
    cases h
    exact .refused _
  case h_7 =>
    obtain ⟨⟨-, hreads⟩, ⟨⟩⟩ := Option.ite_none_right_eq_some.1 h
    exact .command hreads
  case h_8 =>
    obtain ⟨⟨-, hreport⟩, ⟨⟩⟩ := Option.ite_none_right_eq_some.1 h
    rw [hreport]
    exact .report
  case h_9 =>
    obtain ⟨rfl, ⟨⟩⟩ := Option.ite_none_right_eq_some.1 h
    exact .invalidate
  case h_10 =>
    rename_i ok
    cases ok <;> cases h
    · exact .retry
    · exact .read
  case h_11 =>
    obtain ⟨⟨-, rfl, rfl⟩, ⟨⟩⟩ := Option.ite_none_right_eq_some.1 h
    exact .cancel _
  case h_12 =>
    obtain ⟨⟨-, rfl⟩, ⟨⟩⟩ := Option.ite_none_right_eq_some.1 h
    exact .fill
  case h_13 =>
    rename_i written
    obtain ⟨⟨rfl, rfl, hle⟩, hwrite⟩ := Option.ite_none_right_eq_some.1 h
    by_cases hall : written = sectorSize
    · rw [if_pos hall] at hwrite
      cases hwrite
      rw [hall]
      exact .write
    · rw [if_neg hall] at hwrite
      cases hwrite
      exact .short (Nat.lt_of_le_of_ne hle hall)
  case h_14 =>
    obtain ⟨rfl, ⟨⟩⟩ := Option.ite_none_right_eq_some.1 h
    exact .progress
  case h_15 =>
    cases h
    split
    · exact .home _
    · exact .goOn _
  case h_16 => cases h

theorem move_copy (h : c.step s ev = some q') : Move (.copying c s) ev q' := by
  cases copyMove_of_step h with
  | heading | zero => exact .copy (by simp [Work, progressLine]) rfl rfl (Or.inl trivial) nofun
  | moveUp hroom hs' =>
    refine .copy trivial rfl rfl (Or.inr (Or.inr hroom)) fun hreported => ?_
    rcases hs' with ⟨-, hs' | hs'⟩ | ⟨-, hs'⟩ <;> cases hs'.symm.trans hreported
  | complete hdone => exact .stop trivial (by simp [Closing, Neutral, progressLine, reportLine]) fun _ => hdone
  | close | create _ | command _ | invalidate | read | retry | fill | write =>
    exact .copy trivial rfl rfl (Or.inr (Or.inl id)) nofun
  | report => exact .copy (by simp [Work, errorReport, progressLine]) rfl rfl (Or.inr (Or.inl id)) fun _ => rfl
  | cancel ret => exact .cancel ret
  | refused _ | short _ => exact .stop trivial (by simp [Closing, Neutral, progressLine, reportLine]) nofun
  | progress => exact .progress
  | goOn buttons => exact .copy trivial rfl rfl (Or.inl trivial) nofun
  | home buttons => exact .quit buttons

/-- **What a step can do.** -/
theorem move_of_step (h : q.step ev = some q') : Move q ev q' := by
  cases q with
  | choosing stop => exact move_choose h
  | mounting stop iface =>
    cases ev with
    | fatMount iface' res =>
      obtain ⟨rfl, ⟨⟩⟩ := Option.ite_none_right_eq_some.1 h
      exact .mount res
    | _ => exact move_prompt ["Insert your %s %s now, and press A."] rfl (by decide) h
  | mounted stop =>
    obtain ⟨rfl, ⟨⟩⟩ := Option.ite_none_right_eq_some.1 h
    exact .mounted
  | finding stop =>
    cases ev with
    | ioctl =>
      cases h
      exact .ioctl
    | request r =>
      obtain ⟨hr, ⟨⟩⟩ := Option.ite_none_right_eq_some.1 h
      exact .seek hr
    | stage stage =>
      cases stage with
      | initialized ret =>
        cases h
        exact .initialized ret
      | _ => cases h
    | _ => exact move_prompt ["Insert your %s now, and press A.", "Initializing DVD..."] rfl (by decide) h
  | probing stop =>
    cases ev with
    | request _ | dcInvalidate _ _ | finished _ =>
      cases h
      exact .probe trivial
    | stage stage =>
      cases stage with
      | identified diskType =>
        obtain ⟨hsize, ⟨⟩⟩ := Option.ite_none_left_eq_some.1 h
        exact .identified hsize
      | _ => cases h
    | _ => cases h
  | confirming stop diskType =>
    cases ev with
    | stage stage =>
      cases stage with
      | dump disk diskType' size =>
        obtain ⟨⟨rfl, rfl, rfl⟩, ⟨⟩⟩ := Option.ite_none_right_eq_some.1 h
        exact .dump
      | _ => cases h
    | _ => exact move_prompt ["Press A to start dumping.", "Press Home or Reset to exit."] rfl (by decide) h
  | starting c =>
    cases ev with
    | memalign ok =>
      cases ok <;> cases h
      · exact .refuse (by simp [Closing, Neutral, progressLine, reportLine]) (by decide)
      · exact .allocate
    | _ => cases h
  | copying c s => exact move_copy h
  | returning due ret =>
    cases due with
    | nil =>
      obtain ⟨rfl, ⟨⟩⟩ := Option.ite_none_right_eq_some.1 h
      exact .dumped
    | cons _ rest =>
      obtain ⟨rfl, ⟨⟩⟩ := Option.ite_none_right_eq_some.1 h
      exact .due
  | failing line =>
    obtain ⟨rfl, ⟨⟩⟩ := Option.ite_none_right_eq_some.1 h
    exact .fail
  | leaving =>
    by_cases hexit : ev = exitLine
    · rw [Phase.step, if_pos hexit] at h
      cases h
      rw [hexit]
      exact .leave
    · rw [Phase.step, if_neg hexit] at h
      exact move_prompt ["Press A to exit."] rfl (by decide) h
  | quitting =>
    obtain ⟨rfl, ⟨⟩⟩ := Option.ite_none_right_eq_some.1 h
    exact .quitted
  | exiting =>
    obtain ⟨rfl, ⟨⟩⟩ := Option.ite_none_right_eq_some.1 h
    exact .exit
  | exited => cases h

end Session

end TakeADump
