import TakeADump.Session.Phase

/-!
# `main` is a session: the menu

`In q w`: the trace so far tells of a session in phase `q`, and the settings are those of the session. Each statement
of `main` moves the session to its next phase or ends it (`Over`); what only prints and waits stays in its phase
(`StaysIn`). The steps up to the choice of a drive are here, those after it in `Media.lean`.
-/

namespace TakeADump

namespace Session

/-! ## The phase of a world -/

/-- The session was left by `exit(0)`, or the user or the disc is waited for. -/
def Over (st : Stop) (w : World) : Prop :=
  ∃ q, read w.trace = some q ∧ (st = .exit 0 ∧ q = .exited ∨ st = .spin ∧ q.waits = true)

/-- The settings and the files. -/
def settings (w : World) : Bool × Int × Int × Int × List Stream :=
  (w.cancelOnError, w.driveType, w.driveFs, w.errorCount, w.streams)

/-- The session is in phase `q` and nothing was copied yet; a read error does what `stop` says. -/
structure In (q : Phase) (stop : Bool) (w : World) : Prop where
  read : read w.trace = some q
  stop : w.cancelOnError = stop
  errorCount : w.errorCount = 0
  streams : w.streams = []

/-- From `w` to `w'` the session stayed in phase `q`. -/
structure Stays (q : Phase) (w w' : World) : Prop where
  settings : settings w' = settings w
  trace : ∃ evs, w'.trace = w.trace ++ evs ∧ ∀ ev ∈ evs, q.step ev = some q

variable {q q' : Phase} {stop : Bool} {w w' w'' : World} {ev : Event}

theorem Stays.refl (w : World) : Stays q w w := ⟨rfl, [], by simp, by simp⟩

theorem Stays.trans (h : Stays q w w') (h' : Stays q w' w'') : Stays q w w'' := by
  obtain ⟨evs, htrace, hev⟩ := h.trace
  obtain ⟨evs', htrace', hev'⟩ := h'.trace
  refine ⟨h'.settings.trans h.settings, evs ++ evs', ?_, List.forall_mem_append.2 ⟨hev, hev'⟩⟩
  rw [htrace', htrace, List.append_assoc]

def staysFrame (q : Phase) : Imp.Frame World := ⟨Stays q, Stays.refl, Stays.trans⟩

/-- Every run of `x` stays in phase `q`; it returns or is still waiting. -/
abbrev StaysIn (q : Phase) {α : Type} (x : Prog α) : Prop := Imp.Within (staysFrame q) (· = Stop.spin) x

theorem read_log (h : read w.trace = some q) (hstep : q.step ev = some q') : read (w.log ev).trace = some q' := by
  rw [read, World.log, Monitor.run_snoc_of h, hstep]

theorem Stays.read (h : Stays q w w') (hread : Session.read w.trace = some q) : Session.read w'.trace = some q := by
  obtain ⟨evs, htrace, hev⟩ := h.trace
  rw [Session.read, htrace, Monitor.run_append_of hread, Monitor.run_stay hev]

theorem In.stays (h : In q stop w) (hs : Stays q w w') : In q stop w' := by
  have hset := hs.settings
  simp only [settings, Prod.mk.injEq] at hset
  obtain ⟨hstop, -, -, herrors, hstreams⟩ := hset
  exact ⟨hs.read h.read, hstop.trans h.stop, herrors.trans h.errorCount, hstreams.trans h.streams⟩

theorem In.log (h : In q stop w) (hstep : q.step ev = some q') : In q' stop (w.log ev) :=
  ⟨read_log h.read hstep, h.stop, h.errorCount, h.streams⟩

/-- Stopping while the session waits. -/
theorem over_of_waits (h : Session.read w.trace = some q) (hq : q.waits = true) (hs : Stays q w w') : Over .spin w' :=
  ⟨q, hs.read h, Or.inr ⟨rfl, hq⟩⟩

/-- A statement that stays in a waiting phase, continued from where it returns. -/
theorem In.next {α β : Type} {x : Prog α} {f : α → Prog β} {Q : β → World → Prop} (h : In q stop w)
    (hq : q.waits = true) (hx : StaysIn q x)
    (hf : ∀ a w', In q stop w' → settings w' = settings w → Imp.Ends (f a) w' Q Over) :
    Imp.Ends (x >>= f) w Q Over := by
  refine hx.then ?_ fun a w' hs => hf a w' (h.stays hs) hs.settings
  rintro st w' rfl hs
  exact over_of_waits h.read hq hs

theorem staysIn_emit (h : q.step ev = some q) : StaysIn q (emit ev) :=
  Imp.within_modify fun w => ⟨rfl, [ev], rfl, by simpa using h⟩

section Waits

variable (e : Env) (fuel : Nat)

/-! ## Waiting and leaving -/

theorem staysIn_wait (h : ∀ buttons, q.step (.sample buttons) = some q) (p : UInt32 → Bool) :
    StaysIn q (Imp.loop Stop.spin (Global.waitRound e p) fuel ()) := by
  have hsampled : ∀ (w : World) (n : Nat), Stays q w (w.sampled e n) := by
    intro w n
    refine ⟨rfl, _, rfl, fun ev hev => ?_⟩
    obtain ⟨k, -, rfl⟩ := List.mem_map.1 hev
    exact h _
  refine fun w => (ends_wait_sampled e p fuel w).mono ?_ ?_
  · rintro _ _ ⟨n, rfl, -⟩
    exact hsampled w _
  · rintro st _ ⟨hst, n, rfl, -⟩
    exact ⟨hst, hsampled w n⟩

theorem staysIn_confirm (h : ∀ buttons, q.step (.sample buttons) = some q) : StaysIn q (confirm e fuel) :=
  Imp.within_bind (staysIn_wait e fuel h _) fun _ => staysIn_wait e fuel h _

/-- `reset` ends the session. -/
theorem ends_reset {Q : Unit → World → Prop} (h : Session.read w.trace = some q)
    (hstep : q.step exitLine = some .exiting) : Imp.Ends (Global.reset 0) w Q Over := by
  rw [Imp.ends_of_error (run_reset 0 w)]
  exact ⟨.exited, read_log (read_log h hstep) rfl, Or.inl ⟨rfl, rfl⟩⟩

/-- A session that only waits to be left. -/
theorem ends_leave (h : Session.read w.trace = some .leaving) :
    Imp.Ends (Global.resetAfterPause e fuel) w (fun _ _ => False) Over := by
  have hsample : ∀ buttons, Phase.leaving.step (.sample buttons) = some .leaving := fun _ => rfl
  have hwait : ∀ {x : Prog Unit} {f : Unit → Prog Unit} {w : World}, StaysIn .leaving x →
      (∀ w', Session.read w'.trace = some .leaving → Imp.Ends (f ()) w' (fun _ _ => False) Over) →
      Session.read w.trace = some .leaving → Imp.Ends (x >>= f) w (fun _ _ => False) Over := by
    intro x f w hx hf h
    refine hx.then ?_ fun a w' hs => hf w' (hs.read h)
    rintro st w' rfl hs
    exact over_of_waits h rfl hs
  unfold Global.resetAfterPause Logger.print
  refine hwait (staysIn_emit (by rfl)) (fun w₁ => ?_) h
  refine hwait (staysIn_wait e fuel hsample _) fun w₂ => ?_
  refine hwait (staysIn_wait e fuel hsample _) fun w₃ => ?_
  refine hwait (staysIn_wait e fuel hsample _) fun w₄ h₄ => ?_
  exact ends_reset h₄ rfl

/-- An error line that is due ends the session. -/
theorem ends_error {code : Int} {fmt : String} {args : List Arg} {Q : Unit → World → Prop}
    (h : Session.read w.trace = some (.failing (.errorLine code fmt args))) :
    Imp.Ends (Logger.error e fuel code fmt args) w Q Over := by
  unfold Logger.error
  rw [ends_emit_bind]
  exact (ends_leave e fuel (read_log h (if_pos rfl))).mono (fun _ _ => False.elim) fun _ _ => id

end Waits

/-! ## The menu -/

section Menu

variable {e : Env} {fuel : Nat}

/-- A line of the menu. -/
theorem choose_print {shown : Bool} {fmt : String} (h : fmt ∈ menuLines) (args : List Arg) :
    (Phase.choosing shown).step (.print fmt args) = some (.choosing shown) := by
  have hexit : fmt ≠ "Exiting with code %02d..." := fun heq => absurd (heq ▸ h) (by decide)
  have hline : fmt ≠ toggleLine := fun heq => absurd (heq ▸ h) (by decide)
  simp [Phase.step, choose, exitLine, hexit, hline, h]

/-- The menu shows what a read error does. -/
theorem ends_menu {shown : Bool} (h : Session.read w.trace = some (.choosing shown)) : Imp.Ends menu w
    (fun _ w' => Session.read w'.trace = some (.choosing w.cancelOnError) ∧ settings w' = settings w)
    (fun _ _ => False) := by
  have hline : ∀ {ev : Event} {shown shown' : Bool} {w' : World} {f : Unit → Prog Unit} {Q : Unit → World → Prop},
      (Phase.choosing shown).step ev = some (.choosing shown') →
      (∀ w'', Session.read w''.trace = some (.choosing shown') → settings w'' = settings w →
        Imp.Ends (f ()) w'' Q fun _ _ => False) →
      Session.read w'.trace = some (.choosing shown) → settings w' = settings w →
      Imp.Ends (emit ev >>= f) w' Q fun _ _ => False := by
    intro ev shown shown' w' f Q hstep hf hread hset
    rw [ends_emit_bind]
    exact hf _ (read_log hread hstep) hset
  have htoggle : ∀ stop : Bool, (Phase.choosing shown).step (.print toggleLine [.text (if stop then "ON" else "OFF")]) =
      some (.choosing stop) := by
    intro stop
    cases stop <;> rfl
  unfold menu Logger.print
  rw [Imp.ends_bind, Imp.ends_get]
  refine hline (choose_print (by decide) _) (fun w₁ => ?_) h rfl
  refine hline (choose_print (by decide) _) fun w₂ => ?_
  refine hline (htoggle w.cancelOnError) fun w₃ => ?_
  refine hline (choose_print (by decide) _) fun w₄ => ?_
  refine hline (choose_print (by decide) _) fun w₅ h₅ hset₅ => ?_
  exact ⟨read_log h₅ (choose_print (by decide) _), hset₅⟩

/-- In the menu, which shows the setting. -/
structure Shown (w : World) : Prop extends In (.choosing w.cancelOnError) w.cancelOnError w where
  fs : w.driveFs = fsFat32

theorem Shown.of_settings {w' : World} (h : Shown w) (hset : settings w' = settings w)
    (hread : Session.read w'.trace = some (.choosing w'.cancelOnError)) : Shown w' := by
  simp only [settings, Prod.mk.injEq] at hset
  obtain ⟨hstop, -, hfs, herrors, hstreams⟩ := hset
  exact ⟨⟨hread, rfl, herrors.trans h.errorCount, hstreams.trans h.streams⟩, hfs.trans h.fs⟩

theorem Shown.stays {w' : World} (h : Shown w) (hs : Stays (.choosing w.cancelOnError) w w') : Shown w' := by
  have hset := hs.settings
  refine h.of_settings hset ?_
  rw [show w'.cancelOnError = w.cancelOnError from congrArg Prod.fst hset]
  exact hs.read h.read

/-- The menu is printed again. -/
theorem ends_reprint {shown : Bool} {w : World} (hread : Session.read w.trace = some (.choosing shown))
    (hfs : w.driveFs = fsFat32) (herrors : w.errorCount = 0) (hstreams : w.streams = []) :
    Imp.Ends (do menu; Logger.newline; pure false : Prog Bool) w (fun left w' => Shown w' ∧ left = false) Over := by
  rw [Imp.ends_bind]
  refine (ends_menu hread).mono ?_ (fun _ _ => False.elim)
  rintro _ w' ⟨hread', hset⟩
  simp only [settings, Prod.mk.injEq] at hset
  obtain ⟨hstop, -, hfs', herrors', hstreams'⟩ := hset
  unfold Logger.newline
  rw [ends_emit_bind, Imp.ends_pure]
  refine ⟨⟨⟨?_, rfl, herrors'.trans herrors, hstreams'.trans hstreams⟩, hfs'.trans hfs⟩, rfl⟩
  show Session.read (w'.log .newline).trace = some (.choosing w'.cancelOnError)
  rw [hstop]
  exact read_log hread' rfl

/-- The menu was left with a drive. -/
structure Left (w : World) : Prop extends Shown w where
  drive : w.driveType = driveUsb ∨ w.driveType = driveSd

/-- What a sample does in the menu. -/
theorem ends_menuAction (buttons : UInt32) {w : World} (h : Shown w) : Imp.Ends (menuAction buttons) w
    (fun left w' => Shown w' ∧ (left = true → Left w')) Over := by
  have hstay : ∀ {x : Prog Bool} {w : World}, Imp.Ends x w (fun left w' => Shown w' ∧ left = false) Over →
      Imp.Ends x w (fun left w' => Shown w' ∧ (left = true → Left w')) Over :=
    fun hx => hx.mono (fun _ _ h' => ⟨h'.1, fun ht => by simp [h'.2] at ht⟩) fun _ _ => id
  unfold menuAction
  split_ifs with hA hB h1 h2 hminus hplus
  · -- A: the setting changes, and the menu shows it
    unfold Global.setCancelOnError
    rw [Imp.ends_bind, Imp.ends_get, Imp.ends_bind, Imp.ends_modify]
    exact hstay (ends_reprint h.read h.fs h.errorCount h.streams)
  · -- B: without NTFS the filesystem stays
    rw [Imp.ends_bind, Imp.ends_modify]
    exact hstay (ends_reprint h.read rfl h.errorCount h.streams)
  · rw [Imp.ends_bind, Imp.ends_modify]
    have h' : Shown { w with driveType := driveUsb } := ⟨⟨h.read, rfl, h.errorCount, h.streams⟩, h.fs⟩
    exact ⟨h', fun _ => ⟨h', Or.inl rfl⟩⟩
  · rw [Imp.ends_bind, Imp.ends_modify]
    have h' : Shown { w with driveType := driveSd } := ⟨⟨h.read, rfl, h.errorCount, h.streams⟩, h.fs⟩
    exact ⟨h', fun _ => ⟨h', Or.inr rfl⟩⟩
  · exact hstay (ends_reprint h.read h.fs h.errorCount h.streams)
  · rw [Imp.ends_bind]
    exact ends_reset h.read rfl
  · exact ⟨h, by simp⟩

theorem ends_menuRound (u : Unit) {w : World} (h : Shown w) : Imp.Ends (menuRound e fuel u) w
    (fun r w' => match r with
      | .next _ => Shown w'
      | .done _ => Left w') Over := by
  have hsample : Stays (.choosing w.cancelOnError) w
      { w.log (.sample (e.pad w.samples)) with samples := w.samples + 1 } :=
    ⟨rfl, [.sample (e.pad w.samples)], rfl, by simp [Phase.step, choose]⟩
  unfold menuRound
  rw [Imp.ends_bind, Imp.ends_of_ok (run_getControllerButtonsPressed e w), Imp.ends_bind]
  refine (ends_menuAction (e.pad w.samples) (h.stays hsample)).mono ?_ (fun _ _ => id)
  rintro left w' ⟨h', hleft⟩
  cases left with
  | true => exact hleft rfl
  | false =>
    by_cases hzero : e.pad w.samples ≠ 0
    · simp only [Bool.false_eq_true, if_false, if_pos hzero]
      refine (staysIn_wait e fuel (fun _ => rfl) _).then ?_ fun _ w'' hs => h'.stays hs
      rintro st w'' rfl hs
      exact over_of_waits h'.read rfl hs
    · simp only [Bool.false_eq_true, if_false, if_neg hzero]
      exact h'

/-- **The menu.** -/
theorem ends_menuLoop {w : World} (h : Shown w) : Imp.Ends (menuLoop e fuel) w
    (fun _ w' => ∃ stop, In (.mounting stop (interfaceOf w'.driveType)) stop w' ∧ w'.driveFs = fsFat32 ∧
      (w'.driveType = driveUsb ∨ w'.driveType = driveSd)) Over := by
  unfold menuLoop
  rw [Imp.ends_bind]
  refine (Imp.ends_loop (I := fun _ w' => Shown w') (Q := fun _ w' => Left w') ?_
    (fun _ w' h' => over_of_waits h'.read rfl (Stays.refl w')) fuel h).mono ?_ (fun _ _ => id)
  · intro u w' h'
    exact (ends_menuRound u h').mono (fun r _ h'' => by cases r <;> exact h'') (fun _ _ => id)
  · intro _ w' h'
    unfold enter emit
    rw [Imp.ends_bind, Imp.ends_get, Imp.ends_modify]
    exact ⟨w'.cancelOnError, h'.toIn.log (if_pos ⟨h'.fs, h'.drive⟩), h'.fs, h'.drive⟩

/-- **The welcome.** -/
theorem ends_welcome {w : World} (hw : w.Initial) : Imp.Ends (welcome e fuel) w (fun _ w' => Shown w') Over := by
  have h : In (.choosing true) true w := ⟨by rw [hw.trace]; rfl, hw.cancelOnError, hw.errorCount, hw.streams⟩
  have hline : ∀ {fmt : String} {args : List Arg}, fmt ∈ menuLines →
      StaysIn (.choosing true) (emit (.print fmt args)) := fun hmem => staysIn_emit (choose_print hmem _)
  have hnewline : StaysIn (.choosing true) (emit .newline) := staysIn_emit rfl
  unfold welcome Logger.print Logger.newline
  refine h.next rfl (hline (by decide)) fun _ w₁ h₁ hs₁ => ?_
  refine h₁.next rfl (hline (by decide)) fun _ w₂ h₂ hs₂ => ?_
  refine h₂.next rfl hnewline fun _ w₃ h₃ hs₃ => ?_
  refine h₃.next rfl (hline (by decide)) fun _ w₄ h₄ hs₄ => ?_
  refine h₄.next rfl (hline (by decide)) fun _ w₅ h₅ hs₅ => ?_
  refine h₅.next rfl hnewline fun _ w₆ h₆ hs₆ => ?_
  refine h₆.next rfl (staysIn_confirm e fuel fun _ => rfl) fun _ w₇ h₇ hs₇ => ?_
  have hset : settings w₇ = settings w :=
    hs₇.trans (hs₆.trans (hs₅.trans (hs₄.trans (hs₃.trans (hs₂.trans hs₁)))))
  have hfs : w₇.driveFs = fsFat32 := (congrArg (fun s => s.2.2.1) hset).trans hw.driveFs
  have hreprint := ends_reprint h₇.read hfs h₇.errorCount h₇.streams
  simp only [Imp.ends_bind, Imp.ends_pure] at hreprint ⊢
  exact hreprint.mono (fun _ _ h' => h'.mono (fun _ _ h'' => h''.1) fun _ _ => id) fun _ _ => id

end Menu

end Session

end TakeADump
