import TakeADump.Setup.Menu

/-!
# One press for each prompt

Four prompts of `main` ask for A. Which sample confirms which prompt is read off the trace (`Scan`): the first sample
with A behind the prompt's line. Each prompt waits for the release before `main` goes on, so the confirmations belong
to different presses, in the order of the prompts (`Answered`), and A held through one prompt does not confirm the
next.
-/

namespace TakeADump

/-! ## Reading the confirmations off the trace -/

/-- The lines of `main` that ask for A. -/
def prompts : List String :=
  ["Press A to continue.", "Insert your %s %s now, and press A.", "Insert your %s now, and press A.",
    "Press A to start dumping."]

/-- A trace read up to some event: the number of samples, the prompt that is not confirmed yet, and the confirmations,
each a prompt and the sample with A that confirmed it. -/
structure Scan where
  samples : Nat
  prompt : Option String
  confirmed : List (String × Nat)

def Scan.next (s : Scan) : Event → Scan
  | .print fmt _ => if fmt ∈ prompts then { s with prompt := some fmt } else s
  | .sample buttons =>
    if buttons &&& wpadButtonA ≠ 0 then
      ⟨s.samples + 1, none, s.confirmed ++ (s.prompt.map fun fmt => (fmt, s.samples)).toList⟩
    else
      { s with samples := s.samples + 1 }
  | _ => s

/-- A trace whose first sample is sample `n`. -/
def scan (n : Nat) (evs : List Event) : Scan := evs.foldl Scan.next ⟨n, none, []⟩

/-- The line asks for A. -/
def Event.asks : Event → Bool
  | .print fmt _ => fmt ∈ prompts
  | _ => false

def Event.isSample : Event → Bool
  | .sample _ => true
  | _ => false

theorem scan_append (n : Nat) (evs evs' : List Event) :
    scan n (evs ++ evs') = evs'.foldl Scan.next (scan n evs) := List.foldl_append

theorem next_of_not {ev : Event} (hasks : ev.asks = false) (hsample : ev.isSample = false) (s : Scan) :
    s.next ev = s := by
  cases ev with
  | print fmt args =>
    have hnot : fmt ∉ prompts := by simpa [Event.asks] using hasks
    simp [Scan.next, hnot]
  | sample buttons => simp [Event.isSample] at hsample
  | _ => rfl

/-- Where nothing is asked, nothing is confirmed. -/
theorem foldl_next_unasked {evs : List Event} (h : ∀ ev ∈ evs, ev.asks = false) (n : Nat) (cs : List (String × Nat)) :
    evs.foldl Scan.next ⟨n, none, cs⟩ = ⟨n + evs.countP Event.isSample, none, cs⟩ := by
  induction evs generalizing n with
  | nil => rfl
  | cons ev evs ih =>
    have hevs := fun x hx => h x (List.mem_cons_of_mem ev hx)
    rw [List.foldl_cons, List.countP_cons]
    cases hsample : ev.isSample with
    | false =>
      rw [next_of_not (h ev List.mem_cons_self) hsample, ih hevs]
      simp
    | true =>
      obtain ⟨buttons, rfl⟩ : ∃ buttons, ev = .sample buttons := by
        cases ev <;> first | exact ⟨_, rfl⟩ | cases hsample
      have hnext : Scan.next ⟨n, none, cs⟩ (.sample buttons) = ⟨n + 1, none, cs⟩ := by simp [Scan.next]
      rw [hnext, ih hevs]
      simp only [if_true, Scan.mk.injEq, and_true]
      omega

section Samples

variable {e : Env} {m n i : Nat} {fmt : String} {cs : List (String × Nat)}

theorem asks_of_mem_samples {a l : Nat} {ev : Event} (h : ev ∈ (List.range' a l).map e.sampleAt) :
    ev.asks = false := by
  obtain ⟨k, -, rfl⟩ := List.mem_map.1 h
  rfl

theorem countP_samples (a l : Nat) : ((List.range' a l).map e.sampleAt).countP Event.isSample = l := by
  rw [List.countP_eq_length.2, List.length_map, List.length_range']
  intro ev hev
  obtain ⟨k, -, rfl⟩ := List.mem_map.1 hev
  rfl

/-- Samples without A confirm nothing. -/
theorem foldl_next_samples {prompt : Option String} (hmn : m ≤ n) (h : ∀ k, m ≤ k → k < n → e.heldA k = false) :
    ((List.range' m (n - m)).map e.sampleAt).foldl Scan.next ⟨m, prompt, cs⟩ = ⟨n, prompt, cs⟩ := by
  induction hmn with
  | refl => simp
  | @step n hmn ih =>
    have hA : ¬ e.pad n &&& wpadButtonA ≠ 0 := by simpa [Env.heldA] using h n hmn (Nat.lt_succ_self n)
    rw [Press.range'_split hmn (Nat.le_succ n), List.map_append, List.foldl_append,
      ih fun k hmk hkn => h k hmk (Nat.lt_succ_of_lt hkn)]
    simp [Env.sampleAt, Scan.next, not_not.1 hA]

/-- The first sample with A confirms the prompt. -/
theorem foldl_next_confirm (hmi : m ≤ i) (hin : i < n) (hA : e.heldA i = true)
    (hbefore : ∀ k, m ≤ k → k < i → e.heldA k = false) :
    ((List.range' m (n - m)).map e.sampleAt).foldl Scan.next ⟨m, some fmt, cs⟩ = ⟨n, none, cs ++ [(fmt, i)]⟩ := by
  have hpad : e.pad i &&& wpadButtonA ≠ 0 := by simpa [Env.heldA] using hA
  have hone : (List.range' i (i + 1 - i)).map e.sampleAt = [.sample (e.pad i)] := by simp [Env.sampleAt]
  rw [Press.range'_split hmi hin.le, List.map_append, List.foldl_append, foldl_next_samples hmi hbefore,
    Press.range'_split (Nat.le_succ i) hin, List.map_append, List.foldl_append, hone]
  simp only [List.foldl_cons, List.foldl_nil, Scan.next, if_pos hpad, Option.map_some, Option.toList_some]
  rw [foldl_next_unasked fun ev => asks_of_mem_samples, countP_samples]
  simp only [Scan.mk.injEq, and_true]
  omega

end Samples

/-! ## What asks for nothing -/

/-- From `w` to `w'` nothing is asked, and every sample taken is in the trace. -/
def Unasked (w w' : World) : Prop :=
  ∃ evs, w'.trace = w.trace ++ evs ∧ (∀ ev ∈ evs, ev.asks = false) ∧
    w'.samples = w.samples + evs.countP Event.isSample

theorem Unasked.refl (w : World) : Unasked w w := ⟨[], by simp, by simp, rfl⟩

theorem Unasked.trans {w₁ w₂ w₃ : World} (h : Unasked w₁ w₂) (h' : Unasked w₂ w₃) : Unasked w₁ w₃ := by
  obtain ⟨evs, htrace, hasks, hsamples⟩ := h
  obtain ⟨evs', htrace', hasks', hsamples'⟩ := h'
  refine ⟨evs ++ evs', ?_, List.forall_mem_append.2 ⟨hasks, hasks'⟩, ?_⟩
  · rw [htrace', htrace, List.append_assoc]
  · rw [hsamples', hsamples, List.countP_append]
    omega

def unaskedFrame : Imp.Frame World := ⟨Unasked, Unasked.refl, Unasked.trans⟩

/-- Every run of `x` asks for nothing. -/
abbrev AsksNothing {α : Type} (x : Prog α) : Prop := Imp.Within unaskedFrame (fun _ => True) x

section AsksNothing

theorem unasked_log {ev : Event} (w : World) (hasks : ev.asks = false) (hsample : ev.isSample = false) :
    Unasked w (w.log ev) := by
  refine ⟨[ev], rfl, ?_, ?_⟩
  · simpa using hasks
  · simp [World.log, hsample]

theorem asksNothing_emit {ev : Event} (hasks : ev.asks = false) (hsample : ev.isSample = false) :
    AsksNothing (emit ev) := Imp.within_modify fun w => unasked_log w hasks hsample

theorem asksNothing_print {fmt : String} (h : fmt ∉ prompts) (args : List Arg) : AsksNothing (Logger.print fmt args) :=
  asksNothing_emit (by simpa [Event.asks] using h) rfl

/-- What leaves the trace and the samples alone. -/
theorem asksNothing_modify {f : World → World} (htrace : ∀ w, (f w).trace = w.trace)
    (hsamples : ∀ w, (f w).samples = w.samples) : AsksNothing (modify f) :=
  Imp.within_modify fun w => ⟨[], by simp [htrace], by simp, by simp [hsamples]⟩

theorem asksNothing_throw {α : Type} (st : Stop) : AsksNothing (throw st : Prog α) :=
  fun w => ⟨trivial, Unasked.refl w⟩

variable (e : Env)

theorem unasked_sampled {w : World} {n : Nat} (hn : w.samples ≤ n) : Unasked w (w.sampled e n) := by
  refine ⟨_, rfl, fun ev => asks_of_mem_samples, ?_⟩
  rw [countP_samples, samples_sampled]
  omega

theorem asksNothing_sample : AsksNothing (Global.getControllerButtonsPressed e) :=
  fun w => (Imp.ends_of_ok (run_sample e w)).2 (unasked_sampled e (Nat.le_succ _))

theorem asksNothing_wait (p : UInt32 → Bool) (fuel : Nat) :
    AsksNothing (Imp.loop Stop.spin (Global.waitRound e p) fuel ()) := by
  refine Imp.within_loop trivial (fun _ => ?_) fuel ()
  refine Imp.within_bind (asksNothing_sample e) fun buttons => ?_
  exact Imp.within_ite (fun _ => Imp.within_pure _) fun _ => Imp.within_pure _

theorem asksNothing_reset (code : Int) : AsksNothing (Global.reset code) := by
  unfold Global.reset Global.exit
  refine Imp.within_bind (asksNothing_print (by decide) _) fun _ => ?_
  exact Imp.within_bind (asksNothing_emit rfl rfl) fun _ => asksNothing_throw _

theorem asksNothing_error (fuel : Nat) (code : Int) (fmt : String) (args : List Arg) :
    AsksNothing (Logger.error e fuel code fmt args) := by
  unfold Logger.error Global.resetAfterPause
  refine Imp.within_bind (asksNothing_emit rfl rfl) fun _ => ?_
  refine Imp.within_bind (asksNothing_print (by decide) _) fun _ => ?_
  iterate 3 refine Imp.within_bind (asksNothing_wait e _ fuel) fun _ => ?_
  exact asksNothing_reset 0

theorem asksNothing_menu : AsksNothing menu := by
  refine Imp.within_get_bind fun w => ?_
  iterate 5 refine Imp.within_bind (asksNothing_print (by decide) _) fun _ => ?_
  exact asksNothing_print (by decide) _

theorem asksNothing_reprint : AsksNothing (do menu; Logger.newline; pure false : Prog Bool) :=
  Imp.within_bind asksNothing_menu fun _ =>
    Imp.within_bind (asksNothing_emit rfl rfl) fun _ => Imp.within_pure _

theorem asksNothing_menuAction (buttons : UInt32) : AsksNothing (menuAction buttons) := by
  unfold menuAction Global.setCancelOnError
  refine Imp.within_ite (fun _ => ?_) fun _ => Imp.within_ite (fun _ => ?_) fun _ => Imp.within_ite (fun _ => ?_)
    fun _ => Imp.within_ite (fun _ => ?_) fun _ => Imp.within_ite (fun _ => ?_) fun _ =>
    Imp.within_ite (fun _ => ?_) fun _ => Imp.within_pure _
  · refine Imp.within_get_bind fun w => Imp.within_bind ?_ fun _ => asksNothing_reprint
    exact asksNothing_modify (fun _ => rfl) fun _ => rfl
  · exact Imp.within_bind (asksNothing_modify (fun _ => rfl) fun _ => rfl) fun _ => asksNothing_reprint
  · exact Imp.within_bind (asksNothing_modify (fun _ => rfl) fun _ => rfl) fun _ => Imp.within_pure _
  · exact Imp.within_bind (asksNothing_modify (fun _ => rfl) fun _ => rfl) fun _ => Imp.within_pure _
  · exact asksNothing_reprint
  · exact Imp.within_bind (asksNothing_reset 0) fun _ => Imp.within_pure _

theorem asksNothing_menuLoop (fuel : Nat) : AsksNothing (menuLoop e fuel) := by
  unfold menuLoop enter
  refine Imp.within_bind (Imp.within_loop trivial (fun _ => ?_) fuel ()) fun _ =>
    Imp.within_get_bind fun w => asksNothing_emit rfl rfl
  refine Imp.within_bind (asksNothing_sample e) fun buttons => ?_
  refine Imp.within_bind (asksNothing_menuAction buttons) fun left => ?_
  refine Imp.within_ite (fun _ => Imp.within_pure _) fun _ => Imp.within_ite (fun _ => ?_) fun _ => Imp.within_pure _
  exact Imp.within_bind (asksNothing_wait e _ fuel) fun _ => Imp.within_pure _

theorem asksNothing_mountRetOf (fuel : Nat) (res : MountResult) : AsksNothing (mountRetOf e fuel res) := by
  unfold mountRetOf
  cases res with
  | returned ok => exact Imp.within_pure _
  | exception what => exact Imp.within_bind (asksNothing_error e fuel _ _ _) fun _ => Imp.within_pure _
  | unknownException => exact Imp.within_bind (asksNothing_error e fuel _ _ _) fun _ => Imp.within_pure _

theorem asksNothing_mountDrive (fuel : Nat) : AsksNothing (mountDrive e fuel) := by
  have hmount : ∀ iface, AsksNothing (do mountRetOf e fuel (← fatMountSimple e iface)) := by
    intro iface
    refine Imp.within_bind ?_ fun res => asksNothing_mountRetOf e fuel res
    exact Imp.within_bind (asksNothing_emit rfl rfl) fun _ => Imp.within_pure _
  unfold mountDrive mountFat32 tryMount
  refine Imp.within_get_bind fun w => Imp.within_ite (fun _ => ?_) fun _ =>
    Imp.within_ite (fun _ => asksNothing_error e fuel _ _ _) fun _ => asksNothing_error e fuel _ _ _
  refine Imp.within_bind (Imp.within_get_bind fun w => ?_) fun ret =>
    Imp.within_ite (fun _ => asksNothing_error e fuel _ _ _) fun _ => Imp.within_pure _
  refine Imp.within_ite (fun _ => hmount .wiisd) fun _ => Imp.within_ite (fun _ => hmount .usbstorage) fun _ => ?_
  exact Imp.within_bind (asksNothing_error e fuel _ _ _) fun _ => Imp.within_pure _

/-- What only talks to the drive asks for nothing. -/
theorem Drives.unasked {p : Event → Bool} {w w' : World} (h : Drives p w w')
    (hp : ∀ ev, p ev = true → ev.asks = false ∧ ev.isSample = false) : Unasked w w' := by
  obtain ⟨evs, htrace, hev⟩ := h.trace
  have hcount : evs.countP Event.isSample = 0 := List.countP_eq_zero.2 fun ev hmem => by simp [(hp ev (hev ev hmem)).2]
  exact ⟨evs, htrace, fun ev hmem => (hp ev (hev ev hmem)).1, by
    rw [hcount, h.keeps World.samples fun _ => rfl, Nat.add_zero]⟩

theorem asksNothing_initializeDisk (fuel : Nat) : AsksNothing (initializeDisk e fuel) := by
  refine (driveOnly_initializeDisk e fuel).mono (fun h => h.unasked ?_) fun _ _ => trivial
  rintro (⟨fmt, args⟩ | _) hev <;> simp_all [Event.finding, Event.asks, Event.isSample, prompts]

theorem asksNothing_identifyDisk (disk : Option Region) : AsksNothing (identifyDisk e disk) := by
  cases disk with
  | none =>
    intro w
    have hrun : (identifyDisk e none).run w = .error .fault w := rfl
    exact (Imp.ends_of_error hrun).2 ⟨trivial, Unasked.refl w⟩
  | some d =>
    intro w
    refine (ends_identifyDisk_drives e d w).mono (fun _ w' h => h.unasked ?_) fun _ _ => False.elim
    rintro (_ | _) hev <;> simp_all [Event.reading, Event.asks, Event.isSample]

end AsksNothing

/-! ## The confirmations -/

/-- The confirmations `cs` are those of the prompts `names`, in this order, each by A and each by a later press. -/
structure Answered (e : Env) (names : List String) (cs : List (String × Nat)) : Prop where
  names : cs.map Prod.fst = names
  pressed : ∀ c ∈ cs, e.heldA c.2 = true
  presses : (cs.map fun c => Press.first e.held c.2).Pairwise (· < ·)

/-- The first `k` prompts are confirmed and released; `prompt` waits. `n` is the first sample of the run. -/
structure Asked (e : Env) (n : Nat) (prompt : Option String) (k : Nat) (w : World) : Prop where
  confirmed : ∃ cs, scan n w.trace = ⟨w.samples, prompt, cs⟩ ∧ Answered e (prompts.take k) cs ∧
    ∀ c ∈ cs, ∃ z, c.2 < z ∧ z < w.samples ∧ e.held z = false

/-- Where a run stops, some of the prompts are confirmed. -/
def PartlyAnswered (e : Env) (n : Nat) (w : World) : Prop :=
  ∃ names, names <+: prompts ∧ Answered e names (scan n w.trace).confirmed

section Confirm

variable {e : Env} {fuel n k i : Nat} {prompt : Option String} {fmt : String} {w w' : World}
  {cs : List (String × Nat)}

/-- A sample behind the releases of all confirmations confirms by a later press. -/
theorem Answered.snoc {names : List String} (h : Answered e names cs) (hA : e.heldA i = true)
    (hreleased : ∀ c ∈ cs, ∃ z, c.2 < z ∧ z < i ∧ e.held z = false) :
    Answered e (names ++ [fmt]) (cs ++ [(fmt, i)]) where
  names := by simp [h.names]
  pressed := by
    intro c hc
    rcases List.mem_append.1 hc with hc | hc
    · exact h.pressed c hc
    · obtain rfl : c = (fmt, i) := by simpa using hc
      exact hA
  presses := by
    rw [List.map_append, List.pairwise_append]
    refine ⟨h.presses, by simp, fun a ha b hb => ?_⟩
    obtain ⟨c, hc, rfl⟩ := List.mem_map.1 ha
    obtain rfl : b = Press.first e.held i := by simpa using hb
    obtain ⟨z, hcz, hzi, hz⟩ := hreleased c hc
    calc Press.first e.held c.2 ≤ c.2 := Press.first_le c.2
      _ < z := hcz
      _ < Press.first e.held i := Press.lt_first hz hzi

/-- Between two confirmations all buttons were released. -/
theorem Answered.released {names : List String} (h : Answered e names cs) :
    cs.Pairwise fun c c' => ∃ z, c.2 < z ∧ z < c'.2 ∧ e.held z = false := by
  refine (List.pairwise_map.1 h.presses).imp_of_mem fun {c c'} hc _ hlt => ?_
  have hA := h.pressed c hc
  obtain ⟨z, hcz, hzc, hz⟩ := Press.exists_release hlt
  rcases Nat.lt_or_eq_of_le hcz with hcz | rfl
  · exact ⟨z, hcz, hzc, hz⟩
  · have hpad : e.pad c.2 = 0 := by simpa [Env.held] using hz
    simp [Env.heldA, hpad] at hA

theorem Asked.stopped (h : Asked e n prompt k w) : PartlyAnswered e n w := by
  obtain ⟨cs, hscan, hanswered, -⟩ := h.confirmed
  exact ⟨_, List.take_prefix k prompts, by rw [hscan]; exact hanswered⟩

/-- What asks for nothing leaves the confirmations alone. -/
theorem Asked.unasked (h : Asked e n none k w) (hu : Unasked w w') : Asked e n none k w' := by
  obtain ⟨cs, hscan, hanswered, hreleased⟩ := h.confirmed
  obtain ⟨evs, htrace, hasks, hsamples⟩ := hu
  refine ⟨cs, ?_, hanswered, fun c hc => ?_⟩
  · rw [htrace, scan_append, hscan, foldl_next_unasked hasks, hsamples]
  · obtain ⟨z, hcz, hzw, hz⟩ := hreleased c hc
    exact ⟨z, hcz, by omega, hz⟩

/-- A line between a prompt and its confirmation. -/
theorem Asked.line (h : Asked e n prompt k w) (ev : Event) (hasks : ev.asks = false) (hsample : ev.isSample = false) :
    Asked e n prompt k (w.log ev) := by
  obtain ⟨cs, hscan, hanswered, hreleased⟩ := h.confirmed
  refine ⟨cs, ?_, hanswered, hreleased⟩
  rw [World.log, scan_append, List.foldl_cons, List.foldl_nil, next_of_not hasks hsample, hscan]

/-- The line of a prompt. -/
theorem Asked.ask (h : Asked e n none k w) (fmt : String) (args : List Arg) (hfmt : fmt ∈ prompts) :
    Asked e n (some fmt) k (w.log (.print fmt args)) := by
  obtain ⟨cs, hscan, hanswered, hreleased⟩ := h.confirmed
  refine ⟨cs, ?_, hanswered, hreleased⟩
  rw [World.log, scan_append, hscan, List.foldl_cons, List.foldl_nil, Scan.next, if_pos hfmt]

/-- **One prompt.** Its confirmation belongs to a later press than those before it. -/
theorem Asked.ends_confirm (h : Asked e n (some fmt) k w) (hfmt : prompts[k]? = some fmt) :
    Imp.Ends (confirm e fuel) w (fun _ w' => Asked e n none (k + 1) w') (fun _ w' => PartlyAnswered e n w') := by
  obtain ⟨cs, hscan, hanswered, hreleased⟩ := h.confirmed
  have htake : prompts.take (k + 1) = prompts.take k ++ [fmt] := by simp [List.take_add_one, hfmt]
  have hafter : ∀ i, w.samples ≤ i → ∀ c ∈ cs, ∃ z, c.2 < z ∧ z < i ∧ e.held z = false := by
    intro i hi c hc
    obtain ⟨z, hcz, hzw, hz⟩ := hreleased c hc
    exact ⟨z, hcz, by omega, hz⟩
  have hconfirmed : ∀ i m, w.samples ≤ i → i < m → e.heldA i = true →
      (∀ j, w.samples ≤ j → j < i → e.heldA j = false) →
      scan n (w.sampled e m).trace = ⟨m, none, cs ++ [(fmt, i)]⟩ ∧
        Answered e (prompts.take (k + 1)) (cs ++ [(fmt, i)]) := by
    intro i m hi him hA hbefore
    refine ⟨?_, htake ▸ hanswered.snoc hA (hafter i hi)⟩
    rw [trace_sampled, scan_append, hscan, foldl_next_confirm hi him hA hbefore]
  refine (ends_confirm_sampled e fuel w).mono ?_ ?_
  · rintro _ _ ⟨i, z, rfl, hi, hiz, hA, hbefore, hz⟩
    obtain ⟨hscan', hanswered'⟩ := hconfirmed i (z + 1) hi (by omega) hA hbefore
    refine ⟨_, hscan', hanswered', fun c hc => ?_⟩
    rcases List.mem_append.1 hc with hc | hc
    · obtain ⟨z', hcz, hzi, hz'⟩ := hafter i hi c hc
      exact ⟨z', hcz, by rw [samples_sampled]; omega, hz'⟩
    · obtain rfl : c = (fmt, i) := by simpa using hc
      exact ⟨z, hiz, Nat.lt_succ_self z, hz⟩
  · rintro st _ ⟨-, m, rfl, hm, hnone | ⟨i, hi, him, hA, hbefore⟩⟩
    · have hscan' : scan n (w.sampled e m).trace = ⟨m, some fmt, cs⟩ := by
        rw [trace_sampled, scan_append, hscan, foldl_next_samples hm hnone]
      exact ⟨_, List.take_prefix k prompts, by rw [hscan']; exact hanswered⟩
    · obtain ⟨hscan', hanswered'⟩ := hconfirmed i m hi him hA hbefore
      exact ⟨_, List.take_prefix (k + 1) prompts, by rw [hscan']; exact hanswered'⟩

/-- A statement that asks for nothing, continued from where it returns. -/
theorem Asked.next {α β : Type} {x : Prog α} {f : α → Prog β} {Q : β → World → Prop} (h : Asked e n none k w)
    (hx : AsksNothing x) (hf : ∀ a w', Asked e n none k w' → Imp.Ends (f a) w' Q (fun _ w' => PartlyAnswered e n w')) :
    Imp.Ends (x >>= f) w Q (fun _ w' => PartlyAnswered e n w') :=
  hx.then (fun _ _ _ hu => (h.unasked hu).stopped) fun a w' hu => hf a w' (h.unasked hu)

/-- The last statement of a step asks for nothing. -/
theorem Asked.last {α : Type} {x : Prog α} (h : Asked e n none k w) (hx : AsksNothing x) :
    Imp.Ends x w (fun _ w' => Asked e n none k w') (fun _ w' => PartlyAnswered e n w') :=
  (hx w).mono (fun _ _ hu => h.unasked hu) fun _ _ hu => (h.unasked hu.2).stopped

end Confirm

/-! ## The program -/

section Program

variable {e : Env} {fuel n : Nat} {w : World}

theorem Asked.ends_welcome (h : Asked e n none 0 w) : Imp.Ends (welcome e fuel) w
    (fun _ w' => Asked e n none 1 w') (fun _ w' => PartlyAnswered e n w') := by
  unfold welcome
  refine h.next (asksNothing_print (by decide) _) fun _ w₁ h₁ => ?_
  refine h₁.next (asksNothing_print (by decide) _) fun _ w₂ h₂ => ?_
  refine h₂.next (asksNothing_emit rfl rfl) fun _ w₃ h₃ => ?_
  unfold Logger.print Logger.newline
  iterate 3 rw [ends_emit_bind]
  have hask := h₃.ask "Press A to continue." [] (by decide)
  have hlines := (hask.line (.print "Press Reset to exit any time." []) (by decide) rfl).line .newline rfl rfl
  rw [Imp.ends_bind]
  refine (hlines.ends_confirm rfl).mono (fun _ w₄ h₄ => ?_) (fun _ _ => id)
  exact h₄.next asksNothing_menu fun _ w₅ h₅ => h₅.last (asksNothing_emit rfl rfl)

theorem Asked.ends_insertDrive (h : Asked e n none 1 w) : Imp.Ends (insertDrive e fuel) w
    (fun _ w' => Asked e n none 2 w') (fun _ w' => PartlyAnswered e n w') := by
  unfold insertDrive Logger.print
  rw [Imp.ends_bind, Imp.ends_get, ends_emit_bind, Imp.ends_bind]
  refine ((h.ask _ _ (by decide)).ends_confirm rfl).mono (fun _ w₁ h₁ => ?_) (fun _ _ => id)
  exact h₁.next (asksNothing_mountDrive e fuel) fun _ w₂ h₂ => h₂.last (asksNothing_emit rfl rfl)

theorem Asked.ends_insertDisk (h : Asked e n none 2 w) : Imp.Ends (insertDisk e fuel) w
    (fun _ w' => Asked e n none 3 w') (fun _ w' => PartlyAnswered e n w') := by
  unfold insertDisk Logger.print
  rw [ends_emit_bind, Imp.ends_bind]
  refine ((h.ask _ _ (by decide)).ends_confirm rfl).mono (fun _ w₁ h₁ => ?_) (fun _ _ => id)
  refine h₁.next (asksNothing_initializeDisk e fuel) fun ret w₂ h₂ => ?_
  refine h₂.next (asksNothing_emit rfl rfl) fun _ w₃ h₃ => h₃.last ?_
  exact Imp.within_ite (fun _ => asksNothing_error e fuel _ _ _) fun _ => Imp.within_pure _

theorem Asked.ends_identify (h : Asked e n none 3 w) : Imp.Ends (identify e fuel) w
    (fun _ w' => Asked e n none 4 w') (fun _ w' => PartlyAnswered e n w') := by
  unfold identify getDiskId
  refine h.next (Imp.within_get_bind fun w => Imp.within_pure _) fun disk w₁ h₁ => ?_
  refine h₁.next (asksNothing_identifyDisk e disk) fun diskType w₂ h₂ => ?_
  refine h₂.next (asksNothing_emit rfl rfl) fun _ w₃ h₃ => ?_
  have hstart : ∀ w', Asked e n none 3 w' → Imp.Ends (do
      Logger.print "Press A to start dumping." []
      Logger.print "Press Home or Reset to exit." []
      confirm e fuel
      pure ⟨disk, diskType, getDiskSizeBytes diskType⟩ : Prog DumpArgs) w'
      (fun _ w' => Asked e n none 4 w') (fun _ w' => PartlyAnswered e n w') := by
    intro w' h'
    have hask := h'.ask "Press A to start dumping." [] (by decide)
    have hline := hask.line (.print "Press Home or Reset to exit." []) (by decide) rfl
    unfold Logger.print
    rw [ends_emit_bind, ends_emit_bind, Imp.ends_bind]
    exact hline.ends_confirm rfl
  by_cases hunk : diskType = isUnkDisk
  · rw [if_pos hunk]
    exact h₃.next (asksNothing_error e fuel _ _ _) fun _ => hstart
  · rw [if_neg hunk]
    exact hstart w₃ h₃

/-- **From the start of the program**, up to the call of `dump`: every prompt is confirmed by a press of its own. -/
theorem ends_setUp_answered (hw : w.trace = []) : Imp.Ends (setUp e fuel) w
    (fun _ w' => Answered e prompts (scan w.samples w'.trace).confirmed)
    (fun _ w' => PartlyAnswered e w.samples w') := by
  have h : Asked e w.samples none 0 w := ⟨[], by rw [hw]; rfl, ⟨rfl, by simp, by simp⟩, by simp⟩
  unfold setUp
  rw [Imp.ends_bind]
  refine h.ends_welcome.mono (fun _ w₁ h₁ => ?_) (fun _ _ => id)
  refine h₁.next (asksNothing_menuLoop e fuel) fun _ w₂ h₂ => ?_
  rw [Imp.ends_bind]
  refine h₂.ends_insertDrive.mono (fun _ w₃ h₃ => ?_) (fun _ _ => id)
  rw [Imp.ends_bind]
  refine h₃.ends_insertDisk.mono (fun _ w₄ h₄ => ?_) (fun _ _ => id)
  refine h₄.ends_identify.mono (fun _ w₅ h₅ => ?_) (fun _ _ => id)
  obtain ⟨cs, hscan, hanswered, -⟩ := h₅.confirmed
  rw [hscan]
  exact hanswered

/-- **One action for each press.** Up to the end of the menu a press has the one choice of its first sample. Up to the
call of `dump` each prompt is confirmed by a press of its own, in order: A is released between any two of them. -/
theorem one_action_per_press (hw : w.Initial) :
    Imp.Ends (toMenuEnd e fuel) w
      (fun _ w' => (main e fuel).run w = (fromMenuEnd e fuel).run w' ∧
        ∃ v n, (welcome e fuel).run w = .ok () v ∧ MenuEnded e v n w' ∧
          (w'.driveType = driveUsb ∨ w'.driveType = driveSd))
      (fun st w' => (main e fuel).run w = .error st w' ∧
        (st = .spin ∨ st = .exit 0 ∧ ∃ v n, (welcome e fuel).run w = .ok () v ∧ MenuEnded e v n w' ∧
          choiceOf (e.pad n) = some .exit)) ∧
    Imp.Ends (setUp e fuel) w
      (fun args w' => (main e fuel).run w = (dumpAndLeave e fuel args).run w' ∧
        Answered e prompts (scan w.samples w'.trace).confirmed ∧
        (scan w.samples w'.trace).confirmed.Pairwise fun c c' => ∃ z, c.2 < z ∧ z < c'.2 ∧ e.held z = false)
      (fun st w' => (main e fuel).run w = .error st w' ∧ PartlyAnswered e w.samples w') := by
  constructor
  · rw [main_eq_menu]
    exact (ends_toMenuEnd hw).bind_run
  · unfold main
    refine (ends_setUp_answered hw.trace).bind_run.mono ?_ (fun _ _ => id)
    rintro args w' ⟨hrun, hanswered⟩
    exact ⟨hrun, hanswered, hanswered.released⟩

end Program

/-- A user who holds A at first, switches stop on error off and adds 1 to that press, and then picks USB with 1, still
held when A confirms the drive. -/
@[irreducible] def heldEnv : Env :=
  { Env.calm bareWiiHeader with
    pad := fun n =>
      ([wpadButtonA, wpadButtonA, 0, wpadButtonA, wpadButtonA ||| wpadButton1, 0, wpadButton1,
        wpadButton1 ||| wpadButtonA, 0, wpadButtonA, wpadButtonA, 0, wpadButtonA] : List UInt32).getD n 0 }

theorem one_action_per_press_held : ∃ w₁ args w₂, (toMenuEnd heldEnv 4).run wiiWorld = .ok () w₁ ∧
    w₁.cancelOnError = false ∧ w₁.driveType = driveUsb ∧ (∃ v, MenuEnded heldEnv v 6 w₁) ∧
    (setUp heldEnv 4).run wiiWorld = .ok args w₂ ∧
    (scan 0 w₂.trace).confirmed.map Prod.snd = [0, 7, 9, 12] ∧
    Answered heldEnv prompts (scan 0 w₂.trace).confirmed := by
  obtain ⟨_, w₁, hmenu, hcancel, hdrive, hsamples⟩ : ∃ a w₁, (toMenuEnd heldEnv 4).run wiiWorld = .ok a w₁ ∧
      w₁.cancelOnError = false ∧ w₁.driveType = driveUsb ∧ w₁.samples = 7 := Imp.exists_ok_of_decide (by decide +kernel)
  obtain ⟨args, w₂, hsetUp, hconfirmed⟩ : ∃ args w₂, (setUp heldEnv 4).run wiiWorld = .ok args w₂ ∧
      (scan 0 w₂.trace).confirmed.map Prod.snd = [0, 7, 9, 12] := Imp.exists_ok_of_decide (by decide +kernel)
  have hpress := @one_action_per_press heldEnv 4 wiiWorld (initial_boot (fun _ => bareWiiHeader) fun _ => none)
  obtain ⟨-, v, n, -, hended, -⟩ := hpress.1.ok hmenu
  obtain rfl : n = 6 := by
    have hlast := hended.samples
    omega
  exact ⟨w₁, args, w₂, hmenu, hcancel, hdrive, ⟨v, hended⟩, hsetUp, hconfirmed, (hpress.2.ok hsetUp).2.1⟩

end TakeADump
