import TakeADump.Drive.Read
import TakeADump.Lib.Frame
import TakeADump.Dump.Modes
import TakeADump.Model.Main

/-!
# What the events tell of the medium

`account` reads the bytes of the parts off the events of a run on a disc: a command that ended well leaves the bytes of
its range in the sector buffer, `memset` leaves zeros, and `fwrite` moves what stands there to the open part. Once bytes
were written that the events do not tell, there is no account of the parts any more.

`World.Accounted`: the account is right, and it was right at each event of the run (`Recorded`). Each operation changes
the account and the world together (`accounts_fwrite`, `accounts_startAndWait`), and everything else changes neither, up
to the call of `dump` (`accounts_setUp`) and from there to its end (`accounts_dump`). Only the copy opens files, and the
events tell their names as well (`World.Listed`).
-/

namespace TakeADump

/-- The last command and where it delivers, the first bytes of the sector buffer as far as they are known, and the
parts. -/
structure Account where
  request : Request
  dst : Region
  buffer : Bytes
  parts : Option (List Bytes)

/-- What a command that ends well delivers. -/
def Request.delivered (disc : Nat → UInt8) (r : Request) : Bytes :=
  bytesAt (fun i => disc (r.range.start + i)) (min r.range.length r.count.toNat)

/-- The account after an event. -/
def Account.step (disc : Nat → UInt8) (a : Account) : Event → Account
  | .request r => { a with request := r }
  | .dcInvalidate dst _ => { a with dst := dst }
  | .finished ok =>
    { a with buffer := if a.dst = .buffer then if ok then a.request.delivered disc else [] else a.buffer }
  | .memset n => { a with buffer := List.replicate n 0 }
  | .fopen _ true => { a with parts := a.parts.map (· ++ [[]]) }
  | .fwrite (some i) _ written =>
    { a with parts :=
        if written ≤ a.buffer.length then a.parts.map (List.modify · i (· ++ a.buffer.take written)) else none }
  | _ => a

/-- The account of a trace. -/
def account (disc : Nat → UInt8) (evs : List Event) : Account :=
  evs.foldl (Account.step disc) ⟨⟨0, 0, 0, 0, 0⟩, .lowMem, [], some []⟩

/-- The bytes of the streams. -/
def World.parts (w : World) : List Bytes := w.streams.map Stream.data

/-- These bytes are the first ones of a memory. -/
def Known (mem : Nat → UInt8) (bytes : Bytes) : Prop := bytes = bytesAt mem bytes.length

/-- The account is one of this world. -/
structure Account.Of (a : Account) (w : World) : Prop where
  buffer : Known (w.mem .buffer) a.buffer
  parts : ∀ parts ∈ a.parts, w.parts = parts

/-- At each event the account was one of the streams as they were then. -/
structure Recorded (disc : Nat → UInt8) (trace : List Event) (seen : List (List Stream)) : Prop where
  length : seen.length = trace.length
  parts : ∀ n streams, seen[n]? = some streams → ∀ parts ∈ (account disc (trace.take (n + 1))).parts,
    streams.map Stream.data = parts

/-- The account is right, and it was at each event. -/
structure World.Accounted (disc : Nat → UInt8) (w : World) : Prop extends Account.Of (account disc w.trace) w where
  recorded : Recorded disc w.trace w.seen

/-- The names of the files the events opened. -/
def openedNames (evs : List Event) : List Bytes :=
  evs.filterMap fun
    | .fopen name true => some name
    | _ => none

/-- What the dumps among the events returned. -/
def returns (evs : List Event) : List Int :=
  evs.filterMap fun
    | .stage (.dumped ret) => some ret
    | _ => none

/-- The events tell which files were opened. -/
def World.Listed (w : World) : Prop := w.streams.map Stream.name = openedNames w.trace

/-- From `w` to `w'` the account stayed right, the older files stayed what they were, events were only added and no dump
returned; no file was opened or written if none was to be. -/
structure World.Books (disc : Nat → UInt8) (shut : Prop) (w w' : World) : Prop where
  accounted : w.Accounted disc → w'.Accounted disc
  listed : w.Listed → w'.Listed
  prior : w'.prior = w.prior
  returns : returns w'.trace = returns w.trace
  grows : w.trace <+: w'.trace
  streams : shut → w'.streams = w.streams

def accountFrame (disc : Nat → UInt8) (shut : Prop) : Imp.Frame World where
  rel := World.Books disc shut
  refl _ := ⟨id, id, rfl, rfl, List.prefix_rfl, fun _ => rfl⟩
  trans h h' := ⟨h'.accounted ∘ h.accounted, h'.listed ∘ h.listed, h'.prior.trans h.prior,
    h'.returns.trans h.returns, h.grows.trans h'.grows, fun hshut => (h'.streams hshut).trans (h.streams hshut)⟩

/-- Every run of `x` keeps the account right. -/
abbrev Accounts (e : Env) (shut : Prop) {α : Type} (x : Prog α) : Prop :=
  Imp.Within (accountFrame e.disc shut) (fun _ => True) x

variable {e : Env} {disc : Nat → UInt8} {shut : Prop}

theorem known_bytesAt {f mem : Nat → UInt8} {n : Nat} (h : ∀ i < n, mem i = f i) : Known mem (bytesAt f n) := by
  rw [Known, length_bytesAt, Job.bytesAt_congr]
  exact fun i hi => (h i hi).symm

theorem Known.take {mem : Nat → UInt8} {bytes : Bytes} (h : Known mem bytes) {n : Nat} (hn : n ≤ bytes.length) :
    bytes.take n = bytesAt mem n := by
  rw [Job.bytesAt_take mem hn]
  exact congrArg (List.take n) h

theorem bytesAt_const (b : UInt8) (n : Nat) : bytesAt (fun _ => b) n = List.replicate n b := by
  rw [bytesAt, List.map_const', List.length_range]

theorem account_snoc (past : List Event) (ev : Event) :
    account disc (past ++ [ev]) = (account disc past).step disc ev := by
  rw [account, List.foldl_append]
  rfl

theorem Recorded.snoc {trace : List Event} {seen : List (List Stream)} (h : Recorded disc trace seen) {ev : Event}
    {streams : List Stream} (hs : ∀ parts ∈ ((account disc trace).step disc ev).parts,
      streams.map Stream.data = parts) : Recorded disc (trace ++ [ev]) (seen ++ [streams]) where
  length := by rw [List.length_append, List.length_append, h.length]; rfl
  parts n before hn := by
    rcases Nat.lt_trichotomy n seen.length with hlt | rfl | hgt
    · rw [List.getElem?_append_left hlt] at hn
      rw [List.take_append_of_le_length (h.length ▸ hlt)]
      exact h.parts n before hn
    · obtain rfl : streams = before := by simpa using hn
      rw [List.take_of_length_le (by rw [List.length_append, h.length]; rfl), account_snoc]
      exact hs
    · rw [List.getElem?_eq_none (by rw [List.length_append]; exact hgt)] at hn
      cases hn

/-- What the account said when `n` events were recorded. -/
theorem Recorded.told {trace : List Event} {seen : List (List Stream)} (h : Recorded disc trace seen) {n : Nat}
    {streams : List Stream} (hn : ([] :: seen)[n]? = some streams) :
    ∀ parts ∈ (account disc (trace.take n)).parts, streams.map Stream.data = parts := by
  cases n with
  | zero =>
    intro parts hparts
    cases hn
    cases hparts
    rfl
  | succ n => exact h.parts n streams hn

theorem Accounted.initial {w : World} (hw : w.Initial) : w.Accounted disc where
  buffer := by
    rw [hw.trace]
    rfl
  parts parts hparts := by
    rw [hw.trace] at hparts
    cases hparts
    rw [World.parts, hw.streams]
    rfl
  recorded := by
    rw [hw.trace, hw.seen]
    exact ⟨rfl, nofun⟩

theorem Listed.initial {w : World} (hw : w.Initial) : w.Listed := by
  unfold World.Listed
  rw [hw.streams, hw.trace]
  rfl

theorem openedNames_append (a b : List Event) : openedNames (a ++ b) = openedNames a ++ openedNames b :=
  List.filterMap_append

theorem returns_append (a b : List Event) : returns (a ++ b) = returns a ++ returns b := List.filterMap_append

/-- Events that tell nothing of the files and nothing of the sector buffer. -/
def Event.idle : Event → Bool
  | .memset _ | .request _ | .dcInvalidate _ _ | .finished _ | .fopen _ true | .fwrite (some _) _ _
  | .stage (.dumped _) => false
  | _ => true

theorem idle_spec (disc : Nat → UInt8) {ev : Event} (h : ev.idle = true) :
    (∀ a : Account, a.step disc ev = a) ∧ openedNames [ev] = [] ∧ returns [ev] = [] := by
  cases ev with
  | memset | request | dcInvalidate | finished => cases h
  | fopen name ok =>
    cases ok with
    | true => cases h
    | false => exact ⟨fun _ => rfl, rfl, rfl⟩
  | fwrite fp asked written =>
    cases fp with
    | some i => cases h
    | none => exact ⟨fun _ => rfl, rfl, rfl⟩
  | stage s =>
    cases s with
    | dumped ret => cases h
    | _ => exact ⟨fun _ => rfl, rfl, rfl⟩
  | _ => exact ⟨fun _ => rfl, rfl, rfl⟩

/-- All that an account is about. -/
def World.ledger (w : World) :
    List Event × List (List Stream) × (Nat → UInt8) × List Stream × (Bytes → Option Bytes) :=
  (w.trace, w.seen, w.mem .buffer, w.streams, w.prior)

theorem Account.Of.congr {a : Account} {w w' : World} (h : a.Of w) (hmem : w'.mem .buffer = w.mem .buffer)
    (hparts : w'.parts = w.parts) : a.Of w' :=
  ⟨by rw [hmem]; exact h.buffer, by rw [hparts]; exact h.parts⟩

/-! ## Operations -/

/-- The next event accounts for what was changed before it. -/
theorem accounted_snoc {w : World} {ev : Event} (hw : Recorded disc w.trace w.seen)
    (h : ((account disc w.trace).step disc ev).Of w) : (w.log ev).Accounted disc where
  buffer := by
    show Known _ (account disc (w.trace ++ [ev])).buffer
    rw [account_snoc]
    exact h.buffer
  parts := by
    show ∀ parts ∈ (account disc (w.trace ++ [ev])).parts, w.parts = parts
    rw [account_snoc]
    exact h.parts
  recorded := hw.snoc h.parts

theorem accounted_log {w : World} {ev : Event} (h : ∀ a : Account, a.step disc ev = a) (hw : w.Accounted disc) :
    (w.log ev).Accounted disc := by
  refine accounted_snoc hw.recorded ?_
  rw [h]
  exact hw.toOf

theorem returns_snoc {w w' : World} {ev : Event} (hev : returns [ev] = []) (htrace : w'.trace = w.trace ++ [ev]) :
    returns w'.trace = returns w.trace := by rw [htrace, returns_append, hev, List.append_nil]

/-- A world that differs in nothing an account is about. -/
theorem accounted_congr {w w' : World} (htrace : w'.trace = w.trace) (hseen : w'.seen = w.seen)
    (hmem : w'.mem .buffer = w.mem .buffer) (hparts : w'.parts = w.parts) (hw : w.Accounted disc) :
    w'.Accounted disc where
  toOf := by
    rw [htrace]
    exact hw.toOf.congr hmem hparts
  recorded := by
    rw [htrace, hseen]
    exact hw.recorded

/-- An event that opens no file. -/
theorem listed_log {w w' : World} {ev : Event} (hev : openedNames [ev] = []) (htrace : w'.trace = w.trace ++ [ev])
    (hnames : w'.streams.map Stream.name = w.streams.map Stream.name) (hw : w.Listed) : w'.Listed := by
  unfold World.Listed at *
  rw [hnames, hw, htrace, openedNames_append, hev, List.append_nil]

theorem books_log {ev : Event} (h : ev.idle = true) (w : World) : World.Books disc shut w (w.log ev) := by
  obtain ⟨hstep, hopened, hreturns⟩ := idle_spec disc h
  exact ⟨accounted_log hstep, listed_log hopened rfl rfl, rfl, returns_snoc hreturns rfl, List.prefix_append _ _,
    fun _ => rfl⟩

theorem books_congr {w w' : World} (h : w'.ledger = w.ledger) : World.Books disc shut w w' := by
  simp only [World.ledger, Prod.mk.injEq] at h
  obtain ⟨htrace, hseen, hmem, hstreams, hprior⟩ := h
  refine ⟨accounted_congr htrace hseen hmem (by unfold World.parts; rw [hstreams]), fun hw => ?_, hprior, by rw [htrace],
    htrace ▸ List.prefix_rfl, fun _ => hstreams⟩
  unfold World.Listed
  rw [hstreams, htrace]
  exact hw

theorem accounts_emit {ev : Event} (h : ev.idle = true) : Accounts e shut (emit ev) :=
  Imp.within_modify (books_log h)

theorem accounts_modify {f : World → World} (h : ∀ w, (f w).ledger = w.ledger) : Accounts e shut (modify f) :=
  Imp.within_modify fun w => books_congr (h w)

theorem accounts_throw {α : Type} (st : Stop) : Accounts e shut (throw st : Prog α) :=
  fun w => ⟨trivial, (accountFrame e.disc shut).refl w⟩

theorem accounts_fopen (filename : Bytes) : Accounts e False (fopen e filename) := by
  intro w
  unfold fopen
  rw [Imp.ends_bind, Imp.ends_get]
  show Imp.Ends (if e.fopen w.streams.length then _ else _) w _ _
  split
  · rw [Imp.ends_bind, Imp.ends_modify, ends_emit_bind, Imp.ends_pure]
    refine ⟨fun hw => ?_, fun hw => ?_, rfl, returns_snoc rfl rfl, List.prefix_append _ _, False.elim⟩
    · refine accounted_snoc hw.recorded ⟨hw.buffer, fun parts hparts => ?_⟩
      obtain ⟨old, hold, rfl⟩ := Option.map_eq_some_iff.1 hparts
      rw [World.parts, List.map_append, ← hw.parts old hold]
      rfl
    · unfold World.Listed World.log at *
      rw [openedNames_append, ← hw, List.map_append]
      rfl
  · rw [ends_emit_bind, Imp.ends_pure]
    exact books_log rfl w

theorem map_modify_of {α β : Type} {f : α → α} {g : α → β} {k : β → β} (h : ∀ a, g (f a) = k (g a)) (l : List α)
    (i : Nat) : (l.modify i f).map g = (l.map g).modify i k := by
  induction l generalizing i with
  | nil => simp
  | cons a l ih =>
    cases i with
    | zero => simp [h]
    | succ i => simp [ih]

theorem map_modify_same {α β : Type} {f : α → α} {g : α → β} (h : ∀ a, g (f a) = g a) (l : List α) (i : Nat) :
    (l.modify i f).map g = l.map g := (map_modify_of (k := id) h l i).trans (List.modify_id i _)

theorem accounts_fwrite (n : Nat) (fp : Option Nat) : Accounts e False (fwrite e n fp) := by
  intro w
  unfold fwrite
  rw [Imp.ends_bind, Imp.ends_get, Imp.ends_bind, Imp.ends_modify]
  cases fp with
  | none =>
    rw [ends_emit_bind, Imp.ends_pure]
    refine ⟨fun hw => ?_, listed_log rfl rfl rfl, rfl, returns_snoc rfl rfl, List.prefix_append _ _, False.elim⟩
    exact accounted_snoc hw.recorded (hw.toOf.congr rfl rfl)
  | some i =>
    rw [Imp.ends_bind, Imp.ends_modify, ends_emit_bind, Imp.ends_pure]
    refine ⟨fun hw => ?_, listed_log rfl rfl ?_, rfl, returns_snoc rfl rfl, List.prefix_append _ _, False.elim⟩
    · refine accounted_snoc hw.recorded ⟨hw.buffer, fun parts hparts => ?_⟩
      obtain ⟨hle, hparts⟩ := Option.ite_none_right_eq_some.1 hparts
      obtain ⟨old, hold, rfl⟩ := Option.map_eq_some_iff.1 hparts
      rw [hw.buffer.take hle, ← hw.parts old hold]
      exact map_modify_of (k := (· ++ bytesAt (w.mem .buffer) (accepted e w.writes n))) (fun _ => rfl) w.streams i
    · have hname : ∀ s : Stream, { s with data := s.data ++ bytesAt (w.mem .buffer) (accepted e w.writes n) }.name =
          s.name := fun _ => rfl
      exact map_modify_same hname w.streams i

theorem close_data (n : Nat) (s : Stream) :
    (Stream.close e n s).data = s.data ∧ (Stream.close e n s).name = s.name := by
  unfold Stream.close
  split
  · exact ⟨rfl, rfl⟩
  · exact ⟨rfl, rfl⟩

theorem accounts_fclose (fp : Option Nat) : Accounts e False (fclose e fp) := by
  cases fp with
  | none => exact accounts_emit rfl
  | some n =>
    refine Imp.within_bind (Imp.within_modify fun w => ?_) fun _ => accounts_emit rfl
    have hparts := map_modify_same (fun s => (close_data (e := e) n s).1) w.streams n
    have hnames := map_modify_same (fun s => (close_data (e := e) n s).2) w.streams n
    exact ⟨accounted_congr rfl rfl rfl hparts, fun hw => hnames.trans hw, rfl, rfl, List.prefix_rfl, False.elim⟩

theorem accounts_fcloseOpen (fp : Option Nat) : Accounts e False (fcloseOpen e fp) :=
  Imp.within_ite (fun _ => accounts_fclose fp) fun _ => Imp.within_pure _

theorem accounts_memset (n : Nat) : Accounts e shut (memset n) := by
  intro w
  unfold memset emit
  rw [Imp.ends_bind, Imp.ends_modify, Imp.ends_modify]
  refine ⟨fun hw => ⟨?_, hw.recorded.snoc hw.parts⟩, listed_log rfl rfl rfl, rfl, returns_snoc rfl rfl,
    List.prefix_append _ _, fun _ => rfl⟩
  show (account e.disc (w.trace ++ [.memset n])).Of _
  rw [account_snoc]
  refine ⟨?_, hw.parts⟩
  show Known _ (List.replicate n 0)
  rw [← bytesAt_const]
  exact known_bytesAt fun i hi => if_pos hi

theorem accounts_setFrame (f : Frame → Frame) : Accounts e shut (setFrame f) :=
  accounts_modify fun _ => rfl

theorem accounts_setDvd (i : Nat) (v : UInt32) : Accounts e shut (setDvd i v) :=
  accounts_modify fun _ => rfl

theorem accounts_setStatus (v : UInt32) : Accounts e shut (setStatus v) :=
  accounts_modify fun _ => rfl

theorem accounts_raiseError (raises : Bool) : Accounts e shut (raiseError raises) :=
  Imp.within_ite (fun _ => accounts_modify fun _ => rfl) fun _ => Imp.within_pure _

theorem accounts_deref (p : Option Region) : Accounts e shut (deref p) := by
  cases p with
  | some r => exact Imp.within_pure r
  | none => exact accounts_throw .fault

/-- A command that is started: the buffer is as it was. -/
theorem accounts_startCommand : Accounts e shut startCommand := by
  refine Imp.within_get_bind fun w => Imp.within_modify fun w' => ?_
  exact ⟨fun hw => accounted_snoc hw.recorded ⟨hw.buffer, hw.parts⟩, listed_log rfl rfl rfl, rfl,
    returns_snoc rfl rfl, List.prefix_append _ _, fun _ => rfl⟩

/-- A command: what it delivers to the sector buffer is known if it ended well. -/
theorem accounts_startAndWait (dst : Region) (len : UInt32) : Accounts e shut (startAndWait e dst len) := by
  intro w
  rw [Imp.ends_of_ok (run_startAndWait e dst len w)]
  have hlisted : ∀ a b c, openedNames [.request a, .dcInvalidate dst b, .finished c] = [] := fun _ _ _ => rfl
  have hreturns : ∀ a b c, returns [.request a, .dcInvalidate dst b, .finished c] = [] := fun _ _ _ => rfl
  refine ⟨fun hw => ?_, fun hw => ?_, rfl, ?_, List.prefix_append _ _, fun _ => rfl⟩
  rotate_left
  · unfold World.Listed
    rw [trace_logs, openedNames_append, hlisted, List.append_nil]
    exact hw
  · rw [trace_logs, returns_append, hreturns, List.append_nil]
    rfl
  have hlogs : (w.afterRead e dst).logs [.request w.pending, .dcInvalidate dst len.toNat, .finished (w.answer e).isOk] =
      (((w.afterRead e dst).log (.request w.pending)).log (.dcInvalidate dst len.toNat)).log
        (.finished (w.answer e).isOk) := by simp [World.log, World.logs]
  have hrequest : Recorded e.disc (w.trace ++ [.request w.pending]) (w.seen ++ [w.streams]) :=
    hw.recorded.snoc hw.parts
  have hinvalidate : Recorded e.disc ((w.trace ++ [.request w.pending]) ++ [.dcInvalidate dst len.toNat])
      ((w.seen ++ [w.streams]) ++ [w.streams]) := by
    refine hrequest.snoc ?_
    rw [account_snoc]
    exact hw.parts
  rw [hlogs]
  refine accounted_snoc hinvalidate ?_
  show ((account e.disc ((w.trace ++ [_]) ++ [_])).step e.disc _).Of _
  rw [account_snoc, account_snoc]
  refine ⟨?_, hw.parts⟩
  show Known (Function.update w.mem dst _ .buffer) (if dst = .buffer then
    if (w.answer e).isOk then w.pending.delivered e.disc else [] else (account e.disc w.trace).buffer)
  by_cases hdst : dst = .buffer
  · rw [if_pos hdst, hdst, Function.update_self]
    cases w.answer e with
    | ok => exact known_bytesAt fun i hi => if_pos hi
    | err junk => rfl
  · rw [if_neg hdst, Function.update_of_ne (Ne.symm hdst)]
    exact hw.buffer

/-! ## Waiting and leaving -/

variable (e)

theorem accounts_getControllerButtonsPressed : Accounts e shut (Global.getControllerButtonsPressed e) := by
  refine Imp.within_get_bind fun w => Imp.within_bind (Imp.within_modify fun w' => ?_) fun _ => Imp.within_pure _
  have hsample : World.Books e.disc shut w' (w'.log (.sample (e.pad w.samples))) := books_log rfl w'
  exact (accountFrame e.disc shut).trans hsample (books_congr rfl)

theorem accounts_wait (p : UInt32 → Bool) (fuel : Nat) :
    Accounts e shut (Imp.loop Stop.spin (Global.waitRound e p) fuel ()) := by
  refine Imp.within_loop trivial (fun _ => ?_) fuel ()
  refine Imp.within_bind (accounts_getControllerButtonsPressed e) fun buttons => ?_
  exact Imp.within_ite (fun _ => Imp.within_pure _) fun _ => Imp.within_pure _

theorem accounts_confirm (fuel : Nat) : Accounts e shut (confirm e fuel) :=
  Imp.within_bind (accounts_wait e _ fuel) fun _ => accounts_wait e _ fuel

theorem accounts_reset (code : Int) : Accounts e shut (Global.reset code) := by
  refine Imp.within_bind (accounts_emit rfl) fun _ => ?_
  exact Imp.within_bind (accounts_emit rfl) fun _ => accounts_throw _

theorem accounts_resetAfterPause (fuel : Nat) : Accounts e shut (Global.resetAfterPause e fuel) := by
  refine Imp.within_bind (accounts_emit rfl) fun _ => ?_
  iterate 3 refine Imp.within_bind (accounts_wait e _ fuel) fun _ => ?_
  exact accounts_reset e 0

theorem accounts_error (fuel : Nat) (code : Int) (fmt : String) (args : List Arg) :
    Accounts e shut (Logger.error e fuel code fmt args) :=
  Imp.within_bind (accounts_emit rfl) fun _ => accounts_resetAfterPause e fuel

/-! ## Before the copy -/

theorem accounts_menu : Accounts e shut menu := by
  refine Imp.within_get_bind fun w => ?_
  iterate 5 refine Imp.within_bind (accounts_emit rfl) fun _ => ?_
  exact accounts_emit rfl

theorem accounts_menuAgain : Accounts e shut (do menu; Logger.newline; pure false : Prog Bool) :=
  Imp.within_bind (accounts_menu e) fun _ =>
    Imp.within_bind (accounts_emit rfl) fun _ => Imp.within_pure _

theorem accounts_menuAction (buttons : UInt32) : Accounts e shut (menuAction buttons) := by
  refine Imp.within_ite (fun _ => ?_) fun _ => Imp.within_ite (fun _ => ?_) fun _ => Imp.within_ite (fun _ => ?_)
    fun _ => Imp.within_ite (fun _ => ?_) fun _ => Imp.within_ite (fun _ => accounts_menuAgain e) fun _ =>
    Imp.within_ite (fun _ => ?_) fun _ => Imp.within_pure _
  · refine Imp.within_get_bind fun w => Imp.within_bind ?_ fun _ => accounts_menuAgain e
    exact accounts_modify fun _ => rfl
  · exact Imp.within_bind (accounts_modify fun _ => rfl) fun _ => accounts_menuAgain e
  · exact Imp.within_bind (accounts_modify fun _ => rfl) fun _ => Imp.within_pure _
  · exact Imp.within_bind (accounts_modify fun _ => rfl) fun _ => Imp.within_pure _
  · exact Imp.within_bind (accounts_reset e 0) fun _ => Imp.within_pure _

theorem accounts_menuLoop (fuel : Nat) : Accounts e shut (menuLoop e fuel) := by
  refine Imp.within_bind (Imp.within_loop trivial (fun _ => ?_) fuel ()) fun _ =>
    Imp.within_get_bind fun w => accounts_emit rfl
  refine Imp.within_bind (accounts_getControllerButtonsPressed e) fun buttons => ?_
  refine Imp.within_bind (accounts_menuAction e buttons) fun left => ?_
  refine Imp.within_ite (fun _ => Imp.within_pure _) fun _ => Imp.within_ite (fun _ => ?_) fun _ => Imp.within_pure _
  exact Imp.within_bind (accounts_wait e _ fuel) fun _ => Imp.within_pure _

theorem accounts_welcome (fuel : Nat) : Accounts e shut (welcome e fuel) := by
  iterate 6 refine Imp.within_bind (accounts_emit rfl) fun _ => ?_
  refine Imp.within_bind (accounts_confirm e fuel) fun _ => Imp.within_bind (accounts_menu e) fun _ => ?_
  exact accounts_emit rfl

theorem accounts_fatMountSimple (iface : Interface) : Accounts e shut (fatMountSimple e iface) :=
  Imp.within_bind (accounts_emit rfl) fun _ => Imp.within_pure _

theorem accounts_mountRetOf (fuel : Nat) (res : MountResult) : Accounts e shut (mountRetOf e fuel res) := by
  cases res with
  | returned ok => exact Imp.within_pure _
  | exception what => exact Imp.within_bind (accounts_error e fuel _ _ _) fun _ => Imp.within_pure _
  | unknownException => exact Imp.within_bind (accounts_error e fuel _ _ _) fun _ => Imp.within_pure _

theorem accounts_tryMount (fuel : Nat) : Accounts e shut (tryMount e fuel) := by
  refine Imp.within_get_bind fun w => Imp.within_ite (fun _ => ?_) fun _ => Imp.within_ite (fun _ => ?_) fun _ => ?_
  · exact Imp.within_bind (accounts_fatMountSimple e _) fun res => accounts_mountRetOf e fuel res
  · exact Imp.within_bind (accounts_fatMountSimple e _) fun res => accounts_mountRetOf e fuel res
  · exact Imp.within_bind (accounts_error e fuel _ _ _) fun _ => Imp.within_pure _

theorem accounts_mountDrive (fuel : Nat) : Accounts e shut (mountDrive e fuel) := by
  refine Imp.within_get_bind fun w => Imp.within_ite (fun _ => ?_) fun _ =>
    Imp.within_ite (fun _ => accounts_error e fuel _ _ _) fun _ => accounts_error e fuel _ _ _
  refine Imp.within_bind (accounts_tryMount e fuel) fun mountRet => ?_
  exact Imp.within_ite (fun _ => accounts_error e fuel _ _ _) fun _ => Imp.within_pure _

theorem accounts_insertDrive (fuel : Nat) : Accounts e shut (insertDrive e fuel) := by
  refine Imp.within_get_bind fun w => Imp.within_bind (accounts_emit rfl) fun _ => ?_
  refine Imp.within_bind (accounts_confirm e fuel) fun _ => Imp.within_bind (accounts_mountDrive e fuel) fun _ => ?_
  exact accounts_emit rfl

theorem accounts_dvdGetError : Accounts e shut (dvdGetError e) := by
  iterate 2 refine Imp.within_bind (accounts_setDvd _ _) fun _ => ?_
  refine Imp.within_bind accounts_startCommand fun _ => ?_
  refine Imp.within_get_bind fun w => Imp.within_bind (accounts_modify fun _ => rfl)
    fun _ => Imp.within_bind (accounts_raiseError _) fun _ => Imp.within_bind (accounts_setDvd _ _) fun _ => ?_
  exact Imp.within_get_bind fun w => Imp.within_pure _

theorem accounts_readIdToLowMem : Accounts e shut (readIdToLowMem e) := by
  refine Imp.within_bind (accounts_modify fun _ => rfl) fun _ => ?_
  refine Imp.within_bind ?_ fun result => Imp.within_ite (fun _ => Imp.within_pure _) fun _ => ?_
  · refine Imp.within_get_bind fun w => Imp.within_bind (Imp.within_modify fun w' => ?_) fun _ => Imp.within_pure _
    have hioctl : World.Books e.disc shut w' (w'.log .ioctl) := books_log rfl w'
    refine (accountFrame e.disc shut).trans hioctl (books_congr ?_)
    cases (e.ioctl w.ioctls).data with
    | none => rfl
    | some d => rfl
  · refine Imp.within_get_bind fun w => ?_
    exact Imp.within_ite (fun _ => Imp.within_pure _) fun _ => Imp.within_pure _

theorem accounts_wdvdLowReadDiskId : Accounts e shut (wdvdLowReadDiskId e) := by
  refine Imp.within_get_bind fun w => Imp.within_ite (fun _ => ?_) fun _ => accounts_readIdToLowMem e
  refine Imp.within_bind (Imp.within_get_bind fun w => ?_) fun fd => ?_
  · exact Imp.within_bind (accounts_modify fun _ => rfl) fun _ => Imp.within_pure _
  · refine Imp.within_bind (accounts_modify fun _ => rfl) fun _ => ?_
    exact Imp.within_ite (fun _ => Imp.within_pure _) fun _ => accounts_readIdToLowMem e

theorem accounts_pollAndReadId (fuel : Nat) : Accounts e shut (pollAndReadId e fuel) := by
  refine Imp.within_bind (Imp.within_loop trivial (fun idRet => ?_) fuel (-1)) fun _ => ?_
  · refine Imp.within_ite (fun _ => ?_) fun _ => Imp.within_pure _
    exact Imp.within_bind (accounts_wdvdLowReadDiskId e) fun _ => Imp.within_pure _
  refine Imp.within_bind (Imp.within_bind (accounts_wdvdLowReadDiskId e) fun r => Imp.within_ite (fun _ => ?_)
    fun _ => Imp.within_pure _) fun diskId => ?_
  · exact Imp.within_bind (accounts_modify fun _ => rfl) fun _ => Imp.within_pure _
  · refine Imp.within_bind (accounts_modify fun _ => rfl) fun _ => ?_
    exact Imp.within_ite (fun _ => Imp.within_pure _) fun _ => Imp.within_pure _

theorem accounts_needsHardInit : Accounts e shut (needsHardInit e) := by
  refine Imp.within_get_bind fun w => Imp.within_ite (fun _ => Imp.within_pure _) fun _ => ?_
  exact Imp.within_bind (accounts_dvdGetError e) fun _ => Imp.within_pure _

theorem accounts_hardInit : Accounts e shut (hardInit e) := by
  refine Imp.within_bind (accounts_setStatus _) fun _ => ?_
  iterate 5 refine Imp.within_bind (accounts_setDvd _ _) fun _ => ?_
  refine Imp.within_bind accounts_startCommand fun _ => Imp.within_bind (accounts_raiseError _) fun _ => ?_
  exact accounts_modify fun _ => rfl

theorem accounts_initializeDisk (fuel : Nat) : Accounts e shut (initializeDisk e fuel) := by
  have hrest : Accounts e shut (do
      let error ← dvdGetError e
      let readCmd := if error &&& 0xFFFFFF = 0x053000 then dvdDvdr else dvdNormal
      modify fun w => { w with readCmd := readCmd }
      pollAndReadId e fuel : Prog Int) := by
    refine Imp.within_bind (accounts_dvdGetError e) fun error => ?_
    refine Imp.within_bind (accounts_modify fun _ => rfl) fun _ => ?_
    exact accounts_pollAndReadId e fuel
  refine Imp.within_bind (accounts_emit rfl) fun _ => ?_
  refine Imp.within_bind (accounts_dvdGetError e) fun error => ?_
  refine Imp.within_ite (fun _ => Imp.within_pure _) fun _ =>
    Imp.within_bind (accounts_needsHardInit e) fun hard => Imp.within_ite (fun _ => ?_) fun _ => hrest
  exact Imp.within_bind (accounts_hardInit e) fun _ => hrest

theorem accounts_insertDisk (fuel : Nat) : Accounts e shut (insertDisk e fuel) := by
  refine Imp.within_bind (accounts_emit rfl) fun _ => ?_
  refine Imp.within_bind (accounts_confirm e fuel) fun _ => ?_
  refine Imp.within_bind (accounts_initializeDisk e fuel) fun initRet =>
    Imp.within_bind (accounts_emit rfl) fun _ => ?_
  exact Imp.within_ite (fun _ => accounts_error e fuel _ _ _) fun _ => Imp.within_pure _

theorem accounts_dvdLowRead64 (dst : Region) (len : UInt32) (offset : UInt64) :
    Accounts e shut (dvdLowRead64 e dst len offset) := by
  refine Imp.within_ite (fun _ => Imp.within_pure _) fun _ => Imp.within_get_bind fun w => ?_
  refine Imp.within_bind (accounts_setStatus _) fun _ => ?_
  iterate 6 refine Imp.within_bind (accounts_setDvd _ _) fun _ => ?_
  refine Imp.within_bind (accounts_startAndWait dst len) fun _ => Imp.within_get_bind fun w => ?_
  exact Imp.within_ite (fun _ => Imp.within_pure _) fun _ => Imp.within_pure _

theorem accounts_identifyDisk (disk : Option Region) : Accounts e shut (identifyDisk e disk) := by
  refine Imp.within_get_bind fun w => Imp.within_bind (accounts_deref disk) fun r => ?_
  refine Imp.within_ite (fun _ => Imp.within_pure _) fun _ => Imp.within_ite (fun _ => ?_) fun _ => Imp.within_pure _
  refine Imp.within_bind (accounts_dvdLowRead64 e _ _ _) fun layer1Read => ?_
  exact Imp.within_ite (fun _ => Imp.within_pure _) fun _ => Imp.within_pure _

theorem accounts_identify (fuel : Nat) : Accounts e shut (identify e fuel) := by
  refine Imp.within_get_bind fun w => Imp.within_bind (accounts_identifyDisk e _) fun type => ?_
  have hprompt : Accounts e shut (do
      Logger.print "Press A to start dumping." []
      Logger.print "Press Home or Reset to exit." []
      confirm e fuel
      pure ⟨w.globalDiskId, type, getDiskSizeBytes type⟩ : Prog DumpArgs) := by
    iterate 2 refine Imp.within_bind (accounts_emit rfl) fun _ => ?_
    exact Imp.within_bind (accounts_confirm e fuel) fun _ => Imp.within_pure _
  refine Imp.within_bind (accounts_emit rfl) fun _ => Imp.within_ite (fun _ => ?_) fun _ => hprompt
  exact Imp.within_bind (accounts_error e fuel _ _ _) fun _ => hprompt

theorem accounts_setUp (fuel : Nat) : Accounts e shut (setUp e fuel) := by
  refine Imp.within_bind (accounts_welcome e fuel) fun _ => Imp.within_bind (accounts_menuLoop e fuel) fun _ => ?_
  refine Imp.within_bind (accounts_insertDrive e fuel) fun _ => Imp.within_bind (accounts_insertDisk e fuel) fun _ => ?_
  exact accounts_identify e fuel

/-! ## The copy -/

theorem accounts_openFile (filename : Bytes) : Accounts e False (openFile e filename) := by
  refine Imp.within_bind (accounts_setFrame _) fun _ => Imp.within_bind (accounts_fopen filename) fun fp => ?_
  refine Imp.within_bind (accounts_setFrame _) fun _ => Imp.within_ite (fun _ => ?_) fun _ => ?_
  · iterate 3 refine Imp.within_bind (accounts_emit rfl) fun _ => ?_
    exact Imp.within_pure _
  · exact Imp.within_bind (accounts_setFrame _) fun _ => Imp.within_pure _

theorem accounts_rollover (diskId : Option Region) : Accounts e False (rollover e diskId) := by
  refine Imp.within_get_bind fun w => Imp.within_ite (fun _ => ?_) fun _ => Imp.within_pure _
  refine Imp.within_bind (accounts_fcloseOpen _) fun _ => Imp.within_bind (accounts_deref diskId) fun r => ?_
  exact Imp.within_get_bind fun w => accounts_openFile e _

theorem accounts_readSector (readSize : UInt32) : Accounts e False (readSector e readSize) := by
  refine Imp.within_get_bind fun w => Imp.within_loop trivial (fun l => ?_) _ _
  refine Imp.within_ite (fun _ => ?_) fun _ => Imp.within_pure _
  exact Imp.within_bind (accounts_dvdLowRead64 e _ _ _) fun _ => Imp.within_pure _

theorem accounts_settle (fuel : Nat) (ret : Int) (readSize : UInt32) :
    Accounts e False (settle e fuel ret readSize) := by
  refine Imp.within_ite (fun _ => ?_) fun _ => Imp.within_pure _
  refine Imp.within_bind (accounts_modify fun _ => rfl) fun _ => Imp.within_get_bind fun w => ?_
  refine Imp.within_bind (accounts_emit rfl) fun _ => Imp.within_get_bind fun w => ?_
  exact Imp.within_ite (fun _ => accounts_error e fuel _ _ _) fun _ => accounts_memset _

theorem accounts_writeSector (readSize : UInt32) : Accounts e False (writeSector e readSize) := by
  refine Imp.within_get_bind fun w => Imp.within_bind (accounts_fwrite _ _) fun written => ?_
  refine Imp.within_ite (fun _ => ?_) fun _ => Imp.within_pure _
  refine Imp.within_bind (accounts_emit rfl) fun _ => ?_
  refine Imp.within_bind (accounts_fclose _) fun _ => ?_
  exact Imp.within_bind (accounts_emit rfl) fun _ => Imp.within_pure _

theorem accounts_advance (diskSize : UInt64) (readSize : UInt32) : Accounts e False (advance e diskSize readSize) := by
  refine Imp.within_bind (accounts_setFrame _) fun _ => Imp.within_get_bind fun w => ?_
  refine Imp.within_bind (accounts_emit rfl) fun _ => ?_
  refine Imp.within_bind (accounts_getControllerButtonsPressed e) fun buttons => ?_
  exact Imp.within_ite (fun _ => accounts_reset e 0) fun _ => Imp.within_pure _

theorem accounts_copySector (fuel : Nat) (diskSize : UInt64) : Accounts e False (copySector e fuel diskSize) := by
  refine Imp.within_get_bind fun w => Imp.within_bind (accounts_readSector e _) fun ret => ?_
  refine Imp.within_bind (accounts_settle e fuel _ _) fun _ => ?_
  refine Imp.within_bind (accounts_writeSector e _) fun written => ?_
  refine Imp.within_ite (fun _ => ?_) fun _ => Imp.within_pure _
  exact Imp.within_bind (accounts_advance e _ _) fun _ => Imp.within_pure _

theorem accounts_finish : Accounts e False (finish e) := by
  refine Imp.within_get_bind fun w => Imp.within_bind (accounts_fcloseOpen _) fun _ => ?_
  iterate 2 refine Imp.within_bind (accounts_emit rfl) fun _ => ?_
  exact Imp.within_pure _

theorem accounts_dumpRound (fuel : Nat) (diskId : Option Region) (diskSize : UInt64) (u : Unit) :
    Accounts e False (dumpRound e fuel diskId diskSize u) := by
  refine Imp.within_get_bind fun w => Imp.within_ite (fun _ => ?_) fun _ => ?_
  · refine Imp.within_bind (accounts_emit rfl) fun _ => ?_
    refine Imp.within_bind (accounts_rollover e _) fun opened => ?_
    exact Imp.within_ite (fun _ => accounts_copySector e fuel diskSize) fun _ => Imp.within_pure _
  · exact Imp.within_bind (accounts_finish e) fun _ => Imp.within_pure _

theorem accounts_dump (fuel : Nat) (diskId : Option Region) (diskType : Int) (diskSize : UInt64) :
    Accounts e False (dump e fuel diskId diskType diskSize) := by
  have hmemalign : Accounts e False (memalign e) :=
    Imp.within_bind (accounts_emit rfl) fun _ => Imp.within_pure _
  refine Imp.within_bind hmemalign fun allocated => ?_
  refine Imp.within_ite (fun _ => ?_) fun _ => ?_
  · refine Imp.within_bind (accounts_setFrame _) fun _ => ?_
    iterate 2 refine Imp.within_bind (accounts_emit rfl) fun _ => ?_
    exact Imp.within_loop trivial (accounts_dumpRound e fuel diskId diskSize) _ ()
  · exact Imp.within_bind (accounts_emit rfl) fun _ => Imp.within_pure _

end TakeADump
