import TakeADump.Dump.Modes
import TakeADump.Session.Account
import TakeADump.Session.Main

/-!
# The course of a run of `main`

A run of `main` ends before the call of `dump`, in it, or after it (`Course`, `course_main`). Whichever it is, the files
it opened are told by its events, they carry the name of the disc it read (`Course.named`), and the directory from
before the run is known (`Course.told`).
-/

namespace TakeADump

namespace Job

/-- A dump reads nothing into the `DiskID`. -/
theorem Ended.localId {e : Env} {w : World} {size : UInt64} {r : EStateM.Result Stop World Int}
    (h : (enter e w size).Ended r) : (finalWorld r).mem .localId = w.mem .localId := by
  cases h with
  | finished _ hc _ | refused _ _ _ hc _ | short _ _ _ hc _ | home _ _ _ hc _ => exact hc.id
  | unreadable _ _ _ _ hq hc _ =>
    obtain ⟨n, evs, rfl, -⟩ := hq
    exact hc.id

end Job

/-- The files a dump opens are named after the disc. -/
theorem named_dump (e : Env) (fuel : Nat) {w : World} (hw : w.streams = []) (diskType : Int) (size : UInt64)
    {r : EStateM.Result Stop World Int} (hrun : (dump e fuel (some .localId) diskType size).run w = r) :
    ∀ s ∈ (finalWorld r).streams, ∃ k, s.name = partName ((finalWorld r).mem .localId) k := by
  subst hrun
  intro s hs
  cases hmem : e.memalign with
  | false =>
    rw [Job.run_dump_memalign fuel hmem] at hs
    exact absurd (hw ▸ hs) List.not_mem_nil
  | true =>
    have hended := Job.ended_dump fuel w diskType size hmem
    obtain ⟨l, n, hleaves, -⟩ := hended.stops
    have hnames := hleaves.name_opened (w := w) rfl
    rw [World.opened, hw, List.length_nil, List.drop_zero] at hnames
    obtain ⟨i, -, hi⟩ := List.mem_map.1 (hnames ▸ List.mem_map_of_mem hs)
    rw [hended.localId]
    exact ⟨_, hi.symm⟩

namespace Session

/-- The world in which `dump` is called. -/
def called (args : DumpArgs) (w : World) : World := w.log (.stage (.dump args.disk args.diskType args.size))

/-- How a run of `main` from `w` ends. -/
inductive Course (e : Env) (fuel : Nat) (w : World) : World → Prop
  | early {w' : World} (hb : World.Books e.disc True w w') : Course e fuel w w'
  | cut {stop : Bool} {args : DumpArgs} {w₁ w' : World} {st : Stop} (hset : Set stop args w₁)
      (hb : World.Books e.disc True w w₁)
      (hrun : (dump e fuel (some .localId) args.diskType args.size).run (called args w₁) = .error st w') :
      Course e fuel w w'
  | returned {stop : Bool} {args : DumpArgs} {w₁ w₂ w' : World} {ret : Int} (hset : Set stop args w₁)
      (hb : World.Books e.disc True w w₁)
      (hrun : (dump e fuel (some .localId) args.diskType args.size).run (called args w₁) = .ok ret w₂)
      (hq : Quiet (w₂.log (.stage (.dumped ret))) w')
      (hb' : World.Books e.disc True (w₂.log (.stage (.dumped ret))) w') : Course e fuel w w'

variable {e : Env} {fuel : Nat} {w w' : World}

/-- **Every run of `main`** takes such a course. -/
theorem course_main (hw : w.Initial) :
    Imp.Ends (main e fuel) w (fun _ _ => False) (fun _ w' => Course e fuel w w') := by
  have hsetUp : Accounts e True (setUp e fuel) := accounts_setUp e fuel
  unfold main
  rw [Imp.ends_bind]
  refine ((ends_setUp hw).and (hsetUp w)).mono ?_ fun _ _ h => .early h.2.2
  rintro args w₁ ⟨⟨stop, hset⟩, hb⟩
  unfold dumpAndLeave enter
  rw [ends_emit_bind, Imp.ends_bind, hset.disk]
  have hcalled : w₁.log (.stage (.dump (some .localId) args.diskType args.size)) = called args w₁ := by
    rw [called, hset.disk]
  rw [hcalled]
  cases hrun : (dump e fuel (some .localId) args.diskType args.size).run (called args w₁) with
  | error st w' =>
    rw [Imp.ends_of_error hrun]
    exact .cut hset hb hrun
  | ok ret w₂ =>
    rw [Imp.ends_of_ok hrun, ends_emit_bind]
    split
    · have herror : Accounts e True (Logger.error e fuel ret "Dump failed." []) := accounts_error e fuel _ _ _
      refine ((TakeADump.ends_error e fuel ret "Dump failed." [] _).and (herror _)).mono (fun _ _ h => h.1) ?_
      rintro st w' ⟨⟨-, hq⟩, -, hb'⟩
      exact .returned hset hb hrun ((quiet_log rfl).trans hq) hb'
    · have hleave : Accounts e True (Global.resetAfterPause e fuel) := accounts_resetAfterPause e fuel
      refine ((ends_resetAfterPause e fuel _).and (hleave _)).mono (fun _ _ h => h.1) ?_
      rintro st w' ⟨⟨-, hq⟩, -, hb'⟩
      exact .returned hset hb hrun hq hb'

/-- The books of a run that came into a dump. -/
theorem books_dump {args : DumpArgs} {w₁ w₂ : World} (hb : World.Books e.disc True w w₁)
    (hdump : World.Books e.disc False (called args w₁) w₂) : World.Books e.disc False w w₂ := by
  have hstage : World.Books e.disc True w₁ (called args w₁) := books_log rfl w₁
  have h := (accountFrame e.disc True).trans hb hstage
  exact (accountFrame e.disc False).trans ⟨h.accounted, h.listed, h.prior, h.returns, h.grows, False.elim⟩ hdump

/-- What the events tell, and the directory from before. -/
theorem Course.told (h : Course e fuel w w') :
    (w.Accounted e.disc → w'.Accounted e.disc) ∧ (w.Listed → w'.Listed) ∧ w'.prior = w.prior := by
  cases h with
  | early hb => exact ⟨hb.accounted, hb.listed, hb.prior⟩
  | cut _ hb hrun =>
    have hbooks := books_dump hb ((accounts_dump e fuel _ _ _ _).error hrun).2
    exact ⟨hbooks.accounted, hbooks.listed, hbooks.prior⟩
  | returned _ hb hrun _ hb' =>
    have hbooks := books_dump hb ((accounts_dump e fuel _ _ _ _).ok hrun)
    exact ⟨fun hw => hb'.accounted (accounted_log (fun _ => rfl) (hbooks.accounted hw)),
      fun hw => hb'.listed (listed_log rfl rfl rfl (hbooks.listed hw)), hb'.prior.trans hbooks.prior⟩

/-- **The files are named after the disc.** -/
theorem Course.named (hw : w.Initial) (h : Course e fuel w w') :
    ∀ s ∈ w'.streams, ∃ k, s.name = partName (w'.mem .localId) k := by
  cases h with
  | early hb =>
    rw [hb.streams trivial, hw.streams]
    exact nofun
  | @cut _ args w₁ _ _ hset _ hrun =>
    have hcalled : (called args w₁).streams = [] := hset.streams
    exact named_dump e fuel hcalled _ _ hrun
  | @returned _ args w₁ w₂ _ _ hset _ hrun hq _ =>
    have hcalled : (called args w₁).streams = [] := hset.streams
    obtain ⟨n, evs, rfl, -⟩ := hq
    exact named_dump e fuel hcalled _ _ hrun

/-- A run that tells of a successful dump made one. -/
theorem Course.complete (hw : w.Initial) (h : Course e fuel w w') (hmem : .stage (.dumped 0) ∈ w'.trace) :
    ∃ stop args w₁ w₂, Set stop args w₁ ∧
      (dump e fuel (some .localId) args.diskType args.size).run (called args w₁) = .ok 0 w₂ ∧
      returns w₂.trace = [] ∧ w₂.Accounted e.disc ∧ Quiet (w₂.log (.stage (.dumped 0))) w' := by
  have hreturn : (0 : Int) ∈ returns w'.trace := List.mem_filterMap.2 ⟨_, hmem, rfl⟩
  have hnone : returns w.trace = [] := by
    rw [hw.trace]
    rfl
  cases h with
  | early hb =>
    rw [hb.returns, hnone] at hreturn
    cases hreturn
  | cut _ hb hrun =>
    rw [(books_dump hb ((accounts_dump e fuel _ _ _ _).error hrun).2).returns, hnone] at hreturn
    cases hreturn
  | @returned stop args w₁ w₂ _ ret hset hb hrun hq hb' =>
    have hbooks := books_dump hb ((accounts_dump e fuel _ _ _ _).ok hrun)
    have hw₂ : returns w₂.trace = [] := hbooks.returns.trans hnone
    have hone : returns (w₂.log (.stage (.dumped ret))).trace = [ret] := by
      show returns (w₂.trace ++ [.stage (.dumped ret)]) = [ret]
      rw [returns_append, hw₂]
      rfl
    rw [hb'.returns, hone, List.mem_singleton] at hreturn
    subst hreturn
    exact ⟨stop, args, w₁, w₂, hset, hrun, hw₂, hbooks.accounted (Accounted.initial hw), hq⟩

end Session

end TakeADump
