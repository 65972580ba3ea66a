import TakeADump.Lib.Monitor
import TakeADump.Setup.Ready
import TakeADump.Dump.Copy

/-!
# A session as a state machine

What a session with the program looks like from outside, stated without the program: a monitor that reads the trace
event by event (`Phase.step`). The welcome and the menu, one mount, the search for the disc, the probe, the last
prompt, the copy sector by sector, and the ways out. Each failing step is followed by its own error line, each error
line by nothing but the wait for A, and each session that is left by `exit(0)`.

The monitor carries what a reader of the screen knows: whether a read error ends the session is what the menu showed
last (`stop`), and the progress line after each sector says how many sectors are done and how many of them were
unreadable. `Main.lean` proves that every run of `main` is such a session.
-/

namespace TakeADump

namespace Session

/-! ## Phases -/

/-- A copy: the size of the disc, whether a read error ends the session, the sectors done, the unreadable ones among
them and the parts opened. -/
structure Copy where
  size : UInt64
  stop : Bool
  done : Nat
  errors : Nat
  parts : Nat
  deriving DecidableEq

/-- Where the copy of one sector stands. -/
inductive Sector
  | heading                  -- the copy was announced
  | zero                     -- the first progress line is due
  | ready                    -- between two sectors
  | rolling                  -- the open part is full
  | closed                   -- no part is open
  | reading (tries : Nat)    -- so many tries failed
  | commanded (tries : Nat)  -- one more command was issued
  | waiting (tries : Nat)    -- the cache was invalidated
  | reported                 -- the sector was reported
  | settled                  -- the buffer holds what is to be written
  | written
  | shown                    -- the progress line was printed
  deriving DecidableEq

inductive Phase
  | choosing (stop : Bool)
  | mounting (stop : Bool) (iface : Interface)
  | mounted (stop : Bool)
  | finding (stop : Bool)
  | probing (stop : Bool)
  | confirming (stop : Bool) (diskType : Int)
  | starting (c : Copy)
  | copying (c : Copy) (s : Sector)
  /-- The events still due before `dump` returns `ret`. -/
  | returning (due : List Event) (ret : Int)
  /-- The error line due. -/
  | failing (line : Event)
  /-- A is waited for. -/
  | leaving
  /-- HOME was held. -/
  | quitting
  | exiting
  | exited
  deriving DecidableEq

/-- The user or the disc is waited for. -/
def Phase.waits : Phase → Bool
  | .choosing _ | .mounting _ _ | .finding _ | .confirming _ _ | .leaving => true
  | _ => false

/-! ## Before the copy -/

def exitLine : Event := .print "Exiting with code %02d..." [.int 0]

def toggleLine : String := "A  Toggle stop on read error (currently: %s)"

/-- The lines of the welcome and the menu that say the same in every session. -/
def menuLines : List String :=
  ["TakeADump %s by Calebh101",
    "Please note: We are NOT responsible for any damage to your console, game disks, or external media.",
    "Press A to continue.", "Press Reset to exit any time.", "1  Dump disk to %s USB", "2  Dump disk to %s SD card",
    "B  Change filesystem (currently: %s)", "+  Exit", "-  Reprint menu"]

/-- The welcome and the menu, which shows what a read error does. -/
def choose (stop : Bool) : Event → Option Phase
  | .print fmt args =>
    if .print fmt args = exitLine then some .exiting
    else if fmt = toggleLine then some (.choosing (args = [.text "ON"]))
    else if fmt ∈ menuLines then some (.choosing stop)
    else none
  | .newline | .sample _ => some (.choosing stop)
  | .stage (.menuLeft driveType driveFs) =>
    if driveFs = fsFat32 ∧ (driveType = driveUsb ∨ driveType = driveSd) then
      some (.mounting stop (interfaceOf driveType))
    else
      none
  | _ => none

/-- A prompt with the lines `lines` that is still waiting in phase `q`. -/
def prompt (lines : List String) (q : Phase) : Event → Option Phase
  | .print fmt _ => if fmt ∈ lines then some q else none
  | .sample _ => some q
  | _ => none

/-- What follows a mount. -/
def afterMount (stop : Bool) : MountResult → Phase
  | .returned true => .mounted stop
  | .returned false => .failing (.errorLine 0 "Unable to mount drive." [])
  | .exception what => .failing (.errorLine 1 "Unhandled FAT exception: %s" [.text what])
  | .unknownException => .failing (.errorLine 2 "Unhandled FAT exception" [])

/-- What follows the search for the disc. -/
def afterInitialize (stop : Bool) (ret : Int) : Phase :=
  if ret = 0 then .probing stop else .failing (.errorLine ret "Unable to initialize disk." [])

/-- What follows `dump`. -/
def afterDump (ret : Int) : Phase := if ret = 0 then .leaving else .failing (.errorLine ret "Dump failed." [])

/-! ## The copy -/

/-- A part begins with the next sector. -/
def Copy.rolls (c : Copy) : Bool := chunkSize ∣ sectorSize * c.done

/-- The part the copy is in. -/
def Copy.part (c : Copy) : Option Nat := some (c.parts - 1)

/-- The progress line after the next sector. -/
def Copy.progress (c : Copy) : Event :=
  .print "Dumped %.2f MB / %.2f MB (%d%%) (%d errors)"
    [.megabytes (sectorOffset (c.done + 1)), .megabytes c.size, .percent (sectorOffset (c.done + 1)) c.size,
      .int c.errors]

/-- The next sector is read as a whole. -/
def Copy.reads (c : Copy) (r : Request) : Bool :=
  r.range = ⟨sectorSize * c.done, sectorSize⟩ ∧ r.count.toNat = sectorSize

/-- Between two sectors: the next one, or the end. -/
def Copy.next (c : Copy) : Event → Option Phase
  | .moveUp =>
    if sectorSize * c.done < c.size.toNat then
      some (.copying c (if c.rolls then if c.parts = 0 then .closed else .rolling else .reading 0))
    else
      none
  | .fclose fp =>
    if ¬ sectorSize * c.done < c.size.toNat ∧ 0 < c.parts ∧ fp = c.part then
      some (.returning [.free, .print "Dump complete after %d minutes!" [.minutes]] 0)
    else
      none
  | _ => none

/-- What the copy of a sector does next. -/
def Copy.step (c : Copy) : Sector → Event → Option Phase
  | .heading, ev => if ev = .print "Taking a dump..." [] then some (.copying c .zero) else none
  | .zero, ev => if ev = .print "Dumped 0 bytes" [] then some (.copying c .ready) else none
  | .ready, ev => c.next ev
  | .rolling, ev => if ev = .fclose c.part then some (.copying c .closed) else none
  | .closed, .fopen _ true => some (.copying { c with parts := c.parts + 1 } (.reading 0))
  | .closed, .fopen filename false =>
    some (.returning [.newline, .print "Failed to create file: %s" [.chars filename], .free] (-2))
  | .reading n, .request r => if n < 3 ∧ c.reads r then some (.copying c (.commanded n)) else none
  | .reading n, .print fmt args =>
    if n = 3 ∧ .print fmt args = errorReport c.done then some (.copying { c with errors := c.errors + 1 } .reported)
    else none
  | .commanded n, ev => if ev = .dcInvalidate .buffer sectorSize then some (.copying c (.waiting n)) else none
  | .waiting n, .finished ok => some (.copying c (if ok then .settled else .reading (n + 1)))
  | .reported, .errorLine _ fmt args =>
    if c.stop ∧ fmt = "Unrecovered read error." ∧ args = [] then some .leaving else none
  | .reported, .memset n => if ¬ c.stop ∧ n = sectorSize then some (.copying c .settled) else none
  | .settled, .fwrite fp asked written =>
    if fp = c.part ∧ asked = sectorSize ∧ written ≤ sectorSize then
      if written = sectorSize then
        some (.copying c .written)
      else
        some (.returning [.print "Error writing file. Bytes written: %d. Bytes expected: %d."
          [.int written, .u32 (UInt32.ofNat sectorSize)], .fclose fp, .free] (-2))
    else
      none
  | .written, ev => if ev = c.progress then some (.copying { c with done := c.done + 1 } .shown) else none
  | .shown, .sample buttons => some (if buttons &&& wpadButtonHome ≠ 0 then .quitting else .copying c .ready)
  | _, _ => none

/-! ## The machine -/

def Phase.step : Phase → Event → Option Phase
  | .choosing stop, ev => choose stop ev
  | .mounting stop iface, .fatMount iface' res => if iface' = iface then some (afterMount stop res) else none
  | .mounting stop iface, ev => prompt ["Insert your %s %s now, and press A."] (.mounting stop iface) ev
  | .mounted stop, ev => if ev = .stage .mounted then some (.finding stop) else none
  | .finding stop, .ioctl => some (.finding stop)
  | .finding stop, .request r => if r.finding then some (.finding stop) else none
  | .finding stop, .stage (.initialized ret) => some (afterInitialize stop ret)
  | .finding stop, ev => prompt ["Insert your %s now, and press A.", "Initializing DVD..."] (.finding stop) ev
  | .probing stop, .request _ | .probing stop, .dcInvalidate _ _ | .probing stop, .finished _ => some (.probing stop)
  -- a disc that was found has a known magic word, so `main` never reports an unknown one
  | .probing stop, .stage (.identified diskType) =>
    if getDiskSizeBytes diskType = 0 then none else some (.confirming stop diskType)
  | .probing _, _ => none
  | .confirming stop diskType, .stage (.dump disk diskType' size) =>
    if disk = some .localId ∧ diskType' = diskType ∧ size = getDiskSizeBytes diskType then
      some (.starting ⟨size, stop, 0, 0, 0⟩)
    else
      none
  | .confirming stop diskType, ev =>
    prompt ["Press A to start dumping.", "Press Home or Reset to exit."] (.confirming stop diskType) ev
  | .starting c, .memalign true => some (.copying c .heading)
  | .starting _, .memalign false => some (.returning [.print "Failed to allocate buffer." []] 1)
  | .starting _, _ => none
  | .copying c s, ev => c.step s ev
  | .returning (due :: rest) ret, ev => if ev = due then some (.returning rest ret) else none
  | .returning [] ret, ev => if ev = .stage (.dumped ret) then some (afterDump ret) else none
  | .failing line, ev => if ev = line then some .leaving else none
  | .leaving, ev =>
    if ev = exitLine then some .exiting else prompt ["Press A to exit."] .leaving ev
  | .quitting, ev => if ev = exitLine then some .exiting else none
  | .exiting, ev => if ev = .exit 0 then some .exited else none
  | .exited, _ => none

/-- The session a trace tells of. -/
def read (evs : List Event) : Option Phase := Monitor.run Phase.step (.choosing true) evs

end Session

end TakeADump
