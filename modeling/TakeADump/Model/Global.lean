import TakeADump.Model.World

/-!
# Logger, Wiimote and exit

`Logger::verbose` prints in debug builds only and is left out. An unbounded wait is followed for `fuel` rounds, after
which the run stops in `Stop.spin`: still waiting.
-/

namespace TakeADump

namespace Logger

def print (fmt : String) (args : List Arg) : Prog Unit := emit (.print fmt args)

def newline : Prog Unit := emit .newline

def moveUp : Prog Unit := emit .moveUp

end Logger

variable (e : Env)

namespace Global

def setCancelOnError (status : Bool) : Prog Unit := modify fun w => { w with cancelOnError := status }

/-- `WPAD_ScanPads` and the buttons held. -/
def getControllerButtonsPressed : Prog UInt32 := do
  let buttons := e.pad (← get).samples
  modify fun w => { w.log (.sample buttons) with samples := w.samples + 1 }
  pure buttons

/-- `exit(code)`; the open streams keep what they accepted. -/
def exit (code : Int) : Prog Unit := do
  emit (.exit code)
  throw (.exit code)

def reset (code : Int) : Prog Unit := do
  Logger.print "Exiting with code %02d..." [.int code]
  exit code

/-- One round of a wait for a sample that satisfies `p`. -/
def waitRound (p : UInt32 → Bool) (_ : Unit) : Prog (Imp.Round Unit Unit) := do
  let buttons ← getControllerButtonsPressed e
  if p buttons then pure (.done ()) else pure (.next ())

def waitForA (fuel : Nat) : Prog Unit :=
  Imp.loop .spin (waitRound e fun buttons => buttons &&& wpadButtonA ≠ 0) fuel ()

def waitForButtonRelease (fuel : Nat) : Prog Unit :=
  Imp.loop .spin (waitRound e fun buttons => buttons = 0) fuel ()

def resetAfterPause (fuel : Nat) : Prog Unit := do
  Logger.print "Press A to exit." []
  waitForButtonRelease e fuel
  waitForA e fuel
  waitForButtonRelease e fuel
  reset 0

end Global

/-- `Logger::error`: prints, waits for A and leaves the program. -/
def Logger.error (fuel : Nat) (code : Int) (fmt : String) (args : List Arg) : Prog Unit := do
  emit (.errorLine code fmt args)
  Global.resetAfterPause e fuel

end TakeADump
