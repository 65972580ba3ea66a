import TakeADump.Model.DiskId
import TakeADump.Model.Dump

/-!
# `main`

Welcome, menu, mount, disc, dump. The errors of `main` are calls of `Logger::error` that are not followed by a
`return`; the stages recorded in the trace say how far a run came.
-/

namespace TakeADump

variable (e : Env)

def enter (s : Stage) : Prog Unit := emit (.stage s)

/-! ## Menu -/

def fsName (driveFs : Int) : String := if driveFs = fsFat32 then "FAT32" else "NTFS"

def menu : Prog Unit := do
  let w ← get
  Logger.print "1  Dump disk to %s USB" [.text (fsName w.driveFs)]
  Logger.print "2  Dump disk to %s SD card" [.text (fsName w.driveFs)]
  Logger.print "A  Toggle stop on read error (currently: %s)" [.text (if w.cancelOnError then "ON" else "OFF")]
  Logger.print "B  Change filesystem (currently: %s)" [.text (fsName w.driveFs)]
  Logger.print "+  Exit" []
  Logger.print "-  Reprint menu" []

/-- The filesystem B changes to. -/
def nextFs (driveFs : Int) : Int :=
  if ntfsSupport then
    if driveFs = fsFat32 then fsNtfs else if driveFs = fsNtfs then fsFat32 else fsFat32
  else
    fsFat32

/-- What a sample in the menu does; `true` if it leaves the menu. -/
def menuAction (buttons : UInt32) : Prog Bool := do
  if buttons &&& wpadButtonA ≠ 0 then do
    Global.setCancelOnError (!(← get).cancelOnError)
    menu
    Logger.newline
    pure false
  else if buttons &&& wpadButtonB ≠ 0 then do
    modify fun w => { w with driveFs := nextFs w.driveFs }
    menu
    Logger.newline
    pure false
  else if buttons &&& wpadButton1 ≠ 0 then do
    modify fun w => { w with driveType := driveUsb }
    pure true
  else if buttons &&& wpadButton2 ≠ 0 then do
    modify fun w => { w with driveType := driveSd }
    pure true
  else if buttons &&& wpadButtonMinus ≠ 0 then do
    menu
    Logger.newline
    pure false
  else if buttons &&& wpadButtonPlus ≠ 0 then do
    Global.reset 0
    pure false
  else
    pure false

/-- One round of the menu loop. The two branches that leave it do not wait for the button to be released. -/
def menuRound (fuel : Nat) (_ : Unit) : Prog (Imp.Round Unit Unit) := do
  let buttons ← Global.getControllerButtonsPressed e
  if ← menuAction buttons then
    pure (.done ())
  else do
    if buttons ≠ 0 then Global.waitForButtonRelease e fuel
    pure (.next ())

/-! ## Mounting -/

def fatMountSimple (iface : Interface) : Prog MountResult := do
  emit (.fatMount iface (e.mount iface))
  pure (e.mount iface)

/-- `mountRet` after the call came back or threw, `-1` being its initial value. -/
def mountRetOf (fuel : Nat) (res : MountResult) : Prog Int := do
  match res with
  | .returned ok => pure (if ok then 1 else 0)
  | .exception what => do
    Logger.error e fuel 1 "Unhandled FAT exception: %s" [.text what]
    pure (-1)
  | .unknownException => do
    Logger.error e fuel 2 "Unhandled FAT exception" []
    pure (-1)

/-- The `try` block of the FAT32 branch: `mountRet`. -/
def tryMount (fuel : Nat) : Prog Int := do
  let driveType := (← get).driveType
  if driveType = driveSd then do
    mountRetOf e fuel (← fatMountSimple e .wiisd)
  else if driveType = driveUsb then do
    mountRetOf e fuel (← fatMountSimple e .usbstorage)
  else do
    Logger.error e fuel (-1) "Invalid drive type: %01d" [.int driveType]
    pure (-1)

/-- The FAT32 branch. -/
def mountFat32 (fuel : Nat) : Prog Unit := do
  let mountRet ← tryMount e fuel
  if mountRet = 0 then Logger.error e fuel mountRet "Unable to mount drive." []

def mountDrive (fuel : Nat) : Prog Unit := do
  let driveFs := (← get).driveFs
  if driveFs = fsFat32 then
    mountFat32 e fuel
  else if driveFs = fsNtfs then
    Logger.error e fuel (-1)
      "NTFS is currently unsupported. Sorry for the inconvenience. (Feel free to make a pull request!)" []
  else
    Logger.error e fuel (-1) "Invalid filesystem type: %01d" [.int driveFs]

/-! ## The program -/

/-- A prompt: wait for A, then for its release. -/
def confirm (fuel : Nat) : Prog Unit := do
  Global.waitForA e fuel
  Global.waitForButtonRelease e fuel

/-- The welcome text, up to its confirmation and the first menu. -/
def welcome (fuel : Nat) : Prog Unit := do
  Logger.print "TakeADump %s by Calebh101" [.text "1.0.0A"]
  Logger.print
    "Please note: We are NOT responsible for any damage to your console, game disks, or external media." []
  Logger.newline
  Logger.print "Press A to continue." []
  Logger.print "Press Reset to exit any time." []
  Logger.newline
  confirm e fuel
  menu
  Logger.newline

/-- The menu loop. -/
def menuLoop (fuel : Nat) : Prog Unit := do
  Imp.loop .spin (menuRound e fuel) fuel ()
  let w ← get
  enter (.menuLeft w.driveType w.driveFs)

/-- Prompt for the drive and mount it. -/
def insertDrive (fuel : Nat) : Prog Unit := do
  let w ← get
  Logger.print "Insert your %s %s now, and press A."
    [.text (fsName w.driveFs), .text (if w.driveType = driveSd then "SD card" else "USB drive")]
  confirm e fuel
  mountDrive e fuel
  enter .mounted

/-- Prompt for the disc and initialise it. -/
def insertDisk (fuel : Nat) : Prog Unit := do
  Logger.print "Insert your %s now, and press A." [.text "game disk"]
  confirm e fuel
  let initRet ← initializeDisk e fuel
  enter (.initialized initRet)
  if initRet ≠ 0 then Logger.error e fuel initRet "Unable to initialize disk." []

/-- The arguments of `dump`. -/
structure DumpArgs where
  disk : Option Region
  diskType : Int
  size : UInt64

/-- Identify the disc and prompt for the dump. -/
def identify (fuel : Nat) : Prog DumpArgs := do
  let disk ← getDiskId
  let type ← identifyDisk e disk
  enter (.identified type)
  if type = isUnkDisk then Logger.error e fuel (-1) "Disk is unknown." []
  let size := getDiskSizeBytes type
  Logger.print "Press A to start dumping." []
  Logger.print "Press Home or Reset to exit." []
  confirm e fuel
  pure ⟨disk, type, size⟩

/-- `main` up to the call of `dump`. -/
def setUp (fuel : Nat) : Prog DumpArgs := do
  welcome e fuel
  menuLoop e fuel
  insertDrive e fuel
  insertDisk e fuel
  identify e fuel

/-- `main` from the call of `dump` on. -/
def dumpAndLeave (fuel : Nat) (args : DumpArgs) : Prog Unit := do
  enter (.dump args.disk args.diskType args.size)
  let dumpRet ← dump e fuel args.disk args.diskType args.size
  enter (.dumped dumpRet)
  if dumpRet ≠ 0 then Logger.error e fuel dumpRet "Dump failed." [] else Global.resetAfterPause e fuel

def main (fuel : Nat) : Prog Unit := do
  let args ← setUp e fuel
  dumpAndLeave e fuel args

/-- `reset_callback`, which the Reset button calls. -/
def resetCallback : Prog Unit := Global.reset 0

/-- The world at the start of `main`, with what the program does not set itself. -/
structure World.Initial (w : World) : Prop where
  cancelOnError : w.cancelOnError = true
  driveType : w.driveType = -1
  driveFs : w.driveFs = fsFat32
  errorCount : w.errorCount = 0
  readCmd : w.readCmd = dvdNormal
  dvdHardInit : w.dvdHardInit = 0
  diFd : w.diFd = -1
  globalDiskId : w.globalDiskId = none
  streams : w.streams = []
  trace : w.trace = []
  seen : w.seen = []

/-- The console when the program starts, with `mem` in its memory and `prior` on the drive. -/
def World.boot (mem : Region → Nat → UInt8) (prior : Bytes → Option Bytes) : World where
  cancelOnError := true
  driveType := -1
  driveFs := fsFat32
  errorCount := 0
  readCmd := dvdNormal
  dvdHardInit := 0
  diFd := -1
  globalDiskId := none
  frame := ⟨none, 0, 0, 0, 0, 0⟩
  dvd := fun _ => 0
  mem := mem
  tried := fun _ => 0
  samples := 0
  writes := 0
  opens := 0
  ioctls := 0
  queries := 0
  streams := []
  prior := prior
  trace := []
  seen := []

theorem initial_boot (mem : Region → Nat → UInt8) (prior : Bytes → Option Bytes) : (World.boot mem prior).Initial :=
  ⟨rfl, rfl, rfl, rfl, rfl, rfl, rfl, rfl, rfl, rfl, rfl⟩

end TakeADump
