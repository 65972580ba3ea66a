import TakeADump.Model.Drive

/-!
# Finding the disc

`initialize_disk` resets the drive, asks for its error code, then polls the disc ID through IOS until a header with a
known magic word comes back, and reads the ID once more into the static `DiskID`. The pokes that reset the drive and
the pauses between polls have no modelled effect.
-/

namespace TakeADump

variable (e : Env)

/-- `IOS_Open("/dev/di", 0)`. -/
def iosOpen : Prog Int := do
  let fd := e.iosOpen (← get).opens
  modify fun w => { w with opens := w.opens + 1 }
  pure fd

/-- `IOS_Ioctl(di_fd, 0x70, inbuffer, 0x20, outbuf, 0x20)`: reads the disc ID to low memory. -/
def iosIoctlReadId : Prog Int := do
  let reply := e.ioctl (← get).ioctls
  modify fun w =>
    { w.log .ioctl with
      ioctls := w.ioctls + 1
      mem := match reply.data with
        | some d => Function.update w.mem .lowMem fun i => if i < 0x20 then d i else w.mem .lowMem i
        | none => w.mem }
  pure reply.result

/-- `memset(outbuf, 0, 0x20)`. -/
def clearLowMem : Prog Unit :=
  modify fun w =>
    { w with mem := Function.update w.mem .lowMem fun i => if i < 0x20 then 0 else w.mem .lowMem i }

/-- The part of `WDVD_LowReadDiskId` after the device was opened. -/
def readIdToLowMem : Prog Int := do
  clearLowMem
  let result ← iosIoctlReadId e
  if result < 0 then
    pure (-result)
  else do
    let d := (← get).mem .lowMem
    if magicWord d = wiiMagic ∨ magicWord d = ngcMagic then pure 0 else pure (-2)

/-- `WDVD_LowReadDiskId`. -/
def wdvdLowReadDiskId : Prog Int := do
  if (← get).diFd < 0 then do
    let fd ← iosOpen e
    modify fun w => { w with diFd := fd }
    if fd < 0 then pure (-1) else readIdToLowMem e
  else
    readIdToLowMem e

/-- `memcpy(&localId, source, sizeof(DiskID))`. -/
def copyToLocalId : Prog Unit :=
  modify fun w =>
    { w with mem := Function.update w.mem .localId fun i =>
        if i < sizeofDiskID then w.mem .lowMem i else w.mem .localId i }

/-- `read_dvd_id`. -/
def readDvdId : Prog (Option Region) := do
  if (← wdvdLowReadDiskId e) = 0 then do
    copyToLocalId
    pure (some .localId)
  else
    pure none

/-- The ID read of `initialize_disk` through the registers; what it delivers is not looked at. -/
def hardInit : Prog Unit := do
  setStatus 0x54
  setDvd 2 0xA8000040
  setDvd 3 0
  setDvd 4 0x20
  setDvd 5 (e.addr .id &&& 0x1FFFFFFF)
  setDvd 6 0x20
  startCommand
  raiseError e.hardIdFails
  modify fun w => { w with dvdHardInit := 1 }

/-- One round of `while (idRet != 0)`. -/
def pollRound (idRet : Int) : Prog (Imp.Round Int Unit) := do
  if idRet ≠ 0 then do
    let idRet ← wdvdLowReadDiskId e
    pure (.next idRet)
  else
    pure (.done ())

/-- `(!dvd_hard_init) || (dvd_get_error())`. -/
def needsHardInit : Prog Bool := do
  if (← get).dvdHardInit = 0 then
    pure true
  else do
    let error ← dvdGetError e
    pure (error ≠ 0)

/-- The end of `initialize_disk`: poll, then read the ID once more. -/
def pollAndReadId (fuel : Nat) : Prog Int := do
  Imp.loop .spin (pollRound e) fuel (-1)
  let diskId ← readDvdId e
  modify fun w => { w with globalDiskId := diskId }
  if diskId = none then pure (-1) else pure 0

/-- `initialize_disk`. -/
def initializeDisk (fuel : Nat) : Prog Int := do
  Logger.print "Initializing DVD..." []
  let error ← dvdGetError e
  if error >>> 24 = 1 then
    pure dvdNoDisk
  else do
    if ← needsHardInit e then hardInit e
    let error ← dvdGetError e
    let readCmd := if error &&& 0xFFFFFF = 0x053000 then dvdDvdr else dvdNormal
    modify fun w => { w with readCmd := readCmd }
    pollAndReadId e fuel

/-- `get_disk_id`. -/
def getDiskId : Prog (Option Region) := do
  pure (← get).globalDiskId

end TakeADump
