import Mathlib.Logic.Function.Basic
import TakeADump.Lib.Loop
import TakeADump.Lib.CFormat

/-!
# The console the program runs on

* `Env`: everything the program does not decide, as streams of answers: the disc and how each read command ends, the
  Wiimote samples, what the allocator, `stdio`, `fatMountSimple` and IOS answer.
* `World`: the program's globals, the locals of `DiskManager::dump`, the drive's registers, the memory regions it
  works on, the streams it opened, and the trace of what it did.
* `Prog`: a program over the world. It returns, or stops in `exit`, inside a loop that is still waiting, or at a null
  pointer (`Stop`).

Addresses are kept apart by region: a pointer of the program always points at the start of one of them.
-/

namespace TakeADump

/-! ## Constants -/

def sectorSize : Nat := 0x800
def chunkSize : Nat := 2 * 1024 * 1024 * 1024

theorem sectorSize_eq : sectorSize = 2048 := rfl

theorem sectorSize_pos : 0 < sectorSize := by decide

theorem chunkSize_pos : 0 < chunkSize := by decide

def dvdNormal : UInt32 := 0xA8000000
def dvdDvdr : UInt32 := 0xD0000000
def dvdNoDisk : Int := -1001

def wiiMagic : UInt32 := 0x5D1C9EA3
def ngcMagic : UInt32 := 0xC2339F3D

def isNgcDisk : Int := 0
def isWiiSingleDisk : Int := 1
def isWiiDualDisk : Int := 2
def isUnkDisk : Int := 3

def driveUsb : Int := 0
def driveSd : Int := 1
def fsFat32 : Int := 0
def fsNtfs : Int := 1

/-- `sizeof(DiskID)`: `u32 magicWord` sits at 0x18 and `u8 padding[8]` ends at 0x24. -/
def sizeofDiskID : Nat := 0x24

def wpadButton2 : UInt32 := 0x0001
def wpadButton1 : UInt32 := 0x0002
def wpadButtonB : UInt32 := 0x0004
def wpadButtonA : UInt32 := 0x0008
def wpadButtonMinus : UInt32 := 0x0010
def wpadButtonHome : UInt32 := 0x0080
def wpadButtonPlus : UInt32 := 0x1000

/-- `NTFS_SUPPORT` in `main.cpp`. -/
def ntfsSupport : Bool := false

/-! ## What the outside answers -/

abbrev Bytes := List UInt8

/-- The memory a pointer of the program points at. -/
inductive Region
  | buffer    -- the sector buffer of `dump`
  | buf2      -- the probe buffer of `identify_disk`
  | id        -- the ID buffer of `initialize_disk`
  | lowMem    -- 0x80000000
  | localId   -- the static `DiskID` of `read_dvd_id`, and what follows it
  deriving DecidableEq

/-- A byte range of the disc. -/
structure Range where
  start : Nat
  length : Nat
  deriving DecidableEq

/-- How a read command ends: with the bytes delivered, or with the error flag and anything in the buffer. -/
inductive Attempt
  | ok
  | err (junk : Nat → UInt8)

def Attempt.isOk : Attempt → Bool
  | .ok => true
  | .err _ => false

/-- An answer of IOS to the ID ioctl: the result code, and the bytes if any were delivered. -/
structure IoctlReply where
  result : Int
  data : Option (Nat → UInt8)

/-- An answer of the drive to a request for its error code, and whether it raises the error flag on it. -/
structure ErrorReply where
  code : UInt32
  raises : Bool

/-- A device that can be mounted. -/
inductive Interface
  | usbstorage
  | wiisd
  deriving DecidableEq

/-- How `fatMountSimple` comes back. -/
inductive MountResult
  | returned (ok : Bool)
  | exception (what : String)
  | unknownException
  deriving DecidableEq

structure Env where
  disc : Nat → UInt8
  /-- The `t`-th command for a range. -/
  attempt : Range → Nat → Attempt
  /-- The `n`-th Wiimote sample. -/
  pad : Nat → UInt32
  memalign : Bool
  /-- Whether the `n`-th stream can be opened. -/
  fopen : Nat → Bool
  /-- What the `n`-th `fwrite` accepts: everything, or at most so many bytes. -/
  fwrite : Nat → Option Nat
  /-- What closing stream `n` puts on the medium: everything, or (reporting `EOF`) only so many bytes. -/
  fclose : Nat → Option Nat
  mount : Interface → MountResult
  iosOpen : Nat → Int
  ioctl : Nat → IoctlReply
  /-- The answer to the `n`-th request for the error code. -/
  errorCode : Nat → ErrorReply
  /-- Whether the drive raises the error flag on the ID read of `initialize_disk`. -/
  hardIdFails : Bool
  addr : Region → UInt32

/-- Nothing fails and nothing is pressed. -/
def Env.calm (disc : Nat → UInt8) : Env where
  disc := disc
  attempt := fun _ _ => .ok
  pad := fun _ => 0
  memalign := true
  fopen := fun _ => true
  fwrite := fun _ => none
  fclose := fun _ => none
  mount := fun _ => .returned true
  iosOpen := fun _ => 3
  ioctl := fun _ => ⟨0, some disc⟩
  errorCode := fun _ => ⟨0, false⟩
  hardIdFails := false
  addr := fun
    | .buffer => 0x80A00000
    | .buf2 => 0x80A01000
    | .id => 0x80A02000
    | .lowMem => 0x80000000
    | .localId => 0x80A03000

/-! ## What the program did -/

/-- An argument of a formatted line. -/
inductive Arg
  | int (n : Int)
  | u32 (n : UInt32)
  | u64 (n : UInt64)
  | chars (s : Bytes)
  | text (s : String)
  | megabytes (n : UInt64)
  | percent (n total : UInt64)
  | minutes
  deriving DecidableEq

/-- The registers of a command at the moment it is started by a store to `dvd[7]`. -/
structure Request where
  cmd : UInt32
  addr : UInt32
  len : UInt32
  dma : UInt32
  count : UInt32
  deriving DecidableEq

/-- The stages of `main`. -/
inductive Stage
  | menuLeft (driveType driveFs : Int)
  | mounted
  | initialized (ret : Int)
  | identified (diskType : Int)
  | dump (disk : Option Region) (diskType : Int) (size : UInt64)
  | dumped (ret : Int)
  deriving DecidableEq

inductive Event
  | print (fmt : String) (args : List Arg)
  | errorLine (code : Int) (fmt : String) (args : List Arg)
  | newline
  | moveUp
  | sample (buttons : UInt32)
  | exit (code : Int)
  | memalign (ok : Bool)
  | free
  | memset (n : Nat)
  | request (r : Request)
  | dcInvalidate (dst : Region) (n : Nat)
  | finished (ok : Bool)
  | fopen (filename : Bytes) (ok : Bool)
  | fwrite (fp : Option Nat) (asked written : Nat)
  | fclose (fp : Option Nat)
  | fatMount (iface : Interface) (res : MountResult)
  | ioctl
  | stage (s : Stage)
  deriving DecidableEq

/-! ## The world -/

/-- A stream `fopen` returned: the file's name, the bytes `fwrite` accepted and, once it was closed, what is on the
medium. -/
structure Stream where
  name : Bytes
  data : Bytes
  stored : Option Bytes
  deriving DecidableEq

/-- The locals of `DiskManager::dump` that live through its loop. -/
structure Frame where
  fp : Option Nat
  offset : UInt64
  chunkIndex : Int32
  chunkOffset : UInt64
  remaining : UInt64
  lba : UInt64

structure World where
  cancelOnError : Bool
  driveType : Int
  driveFs : Int
  errorCount : Int
  readCmd : UInt32
  dvdHardInit : UInt32
  diFd : Int
  globalDiskId : Option Region
  frame : Frame
  /-- The registers `dvd[0]`, ..., `dvd[8]`. -/
  dvd : Nat → UInt32
  mem : Region → Nat → UInt8
  /-- The commands the drive has run for a range. -/
  tried : Range → Nat
  samples : Nat
  writes : Nat
  opens : Nat
  ioctls : Nat
  queries : Nat
  streams : List Stream
  /-- The directory before the program ran. -/
  prior : Bytes → Option Bytes
  trace : List Event
  /-- The streams as they were after each event of the trace. -/
  seen : List (List Stream)

/-- How a run that does not return to its caller stands. -/
inductive Stop
  | exit (code : Int)
  | spin
  | fault
  deriving DecidableEq

abbrev Prog := EStateM Stop World

/-- The last stream opened under a name. -/
def World.lastStream (w : World) (name : Bytes) : Option Stream := w.streams.reverse.find? fun s => s.name = name

/-- What was written to a file: the bytes `fwrite` accepted for the last stream of the name, whether or not they came
to the medium, else what was there before. -/
def World.writtenFile (w : World) (name : Bytes) : Option Bytes :=
  match w.lastStream name with
  | some s => some s.data
  | none => w.prior name

/-- The content of a file: what closing the last stream of the name put on the medium, else what was there before. A
stream that is still open keeps what it accepted. -/
def World.file (w : World) (name : Bytes) : Option Bytes :=
  match w.lastStream name with
  | some s => some (s.stored.getD s.data)
  | none => w.prior name

/-- The event is recorded, and the streams as they are then. -/
def World.log (w : World) (ev : Event) : World :=
  { w with trace := w.trace ++ [ev], seen := w.seen ++ [w.streams] }

/-- The events are recorded, one after the other. -/
def World.logs (w : World) (evs : List Event) : World :=
  { w with trace := w.trace ++ evs, seen := w.seen ++ evs.map fun _ => w.streams }

@[simp] theorem logs_nil (w : World) : w.logs [] = w := by simp [World.logs]

@[simp] theorem trace_logs (w : World) (evs : List Event) : (w.logs evs).trace = w.trace ++ evs := rfl

def emit (ev : Event) : Prog Unit := modify fun w => w.log ev

def setFrame (f : Frame → Frame) : Prog Unit := modify fun w => { w with frame := f w.frame }

/-- The bytes from `a` to `a + n` of a memory. -/
def bytesAt (mem : Nat → UInt8) (n : Nat) : Bytes := (List.range n).map mem

@[simp] theorem length_bytesAt (mem : Nat → UInt8) (n : Nat) : (bytesAt mem n).length = n := by simp [bytesAt]

/-- The big-endian word at `off`. -/
def be32 (mem : Nat → UInt8) (off : Nat) : UInt32 :=
  ((mem off).toUInt32 <<< 24) ||| ((mem (off + 1)).toUInt32 <<< 16) ||| ((mem (off + 2)).toUInt32 <<< 8) |||
    (mem (off + 3)).toUInt32

/-- `disk->magicWord`. -/
def magicWord (disk : Nat → UInt8) : UInt32 := be32 disk 0x18

end TakeADump
