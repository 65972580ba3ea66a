import TakeADump.Model.Global

/-!
# The DVD drive

The drive sits behind nine registers. A store to `dvd[0]` sets the interrupt masks and clears the status bits written
as one; a store to `dvd[7]` with bit 0 starts the command in the other registers, and the busy-wait on that bit ends
when the command has ended. A read command moves the bytes of the addressed range to the destination or raises the
device-error flag, bit 2 of `dvd[0]`.
-/

namespace TakeADump

/-! ## Registers -/

def setDvd (i : Nat) (v : UInt32) : Prog Unit := modify fun w => { w with dvd := Function.update w.dvd i v }

/-- A store to `dvd[0]`: bits 1, 3 and 5 are masks, bits 2, 4 and 6 are cleared by writing one. -/
def statusAfterWrite (old v : UInt32) : UInt32 := (old &&& 0x54 &&& ~~~v) ||| (v &&& 0x2A)

def setStatus (v : UInt32) : Prog Unit :=
  modify fun w => { w with dvd := Function.update w.dvd 0 (statusAfterWrite (w.dvd 0) v) }

/-- The command in the registers. -/
def World.pending (w : World) : Request := ⟨w.dvd 2, w.dvd 3, w.dvd 4, w.dvd 5, w.dvd 6⟩

/-- The byte range a read command addresses: sectors for `DVD_DVDR`, words and a length in bytes otherwise. -/
def Request.range (r : Request) : Range :=
  if r.cmd = dvdDvdr then ⟨r.addr.toNat * 2048, r.len.toNat * 2048⟩ else ⟨r.addr.toNat * 4, r.len.toNat⟩

/-- The memory after an attempt: the range delivered as far as the transfer length goes, or junk. -/
def Attempt.fill (a : Attempt) (disc : Nat → UInt8) (r : Request) (mem : Nat → UInt8) : Nat → UInt8 :=
  match a with
  | .ok => fun i => if i < min r.range.length r.count.toNat then disc (r.range.start + i) else mem i
  | .err junk => junk

/-- A store to `dvd[7]` with bit 0. -/
def startCommand : Prog Unit := do
  emit (.request (← get).pending)

/-- The commands of `initialize_disk`: the request for the error code and the ID read. -/
def Request.finding (r : Request) : Bool := r.cmd = 0xE0000000 ∨ r.cmd = 0xA8000040

variable (e : Env)

/-- How the drive ends the command in the registers. -/
def World.answer (w : World) : Attempt := e.attempt w.pending.range (w.tried w.pending.range)

/-- The world when a read command has ended. -/
def World.afterRead (w : World) (dst : Region) : World :=
  { w with
    mem := Function.update w.mem dst ((w.answer e).fill e.disc w.pending (w.mem dst))
    tried := Function.update w.tried w.pending.range (w.tried w.pending.range + 1)
    dvd := if (w.answer e).isOk then w.dvd else Function.update w.dvd 0 (w.dvd 0 ||| 0x4) }

/-- The store `dvd[7] = 3` of a read command and the wait for its end. -/
def startAndWait (dst : Region) (len : UInt32) : Prog Unit := do
  startCommand
  emit (.dcInvalidate dst len.toNat)
  let ok := ((← get).answer e).isOk
  modify fun w => w.afterRead e dst
  emit (.finished ok)

/-! ## Reading -/

/-- `DVD_LowRead64`. -/
def dvdLowRead64 (dst : Region) (len : UInt32) (offset : UInt64) : Prog Int := do
  if offset >>> 2 > 0xFFFFFFFF then
    pure (-1)
  else do
    let readCmd := (← get).readCmd
    setStatus 0x2E
    setDvd 1 0
    setDvd 2 readCmd
    setDvd 3 (if readCmd = dvdDvdr then (offset >>> 11).toUInt32 else (offset >>> 2).toUInt32)
    setDvd 4 (if readCmd = dvdDvdr then len >>> 11 else len)
    setDvd 5 (e.addr dst &&& 0x1FFFFFFF)
    setDvd 6 len
    startAndWait e dst len
    if (← get).dvd 0 &&& 0x4 ≠ 0 then pure 1 else pure 0

/-- The error flag goes up if `raises`. -/
def raiseError (raises : Bool) : Prog Unit :=
  if raises then modify fun w => { w with dvd := Function.update w.dvd 0 (w.dvd 0 ||| 0x4) } else pure ()

/-- `dvd_get_error`: the drive answers in `dvd[8]`. -/
def dvdGetError : Prog UInt32 := do
  setDvd 2 0xE0000000
  setDvd 8 0
  startCommand
  let reply := e.errorCode (← get).queries
  modify fun w => { w with queries := w.queries + 1 }
  raiseError reply.raises
  setDvd 8 reply.code
  pure ((← get).dvd 8)

/-! ## Kinds of discs -/

def getDiskSizeBytes (diskType : Int) : UInt64 :=
  if diskType = isNgcDisk then 0x58000000
  else if diskType = isWiiSingleDisk then 0x114000000
  else if diskType = isWiiDualDisk then 0x20AC00000
  else 0

/-- A pointer that is followed. -/
def deref (p : Option Region) : Prog Region :=
  match p with
  | some r => pure r
  | none => throw .fault

/-- `identify_disk`: the magic word, and for a Wii disc a probe read of what is taken for the second layer. -/
def identifyDisk (disk : Option Region) : Prog Int := do
  let d := (← get).mem (← deref disk)
  if magicWord d = ngcMagic then
    pure isNgcDisk
  else if magicWord d = wiiMagic then do
    let layer1Read ← dvdLowRead64 e .buf2 2048 0x16A00000
    if layer1Read = 0 then pure isWiiDualDisk else pure isWiiSingleDisk
  else
    pure isUnkDisk

end TakeADump
