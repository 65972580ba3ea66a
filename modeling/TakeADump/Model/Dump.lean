import TakeADump.Lib.Retry
import TakeADump.Model.Drive

/-!
# `DiskManager::dump`

The body of the main loop is cut where the source has blank lines: `rollover` opens the next part when needed,
`readSector` tries the sector three times, `settle` reports an unreadable sector and zeroes the buffer or leaves,
`writeSector` writes it, `advance` moves the counters, reports the progress and looks for HOME.
-/

namespace TakeADump

variable (e : Env)

/-! ## `stdio` and the heap -/

/-- The name of part `k`: `snprintf(filename, 256, "%s.part%d.iso", diskId->gameCode, k)`. `%s` reads from the first
byte of the `DiskID` on, and `snprintf` keeps no more than 255 bytes of what it reads. -/
def partName (diskId : Nat → UInt8) (k : Int32) : Bytes :=
  CFormat.clip 256
    (CFormat.cstr 255 diskId ++ CFormat.ascii ".part" ++ CFormat.decimal k.toInt ++ CFormat.ascii ".iso")

def memalign : Prog Bool := do
  emit (.memalign e.memalign)
  pure e.memalign

def free : Prog Unit := emit .free

/-- `fopen(filename, "wb")`: a new stream on an empty file. -/
def fopen (filename : Bytes) : Prog (Option Nat) := do
  let n := (← get).streams.length
  if e.fopen n then do
    modify fun w => { w with streams := w.streams ++ [⟨filename, [], none⟩] }
    emit (.fopen filename true)
    pure (some n)
  else do
    emit (.fopen filename false)
    pure none

/-- What closing stream `n` puts on the medium. -/
def kept (n : Nat) (data : Bytes) : Bytes :=
  match e.fclose n with
  | none => data
  | some m => data.take m

def Stream.close (n : Nat) (s : Stream) : Stream :=
  match s.stored with
  | none => { s with stored := some (kept e n s.data) }
  | some _ => s

/-- `fclose`; its result is not looked at. -/
def fclose (fp : Option Nat) : Prog Unit := do
  match fp with
  | none => emit (.fclose none)
  | some n => do
    modify fun w => { w with streams := w.streams.modify n (Stream.close e n) }
    emit (.fclose (some n))

/-- `if (fp) fclose(fp);` -/
def fcloseOpen (fp : Option Nat) : Prog Unit := if fp ≠ none then fclose e fp else pure ()

/-- How many of `n` bytes the `fwrite` call accepts. -/
def accepted (call n : Nat) : Nat :=
  match e.fwrite call with
  | none => n
  | some m => min m n

/-- `fwrite(buffer, 1, n, fp)`. -/
def fwrite (n : Nat) (fp : Option Nat) : Prog Nat := do
  let w ← get
  let written := accepted e w.writes n
  modify fun w => { w with writes := w.writes + 1 }
  match fp with
  | none => do
    emit (.fwrite none n written)
    pure written
  | some i => do
    modify fun w => { w with
      streams := w.streams.modify i fun s => { s with data := s.data ++ bytesAt (w.mem .buffer) written } }
    emit (.fwrite (some i) n written)
    pure written

/-- `memset(buffer, 0, n)`. -/
def memset (n : Nat) : Prog Unit := do
  emit (.memset n)
  modify fun w => { w with mem := Function.update w.mem .buffer fun i => if i < n then 0 else w.mem .buffer i }

/-! ## The body of the loop -/

/-- `chunk_index` has been counted up for `filename`: open it; `false` if it cannot be created. -/
def openFile (filename : Bytes) : Prog Bool := do
  setFrame fun f => { f with chunkIndex := f.chunkIndex + 1 }
  let fp ← fopen e filename
  setFrame fun f => { f with fp := fp }
  if fp = none then do
    Logger.newline
    Logger.print "Failed to create file: %s" [.chars filename]
    free
    pure false
  else do
    setFrame fun f => { f with chunkOffset := 0 }
    pure true

/-- Opens the next part. -/
def openPart (diskId : Option Region) : Prog Bool := do
  let r ← deref diskId
  let w ← get
  openFile e (partName (w.mem r) w.frame.chunkIndex)

/-- Opens the next part if none is open or the open one is full. -/
def rollover (diskId : Option Region) : Prog Bool := do
  let f := (← get).frame
  if f.fp = none ∨ f.chunkOffset.toNat ≥ chunkSize then do
    fcloseOpen e f.fp
    openPart e diskId
  else
    pure true

/-- `read_size`. -/
def Frame.readSize (f : Frame) : UInt32 :=
  if f.remaining.toNat > sectorSize then UInt32.ofNat sectorSize else f.remaining.toUInt32

/-- Up to three reads of the sector. -/
def readSector (readSize : UInt32) : Prog Int := do
  let lba := (← get).frame.lba
  Imp.retry .spin 3 (dvdLowRead64 e .buffer readSize (lba <<< 11))

/-- After the last try: count and report a failure, and leave the program or zero the buffer. `Logger::error` is not
followed by a `return`: if it came back, the sector would be written. -/
def settle (fuel : Nat) (ret : Int) (readSize : UInt32) : Prog Unit := do
  if ret ≠ 0 then do
    modify fun w => { w with errorCount := w.errorCount + 1 }
    Logger.print "Error reading disk at offset 0x%08llX." [.u64 (← get).frame.offset]
    if (← get).cancelOnError then
      Logger.error e fuel ret "Unrecovered read error." []
    else
      memset readSize.toNat

/-- Writes the sector to the open part; `false` if not all of it was accepted. -/
def writeSector (readSize : UInt32) : Prog Bool := do
  let fp := (← get).frame.fp
  let written ← fwrite e readSize.toNat fp
  if written ≠ readSize.toNat then do
    Logger.print "Error writing file. Bytes written: %d. Bytes expected: %d." [.int written, .u32 readSize]
    fclose e fp
    free
    pure false
  else
    pure true

/-- Moves the counters, prints the progress and leaves the program if HOME is held. -/
def advance (diskSize : UInt64) (readSize : UInt32) : Prog Unit := do
  setFrame fun f =>
    { f with
      lba := f.lba + (readSize >>> 11).toUInt64
      offset := f.offset + readSize.toUInt64
      chunkOffset := f.chunkOffset + readSize.toUInt64
      remaining := f.remaining - readSize.toUInt64 }
  let w ← get
  Logger.print "Dumped %.2f MB / %.2f MB (%d%%) (%d errors)"
    [.megabytes w.frame.offset, .megabytes diskSize, .percent w.frame.offset diskSize, .int w.errorCount]
  let buttons ← Global.getControllerButtonsPressed e
  if buttons &&& wpadButtonHome ≠ 0 then Global.reset 0

/-- From the read of a sector to the end of the body. -/
def copySector (fuel : Nat) (diskSize : UInt64) : Prog (Imp.Round Unit Int) := do
  let readSize := (← get).frame.readSize
  let ret ← readSector e readSize
  settle e fuel ret readSize
  if ← writeSector e readSize then do
    advance e diskSize readSize
    pure (.next ())
  else
    pure (.done (-2))

/-- The end of `dump`. -/
def finish : Prog Int := do
  fcloseOpen e (← get).frame.fp
  free
  Logger.print "Dump complete after %d minutes!" [.minutes]
  pure 0

/-- One round of `while (remaining > 0)`, with the code after the loop when it is left. -/
def dumpRound (fuel : Nat) (diskId : Option Region) (diskSize : UInt64) (_ : Unit) : Prog (Imp.Round Unit Int) := do
  if (← get).frame.remaining.toNat > 0 then do
    Logger.moveUp
    if ← rollover e diskId then copySector e fuel diskSize else pure (.done (-2))
  else do
    let ret ← finish e
    pure (.done ret)

/-- `DiskManager::dump`. Every round but the last one copies at least one byte, so the loop needs at most
`diskSize + 1` rounds. -/
def dump (fuel : Nat) (diskId : Option Region) (_diskType : Int) (diskSize : UInt64) : Prog Int := do
  if ← memalign e then do
    setFrame fun _ => ⟨none, 0, 1, 0, diskSize, 0⟩
    Logger.print "Taking a dump..." []
    Logger.print "Dumped 0 bytes" []
    Imp.loop .spin (dumpRound e fuel diskId diskSize) (diskSize.toNat + 1) ()
  else do
    Logger.print "Failed to allocate buffer." []
    pure 1

end TakeADump
