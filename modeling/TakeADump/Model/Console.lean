import TakeADump.Lib.Printf
import TakeADump.Model.World

/-!
# The console

* What `dump` prints of its progress is computed in `double`: rationals, rounded as in binary64 after each operation
  (`percentOf`, `megabytesOf`).
* `Event.text`: the bytes the console receives for an event. Both ends of a line are the program's: `Logger::print` and
  `Logger::error` put the newline after it, `Logger::moveUp` the cursor sequence before it.
-/

namespace TakeADump

/-- A rational in a `double`. -/
def double (x : ℚ) : ℚ := Rounding.round 53 (-1074) x

/-- `round`: the nearest integer, away from zero from the middle. -/
def cround (x : ℚ) : Int := if 0 ≤ x then ⌊x + 1 / 2⌋ else ⌈x - 1 / 2⌉

/-- `static_cast<int>(round(((double)offset / (double)diskSize) * 100))`. -/
def percentOf (offset diskSize : UInt64) : Int :=
  cround (double (double (double offset.toNat / double diskSize.toNat) * 100))

/-- `offset / 1024.0 / 1024.0`. -/
def megabytesOf (offset : UInt64) : ℚ := double (double (double offset.toNat / 1024) / 1024)

def progressLine : String := "Dumped %.2f MB / %.2f MB (%d%%) (%d errors)"

def reportLine : String := "Error reading disk at offset 0x%08llX."

/-- The percentage a progress line shows. -/
def Event.percent : Event → Option Int
  | .print fmt [.megabytes _, .megabytes _, .percent offset diskSize, .int _] =>
    if fmt = progressLine then some (percentOf offset diskSize) else none
  | _ => none

theorem percent_print {fmt : String} (h : fmt ≠ progressLine) (args : List Arg) :
    (Event.print fmt args).percent = none := by
  unfold Event.percent
  split
  · rename_i heq
    cases heq
    exact if_neg h
  · rfl

/-! ## Text -/

/-- A conversion of an argument. The minutes a dump took are given from outside. -/
def Arg.convert (minutes : Int) : Printf.Conv → Arg → Bytes
  | .str, .text s => CFormat.ascii s
  | .str, .chars s => s
  | .dec width, .int n => Printf.signed width n
  | .dec width, .u32 n => Printf.signed width n.toInt32.toInt
  | .dec width, .percent offset diskSize => Printf.signed width (percentOf offset diskSize)
  | .dec width, .minutes => Printf.signed width minutes
  | .hex width, .u64 n => Printf.pad width (Printf.numeral 16 n.toNat)
  | .fixed, .megabytes n => Printf.fixed (megabytesOf n)
  | _, _ => []

/-- `vprintf(input, args)`. -/
def vprintf (minutes : Int) (input : String) (args : List Arg) : Bytes :=
  Printf.vprintf (Arg.convert minutes) (Printf.pieces input.toList) args

/-- `Logger::moveUp`. -/
def escUp : Bytes := 27 :: CFormat.ascii "[1A"

/-- What an event puts on the console. -/
def Event.text (minutes : Int) : Event → Bytes
  | .print input args => vprintf minutes input args ++ [10]
  | .errorLine code input args => vprintf minutes "ERR %01d: " [.int code] ++ vprintf minutes input args ++ [10]
  | .newline => [10]
  | .moveUp => escUp
  | _ => []

end TakeADump
