import TakeADump.Lib.Loop
import TakeADump.Lib.Frame
import TakeADump.Lib.CFormat
import TakeADump.Lib.Retry
import TakeADump.Lib.Rollover
import TakeADump.Lib.Cache
import TakeADump.Lib.Exclusive
import TakeADump.Lib.Press
import TakeADump.Model.World
import TakeADump.Model.Global
import TakeADump.Model.Drive
import TakeADump.Model.DiskId
import TakeADump.Model.Dump
import TakeADump.Model.Main
import TakeADump.Wait.Samples
import TakeADump.Wait.Quiet
import TakeADump.Drive.Read
import TakeADump.Drive.Address
import TakeADump.Drive.Layer
import TakeADump.Drive.Header
import TakeADump.Drive.Effects
import TakeADump.Drive.Status
import TakeADump.Drive.Identity
import TakeADump.Drive.Poll
import TakeADump.Setup.Follows
import TakeADump.Setup.Menu
import TakeADump.Setup.Prompts
import TakeADump.Setup.Ready
import TakeADump.Dump.Copy
import TakeADump.Dump.Image
import TakeADump.Dump.Stages
import TakeADump.Dump.Run
import TakeADump.Dump.Outcome
import TakeADump.Dump.Fidelity
import TakeADump.Dump.Trace
import TakeADump.Dump.Interrupted
import TakeADump.Dump.Storage
import TakeADump.Dump.Naming
import TakeADump.Dump.Directory
import TakeADump.Dump.Partition
import TakeADump.Dump.Report
import TakeADump.Dump.BufferOps
import TakeADump.Dump.Coherence
import TakeADump.Dump.Reads
import TakeADump.Dump.Handles
import TakeADump.Dump.Modes
import TakeADump.Lib.Monitor
import TakeADump.Lib.Fuel
import TakeADump.Lib.Rounding
import TakeADump.Lib.Printf
import TakeADump.Lib.Terminal
import TakeADump.Model.Console
import TakeADump.Dump.Cancelled
import TakeADump.Session.Phase
import TakeADump.Session.Choice
import TakeADump.Session.Media
import TakeADump.Session.Copying
import TakeADump.Session.Main
import TakeADump.Session.Move
import TakeADump.Session.Order
import TakeADump.Session.Steady
import TakeADump.Session.Patience
import TakeADump.Session.Exit
import TakeADump.Screen.Percent
import TakeADump.Screen.Shown
import TakeADump.Screen.Progress
import TakeADump.Screen.Transcript
import TakeADump.Session.Account
import TakeADump.Session.Course
import TakeADump.Session.Call
import TakeADump.Session.Saves
import TakeADump.Session.Reset
import TakeADump.Screen.Rows
import TakeADump.Screen.Display
import TakeADump.Session.Archive
