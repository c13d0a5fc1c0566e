import GridRobot.Action
import GridRobot.Amount
import GridRobot.CommandLine.Arguments
import GridRobot.CommandLine.Desk
import GridRobot.CommandLine.Help
import GridRobot.CommandLine.Host
import GridRobot.CommandLine.Log
import GridRobot.Decimal.Shortest
import GridRobot.Document.Basic
import GridRobot.Document.Load
import GridRobot.Document.Text
import GridRobot.Fault
import GridRobot.Instruction
import GridRobot.Json.Basic
import GridRobot.Json.Fields
import GridRobot.Json.Number
import GridRobot.Json.Printer
import GridRobot.Json.Reader
import GridRobot.Legacy
import GridRobot.Limits
import GridRobot.LoadError
import GridRobot.Machine.Basic
import GridRobot.Machine.Family
import GridRobot.Machine.Stack
import GridRobot.Main
import GridRobot.Notice
import GridRobot.Orientation
import GridRobot.Outcome.Basic
import GridRobot.Outcome.Text
import GridRobot.Program
import GridRobot.Recorder
import GridRobot.Session
import GridRobot.World.Basic
import GridRobot.World.Edit
import GridRobot.Proofs.Machine.Stack
import GridRobot.Proofs.Machine.Step
import GridRobot.Proofs.Machine.Failure
import GridRobot.Proofs.Machine.CallStack
import GridRobot.Proofs.Machine.CallReturn
import GridRobot.Proofs.Machine.Termination
import GridRobot.Proofs.Machine.Budget
import GridRobot.Proofs.Session.Drive
import GridRobot.Proofs.Session.Granularity
import GridRobot.Proofs.Session.Reset
import GridRobot.Proofs.World.Grid
import GridRobot.Proofs.World.Walls
import GridRobot.Proofs.World.Resize
import GridRobot.Proofs.World.WellFormed
import GridRobot.Proofs.World.Reachable
import GridRobot.Proofs.Json.Text
import GridRobot.Proofs.Json.Fields
import GridRobot.Proofs.Document.Snapshot
import GridRobot.Proofs.Document.RoundTrip
import GridRobot.Proofs.Document.Text
import GridRobot.Proofs.Session.StepBound
import GridRobot.Proofs.Machine.Headroom
import GridRobot.Proofs.Session.Announcement
import GridRobot.Proofs.Session.Recording
import GridRobot.Proofs.Machine.Range
import GridRobot.Proofs.Session.Arithmetic
import GridRobot.Proofs.World.Conservation
import GridRobot.Proofs.Machine.Reckoning
import GridRobot.Proofs.Session.WallCheck
import GridRobot.Proofs.Document.Meaning
import GridRobot.Proofs.Session.Audience
import GridRobot.Proofs.World.CellByCell
import GridRobot.Proofs.World.Fitting
import GridRobot.Proofs.FirstFault
import GridRobot.Proofs.Program.Grammar
import GridRobot.Proofs.Program.Rewriting
import GridRobot.Proofs.Legacy.Access
import GridRobot.Proofs.Legacy.Requirements
import GridRobot.Proofs.Legacy.Meaning
import GridRobot.Proofs.World.Marks
import GridRobot.Proofs.World.Edges
import GridRobot.Proofs.Machine.Dispatch
import GridRobot.Proofs.Outcome.Text
import GridRobot.Proofs.Outcome.Dump
