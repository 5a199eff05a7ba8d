import RegisterMachine.Text.Blank
import RegisterMachine.Text.Split
import RegisterMachine.Text.UpperCase
import RegisterMachine.Text.Numeral
import RegisterMachine.Text.Column
import RegisterMachine.Word
import RegisterMachine.Assembly.Operation
import RegisterMachine.Assembly.Opcode
import RegisterMachine.Assembly.Instruction
import RegisterMachine.Assembly.Program
import RegisterMachine.Machine.Register
import RegisterMachine.Machine.Fault
import RegisterMachine.Machine.Operand
import RegisterMachine.Machine.Stack
import RegisterMachine.Machine.State
import RegisterMachine.Machine.Step
import RegisterMachine.Machine.Execution
import RegisterMachine.Machine.Run
import RegisterMachine.Machine.Journal
import RegisterMachine.Level.Skill
import RegisterMachine.Level.Judge
import RegisterMachine.Level.Catalog
import RegisterMachine.Console.Arguments
import RegisterMachine.Console.Report
import RegisterMachine.Console.Response
import RegisterMachine.Main
import RegisterMachine.Proofs.Assembly.WellFormed
import RegisterMachine.Proofs.Assembly.RoundTrip
import RegisterMachine.Proofs.Machine.Rules
import RegisterMachine.Proofs.Machine.Runner
import RegisterMachine.Proofs.Machine.Semantics
import RegisterMachine.Proofs.Machine.Moves
import RegisterMachine.Proofs.Machine.Driving
import RegisterMachine.Proofs.Machine.Exclusion
import RegisterMachine.Proofs.Machine.Atomicity
import RegisterMachine.Proofs.Machine.Progress
import RegisterMachine.Proofs.Level.Verdicts
import RegisterMachine.Proofs.Level.Stalling
import RegisterMachine.Proofs.Level.Winnable
import RegisterMachine.Proofs.Machine.Cycles
import RegisterMachine.Proofs.Machine.Orbit
import RegisterMachine.Proofs.Level.Drivers
import RegisterMachine.Proofs.Machine.Counter
import RegisterMachine.Proofs.Console.Commands
import RegisterMachine.Proofs.Console.FaultLine
import RegisterMachine.Proofs.Console.Watching
import RegisterMachine.Proofs.Assembly.Image
import RegisterMachine.Proofs.Machine.Invariants
import RegisterMachine.Proofs.Machine.Insertion
import RegisterMachine.Machine.Recording
import RegisterMachine.Proofs.Machine.Recording
import RegisterMachine.Proofs.Machine.Chronicle
import RegisterMachine.Proofs.Machine.Budgets
import RegisterMachine.Proofs.Machine.Turns
import RegisterMachine.Proofs.Level.Budgets
import RegisterMachine.Proofs.Machine.Disguise
import RegisterMachine.Proofs.Machine.Agreement
import RegisterMachine.Proofs.Machine.Appending
import RegisterMachine.Proofs.Machine.Relabeling
import RegisterMachine.Proofs.Machine.StackFrame
import RegisterMachine.Proofs.Machine.Noninterference
import RegisterMachine.Proofs.Machine.StraightLine
import RegisterMachine.Proofs.Assembly.LineMap
import RegisterMachine.Proofs.Assembly.Layout
import RegisterMachine.Proofs.Machine.Branching
import RegisterMachine.Proofs.Machine.Summation
import RegisterMachine.Proofs.Level.Laws
import RegisterMachine.Proofs.Machine.Recurrence
import RegisterMachine.Proofs.Level.Solutions
import RegisterMachine.Proofs.Level.Maximum
import RegisterMachine.Proofs.Machine.Walks
import RegisterMachine.Proofs.Machine.Depth
import RegisterMachine.Proofs.Assembly.Writing
import RegisterMachine.Proofs.Console.Journals
import RegisterMachine.Proofs.Console.Journals
