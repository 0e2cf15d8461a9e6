import Zkvm.Circuit.Basic
import Zkvm.Circuit.Blueprint
import Zkvm.Circuit.Compiler
import Zkvm.Circuit.Grouping
import Zkvm.Circuit.Lowering
import Zkvm.Circuit.Record
import Zkvm.Component.Arithmetic
import Zkvm.Component.Basic
import Zkvm.Component.Bitwise
import Zkvm.Component.Catalogue
import Zkvm.Component.Comparison
import Zkvm.Component.Control
import Zkvm.Component.Crypto
import Zkvm.Component.Report
import Zkvm.Component.Sample
import Zkvm.Component.Stack
import Zkvm.Component.System
import Zkvm.Composition.Assembly
import Zkvm.Composition.Basic
import Zkvm.Composition.Halves
import Zkvm.Composition.Words
import Zkvm.Contract.Basic
import Zkvm.Contract.Execution.Basic
import Zkvm.Contract.Execution.Generator
import Zkvm.Contract.Execution.Parts
import Zkvm.Contract.Instruction.Arithmetic
import Zkvm.Contract.Instruction.Basic
import Zkvm.Contract.Instruction.Bitwise
import Zkvm.Contract.Instruction.Comparison
import Zkvm.Contract.Instruction.Control
import Zkvm.Contract.Instruction.Crypto
import Zkvm.Contract.Instruction.Generator
import Zkvm.Contract.Instruction.System
import Zkvm.Contract.Memory.Access
import Zkvm.Contract.Memory.Basic
import Zkvm.Contract.Memory.Generator
import Zkvm.Contract.Memory.Stack
import Zkvm.Contract.Proving.Basic
import Zkvm.Contract.Proving.Generator
import Zkvm.Contract.Proving.Parts
import Zkvm.Contract.Record
import Zkvm.Digest.Sha256
import Zkvm.Failure
import Zkvm.Folding.Decomposition
import Zkvm.Folding.Generator
import Zkvm.Folding.Noise
import Zkvm.Folding.Record
import Zkvm.Formula.Basic
import Zkvm.Formula.Chain
import Zkvm.Inspection.Coverage
import Zkvm.Inspection.Examiner
import Zkvm.Inspection.Survey
import Zkvm.Inspection.Trial
import Zkvm.Json.Basic
import Zkvm.Json.Fields
import Zkvm.Json.Reader
import Zkvm.Json.Shown
import Zkvm.Json.View
import Zkvm.Library
import Zkvm.Lookup.Encoding
import Zkvm.Lookup.Notations
import Zkvm.Lookup.Table
import Zkvm.Machine.Bits
import Zkvm.Machine.Fault
import Zkvm.Machine.Opcode
import Zkvm.Machine.Program
import Zkvm.Machine.Record
import Zkvm.Machine.Run
import Zkvm.Machine.Script
import Zkvm.Machine.State
import Zkvm.Machine.Step
import Zkvm.Machine.Validator
import Zkvm.Main
import Zkvm.Number
import Zkvm.Repair.Category
import Zkvm.Repair.Round
import Zkvm.Showcase.Basic
import Zkvm.Showcase.Folding
import Zkvm.Showcase.Instructions
import Zkvm.Showcase.Patterns
import Zkvm.Showcase.Proving
import Zkvm.Testing.Case
import Zkvm.Testing.Suite
import Zkvm.Text.Case
import Zkvm.Text.Cased
import Zkvm.Text.Decimal
import Zkvm.Text.Hidden
import Zkvm.Text.Numeral
import Zkvm.Text.Quoted
import Zkvm.Text.Runs
import Zkvm.Text.Search
import Zkvm.Work.Job
import Zkvm.Work.Orchestrator
import Zkvm.Work.Product
import Zkvm.Workspace.Action
import Zkvm.Workspace.Path
import Zkvm.Workspace.Session
import Zkvm.Workspace.Setup
import Zkvm.Workspace.Solver
import Zkvm.Workspace.Tree
import Zkvm.Proofs.Machine.Acceptance
import Zkvm.Proofs.Machine.Addressing
import Zkvm.Proofs.Machine.Aftermath
import Zkvm.Proofs.Machine.Ambient
import Zkvm.Proofs.Machine.Causes
import Zkvm.Proofs.Machine.Counter
import Zkvm.Proofs.Machine.Effect
import Zkvm.Proofs.Machine.Failed
import Zkvm.Proofs.Machine.Fibonacci
import Zkvm.Proofs.Machine.History
import Zkvm.Proofs.Machine.Idle
import Zkvm.Proofs.Machine.Ledger
import Zkvm.Proofs.Machine.Loading
import Zkvm.Proofs.Machine.Memory
import Zkvm.Proofs.Machine.Noninterference
import Zkvm.Proofs.Machine.Nibbles
import Zkvm.Proofs.Machine.Parsing
import Zkvm.Proofs.Machine.Resumption
import Zkvm.Proofs.Machine.Signing
import Zkvm.Proofs.Machine.StackFrame
import Zkvm.Proofs.Machine.Stepped
import Zkvm.Proofs.Machine.StraightLine
import Zkvm.Proofs.Machine.Subroutine
import Zkvm.Proofs.Machine.Trace
import Zkvm.Proofs.Machine.Violations
import Zkvm.Proofs.WordMachine.Arithmetic
import Zkvm.Proofs.WordMachine.Step
import Zkvm.Proofs.WordMachine.Refinement
import Zkvm.Proofs.Circuit.Addition
import Zkvm.Proofs.Circuit.CarryChain
import Zkvm.Proofs.Circuit.Compilation
import Zkvm.Proofs.Circuit.Grouping
import Zkvm.Proofs.Circuit.Joining
import Zkvm.Proofs.Circuit.Legibility
import Zkvm.Proofs.Circuit.Limits
import Zkvm.Proofs.Circuit.MemoryRead
import Zkvm.Proofs.Circuit.Multiplication
import Zkvm.Proofs.Circuit.Order
import Zkvm.Proofs.Circuit.Packing
import Zkvm.Proofs.Circuit.Parts
import Zkvm.Proofs.Circuit.Registration
import Zkvm.Proofs.Circuit.Subtraction
import Zkvm.Proofs.Component.Advance
import Zkvm.Proofs.Component.Branch
import Zkvm.Proofs.Component.Call
import Zkvm.Proofs.Component.Pointer
import Zkvm.Proofs.Component.Shift
import Zkvm.Proofs.Component.StackNibble
import Zkvm.Proofs.Component.Validation
import Zkvm.Proofs.Component.WordStep
import Zkvm.Proofs.Contract.Difference
import Zkvm.Proofs.Contract.Equality
import Zkvm.Proofs.Contract.Nibbles
import Zkvm.Proofs.Contract.Sum
import Zkvm.Proofs.Folding.Bookkeeping
import Zkvm.Proofs.Folding.Commitment
import Zkvm.Proofs.Folding.Dependence
import Zkvm.Proofs.Folding.Freshness
import Zkvm.Proofs.Folding.Horner
import Zkvm.Proofs.Folding.ProductTree
import Zkvm.Proofs.Folding.Residues
import Zkvm.Proofs.Formula.Blanks
import Zkvm.Proofs.Formula.Numbering
import Zkvm.Proofs.Formula.Opening
import Zkvm.Proofs.Formula.Reading
import Zkvm.Proofs.Formula.Ripple
import Zkvm.Proofs.Formula.Row
import Zkvm.Proofs.Formula.Solution
import Zkvm.Proofs.Formula.Spelling
import Zkvm.Proofs.Inspection.Measuring
import Zkvm.Proofs.Inspection.WorkingDirectory
import Zkvm.Proofs.Json.Put
import Zkvm.Proofs.Lookup.Decision
import Zkvm.Proofs.Lookup.Difference
import Zkvm.Proofs.Repair.Rounds
import Zkvm.Proofs.Testing.Integers
import Zkvm.Proofs.Testing.Statements
import Zkvm.Proofs.Text.Digits
import Zkvm.Proofs.Text.Quoting
import Zkvm.Proofs.Text.Rounding
import Zkvm.Proofs.Workspace.Paths
import Zkvm.Proofs.Workspace.Printing
import Zkvm.Proofs.Workspace.Replay
import Zkvm.Proofs.Workspace.Writing
