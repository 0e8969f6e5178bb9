import CellMachine.Assembler
import CellMachine.Binary.Basic
import CellMachine.Binary.Format
import CellMachine.Bytes
import CellMachine.Cell
import CellMachine.Command.Basic
import CellMachine.Command.Call
import CellMachine.Command.Description
import CellMachine.Command.Value
import CellMachine.Decimal.Layout
import CellMachine.Decimal.Numeral
import CellMachine.Decimal.Shortest
import CellMachine.Fault
import CellMachine.Heap.Basic
import CellMachine.Heap.Memory
import CellMachine.Instr
import CellMachine.Json.Basic
import CellMachine.Json.Document
import CellMachine.Json.Reader
import CellMachine.Library.Arguments
import CellMachine.Library.Standard
import CellMachine.Library.Strings
import CellMachine.Machine.Basic
import CellMachine.Machine.Run
import CellMachine.Machine.Step
import CellMachine.Native
import CellMachine.Opcode
import CellMachine.Operator.Arithmetic
import CellMachine.Operator.Basic
import CellMachine.Operator.Cast
import CellMachine.Operator.Comparison
import CellMachine.Proofs.Action
import CellMachine.Proofs.Assembler.Agreement
import CellMachine.Proofs.Assembler.Listing
import CellMachine.Proofs.Heap.Call
import CellMachine.Proofs.Heap.Partition
import CellMachine.Proofs.Instr
import CellMachine.Proofs.Machine.Decision
import CellMachine.Proofs.Machine.Invariant
import CellMachine.Proofs.Machine.Jump
import CellMachine.Proofs.Machine.Schedule
import CellMachine.Proofs.Machine.Session
import CellMachine.Proofs.Machine.Step
import CellMachine.Proofs.Stack
import CellMachine.Proofs.Store
import CellMachine.Registers
import CellMachine.Snapshot
import CellMachine.Stack
import CellMachine.Tag
import CellMachine.Text.Case
import CellMachine.Text.CaseTable
import CellMachine.Text.Class
import CellMachine.Text.Slots
import CellMachine.Proofs.Rules
import CellMachine.Proofs.Machine.Framing
import CellMachine.Proofs.Machine.Failure
import CellMachine.Proofs.Command.Arguments
import CellMachine.Proofs.Command.Settling
import CellMachine.Proofs.Command.Convention
import CellMachine.Proofs.Machine.WriteBack
import CellMachine.Proofs.Machine.StackFrame
import CellMachine.Proofs.Machine.Isolation
import CellMachine.Proofs.Heap.Doubling
import CellMachine.Proofs.Heap.Peak
import CellMachine.Proofs.Heap.Reuse
import CellMachine.Proofs.Heap.Routine
import CellMachine.Proofs.Text
import CellMachine.Proofs.Heap.Capacity
import CellMachine.Proofs.Stack.Refinement
import CellMachine.Proofs.Stack.Order
import CellMachine.Proofs.Machine.Extension
import CellMachine.Proofs.Machine.Snapshot
import CellMachine.Proofs.Operator.Integer
import CellMachine.Proofs.Operator.Promotion
import CellMachine.Proofs.Operator.Division
import CellMachine.Proofs.Operator.Comparison
import CellMachine.Proofs.Machine.StraightLine
import CellMachine.Proofs.Assembler.TextLiteral
import CellMachine.Proofs.Library.InPlace
import CellMachine.Proofs.Library.Answers
import CellMachine.Proofs.Library.Slices
import CellMachine.Proofs.Operator.Conversion
import CellMachine.Proofs.Operator.Commutation
import CellMachine.Proofs.Operator.Truth
import CellMachine.Proofs.Command.Marshalling
import CellMachine.Proofs.Library.Signatures
import CellMachine.Proofs.Machine.Footprint
import CellMachine.Proofs.Assembler.Patching
import CellMachine.Proofs.Machine.RoundTrip
import CellMachine.Proofs.Command.Registration
import CellMachine.Proofs.Native.Payload
