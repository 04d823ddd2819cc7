import TraceWasm.Foundation.Fault
import TraceWasm.Foundation.LittleEndian
import TraceWasm.Foundation.Overwrite
import TraceWasm.Foundation.Run
import TraceWasm.Foundation.Loop
import TraceWasm.Wasm.Syntax
import TraceWasm.Wasm.Validation
import TraceWasm.Wasm.ValidatorSteps
import TraceWasm.Wasm.Liveness
import TraceWasm.Wasm.Nesting
import TraceWasm.Wasm.WellNested
import TraceWasm.Instruction.Block
import TraceWasm.Instruction.Rejections
import TraceWasm.Instruction.Control
import TraceWasm.Instruction.Patching
import TraceWasm.Instruction.PatchingInvariant
import TraceWasm.Instruction.PatchingSteps
import TraceWasm.Instruction.PatchingRun
import TraceWasm.Register.Lazy
import TraceWasm.Register.Instruction
import TraceWasm.Register.Interner
import TraceWasm.Register.OperandStack
import TraceWasm.Register.Filter
import TraceWasm.Register.Lower
import TraceWasm.Register.LazyInvariant
import TraceWasm.Register.View
import TraceWasm.Register.OperandSpec
import TraceWasm.Register.OperandSteps
import TraceWasm.Register.Bookkeeping
import TraceWasm.Register.Symbolic
import TraceWasm.Register.Targets
import TraceWasm.Register.Coherent
import TraceWasm.Register.Represents
import TraceWasm.Register.Bounds
import TraceWasm.Register.Refinement
import TraceWasm.Register.Simulation
import TraceWasm.Register.Alignment
import TraceWasm.Register.Depth
import TraceWasm.Register.Trace
import TraceWasm.Register.Resolution
import TraceWasm.Register.FrameLayout
import TraceWasm.Register.Reachability
import TraceWasm.Memory.View
import TraceWasm.Memory.Linear
import TraceWasm.Memory.ByteStore
import TraceWasm.Memory.Growth
import TraceWasm.Stack.Instruction
import TraceWasm.Stack.Lower
import TraceWasm.Runtime.Value
import TraceWasm.Module.Sections
import TraceWasm.Runtime.Instance
import TraceWasm.Runtime.Error
import TraceWasm.Runtime.Driver
import TraceWasm.Runtime.DriverAgreement
import TraceWasm.Stack.Frame
import TraceWasm.Register.Frame
import TraceWasm.Runtime.CallImported
import TraceWasm.Runtime.HostContract
import TraceWasm.Module.ConstExpr
import TraceWasm.Module.Instantiate
import TraceWasm.Runtime.DataEffect
import TraceWasm.Stack.Execute
import TraceWasm.Stack.Machine
import TraceWasm.Register.Execute
import TraceWasm.Register.Machine
import TraceWasm.Module.Placement
import TraceWasm.Module.Segments
import TraceWasm.Runtime.Steps
import TraceWasm.Runtime.MemorySize
import TraceWasm.Runtime.MemoryLimits
import TraceWasm.Module.TypedFunc
import TraceWasm.Module.TypedCall
import TraceWasm.Stack.Steps
import TraceWasm.Stack.Branching
import TraceWasm.Stack.Structured
import TraceWasm.Wasm.LiveNesting
import TraceWasm.Memory.Fill
import TraceWasm.Utils.Interner
import TraceWasm.Register.ConstPool
import TraceWasm.Foundation.Integer
import TraceWasm.Foundation.Ieee
import TraceWasm.Wasm.IntegerMeaning
import TraceWasm.Runtime.Integers
import TraceWasm.Stack.DataCode
import TraceWasm.Register.DataCode
import TraceWasm.Operators.Execution
import TraceWasm.Operators.Integers
import TraceWasm.Operators.Memory
import TraceWasm.Module.Initializers
import TraceWasm.Foundation.Reading
import TraceWasm.Llvm.Types
import TraceWasm.Llvm.Constant
import TraceWasm.Foundation.Probing
import TraceWasm.Llvm.Opcode
import TraceWasm.Llvm.Error
import TraceWasm.Llvm.Names
import TraceWasm.Foundation.Stateful
import TraceWasm.Llvm.Value
import TraceWasm.Llvm.Instruction
import TraceWasm.Llvm.Graph
import TraceWasm.Llvm.Builder
import TraceWasm.Llvm.Operand
import TraceWasm.Llvm.Cursor
import TraceWasm.Llvm.Calls
import TraceWasm.Llvm.Effects
import TraceWasm.Foundation.Returns
import TraceWasm.Llvm.Layout
import TraceWasm.Foundation.Splice
import TraceWasm.Llvm.Registers
import TraceWasm.Llvm.Definitions
import TraceWasm.Llvm.Consistency
import TraceWasm.Llvm.Atomicity
import TraceWasm.Llvm.LocalNames
import TraceWasm.Llvm.Numbering
import TraceWasm.Llvm.Descent
import TraceWasm.Llvm.Emit
import TraceWasm.Foundation.Reader
import TraceWasm.Llvm.TypeText
import TraceWasm.Llvm.LiteralText
import TraceWasm.Llvm.Renaming
import TraceWasm.Llvm.WellFormed
import TraceWasm.Llvm.OperandText
import TraceWasm.Llvm.InstructionText
import TraceWasm.Llvm.InstructionLines
import TraceWasm.Llvm.EveryInstruction
import TraceWasm.Llvm.BlockText
import TraceWasm.Llvm.ModuleText
import TraceWasm.Llvm.Made
import TraceWasm.Llvm.Typing
import TraceWasm.Llvm.Renumbering
import TraceWasm.Llvm.Clear
import TraceWasm.Llvm.Unambiguous
import TraceWasm.Llvm.Sizes
import TraceWasm.Llvm.WellTyped
import TraceWasm.Llvm.Extension
import TraceWasm.Llvm.Checking
import TraceWasm.Llvm.TypeSafety
import TraceWasm.Wasm.Layers
import TraceWasm.Wasm.Entries
import TraceWasm.Wasm.Heights
import TraceWasm.Stack.Alignment
import TraceWasm.Stack.Emission
import TraceWasm.Stack.Totality
import TraceWasm.Register.Emitter
import TraceWasm.Module.Interchange
import TraceWasm.Register.Branching
import TraceWasm.Register.Structured
import TraceWasm.Runtime.Closed
import TraceWasm.Module.Jumps
import TraceWasm.Stack.Sites
import TraceWasm.Stack.Balance
import TraceWasm.Stack.Segments
import TraceWasm.Stack.Acts
import TraceWasm.Runtime.Lockstep
import TraceWasm.Runtime.Framing
import TraceWasm.Wasm.Semantics
import TraceWasm.Wasm.Standing
import TraceWasm.Stack.Matching
import TraceWasm.Module.Code
import TraceWasm.Stack.Correspondence
import TraceWasm.Stack.SameSteps
import TraceWasm.Runtime.StepCases
import TraceWasm.Stack.Calls
import TraceWasm.Stack.Lockstep
import TraceWasm.Stack.Jumps
import TraceWasm.Stack.Preservation
import TraceWasm.Stack.Reach
