import TraceWasm.Register.Filter
import TraceWasm.Register.Interner
import TraceWasm.Register.OperandStack
import TraceWasm.Wasm.Validation

/-!
# Lowering a body to register instructions

One function per operator, or family of operators, over the whole lowering
state; the loop over the body; and the resolution of the frame layout at its
end.
-/

namespace TraceWasm
namespace Register

open BackpatchMap (applyToInputRegisters)

/-- The lowering state of one body, without the instructions. -/
structure SimulatedStack where
  operands : OperandStack
  /-- Open labels, innermost first. -/
  controlStack : List Block
  memoryOffsets : Interner Nat
  backpatchMap : BackpatchMap
  constInterner : Interner Const

namespace SimulatedStack

/-- The simulated stack before the first operator. -/
def new (localsCount : Nat) : SimulatedStack where
  operands := .new localsCount
  controlStack := []
  memoryOffsets := .empty
  backpatchMap := []
  constInterner := .empty

/-- How many operands there are. -/
def height (sim : SimulatedStack) : Nat := sim.operands.height

/-- Record operands against the instruction that will carry them. -/
def record
    (sim : SimulatedStack) (instrIndex : Nat) (source : InstructionSource)
    (slots : List BackPatchableSlot) : SimulatedStack :=
  { sim with
    backpatchMap := sim.backpatchMap ++ [(instrIndex, source, slots)] }

/-- `i32.const` and the other immediates. -/
def pushConst (sim : SimulatedStack) (value : Const) :
    Attempt TraceWasmError SimulatedStack := do
  let (id, constInterner) ← sim.constInterner.tryIntern value
  return { sim with constInterner, operands := sim.operands.pushConstId id }

/-- Apply an instruction's stack effect and record its operands. The result is
the operand run to store in the instruction and its first destination. -/
def popsAndPushesRegisters
    (sim : SimulatedStack) (pops pushes instrIndex : Nat)
    (source : InstructionSource) :
    Attempt TraceWasmError (DynSignature Slot × SimulatedStack) := do
  let (slots, operands) ← sim.operands.popMany pops
  let outputStart := asU16 operands.currRegisterIndex
  let operands ← operands.pushMany pushes
  return (⟨List.replicate pops placeholder, outputStart⟩,
    { sim with operands }.record instrIndex source slots)

/-- Pop one operand and record it. -/
def popRegister
    (sim : SimulatedStack) (instrIndex : Nat) (source : InstructionSource) :
    Attempt TraceWasmError SimulatedStack := do
  return (← sim.popsAndPushesRegisters 1 0 instrIndex source).2

/-- Force the top operands into consecutive registers. -/
def materializeStackSlotsInRegisters
    (sim : SimulatedStack) (depth instrIndex : Nat)
    (source : InstructionSource) :
    Attempt TraceWasmError (DynSignature Slot × SimulatedStack) :=
  sim.popsAndPushesRegisters depth depth instrIndex source

/-- Replace the topmost operands by consecutive registers. -/
def popsAndPushes (sim : SimulatedStack) (pops pushes : Nat) :
    Attempt TraceWasmError SimulatedStack := do
  return { sim with operands := ← sim.operands.popsAndPushes pops pushes }

/-- Give the innermost block the layout its `else` or `end` expects. -/
def resetEnclosingBlockLayout (sim : SimulatedStack) :
    Attempt TraceWasmError SimulatedStack := do
  let block ← .orPanic sim.controlStack.head?
  let unwind ← Attempt.sub sim.height block.recordedHeight
  sim.popsAndPushes unwind block.results

/-- The move of a branch, recorded if it carries anything. -/
def brTruncationRegisters
    (sim : SimulatedStack) (baseHeight arityToPreserve instrIndex : Nat)
    (source : InstructionSource) :
    Attempt TraceWasmError (DynSignature Slot × SimulatedStack) := do
  let (slots, mov, operands) ←
    sim.operands.brTruncationRegisters baseHeight arityToPreserve
  let sim := { sim with operands }
  return (mov,
    if arityToPreserve > 0 then sim.record instrIndex source slots else sim)

/-- The height below a label's parameters. An `if` also consumes its condition,
which lies above them. -/
def recordedHeight (sim : SimulatedStack) (kind : BlockVariant) (params : Nat) :
    Attempt ε Nat :=
  match kind with
  | .func => return 0
  | .block => Attempt.sub sim.height params
  | .loop => Attempt.sub sim.height params
  | .ifOp => do Attempt.sub (← Attempt.sub sim.height params) 1

/-- Open a label. The result is its parameter count. -/
def addBlock
    (sim : SimulatedStack) (types : List FuncType) (kind : BlockVariant)
    (blockty : BlockType) (instrLen : Nat) :
    Attempt TraceWasmError (Nat × SimulatedStack) := do
  let (params, results) ← .orPanic (paramsAndResultsFromBlockty types blockty)
  -- a move is emitted when there are parameters, so the instruction itself
  -- lands one further
  let index := if params ≠ 0 then instrLen + 1 else instrLen
  let recordedHeight ← sim.recordedHeight kind params
  let kind : BlockKind :=
    match kind with
    | .func => .func
    | .block => .block
    | .ifOp => .ifOp index none
    | .loop => .loop index
  let block : Block :=
    ⟨kind, recordedHeight, params, results, false, false, []⟩
  return (params, { sim with controlStack := block :: sim.controlStack })

/-- A label by relative depth. -/
def getBlock (sim : SimulatedStack) (relativeDepth : Nat) :
    Attempt ε Block :=
  .orPanic sim.controlStack[relativeDepth]?

/-- Record a branch whose target is the label's `end`. -/
def attachBreak
    (sim : SimulatedStack) (relativeDepth : Nat) (attached : Nat × Nat) :
    SimulatedStack :=
  { sim with
    controlStack := sim.controlStack.modify relativeDepth fun block =>
      { block with attachedBreaks := block.attachedBreaks ++ [attached] } }

end SimulatedStack

/-- The whole state of the lowering loop. -/
structure Lowering where
  simulatedStack : SimulatedStack
  instructions : List (RegInstruction Slot)
  unreachableTrackingStack : UnreachableTrackingControlStack
  callInstrBackpatches : List (Nat × Nat)

namespace Lowering

/-- How many instructions there are so far. -/
def len (s : Lowering) : Nat := s.instructions.length

/-- Emit an instruction. -/
def push (s : Lowering) (instr : RegInstruction Slot) : Lowering :=
  { s with instructions := s.instructions ++ [instr] }

/-- Emit the move of a branch, unless it carries nothing. -/
def pushMove (s : Lowering) (mov : DynSignature Slot) : Lowering :=
  if mov.isEmpty then s else s.push (.move mov)

/-- The state in which a body starts, inside the function's own label. -/
def initial (func : FuncHeader) : Lowering where
  simulatedStack :=
    { SimulatedStack.new func.localsCount with
      controlStack := [⟨.func, 0, func.params, func.results, false, false, []⟩] }
  instructions := []
  unreachableTrackingStack := .new
  callInstrBackpatches := []

/-- Emit copies of locals to spill slots. -/
def pushSpills (s : Lowering) (copies : List (Nat × Nat)) : Lowering :=
  { s with instructions := s.instructions ++
      copies.map fun copy => .localSpill copy.1 copy.2 }

/-- Rescue every live borrow ahead of a diverging or repeating construct. -/
def spillLiveLocals (s : Lowering) : Attempt TraceWasmError Lowering := do
  let (copies, operands) ← s.simulatedStack.operands.spillLazy
  return { s with simulatedStack.operands := operands }.pushSpills copies

/-- Rescue the borrows of one local ahead of a write to it. -/
def spillLocal (s : Lowering) (index : Nat) :
    Attempt TraceWasmError Lowering := do
  let (spillIndex, operands) ← s.simulatedStack.operands.setLazy index
  let s := { s with simulatedStack.operands := operands }
  match spillIndex with
  | none => return s
  | some spillIndex => return s.push (.localSpill index spillIndex)

/-- Materialize operands and emit the move, unless there are none. -/
def moveUnlessEmpty (s : Lowering) (depth : Nat) :
    Attempt TraceWasmError Lowering := do
  if depth ≠ 0 then
    let (mov, sim) ←
      s.simulatedStack.materializeStackSlotsInRegisters depth s.len .emit
    return { s with simulatedStack := sim }.push (.move mov)
  else return s

/-- Leave the rest of the innermost block dead. -/
def leaveBlock (s : Lowering) : Attempt TraceWasmError Lowering := do
  return { s with
    simulatedStack := ← s.simulatedStack.resetEnclosingBlockLayout
    unreachableTrackingStack := s.unreachableTrackingStack.setUnreachable }

/-- Lower a `local.get`, which emits nothing: the local is borrowed. -/
def lowerLocalGet (s : Lowering) (index : Nat) :
    Attempt TraceWasmError Lowering := do
  let operands ← s.simulatedStack.operands.pushLocal (asU16 index)
  return { s with simulatedStack.operands := operands }

/-- Lower a `local.set`, and rescue the borrows of the local before it. -/
def lowerLocalSet (s : Lowering) (index : Nat) :
    Attempt TraceWasmError Lowering := do
  let s ← s.spillLocal index
  let sim ← s.simulatedStack.popRegister s.len .emit
  return { s with simulatedStack := sim }.push (.localSet index placeholder)

/-- Lower a `local.tee`, and rescue the borrows of the local before it. -/
def lowerLocalTee (s : Lowering) (index : Nat) :
    Attempt TraceWasmError Lowering := do
  let s ← s.spillLocal index
  let slot ← s.simulatedStack.operands.tee
  let sim := s.simulatedStack.record s.len .emit [slot]
  return { s with simulatedStack := sim }.push (.localTee index placeholder)

/-- Lower a constant, which emits nothing. -/
def lowerConst (s : Lowering) (value : Const) :
    Attempt TraceWasmError Lowering := do
  return { s with simulatedStack := ← s.simulatedStack.pushConst value }

/-- Put the byte offset of a load or store in the offset pool. -/
def internMemoryOffset (s : Lowering) (op : DataOp Nat Unit) :
    Attempt TraceWasmError (DataOp Nat Unit × Lowering) :=
  match op with
  | .load op memarg => do
      let (id, memoryOffsets) ←
        s.simulatedStack.memoryOffsets.tryIntern (memarg % 2 ^ 32)
      return (.load op id,
        { s with simulatedStack.memoryOffsets := memoryOffsets })
  | .store op memarg => do
      let (id, memoryOffsets) ←
        s.simulatedStack.memoryOffsets.tryIntern (memarg % 2 ^ 32)
      return (.store op id,
        { s with simulatedStack.memoryOffsets := memoryOffsets })
  | op => return (op, s)

/-- The operators that pop operands, act on the instance and push results. -/
def lowerData (s : Lowering) (op : DataOp Nat Nat) :
    Attempt TraceWasmError Lowering := do
  let (op, s) ← s.internMemoryOffset (← op.checkMemory)
  let (registers, sim) ←
    s.simulatedStack.popsAndPushesRegisters op.inputs op.outputs s.len .emit
  return { s with simulatedStack := sim }.push
    (.data op registers.input registers.outputStart)

/-- Lower a `drop`, which emits nothing. -/
def lowerDrop (s : Lowering) : Attempt TraceWasmError Lowering := do
  let (_, operands) ← s.simulatedStack.operands.pop
  return { s with simulatedStack.operands := operands }

/-- Lower a `block`, whose parameters are moved to where its results will be. -/
def lowerBlock (types : List FuncType) (s : Lowering) (blockty : BlockType) :
    Attempt TraceWasmError Lowering := do
  let (params, sim) ← s.simulatedStack.addBlock types .block blockty s.len
  { s with simulatedStack := sim }.moveUnlessEmpty params

/-- Lower a `loop`, and rescue every borrow before it. -/
def lowerLoop (types : List FuncType) (s : Lowering) (blockty : BlockType) :
    Attempt TraceWasmError Lowering := do
  let s ← s.spillLiveLocals
  let (params, sim) ← s.simulatedStack.addBlock types .loop blockty s.len
  return (← { s with simulatedStack := sim }.moveUnlessEmpty params).push .loop

/-- Lower an `if`, and rescue every borrow before it. -/
def lowerIf (types : List FuncType) (s : Lowering) (blockty : BlockType) :
    Attempt TraceWasmError Lowering := do
  let s ← s.spillLiveLocals
  let (params, sim) ← s.simulatedStack.addBlock types .ifOp blockty s.len
  -- the condition lies above the parameters and moves with them
  let s ← { s with simulatedStack := sim }.moveUnlessEmpty
    (if params ≠ 0 then params + 1 else 0)
  let sim ← s.simulatedStack.popRegister s.len .emit
  return { s with simulatedStack := sim }.push (.ifOp placeholder none u32Max)

/-- Lower an `else`, behind the move of the results. -/
def lowerElse (s : Lowering) : Attempt TraceWasmError Lowering := do
  let block ← s.simulatedStack.getBlock 0
  match block.kind with
  | .ifOp index _ =>
      -- the move of the results, if any, comes before the `else`
      let elseIndex := if block.results = 0 then s.len else s.len + 1
      let sim := { s.simulatedStack with
        controlStack := s.simulatedStack.controlStack.modify 0 fun block =>
          { block with kind := .ifOp index (some elseIndex) } }
      let s ← { s with simulatedStack := sim }.moveUnlessEmpty block.results
      let unwind ← Attempt.sub s.simulatedStack.height block.recordedHeight
      let sim ← s.simulatedStack.popsAndPushes unwind block.params
      return { s with simulatedStack := sim }.push (.elseOp u32Max)
  | _ => Attempt.panicked

/-- Attach a branch to its label, unless that is a loop. -/
def attachUnlessLoop
    (s : Lowering) (relativeDepth : Nat) (block : Block)
    (attached : Nat × Nat) : Lowering :=
  match block.kind.isLoop with
  | some _ => s
  | none => { s with
      simulatedStack := s.simulatedStack.attachBreak relativeDepth attached }

/-- The target to emit for a branch: a loop's start, or a value that the
label's `end` replaces. -/
def branchTarget (block : Block) : Nat := block.kind.isLoop.getD u32Max

/-- Lower a `br`, behind the move of its operands. -/
def lowerBr (s : Lowering) (relativeDepth : Nat) :
    Attempt TraceWasmError Lowering := do
  let block ← s.simulatedStack.getBlock relativeDepth
  let (mov, sim) ← s.simulatedStack.brTruncationRegisters
    block.recordedHeight block.labelArity s.len .emit
  let s := { s with simulatedStack := sim }
  let s := s.attachUnlessLoop relativeDepth block
    (if mov.isEmpty then s.len else s.len + 1, u32Max)
  ((s.pushMove mov).push (.br (branchTarget block))).leaveBlock

/-- Lower a `br_if`, which carries the move of its operands. -/
def lowerBrIf (s : Lowering) (relativeDepth : Nat) :
    Attempt TraceWasmError Lowering := do
  let s ← s.spillLiveLocals
  let block ← s.simulatedStack.getBlock relativeDepth
  let sim ← s.simulatedStack.popRegister s.len .brIfCond
  let (mov, sim) ← sim.brTruncationRegisters
    block.recordedHeight block.labelArity s.len .brIfMov
  let s := { s with simulatedStack := sim }
  let s := s.attachUnlessLoop relativeDepth block (s.len, u32Max)
  return s.push (.brIf placeholder mov (branchTarget block))

/-- The arms of a `br_table`, of which `done` are already built. -/
def lowerBrTargets (s : Lowering) (done : List (RegBrTableTarget Slot)) :
    List Nat →
      Attempt TraceWasmError (List (RegBrTableTarget Slot) × Lowering)
  | [] => return (done, s)
  | relativeDepth :: targets => do
      let block ← s.simulatedStack.getBlock relativeDepth
      let (mov, sim) ← s.simulatedStack.brTruncationRegisters
        block.recordedHeight block.labelArity s.len .brTableMov
      let s := { s with simulatedStack := sim }
      let s := s.attachUnlessLoop relativeDepth block (s.len, done.length)
      s.lowerBrTargets (done ++ [⟨mov, branchTarget block⟩]) targets

/-- Lower a `br_table`, whose arms each carry a move. -/
def lowerBrTable (s : Lowering) (targets : List Nat) (default : Nat) :
    Attempt TraceWasmError Lowering := do
  let s ← s.spillLiveLocals
  let sim ← s.simulatedStack.popRegister s.len .brTableIndex
  let (brTargets, s) ←
    { s with simulatedStack := sim }.lowerBrTargets [] (targets ++ [default])
  (s.push (.brTable placeholder brTargets)).leaveBlock

/-- Lower a `return`, behind the move of the results. -/
def lowerReturn (results : Nat) (s : Lowering) :
    Attempt TraceWasmError Lowering := do
  let (mov, sim) ←
    s.simulatedStack.brTruncationRegisters 0 results s.len .emit
  Attempt.assert (sim.controlStack ≠ [])
  let sim := sim.attachBreak (sim.controlStack.length - 1)
    (if mov.isEmpty then s.len else s.len + 1, u32Max)
  let s := { s with simulatedStack := sim }
  ((s.pushMove mov).push (.returnOp u32Max)).leaveBlock

/-- Lower a call, whose parameters are moved to where its results will be. -/
def lowerCall (mod : ModuleTypes) (s : Lowering) (functionIndex : Nat) :
    Attempt TraceWasmError Lowering := do
  let ty ← .orPanic (mod.funcType functionIndex)
  let params := ty.params.length
  let recordedHeight ← Attempt.sub s.simulatedStack.height params
  let callerBase ← s.simulatedStack.operands.registerIndexAtDepth params
  let s ← s.moveUnlessEmpty params
  let s := { s with
    callInstrBackpatches :=
      s.callInstrBackpatches ++ [(s.len, asU16 callerBase)] }
  let s := s.push (.call functionIndex u16Max)
  let unwind ← Attempt.sub s.simulatedStack.height recordedHeight
  let sim ← s.simulatedStack.popsAndPushes unwind ty.results.length
  return { s with simulatedStack := sim }

/-- Lower a call through a table. -/
def lowerCallIndirect
    (types : List FuncType) (s : Lowering) (typeIndex tableIndex : Nat) :
    Attempt TraceWasmError Lowering := do
  let ty ← .orPanic types[typeIndex]?
  let params := ty.params.length
  let recordedHeight ←
    Attempt.sub (← Attempt.sub s.simulatedStack.height params) 1
  let callerBase ← s.simulatedStack.operands.registerIndexAtDepth (params + 1)
  let sim ← s.simulatedStack.popRegister s.len .callIndirectSlot
  let (operands, sim) ←
    sim.materializeStackSlotsInRegisters params s.len .callIndirectMov
  let s := { s with
    simulatedStack := sim
    callInstrBackpatches :=
      s.callInstrBackpatches ++ [(s.len, asU16 callerBase)] }
  let s := s.push
    (.callIndirect typeIndex tableIndex placeholder operands u16Max)
  let unwind ← Attempt.sub s.simulatedStack.height recordedHeight
  let sim ← s.simulatedStack.popsAndPushes unwind ty.results.length
  return { s with simulatedStack := sim }

/-- Give one attached branch its target. -/
def patchBreak
    (index : Nat) (instructions : List (RegInstruction Slot))
    (attached : Nat × Nat) :
    Attempt TraceWasmError (List (RegInstruction Slot)) := do
  match ← Attempt.orPanic instructions[attached.1]? with
  | .br _ => return instructions.set attached.1 (.br index)
  | .brIf cond mov _ => return instructions.set attached.1 (.brIf cond mov index)
  | .brTable selector brTargets => do
      Attempt.assert (attached.2 < brTargets.length)
      return instructions.set attached.1 (.brTable selector
        (brTargets.modify attached.2 fun target =>
          { target with targetIndex := index }))
  | .returnOp _ => return instructions.set attached.1 (.returnOp index)
  | _ => Attempt.panicked

/-- Give an `if` and its `else` the targets they need. -/
def patchIf
    (index : Nat) (instructions : List (RegInstruction Slot)) :
    BlockKind → Attempt TraceWasmError (List (RegInstruction Slot))
  | .ifOp ifIndex elseIndex => do
      match ← Attempt.orPanic instructions[ifIndex]? with
      | .ifOp cond _ _ =>
          let instructions :=
            instructions.set ifIndex (.ifOp cond elseIndex index)
          match elseIndex with
          | none => return instructions
          | some elseIndex =>
              match ← Attempt.orPanic instructions[elseIndex]? with
              | .elseOp _ => return instructions.set elseIndex (.elseOp index)
              | _ => Attempt.panicked
      | _ => Attempt.panicked
  | _ => return instructions

/-- Lower an `end`, behind the move of the results, and patch what its label remembers. -/
def lowerEnd (s : Lowering) : Attempt TraceWasmError Lowering := do
  match s.simulatedStack.controlStack with
  | [] => Attempt.panicked
  | block :: controlStack =>
      let s := { s with simulatedStack.controlStack := controlStack }
      let s ← s.moveUnlessEmpty block.results
      Attempt.assert
        (s.simulatedStack.height = block.recordedHeight + block.results)
      let index := s.len
      let instructions ←
        block.attachedBreaks.foldlM (patchBreak index) s.instructions
      let instructions ← patchIf index instructions block.kind
      return { s with instructions }.push .endOp

/-- Lower an operator that the filter lets through. -/
def lowerReachable
    (mod : ModuleTypes) (results : Nat) (s : Lowering) :
    Operator → Attempt TraceWasmError Lowering
  | .localGet index => s.lowerLocalGet index
  | .localSet index => s.lowerLocalSet index
  | .localTee index => s.lowerLocalTee index
  | .const value => s.lowerConst value
  | .data op => s.lowerData op
  | .dataDrop dataIndex => return s.push (.dataDrop dataIndex)
  | .nop => return s
  | .drop => s.lowerDrop
  | .block blockty => lowerBlock mod.types s blockty
  | .loop blockty => lowerLoop mod.types s blockty
  | .ifOp blockty => lowerIf mod.types s blockty
  | .elseOp => s.lowerElse
  | .endOp => s.lowerEnd
  | .br relativeDepth => s.lowerBr relativeDepth
  | .brIf relativeDepth => s.lowerBrIf relativeDepth
  | .brTable targets default => s.lowerBrTable targets default
  | .returnOp => lowerReturn results s
  | .call functionIndex => lowerCall mod s functionIndex
  | .callIndirect typeIndex tableIndex =>
      lowerCallIndirect mod.types s typeIndex tableIndex
  | .unreachable => (s.push .unreachable).leaveBlock
  | .tryTable _ debug => .fail (unsupportedInstruction debug)
  | .other op => .fail (unsupportedInstruction op.debug)

/-- One iteration of the loop over the operators. -/
def lowerOperator
    (mod : ModuleTypes) (results : Nat) (s : Lowering) (operator : Operator) :
    Attempt TraceWasmError Lowering := do
  let (result, filter) ←
    s.unreachableTrackingStack.checkUnreachability operator
  let s := { s with unreachableTrackingStack := filter }
  match result with
  | .continue => return s
  | .reachable => s.lowerReachable mod results operator

/-- The loop over the operators. -/
def lowerOperators
    (mod : ModuleTypes) (results : Nat) (s : Lowering) (ops : List Operator) :
    Attempt TraceWasmError Lowering :=
  ops.foldlM (lowerOperator mod results) s

/-- Write the callee bases of the calls. -/
def patchCall
    (spills consts : Nat) (instructions : List (RegInstruction Slot))
    (patch : Nat × Nat) :
    Attempt TraceWasmError (List (RegInstruction Slot)) := do
  match ← Attempt.orPanic instructions[patch.1]? with
  | .call funcIndex _ =>
      let callerBase ← addU16 (← addU16 patch.2 spills) consts
      return instructions.set patch.1 (.call funcIndex callerBase)
  | .callIndirect tyIndex tableIndex slot operands _ =>
      let callerBase ← addU16 (← addU16 patch.2 spills) consts
      return instructions.set patch.1
        (.callIndirect tyIndex tableIndex slot operands callerBase)
  | _ => Attempt.panicked

/-- The layout of the frame, once its regions are known. -/
def frameLayout (s : Lowering) : RegFrameLayout where
  registers := s.simulatedStack.operands.maxRegisters
  spills := s.simulatedStack.operands.spills.allocationLen
  localsCount := asU16 s.simulatedStack.operands.lazyLocals.origin.length
  consts := s.simulatedStack.constInterner.values
  memoryOffsets := s.simulatedStack.memoryOffsets.values

/-- Resolve the frame layout at the end of the body. -/
def finish (s : Lowering) :
    Attempt TraceWasmError (List (RegInstruction Slot) × RegFrameLayout) := do
  let layout := s.frameLayout
  let constsLen := asU16 layout.consts.length
  let frameWidth := layout.registers + layout.spills + constsLen
  if frameWidth > u16Max then
    .fail (.registerFrameTooLarge "the whole frame" frameWidth u16Max)
  else
    let instructions ← s.callInstrBackpatches.foldlM
      (patchCall layout.spills constsLen) s.instructions
    let instructions ← s.simulatedStack.backpatchMap.apply
      layout.localsCount constsLen layout.spills instructions
    return (instructions, layout)

end Lowering

/-- A lowered body: the instructions and the frame they run in. -/
structure LoweredFuncBody where
  instructions : List (RegInstruction Slot)
  frame : RegFrameLayout

/-- Lower one function body. -/
def emitInstructionsForFunc
    (mod : ModuleTypes) (func : FuncHeader) (ops : List Operator) :
    Attempt TraceWasmError LoweredFuncBody := do
  let s ← (Lowering.initial func).lowerOperators mod func.results ops
  let (instructions, frame) ← s.finish
  return ⟨instructions, frame⟩

end Register
end TraceWasm
