import TraceWasm.Register.Lower
import TraceWasm.Register.View

/-!
# Symbolic lowering

Lowering without the arenas, the backpatch map and the placeholders: the
operands of an instruction are in the instruction, and the state is the
resolved operand stack, the code, the open labels and the two pools. Which
spill slot a rescue takes is left open, and a lowering that reports an error
has no step.
-/

namespace TraceWasm

/-- The operator without its memory immediates, and with the offset that is
executed. -/
def DataOp.meaning : DataOp Nat Nat → DataOp Nat Unit
  | .globalGet index => .globalGet index
  | .globalSet index => .globalSet index
  | .unary op => .unary op
  | .binary op => .binary op
  | .load op memarg => .load op (memarg % 2 ^ 32)
  | .store op memarg => .store op (memarg % 2 ^ 32)
  | .select => .select
  | .memorySize _ => .memorySize ()
  | .memoryGrow _ => .memoryGrow ()
  | .memoryCopy _ _ => .memoryCopy () ()
  | .memoryFill _ => .memoryFill ()
  | .memoryInit dataIndex _ => .memoryInit dataIndex ()

/-- The operator with the byte offset that its offset id stands for. -/
def DataOp.resolveOffset (offsets : List Nat) :
    DataOp Nat Unit → Option (DataOp Nat Unit)
  | .load op memarg => (offsets[memarg]?).map (.load op)
  | .store op memarg => (offsets[memarg]?).map (.store op)
  | op => some op

namespace Register

/-- An instruction whose operands are not placed in the frame yet. -/
abbrev SymInstruction := RegInstruction BackPatchableSlot

namespace RegInstruction

/-- Give one arm of a branch its target. -/
def setTarget (arm index : Nat) :
    RegInstruction operand → RegInstruction operand
  | .br _ => .br index
  | .brIf cond mov _ => .brIf cond mov index
  | .brTable selector brTargets => .brTable selector
      (brTargets.modify arm fun target => { target with targetIndex := index })
  | .returnOp _ => .returnOp index
  | instr => instr

/-- Give an `if` its two targets. -/
def setIfTargets (elseIndex : Option Nat) (index : Nat) :
    RegInstruction operand → RegInstruction operand
  | .ifOp cond _ _ => .ifOp cond elseIndex index
  | instr => instr

/-- Give an `else` its target. -/
def setElseTarget (index : Nat) :
    RegInstruction operand → RegInstruction operand
  | .elseOp _ => .elseOp index
  | instr => instr

end RegInstruction

/-- Give the branches attached to a label their target. -/
def patchBreaks
    (index : Nat) (code : List (RegInstruction operand))
    (attached : List (Nat × Nat)) : List (RegInstruction operand) :=
  attached.foldl
    (fun code attached =>
      code.modify attached.1 (RegInstruction.setTarget attached.2 index))
    code

/-- Give the `if` of a label, and its `else`, their targets. -/
def patchIfTargets
    (index : Nat) (code : List (RegInstruction operand)) :
    BlockKind → List (RegInstruction operand)
  | .ifOp ifIndex none =>
      code.modify ifIndex (RegInstruction.setIfTargets none index)
  | .ifOp ifIndex (some elseIndex) =>
      (code.modify ifIndex
        (RegInstruction.setIfTargets (some elseIndex) index)).modify elseIndex
          (RegInstruction.setElseTarget index)
  | _ => code

/-- The state of symbolic lowering. -/
structure Symbolic where
  view : View
  code : List SymInstruction
  /-- Open labels, innermost first. -/
  control : List Block
  consts : List Const
  offsets : List Nat

namespace Symbolic

/-- The start of a body. -/
def initial (func : FuncHeader) : Symbolic where
  view := []
  code := []
  control := [⟨.func, 0, func.params, func.results, false, false, []⟩]
  consts := []
  offsets := []

section Operations

variable (locals : Nat)

/-- The first register above the operands. -/
def baseOf (view : View) : Nat := locals + View.registers view

/-- The operands in place of the top `pops` ones: registers. -/
def relaidView (view : View) (pops pushes : Nat) : View :=
  View.registerRun (baseOf locals (view.drop pops)) pushes ++ view.drop pops

/-- The move that puts the top operands in consecutive registers. -/
def moveOf (view : View) (count : Nat) : DynSignature BackPatchableSlot :=
  ⟨(view.take count).reverse, baseOf locals (view.drop count)⟩

/-- The move of a branch that carries `arity` operands down to a height. -/
def branchMove (view : View) (height arity : Nat) :
    DynSignature BackPatchableSlot :=
  ⟨(view.take arity).reverse, baseOf locals (view.drop (view.length - height))⟩

/-- Emit an instruction. -/
def emit (a : Symbolic) (instr : SymInstruction) : Symbolic :=
  { a with code := a.code ++ [instr] }

/-- Replace the topmost operands by consecutive registers. -/
def relayout (a : Symbolic) (pops pushes : Nat) : Symbolic :=
  { a with view := relaidView locals a.view pops pushes }

/-- Put the top operands in consecutive registers, if there are any. -/
def materialize (a : Symbolic) (count : Nat) : Symbolic :=
  if count = 0 then a
  else (a.relayout locals count count).emit (.move (moveOf locals a.view count))

/-- The copies of locals to spill slots. -/
def spillCode (copies : List (Nat × Nat)) : List SymInstruction :=
  copies.map fun copy => .localSpill copy.1 copy.2

/-- Go over to the redirected operands and emit the copies. -/
def rescue (a : Symbolic) (copies : List (Nat × Nat)) (view : View) :
    Symbolic :=
  { a with view := view, code := a.code ++ spillCode copies }

/-- Give the innermost block the layout that its `else` or `end` expects. -/
def leave (a : Symbolic) : Symbolic :=
  match a.control with
  | [] => a
  | block :: _ =>
      a.relayout locals (a.view.length - block.recordedHeight) block.results

/-- Remember a branch at a label. -/
def attach (a : Symbolic) (relativeDepth : Nat) (attached : Nat × Nat) :
    Symbolic :=
  { a with control := a.control.modify relativeDepth fun block =>
      { block with attachedBreaks := block.attachedBreaks ++ [attached] } }

/-- Remember a branch at its label, unless that is a loop. -/
def attachUnlessLoop
    (a : Symbolic) (relativeDepth : Nat) (block : Block)
    (attached : Nat × Nat) : Symbolic :=
  match block.kind.isLoop with
  | some _ => a
  | none => a.attach relativeDepth attached

/-- Emit the move of a branch, unless it carries nothing. -/
def pushMove (a : Symbolic) (mov : DynSignature BackPatchableSlot) : Symbolic :=
  if mov.isEmpty then a else a.emit (.move mov)

/-- The state with other labels. -/
def withControl (a : Symbolic) (control : List Block) : Symbolic :=
  { a with control := control }

/-- Open a label. -/
def openBlock (a : Symbolic) (kind : BlockKind) (height params results : Nat) :
    Symbolic :=
  { a with control := ⟨kind, height, params, results, false, false, []⟩ ::
      a.control }

/-- The index of the instruction of a block that has `params` parameters. -/
def headerIndex (a : Symbolic) (params : Nat) : Nat :=
  if params ≠ 0 then a.code.length + 1 else a.code.length

/-- The index of the branch instruction behind a move. -/
def branchIndex (a : Symbolic) (mov : DynSignature BackPatchableSlot) : Nat :=
  if mov.isEmpty then a.code.length else a.code.length + 1

/-- The arms of a `br_table`, of which `done` are already built. -/
def armsOf (a : Symbolic) (done : List (RegBrTableTarget BackPatchableSlot)) :
    List Nat → List (RegBrTableTarget BackPatchableSlot) × Symbolic
  | [] => (done, a)
  | relativeDepth :: targets =>
      match a.control[relativeDepth]? with
      | none => armsOf a done targets
      | some block =>
          armsOf (a.attachUnlessLoop relativeDepth block
              (a.code.length, done.length))
            (done ++ [⟨branchMove locals a.view block.recordedHeight
              block.labelArity, Lowering.branchTarget block⟩])
            targets

end Operations

/-- Give everything that waits for the end of a label its target. -/
def patchLabel (a : Symbolic) (block : Block) : Symbolic :=
  { a with
    code := patchIfTargets a.code.length
      (patchBreaks a.code.length a.code block.attachedBreaks) block.kind }

/-- The label of an `if` whose `else` is at an index. -/
def withElse (block : Block) (index elseIndex : Nat) : Block :=
  { block with kind := .ifOp index (some elseIndex) }

end Symbolic

open Symbolic (baseOf branchMove moveOf withElse)

/-- Symbolic lowering of one operator that is not skipped. -/
inductive SymbolicStep (mod : ModuleTypes) (locals results : Nat) :
    Operator → Symbolic → Symbolic → Prop
  | localGet
      (below : localIndex < locals) :
      SymbolicStep mod locals results (.localGet localIndex) a
        { a with view := .slot localIndex :: a.view }
  | localSet
      (redirects : View.Redirects copies a.view (operand :: rest))
      (gone : .slot localIndex ∉ operand :: rest)
      (below : localIndex < locals) :
      SymbolicStep mod locals results (.localSet localIndex) a
        ({ a.rescue copies (operand :: rest) with view := rest }.emit
          (.localSet localIndex operand))
  | localTee
      (redirects : View.Redirects copies a.view (operand :: rest))
      (gone : .slot localIndex ∉ operand :: rest)
      (below : localIndex < locals) :
      SymbolicStep mod locals results (.localTee localIndex) a
        ((a.rescue copies (operand :: rest)).emit
          (.localTee localIndex operand))
  | const
      {consts : List Const} {constId : Nat}
      (grows : a.consts <+: consts)
      (interned : consts[constId]? = some value) :
      SymbolicStep mod locals results (.const value) a
        { a with view := .const constId :: a.view, consts := consts }
  | data
      {op : DataOp Nat Nat} {offsets : List Nat} {lowered : DataOp Nat Unit}
      (enough : op.inputs ≤ a.view.length)
      (grows : a.offsets <+: offsets)
      (interned : lowered.resolveOffset offsets = some op.meaning) :
      SymbolicStep mod locals results (.data op) a
        (({ a with offsets := offsets }.relayout locals op.inputs op.outputs).emit
          (.data lowered (a.view.take op.inputs).reverse
            (baseOf locals (a.view.drop op.inputs))))
  | dataDrop (dataIndex : Nat) :
      SymbolicStep mod locals results (.dataDrop dataIndex) a
        (a.emit (.dataDrop dataIndex))
  | nop : SymbolicStep mod locals results .nop a a
  | drop
      (top : a.view = operand :: rest) :
      SymbolicStep mod locals results .drop a { a with view := rest }
  | block
      (arities : paramsAndResultsFromBlockty mod.types blockty =
        some (params, blockResults))
      (enough : params ≤ a.view.length) :
      SymbolicStep mod locals results (.block blockty) a
        ((a.openBlock .block (a.view.length - params) params
          blockResults).materialize locals params)
  | loop
      {view : View}
      (redirects : View.Redirects copies a.view view)
      (gone : ∀ localIndex, .slot localIndex ∉ view)
      (arities : paramsAndResultsFromBlockty mod.types blockty =
        some (params, blockResults))
      (enough : params ≤ view.length) :
      SymbolicStep mod locals results (.loop blockty) a
        ((((a.rescue copies view).openBlock
            (.loop ((a.rescue copies view).headerIndex params))
            (view.length - params) params blockResults).materialize locals
              params).emit .loop)
  | ifOp
      {view : View} {middle : Symbolic}
      (redirects : View.Redirects copies a.view view)
      (gone : ∀ localIndex, .slot localIndex ∉ view)
      (arities : paramsAndResultsFromBlockty mod.types blockty =
        some (params, blockResults))
      (enough : params + 1 ≤ view.length)
      (moved : middle = ((a.rescue copies view).openBlock
          (.ifOp ((a.rescue copies view).headerIndex params) none)
          (view.length - params - 1) params blockResults).materialize locals
            (if params ≠ 0 then params + 1 else 0))
      (top : middle.view = condition :: rest) :
      SymbolicStep mod locals results (.ifOp blockty) a
        ({ middle with view := rest }.emit (.ifOp condition none u32Max))
  | elseOp
      (opened : a.control = block :: outer)
      (kind : block.kind = .ifOp index elseIndex)
      (height : a.view.length = block.recordedHeight + block.results)
      (moved : middle = (a.withControl
          (withElse block index (a.headerIndex block.results) :: outer)
            ).materialize locals block.results) :
      SymbolicStep mod locals results .elseOp a
        ((middle.relayout locals block.results block.params).emit
          (.elseOp u32Max))
  | endOp
      (opened : a.control = block :: outer)
      (height : a.view.length = block.recordedHeight + block.results)
      (moved : middle =
        (a.withControl outer).materialize locals block.results) :
      SymbolicStep mod locals results .endOp a
        ((middle.patchLabel block).emit .endOp)
  | br
      (target : a.control[relativeDepth]? = some block)
      (enough : block.recordedHeight + block.labelArity ≤ a.view.length)
      (carries : mov =
        branchMove locals a.view block.recordedHeight block.labelArity) :
      SymbolicStep mod locals results (.br relativeDepth) a
        ((((a.attachUnlessLoop relativeDepth block
          (a.branchIndex mov, u32Max)).pushMove mov).emit
            (.br (Lowering.branchTarget block))).leave locals)
  | brIf
      (redirects : View.Redirects copies a.view (condition :: rest))
      (gone : ∀ localIndex, .slot localIndex ∉ condition :: rest)
      (target : a.control[relativeDepth]? = some block)
      (enough : block.recordedHeight + block.labelArity ≤ rest.length)
      (popped : middle = { a.rescue copies (condition :: rest) with view := rest }) :
      SymbolicStep mod locals results (.brIf relativeDepth) a
        ((middle.attachUnlessLoop relativeDepth block
          (middle.code.length, u32Max)).emit
            (.brIf condition
              (branchMove locals rest block.recordedHeight block.labelArity)
              (Lowering.branchTarget block)))
  | brTable
      (redirects : View.Redirects copies a.view (selector :: rest))
      (gone : ∀ localIndex, .slot localIndex ∉ selector :: rest)
      (target : a.control[last]? = some block)
      (allTargets : ∀ relativeDepth ∈ targets ++ [last], ∃ other,
        a.control[relativeDepth]? = some other ∧
          other.labelArity = block.labelArity ∧
          other.recordedHeight + other.labelArity ≤ rest.length)
      (popped : middle =
        { a.rescue copies (selector :: rest) with view := rest })
      (arms : middle.armsOf locals [] (targets ++ [last]) = (brTargets, attached)) :
      SymbolicStep mod locals results (.brTable targets last) a
        ((attached.emit (.brTable selector brTargets)).leave locals)
  | returnOp
      (opened : a.control ≠ [])
      (enough : results ≤ a.view.length)
      (carries : mov = branchMove locals a.view 0 results) :
      SymbolicStep mod locals results .returnOp a
        ((((a.attach (a.control.length - 1)
          (a.branchIndex mov, u32Max)).pushMove mov).emit
            (.returnOp u32Max)).leave locals)
  | call
      (typed : mod.funcType functionIndex = some ty)
      (enough : ty.params.length ≤ a.view.length) :
      SymbolicStep mod locals results (.call functionIndex) a
        (((a.materialize locals ty.params.length).emit
          (.call functionIndex
            (baseOf locals (a.view.drop ty.params.length)))).relayout locals
              ty.params.length ty.results.length)
  | callIndirect
      (typed : mod.types[typeIndex]? = some ty)
      (top : a.view = operand :: rest)
      (enough : ty.params.length ≤ rest.length) :
      SymbolicStep mod locals results (.callIndirect typeIndex tableIndex) a
        (({ a with view := rest }.relayout locals ty.params.length
          ty.results.length).emit
          (.callIndirect typeIndex tableIndex operand
            (moveOf locals rest ty.params.length)
            (baseOf locals (rest.drop ty.params.length))))
  | unreachable :
      SymbolicStep mod locals results .unreachable a
        ((a.emit .unreachable).leave locals)

end Register
end TraceWasm
