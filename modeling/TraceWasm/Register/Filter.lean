import TraceWasm.Instruction.Block
import TraceWasm.Wasm.Liveness

/-!
# The reachability filter

After an unconditional transfer the operators up to the enclosing block's
`else` or `end` are dead, and the lowering skips them. The filter keeps a flag
and the constructs opened while it is set.
-/

namespace TraceWasm
namespace Register

/-- The filter's state. -/
structure UnreachableTrackingControlStack where
  /-- Constructs opened while dead, innermost first. -/
  blocks : List BlockVariant
  unreachable : Bool
  deriving DecidableEq

/-- What the lowering does with an operator. -/
inductive UnreachableCheckResult where
  /-- Skip it. -/
  | continue
  /-- Lower it. -/
  | reachable
  deriving DecidableEq

namespace UnreachableTrackingControlStack

/-- The filter before the first operator, which is live. -/
def new : UnreachableTrackingControlStack := ⟨[], false⟩

/-- Behind here the code is dead. -/
def setUnreachable (filter : UnreachableTrackingControlStack) :
    UnreachableTrackingControlStack :=
  { filter with unreachable := true }

/-- Behind here the code is live. -/
def unsetUnreachable (filter : UnreachableTrackingControlStack) :
    UnreachableTrackingControlStack :=
  { filter with unreachable := false }

/-- The kind of label that the operator opens, if any. -/
def isBlock : Operator → Option BlockVariant
  | .block _ => some .block
  | .ifOp _ => some .ifOp
  | .loop _ => some .loop
  | _ => none

/-- Classify one operator. -/
def checkUnreachability
    (filter : UnreachableTrackingControlStack) (operator : Operator) :
    Attempt ε (UnreachableCheckResult × UnreachableTrackingControlStack) :=
  if !filter.unreachable then return (.reachable, filter)
  else match isBlock operator with
    | some block =>
        return (.continue, { filter with blocks := block :: filter.blocks })
    | none =>
        match operator with
        | .elseOp =>
            match filter.blocks with
            | [] => return (.reachable, filter.unsetUnreachable)
            | block :: _ => do
                Attempt.assert (block = .ifOp)
                return (.continue, filter)
        | .endOp =>
            match filter.blocks with
            | [] => return (.reachable, filter.unsetUnreachable)
            | _ :: blocks => return (.continue, { filter with blocks })
        | _ => return (.continue, filter)

end UnreachableTrackingControlStack

/-- The reachability filter after an operator that was lowered. -/
def filterAfter (op : Operator) (filter : UnreachableTrackingControlStack) :
    UnreachableTrackingControlStack :=
  if op.diverges then filter.setUnreachable else filter

namespace UnreachableTrackingControlStack

/-- The filter's part in one iteration of the loop over the operators. -/
def step
    (filter : UnreachableTrackingControlStack) (operator : Operator) :
    Attempt ε (UnreachableCheckResult × UnreachableTrackingControlStack) := do
  let (result, filter) ← filter.checkUnreachability operator
  match result with
  | .continue => return (.continue, filter)
  | .reachable => return (.reachable, filterAfter operator filter)

/-- The filter after the operators. -/
def after (ops : List Operator) : Attempt ε UnreachableTrackingControlStack :=
  ops.foldlM (fun filter operator => return (← filter.step operator).2) .new

end UnreachableTrackingControlStack

end Register
end TraceWasm
