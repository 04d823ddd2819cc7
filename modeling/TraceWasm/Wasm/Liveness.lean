import TraceWasm.Wasm.Validation

/-!
# Which operators of a body are dead

Structured control flow alone decides deadness: an unconditional transfer
makes the rest of the innermost construct dead, a construct opened in dead code
is dead throughout, and the `else` or `end` of a construct that was opened live
is live again.
-/

namespace TraceWasm

/-- Deadness between two operators. -/
structure Liveness where
  /-- Whether control cannot arrive here. -/
  dead : Bool
  /-- For each open construct, innermost first, whether it was opened dead. -/
  openedDead : List Bool
  deriving DecidableEq

/-- Whether the operator transfers control unconditionally. -/
def Operator.diverges : Operator → Bool
  | .br _ => true
  | .brTable _ _ => true
  | .returnOp => true
  | .unreachable => true
  | .other op => op.diverges
  | _ => false

/-- Whether the operator opens a construct that an `end` closes. -/
def Operator.opens : Operator → Bool
  | .block _ => true
  | .loop _ => true
  | .ifOp _ => true
  | .tryTable _ _ => true
  | _ => false

namespace Liveness

/-- The start of a body, inside the function's own construct. -/
def initial : Liveness := ⟨false, [false]⟩

/-- Deadness after the operator. -/
def step (liveness : Liveness) (op : Operator) : Liveness :=
  match op with
  | .elseOp => { liveness with dead := liveness.openedDead.headD true }
  | .endOp => ⟨liveness.openedDead.headD true, liveness.openedDead.tail⟩
  | op =>
      if op.opens then { liveness with openedDead := liveness.dead :: liveness.openedDead }
      else { liveness with dead := liveness.dead || op.diverges }

/-- Whether the operator itself is dead: an `else` or `end` is as dead as the
construct it belongs to, any other operator as the point it stands at. -/
def deadAt (liveness : Liveness) (op : Operator) : Bool :=
  match op with
  | .elseOp => liveness.openedDead.headD true
  | .endOp => liveness.openedDead.headD true
  | _ => liveness.dead

/-- Deadness after the operators. -/
def after (ops : List Operator) : Liveness := ops.foldl step initial

theorem after_succ
    {ops : List Operator} {position : Nat}
    (found : ops[position]? = some op) :
    after (ops.take (position + 1)) = (after (ops.take position)).step op := by
  unfold after
  rw [List.take_add_one, found, List.foldl_append]
  rfl

end Liveness

/-- The operator at a position of a body is dead. -/
def DeadAt (ops : List Operator) (position : Nat) : Prop :=
  ∃ op, ops[position]? = some op ∧
    (Liveness.after (ops.take position)).deadAt op = true

end TraceWasm
