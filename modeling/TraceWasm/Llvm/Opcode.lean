import TraceWasm.Llvm.Constant

/-!
# Opcodes

The conditions, the binary operators and the conversions.
-/

namespace TraceWasm
namespace Llvm

/-- How two integers are compared. -/
inductive ICond where
  | eq | ne | ugt | uge | ult | ule | sgt | sge | slt | sle
  deriving DecidableEq

namespace ICond

/-- How the condition reads its operands. Equality does not read them. -/
def signedness : ICond → Option Signedness
  | .eq | .ne => none
  | .ugt | .uge | .ult | .ule => some .unsigned
  | .sgt | .sge | .slt | .sle => some .signed

end ICond

/-- The operations on two integers. -/
inductive IBinOp where
  | add | sub | mul | udiv | sdiv | urem | srem | shl | lshr | ashr | and | or | xor
  deriving DecidableEq

namespace IBinOp

/-- How the operation reads literals. -/
def signedness : IBinOp → Signedness
  | .udiv | .urem | .lshr => .unsigned
  -- the rest reads signed operands, or none at all and keeps a literal's number
  | .add | .sub | .mul | .and | .or | .xor | .shl | .sdiv | .srem | .ashr => .signed

end IBinOp

/-- How two floating-point numbers are compared. -/
inductive FCond where
  | oeq | ogt | oge | olt | ole | one | ord
  | ueq | ugt | uge | ult | ule | une | uno
  | true | false
  deriving DecidableEq

/-- The operations on two floating-point numbers. -/
inductive FBinOp where
  | fadd | fsub | fmul | fdiv | frem
  deriving DecidableEq

/-- The conversions between types. -/
inductive CastOp where
  | trunc | zext | sext | fptrunc | fpext | fptoui | fptosi | uitofp | sitofp
  | ptrtoint | inttoptr | bitcast
  deriving DecidableEq

namespace CastOp

/-- Whether both types have a width and the widths are related. -/
def widths (related : Nat → Nat → Bool) (src dest : Ty) : Bool :=
  match src.width, dest.width with
  | some srcWidth, some destWidth => related srcWidth destWidth
  | _, _ => false

/-- Whether the conversion connects the two types. -/
def isCastAllowed (self : CastOp) (src dest : Ty) : Bool :=
  match self with
  | .trunc => src.isInteger && dest.isInteger && widths (fun s d => s > d) src dest
  | .zext | .sext => src.isInteger && dest.isInteger && widths (fun s d => s < d) src dest
  | .fptrunc => src.isFloat && dest.isFloat && widths (fun s d => s > d) src dest
  | .fpext => src.isFloat && dest.isFloat && widths (fun s d => s < d) src dest
  | .fptoui => src.isFloat && dest.isInteger
  | .fptosi => src.isFloat && dest.isInteger
  | .uitofp => src.isInteger && dest.isFloat
  | .sitofp => src.isInteger && dest.isFloat
  | .ptrtoint => src = .ptr && dest.isInteger
  | .inttoptr => src.isInteger && dest = .ptr
  | .bitcast => widths (fun s d => s == d) src dest

end CastOp

end Llvm
end TraceWasm
