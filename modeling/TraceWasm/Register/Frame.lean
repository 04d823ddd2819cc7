import TraceWasm.Foundation.Run
import TraceWasm.Register.Instruction
import TraceWasm.Runtime.Value

/-!
# The register file

The file is shared by every activation of a call. An activation's frame starts
at its base and is addressed from there; nothing is ever removed.
-/

namespace TraceWasm
namespace Register

/-- The slots of every frame in the call. `none` is a panic of an operation. -/
structure RegFrame where
  registers : List Value

/-- Where a frame starts. -/
structure RegCallerBaseData where
  baseRegisterIndex : Nat

/-- The frame of the entry function starts at the first register. -/
def RegCallerBaseData.initialData : RegCallerBaseData where
  baseRegisterIndex := 0

namespace RegFrame

/-- A file without registers. -/
def empty : RegFrame where
  registers := []

/-- Drop every register. -/
def reset (_ : RegFrame) : RegFrame := empty

/-- Put the parameters of the entry function into the file. -/
def setInitialParams (frame : RegFrame) (params : List Val) : RegFrame where
  registers := frame.registers ++ params.map Val.toValue

/-- Read the parameters of an imported function. -/
def getParamsForImportCall
    (frame : RegFrame) (paramsCount : Nat) (callerBaseData : RegCallerBaseData) :
    Option (List Value) :=
  readRun frame.registers callerBaseData.baseRegisterIndex paramsCount

/-- Write the results of an imported function over its parameters. -/
def setResultsFromImportCall
    (frame : RegFrame) (results : List Val) (callerBaseData : RegCallerBaseData) :
    Option RegFrame := do
  let registers ← writeRun frame.registers callerBaseData.baseRegisterIndex
    (results.map Val.toValue)
  return ⟨registers⟩

/-- The results of the outermost activation, whose base is zero. -/
def getFinalResults (frame : RegFrame) (resultsCount : Nat) : Option (List Value) :=
  readRun frame.registers 0 resultsCount

/-- Give the file at least a length, with zeros for what is new. -/
def growTo (frame : RegFrame) (length : Nat) : RegFrame where
  registers := frame.registers ++ List.replicate (length - frame.registers.length) 0

/-- Make room for the frame, set its locals to zero and fill in its constants. -/
def enterFrame
    (frame : RegFrame) (paramsCount : Nat) (localsTy : List ValType)
    (callerBaseData : RegCallerBaseData) (layout : RegFrameLayout) :
    Option RegFrame := do
  let base := callerBaseData.baseRegisterIndex
  let frame := frame.growTo
    (base + layout.registers + layout.spills + layout.consts.length)
  guard (paramsCount ≤ localsTy.length)
  let zeros ← (localsTy.drop paramsCount).mapM fun ty =>
    (Value.zeroOfTy ty : Attempt Empty Value).toOption
  let registers ← writeRun frame.registers (base + paramsCount) zeros
  let registers ← writeRun registers (base + localsTy.length)
    (layout.consts.map Const.toValue)
  return ⟨registers⟩

@[simp] theorem length_growTo (frame : RegFrame) (length : Nat) :
    (frame.growTo length).registers.length = max frame.registers.length length := by
  unfold growTo
  rw [List.length_append, List.length_replicate]
  omega

/-- Growing the file keeps the registers that are there. -/
theorem getElem?_growTo_of_lt
    {frame : RegFrame} {index : Nat} (length : Nat)
    (inside : index < frame.registers.length) :
    (frame.growTo length).registers[index]? = frame.registers[index]? :=
  List.getElem?_append_left inside

/-- Entering a frame that has room for its locals writes zeros over the declared
locals and the constants after them. -/
theorem enterFrame_eq
    {frame : RegFrame} {paramsCount : Nat} {localsTy : List ValType}
    {base : RegCallerBaseData} {layout : RegFrameLayout} {zeros : List Value}
    (made : (localsTy.drop paramsCount).mapM
      (fun ty => (Value.zeroOfTy ty : Attempt Empty Value).toOption) = some zeros)
    (length : paramsCount + zeros.length = localsTy.length)
    (fits : localsTy.length ≤ layout.registers) :
    frame.enterFrame paramsCount localsTy base layout =
      some ⟨overwrite
        (overwrite (frame.growTo (base.baseRegisterIndex + layout.registers +
            layout.spills + layout.consts.length)).registers
          (base.baseRegisterIndex + paramsCount) zeros)
        (base.baseRegisterIndex + localsTy.length) (layout.consts.map Const.toValue)⟩ := by
  unfold enterFrame
  dsimp only
  rw [guard, if_pos (by omega), made]
  change (writeRun _ _ zeros).bind _ = _
  rw [writeRun_of_le (by rw [length_growTo]; omega)]
  change (writeRun _ _ (layout.consts.map Const.toValue)).bind _ = _
  rw [writeRun_of_le (by
    rw [length_overwrite, length_growTo, List.length_map]
    omega)]
  rfl

/-- Move the results from the first operand registers down to the base. -/
def exitFrame
    (frame : RegFrame) (resultsCount : Nat) (callerBaseData : RegCallerBaseData)
    (layout : RegFrameLayout) : Option RegFrame := do
  let base := callerBaseData.baseRegisterIndex
  let temp ← readRun frame.registers (base + layout.operandBase) resultsCount
  let registers ← writeRun frame.registers base temp
  return ⟨registers⟩

end RegFrame

end Register
end TraceWasm
