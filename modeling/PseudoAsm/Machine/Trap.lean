import PseudoAsm.InstructionSet

/-!
# Traps

The reasons for which the machine refuses to go on, each with what its message tells.
-/

namespace PseudoAsm

/-- Why a step or a run failed. -/
inductive Trap where
  /-- A register is read that was never written; the name is given as the register file keeps it. -/
  | unknownRegister (name : String)
  /-- The instruction at the address has a mnemonic outside the instruction set. -/
  | unknownInstruction (name : String) (address : Nat)
  /-- A return without a call to return to. -/
  | callStackUnderflow (address : Nat)
  /-- A division whose divisor is zero. -/
  | divisionByZero (address : Nat)
  /-- An operand that is neither a numeral nor a register name, or a target that is no address. -/
  | malformedNumericLiteral (literal : String)
  /-- An operand of the operation is absent or empty. -/
  | missingOperand (operation : Operation) (index : Nat)
  /-- A relative jump to a negative address. -/
  | addressOutOfRange (source : Nat) (target : Int)
  /-- A run used up its step limit. -/
  | stepLimit (limit : Nat)
deriving DecidableEq, Repr

/-- The wording of a trap. -/
def Trap.message : Trap → String
  | .unknownRegister name => "unknown register `" ++ name ++ "`"
  | .unknownInstruction name address =>
    "unknown instruction `" ++ name ++ "` at " ++ toString address
  | .callStackUnderflow address => "ret without call at " ++ toString address
  | .divisionByZero address => "division by zero at " ++ toString address
  | .malformedNumericLiteral literal =>
    "`" ++ literal ++ "` is neither an integer nor a register"
  | .missingOperand operation index =>
    "`" ++ operation.mnemonic ++ "` is missing operand " ++ toString index
  | .addressOutOfRange source target =>
    "jump from " ++ toString source ++ " to " ++ toString target ++ " leaves the program"
  | .stepLimit limit => "step limit of " ++ toString limit ++ " exceeded"

end PseudoAsm
