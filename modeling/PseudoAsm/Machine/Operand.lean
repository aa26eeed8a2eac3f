import PseudoAsm.Machine.Basic
import PseudoAsm.Text.Numeric
import PseudoAsm.Text.Numeral

/-!
# Operands

How the parameters of an instruction are read while it is executed.  A value is a signed 32-bit
numeral or the name of a register; a jump target is an unsigned 64-bit numeral.

* `operand` — a parameter that has to be there;
* `Machine.value` — the value of a token;
* `jumpTo` — the jump that an instruction's first parameter asks for.
-/

namespace PseudoAsm

/-- The parameter at a position; an empty one counts as absent. -/
def operand (ins : Instruction) (op : Operation) (index : Nat) : Except Trap String :=
  match ins.param? index with
  | none => .error (.missingOperand op index)
  | some token => if token.isEmpty then .error (.missingOperand op index) else .ok token

/-- Whether a token reads as a register name: a letter or an underscore, then letters, numbers and
underscores. -/
def isIdentifier (token : String) : Bool :=
  match token.toList with
  | [] => false
  | c :: rest =>
    (Text.isAlphabetic c || c == '_') && rest.all fun d => Text.isAlphanumeric d || d == '_'

/-- The value of a token: a numeral's own, else that of the register it names. -/
def Machine.value (m : Machine) (token : String) : Except Trap Int32 :=
  match Numeral.int32? token with
  | some value => .ok value
  | none =>
    if isIdentifier token then m.registers.read token
    else .error (.malformedNumericLiteral token)

theorem Machine.value_of_int32? {token : String} {value : Int32}
    (h : Numeral.int32? token = some value) (m : Machine) : m.value token = .ok value := by
  simp only [Machine.value, h]

/-- The jump to the address in an instruction's first parameter. -/
def jumpTo (ins : Instruction) (op : Operation) : Except Trap Flow := do
  let target ← operand ins op 0
  match Numeral.nat64? target with
  | some address => .ok (.jump address)
  | none => .error (.malformedNumericLiteral target)

/-- The jump if a condition holds, and the following instruction otherwise.  The target is looked
at only if the jump is taken. -/
def jumpIf (taken : Bool) (ins : Instruction) (op : Operation) : Except Trap Flow :=
  if taken then jumpTo ins op else .ok .next

/-! ### Messages -/

/-- The text of one message part: what stands between apostrophes, nothing if the closing one is
missing, and else the decimal value of the register it names, stray apostrophes at its end
ignored. -/
def Machine.messagePart (m : Machine) (part : String) : Except Trap String :=
  match part.toList with
  | '\'' :: quoted =>
    if quoted.getLast? = some '\'' then .ok (String.ofList quoted.dropLast) else .ok ""
  | cs => do
    let name := String.ofList (cs.reverse.dropWhile (· = '\'')).reverse
    let value ← m.registers.read name
    return toString value.toInt

/-- The texts of all parts in order, as one. -/
def Machine.message (m : Machine) : List String → Except Trap String
  | [] => .ok ""
  | part :: rest => do
    let head ← m.messagePart part
    let tail ← m.message rest
    return head ++ tail

end PseudoAsm
