import PseudoAsm.Machine.Basic

/-!
# Snapshots

The state of a machine as plain data, for starting from any state.  The call stack is given bottom
first.  Register names are restored exactly as they are written, so a name that is not in its
looked-up form is kept but can never be read.

* `Snapshot.toMachine?` — the machine that data describe, if all numbers fit their widths.
-/

namespace PseudoAsm

/-- The data of a machine, numbers not yet checked against their widths. -/
structure Snapshot where
  ip : Int := 0
  status : String := "Z"
  registers : List (String × Int) := []
  callStack : List Int := []
  output : Option String := none
  maxSteps : Option Int := none
deriving DecidableEq, Repr

/-- A number as an unsigned 64-bit one. -/
def toNat64? (n : Int) : Option Nat :=
  if 0 ≤ n ∧ n < Numeral.nat64Bound then some n.toNat else none

/-- A number as a signed 32-bit one. -/
def toInt32? (n : Int) : Option Int32 :=
  if -Numeral.int32Bound ≤ n ∧ n < Numeral.int32Bound then some (Int32.ofInt n) else none

/-- The machine that data describe; none if a number is out of range or the status word is
malformed. -/
def Snapshot.toMachine? (data : Snapshot) : Option Machine := do
  let ip ← toNat64? data.ip
  let status ← StatusWord.ofText? data.status
  let registers ← data.registers.mapM fun (name, value) => do return (name, ← toInt32? value)
  let callStack ← data.callStack.mapM toNat64?
  let maxSteps ← data.maxSteps.mapM toNat64?
  return {
    ip, status
    registers := registers.foldl (fun file (name, value) => file.insert name value) .empty
    callStack := callStack.reverse
    output := data.output
    settings := { maxSteps } }

end PseudoAsm
