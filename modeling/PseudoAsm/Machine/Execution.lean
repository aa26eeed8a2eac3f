import PseudoAsm.Machine.Operand

/-!
# Executing operations

What each operation does to the machine.  Arithmetic is on signed 32-bit words: sums, differences
and products wrap, and a quotient is truncated toward zero.  The source operand of an arithmetic
operation is evaluated before its register is looked at.

* `execute` — the standard executor;
* `Executor.overriding` — an executor that answers fixed flows for some operations.
-/

namespace PseudoAsm

/-- Replace the value of the register in an instruction's first parameter. -/
def adjustRegister (ins : Instruction) (op : Operation) (f : Int32 → Except Trap Int32) :
    Action Flow := do
  let m ← get
  let name ← operand ins op 0
  let (_, registers) ← m.registers.modify name f
  set { m with registers := registers }
  return .next

/-- Replace the value of the register in the first parameter by what `f` makes of it and of the
value in the second. -/
def combineRegister (ins : Instruction) (op : Operation)
    (f : Int32 → Int32 → Except Trap Int32) : Action Flow := do
  let m ← get
  let value ← m.value (← operand ins op 1)
  adjustRegister ins op fun old => f old value

/-- The quotient truncated toward zero; the least word divided by -1 is itself. -/
def quotient (address : Nat) (dividend divisor : Int32) : Except Trap Int32 :=
  if divisor = 0 then .error (.divisionByZero address) else .ok (dividend / divisor)

/-- The jump from one address by an offset. -/
def relativeJump (source : Nat) (offset : Int32) : Except Trap Flow :=
  if (source : Int) + offset.toInt < 0 then
    .error (.addressOutOfRange source (source + offset.toInt))
  else .ok (.jump (source + offset.toInt).toNat)

/-- The effect of one instruction under an operation. -/
def execute (ins : Instruction) (op : Operation) : Action Flow := do
  let m ← get
  match op with
  | .mov =>
    let name ← operand ins op 0
    let value ← m.value (← operand ins op 1)
    set { m with registers := m.registers.write name value }
    return .next
  | .inc => adjustRegister ins op fun v => .ok (v + 1)
  | .dec => adjustRegister ins op fun v => .ok (v - 1)
  | .add => combineRegister ins op fun v w => .ok (v + w)
  | .sub => combineRegister ins op fun v w => .ok (v - w)
  | .mul => combineRegister ins op fun v w => .ok (v * w)
  | .div => combineRegister ins op (quotient m.ip)
  | .cmp =>
    let x ← m.value (← operand ins op 0)
    let y ← m.value (← operand ins op 1)
    set { m with status := .ofOrdering (compare x.toInt y.toInt) }
    return .next
  | .jmp => jumpTo ins op
  | .je => jumpIf m.status.zero ins op
  | .jne => jumpIf (!m.status.zero) ins op
  | .jg => jumpIf (!m.status.zero && !m.status.negative) ins op
  | .jge => jumpIf (!m.status.negative) ins op
  | .jl => jumpIf m.status.negative ins op
  | .jle => jumpIf (m.status.zero || m.status.negative) ins op
  | .jnz =>
    let x ← m.value (← operand ins op 0)
    if x = 0 then return .next
    let offset ← m.value (← operand ins op 1)
    relativeJump m.ip offset
  | .call =>
    let flow ← jumpTo ins op
    set { m with callStack := (m.ip + 1) :: m.callStack }
    return flow
  | .ret =>
    match m.callStack with
    | [] => throw (.callStackUnderflow m.ip)
    | back :: below =>
      set { m with callStack := below }
      return .jump back
  | .msg =>
    let text ← m.message ins.params
    set { m with output := some text }
    return .next
  | .stop => return .stop

/-- An executor that leaves the machine alone and answers a fixed flow for the operations that
`forced` gives one. -/
def Executor.overriding (forced : Operation → Option Flow) (executor : Executor) : Executor :=
  fun ins op =>
    match forced op with
    | some flow => return flow
    | none => executor ins op

end PseudoAsm
