import PseudoAsm.Analysis.Edge
import PseudoAsm.Proofs.Machine.Stepping
import PseudoAsm.Proofs.Outcome
import PseudoAsm.Proofs.Resolution.Position

/-!
# The symbolic machine

A reference machine that runs unresolved programs.  Its state is that of the ordinary machine, but
its pointer and its return addresses are positions of the unresolved program.

* a label definition under the pointer is skipped and costs no step;
* a target that names a label leads to the position of its first definition, and any other target
  is the address of an instruction, counted without label definitions;
* a call pushes the position that follows it, and an offset counts instructions without label
  definitions;
* every other instruction acts as on the ordinary machine, traps naming addresses.

`Symbolic.located` is the ordinary state that a symbolic one stands for.
-/

namespace PseudoAsm.Symbolic

/-- Where the target of an instruction leads: to the first definition of the label it names, or
else to the instruction with its address. -/
def destination (program : Program) (ins : Instruction) (op : Operation) : Except Trap Flow := do
  let target ← operand ins op 0
  match program.definition? target with
  | some position => .ok (.jump position)
  | none =>
    match Numeral.nat64? target with
    | some address => .ok (.jump (program.positionOf address))
    | none => .error (.malformedNumericLiteral target)

variable {program : Program} {ins : Instruction} {op : Operation} {target : String}

theorem destination_of_definition {position : Nat} (htoken : operand ins op 0 = .ok target)
    (h : program.definition? target = some position) :
    destination program ins op = .ok (.jump position) := by
  refine bind_eq_ok_iff.2 ⟨target, htoken, ?_⟩
  simp only [h]

theorem destination_of_address {address : Nat} (htoken : operand ins op 0 = .ok target)
    (h : program.definition? target = none) (hnumeral : Numeral.nat64? target = some address) :
    destination program ins op = .ok (.jump (program.positionOf address)) := by
  refine bind_eq_ok_iff.2 ⟨target, htoken, ?_⟩
  simp only [h, hnumeral]

/-- Where an offset leads from a position, counted without label definitions. -/
def displacement (program : Program) (position : Nat) (offset : Int32) : Except Trap Flow :=
  let target := (program.addressAt position : Int) + offset.toInt
  if target < 0 then .error (.addressOutOfRange (program.addressAt position) target)
  else .ok (.jump (program.positionOf target.toNat))

/-- Execute the instruction at a position: the flow, in positions, or the trap, and the machine
afterwards. -/
def perform (program : Program) (position : Nat) (ins : Instruction) (op : Operation)
    (m : Machine) : Except Trap Flow × Machine :=
  match op with
  | .jmp => (destination program ins op, m)
  | .je => (if m.status.zero then destination program ins op else .ok .next, m)
  | .jne => (if !m.status.zero then destination program ins op else .ok .next, m)
  | .jg =>
    (if !m.status.zero && !m.status.negative then destination program ins op else .ok .next, m)
  | .jge => (if !m.status.negative then destination program ins op else .ok .next, m)
  | .jl => (if m.status.negative then destination program ins op else .ok .next, m)
  | .jle =>
    (if m.status.zero || m.status.negative then destination program ins op else .ok .next, m)
  | .jnz =>
    (do
      let x ← m.value (← operand ins op 0)
      if x = 0 then return .next
      displacement program position (← m.value (← operand ins op 1)), m)
  | .call =>
    match destination program ins op with
    | .ok flow => (.ok flow, { m with callStack := (position + 1) :: m.callStack })
    | .error trap => (.error trap, m)
  | .ret =>
    match m.callStack with
    | [] => (.error (.callStackUnderflow (program.addressAt position)), m)
    | back :: below => (.ok (.jump back), { m with callStack := below })
  | _ =>
    let (answer, after) := (execute ins op).on { m with ip := program.addressAt position }
    (answer, { after with ip := m.ip })

/-- An operation that only advances acts as on the ordinary machine. -/
theorem perform_advance (hop : op.controlEffect = .advance) (position : Nat) (m : Machine) :
    perform program position ins op m
      = (((execute ins op).on { m with ip := program.addressAt position }).1,
        { ((execute ins op).on { m with ip := program.addressAt position }).2 with
          ip := m.ip }) := by
  cases op with
  | mov | inc | dec | add | sub | mul | div | cmp | msg => rfl
  | jmp | je | jne | jg | jge | jl | jle | jnz | call | ret | stop => cases hop

/-- One step: skip label definitions, execute one instruction, and move the pointer.  The machine
can go on if an instruction is left from its new position on. -/
def step (program : Program) (m : Machine) : Except Trap Status × Machine :=
  let position := program.settle m.ip
  match program[position]? with
  | none => (.ok .fellThrough, m)
  | some ins =>
    match InstructionSet.standard.find? ins.name with
    | none => (.error (.unknownInstruction ins.name (program.addressAt position)), m)
    | some row =>
      match perform program position ins row.operation m with
      | (.error trap, after) => (.error trap, after)
      | (.ok flow, after) =>
        match flow.target? position with
        | none => (.ok .ended, after)
        | some target =>
          (.ok (if program.settle target < program.length then .running else .fellThrough),
            { after with ip := target })

variable {m : Machine}

theorem step_outside (h : program[program.settle m.ip]? = none) :
    step program m = (.ok .fellThrough, m) := by
  simp only [step, h]

theorem step_unknown (h : program[program.settle m.ip]? = some ins)
    (hrow : InstructionSet.standard.find? ins.name = none) :
    step program m = (.error (.unknownInstruction ins.name (program.addressAt m.ip)), m) := by
  simp only [step, h, hrow, Program.addressAt_settle]

theorem step_ready {row : MnemonicRow} (h : program[program.settle m.ip]? = some ins)
    (hrow : InstructionSet.standard.find? ins.name = some row) :
    step program m = match perform program (program.settle m.ip) ins row.operation m with
      | (.error trap, after) => (.error trap, after)
      | (.ok flow, after) =>
        match flow.target? (program.settle m.ip) with
        | none => (.ok .ended, after)
        | some target =>
          (.ok (if program.settle target < program.length then .running else .fellThrough),
            { after with ip := target }) := by
  simp only [step, h, hrow]

/-- The machine after `n` steps, whatever they answer. -/
def machineAt (program : Program) (m : Machine) : Nat → Machine
  | 0 => m
  | n + 1 => (step program (machineAt program m n)).2

/-- The result of the step after the first `n`. -/
def resultAt (program : Program) (m : Machine) (n : Nat) : Except Trap Status :=
  (step program (machineAt program m n)).1

/-- The ordinary machine that a symbolic one stands for: its positions as addresses. -/
def located (program : Program) (m : Machine) : Machine :=
  { m with
    ip := program.addressAt m.ip
    callStack := m.callStack.map program.addressAt }

/-- Both machines start in the same state. -/
theorem located_fresh (program : Program) (settings : Settings) :
    located program (.fresh settings) = .fresh settings := by
  rw [located, show (Machine.fresh settings).ip = 0 from rfl, Program.addressAt_zero]
  rfl

end PseudoAsm.Symbolic
