import PseudoAsm.Machine.Execution

/-!
# Steps

A processor is a table of mnemonics with an executor.  A step executes the instruction under the
pointer and moves the pointer on; outside the program it does nothing.

* `Processor.fetch` — what lies under the pointer;
* `Processor.step` — one step;
* `Processor.stages` — the steps of a machine with what happened in each.
-/

namespace PseudoAsm

/-- A table of mnemonics and the executor of their operations. -/
structure Processor where
  instructions : InstructionSet := .standard
  executor : Executor := execute

/-- All operations under their standard names and with their standard effects. -/
def Processor.standard : Processor := {}

/-- What lies under the pointer of a machine. -/
inductive Fetched where
  /-- Nothing: the pointer is outside the program. -/
  | outside
  /-- An instruction with a mnemonic that the table lacks. -/
  | unknown (name : String)
  /-- An instruction and the operation it stands for. -/
  | ready (instruction : Instruction) (operation : Operation)
deriving DecidableEq, Repr

namespace Processor

/-- What lies at an address of a program. -/
def fetch (p : Processor) (program : Program) (address : Nat) : Fetched :=
  match program[address]? with
  | none => .outside
  | some ins =>
    match p.instructions.find? ins.name with
    | none => .unknown ins.name
    | some row => .ready ins row.operation

/-- Set the pointer; the machine goes on if it is then inside the program. -/
def moveTo (program : Program) (address : Nat) : Action Status := do
  modify fun m => { m with ip := address }
  return if address < program.length then .running else .fellThrough

/-- Execute the instruction under the pointer and move the pointer on. -/
def step (p : Processor) (program : Program) : Action Status := do
  let m ← get
  match p.fetch program m.ip with
  | .outside => return .fellThrough
  | .unknown name => throw (.unknownInstruction name m.ip)
  | .ready ins op =>
    match ← p.executor ins op with
    | .next => moveTo program (m.ip + 1)
    | .jump target => moveTo program target
    | .stop => return .ended

/-- Outside the program a step does nothing. -/
theorem step_outside {p : Processor} {program : Program} {m : Machine}
    (h : p.fetch program m.ip = .outside) :
    (p.step program).on m = (.ok .fellThrough, m) := by
  simp only [step, Action.on_bind, Action.on_get, h, Action.on_pure]

/-- An unknown mnemonic traps and changes nothing. -/
theorem step_unknown {p : Processor} {program : Program} {m : Machine} {name : String}
    (h : p.fetch program m.ip = .unknown name) :
    (p.step program).on m = (.error (.unknownInstruction name m.ip), m) := by
  simp only [step, Action.on_bind, Action.on_get, h, Action.on_throw]

/-! ### What happened -/

/-- An instruction that was given to the executor, with the answer. -/
structure Event where
  address : Nat
  instruction : Instruction
  operation : Operation
  answer : Except Trap Flow

/-- A step seen from outside: what was executed, the result, and the machine afterwards. -/
structure Stage where
  event : Option Event
  result : Except Trap Status
  machine : Machine

/-- What the executor is given in the next step, and what it answers. -/
def event? (p : Processor) (program : Program) (m : Machine) : Option Event :=
  match p.fetch program m.ip with
  | .ready ins op => some ⟨m.ip, ins, op, ((p.executor ins op).on m).1⟩
  | _ => none

/-- The next step of a machine. -/
def stage (p : Processor) (program : Program) (m : Machine) : Stage :=
  let (result, after) := (p.step program).on m
  ⟨p.event? program m, result, after⟩

/-- At most `n` steps, the last being the first after which the machine cannot go on. -/
def stages (p : Processor) (program : Program) : Nat → Machine → List Stage
  | 0, _ => []
  | n + 1, m =>
    let s := p.stage program m
    match s.result with
    | .ok .running => s :: stages p program n s.machine
    | _ => [s]

theorem length_stages_le (p : Processor) (program : Program) (n : Nat) (m : Machine) :
    (p.stages program n m).length ≤ n := by
  induction n generalizing m with
  | zero => exact Nat.le_refl 0
  | succ n ih =>
    simp only [stages]
    split
    · exact Nat.succ_le_succ (ih _)
    · exact Nat.succ_le_succ (Nat.zero_le n)

end Processor

end PseudoAsm
