import PseudoAsm.Machine.Processor
import PseudoAsm.Resolution

/-!
# Runs

A run steps a machine from its initial state until it cannot go on, and resets it afterwards.  Its
result is the output if the program ended itself, and no output if the pointer left the program.
A step limit is checked before every step.

An unlimited run need not come to an end, so runs are given a patience, the greatest number of
steps to wait for, and have no answer when it is used up.

* `Processor.runFrom` — the steps of a run;
* `Processor.run` — a whole run on a machine;
* `Processor.history` — what a run executes;
* `interpret` — program text, read, resolved and run on a fresh machine.
-/

namespace PseudoAsm

namespace Processor

/-- Step until the machine cannot go on.  `taken` steps have been taken already; if none of the
`patience` further ones ends the run, there is no answer. -/
def runFrom (p : Processor) (program : Program) :
    (patience taken : Nat) → Machine → Option (Except Trap Status × Machine)
  | 0, _, _ => none
  | patience + 1, taken, m =>
    match m.settings.maxSteps.filter (· ≤ taken) with
    | some limit => some (.error (.stepLimit limit), m)
    | none =>
      match (p.step program).on m with
      | (.ok .running, after) => runFrom p program patience (taken + 1) after
      | halted => some halted

/-- What the end of a run makes known: the output if the program ended itself. -/
def released (result : Except Trap Status) (output : Option String) :
    Except Trap (Option String) :=
  match result with
  | .ok .ended => .ok output
  | .ok _ => .ok none
  | .error trap => .error trap

/-- Run a program from the initial state of a machine: the result, and the machine reset. -/
def run (p : Processor) (patience : Nat) (program : Program) (m : Machine) :
    Option (Except Trap (Option String) × Machine) :=
  (p.runFrom program patience 0 m.reset).map fun (result, final) =>
    (released result final.output, final.reset)

/-- What a run executes, step by step. -/
def history (p : Processor) (patience : Nat) (program : Program) (m : Machine) : List Stage :=
  p.stages program (m.settings.maxSteps.getD patience) m.reset

end Processor

/-! ### From text to output -/

/-- Why program text has no output. -/
inductive Failure where
  | unresolved (error : ResolveError)
  | trapped (trap : Trap)
deriving DecidableEq, Repr

/-- The wording of a failure. -/
def Failure.message : Failure → String
  | .unresolved error => error.message
  | .trapped trap => trap.message

/-- Read and resolve program text and run it on a fresh machine. -/
def interpret (patience : Nat) (settings : Settings) (source : String) :
    Option (Except Failure (Option String)) :=
  match assemble source with
  | .error error => some (.error (.unresolved error))
  | .ok program =>
    (Processor.standard.run patience program (.fresh settings)).map fun (result, _) =>
      result.mapError .trapped

end PseudoAsm
