import PseudoAsm.Instruction
import PseudoAsm.Machine.RegisterFile
import PseudoAsm.Machine.StatusWord

/-!
# The machine

The state of a running program and the vocabulary of its execution.

* `Machine` — pointer, status word, registers, call stack, output and settings;
* `Machine.fresh`, `Machine.reset` — the initial state;
* `Flow` — where an executed instruction sends the pointer;
* `Status` — whether a machine can go on after a step;
* `Action` — a computation that may change the machine and may trap, keeping the machine as it was
  left when it traps.
-/

namespace PseudoAsm

/-- What is chosen for a machine before it runs. -/
structure Settings where
  /-- The number of steps after which a run is given up. -/
  maxSteps : Option Nat := none
deriving DecidableEq, Repr, Inhabited

/-- The state of a machine. -/
structure Machine where
  /-- The address of the instruction to execute. -/
  ip : Nat := 0
  /-- The flags of the last comparison. -/
  status : StatusWord := .initial
  registers : RegisterFile := .empty
  /-- The return addresses of the calls under way, the latest first. -/
  callStack : List Nat := []
  /-- The text that the last message left. -/
  output : Option String := none
  settings : Settings := {}
deriving DecidableEq, Repr, Inhabited

namespace Machine

/-- A machine that has done nothing yet. -/
def fresh (settings : Settings) : Machine :=
  { settings := settings }

/-- The machine back in its initial state, its settings kept. -/
def reset (m : Machine) : Machine :=
  fresh m.settings

@[simp] theorem reset_fresh (settings : Settings) : (fresh settings).reset = fresh settings := rfl

@[simp] theorem reset_reset (m : Machine) : m.reset.reset = m.reset := rfl

/-- The number of calls under way. -/
def callDepth (m : Machine) : Nat :=
  m.callStack.length

end Machine

/-! ### Execution -/

/-- Where an executed instruction sends the pointer. -/
inductive Flow where
  /-- To the following instruction. -/
  | next
  /-- To an address. -/
  | jump (target : Nat)
  /-- Nowhere: the program is over. -/
  | stop
deriving DecidableEq, Repr, Inhabited

/-- Whether a machine can go on after a step. -/
inductive Status where
  | running
  /-- The program ended itself; its output counts. -/
  | ended
  /-- The pointer left the program; its output is void. -/
  | fellThrough
deriving DecidableEq, Repr, Inhabited

/-- A computation on a machine that may trap. -/
abbrev Action := ExceptT Trap (StateM Machine)

/-- The execution of one instruction under an operation. -/
abbrev Executor := Instruction → Operation → Action Flow

namespace Action

/-- The outcome of an action on a machine, and the machine afterwards. -/
def on {α : Type} (action : Action α) (m : Machine) : Except Trap α × Machine :=
  (ExceptT.run action).run m

/-- Of two actions in sequence the second starts where the first ends, unless that traps. -/
theorem on_bind {α β : Type} (a : Action α) (f : α → Action β) (m : Machine) :
    Action.on (a >>= f) m = match a.on m with
      | (.ok x, after) => (f x).on after
      | (.error trap, after) => (.error trap, after) := by
  simp only [Action.on, bind, ExceptT.bind, ExceptT.run, ExceptT.mk, StateT.bind, StateT.run]
  rcases a m with ⟨r, after⟩
  cases r <;> rfl

@[simp] theorem on_pure {α : Type} (x : α) (m : Machine) :
    Action.on (pure x : Action α) m = (.ok x, m) := rfl

@[simp] theorem on_get (m : Machine) : Action.on (get : Action Machine) m = (.ok m, m) := rfl

@[simp] theorem on_set (m after : Machine) :
    Action.on (set after : Action PUnit) m = (.ok ⟨⟩, after) := rfl

@[simp] theorem on_modify (f : Machine → Machine) (m : Machine) :
    Action.on (modify f : Action PUnit) m = (.ok ⟨⟩, f m) := rfl

@[simp] theorem on_throw {α : Type} (trap : Trap) (m : Machine) :
    Action.on (throw trap : Action α) m = (.error trap, m) := rfl

/-- A computation without a machine leaves the machine alone. -/
@[simp] theorem on_liftM {α : Type} (e : Except Trap α) (m : Machine) :
    Action.on (liftM e : Action α) m = (e, m) := by
  cases e <;> rfl

end Action

end PseudoAsm
