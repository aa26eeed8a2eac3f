import PseudoAsm.Proofs.Machine.Effect

/-!
# Stepping a machine

What one step of the standard machine comes to, said once for all later arguments, and the
sequence of states that a machine goes through when it is stepped again and again.

* `Flow.target?` — where an answered flow sends the pointer;
* `Processor.fetch_eq_ready_iff` and its companions — what lies under the pointer;
* `Processor.step_ready` — a step of any processor in terms of its executor's answer;
* `Stepped`, `stepped` — **every step of the standard machine is one of five**: outside the
  program, on an unknown mnemonic, trapped, ended, or moved to an address;
* `Processor.machineAt`, `Processor.resultAt` — the states and the results of a machine stepped
  over and over, whatever its steps answer.
-/

namespace PseudoAsm

/-! ### One step -/

/-- Where a flow from the instruction at an address sends the pointer; nowhere if the program is
over. -/
def Flow.target? (address : Nat) : Flow → Option Nat
  | .next => some (address + 1)
  | .jump target => some target
  | .stop => none

/-- Whether a machine whose pointer was sent to an address can go on. -/
def statusAt (program : Program) (address : Nat) : Status :=
  if address < program.length then .running else .fellThrough

theorem statusAt_ne_ended (program : Program) (address : Nat) :
    statusAt program address ≠ .ended := by
  unfold statusAt
  by_cases hlt : address < program.length
  · rw [if_pos hlt]
    exact Status.noConfusion
  · rw [if_neg hlt]
    exact Status.noConfusion

namespace Processor

variable {p : Processor} {program : Program} {m : Machine} {ins : Instruction} {op : Operation}

theorem on_moveTo (program : Program) (address : Nat) (m : Machine) :
    (moveTo program address).on m = (.ok (statusAt program address), { m with ip := address }) := by
  simp only [moveTo, Action.on_bind, Action.on_modify, Action.on_pure, statusAt]

/-- The step of a machine whose pointer is at an instruction with a known mnemonic. -/
theorem step_ready (h : p.fetch program m.ip = .ready ins op) :
    (p.step program).on m = match (p.executor ins op).on m with
      | (.error trap, after) => (.error trap, after)
      | (.ok flow, after) => match flow.target? m.ip with
        | none => (.ok .ended, after)
        | some target => (.ok (statusAt program target), { after with ip := target }) := by
  unfold step
  rw [Action.on_bind, Action.on_get]
  simp only [h]
  rw [Action.on_bind]
  rcases (p.executor ins op).on m with ⟨answer, after⟩
  cases answer with
  | error trap => rfl
  | ok flow => cases flow <;> simp only [Flow.target?, on_moveTo, Action.on_pure]

/-- Nothing lies under the pointer exactly if it is past the last instruction. -/
theorem fetch_eq_outside_iff {address : Nat} :
    p.fetch program address = .outside ↔ program.length ≤ address := by
  unfold fetch
  cases hins : program[address]? with
  | none => simpa only [true_iff] using List.getElem?_eq_none_iff.1 hins
  | some found =>
    have hlt := (List.getElem?_eq_some_iff.1 hins).1
    cases hrow : p.instructions.find? found.name <;>
      simp only [reduceCtorEq, false_iff, Nat.not_le, hrow, hlt]

/-- An instruction is ready to be executed exactly if the table has its mnemonic. -/
theorem fetch_eq_ready_iff {address : Nat} :
    p.fetch program address = .ready ins op
      ↔ program[address]? = some ins
        ∧ ∃ row, p.instructions.find? ins.name = some row ∧ row.operation = op := by
  unfold fetch
  cases program[address]? with
  | none => simp only [reduceCtorEq, false_and]
  | some found =>
    constructor
    · intro h
      cases hrow : p.instructions.find? found.name with
      | none => simp only [hrow, reduceCtorEq] at h
      | some row =>
        simp only [hrow, Fetched.ready.injEq] at h
        exact ⟨congrArg some h.1, row, h.1 ▸ hrow, h.2⟩
    · rintro ⟨hins, row, hrow, rfl⟩
      cases hins
      simp only [hrow]

/-- The standard machine is ready for every instruction that bears a standard name. -/
theorem fetch_standard {address : Nat} {params : List String}
    (h : program[address]? = some ⟨op.mnemonic, params⟩) :
    standard.fetch program address = .ready ⟨op.mnemonic, params⟩ op :=
  fetch_eq_ready_iff.2 ⟨h, _, InstructionSet.find?_standard op, rfl⟩

/-- A mnemonic is unknown exactly if the table lacks it. -/
theorem fetch_eq_unknown_iff {address : Nat} {name : String} :
    p.fetch program address = .unknown name
      ↔ ∃ ins, program[address]? = some ins ∧ p.instructions.find? ins.name = none
        ∧ ins.name = name := by
  unfold fetch
  cases program[address]? with
  | none => simp only [reduceCtorEq, false_and, exists_false]
  | some found =>
    constructor
    · intro h
      cases hrow : p.instructions.find? found.name with
      | none =>
        simp only [hrow, Fetched.unknown.injEq] at h
        exact ⟨found, rfl, hrow, h⟩
      | some row => simp only [hrow, reduceCtorEq] at h
    · rintro ⟨ins, hins, hrow, rfl⟩
      cases hins
      simp only [hrow]

end Processor

/-! ### Steps of the standard machine -/

/-- What a step of the standard machine makes of a machine: its result and the machine after it. -/
inductive Stepped (program : Program) (m : Machine) : Except Trap Status → Machine → Prop
  /-- The pointer is outside the program. -/
  | outside (h : Processor.standard.fetch program m.ip = .outside) :
      Stepped program m (.ok .fellThrough) m
  /-- The mnemonic under the pointer is unknown. -/
  | unknown {name : String} (h : Processor.standard.fetch program m.ip = .unknown name) :
      Stepped program m (.error (.unknownInstruction name m.ip)) m
  /-- The instruction under the pointer traps. -/
  | trapped {ins : Instruction} {op : Operation} {trap : Trap}
      (h : Processor.standard.fetch program m.ip = .ready ins op)
      (heffect : effect ins op m = .error trap) :
      Stepped program m (.error trap) m
  /-- The instruction under the pointer ends the program. -/
  | ended {ins : Instruction} {op : Operation} {flow : Flow} {after : Machine}
      (h : Processor.standard.fetch program m.ip = .ready ins op)
      (heffect : effect ins op m = .ok (flow, after)) (htarget : flow.target? m.ip = none) :
      Stepped program m (.ok .ended) after
  /-- The instruction under the pointer is executed and the pointer sent on. -/
  | moved {ins : Instruction} {op : Operation} {flow : Flow} {after : Machine} {target : Nat}
      (h : Processor.standard.fetch program m.ip = .ready ins op)
      (heffect : effect ins op m = .ok (flow, after)) (htarget : flow.target? m.ip = some target) :
      Stepped program m (.ok (statusAt program target)) { after with ip := target }

/-- **Every step is one of the five.** -/
theorem stepped (program : Program) (m : Machine) :
    Stepped program m ((Processor.standard.step program).on m).1
      ((Processor.standard.step program).on m).2 := by
  cases hfetch : Processor.standard.fetch program m.ip with
  | outside =>
    rw [Processor.step_outside hfetch]
    exact .outside hfetch
  | unknown name =>
    rw [Processor.step_unknown hfetch]
    exact .unknown hfetch
  | ready ins op =>
    rw [Processor.step_ready hfetch,
      show Processor.standard.executor ins op = execute ins op from rfl, on_execute]
    cases heffect : effect ins op m with
    | error trap => exact .trapped hfetch heffect
    | ok executed =>
      obtain ⟨flow, after⟩ := executed
      cases htarget : flow.target? m.ip with
      | none =>
        simp only [Action.outcome, htarget]
        exact .ended hfetch heffect htarget
      | some target =>
        simp only [Action.outcome, htarget]
        exact .moved hfetch heffect htarget

/-! ### Step after step -/

namespace Processor

/-- The machine after `n` steps, whatever they answer. -/
def machineAt (p : Processor) (program : Program) (m : Machine) : Nat → Machine
  | 0 => m
  | n + 1 => ((p.step program).on (machineAt p program m n)).2

/-- The result of the step after the first `n`. -/
def resultAt (p : Processor) (program : Program) (m : Machine) (n : Nat) : Except Trap Status :=
  ((p.step program).on (p.machineAt program m n)).1

@[simp] theorem machineAt_zero (p : Processor) (program : Program) (m : Machine) :
    p.machineAt program m 0 = m := rfl

theorem machineAt_succ (p : Processor) (program : Program) (m : Machine) (n : Nat) :
    p.machineAt program m (n + 1) = ((p.step program).on (p.machineAt program m n)).2 := rfl

/-- The steps after the first are those of the machine that it leaves. -/
theorem machineAt_step (p : Processor) (program : Program) (m : Machine) (n : Nat) :
    p.machineAt program ((p.step program).on m).2 n = p.machineAt program m (n + 1) := by
  induction n with
  | zero => rfl
  | succ n ih => rw [machineAt_succ, ih, machineAt_succ p program m (n + 1)]

theorem resultAt_step (p : Processor) (program : Program) (m : Machine) (n : Nat) :
    p.resultAt program ((p.step program).on m).2 n = p.resultAt program m (n + 1) := by
  rw [resultAt, machineAt_step, resultAt]

end Processor

/-- The step after the first `n` of the standard machine is one of the five. -/
theorem stepped_at (program : Program) (m : Machine) (n : Nat) :
    Stepped program (Processor.standard.machineAt program m n)
      (Processor.standard.resultAt program m n)
      (Processor.standard.machineAt program m (n + 1)) :=
  stepped program _

end PseudoAsm
