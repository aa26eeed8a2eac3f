import PseudoAsm.Proofs.Machine.Isolation

/-!
# Halting

A machine has no mark that tells that it has halted: only the result of its last step does.  It
halts for one of three reasons, and each of them keeps it where it is.  A trap has no effect at all,
an end leaves the pointer at itself, and a pointer outside the program finds nothing to execute,
however far outside it is and whatever brought it there.

* `Processor.AtEnd` — the instruction under the pointer is an end;
* `StepOutcome`, `stepOutcome` — **every step is one of four**, whatever the mnemonics mean: outside
  the program, trapped, ended, or moved to an address;
* `Processor.StandsStill` — a step gives a result and changes nothing;
* `standsStill_of_ne_running` — the machine that a halting step leaves stands still;
* `halting_permanent` — **halting is permanent**, and exactly the steps to an address of the program
  do not halt.
-/

namespace PseudoAsm

variable {instructions : InstructionSet} {program : Program} {m after : Machine}
  {result : Except Trap Status}

/-! ### The four steps -/

/-- The instruction under the pointer of a machine ends the program. -/
def Processor.AtEnd (p : Processor) (program : Program) (m : Machine) : Prop :=
  ∃ ins, p.fetch program m.ip = .ready ins .stop

theorem eq_stop_of_controlEffect {op : Operation} (h : op.controlEffect = .stop) : op = .stop := by
  cases op <;> first | rfl | cases h

/-- What a step makes of a machine under a table of mnemonics: its result and the machine after
it. -/
inductive StepOutcome (instructions : InstructionSet) (program : Program) (m : Machine) :
    Except Trap Status → Machine → Prop
  /-- The pointer is outside the program. -/
  | outside (h : program.length ≤ m.ip) :
      StepOutcome instructions program m (.ok .fellThrough) m
  /-- The mnemonic under the pointer is unknown, or its instruction traps. -/
  | trapped {trap : Trap} : StepOutcome instructions program m (.error trap) m
  | ended (h : instructions.processor.AtEnd program m) :
      StepOutcome instructions program m (.ok .ended) m
  /-- The instruction under the pointer is executed and sends the pointer on. -/
  | moved {left : Machine} {target : Nat} (h : ¬instructions.processor.AtEnd program m) :
      StepOutcome instructions program m (.ok (statusAt program target))
        { left with ip := target }

/-- **Every step is one of the four.** -/
theorem stepOutcome (h : (instructions.processor.step program).on m = (result, after)) :
    StepOutcome instructions program m result after := by
  cases hfetch : instructions.processor.fetch program m.ip with
  | outside =>
    rw [Processor.step_outside hfetch] at h
    cases h
    exact .outside (Processor.fetch_eq_outside_iff.1 hfetch)
  | unknown name =>
    rw [Processor.step_unknown hfetch] at h
    cases h
    exact .trapped
  | ready ins op =>
    rw [step_eq_sent hfetch] at h
    cases heffect : effect ins op m with
    | error trap =>
      rw [heffect] at h
      cases h
      exact .trapped
    | ok executed =>
      obtain ⟨flow, left⟩ := executed
      have htransferred := transferred_of_effect heffect
      rw [heffect] at h
      cases htarget : flow.target? m.ip with
      | none =>
        obtain ⟨hcontrol, rfl⟩ := stop_of_transferred htransferred htarget
        obtain rfl : op = .stop := eq_stop_of_controlEffect hcontrol
        simp only [sent, htarget] at h
        cases h
        exact .ended ⟨ins, hfetch⟩
      | some target =>
        have hgoes : ¬instructions.processor.AtEnd program m := by
          rintro ⟨other, hother⟩
          cases hfetch.symm.trans hother
          cases heffect
          cases htarget
        simp only [sent, htarget] at h
        cases h
        exact .moved hgoes

/-! ### Standing still -/

/-- A step of the machine gives a result and leaves the machine as it is. -/
def Processor.StandsStill (p : Processor) (program : Program) (m : Machine)
    (result : Except Trap Status) : Prop :=
  (p.step program).on m = (result, m)

/-- A machine that stands still does so step after step. -/
theorem Processor.StandsStill.at {p : Processor} (h : p.StandsStill program m result) (n : Nat) :
    p.machineAt program m n = m ∧ p.resultAt program m n = result := by
  have hmachine : p.machineAt program m n = m := by
    induction n with
    | zero => rfl
    | succ n ih => rw [machineAt_succ, ih, h]
  refine ⟨hmachine, ?_⟩
  rw [resultAt, hmachine, h]

/-- Outside the program a machine stands still. -/
theorem standsStill_of_length_le (h : program.length ≤ m.ip) :
    instructions.processor.StandsStill program m (.ok .fellThrough) :=
  Processor.step_outside (Processor.fetch_eq_outside_iff.2 h)

/-- **The machine that a halting step leaves stands still.**  A trap and an end leave it as it was,
so that the next step is the same one again; after a fall it is outside the program. -/
theorem standsStill_of_ne_running
    (hstep : (instructions.processor.step program).on m = (result, after))
    (hresult : result ≠ .ok .running) :
    instructions.processor.StandsStill program after result := by
  cases stepOutcome hstep with
  | outside | trapped | ended => exact hstep
  | @moved left target hgoes =>
    by_cases hlt : target < program.length
    · rw [statusAt, if_pos hlt] at hresult
      exact absurd rfl hresult
    · rw [statusAt, if_neg hlt]
      exact standsStill_of_length_le (Nat.not_lt.1 hlt)

/-! ### Going on -/

/-- A step leaves the machine running exactly if it does not trap, does not execute an end, and
leaves the pointer inside the program. -/
theorem eq_running_iff (hstep : (instructions.processor.step program).on m = (result, after)) :
    result = .ok .running
      ↔ (∃ status, result = .ok status) ∧ ¬instructions.processor.AtEnd program m
        ∧ after.ip < program.length := by
  cases stepOutcome hstep with
  | outside hle =>
    refine iff_of_false (by decide) ?_
    rintro ⟨-, -, hlt⟩
    exact Nat.not_lt.2 hle hlt
  | trapped =>
    refine iff_of_false nofun ?_
    rintro ⟨⟨status, hstatus⟩, -⟩
    cases hstatus
  | ended hend =>
    refine iff_of_false (by decide) ?_
    rintro ⟨-, hgoes, -⟩
    exact hgoes hend
  | @moved left target hgoes =>
    show _ ↔ _ ∧ _ ∧ target < program.length
    by_cases hlt : target < program.length
    · rw [statusAt, if_pos hlt]
      exact iff_of_true rfl ⟨⟨_, rfl⟩, hgoes, hlt⟩
    · rw [statusAt, if_neg hlt]
      refine iff_of_false (by decide) ?_
      rintro ⟨-, -, hlt'⟩
      exact hlt hlt'

/-- **Halting is permanent.**  If a step gives any result but that the machine is running, all later
steps of the same program give this result, and the machine stays as the step has left it, in every
part.  The machine is running exactly if the step has not trapped, has not executed an end, and has
left the pointer at an address of the program.  This holds of every state of the machine, those
restored from outside included, and of every table of mnemonics. -/
theorem halting_permanent (instructions : InstructionSet) (program : Program) (m after : Machine)
    (result : Except Trap Status)
    (hstep : (instructions.processor.step program).on m = (result, after)) :
    (result ≠ .ok .running → ∀ n,
        instructions.processor.resultAt program after n = result
          ∧ instructions.processor.machineAt program after n = after)
      ∧ (result = .ok .running
        ↔ (∃ status, result = .ok status) ∧ ¬instructions.processor.AtEnd program m
          ∧ after.ip < program.length) := by
  refine ⟨?_, eq_running_iff hstep⟩
  intro hresult n
  obtain ⟨hmachine, hagain⟩ := (standsStill_of_ne_running hstep hresult).at n
  exact ⟨hagain, hmachine⟩

/-- A table in which `leap` is a relative jump, `back` a return and `quit` an end. -/
def leapingInstructions : InstructionSet :=
  [⟨"leap", .jnz, .valueOffset⟩, ⟨"back", .ret, .empty⟩, ⟨"quit", .stop, .empty⟩]

/-- A relative jump that may lead far outside the program, a return and an end. -/
def leapingProgram : Program :=
  [⟨"leap", ["7", "2147483647"]⟩, ⟨"back", []⟩, ⟨"quit", []⟩]

/-- A machine at an address, with a return address that no program has. -/
def strayMachine (ip : Nat) : Machine :=
  { ip := ip, callStack := [18446744073709551615] }

/-- A jump leaves the machine far outside the program, and a return farther still; an end and an
empty call stack leave it where it is.  There it stays, for a million steps. -/
theorem halting_permanent_leaping :
    (leapingInstructions.processor.resultAt leapingProgram (strayMachine 2147483647) 1000000
          = .ok .fellThrough
        ∧ leapingInstructions.processor.machineAt leapingProgram (strayMachine 2147483647) 1000000
          = strayMachine 2147483647)
      ∧ (leapingInstructions.processor.resultAt leapingProgram { ip := 18446744073709551615 }
            1000000 = .ok .fellThrough
        ∧ leapingInstructions.processor.machineAt leapingProgram { ip := 18446744073709551615 }
            1000000 = { ip := 18446744073709551615 })
      ∧ (leapingInstructions.processor.resultAt leapingProgram { ip := 1 } 1000000
            = .error (.callStackUnderflow 1)
        ∧ leapingInstructions.processor.machineAt leapingProgram { ip := 1 } 1000000 = { ip := 1 })
      ∧ (leapingInstructions.processor.resultAt leapingProgram (strayMachine 2) 1000000
            = .ok .ended
        ∧ leapingInstructions.processor.machineAt leapingProgram (strayMachine 2) 1000000
          = strayMachine 2) := by
  have hleap : (leapingInstructions.processor.step leapingProgram).on (strayMachine 0)
      = (.ok .fellThrough, strayMachine 2147483647) := by decide +kernel
  have hback : (leapingInstructions.processor.step leapingProgram).on (strayMachine 1)
      = (.ok .fellThrough, { ip := 18446744073709551615 }) := by decide +kernel
  have hempty : (leapingInstructions.processor.step leapingProgram).on { ip := 1 }
      = (.error (.callStackUnderflow 1), { ip := 1 }) := by decide +kernel
  have hquit : (leapingInstructions.processor.step leapingProgram).on (strayMachine 2)
      = (.ok .ended, strayMachine 2) := by decide +kernel
  exact ⟨(halting_permanent _ _ _ _ _ hleap).1 (by decide) 1000000,
    (halting_permanent _ _ _ _ _ hback).1 (by decide) 1000000,
    (halting_permanent _ _ _ _ _ hempty).1 (by decide) 1000000,
    (halting_permanent _ _ _ _ _ hquit).1 (by decide) 1000000⟩

end PseudoAsm
