import PseudoAsm.Proofs.Machine.Calls
import PseudoAsm.Proofs.Machine.Registers
import PseudoAsm.Proofs.Machine.Running

/-!
# Traps tell the truth

When a run ends in a trap, what the trap says holds of the instruction under the pointer and of the
steps before.  That a register was never written and that there is no call to return to are
statements about the whole run; the register file and the call stack bear witness to it.

* `Truthful` — what a trap asserts of a run and of the instruction that it has come to;
* `truthful_of_diagnosis` — what is wrong with the machine is as the trap asserts of the run;
* `truthful_of_resultAt` — the step after any number of steps raises only truthful traps;
* `traps_tell_truth` — **so does every unlimited run**.
-/

namespace PseudoAsm

/-- What a trap asserts of the steps from a machine, the first `n` of which have led to an
instruction that is then not executed. -/
def Truthful (program : Program) (start : Machine) (n : Nat) (ins : Instruction) (trap : Trap) :
    Prop :=
  let m := Processor.standard.machineAt program start n
  let written (name : String) : Prop :=
    ∃ i < n, MovesTo program (Processor.standard.machineAt program start i) name
  match trap with
  | .unknownInstruction name address =>
    address = m.ip ∧ name = ins.name ∧ ∀ row ∈ InstructionSet.standard, row.mnemonic ≠ name
  | .callStackUnderflow address =>
    address = m.ip ∧ ins.name = "ret"
      ∧ executed program start .ret n = executed program start .call n
  | .divisionByZero address =>
    address = m.ip ∧ ins.name = "div"
      ∧ (∃ first, ins.param? 0 = some first ∧ written (RegisterFile.key first))
      ∧ ∃ second, ins.param? 1 = some second ∧ m.value second = .ok 0
  | .addressOutOfRange source target =>
    source = m.ip ∧ ins.name = "jnz"
      ∧ (∃ first x, ins.param? 0 = some first ∧ m.value first = .ok x ∧ x ≠ 0)
      ∧ ∃ second offset, ins.param? 1 = some second ∧ m.value second = .ok offset
        ∧ target = m.ip + offset.toInt ∧ target < 0
  | .unknownRegister name =>
    (∃ op, op.mnemonic = ins.name
        ∧ ∃ token ∈ ins.registersRead op m, name = RegisterFile.key token)
      ∧ ¬written name
  | .missingOperand op index => op.mnemonic = ins.name ∧ ins.Lacks index
  | .malformedNumericLiteral literal => ∃ op, op.mnemonic = ins.name ∧ ins.Misstates op literal
  | .stepLimit _ => False

variable {program : Program} {settings : Settings} {n : Nat} {trap : Trap}

/-- The call stack is empty exactly if as many returns as calls were executed. -/
theorem callStack_eq_nil_iff (program : Program) (settings : Settings) (n : Nat) :
    (Processor.standard.machineAt program (.fresh settings) n).callStack = []
      ↔ executed program (.fresh settings) .ret n = executed program (.fresh settings) .call n := by
  have hdepth := callDepth_machineAt program settings n
  rw [Machine.callDepth] at hdepth
  rw [← List.length_eq_zero_iff]
  omega

/-- **What is wrong with the machine is as the trap asserts of the run.**  The names of the
registers tell of the moves, and the call stack tells of the calls and returns. -/
theorem truthful_of_diagnosis {ins : Instruction} {op : Operation} (hname : op.mnemonic = ins.name)
    (h : Diagnosis ins op (Processor.standard.machineAt program (.fresh settings) n) trap) :
    Truthful program (.fresh settings) n ins trap := by
  have hwritten := mem_names_machineAt_iff program settings n
  cases trap with
  | missingOperand other index =>
    obtain ⟨rfl, hlacks⟩ := h
    exact ⟨hname, hlacks⟩
  | malformedNumericLiteral literal => exact ⟨op, hname, h⟩
  | unknownRegister name =>
    obtain ⟨hreads, hunset⟩ := h
    exact ⟨⟨op, hname, hreads⟩, mt (hwritten name).2 hunset⟩
  | divisionByZero address =>
    obtain ⟨rfl, haddress, ⟨first, hfirst, hset⟩, hzero⟩ := h
    exact ⟨haddress, hname.symm, ⟨first, hfirst, (hwritten _).1 hset⟩, hzero⟩
  | addressOutOfRange source target =>
    obtain ⟨rfl, hsource, htaken, htarget⟩ := h
    exact ⟨hsource, hname.symm, htaken, htarget⟩
  | callStackUnderflow address =>
    obtain ⟨rfl, haddress, hempty⟩ := h
    exact ⟨haddress, hname.symm, (callStack_eq_nil_iff program settings n).1 hempty⟩
  | unknownInstruction | stepLimit => exact h.elim

/-- A step that traps lies in the program and raises a truthful trap. -/
theorem truthful_of_resultAt
    (h : Processor.standard.resultAt program (.fresh settings) n = .error trap) :
    ∃ ins, program[(Processor.standard.machineAt program (.fresh settings) n).ip]? = some ins
      ∧ Truthful program (.fresh settings) n ins trap := by
  have hstepped := stepped_at program (.fresh settings) n
  rw [h] at hstepped
  generalize Processor.standard.machineAt program (.fresh settings) (n + 1) = after at hstepped
  cases hstepped with
  | unknown hfetch =>
    obtain ⟨ins, hins, hnone, rfl⟩ := Processor.fetch_eq_unknown_iff.1 hfetch
    refine ⟨ins, hins, rfl, rfl, ?_⟩
    intro row hrow hname
    exact List.find?_eq_none.1 hnone row hrow (beq_iff_eq.2 hname)
  | @trapped ins op _ hfetch heffect =>
    obtain ⟨hins, row, hrow, rfl⟩ := Processor.fetch_eq_ready_iff.1 hfetch
    have hname := InstructionSet.mnemonic_operation_of_find? hrow
    exact ⟨ins, hins, truthful_of_diagnosis hname (effect_diagnosis _ _ _ trap heffect)⟩

/-- **Traps tell the truth.**  An unlimited run that answers with a trap has halted at an
instruction of the program.  The trap names the address and the mnemonic of that instruction where
it names any.  An unknown instruction is in no row of the table, a missing operand is absent or
empty, and a malformed literal is a parameter that cannot be read as the target or the value it
stands for.  A return underflows only after as many executed returns as calls; a division by zero
divides a written register by a value that is zero; a relative jump leaves the program only if it is
taken and its target is negative.  An unknown register is one that the instruction reads, and no
move of the run has written it. -/
theorem traps_tell_truth (program : Program) (m : Machine)
    (hunlimited : m.settings.maxSteps = none) {patience : Nat} {trap : Trap} {after : Machine}
    (h : Processor.standard.run patience program m = some (.error trap, after)) :
    ∃ n < patience, Processor.standard.HaltsAt program (.fresh m.settings) n
      ∧ Processor.standard.resultAt program (.fresh m.settings) n = .error trap
      ∧ ∃ ins, program[(Processor.standard.machineAt program (.fresh m.settings) n).ip]? = some ins
        ∧ Truthful program (.fresh m.settings) n ins trap := by
  have hp : Processor.standard.IgnoresSettings program := ignoresSettings .standard program
  obtain ⟨n, hn, hhalts, hreleased⟩ := Processor.exists_haltsAt_of_run hp hunlimited h
  have hresult := Processor.released_eq_error_iff.1 hreleased
  exact ⟨n, hn, hhalts, hresult, truthful_of_resultAt hresult⟩

/-- A program that divides by a register which a subroutine has set to zero. -/
def dividingProgram : Program :=
  [⟨"mov", ["a", "7"]⟩, ⟨"call", ["3"]⟩, ⟨"div", ["A", "d"]⟩, ⟨"mov", ["D", "0"]⟩, ⟨"ret", []⟩]

/-- The dividing program divides by zero at its third instruction, the dividend written before. -/
theorem traps_tell_truth_dividing :
    (Machine.fresh {}).settings.maxSteps = none
      ∧ Processor.standard.run 5 dividingProgram (.fresh {})
        = some (.error (.divisionByZero 2), .fresh {})
      ∧ ∃ n < 5, Processor.standard.HaltsAt dividingProgram (.fresh {}) n
        ∧ Truthful dividingProgram (.fresh {}) n ⟨"div", ["A", "d"]⟩ (.divisionByZero 2) := by
  have hrun : Processor.standard.run 5 dividingProgram (.fresh {})
      = some (.error (.divisionByZero 2), .fresh {}) := by decide +kernel
  obtain ⟨n, hn, hhalts, -, ins, hins, htruthful⟩ :=
    traps_tell_truth dividingProgram (.fresh {}) rfl hrun
  have haddress : 2 = (Processor.standard.machineAt dividingProgram (.fresh {}) n).ip :=
    htruthful.1
  have hdiv : dividingProgram[2]? = some ins := by
    rw [haddress]
    exact hins
  cases hdiv
  exact ⟨rfl, hrun, n, hn, hhalts, htruthful⟩

end PseudoAsm
