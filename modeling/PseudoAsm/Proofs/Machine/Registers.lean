import PseudoAsm.Proofs.Machine.Frame
import PseudoAsm.Proofs.Machine.Reading

/-!
# Registers are written before they are read

Only a move creates a register; all else that touches the registers reads them first.  So the names
in the register file tell exactly which moves were executed, and nothing is read that no move has
written.

* `RegisterEffect`, `registerEffect_of_effect` — what an instruction does to the registers;
* `MovesTo`, `mem_names_step_iff` — what a step does to the stored names;
* `mem_names_machineAt_iff` — **the registers of a machine are those that its moves have written**;
* `written_before_read` — **every step reads only such registers, and changes at most one**.
-/

namespace PseudoAsm

/-! ### What an instruction does to the registers -/

section Writing

variable {ins : Instruction} {op : Operation} {m after : Machine} {flow : Flow}

/-- What an executed instruction may make of the registers. -/
inductive RegisterEffect (ins : Instruction) (m : Machine) : Operation → RegisterFile → Prop
  /-- A move writes the register in the first parameter. -/
  | moved {name : String} {value : Int32} (hparam : ins.param? 0 = some name) :
      RegisterEffect ins m .mov (m.registers.write name value)
  /-- Arithmetic changes the register in the first parameter, which exists. -/
  | changed {op : Operation} {name : String} {old value : Int32} (hop : op ≠ .mov)
      (hparam : ins.param? 0 = some name) (hread : m.registers.read name = .ok old) :
      RegisterEffect ins m op (m.registers.write name value)
  /-- All else leaves the registers alone. -/
  | kept {op : Operation} (hop : op ≠ .mov) : RegisterEffect ins m op m.registers

theorem registerEffect_of_adjusted {f : Int32 → Except Trap Int32} (hop : op ≠ .mov)
    (h : adjusted ins op m f = .ok (flow, after)) : RegisterEffect ins m op after.registers := by
  obtain ⟨name, hname, h⟩ := bind_eq_ok_iff.1 h
  obtain ⟨⟨value, registers⟩, hmodify, h⟩ := bind_eq_ok_iff.1 h
  obtain ⟨old, hread, hmodify⟩ := bind_eq_ok_iff.1 hmodify
  obtain ⟨found, -, hmodify⟩ := bind_eq_ok_iff.1 hmodify
  cases hmodify
  cases h
  exact .changed hop (operand_eq_ok_iff.1 hname).1 hread

theorem registerEffect_of_combined {f : Int32 → Int32 → Except Trap Int32} (hop : op ≠ .mov)
    (h : combined ins op m f = .ok (flow, after)) : RegisterEffect ins m op after.registers := by
  obtain ⟨token, -, h⟩ := bind_eq_ok_iff.1 h
  obtain ⟨value, -, h⟩ := bind_eq_ok_iff.1 h
  exact registerEffect_of_adjusted hop h

/-- **An executed instruction makes nothing else of the registers.** -/
theorem registerEffect_of_effect (h : effect ins op m = .ok (flow, after)) :
    RegisterEffect ins m op after.registers := by
  cases op with
  | mov =>
    obtain ⟨name, hname, h⟩ := bind_eq_ok_iff.1 h
    obtain ⟨token, -, h⟩ := bind_eq_ok_iff.1 h
    obtain ⟨value, -, h⟩ := bind_eq_ok_iff.1 h
    cases h
    exact .moved (operand_eq_ok_iff.1 hname).1
  | inc | dec => exact registerEffect_of_adjusted nofun h
  | add | sub | mul | div => exact registerEffect_of_combined nofun h
  | cmp =>
    obtain ⟨first, -, h⟩ := bind_eq_ok_iff.1 h
    obtain ⟨x, -, h⟩ := bind_eq_ok_iff.1 h
    obtain ⟨second, -, h⟩ := bind_eq_ok_iff.1 h
    obtain ⟨y, -, h⟩ := bind_eq_ok_iff.1 h
    cases h
    exact .kept nofun
  | msg =>
    obtain ⟨text, -, -, rfl⟩ := effect_msg_eq_ok_iff.1 h
    exact .kept nofun
  | jmp | je | jne | jg | jge | jl | jle | jnz | call | ret | stop =>
    cases transferred_of_effect h <;> exact .kept nofun

/-- Only the register in the first parameter changes. -/
theorem RegisterEffect.find?_ne {registers : RegisterFile} {name : String}
    (h : RegisterEffect ins m op registers)
    (hne : registers.find? name ≠ m.registers.find? name) :
    ∃ first, ins.param? 0 = some first ∧ name = RegisterFile.key first := by
  cases h with
  | @moved first value hparam | @changed _ first _ value _ hparam _ =>
    refine ⟨first, hparam, Classical.byContradiction fun hother => ?_⟩
    exact hne (RegisterFile.find?_write_of_ne value hother)
  | kept => exact absurd rfl hne

end Writing

/-! ### Steps -/

section Stepping

variable {program : Program} {m : Machine} {name : String}

/-- The step of a machine executes a move to the register that is stored under a name. -/
def MovesTo (program : Program) (m : Machine) (name : String) : Prop :=
  ∃ ins first status, Processor.standard.fetch program m.ip = .ready ins .mov
    ∧ ((Processor.standard.step program).on m).1 = .ok status
    ∧ ins.param? 0 = some first ∧ name = RegisterFile.key first

theorem MovesTo.fetched {fetched : Fetched} (h : MovesTo program m name)
    (hfetch : Processor.standard.fetch program m.ip = fetched) :
    ∃ ins first, fetched = .ready ins .mov ∧ ins.param? 0 = some first
      ∧ name = RegisterFile.key first := by
  obtain ⟨ins, first, status, hready, -, hparam, hname⟩ := h
  exact ⟨ins, first, hfetch.symm.trans hready, hparam, hname⟩

theorem not_movesTo_of_error {trap : Trap}
    (h : ((Processor.standard.step program).on m).1 = .error trap) : ¬MovesTo program m name := by
  rintro ⟨ins, first, status, -, hstatus, -⟩
  rw [h] at hstatus
  cases hstatus

/-- The registers after a step, as the effect of the instruction under the pointer tells. -/
inductive RegisterStep (program : Program) (m : Machine) : RegisterFile → Prop
  /-- An instruction is executed. -/
  | executed {ins : Instruction} {op : Operation} {status : Status} {registers : RegisterFile}
      (hfetch : Processor.standard.fetch program m.ip = .ready ins op)
      (hstatus : ((Processor.standard.step program).on m).1 = .ok status)
      (h : RegisterEffect ins m op registers) : RegisterStep program m registers
  /-- No instruction is executed. -/
  | idle (h : ∀ name, ¬MovesTo program m name) : RegisterStep program m m.registers

theorem register_step (program : Program) (m : Machine) :
    RegisterStep program m ((Processor.standard.step program).on m).2.registers := by
  have hstepped := stepped program m
  generalize hresult : ((Processor.standard.step program).on m).1 = result at hstepped
  generalize ((Processor.standard.step program).on m).2 = after at hstepped ⊢
  cases hstepped with
  | outside hfetch =>
    refine .idle fun name hmoves => ?_
    obtain ⟨ins, first, hready, -⟩ := hmoves.fetched hfetch
    cases hready
  | unknown | trapped => exact .idle fun name => not_movesTo_of_error hresult
  | @ended ins op flow after hfetch heffect | @moved ins op flow after _ hfetch heffect =>
    have hregisters : RegisterEffect ins m op after.registers := registerEffect_of_effect heffect
    exact .executed hfetch hresult hregisters

/-- **A step adds the name of the register that it moves to, and no other.** -/
theorem mem_names_step_iff (program : Program) (m : Machine) (name : String) :
    name ∈ ((Processor.standard.step program).on m).2.registers.names
      ↔ MovesTo program m name ∨ name ∈ m.registers.names := by
  have hstep := register_step program m
  generalize ((Processor.standard.step program).on m).2.registers = registers at hstep ⊢
  cases hstep with
  | @executed ins op status registers hfetch hstatus heffect =>
    have hother (hop : op ≠ .mov) : ¬MovesTo program m name := by
      intro hmoves
      obtain ⟨ins', first, hready, -⟩ := hmoves.fetched hfetch
      cases hready
      exact hop rfl
    cases heffect with
    | @moved first value hparam =>
      have hmoves : MovesTo program m name ↔ name = RegisterFile.key first := by
        constructor
        · intro hmoves
          obtain ⟨ins', first', hready, hparam', hname⟩ := hmoves.fetched hfetch
          cases hready
          rw [hparam, Option.some.injEq] at hparam'
          rw [hname, hparam']
        · intro hname
          exact ⟨ins, first, status, hfetch, hstatus, hparam, hname⟩
      rw [RegisterFile.mem_names_write, hmoves]
    | @changed _ first old value hop hparam hread =>
      rw [RegisterFile.mem_names_write, or_iff_right (hother hop), or_iff_right_iff_imp]
      rintro rfl
      exact RegisterFile.key_mem_names_of_read hread
    | kept hop => rw [or_iff_right (hother hop)]
  | idle hnone => rw [or_iff_right (hnone name)]

/-- A step changes at most the register in the first parameter of its instruction. -/
theorem exists_first_of_find?_ne
    (h : ((Processor.standard.step program).on m).2.registers.find? name
      ≠ m.registers.find? name) :
    ∃ ins op first, Processor.standard.fetch program m.ip = .ready ins op
      ∧ ins.param? 0 = some first ∧ name = RegisterFile.key first := by
  have hstep := register_step program m
  generalize ((Processor.standard.step program).on m).2.registers = registers at hstep h
  cases hstep with
  | @executed ins op status registers hfetch hstatus heffect =>
    obtain ⟨first, hparam, hname⟩ := heffect.find?_ne h
    exact ⟨ins, op, first, hfetch, hparam, hname⟩
  | idle => exact absurd rfl h

/-- A step succeeds only if all registers exist that its instruction reads. -/
theorem mem_names_of_step {ins : Instruction} {op : Operation} {status : Status} {token : String}
    (hfetch : Processor.standard.fetch program m.ip = .ready ins op)
    (hstatus : ((Processor.standard.step program).on m).1 = .ok status)
    (htoken : token ∈ ins.registersRead op m) : RegisterFile.key token ∈ m.registers.names := by
  obtain ⟨flow, after, heffect⟩ := exists_effect_of_ok hfetch hstatus
  exact mem_names_of_effect heffect htoken

theorem sent_withRegisters (program : Program) (m : Machine) (file : RegisterFile)
    (e : Except Trap (Flow × Machine)) :
    (sent program (m.withRegisters file) e).1 = (sent program m (e.map apartFromRegisters)).1 := by
  cases e with
  | error trap => rfl
  | ok executed =>
    obtain ⟨flow, after⟩ := executed
    cases flow <;> rfl

/-- What a step answers depends on no register but those that its instruction reads. -/
theorem step_withRegisters {ins : Instruction} {op : Operation} {file : RegisterFile}
    (hfetch : Processor.standard.fetch program m.ip = .ready ins op)
    (h : ∀ token ∈ ins.registersRead op m, file.get? token = m.registers.get? token) :
    ((Processor.standard.step program).on (m.withRegisters file)).1
      = ((Processor.standard.step program).on m).1 := by
  have hfetch' : Processor.standard.fetch program (m.withRegisters file).ip = .ready ins op := hfetch
  calc ((Processor.standard.step program).on (m.withRegisters file)).1
      = (sent program (m.withRegisters file) (effect ins op (m.withRegisters file))).1 := by
        rw [step_standard hfetch']
    _ = (sent program m ((effect ins op m).map apartFromRegisters)).1 := by
        rw [sent_withRegisters, effect_withRegisters h]
    _ = (sent program m (effect ins op m)).1 :=
        (sent_withRegisters program m m.registers _).symm
    _ = ((Processor.standard.step program).on m).1 := by rw [step_standard hfetch]

end Stepping

/-! ### Runs -/

/-- **The registers of a machine are those that its moves have written.** -/
theorem mem_names_machineAt_iff (program : Program) (settings : Settings) (n : Nat)
    (name : String) :
    name ∈ (Processor.standard.machineAt program (.fresh settings) n).registers.names
      ↔ ∃ i < n, MovesTo program (Processor.standard.machineAt program (.fresh settings) i)
        name := by
  induction n with
  | zero =>
    refine iff_of_false List.not_mem_nil ?_
    rintro ⟨i, hi, -⟩
    exact Nat.not_lt_zero i hi
  | succ n ih =>
    rw [Processor.machineAt_succ, mem_names_step_iff, ih, Nat.exists_lt_succ_right, or_comm]

/-- **Registers are written before they are read.**  After any number of steps from a fresh machine
the names in the register file are the keys of the first parameters of the moves executed so far,
and each is its own key.  Every register that an instruction reads in a step that succeeds is one
that a step before has moved to.  What the step answers depends on no other register, and no
register changes but the one in the first parameter. -/
theorem written_before_read (program : Program) (settings : Settings) (n : Nat) :
    (∀ name, name ∈ (Processor.standard.machineAt program (.fresh settings) n).registers.names
      ↔ ∃ i < n, MovesTo program (Processor.standard.machineAt program (.fresh settings) i) name)
    ∧ (∀ name ∈ (Processor.standard.machineAt program (.fresh settings) n).registers.names,
      RegisterFile.key name = name)
    ∧ (∀ ins op, Processor.standard.fetch program
          (Processor.standard.machineAt program (.fresh settings) n).ip = .ready ins op →
      (∀ status, Processor.standard.resultAt program (.fresh settings) n = .ok status →
        ∀ token ∈ ins.registersRead op
            (Processor.standard.machineAt program (.fresh settings) n),
          ∃ i < n, MovesTo program (Processor.standard.machineAt program (.fresh settings) i)
            (RegisterFile.key token))
      ∧ ∀ file : RegisterFile, (∀ token ∈ ins.registersRead op
            (Processor.standard.machineAt program (.fresh settings) n),
          file.get? token
            = (Processor.standard.machineAt program (.fresh settings) n).registers.get? token) →
        ((Processor.standard.step program).on
            ((Processor.standard.machineAt program (.fresh settings) n).withRegisters file)).1
          = Processor.standard.resultAt program (.fresh settings) n)
    ∧ ∀ name, (Processor.standard.machineAt program (.fresh settings) (n + 1)).registers.find? name
          ≠ (Processor.standard.machineAt program (.fresh settings) n).registers.find? name →
        ∃ ins op first, Processor.standard.fetch program
            (Processor.standard.machineAt program (.fresh settings) n).ip = .ready ins op
          ∧ ins.param? 0 = some first ∧ name = RegisterFile.key first := by
  have hnames := mem_names_machineAt_iff program settings n
  refine ⟨hnames, ?_, ?_, fun name hne => exists_first_of_find?_ne hne⟩
  · intro name hname
    obtain ⟨i, -, ins, first, status, -, -, -, rfl⟩ := (hnames name).1 hname
    exact RegisterFile.key_key first
  · intro ins op hfetch
    constructor
    · intro status hstatus token htoken
      exact (hnames _).1 (mem_names_of_step hfetch hstatus htoken)
    · intro file hagree
      exact step_withRegisters hfetch hagree

/-- A program that spells its registers in several ways. -/
def spellingProgram : Program :=
  [⟨"mov", [" COUNT", "-7"]⟩, ⟨"mov", ["Σας", "count"]⟩, ⟨"sub", ["Count", "ΣΑΣ"]⟩,
    ⟨"msg", ["'0 = '", "cOUNT''"]⟩, ⟨"end", []⟩]

/-- The message of the spelling program reads the register that its first move has written. -/
theorem written_before_read_spelling :
    (∃ i < 3, MovesTo spellingProgram
        (Processor.standard.machineAt spellingProgram (.fresh {}) i) (RegisterFile.key "cOUNT"))
      ∧ "count" ∈ (Processor.standard.machineAt spellingProgram (.fresh {}) 3).registers.names
      ∧ ∃ ins op first, Processor.standard.fetch spellingProgram
          (Processor.standard.machineAt spellingProgram (.fresh {}) 2).ip = .ready ins op
        ∧ ins.param? 0 = some first ∧ "count" = RegisterFile.key first := by
  obtain ⟨hnames, -, hreads, -⟩ := written_before_read spellingProgram {} 3
  obtain ⟨-, -, -, hchanges⟩ := written_before_read spellingProgram {} 2
  obtain ⟨hwritten, -⟩ := hreads ⟨"msg", ["'0 = '", "cOUNT''"]⟩ .msg (by decide +kernel)
  have hcount := hwritten .running (by decide +kernel) "cOUNT" (by decide +kernel)
  have hkey : RegisterFile.key "cOUNT" = "count" := by decide +kernel
  refine ⟨hcount, ?_, hchanges "count" (by decide +kernel)⟩
  rw [hkey] at hcount
  exact (hnames "count").2 hcount

end PseudoAsm
