import PseudoAsm.Proofs.Machine.Straight

/-!
# Straight-line arithmetic is exact up to the end

Moves, sums, differences and products wrap at every instruction.  A straight-line sequence of them
might as well be carried out on integers of any size and reduced once at its end: a sum or product
of two numbers depends, modulo the number of words, on their residues only.

* `Arithmetic`, `ArithmeticInstruction` — the operations concerned, and instructions that bear them;
* `UnboundedFile`, `UnboundedFile.run` — the same instructions on registers of any size;
* `Reduces` — a register file holds the words of such registers;
* `effect_inStep`, `effects_inStep` — one instruction keeps this, and so does a sequence; it traps
  on the one exactly if it does on the other;
* `arithmetic_exact` — **the words at the end are those of the exact integers**.
-/

namespace PseudoAsm

/-! ### Sequences of arithmetic -/

/-- The operations whose results are sums, differences and products of what they read. -/
inductive Arithmetic where
  | mov | inc | dec | add | sub | mul
deriving DecidableEq, Repr

/-- The operation of the machine. -/
def Arithmetic.operation : Arithmetic → Operation
  | mov => .mov
  | inc => .inc
  | dec => .dec
  | add => .add
  | sub => .sub
  | mul => .mul

/-- An instruction that bears the name of such an operation, with any parameters. -/
structure ArithmeticInstruction where
  arithmetic : Arithmetic
  params : List String
deriving DecidableEq, Repr

/-- The instruction itself. -/
def ArithmeticInstruction.standard (step : ArithmeticInstruction) : StandardInstruction :=
  ⟨step.arithmetic.operation, step.params⟩

/-! ### Registers of any size -/

/-- Registers that hold integers of any size, by the form in which their names are looked up. -/
abbrev UnboundedFile := String → Option Int

namespace UnboundedFile

/-- The values of a register file. -/
def ofRegisters (registers : RegisterFile) : UnboundedFile :=
  fun name => (registers.find? name).map Int32.toInt

/-- The value of a register; an unset one is an error. -/
def read (file : UnboundedFile) (name : String) : Except Trap Int :=
  match file (RegisterFile.key name) with
  | some value => .ok value
  | none => .error (.unknownRegister (RegisterFile.key name))

/-- Set a register, which need not exist. -/
def write (file : UnboundedFile) (name : String) (value : Int) : UnboundedFile :=
  fun other => if other = RegisterFile.key name then some value else file other

/-- The value of a token: a numeral's own, else that of the register it names. -/
def value (file : UnboundedFile) (token : String) : Except Trap Int :=
  match Numeral.int32? token with
  | some value => .ok value.toInt
  | none =>
    if isIdentifier token then file.read token
    else .error (.malformedNumericLiteral token)

/-- Replace the value of the register in the first parameter. -/
def adjust (file : UnboundedFile) (ins : Instruction) (op : Operation) (f : Int → Int) :
    Except Trap UnboundedFile := do
  let name ← operand ins op 0
  let old ← file.read name
  return file.write name (f old)

/-- Replace the value of the register in the first parameter by what `f` makes of it and of the
value in the second. -/
def combine (file : UnboundedFile) (ins : Instruction) (op : Operation) (f : Int → Int → Int) :
    Except Trap UnboundedFile := do
  let token ← operand ins op 1
  let value ← file.value token
  file.adjust ins op fun old => f old value

/-- The registers after an instruction under an operation, no result cut to a word. -/
def execute (file : UnboundedFile) (ins : Instruction) :
    Arithmetic → Except Trap UnboundedFile
  | .mov => do
    let name ← operand ins .mov 0
    let token ← operand ins .mov 1
    let value ← file.value token
    return file.write name value
  | .inc => file.adjust ins .inc fun v => v + 1
  | .dec => file.adjust ins .dec fun v => v - 1
  | .add => file.combine ins .add fun v w => v + w
  | .sub => file.combine ins .sub fun v w => v - w
  | .mul => file.combine ins .mul fun v w => v * w

/-- The registers after a sequence of instructions. -/
def run (file : UnboundedFile) : List ArithmeticInstruction → Except Trap UnboundedFile
  | [] => .ok file
  | step :: rest => do
    let after ← file.execute step.standard.instruction step.arithmetic
    after.run rest

end UnboundedFile

/-! ### Words of integers -/

/-- A register file holds the words of unbounded registers, each under the same name. -/
def Reduces (file : UnboundedFile) (registers : RegisterFile) : Prop :=
  ∀ name, registers.find? name = (file name).map Int32.ofInt

namespace Reduces

variable {file : UnboundedFile} {registers : RegisterFile}

theorem ofRegisters (registers : RegisterFile) :
    Reduces (UnboundedFile.ofRegisters registers) registers := by
  intro name
  unfold UnboundedFile.ofRegisters
  cases registers.find? name with
  | none => rfl
  | some value => rw [Option.map_some, Option.map_some, Int32.ofInt_toInt]

theorem write (h : Reduces file registers) (name : String) (value : Int) :
    Reduces (file.write name value) (registers.write name (Int32.ofInt value)) := by
  intro other
  rw [RegisterFile.write, RegisterFile.find?_insert, UnboundedFile.write, h other]
  by_cases heq : other = RegisterFile.key name
  · rw [if_pos heq, if_pos heq]
    rfl
  · rw [if_neg heq, if_neg heq]

theorem read (h : Reduces file registers) (name : String) :
    InStep (fun word value => word = Int32.ofInt value) (registers.read name) (file.read name) := by
  unfold RegisterFile.read RegisterFile.get? UnboundedFile.read
  rw [h]
  cases file (RegisterFile.key name) with
  | none => exact .error _
  | some value => exact .ok rfl

end Reduces

/-! ### One instruction -/

section Executing

variable {file : UnboundedFile} {m : Machine} {ins : Instruction} {op : Operation}

/-- An executed instruction leaves the words of some registers. -/
def LeavesWords (executed : Flow × Machine) (file : UnboundedFile) : Prop :=
  Reduces file executed.2.registers

theorem value_inStep (h : Reduces file m.registers) (token : String) :
    InStep (fun word value => word = Int32.ofInt value) (m.value token) (file.value token) := by
  unfold Machine.value UnboundedFile.value
  cases Numeral.int32? token with
  | some word => exact .ok (Int32.ofInt_toInt word).symm
  | none =>
    by_cases hname : isIdentifier token = true
    · simp only [if_pos hname]
      exact h.read token
    · simp only [if_neg hname]
      exact .error _

theorem adjusted_inStep (h : Reduces file m.registers) {f : Int32 → Int32} {g : Int → Int}
    (hfg : ∀ value, f (Int32.ofInt value) = Int32.ofInt (g value)) :
    InStep LeavesWords (adjusted ins op m fun v => .ok (f v)) (file.adjust ins op g) := by
  simp only [adjusted, RegisterFile.modify, bind_assoc]
  refine (InStep.refl _).bind ?_
  rintro name _ rfl
  refine (h.read name).bind ?_
  rintro _ value rfl
  have hwritten := h.write name (g value)
  rw [← hfg value] at hwritten
  exact .ok hwritten

theorem combined_inStep (h : Reduces file m.registers) {f : Int32 → Int32 → Int32}
    {g : Int → Int → Int}
    (hfg : ∀ v w, f (Int32.ofInt v) (Int32.ofInt w) = Int32.ofInt (g v w)) :
    InStep LeavesWords (combined ins op m fun v w => .ok (f v w)) (file.combine ins op g) := by
  refine (InStep.refl _).bind ?_
  rintro token _ rfl
  refine (value_inStep h token).bind ?_
  rintro _ w rfl
  exact adjusted_inStep h fun v => hfg v w

/-- **An instruction leaves the words of what it leaves on registers of any size**, and traps on the
one exactly if it does on the other. -/
theorem effect_inStep (h : Reduces file m.registers) (ins : Instruction)
    (arithmetic : Arithmetic) :
    InStep LeavesWords (effect ins arithmetic.operation m) (file.execute ins arithmetic) := by
  cases arithmetic with
  | mov =>
    refine (InStep.refl _).bind ?_
    rintro name _ rfl
    refine (InStep.refl _).bind ?_
    rintro token _ rfl
    refine (value_inStep h token).bind ?_
    rintro _ value rfl
    exact .ok (h.write name value)
  | inc => exact adjusted_inStep h fun v => (Int32.ofInt_add v 1).symm
  | dec => exact adjusted_inStep h fun v => (Int32.ofInt_sub v 1).symm
  | add => exact combined_inStep h fun v w => (Int32.ofInt_add v w).symm
  | sub => exact combined_inStep h fun v w => (Int32.ofInt_sub v w).symm
  | mul => exact combined_inStep h fun v w => (Int32.ofInt_mul v w).symm

/-- **So does a sequence of instructions.** -/
theorem effects_inStep (h : Reduces file m.registers) (sequence : List ArithmeticInstruction) :
    InStep (fun after exact => Reduces exact after.registers)
      (effects m (sequence.map ArithmeticInstruction.standard)) (file.run sequence) := by
  induction sequence generalizing m file with
  | nil => exact .ok h
  | cons step rest ih =>
    refine (effect_inStep h step.standard.instruction step.arithmetic).bind ?_
    rintro ⟨flow, after⟩ left hleft
    exact ih (m := { after with ip := m.ip + 1 }) hleft

end Executing

theorem controlEffect_arithmetic (arithmetic : Arithmetic) :
    arithmetic.operation.controlEffect = .advance := by
  cases arithmetic <;> rfl

/-! ### Steps -/

/-- **Straight-line arithmetic is exact integer arithmetic, reduced once at its end.**  Wherever in a
program a sequence of moves, sums, differences and products stands, and whatever the machine holds
when it comes to it: if no step of the sequence traps, the same sequence on registers of any size,
with the same values to begin with, does not fail either.  It leaves registers under the same names,
and each word is what its integer is modulo the number of words, as a signed word has it. -/
theorem arithmetic_exact (program : Program) (m : Machine)
    (sequence : List ArithmeticInstruction)
    (hstands : StandsAt program m.ip (sequence.map ArithmeticInstruction.standard))
    (hsteps : ∀ i < sequence.length, ∃ status,
      Processor.standard.resultAt program m i = .ok status) :
    ∃ exact, (UnboundedFile.ofRegisters m.registers).run sequence = .ok exact
      ∧ ∀ name, ((Processor.standard.machineAt program m sequence.length).registers.find? name).map
          Int32.toInt
        = (exact name).map fun value => value.bmod 0x100000000 := by
  have hstraight : ∀ step ∈ sequence.map ArithmeticInstruction.standard,
      step.operation.controlEffect = .advance := by
    intro step hstep
    obtain ⟨given, -, rfl⟩ := List.mem_map.1 hstep
    exact controlEffect_arithmetic given.arithmetic
  rw [← List.length_map ArithmeticInstruction.standard] at hsteps
  have heffects := (effects_eq_ok_iff hstraight hstands).2 ⟨hsteps, rfl⟩
  rw [List.length_map] at heffects
  obtain ⟨exact, hexact, hreduces⟩ :=
    (effects_inStep (Reduces.ofRegisters m.registers) sequence).exists_ok heffects
  refine ⟨exact, hexact, ?_⟩
  intro name
  rw [hreduces name]
  cases exact name with
  | none => rfl
  | some value => exact congrArg some Int32.toInt_ofInt

/-- A register multiplied by itself, under several spellings of its name. -/
def squaring : List ArithmeticInstruction :=
  [⟨.mul, ["Side", "side"]⟩, ⟨.mul, ["side", "SIDE"]⟩, ⟨.dec, ["siDe"]⟩]

/-- The squaring instructions and nothing else. -/
def squaringProgram : Program :=
  squaring.map fun step => step.standard.instruction

/-- A machine with a register to be squared. -/
def squaringMachine : Machine where
  registers := .write .empty "side" 100000

/-- Both products exceed a word many times over. -/
theorem arithmetic_exact_squaring :
    StandsAt squaringProgram squaringMachine.ip (squaring.map ArithmeticInstruction.standard)
      ∧ (∀ i < squaring.length, ∃ status,
        Processor.standard.resultAt squaringProgram squaringMachine i = .ok status)
      ∧ ∃ exact, (UnboundedFile.ofRegisters squaringMachine.registers).run squaring = .ok exact
        ∧ exact "side" = some 99999999999999999999
        ∧ ((Processor.standard.machineAt squaringProgram squaringMachine 3).registers.find?
            "side").map Int32.toInt = some 1661992959 := by
  have hstands : StandsAt squaringProgram squaringMachine.ip
      (squaring.map ArithmeticInstruction.standard) := List.prefix_refl _
  have hsteps : ∀ i < squaring.length, ∃ status,
      Processor.standard.resultAt squaringProgram squaringMachine i = .ok status := by
    intro i hi
    match i with
    | 0 | 1 => exact ⟨.running, rfl⟩
    | 2 => exact ⟨.fellThrough, rfl⟩
  obtain ⟨exact, hexact, hwords⟩ :=
    arithmetic_exact squaringProgram squaringMachine squaring hstands hsteps
  have hvalue : ((UnboundedFile.ofRegisters squaringMachine.registers).run squaring).toOption.map
      (fun file => file "side") = some (some 99999999999999999999) := by decide +kernel
  rw [hexact] at hvalue
  have hside : exact "side" = some 99999999999999999999 := Option.some.inj hvalue
  have hword := hwords "side"
  rw [hside] at hword
  exact ⟨hstands, hsteps, exact, hexact, hside, hword⟩

end PseudoAsm
