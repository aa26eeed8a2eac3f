import PseudoAsm.Proofs.Machine.Straight
import PseudoAsm.Proofs.Machine.Token

/-!
# Quotients and remainders

A quotient is truncated toward zero.  The machine has no instruction for remainders: the quotient is
multiplied back and subtracted from the dividend.  One quotient does not fit a word, and the product
wraps with it.  The difference comes out right nevertheless, for it is determined by residues and
the remainder fits a word.

* `toInt_div_word` — the one quotient that does not fit;
* `sub_div_mul` — **the difference is the remainder, whatever wraps**;
* `IsRemainder` — the truncated remainder, characterised without a quotient;
* `Operands.step_div` — what a division does under the pointer;
* `RemainderRegisters.effects_sequence` — what the sequence leaves;
* `division_and_remainder` — **both of them as steps of a machine**.
-/

namespace PseudoAsm

/-! ### Words -/

/-- Of all quotients only that of the least word by -1 does not fit; it is the least word again. -/
theorem toInt_div_word (a b : Int32) :
    (a / b).toInt = if a.toInt = -0x80000000 ∧ b.toInt = -1 then -0x80000000
      else a.toInt.tdiv b.toInt := by
  by_cases hleast : a = Int32.minValue
  · by_cases hminus : b = -1
    · subst hleast hminus
      rfl
    · rw [Int32.toInt_div_of_ne_right a b hminus, if_neg]
      rintro ⟨-, h⟩
      exact hminus (Int32.toInt_inj.1 h)
  · rw [Int32.toInt_div_of_ne_left a b hleast, if_neg]
    rintro ⟨h, -⟩
    exact hleast (Int32.toInt_inj.1 h)

/-- **The quotient multiplied back and subtracted leaves the remainder**, though the quotient, the
product and the difference may all wrap. -/
theorem sub_div_mul (a b : Int32) : a - a / b * b = a % b := by
  have hquotient : a / b = Int32.ofInt (a.toInt.tdiv b.toInt) := by
    apply Int32.toInt_inj.1
    rw [Int32.toInt_div, Int32.toInt_ofInt]
  have hremainder : a % b = Int32.ofInt (a.toInt.tmod b.toInt) := by
    rw [← Int32.toInt_mod, Int32.ofInt_toInt]
  calc a - a / b * b
      = Int32.ofInt a.toInt
          - Int32.ofInt (a.toInt.tdiv b.toInt) * Int32.ofInt b.toInt := by
        rw [hquotient, Int32.ofInt_toInt, Int32.ofInt_toInt]
    _ = Int32.ofInt (a.toInt - b.toInt * a.toInt.tdiv b.toInt) := by
        rw [← Int32.ofInt_mul, ← Int32.ofInt_sub, Int.mul_comm]
    _ = a % b := by rw [hremainder, Int.tmod_def]

/-- An integer is the remainder of a truncated division. -/
structure IsRemainder (dividend divisor remainder : Int) : Prop where
  sign : remainder = 0 ∨ remainder.sign = dividend.sign
  lt : remainder.natAbs < divisor.natAbs
  dvd : divisor ∣ dividend - remainder

theorem isRemainder_tmod (a : Int) {b : Int} (hb : b ≠ 0) : IsRemainder a b (a.tmod b) where
  sign := by
    by_cases hdvd : b ∣ a
    · exact .inl (Int.tmod_eq_zero_of_dvd hdvd)
    · right
      rw [Int.sign_tmod, if_neg hdvd]
  lt := by
    rw [Int.natAbs_tmod]
    exact Nat.mod_lt _ (Int.natAbs_pos.2 hb)
  dvd := Int.dvd_self_sub_tmod

/-! ### Operands -/

/-- The machine behind an instruction that only writes a register. -/
def Machine.written (m : Machine) (name : String) (value : Int32) : Machine :=
  { m with registers := m.registers.write name value, ip := m.ip + 1 }

theorem get?_written_self (m : Machine) (name : String) (value : Int32) :
    (m.written name value).registers.get? name = some value := by
  rw [Machine.written, RegisterFile.get?_write, if_pos rfl]

theorem get?_written_of_ne {m : Machine} {name other : String} {value : Int32}
    (h : RegisterFile.key other ≠ RegisterFile.key name) :
    (m.written name value).registers.get? other = m.registers.get? other := by
  rw [Machine.written, RegisterFile.get?_write, if_neg h]

section Instructions

variable {program : Program} {m : Machine} {ins : Instruction} {op : Operation}
  {name source : String} {old value result : Int32} {params : List String}

/-- The operands of an instruction on a machine: the register in the first parameter, the value that
it holds, and the value of the second parameter. -/
structure Operands (ins : Instruction) (op : Operation) (m : Machine) (name : String)
    (old value : Int32) : Prop where
  register : operand ins op 0 = .ok name
  held : m.registers.get? name = some old
  source : ∃ token, operand ins op 1 = .ok token ∧ m.value token = .ok value

/-- The operands of an instruction between two registers. -/
theorem Operands.of_registers (hname : isIdentifier name = true)
    (hsource : isIdentifier source = true) (hold : m.registers.get? name = some old)
    (hvalue : m.registers.get? source = some value) :
    Operands (StandardInstruction.instruction ⟨op, [name, source]⟩) op m name old value where
  register := operand_of_isIdentifier hname rfl
  held := hold
  source := ⟨source, operand_of_isIdentifier hsource rfl, value_of_isIdentifier hsource hvalue⟩

theorem Operands.combined_eq (h : Operands ins op m name old value)
    (f : Int32 → Int32 → Except Trap Int32) :
    combined ins op m f
      = (f old value).map fun result =>
          (.next, { m with registers := m.registers.write name result }) := by
  obtain ⟨token, htoken, hvalue⟩ := h.source
  rw [combined, htoken]
  show (m.value token >>= _) = _
  rw [hvalue]
  show adjusted ins op m (fun old => f old value) = _
  rw [adjusted, h.register]
  show (m.registers.modify name _ >>= _) = _
  rw [RegisterFile.modify, RegisterFile.read, h.held]
  show ((f old value >>= _) >>= _) = _
  cases f old value <;> rfl

/-- What a division does: the quotient goes to its register, and by zero there is none. -/
theorem Operands.step_div (h : Operands ins .div m name old value)
    (hfetch : Processor.standard.fetch program m.ip = .ready ins .div) :
    (Processor.standard.step program).on m
      = if value = 0 then (.error (.divisionByZero m.ip), m)
        else (.ok (statusAt program (m.ip + 1)), m.written name (old / value)) := by
  rw [step_standard hfetch, effect, h.combined_eq, quotient]
  by_cases hzero : value = 0
  · rw [if_pos hzero, if_pos hzero]
    rfl
  · rw [if_neg hzero, if_neg hzero]
    rfl

/-- What a move between registers does. -/
theorem effect_mov_registers (hname : isIdentifier name = true)
    (hsource : isIdentifier source = true) (hvalue : m.registers.get? source = some value) :
    effect (StandardInstruction.instruction ⟨.mov, [name, source]⟩) .mov m
      = .ok (.next, { m with registers := m.registers.write name value }) :=
  effect_mov (operand_of_isIdentifier hname rfl) (operand_of_isIdentifier hsource rfl)
    (value_of_isIdentifier hsource hvalue)

/-- A sequence goes on behind a move between registers. -/
theorem effects_mov (hname : isIdentifier name = true) (hsource : isIdentifier source = true)
    (hvalue : m.registers.get? source = some value) (rest : List StandardInstruction) :
    effects m (⟨.mov, [name, source]⟩ :: rest) = effects (m.written name value) rest := by
  rw [effects, effect_mov_registers hname hsource hvalue]
  rfl

/-- A sequence goes on behind an operation on registers that has a result. -/
theorem effects_combined {f : Int32 → Int32 → Except Trap Int32} {step : StandardInstruction}
    (hstep : effect step.instruction step.operation m
      = combined step.instruction step.operation m f)
    (h : Operands step.instruction step.operation m name old value)
    (hresult : f old value = .ok result) (rest : List StandardInstruction) :
    effects m (step :: rest) = effects (m.written name result) rest := by
  rw [effects, hstep, h.combined_eq, hresult]
  rfl

end Instructions

/-! ### The remainder -/

/-- The registers of a remainder's computation. -/
structure RemainderRegisters where
  dividend : String
  divisor : String
  /-- Holds the quotient, then the multiple of the divisor that is subtracted. -/
  multiple : String
  remainder : String
  isIdentifier_dividend : isIdentifier dividend = true
  isIdentifier_divisor : isIdentifier divisor = true
  isIdentifier_multiple : isIdentifier multiple = true
  isIdentifier_remainder : isIdentifier remainder = true
  /-- The quotient overwrites none of the others. -/
  dividend_ne_multiple : RegisterFile.key dividend ≠ RegisterFile.key multiple
  divisor_ne_multiple : RegisterFile.key divisor ≠ RegisterFile.key multiple
  remainder_ne_multiple : RegisterFile.key remainder ≠ RegisterFile.key multiple

namespace RemainderRegisters

/-- The dividend less the divisor's multiple by the quotient. -/
def sequence (names : RemainderRegisters) : List StandardInstruction :=
  [⟨.mov, [names.multiple, names.dividend]⟩,
    ⟨.div, [names.multiple, names.divisor]⟩,
    ⟨.mul, [names.multiple, names.divisor]⟩,
    ⟨.mov, [names.remainder, names.dividend]⟩,
    ⟨.sub, [names.remainder, names.multiple]⟩]

variable {program : Program} {m : Machine} {a b product : Int32} (names : RemainderRegisters)

/-- What is done to the quotient changes neither the dividend nor the divisor. -/
theorem get?_dividend (value : Int32) :
    (m.written names.multiple value).registers.get? names.dividend
      = m.registers.get? names.dividend :=
  get?_written_of_ne names.dividend_ne_multiple

theorem get?_divisor (value : Int32) :
    (m.written names.multiple value).registers.get? names.divisor
      = m.registers.get? names.divisor :=
  get?_written_of_ne names.divisor_ne_multiple

/-- The dividend is copied, and its copy turned into the divisor's multiple by the quotient. -/
theorem effects_multiple (ha : m.registers.get? names.dividend = some a)
    (hb : m.registers.get? names.divisor = some b) (hne : b ≠ 0)
    (rest : List StandardInstruction) :
    effects m (⟨.mov, [names.multiple, names.dividend]⟩
        :: ⟨.div, [names.multiple, names.divisor]⟩
        :: ⟨.mul, [names.multiple, names.divisor]⟩ :: rest)
      = effects (((m.written names.multiple a).written names.multiple (a / b)).written
          names.multiple (a / b * b)) rest := by
  have hmultiple := names.isIdentifier_multiple
  have hdivisor := names.isIdentifier_divisor
  have hmoved : (m.written names.multiple a).registers.get? names.divisor = some b := by
    rw [names.get?_divisor, hb]
  have hdivided : ((m.written names.multiple a).written names.multiple (a / b)).registers.get?
      names.divisor = some b := by
    rw [names.get?_divisor, hmoved]
  have hquotient : quotient (m.written names.multiple a).ip a b = .ok (a / b) := if_neg hne
  rw [effects_mov hmultiple names.isIdentifier_dividend ha,
    effects_combined rfl (.of_registers hmultiple hdivisor (get?_written_self _ _ a) hmoved)
      hquotient,
    effects_combined rfl
      (.of_registers hmultiple hdivisor (get?_written_self _ _ (a / b)) hdivided) rfl]

/-- The multiple is taken from another copy of the dividend. -/
theorem effects_difference (ha : m.registers.get? names.dividend = some a)
    (hproduct : m.registers.get? names.multiple = some product) :
    effects m [⟨.mov, [names.remainder, names.dividend]⟩,
        ⟨.sub, [names.remainder, names.multiple]⟩]
      = .ok ((m.written names.remainder a).written names.remainder (a - product)) := by
  have hcopied : (m.written names.remainder a).registers.get? names.multiple = some product := by
    rw [get?_written_of_ne names.remainder_ne_multiple.symm, hproduct]
  rw [effects_mov names.isIdentifier_remainder names.isIdentifier_dividend ha,
    effects_combined rfl (.of_registers names.isIdentifier_remainder names.isIdentifier_multiple
      (get?_written_self _ _ a) hcopied) rfl]
  rfl

/-- **The sequence leaves the remainder.** -/
theorem effects_sequence (ha : m.registers.get? names.dividend = some a)
    (hb : m.registers.get? names.divisor = some b) (hne : b ≠ 0) :
    ∃ after, effects m names.sequence = .ok after
      ∧ after.registers.get? names.remainder = some (a % b) := by
  have hkept : (((m.written names.multiple a).written names.multiple (a / b)).written
      names.multiple (a / b * b)).registers.get? names.dividend = some a := by
    rw [names.get?_dividend, names.get?_dividend, names.get?_dividend, ha]
  have heffects := (names.effects_multiple ha hb hne _).trans
    (names.effects_difference hkept (get?_written_self _ _ (a / b * b)))
  refine ⟨_, heffects, ?_⟩
  rw [get?_written_self, sub_div_mul]

theorem controlEffect_sequence :
    ∀ step ∈ names.sequence, step.operation.controlEffect = .advance := by
  simp [sequence, Operation.controlEffect]

/-- The steps of a sequence whose divisor is not zero. -/
theorem steps_sequence (hstands : StandsAt program m.ip names.sequence)
    (ha : m.registers.get? names.dividend = some a) (hb : m.registers.get? names.divisor = some b)
    (hne : b ≠ 0) :
    (∀ i < 5, ∃ status, Processor.standard.resultAt program m i = .ok status)
      ∧ (Processor.standard.machineAt program m 5).registers.get? names.remainder
          = some (a % b) := by
  obtain ⟨after, heffects, hremainder⟩ := names.effects_sequence ha hb hne
  obtain ⟨hsteps, hafter⟩ := (effects_eq_ok_iff names.controlEffect_sequence hstands).1 heffects
  subst hafter
  exact ⟨hsteps, hremainder⟩

/-- The steps of a sequence whose divisor is zero: the second of them traps. -/
theorem steps_sequence_zero (hstands : StandsAt program m.ip names.sequence)
    (ha : m.registers.get? names.dividend = some a)
    (hb : m.registers.get? names.divisor = some 0) :
    (∃ status, Processor.standard.resultAt program m 0 = .ok status)
      ∧ Processor.standard.resultAt program m 1 = .error (.divisionByZero (m.ip + 1))
      ∧ Processor.standard.machineAt program m 2 = Processor.standard.machineAt program m 1 := by
  obtain ⟨hmov, hbehind⟩ := hstands.cons
  obtain ⟨hdiv, -⟩ := hbehind.cons
  have hfirst := step_next hmov
    (effect_mov_registers names.isIdentifier_multiple names.isIdentifier_dividend ha)
  have hafter : Processor.standard.machineAt program m 1 = m.written names.multiple a :=
    congrArg Prod.snd hfirst
  have hdivisor : (m.written names.multiple a).registers.get? names.divisor = some 0 := by
    rw [names.get?_divisor, hb]
  have hoperands : Operands
      (StandardInstruction.instruction ⟨.div, [names.multiple, names.divisor]⟩) .div
      (m.written names.multiple a) names.multiple a 0 :=
    .of_registers names.isIdentifier_multiple names.isIdentifier_divisor
      (get?_written_self m _ a) hdivisor
  have hsecond := hoperands.step_div hdiv
  rw [if_pos rfl, ← hafter] at hsecond
  refine ⟨⟨_, congrArg Prod.fst hfirst⟩, ?_, ?_⟩
  · rw [Processor.resultAt, hsecond, hafter]
    rfl
  · show ((Processor.standard.step program).on (Processor.standard.machineAt program m 1)).2 = _
    rw [hsecond]

end RemainderRegisters

/-! ### Steps -/

/-- **Division, and the remainder computed from it.**  A division by anything but zero leaves the
quotient truncated toward zero, of which only one does not fit, and goes on; a division by zero
traps with its own address and changes nothing.  Wherever in a program the sequence for a remainder
stands, on registers of any names: if the divisor is not zero, no step of it traps and the last
leaves the truncated remainder, even where the quotient or the product wraps.  If it is zero, the
division traps and leaves the machine as it was. -/
theorem division_and_remainder (program : Program) (m : Machine) (a b : Int32) :
    (∀ ins name, Processor.standard.fetch program m.ip = .ready ins .div →
      Operands ins .div m name a b →
      (b ≠ 0 → ∃ q : Int32,
        (Processor.standard.step program).on m
            = (.ok (statusAt program (m.ip + 1)), m.written name q)
          ∧ q.toInt = if a.toInt = -0x80000000 ∧ b.toInt = -1 then -0x80000000
            else a.toInt.tdiv b.toInt)
      ∧ (b = 0 → (Processor.standard.step program).on m
          = (.error (.divisionByZero m.ip), m)))
    ∧ ∀ names : RemainderRegisters, StandsAt program m.ip names.sequence →
      m.registers.get? names.dividend = some a → m.registers.get? names.divisor = some b →
      (b ≠ 0 → (∀ i < 5, ∃ status, Processor.standard.resultAt program m i = .ok status)
        ∧ ∃ d : Int32,
          (Processor.standard.machineAt program m 5).registers.get? names.remainder = some d
          ∧ d.toInt = a.toInt.tmod b.toInt ∧ IsRemainder a.toInt b.toInt d.toInt)
      ∧ (b = 0 → (∃ status, Processor.standard.resultAt program m 0 = .ok status)
        ∧ Processor.standard.resultAt program m 1 = .error (.divisionByZero (m.ip + 1))
        ∧ Processor.standard.machineAt program m 2
            = Processor.standard.machineAt program m 1) := by
  refine ⟨?_, ?_⟩
  · intro ins name hfetch hoperands
    have hstep := hoperands.step_div hfetch
    refine ⟨?_, ?_⟩
    · intro hne
      rw [if_neg hne] at hstep
      exact ⟨a / b, hstep, toInt_div_word a b⟩
    · intro hzero
      rw [if_pos hzero] at hstep
      exact hstep
  · intro names hstands ha hb
    refine ⟨?_, ?_⟩
    · intro hne
      obtain ⟨hsteps, hremainder⟩ := names.steps_sequence hstands ha hb hne
      have hdivisor : b.toInt ≠ 0 := by
        intro hzero
        exact hne (Int32.toInt_inj.1 hzero)
      refine ⟨hsteps, a % b, hremainder, Int32.toInt_mod a b, ?_⟩
      rw [Int32.toInt_mod]
      exact isRemainder_tmod a.toInt hdivisor
    · rintro rfl
      exact names.steps_sequence_zero hstands ha hb

/-- The registers of a sample. -/
def sampleRemainder : RemainderRegisters where
  dividend := "a"
  divisor := "b"
  multiple := "c"
  remainder := "d"
  isIdentifier_dividend := by decide +kernel
  isIdentifier_divisor := by decide +kernel
  isIdentifier_multiple := by decide +kernel
  isIdentifier_remainder := by decide +kernel
  dividend_ne_multiple := by decide +kernel
  divisor_ne_multiple := by decide +kernel
  remainder_ne_multiple := by decide +kernel

/-- The sequence on them and nothing else. -/
def remainderProgram : Program :=
  sampleRemainder.sequence.map StandardInstruction.instruction

/-- The least word, to be divided by a given one. -/
def leastWordMachine (divisor : Int32) : Machine where
  registers := .write (.write .empty "a" Int32.minValue) "b" divisor

/-- The least word divided by -1 wraps, and by zero it traps. -/
theorem division_and_remainder_least :
    StandsAt remainderProgram (leastWordMachine (-1)).ip sampleRemainder.sequence
      ∧ (leastWordMachine (-1)).registers.get? "a" = some Int32.minValue
      ∧ (leastWordMachine (-1)).registers.get? "b" = some (-1)
      ∧ (∃ q : Int32, q.toInt = -0x80000000
        ∧ (Processor.standard.step remainderProgram).on
            ((leastWordMachine (-1)).written "c" Int32.minValue)
          = (.ok .running, ((leastWordMachine (-1)).written "c" Int32.minValue).written "c" q))
      ∧ (∃ d : Int32, d.toInt = 0
        ∧ (Processor.standard.machineAt remainderProgram (leastWordMachine (-1)) 5).registers.get?
            "d" = some d)
      ∧ Processor.standard.resultAt remainderProgram (leastWordMachine 0) 1
          = .error (.divisionByZero 1) := by
  have hstands (divisor : Int32) :
      StandsAt remainderProgram (leastWordMachine divisor).ip sampleRemainder.sequence :=
    List.prefix_refl _
  have hdividend (divisor : Int32) :
      (leastWordMachine divisor).registers.get? "a" = some Int32.minValue := by
    rw [leastWordMachine, RegisterFile.get?_write, if_neg (by decide +kernel),
      RegisterFile.get?_write, if_pos rfl]
  have hdivisor (divisor : Int32) :
      (leastWordMachine divisor).registers.get? "b" = some divisor := by
    rw [leastWordMachine, RegisterFile.get?_write, if_pos rfl]
  have hmoved : Operands (StandardInstruction.instruction ⟨.div, ["c", "b"]⟩) .div
      ((leastWordMachine (-1)).written "c" Int32.minValue) "c" Int32.minValue (-1) := by
    refine .of_registers (by decide +kernel) (by decide +kernel) (get?_written_self _ _ _) ?_
    rw [get?_written_of_ne (by decide +kernel), hdivisor]
  obtain ⟨hdivision, -⟩ := division_and_remainder remainderProgram
    ((leastWordMachine (-1)).written "c" Int32.minValue) Int32.minValue (-1)
  obtain ⟨q, hstep, hq⟩ := (hdivision _ _ rfl hmoved).1 (by decide)
  obtain ⟨-, hsequence⟩ := division_and_remainder remainderProgram (leastWordMachine (-1))
    Int32.minValue (-1)
  obtain ⟨-, d, hd, hremainder, -⟩ :=
    (hsequence sampleRemainder (hstands (-1)) (hdividend (-1)) (hdivisor (-1))).1 (by decide)
  obtain ⟨-, hzero⟩ := division_and_remainder remainderProgram (leastWordMachine 0)
    Int32.minValue 0
  obtain ⟨-, htrap, -⟩ :=
    (hzero sampleRemainder (hstands 0) (hdividend 0) (hdivisor 0)).2 rfl
  exact ⟨hstands (-1), hdividend (-1), hdivisor (-1), ⟨q, hq, hstep⟩, ⟨d, hremainder, hd⟩, htrap⟩

end PseudoAsm
