import PseudoAsm.Proofs.Line.Plain
import PseudoAsm.Proofs.Machine.Frame
import PseudoAsm.Proofs.Machine.Token

/-!
# Reading back what was moved

A move stores its value under the text of its first parameter, whatever that text is.  A source
operand is looked at before it is looked up: a numeral stands for itself, and of all other tokens
only the identifiers name registers.  So every register can be written, and those with the names of
identifiers can be read back as values.

* `effect_mov_eq_ok_iff` — what a move comes to;
* `value_eq_ok_iff_of_get?` — when a token stands for the value of the register that it names;
* `on_execute_mov_iff` — a move takes every text but the empty one for its destination;
* `moved_value_read_back` — **what a move stores is read back exactly under identifiers**, and under
  the numeral of the value itself;
* `numeral_not_read_back` — a value stored under a numeral is not read back.
-/

namespace PseudoAsm

section Moving

variable {ins : Instruction} {m after : Machine} {flow : Flow} {name : String} {value : Int32}

/-- A move stores the value of its second parameter under the first, and goes on. -/
theorem effect_mov_eq_ok_iff :
    effect ins .mov m = .ok (flow, after)
      ↔ ∃ name source value, operand ins .mov 0 = .ok name ∧ operand ins .mov 1 = .ok source
        ∧ m.value source = .ok value ∧ flow = .next
        ∧ after = { m with registers := m.registers.write name value } := by
  constructor
  · intro h
    obtain ⟨name, hname, h⟩ := bind_eq_ok_iff.1 h
    obtain ⟨source, hsource, h⟩ := bind_eq_ok_iff.1 h
    obtain ⟨value, hvalue, h⟩ := bind_eq_ok_iff.1 h
    cases h
    exact ⟨name, source, value, hname, hsource, hvalue, rfl, rfl⟩
  · rintro ⟨name, source, value, hname, hsource, hvalue, rfl, rfl⟩
    exact effect_mov hname hsource hvalue

/-- A step that executes a move stores the value of its second parameter under the first. -/
theorem stored_of_step {instructions : InstructionSet} {program : Program} {status : Status}
    (hfetch : instructions.processor.fetch program m.ip = .ready ins .mov)
    (hstep : (instructions.processor.step program).on m = (.ok status, after)) :
    ∃ name source value, ins.param? 0 = some name ∧ ins.param? 1 = some source
      ∧ m.value source = .ok value ∧ after.registers.get? name = some value := by
  rw [step_eq_sent hfetch] at hstep
  cases heffect : effect ins .mov m with
  | error trap => simp [heffect, sent] at hstep
  | ok executed =>
    obtain ⟨flow, stored⟩ := executed
    obtain ⟨name, source, value, hname, hsource, hvalue, rfl, rfl⟩ :=
      effect_mov_eq_ok_iff.1 heffect
    simp only [heffect, sent, Flow.target?, Prod.mk.injEq] at hstep
    obtain ⟨-, rfl⟩ := hstep
    refine ⟨name, source, value, (operand_eq_ok_iff.1 hname).1, (operand_eq_ok_iff.1 hsource).1,
      hvalue, ?_⟩
    simp [RegisterFile.get?_write]

/-- In the place of its first parameter a move takes every text but the empty one. -/
theorem on_execute_mov_iff {first source destination : String} (hfirst : ins.param? 0 = some first)
    (hsource : ins.param? 1 = some source) (hvalue : m.value source = .ok value) :
    (execute (ins.withParam 0 destination) .mov).on m
        = (.ok .next, { m with registers := m.registers.write destination value })
      ↔ destination ≠ "" := by
  have hset : (ins.withParam 0 destination).param? 0 = some destination := by
    obtain ⟨hlength, -⟩ := List.getElem?_eq_some_iff.1 hfirst
    simp [Instruction.param?, Instruction.withParam, hlength]
  rw [on_execute]
  constructor
  · rintro hmoved rfl
    have hempty : operand (ins.withParam 0 "") .mov 0 = .error (.missingOperand .mov 0) := by
      rw [operand, hset]
      rfl
    have htrapped : effect (ins.withParam 0 "") .mov m = .error (.missingOperand .mov 0) := by
      rw [effect, hempty]
      rfl
    rw [htrapped] at hmoved
    cases hmoved
  · intro hne
    have hread : operand (ins.withParam 0 destination) .mov 1 = .ok source := by
      rw [operand_withParam_of_ne (by decide)]
      exact operand_of_ne_empty (ne_empty_of_value hvalue) hsource
    rw [effect_mov (operand_of_ne_empty hne hset) hread hvalue]
    rfl

/-- A token whose register holds a value stands for that value if it is an identifier, and for what
its own text says if it is not. -/
theorem value_eq_ok_iff_of_get? (hget : m.registers.get? name = some value) :
    m.value name = .ok value ↔ isIdentifier name = true ∨ Numeral.int32? name = some value := by
  cases hname : isIdentifier name with
  | true => simp [value_of_isIdentifier hname hget]
  | false =>
    cases hnumeral : Numeral.int32? name with
    | none => simp [value_of_not_identifier hnumeral hname]
    | some numeral => simp [Machine.value_of_int32? hnumeral]

end Moving

/-- **What a move stores is read back under identifiers.**  Whatever the mnemonics stand for and
whatever state the machine is in, a move that succeeds has stored the value of its second operand
under the first.  If the first is an identifier, it stands for the stored value from then on, and
every instruction that reads it as a value does what it does with the decimal text of that value.  A
numeral still stands for itself and any other token for nothing, so nothing else is read back but a
value that is stored under its own numeral.  Yet as a destination every text would have done in the
place of the first, the empty one apart. -/
theorem moved_value_read_back (instructions : InstructionSet) (program : Program)
    (m after : Machine) (ins : Instruction) (status : Status)
    (hfetch : instructions.processor.fetch program m.ip = .ready ins .mov)
    (hstep : (instructions.processor.step program).on m = (.ok status, after)) :
    ∃ name source value, ins.param? 0 = some name ∧ ins.param? 1 = some source
      ∧ m.value source = .ok value ∧ after.registers.get? name = some value
      ∧ (isIdentifier name = true → after.value name = .ok value
        ∧ ∀ (next : Instruction) (op : Operation) (index : Nat), op.evaluates index = true →
          next.param? index = some name →
          (execute next op).on after
            = (execute (next.withParam index (toString value.toInt)) op).on after)
      ∧ (∀ numeral, Numeral.int32? name = some numeral → after.value name = .ok numeral)
      ∧ (Numeral.int32? name = none → isIdentifier name = false →
        after.value name = .error (.malformedNumericLiteral name))
      ∧ (after.value name = .ok value
        ↔ isIdentifier name = true ∨ Numeral.int32? name = some value)
      ∧ ∀ destination, (execute (ins.withParam 0 destination) .mov).on m
          = (.ok .next, { m with registers := m.registers.write destination value })
        ↔ destination ≠ "" := by
  obtain ⟨name, source, value, hfirst, hsecond, hvalue, hget⟩ := stored_of_step hfetch hstep
  refine ⟨name, source, value, hfirst, hsecond, hvalue, hget, ?_, ?_, ?_,
    value_eq_ok_iff_of_get? hget, fun destination => on_execute_mov_iff hfirst hsecond hvalue⟩
  · intro hname
    have hread : after.value name = .ok value := value_of_isIdentifier hname hget
    have hnumeral : after.value (toString value.toInt) = .ok value :=
      Machine.value_of_int32? (int32?_toString value) after
    refine ⟨hread, ?_⟩
    intro next op index hop hparam
    rw [on_execute, on_execute, effect_withParam hop hparam hread hnumeral]
  · intro numeral hnumeral
    exact Machine.value_of_int32? hnumeral after
  · intro hnumeral hname
    exact value_of_not_identifier hnumeral hname after

/-- A program that moves a value to a name of Greek letters and then compares the two. -/
def greekProgram : Program :=
  [⟨"mov", ["Σας_1", "-7"]⟩, ⟨"cmp", ["Σας_1", "-7"]⟩]

/-- A comparison behind the move to the Greek name compares the value that was moved. -/
theorem moved_value_read_back_greek :
    InstructionSet.standard.processor.fetch greekProgram (Machine.fresh {}).ip
        = .ready ⟨"mov", ["Σας_1", "-7"]⟩ .mov
      ∧ ((InstructionSet.standard.processor.step greekProgram).on (.fresh {})).1 = .ok .running
      ∧ ∃ value, ((InstructionSet.standard.processor.step greekProgram).on (.fresh {})).2.value
          "Σας_1" = .ok value
        ∧ (execute ⟨"cmp", ["Σας_1", "-7"]⟩ .cmp).on
            ((InstructionSet.standard.processor.step greekProgram).on (.fresh {})).2
          = (execute ⟨"cmp", [toString value.toInt, "-7"]⟩ .cmp).on
            ((InstructionSet.standard.processor.step greekProgram).on (.fresh {})).2 := by
  have hfetch : InstructionSet.standard.processor.fetch greekProgram (Machine.fresh {}).ip
      = .ready ⟨"mov", ["Σας_1", "-7"]⟩ .mov := by decide
  have hresult : ((InstructionSet.standard.processor.step greekProgram).on (.fresh {})).1
      = .ok .running := by decide +kernel
  obtain ⟨name, source, value, hfirst, -, -, -, hread, -⟩ :=
    moved_value_read_back .standard greekProgram (.fresh {}) _ _ .running hfetch
      (Prod.ext hresult rfl)
  obtain rfl : "Σας_1" = name := Option.some.inj hfirst
  obtain ⟨hvalue, hnext⟩ := hread (by decide +kernel)
  exact ⟨hfetch, hresult, value, hvalue, hnext _ .cmp 0 rfl rfl⟩

/-- A program that moves to a numeral. -/
def numeralProgram : Program :=
  [⟨"mov", ["5", "7"]⟩]

/-- **A value stored under a numeral is not read back**: the register is written, but as a source
operand the numeral stands for itself. -/
theorem numeral_not_read_back :
    ¬∀ (program : Program) (m after : Machine) (ins : Instruction) (status : Status)
      (name source : String) (value : Int32),
      Processor.standard.fetch program m.ip = .ready ins .mov →
      (Processor.standard.step program).on m = (.ok status, after) →
      ins.param? 0 = some name → ins.param? 1 = some source → m.value source = .ok value →
      after.value name = .ok value := by
  intro h
  have hread := h numeralProgram (.fresh {})
    ((Processor.standard.step numeralProgram).on (.fresh {})).2 ⟨"mov", ["5", "7"]⟩ .fellThrough
    "5" "7" 7 (by decide) (Prod.ext (by decide +kernel) rfl) rfl rfl rfl
  rw [Machine.value_of_int32? (show Numeral.int32? "5" = some 5 from rfl)] at hread
  exact absurd hread (by decide)

end PseudoAsm
