import PseudoAsm.Resolution

/-!
# Positions and addresses

An unresolved program is indexed by positions, which count its label definitions; a resolved one
by addresses, which do not.  This file relates the two countings.

* `Program.addressAt` — the address that a position stands for;
* `Program.positionOf` — the position of the instruction with an address;
* `Program.settle` — the first position from a given one on that is no label definition;
* `Program.definition?` — the position of the first definition of a label.

Past the end of the program both countings go on in step, so that an address beyond the last one
still has a position.  The main facts are `getElem?_settle` (**a settled position holds the
instruction that its address names**), `addressAt_positionOf`, and `labelAddress?_labelTable` (**the
label table gives a label the address of its first definition**).
-/

namespace PseudoAsm

/-- Whether an instruction defines the label with a name, whatever the letter case. -/
def Instruction.defines (ins : Instruction) (name : String) : Bool :=
  ins.labelName?.map Text.lower == some (Text.lower name)

theorem Instruction.isLabel_of_labelName? {ins : Instruction} {name : String}
    (h : ins.labelName? = some name) : ins.isLabel = true := by
  rw [← Bool.not_eq_false, ← labelName?_eq_none_iff, h]
  exact Option.some_ne_none name

namespace Program

/-- The number of instructions before a position that are no label definitions.  Past the end of
the program positions count on. -/
def addressAt (program : Program) (position : Nat) : Nat :=
  (Program.body (program.take position)).length + (position - program.length)

/-- The position of the instruction with an address, which is counted without label definitions. -/
def positionOf : Program → Nat → Nat
  | [], address => address
  | ins :: rest, address =>
    if ins.isLabel then positionOf rest address + 1
    else match address with
      | 0 => 0
      | address + 1 => positionOf rest address + 1

/-- The first position from a given one on that is no label definition. -/
def settle (program : Program) (position : Nat) : Nat :=
  position + ((program.drop position).takeWhile Instruction.isLabel).length

/-- The position of the first definition of a label, whatever the letter case of its name. -/
def definition? (program : Program) (name : String) : Option Nat :=
  program.findIdx? fun ins => ins.defines name

/-! ### The countings from instruction to instruction -/

variable {ins : Instruction} {rest : Program}

theorem body_cons_label (h : ins.isLabel = true) : body (ins :: rest) = body rest := by
  rw [body, List.filter_cons_of_neg (by rw [h]; exact Bool.false_ne_true)]
  rfl

theorem body_cons_code (h : ins.isLabel = false) : body (ins :: rest) = ins :: body rest := by
  rw [body, List.filter_cons_of_pos (by rw [h]; rfl)]
  rfl

@[simp] theorem addressAt_zero (program : Program) : program.addressAt 0 = 0 := by
  rw [addressAt, List.take_zero, Nat.zero_sub]
  rfl

@[simp] theorem addressAt_nil (position : Nat) : addressAt [] position = position := by
  rw [addressAt, List.take_nil, List.length_nil, Nat.sub_zero]
  exact Nat.zero_add position

theorem addressAt_succ_label (h : ins.isLabel = true) (position : Nat) :
    addressAt (ins :: rest) (position + 1) = addressAt rest position := by
  rw [addressAt, addressAt, List.take_succ_cons, body_cons_label h, List.length_cons,
    Nat.add_sub_add_right]

theorem addressAt_succ_code (h : ins.isLabel = false) (position : Nat) :
    addressAt (ins :: rest) (position + 1) = addressAt rest position + 1 := by
  rw [addressAt, addressAt, List.take_succ_cons, body_cons_code h, List.length_cons,
    List.length_cons, Nat.add_sub_add_right]
  omega

@[simp] theorem settle_nil (position : Nat) : settle [] position = position := by
  rw [settle, List.drop_nil, List.takeWhile_nil, List.length_nil, Nat.add_zero]

theorem settle_zero_label (h : ins.isLabel = true) :
    settle (ins :: rest) 0 = settle rest 0 + 1 := by
  rw [settle, settle, List.drop_zero, List.drop_zero, List.takeWhile_cons_of_pos h,
    List.length_cons]
  omega

theorem settle_zero_code (h : ins.isLabel = false) : settle (ins :: rest) 0 = 0 := by
  rw [settle, List.drop_zero, List.takeWhile_cons_of_neg (by rw [h]; exact Bool.false_ne_true)]
  rfl

theorem settle_succ (ins : Instruction) (rest : Program) (position : Nat) :
    settle (ins :: rest) (position + 1) = settle rest position + 1 := by
  rw [settle, settle, List.drop_succ_cons]
  omega

/-! ### Settled positions -/

/-- **A settled position holds the instruction that its address names.** -/
theorem getElem?_settle (program : Program) (position : Nat) :
    program[program.settle position]? = program.body[program.addressAt position]? := by
  induction program generalizing position with
  | nil => rw [settle_nil, addressAt_nil]; rfl
  | cons ins rest ih =>
    cases hlabel : ins.isLabel with
    | true =>
      rw [body_cons_label hlabel]
      cases position with
      | zero =>
        rw [settle_zero_label hlabel, addressAt_zero, List.getElem?_cons_succ, ih 0,
          addressAt_zero]
      | succ position =>
        rw [settle_succ, addressAt_succ_label hlabel, List.getElem?_cons_succ, ih position]
    | false =>
      rw [body_cons_code hlabel]
      cases position with
      | zero => rw [settle_zero_code hlabel, addressAt_zero]; rfl
      | succ position =>
        rw [settle_succ, addressAt_succ_code hlabel, List.getElem?_cons_succ,
          List.getElem?_cons_succ, ih position]

/-- Skipping label definitions costs no address. -/
theorem addressAt_settle (program : Program) (position : Nat) :
    program.addressAt (program.settle position) = program.addressAt position := by
  induction program generalizing position with
  | nil => rw [settle_nil]
  | cons ins rest ih =>
    cases hlabel : ins.isLabel with
    | true =>
      cases position with
      | zero =>
        rw [settle_zero_label hlabel, addressAt_succ_label hlabel, ih 0, addressAt_zero,
          addressAt_zero]
      | succ position =>
        rw [settle_succ, addressAt_succ_label hlabel, addressAt_succ_label hlabel, ih position]
    | false =>
      cases position with
      | zero => rw [settle_zero_code hlabel]
      | succ position =>
        rw [settle_succ, addressAt_succ_code hlabel, addressAt_succ_code hlabel, ih position]

/-- No label definition is part of a program's body. -/
theorem isLabel_of_mem_body {program : Program} (h : ins ∈ program.body) :
    ins.isLabel = false := by
  rw [body, List.mem_filter] at h
  rw [← Bool.not_eq_true']
  exact h.2

theorem isLabel_of_getElem?_body {program : Program} {address : Nat}
    (h : program.body[address]? = some ins) : ins.isLabel = false :=
  isLabel_of_mem_body (List.mem_of_getElem? h)

/-- A program without label definitions is its own body. -/
theorem body_eq_self {program : Program} (h : ∀ ins ∈ program, ins.isLabel = false) :
    program.body = program := by
  refine List.filter_eq_self.2 fun ins hins => ?_
  rw [h ins hins]
  rfl

/-- A position that holds no label definition is followed by the next address. -/
theorem addressAt_succ {program : Program} {position : Nat}
    (h : ∀ ins, program[position]? = some ins → ins.isLabel = false) :
    program.addressAt (position + 1) = program.addressAt position + 1 := by
  rw [addressAt, addressAt]
  rcases Nat.lt_or_ge position program.length with hlt | hge
  · have hins := List.getElem?_eq_getElem hlt
    rw [List.take_add_one, hins, body, List.filter_append, List.length_append]
    show _ + (body [program[position]]).length + _ = _
    rw [body_cons_code (h _ hins), body, Nat.sub_eq_zero_of_le (Nat.le_of_lt hlt),
      Nat.sub_eq_zero_of_le hlt]
    rfl
  · rw [List.take_of_length_le hge, List.take_of_length_le (Nat.le_succ_of_le hge)]
    omega

/-- A label definition takes no address. -/
theorem addressAt_succ_of_isLabel {program : Program} {position : Nat}
    (hins : program[position]? = some ins) (hlabel : ins.isLabel = true) :
    program.addressAt (position + 1) = program.addressAt position := by
  obtain ⟨hlt, -⟩ := List.getElem?_eq_some_iff.1 hins
  rw [addressAt, addressAt, List.take_add_one, hins, body, List.filter_append, List.length_append]
  show _ + (body [ins]).length + _ = _
  rw [body_cons_label hlabel, Nat.sub_eq_zero_of_le (Nat.le_of_lt hlt),
    Nat.sub_eq_zero_of_le hlt]
  rfl

/-- The body from a position inside the program on has the rest of the addresses. -/
theorem addressAt_add_length_body_drop {program : Program} {position : Nat}
    (h : position ≤ program.length) :
    program.addressAt position + (body (program.drop position)).length = program.body.length := by
  have hsplit : body (program.take position) ++ body (program.drop position) = program.body := by
    rw [body, body, ← List.filter_append, List.take_append_drop]
    rfl
  rw [addressAt, Nat.sub_eq_zero_of_le h, Nat.add_zero, ← List.length_append, hsplit]

/-- An instruction that is no label definition is the one with its address. -/
theorem getElem?_body_addressAt {program : Program} {position : Nat}
    (hins : program[position]? = some ins) (hcode : ins.isLabel = false) :
    program.body[program.addressAt position]? = some ins := by
  obtain ⟨hlt, hget⟩ := List.getElem?_eq_some_iff.1 hins
  have hsettled : program.settle position = position := by
    rw [settle, List.drop_eq_getElem_cons hlt, hget,
      List.takeWhile_cons_of_neg (by rw [hcode]; exact Bool.false_ne_true)]
    rfl
  rw [← getElem?_settle, hsettled, hins]

/-- The position after a settled one has the next address. -/
theorem addressAt_settle_succ (program : Program) (position : Nat) :
    program.addressAt (program.settle position + 1) = program.addressAt position + 1 := by
  rw [addressAt_succ, addressAt_settle]
  intro ins hins
  rw [getElem?_settle] at hins
  exact isLabel_of_getElem?_body hins

/-- An instruction is left from a position on exactly if the position's address is inside. -/
theorem settle_lt_length_iff (program : Program) (position : Nat) :
    program.settle position < program.length
      ↔ program.addressAt position < program.body.length := by
  rw [← Nat.not_le, ← Nat.not_le, ← List.getElem?_eq_none_iff, ← List.getElem?_eq_none_iff,
    getElem?_settle]

/-- The instruction with an address stands where the address says. -/
theorem addressAt_positionOf (program : Program) (address : Nat) :
    program.addressAt (program.positionOf address) = address := by
  induction program generalizing address with
  | nil => exact addressAt_nil address
  | cons ins rest ih =>
    cases hlabel : ins.isLabel with
    | true =>
      simp only [positionOf, hlabel, if_true]
      rw [addressAt_succ_label hlabel, ih address]
    | false =>
      cases address with
      | zero =>
        simp only [positionOf, hlabel, Bool.false_eq_true, if_false]
        exact addressAt_zero _
      | succ address =>
        simp only [positionOf, hlabel, Bool.false_eq_true, if_false]
        rw [addressAt_succ_code hlabel, ih address]

/-! ### Label definitions -/

/-- The address of a position inside the program counts its instructions at most. -/
theorem addressAt_le_length_body (program : Program) {position : Nat}
    (h : position ≤ program.length) : program.addressAt position ≤ program.body.length := by
  rw [addressAt, Nat.sub_eq_zero_of_le h, Nat.add_zero]
  exact ((List.take_sublist position program).filter _).length_le

/-- The label table from an address on gives a label the address of its first definition. -/
theorem labelAddress?_labelTable_from (program : Program) (start : Nat) (name : String) :
    labelAddress? (labelTable start program) name
      = (program.definition? name).map fun position => start + program.addressAt position := by
  induction program generalizing start with
  | nil => rfl
  | cons ins rest ih =>
    rw [definition?, List.findIdx?_cons]
    cases hname : ins.labelName? with
    | none =>
      have hcode : ins.isLabel = false := Instruction.labelName?_eq_none_iff.1 hname
      have hdefines : ins.defines name = false := by
        rw [Instruction.defines, hname]
        rfl
      rw [labelTable, hname, hdefines, if_neg Bool.false_ne_true, Option.map_map]
      refine (ih (start + 1)).trans (congrArg (Option.map · _) (funext fun position => ?_))
      show start + 1 + addressAt rest position = start + addressAt (ins :: rest) (position + 1)
      rw [addressAt_succ_code hcode]
      omega
    | some label =>
      have hlabel : ins.isLabel = true := Instruction.isLabel_of_labelName? hname
      rw [labelTable, hname]
      show (List.lookup (Text.lower name) ((Text.lower label, start) :: labelTable start rest))
        = _
      rw [List.lookup_cons]
      by_cases hsame : Text.lower label = Text.lower name
      · have hdefines : ins.defines name = true := by
          rw [Instruction.defines, hname, Option.map_some, hsame]
          exact beq_self_eq_true _
        rw [hdefines, if_pos rfl, hsame, beq_self_eq_true, Option.map_some, addressAt_zero]
        rfl
      · have hdefines : ins.defines name = false := by
          rw [Instruction.defines, hname, Option.map_some]
          exact beq_eq_false_iff_ne.2 fun h => hsame (Option.some.inj h)
        rw [hdefines, if_neg Bool.false_ne_true, beq_eq_false_iff_ne.2 (Ne.symm hsame),
          Option.map_map]
        refine (ih start).trans (congrArg (Option.map · _) (funext fun position => ?_))
        show start + addressAt rest position = start + addressAt (ins :: rest) (position + 1)
        rw [addressAt_succ_label hlabel]

/-- **The label table gives a label the address of its first definition.** -/
theorem labelAddress?_labelTable (program : Program) (name : String) :
    labelAddress? (labelTable 0 program) name
      = (program.definition? name).map program.addressAt := by
  rw [labelAddress?_labelTable_from]
  exact congrArg (Option.map · _) (funext fun position => Nat.zero_add _)

end Program

end PseudoAsm
