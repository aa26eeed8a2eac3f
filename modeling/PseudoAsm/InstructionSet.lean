/-!
# The instruction set

The operations of the machine, the shapes of their operands, and tables that give mnemonics to
operations.  A table is looked up from its top, so the first row of a mnemonic counts.

* `Operation.mnemonic`, `Operation.operands` — the standard name and operand shape;
* `InstructionSet.find?` — the row of a mnemonic;
* `InstructionSet.addressMnemonics` — the mnemonics whose first parameter is a jump target;
* `InstructionSet.standard` — the table of all operations under their standard names.
-/

namespace PseudoAsm

/-- What the machine can do. -/
inductive Operation where
  | mov | inc | dec | add | sub | mul | div
  | jmp | cmp | je | jne | jg | jge | jl | jle | jnz
  | call | ret | msg | stop
deriving DecidableEq, Repr, Inhabited

/-- The shape of an operation's operands. -/
inductive OperandShape where
  /-- No operand. -/
  | empty
  /-- A register. -/
  | register
  /-- A register and a value. -/
  | registerValue
  /-- Two values. -/
  | valueValue
  /-- A jump target, which may be given as a label. -/
  | address
  /-- A value and an offset relative to the instruction, which is never a label. -/
  | valueOffset
  /-- Any number of parts. -/
  | variadic
deriving DecidableEq, Repr, Inhabited

namespace Operation

/-- All operations in the order of the standard table. -/
def all : List Operation :=
  [mov, inc, dec, add, sub, mul, div, jmp, cmp, je, jne, jg, jge, jl, jle, jnz, call, ret, msg,
    stop]

theorem mem_all (op : Operation) : op ∈ all := by
  cases op <;> decide

/-- The standard name. -/
def mnemonic : Operation → String
  | mov => "mov"
  | inc => "inc"
  | dec => "dec"
  | add => "add"
  | sub => "sub"
  | mul => "mul"
  | div => "div"
  | jmp => "jmp"
  | cmp => "cmp"
  | je => "je"
  | jne => "jne"
  | jg => "jg"
  | jge => "jge"
  | jl => "jl"
  | jle => "jle"
  | jnz => "jnz"
  | call => "call"
  | ret => "ret"
  | msg => "msg"
  | stop => "end"

/-- The standard operand shape. -/
def operands : Operation → OperandShape
  | mov | add | sub | mul | div => .registerValue
  | inc | dec => .register
  | jmp | je | jne | jg | jge | jl | jle | call => .address
  | cmp => .valueValue
  | jnz => .valueOffset
  | ret | stop => .empty
  | msg => .variadic

end Operation

/-! ### Tables of mnemonics -/

/-- A mnemonic with the operation it stands for and the shape of its operands. -/
structure MnemonicRow where
  mnemonic : String
  operation : Operation
  operands : OperandShape
deriving DecidableEq, Repr, Inhabited

/-- The first parameter of such an instruction is a jump target. -/
def MnemonicRow.takesAddress (row : MnemonicRow) : Bool :=
  row.operands == .address

/-- A table of mnemonics. -/
abbrev InstructionSet := List MnemonicRow

namespace InstructionSet

/-- The first row for a mnemonic, compared exactly. -/
def find? (set : InstructionSet) (mnemonic : String) : Option MnemonicRow :=
  List.find? (fun row => row.mnemonic == mnemonic) set

/-- A row that is found bears the mnemonic. -/
theorem mnemonic_of_find? {set : InstructionSet} {mnemonic : String} {row : MnemonicRow}
    (h : set.find? mnemonic = some row) : row.mnemonic = mnemonic := by
  simpa using List.find?_some h

/-- The mnemonics, in table order, whose first parameter is a jump target. -/
def addressMnemonics (set : InstructionSet) : List String :=
  (set.filter MnemonicRow.takesAddress).map MnemonicRow.mnemonic

/-- The mnemonics whose first parameter is a jump target, in ascending order and each once. -/
def addressMnemonicsAscending (set : InstructionSet) : List String :=
  set.addressMnemonics.eraseDups.mergeSort fun a b => decide (a ≤ b)

/-- All operations under their standard names. -/
def standard : InstructionSet :=
  Operation.all.map fun op => ⟨op.mnemonic, op, op.operands⟩

/-- Every operation is found under its standard name. -/
theorem find?_standard (op : Operation) :
    standard.find? op.mnemonic = some ⟨op.mnemonic, op, op.operands⟩ := by
  cases op <;> decide

/-- A row of the standard set gives an operation its standard name. -/
theorem mnemonic_operation_of_find? {name : String} {row : MnemonicRow}
    (h : standard.find? name = some row) : row.operation.mnemonic = name := by
  have hmem : row ∈ standard := List.mem_of_find?_eq_some h
  obtain ⟨op, -, rfl⟩ := List.mem_map.1 hmem
  exact mnemonic_of_find? h

theorem mem_addressMnemonics_standard_iff (op : Operation) :
    op.mnemonic ∈ standard.addressMnemonics ↔ op.operands = .address := by
  cases op <;> decide

end InstructionSet

end PseudoAsm
