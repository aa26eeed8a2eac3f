import PseudoAsm.Text.Blank
import PseudoAsm.Text.Lowercase

/-!
# Instructions

An instruction is a mnemonic with its parameters, or a label definition, which is a name that ends
in a colon.  Instructions read from program text have a lowercase name and no blanks around name
and parameters; instructions given directly are taken as they are.

* `Instruction.normalized` — the instruction that raw fields stand for;
* `Instruction.labelName?` — the name that a label definition defines;
* `Instruction.withTarget` — the same instruction with another jump target;
* `Instruction.text` — the plain written form.
-/

namespace PseudoAsm

/-- A mnemonic, or a label with its colon, and the parameters. -/
structure Instruction where
  name : String
  params : List String := []
deriving DecidableEq, Repr, Inhabited

/-- A sequence of instructions; an address is a position in it. -/
abbrev Program := List Instruction

namespace Instruction

/-- The instruction for raw fields: the name trimmed and in lowercase, the parameters trimmed. -/
def normalized (name : String) (params : List String) : Instruction where
  name := Text.lower (Text.trim name)
  params := params.map Text.trim

theorem length_params_normalized (name : String) (params : List String) :
    (normalized name params).params.length = params.length :=
  List.length_map _

/-! ### Label definitions -/

/-- A name that ends in a colon defines a label. -/
def isLabel (ins : Instruction) : Bool :=
  ins.name.toList.getLast? == some ':'

/-- The name of the label that an instruction defines, without its colon. -/
def labelName? (ins : Instruction) : Option String :=
  if ins.isLabel then some (String.ofList ins.name.toList.dropLast) else none

theorem labelName?_eq_none_iff {ins : Instruction} :
    ins.labelName? = none ↔ ins.isLabel = false := by
  unfold labelName?
  split <;> simp_all

/-! ### Parameters -/

/-- The parameter at a position. -/
def param? (ins : Instruction) (index : Nat) : Option String :=
  ins.params[index]?

/-- The instruction with its first parameter replaced, or with this one parameter if it had
none. -/
def withTarget (ins : Instruction) (target : String) : Instruction where
  name := ins.name
  params := target :: ins.params.tail

@[simp] theorem name_withTarget (ins : Instruction) (target : String) :
    (ins.withTarget target).name = ins.name := rfl

@[simp] theorem param?_withTarget (ins : Instruction) (target : String) :
    (ins.withTarget target).param? 0 = some target := rfl

/-! ### Written form -/

/-- The name, and after a blank the parameters separated by commas. -/
def text (ins : Instruction) : String :=
  if ins.params.isEmpty then ins.name
  else ins.name ++ " " ++ String.intercalate ", " ins.params

end Instruction

end PseudoAsm
