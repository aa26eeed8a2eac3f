import PseudoAsm.Instruction
import PseudoAsm.InstructionSet
import PseudoAsm.Text.Column
import PseudoAsm.Text.Numeral

/-!
# Listings

Programs printed with their addresses.  A jump target that is an address is marked with `@`, an
offset without a minus sign gets a plus sign, and an unknown mnemonic is marked as such.

* `Instruction.listed` — one instruction as a listing shows it;
* `Program.listing` — a whole program, one line per instruction.
-/

namespace PseudoAsm

/-- An instruction whose first parameter is a jump target. -/
def Instruction.listedTarget (ins : Instruction) : String :=
  match ins.param? 0 with
  | some target =>
    if (Numeral.nat64? target).isSome then ins.name ++ " @" ++ target else ins.text
  | none => ins.text

/-- An instruction whose second parameter is a relative offset. -/
def Instruction.listedOffset (ins : Instruction) : String :=
  match ins.param? 0, ins.param? 1 with
  | some value, some offset =>
    if offset.toList.head? = some '-' then ins.text
    else ins.name ++ " " ++ value ++ ", +" ++ offset
  | _, _ => ins.text

/-- An instruction as a listing shows it. -/
def Instruction.listed (ins : Instruction) : String :=
  match InstructionSet.standard.find? ins.name with
  | none => if ins.isLabel then ins.name else ins.text ++ "  ; unknown"
  | some row =>
    match row.operands with
    | .address => ins.listedTarget
    | .valueOffset => ins.listedOffset
    | _ => ins.text

/-! ### Whole programs -/

/-- The number of digits of the largest number that a listing may need. -/
def Program.addressWidth (program : Program) : Nat :=
  (toString (max program.length 1)).length

/-- The lines of a listing from an address on: label definitions flush left, other instructions
after their address in a column of the given width. -/
def listingFrom (width address : Nat) : Program → List String
  | [] => []
  | ins :: rest =>
    if ins.isLabel then ins.name :: listingFrom width address rest
    else (Text.alignRight width (toString address) ++ ":  " ++ ins.listed)
      :: listingFrom width (address + 1) rest

/-- The lines of a program's listing. -/
def Program.listingLines (program : Program) : List String :=
  listingFrom program.addressWidth 0 program

/-- A listing has one line per instruction. -/
theorem length_listingFrom (width address : Nat) (program : Program) :
    (listingFrom width address program).length = program.length := by
  induction program generalizing address with
  | nil => rfl
  | cons ins rest ih =>
    simp only [listingFrom]
    split <;> simp only [List.length_cons, ih]

/-- The listing of a program as text. -/
def Program.listing (program : Program) : String :=
  String.join (program.listingLines.map (· ++ "\n"))

/-- The line above the listing or report of one program among several. -/
def heading (name : String) : String :=
  "== " ++ name ++ "\n"

end PseudoAsm
