import PseudoAsm.Instruction.Line
import PseudoAsm.InstructionSet
import PseudoAsm.Text.Numeral

/-!
# Label resolution

Symbolic jump targets become addresses and the label definitions disappear.  A label stands for the
address of the first instruction after its first definition, counted without label definitions;
names compare in lowercase.  A target that names no label must already be an address, at most the
number of instructions.

* `labelTable` — the labels of a program with their addresses, in order of definition;
* `resolveTarget` — one instruction with its target made an address;
* `checkTargets` — the check of a program that has no labels;
* `resolve` — a whole program;
* `assemble` — program text, read and resolved.
-/

namespace PseudoAsm

/-- Why a program cannot be resolved: the offending instruction, its index among the instructions
that are no label definitions, and its target. -/
inductive ResolveError where
  /-- A target is neither a label nor an address of the program. -/
  | unresolvedLabel (label mnemonic : String) (index : Nat)
  /-- A target is absent or empty. -/
  | missingTarget (mnemonic : String) (index : Nat)
deriving DecidableEq, Repr

/-- The wording of a resolution error. -/
def ResolveError.message : ResolveError → String
  | .unresolvedLabel label mnemonic index =>
    "unresolved label `" ++ label ++ "` referenced by `" ++ mnemonic ++ "` at instruction "
      ++ toString index
  | .missingTarget mnemonic index =>
    "`" ++ mnemonic ++ "` at instruction " ++ toString index ++ " has no jump target"

/-! ### Labels and their addresses -/

/-- The instructions that are no label definitions. -/
def Program.body (program : Program) : Program :=
  program.filter fun ins => !ins.isLabel

/-- The labels of a program in lowercase with the addresses they stand for, in order of
definition; `address` instructions precede the program. -/
def labelTable (address : Nat) : Program → List (String × Nat)
  | [] => []
  | ins :: rest =>
    match ins.labelName? with
    | some name => (Text.lower name, address) :: labelTable address rest
    | none => labelTable (address + 1) rest

/-- The address of the first definition of a label, whatever the letter case of the name. -/
def labelAddress? (labels : List (String × Nat)) (name : String) : Option Nat :=
  labels.lookup (Text.lower name)

/-! ### Targets -/

/-- The target of the instruction at `index`; an empty one counts as absent. -/
def givenTarget (index : Nat) (ins : Instruction) : Except ResolveError String :=
  match ins.param? 0 with
  | none => .error (.missingTarget ins.name index)
  | some target =>
    if target.isEmpty then .error (.missingTarget ins.name index) else .ok target

/-- The address that a target naming no label has to be; `size` is the number of instructions.  The
address `size` itself is just past the end and allowed. -/
def literalAddress (size index : Nat) (ins : Instruction) (target : String) :
    Except ResolveError Nat :=
  match Numeral.nat64? target with
  | some address =>
    if address ≤ size then .ok address else .error (.unresolvedLabel target ins.name index)
  | none => .error (.unresolvedLabel target ins.name index)

/-- The instruction at `index` with its target made an address. -/
def resolveTarget (labels : List (String × Nat)) (size index : Nat) (ins : Instruction) :
    Except ResolveError Instruction := do
  let target ← givenTarget index ins
  match labelAddress? labels target with
  | some address => return ins.withTarget (toString address)
  | none =>
    let _ ← literalAddress size index ins target
    return ins

/-- The body of a program with every target made an address, the first offender failing the whole;
`index` instructions precede it. -/
def resolveFrom (targeted : List String) (labels : List (String × Nat)) (size index : Nat) :
    Program → Except ResolveError Program
  | [] => .ok []
  | ins :: rest =>
    if ins.isLabel then resolveFrom targeted labels size index rest
    else do
      let resolved ←
        if targeted.contains ins.name then resolveTarget labels size index ins else .ok ins
      let following ← resolveFrom targeted labels size (index + 1) rest
      return resolved :: following

/-- The check of the instruction at `index` in a program that has no labels. -/
def checkTarget (targeted : List String) (size index : Nat) (ins : Instruction) :
    Except ResolveError Unit :=
  if targeted.contains ins.name then do
    let target ← givenTarget index ins
    let _ ← literalAddress size index ins target
    return ()
  else .ok ()

/-- The check of all instructions of a program that has no labels, the first offender failing the
whole; `index` instructions precede it. -/
def checkTargets (targeted : List String) (size index : Nat) : Program → Except ResolveError Unit
  | [] => .ok ()
  | ins :: rest => do
    checkTarget targeted size index ins
    checkTargets targeted size (index + 1) rest

/-- The program without label definitions and with every target of the `targeted` mnemonics an
address.  A program without labels is only checked. -/
def resolve (targeted : List String) (program : Program) : Except ResolveError Program :=
  let labels := labelTable 0 program
  let size := program.body.length
  if labels.isEmpty then do
    checkTargets targeted size 0 program
    return program
  else resolveFrom targeted labels size 0 program

/-- Program text read and resolved for the standard instruction set. -/
def assemble (source : String) : Except ResolveError Program :=
  resolve InstructionSet.standard.addressMnemonics (Program.ofSource source)

end PseudoAsm
