import PseudoAsm.Instruction

/-!
# The line grammar

Program text holds one instruction a line.  The name ends at the first blank; commas separate the
parameters; a text between apostrophes may hold blanks, commas, colons and semicolons; a semicolon
outside such a text starts a comment; and a colon in the name field makes the line a label
definition and ends it.  Reading never fails: a line without a field yields no instruction, and an
unknown name is left to whoever executes it.

* `scanParams` — cuts the rest of a line into parameter fields;
* `scanLine` — cuts a trimmed line into its fields;
* `Instruction.ofLine?` — the instruction on a line;
* `Program.ofSource` — the instructions of a whole text.
-/

namespace PseudoAsm

/-! ### Cutting a line into fields -/

/-- The field that a reversed buffer holds when a line ends; an empty one is no field. -/
def lastField (buffer : List Char) : List (List Char) :=
  if buffer.isEmpty then [] else [buffer.reverse]

/-- The parameter fields in the rest of a line.  `quoted` tells whether an apostrophe is open, and
`buffer` holds the current field in reverse.  Outside apostrophes blanks and colons are dropped. -/
def scanParams (quoted : Bool) (buffer : List Char) : List Char → List (List Char)
  | [] => lastField buffer
  | c :: rest =>
    if c = '\'' then scanParams (!quoted) (c :: buffer) rest
    else if quoted then scanParams quoted (c :: buffer) rest
    else if c = ';' then lastField buffer
    else if c = ',' then buffer.reverse :: scanParams quoted [] rest
    else if c = ':' || Text.isBlank c then scanParams quoted buffer rest
    else scanParams quoted (c :: buffer) rest

/-- The fields of a trimmed line, the name first.  A blank or a colon ends the name even after an
apostrophe; a comma or a semicolon does so only outside apostrophes. -/
def scanLine (quoted : Bool) (buffer : List Char) : List Char → List (List Char)
  | [] => lastField buffer
  | c :: rest =>
    if c = '\'' then scanLine (!quoted) (c :: buffer) rest
    else if c = ':' then [(c :: buffer).reverse]
    else if Text.isBlank c || (c = ',' && !quoted) then buffer.reverse :: scanParams quoted [] rest
    else if c = ';' && !quoted then lastField buffer
    else scanLine quoted (c :: buffer) rest

/-! ### Lines and texts -/

/-- The instruction that a line of characters holds. -/
def Instruction.ofChars? (line : List Char) : Option Instruction :=
  match scanLine false [] (Text.trimChars line) with
  | [] => none
  | name :: params => some (.normalized (String.ofList name) (params.map String.ofList))

/-- The instruction on a line; none on a blank line or one with only a comment. -/
def Instruction.ofLine? (line : String) : Option Instruction :=
  Instruction.ofChars? line.toList

/-- The instructions of a text, line by line. -/
def Program.ofSource (source : String) : Program :=
  (source.toList.splitOn '\n').filterMap Instruction.ofChars?

@[simp] theorem Instruction.ofChars?_nil : Instruction.ofChars? [] = none := rfl

end PseudoAsm
