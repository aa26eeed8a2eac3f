/-!
# Writing JSON

JSON values and their two written forms: compact, without any blank, and pretty, with one element
or member a line, indented by two blanks per level.

* `Json.Value` — the values that the reports are made of;
* `Json.quoted` — a string literal;
* `Json.Value.pretty` — the pretty form.
-/

namespace PseudoAsm.Json

/-- A JSON value with natural numbers only. -/
inductive Value where
  | null
  | bool (value : Bool)
  | number (value : Nat)
  | text (value : String)
  | list (items : List Value)
  | object (members : List (String × Value))
deriving Inhabited

/-! ### String literals -/

/-- A number below 256 in two hexadecimal digits. -/
def hexPair (n : Nat) : List Char :=
  [Nat.digitChar (n / 16), Nat.digitChar (n % 16)]

/-- A character of a string literal: quotes, backslashes and control characters are escaped, those
with a name by it. -/
def escaped (c : Char) : List Char :=
  match c with
  | '"' => ['\\', '"']
  | '\\' => ['\\', '\\']
  | '\x08' => ['\\', 'b']
  | '\x0c' => ['\\', 'f']
  | '\n' => ['\\', 'n']
  | '\r' => ['\\', 'r']
  | '\t' => ['\\', 't']
  | c => if c.toNat < 0x20 then ['\\', 'u', '0', '0'] ++ hexPair c.toNat else [c]

/-- A string literal. -/
def quoted (s : String) : String :=
  String.ofList ('"' :: s.toList.flatMap escaped ++ ['"'])

/-! ### The pretty form -/

/-- A new line indented to a level. -/
def newLine (level : Nat) : String :=
  "\n" ++ String.ofList (List.replicate (2 * level) ' ')

mutual

/-- The pieces of a value's pretty form at a level. -/
def Value.pieces (level : Nat) : Value → List String
  | .null => ["null"]
  | .bool value => [if value then "true" else "false"]
  | .number value => [toString value]
  | .text value => [quoted value]
  | .list [] => ["[]"]
  | .list (item :: rest) =>
    "[" :: newLine (level + 1) :: item.pieces (level + 1) ++ itemPieces (level + 1) rest
      ++ [newLine level, "]"]
  | .object [] => ["\x7b\x7d"]
  | .object ((key, value) :: rest) =>
    "\x7b" :: newLine (level + 1) :: quoted key :: ": " :: value.pieces (level + 1)
      ++ memberPieces (level + 1) rest ++ [newLine level, "\x7d"]

/-- The pieces of the items after the first. -/
def itemPieces (level : Nat) : List Value → List String
  | [] => []
  | item :: rest => "," :: newLine level :: item.pieces level ++ itemPieces level rest

/-- The pieces of the members after the first. -/
def memberPieces (level : Nat) : List (String × Value) → List String
  | [] => []
  | (key, value) :: rest =>
    "," :: newLine level :: quoted key :: ": " :: value.pieces level ++ memberPieces level rest

end

/-- The pretty form of a value. -/
def Value.pretty (value : Value) : String :=
  String.join (value.pieces 0)

end PseudoAsm.Json
