import PseudoAsm.Json.Reader
import PseudoAsm.Machine.Basic

/-!
# Settings as JSON

Settings are written as an object with the member `max_steps`, a number or null.  They are read
from such an object, whose other members are skipped, or from a list that holds just the value.

* `Settings.text` — the compact written form;
* `Settings.ofText?` — the settings in a text.
-/

namespace PseudoAsm

namespace Settings

/-- The compact written form. -/
def text (settings : Settings) : String :=
  "\x7b\"max_steps\":" ++ (match settings.maxSteps with
    | some limit => toString limit
    | none => "null") ++ "\x7d"

/-! ### Reading -/

/-- A step limit, and what follows it; null stands for no limit. -/
def limit? (cs : List Char) : Option (Option Nat × List Char) :=
  match Json.skipSpace cs with
  | 'n' :: rest => (Json.skipWord? "ull" rest).map fun after => (none, after)
  | cs => (Json.natural? cs).map fun (limit, after) => (some limit, after)

/-- The step limit after reading the value of a member, and what follows the value.  `found` is the
limit if an earlier member gave one; a second is refused. -/
def member? (key : List Char) (found : Option (Option Nat)) (value : List Char) :
    Option (Option (Option Nat) × List Char) :=
  if key = "max_steps".toList then
    if found.isSome then none
    else (limit? value).map fun (limit, after) => (some limit, after)
  else (Json.skipAny? value).map fun after => (found, after)

/-- The step limit among the members of an object, the first of which begins the text, and what
follows the closing brace.  The first argument bounds the number of members. -/
def members? : Nat → Option (Option Nat) → List Char → Option (Option (Option Nat) × List Char)
  | 0, _, _ => none
  | n + 1, found, cs => do
    match Json.skipSpace cs with
    | '"' :: rest =>
      let (pieces, afterKey) ← Json.stringPieces? rest
      let key ← Json.decodePieces? pieces
      match Json.skipSpace afterKey with
      | ':' :: value =>
        let (found, after) ← member? key found value
        match Json.skipSpace after with
        | ',' :: rest => members? n found rest
        | '\x7d' :: after => some (found, after)
        | _ => none
      | _ => none
    | _ => none

/-- The step limit in an object or a list of one value, and what follows. -/
def document? (cs : List Char) : Option (Option Nat × List Char) :=
  match Json.skipSpace cs with
  | '\x7b' :: rest =>
    match Json.skipSpace rest with
    | '\x7d' :: after => some (none, after)
    | members => (members? members.length none members).map fun (found, after) =>
      (found.getD none, after)
  | '[' :: rest => do
    let (limit, after) ← limit? rest
    match Json.skipSpace after with
    | ']' :: after => some (limit, after)
    | _ => none
  | _ => none

/-- The settings in a text that holds nothing else but blanks. -/
def ofText? (text : String) : Option Settings := do
  let (limit, after) ← document? text.toList
  if (Json.skipSpace after).isEmpty then some { maxSteps := limit } else none

end Settings

end PseudoAsm
