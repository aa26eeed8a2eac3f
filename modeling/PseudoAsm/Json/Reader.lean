import PseudoAsm.Text.Numeral

/-!
# Reading JSON

The tokens of JSON text, read from the front of a list of characters.  Every reader returns what
follows the token, or nothing on text that is no JSON.

* `stringPieces?`, `decodePieces?` — string literals, cut up and decoded;
* `skipNumber?`, `skipValue?` — step over a number and over any value;
* `natural?` — an unsigned 64-bit number.
-/

namespace PseudoAsm.Json

/-! ### Blanks and literals -/

/-- The blanks that JSON allows between tokens. -/
def isSpace (c : Char) : Bool :=
  c == ' ' || c == '\t' || c == '\n' || c == '\r'

/-- Text without its leading blanks. -/
def skipSpace (cs : List Char) : List Char :=
  cs.dropWhile isSpace

/-- What follows a fixed word. -/
def skipWord? (word : String) (cs : List Char) : Option (List Char) :=
  if word.toList.isPrefixOf cs then some (cs.drop word.length) else none

/-! ### String literals -/

/-- A piece of a string literal: a character, or a UTF-16 unit that is written as a number. -/
inductive StringPiece where
  | char (c : Char)
  | unit (n : Nat)
deriving DecidableEq, Repr

/-- The character that an escape of one letter stands for. -/
def escape? : Char → Option Char
  | '"' => some '"'
  | '\\' => some '\\'
  | '/' => some '/'
  | 'b' => some '\x08'
  | 'f' => some '\x0c'
  | 'n' => some '\n'
  | 'r' => some '\r'
  | 't' => some '\t'
  | _ => none

/-- The pieces of a string literal whose opening quote has been read, and what follows it. -/
def stringPieces? : List Char → Option (List StringPiece × List Char)
  | [] => none
  | '"' :: rest => some ([], rest)
  | '\\' :: 'u' :: a :: b :: c :: d :: rest => do
    let n ← Numeral.hexDigits? [a, b, c, d]
    let (pieces, after) ← stringPieces? rest
    return (.unit n :: pieces, after)
  | '\\' :: c :: rest => do
    let e ← escape? c
    let (pieces, after) ← stringPieces? rest
    return (.char e :: pieces, after)
  | c :: rest =>
    if c.toNat < 0x20 then none
    else do
      let (pieces, after) ← stringPieces? rest
      return (.char c :: pieces, after)

/-- Whether a UTF-16 unit is the first of a pair. -/
def isLeading (n : Nat) : Bool := 0xD800 ≤ n && n < 0xDC00

/-- Whether a UTF-16 unit is the second of a pair. -/
def isTrailing (n : Nat) : Bool := 0xDC00 ≤ n && n < 0xE000

/-- The characters of a string literal; none if a unit of a pair stands without its partner. -/
def decodePieces? : List StringPiece → Option (List Char)
  | [] => some []
  | .char c :: rest => (decodePieces? rest).map (c :: ·)
  | .unit n :: rest =>
    if isTrailing n then none
    else if isLeading n then
      match rest with
      | .unit m :: rest =>
        if isTrailing m then
          (decodePieces? rest).map
            (Char.ofNat (0x10000 + (n - 0xD800) * 1024 + (m - 0xDC00)) :: ·)
        else none
      | _ => none
    else (decodePieces? rest).map (Char.ofNat n :: ·)

/-! ### Numbers -/

/-- What follows at least one digit. -/
def skipDigits? (cs : List Char) : Option (List Char) :=
  match cs with
  | [] => none
  | c :: rest => if c.isDigit then some (rest.dropWhile Char.isDigit) else none

/-- What follows the whole part of a number: a lone zero, or digits that do not start with one. -/
def skipWhole? (cs : List Char) : Option (List Char) :=
  match cs with
  | '0' :: c :: rest => if c.isDigit then none else some (c :: rest)
  | cs => skipDigits? cs

/-- What follows an optional fraction. -/
def skipFraction? : List Char → Option (List Char)
  | '.' :: rest => skipDigits? rest
  | cs => some cs

/-- What follows an optional exponent. -/
def skipExponent? : List Char → Option (List Char)
  | c :: rest =>
    if c = 'e' ∨ c = 'E' then
      match rest with
      | '+' :: digits => skipDigits? digits
      | '-' :: digits => skipDigits? digits
      | digits => skipDigits? digits
    else some (c :: rest)
  | [] => some []

/-- What follows a number. -/
def skipNumber? (cs : List Char) : Option (List Char) := do
  let whole := match cs with
    | '-' :: rest => rest
    | cs => cs
  skipExponent? (← skipFraction? (← skipWhole? whole))

/-- The value of an unsigned 64-bit whole number without sign, and what follows its digits. -/
def natural? (cs : List Char) : Option (Nat × List Char) := do
  let after ← skipWhole? cs
  let n ← Numeral.natBelow? Numeral.nat64Bound (cs.takeWhile Char.isDigit)
  return (n, after)

/-! ### Any value -/

mutual

/-- What follows a value.  The first argument bounds the number of tokens. -/
def skipValue? : Nat → List Char → Option (List Char)
  | 0, _ => none
  | n + 1, cs =>
    match skipSpace cs with
    | '"' :: rest => (stringPieces? rest).map Prod.snd
    | '[' :: rest =>
      match skipSpace rest with
      | ']' :: after => some after
      | items => skipItems? n items
    | '\x7b' :: rest =>
      match skipSpace rest with
      | '\x7d' :: after => some after
      | members => skipMembers? n members
    | 'n' :: rest => skipWord? "ull" rest
    | 't' :: rest => skipWord? "rue" rest
    | 'f' :: rest => skipWord? "alse" rest
    | cs => skipNumber? cs

/-- What follows the items of a list and its closing bracket. -/
def skipItems? : Nat → List Char → Option (List Char)
  | 0, _ => none
  | n + 1, cs => do
    match skipSpace (← skipValue? n cs) with
    | ',' :: rest => skipItems? n rest
    | ']' :: after => some after
    | _ => none

/-- What follows the members of an object and its closing brace. -/
def skipMembers? : Nat → List Char → Option (List Char)
  | 0, _ => none
  | n + 1, cs =>
    match skipSpace cs with
    | '"' :: rest => do
      let (_, after) ← stringPieces? rest
      match skipSpace after with
      | ':' :: value =>
        match skipSpace (← skipValue? n value) with
        | ',' :: rest => skipMembers? n rest
        | '\x7d' :: after => some after
        | _ => none
      | _ => none
    | _ => none

end

/-- What follows a value; every token has a character, so the text bounds their number. -/
def skipAny? (cs : List Char) : Option (List Char) :=
  skipValue? (2 * cs.length + 2) cs

end PseudoAsm.Json
