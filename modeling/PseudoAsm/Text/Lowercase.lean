import PseudoAsm.Text.Case

/-!
# Lowercase text

The full lowercase mapping of texts.  It is the simple mapping character by character, with two
exceptions: `İ` becomes `i` followed by a combining dot, and a capital sigma becomes the final form
`ς` at the end of a word and `σ` elsewhere.

* `lowerChar` — the lowercase form of one character outside the sigma rule;
* `lowerFrom` — the mapping of a text whose left context is known;
* `lower` — the mapping of a string.
-/

namespace PseudoAsm.Text

/-- The lowercase form of a character; only `İ` has one of two characters. -/
def lowerChar (c : Char) : List Char :=
  if c = 'İ' then ['i', '\u0307'] else [Char.ofNat (lowerCode c.toNat)]

/-! ### Where a word ends -/

/-- Whether a cased character follows, case-ignorable characters aside. -/
def casedAhead (cs : List Char) : Bool :=
  match cs.dropWhile isCaseIgnorable with
  | [] => false
  | c :: _ => isCased c

/-- Whether, after reading `c`, the last character that is not case-ignorable is cased, given
whether it was before. -/
def casedBehind (before : Bool) (c : Char) : Bool :=
  if isCaseIgnorable c then before else isCased c

/-! ### Texts -/

/-- The lowercase form of a text, given whether a cased character precedes it.  A capital sigma is
final if a cased character precedes it and none follows it. -/
def lowerFrom (before : Bool) : List Char → List Char
  | [] => []
  | c :: rest =>
    (if c = 'Σ' then [if before && !casedAhead rest then 'ς' else 'σ'] else lowerChar c)
      ++ lowerFrom (casedBehind before c) rest

/-- The lowercase form of a whole text. -/
def lowerChars (cs : List Char) : List Char :=
  lowerFrom false cs

@[simp] theorem lowerChars_nil : lowerChars [] = [] := rfl

/-- The lowercase form of a string. -/
def lower (s : String) : String :=
  String.ofList (lowerChars s.toList)

@[simp] theorem toList_lower (s : String) : (lower s).toList = lowerChars s.toList :=
  String.toList_ofList

end PseudoAsm.Text
