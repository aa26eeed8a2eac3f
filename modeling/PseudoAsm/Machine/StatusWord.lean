import PseudoAsm.Text.Blank
import PseudoAsm.Text.Numeral

/-!
# The status word

The machine's comparison flags.  Bit 0 (`Z`) tells that the last comparison found equal values and
bit 1 (`N`) that it found the first smaller.  The other six bits of the byte mean nothing to the
machine and are only kept as they are.

* `StatusWord.ofOrdering` — the word that a comparison leaves;
* `StatusWord.sign` — the comparison read back as -1, 0 or 1;
* `StatusWord.text`, `StatusWord.ofText?` — the written form: names of set bits joined by bars.
-/

namespace PseudoAsm

/-- The two comparison flags and the unused bits. -/
structure StatusWord where
  zero : Bool := false
  negative : Bool := false
  spare : Fin 64 := 0
deriving DecidableEq, Repr, Inhabited

namespace StatusWord

/-- The word that a comparison leaves. -/
def ofOrdering : Ordering → StatusWord
  | .lt => ⟨false, true, 0⟩
  | .eq => ⟨true, false, 0⟩
  | .gt => ⟨false, false, 0⟩

/-- The word of a machine that has compared nothing yet: as after equal values. -/
def initial : StatusWord :=
  ofOrdering .eq

/-- The comparison as -1, 0 or 1; `Z` prevails if both flags are set. -/
def sign (word : StatusWord) : Int :=
  if word.zero then 0 else if word.negative then -1 else 1

@[simp] theorem sign_ofOrdering (o : Ordering) :
    (ofOrdering o).sign = match o with | .lt => -1 | .eq => 0 | .gt => 1 := by
  cases o <;> rfl

/-! ### The word as a number -/

/-- The word with the given bits, `Z` the lowest. -/
def ofBits (bits : Nat) : StatusWord :=
  ⟨bits % 2 == 1, bits / 2 % 2 == 1, Fin.ofNat 64 (bits / 4)⟩

/-- The bits of the word as a number. -/
def bits (word : StatusWord) : Nat :=
  word.zero.toNat + 2 * word.negative.toNat + 4 * word.spare.val

theorem ofBits_bits (word : StatusWord) : ofBits word.bits = word := by
  obtain ⟨zero, negative, spare, hspare⟩ := word
  cases zero <;> cases negative <;>
    · simp only [ofBits, bits, Bool.toNat_false, Bool.toNat_true, Fin.ofNat]
      congr 1
      · simp only [beq_iff_eq, beq_eq_false_iff_ne]; omega
      · simp only [beq_iff_eq, beq_eq_false_iff_ne]; omega
      · exact Fin.ext (by simp only; omega)

/-- All bits that are set in one of two words. -/
def union (a b : StatusWord) : StatusWord :=
  ofBits (a.bits ||| b.bits)

/-! ### Written form -/

/-- The names of the set flags, and the unused bits, if any is set, as one hexadecimal number. -/
def names (word : StatusWord) : List String :=
  (if word.zero then ["Z"] else []) ++ (if word.negative then ["N"] else [])
    ++ (if word.spare = 0 then []
        else ["0x" ++ String.ofList (Nat.toDigits 16 (4 * word.spare.val))])

/-- The set bits by name, joined by bars. -/
def text (word : StatusWord) : String :=
  String.intercalate " | " word.names

/-- The word that one name stands for: a flag, or `0x` and a hexadecimal byte. -/
def ofName? : List Char → Option StatusWord
  | ['Z'] => some ⟨true, false, 0⟩
  | ['N'] => some ⟨false, true, 0⟩
  | '0' :: 'x' :: digits => (Numeral.hexByte? digits).map ofBits
  | _ => none

/-- The word that a text stands for.  Names may be surrounded by blanks, come in any order and be
repeated; a text of blanks alone is the empty word, and a name between bars must not be missing. -/
def ofText? (text : String) : Option StatusWord :=
  match Text.trimChars text.toList with
  | [] => some {}
  | cs => ((cs.splitOn '|').mapM fun name => ofName? (Text.trimChars name)).map
      fun words => words.foldl union {}

end StatusWord

end PseudoAsm
