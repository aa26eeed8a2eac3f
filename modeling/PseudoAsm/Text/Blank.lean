import PseudoAsm.Text.Ranges

/-!
# Blank characters and trimming

The property White_Space, and the removal of blank characters from the two ends of a text.

* `isBlank` — membership in White_Space, line breaks and the typographic spaces included;
* `trim` — a text without its leading and trailing blanks.
-/

namespace PseudoAsm.Text

/-- The stretches of the property White_Space, in ascending order. -/
def blankRanges : List (Nat × Nat) := [
  (0x9, 0xD), (0x20, 0x20), (0x85, 0x85), (0xA0, 0xA0), (0x1680, 0x1680), (0x2000, 0x200A),
  (0x2028, 0x2029), (0x202F, 0x202F), (0x205F, 0x205F), (0x3000, 0x3000)]

/-- Whether a character is white space. -/
def isBlank (c : Char) : Bool :=
  covers blankRanges c.toNat

/-- Every character that core calls white space is blank. -/
theorem isBlank_of_isWhitespace {c : Char} (h : c.isWhitespace = true) : isBlank c = true := by
  simp only [Char.isWhitespace, Bool.or_eq_true, decide_eq_true_eq] at h
  rcases h with ((rfl | rfl) | rfl) | rfl <;> decide

/-! ### Trimming -/

/-- A text without its leading blanks. -/
def trimStart (cs : List Char) : List Char :=
  cs.dropWhile isBlank

/-- A text without its trailing blanks. -/
def trimEnd (cs : List Char) : List Char :=
  (cs.reverse.dropWhile isBlank).reverse

/-- A text without its leading and trailing blanks. -/
def trimChars (cs : List Char) : List Char :=
  trimEnd (trimStart cs)

@[simp] theorem trimChars_nil : trimChars [] = [] := rfl

theorem trimStart_eq_self {cs : List Char} (h : ∀ c ∈ cs, isBlank c = false) :
    trimStart cs = cs := by
  cases cs with
  | nil => rfl
  | cons c rest =>
    have hc : isBlank c = false := h c List.mem_cons_self
    rw [trimStart, List.dropWhile_cons_of_neg (by rw [hc]; decide)]

/-- A text without blanks is left as it is. -/
theorem trimChars_eq_self {cs : List Char} (h : ∀ c ∈ cs, isBlank c = false) :
    trimChars cs = cs := by
  have hreverse : ∀ c ∈ cs.reverse, isBlank c = false := by
    intro c hc
    exact h c (List.mem_reverse.1 hc)
  rw [trimChars, trimStart_eq_self h, trimEnd, ← trimStart, trimStart_eq_self hreverse,
    List.reverse_reverse]

/-- A string without its leading and trailing blanks. -/
def trim (s : String) : String :=
  String.ofList (trimChars s.toList)

@[simp] theorem toList_trim (s : String) : (trim s).toList = trimChars s.toList :=
  String.toList_ofList

end PseudoAsm.Text
