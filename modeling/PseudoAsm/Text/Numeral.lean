/-!
# Decimal numerals

The readers of decimal numerals.  A numeral is an optional sign and at least one ASCII digit;
leading zeros are allowed, and a value out of range is no numeral at all.

* `nat64?` — unsigned 64-bit numerals: addresses and step limits;
* `int32?` — signed 32-bit numerals: register values and relative offsets;
* `hexByte?` — one byte in hexadecimal digits.
-/

namespace PseudoAsm.Numeral

/-- The number of unsigned 64-bit values. -/
def nat64Bound : Nat := 0x10000000000000000

/-- The number of negative signed 32-bit values, one more than the greatest of them. -/
def int32Bound : Nat := 0x80000000

/-- The value of a non-empty run of digits. -/
def digits? (cs : List Char) : Option Nat :=
  if cs.isEmpty || !cs.all Char.isDigit then none else some (Nat.ofDigitChars 10 cs 0)

theorem all_isDigit_toDigits (n : Nat) : (Nat.toDigits 10 n).all Char.isDigit = true :=
  List.all_eq_true.2 fun c hc => Nat.isDigit_of_mem_toDigits (by decide) (by decide) hc

theorem digits?_toDigits (n : Nat) : digits? (Nat.toDigits 10 n) = some n := by
  have hne : (Nat.toDigits 10 n).isEmpty = false := by
    simp only [List.isEmpty_eq_false_iff, ne_eq, Nat.toDigits_ne_nil, not_false_eq_true]
  simp only [digits?, all_isDigit_toDigits, hne, Bool.not_true, Bool.or_self, Bool.false_eq_true, if_false,
    Nat.ofDigitChars_toDigits (by decide : 1 < 10) (by decide : 10 ≤ 10)]

/-! ### Unsigned numerals -/

/-- The characters of a numeral after an optional plus sign. -/
def dropPlus : List Char → List Char
  | '+' :: rest => rest
  | cs => cs

/-- The value of an unsigned numeral below a bound. -/
def natBelow? (bound : Nat) (cs : List Char) : Option Nat :=
  (digits? (dropPlus cs)).filter fun n => decide (n < bound)

/-- The value of an unsigned 64-bit numeral, with an optional plus sign. -/
def nat64? (text : String) : Option Nat :=
  natBelow? nat64Bound text.toList

theorem dropPlus_eq_self {cs : List Char} (h : cs.head? ≠ some '+') : dropPlus cs = cs := by
  unfold dropPlus
  split
  · exact absurd rfl h
  · rfl

theorem dropPlus_of_all_isDigit {cs : List Char} (h : cs.all Char.isDigit = true) :
    dropPlus cs = cs := by
  refine dropPlus_eq_self ?_
  intro hhead
  have hplus : Char.isDigit '+' = true := List.all_eq_true.1 h '+' (List.mem_of_head? hhead)
  exact absurd hplus (by decide)

/-- The decimal text of a number in range reads back. -/
theorem natBelow?_toDigits {bound n : Nat} (h : n < bound) :
    natBelow? bound (Nat.toDigits 10 n) = some n := by
  simp only [natBelow?, dropPlus_of_all_isDigit (all_isDigit_toDigits n), digits?_toDigits,
    Option.filter_some, h, decide_true, if_true]

theorem nat64?_toString {n : Nat} (h : n < nat64Bound) : nat64? (toString n) = some n := by
  simp only [nat64?, Nat.toString_eq_ofList_toDigits, String.toList_ofList, natBelow?_toDigits h]

/-- An empty text is no numeral. -/
theorem isEmpty_of_nat64? {text : String} {n : Nat} (h : nat64? text = some n) :
    text.isEmpty = false := by
  cases hempty : text.isEmpty with
  | false => rfl
  | true =>
    rw [String.isEmpty_iff] at hempty
    rw [hempty, show nat64? "" = none from rfl] at h
    cases h

/-! ### Signed numerals -/

/-- The value of a signed 32-bit numeral, with an optional sign. -/
def int32? (text : String) : Option Int32 :=
  match text.toList with
  | '-' :: rest =>
    (digits? rest).bind fun n => if n ≤ int32Bound then some (Int32.ofInt (-(n : Int))) else none
  | cs => (natBelow? int32Bound cs).map fun n => Int32.ofNat n

/-- Without a minus sign a signed numeral is read like an unsigned one. -/
theorem int32?_of_not_minus {text : String} (h : text.toList.head? ≠ some '-') :
    int32? text = (natBelow? int32Bound text.toList).map Int32.ofNat := by
  unfold int32?
  split
  · next rest hchars =>
    rw [hchars] at h
    exact absurd rfl h
  · rfl

/-! ### Hexadecimal numerals -/

/-- The value of a hexadecimal digit of either letter case. -/
def hexDigit? (c : Char) : Option Nat :=
  if '0' ≤ c ∧ c ≤ '9' then some (c.toNat - '0'.toNat)
  else if 'a' ≤ c ∧ c ≤ 'f' then some (c.toNat - 'a'.toNat + 10)
  else if 'A' ≤ c ∧ c ≤ 'F' then some (c.toNat - 'A'.toNat + 10)
  else none

/-- The value of a run of hexadecimal digits. -/
def hexDigits? (cs : List Char) : Option Nat :=
  (cs.mapM hexDigit?).map fun ds => ds.foldl (fun n d => 16 * n + d) 0

/-- The value of at least one hexadecimal digit, with an optional plus sign, below 256. -/
def hexByte? (cs : List Char) : Option Nat :=
  match dropPlus cs with
  | [] => none
  | digits => (hexDigits? digits).filter fun n => decide (n < 256)

end PseudoAsm.Numeral
