import PseudoAsm.Proofs.Machine.Reading

/-!
# What a token stands for

A token in the place of a value is a numeral, the name of a register, or neither, and never two of
these at once.  An instruction takes nothing from such a token but its value.

* `Numeral.isDigit_or_sign_of_int32?` — the characters of a numeral;
* `int32?_eq_none_of_isIdentifier` — **an identifier is never taken for a numeral**;
* `value_of_isIdentifier`, `value_of_not_identifier` — the value of a token of either kind;
* `Operation.evaluates`, `Instruction.withParam` — the parameters that are read as values, and an
  instruction with another parameter;
* `effect_withParam` — **a token may stand in for another of the same value**.
-/

namespace PseudoAsm

/-! ### Numerals and names -/

theorem Numeral.all_isDigit_of_digits? {cs : List Char} {n : Nat} (h : digits? cs = some n) :
    ∀ c ∈ cs, c.isDigit = true := by
  unfold digits? at h
  split at h
  · cases h
  · next hdigits =>
    rw [Bool.or_eq_true, not_or, Bool.not_eq_true', Bool.not_eq_false] at hdigits
    exact List.all_eq_true.1 hdigits.2

/-- Nothing but digits and signs is part of a signed numeral. -/
theorem Numeral.isDigit_or_sign_of_int32? {text : String} {value : Int32}
    (h : int32? text = some value) :
    ∀ c ∈ text.toList, c.isDigit = true ∨ c = '+' ∨ c = '-' := by
  unfold int32? at h
  split at h
  · next rest hchars =>
    obtain ⟨n, hn, -⟩ := Option.bind_eq_some_iff.1 h
    rw [hchars, List.forall_mem_cons]
    exact ⟨.inr (.inr rfl), fun c hc => .inl (all_isDigit_of_digits? hn c hc)⟩
  · obtain ⟨n, hn, -⟩ := Option.map_eq_some_iff.1 h
    obtain ⟨hdigits, -⟩ := Option.filter_eq_some_iff.1 hn
    have hrest := all_isDigit_of_digits? hdigits
    unfold dropPlus at hrest
    split at hrest
    · next rest hchars =>
      rw [hchars, List.forall_mem_cons]
      exact ⟨.inr (.inl rfl), fun c hc => .inl (hrest c hc)⟩
    · exact fun c hc => .inl (hrest c hc)

/-- An identifier starts with no digit and no sign, so it is never taken for a numeral. -/
theorem int32?_eq_none_of_isIdentifier {token : String} (h : isIdentifier token = true) :
    Numeral.int32? token = none := by
  unfold isIdentifier at h
  cases hchars : token.toList with
  | nil =>
    rw [hchars] at h
    cases h
  | cons first rest =>
    rw [hchars, Bool.and_eq_true, Bool.or_eq_true] at h
    -- digits and signs come before all letters and the underscore
    have hletter : 'A'.toNat ≤ first.toNat := by
      rcases h.1 with halphabetic | hunderscore
      · rw [Text.isAlphabetic, Text.alphabeticRanges, Text.covers_cons,
          Bool.and_eq_true] at halphabetic
        exact of_decide_eq_true halphabetic.1
      · rw [eq_of_beq hunderscore]
        decide
    have hbefore {c : Char} (hc : c.toNat < 'A'.toNat) : first ≠ c := by
      rintro rfl
      exact absurd hletter (Nat.not_le.2 hc)
    have hdigit : first.isDigit = false := by
      rw [Bool.eq_false_iff, Ne, Char.isDigit_iff_toNat]
      rintro ⟨-, hle⟩
      exact absurd (Nat.le_trans hletter hle) (by decide)
    have hdigits : Numeral.digits? (first :: rest) = none := by
      rw [Numeral.digits?, List.all_cons, hdigit, Bool.false_and, Bool.not_false, Bool.or_true,
        if_pos rfl]
    have hplus : Numeral.dropPlus (first :: rest) = first :: rest := by
      unfold Numeral.dropPlus
      split
      · next heq => exact absurd (List.cons.inj heq).1 (hbefore (by decide))
      · rfl
    unfold Numeral.int32?
    rw [hchars]
    split
    · next heq => exact absurd (List.cons.inj heq).1 (hbefore (by decide))
    · rw [Numeral.natBelow?, hplus, hdigits]
      rfl

variable {ins : Instruction} {op : Operation} {m : Machine} {index : Nat} {token name : String}

theorem operand_of_isIdentifier (hname : isIdentifier name = true)
    (hparam : ins.param? index = some name) : operand ins op index = .ok name := by
  refine operand_of_ne_empty ?_ hparam
  rintro rfl
  cases hname

/-- A name that was written stands for the value of its register. -/
theorem value_of_isIdentifier {value : Int32} (hname : isIdentifier name = true)
    (hvalue : m.registers.get? name = some value) : m.value name = .ok value := by
  simp only [Machine.value, int32?_eq_none_of_isIdentifier hname, if_pos hname, RegisterFile.read,
    hvalue]

/-- What is no numeral and no name stands for nothing, whatever the registers hold. -/
theorem value_of_not_identifier (hnumeral : Numeral.int32? token = none)
    (hname : isIdentifier token = false) (m : Machine) :
    m.value token = .error (.malformedNumericLiteral token) := by
  simp [Machine.value, hnumeral, hname]

/-- Nothing has a value unless something is written. -/
theorem ne_empty_of_value {value : Int32} (h : m.value token = .ok value) : token ≠ "" := by
  rintro rfl
  rw [value_of_not_identifier rfl rfl] at h
  cases h

/-! ### Tokens of the same value -/

/-- Whether an operation reads the parameter at a position as a value. -/
def Operation.evaluates (op : Operation) (index : Nat) : Bool :=
  match op with
  | .mov | .add | .sub | .mul | .div => index == 1
  | .cmp | .jnz => index == 0 || index == 1
  | .inc | .dec | .jmp | .je | .jne | .jg | .jge | .jl | .jle | .call | .ret | .msg | .stop => false

/-- An instruction with another parameter at a position where it has one. -/
def Instruction.withParam (ins : Instruction) (index : Nat) (token : String) : Instruction where
  name := ins.name
  params := ins.params.set index token

theorem operand_withParam_of_ne {other : Nat} (h : other ≠ index) :
    operand (ins.withParam index token) op other = operand ins op other := by
  have hparam : (ins.withParam index token).param? other = ins.param? other := by
    simp [Instruction.param?, Instruction.withParam, Ne.symm h]
  rw [operand, operand, hparam]

/-- **An instruction takes nothing but their values from the tokens that it reads as values**: a
token may stand in for another of the same value. -/
theorem effect_withParam {value : Int32} (hop : op.evaluates index = true)
    (hparam : ins.param? index = some token) (hvalue : m.value token = .ok value)
    (hname : m.value name = .ok value) :
    effect (ins.withParam index name) op m = effect ins op m := by
  have hlt : index < ins.params.length := (List.getElem?_eq_some_iff.1 hparam).1
  have hset : (ins.withParam index name).param? index = some name := by
    simp [Instruction.param?, Instruction.withParam, hlt]
  -- every value is read alike, the one at the position and any other
  have hread {α : Type} (other : Nat) (k : Int32 → Except Trap α) :
      (operand (ins.withParam index name) op other >>= fun found => m.value found >>= k)
        = operand ins op other >>= fun found => m.value found >>= k := by
    by_cases heq : other = index
    · rw [heq, operand_of_ne_empty (ne_empty_of_value hname) hset,
        operand_of_ne_empty (ne_empty_of_value hvalue) hparam]
      show m.value name >>= k = m.value token >>= k
      rw [hvalue, hname]
    · rw [operand_withParam_of_ne heq]
  have hcombined (f : Int32 → Int32 → Except Trap Int32) (hindex : index = 1) :
      combined (ins.withParam index name) op m f = combined ins op m f := by
    have hother : operand (ins.withParam index name) op 0 = operand ins op 0 :=
      operand_withParam_of_ne (by omega)
    simp only [combined, hread 1, adjusted, hother]
  cases op with
  | mov =>
    have hother : operand (ins.withParam index name) .mov 0 = operand ins .mov 0 :=
      operand_withParam_of_ne (by simp [Operation.evaluates] at hop; omega)
    simp only [effect, hother, hread 1]
  | add | sub | mul | div => exact hcombined _ (by simpa [Operation.evaluates] using hop)
  | cmp => simp only [effect, hread]
  | jnz =>
    simp only [effect, hread 0]
    apply bind_congr
    intro first
    apply bind_congr
    intro x
    split
    · rfl
    · exact hread 1 _
  | inc | dec | jmp | je | jne | jg | jge | jl | jle | call | ret | msg | stop => cases hop

end PseudoAsm
