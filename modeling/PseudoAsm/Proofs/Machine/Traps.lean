import PseudoAsm.Proofs.Machine.Reading

/-!
# Which traps an instruction can raise

Every operation can miss an operand and fail to read one.  Beyond that a division can divide by
zero, a return can find no call, and a relative jump can leave the program at its front; nothing
else ever fails, and each trap names the operation or the address that raises it.

* `Raises` — a computation fails with traps of one kind only;
* `Diagnosis` — what a trap finds wrong with an instruction, or with the machine;
* `effect_diagnosis` — **an instruction raises a trap only if that is so**;
* `Operation.MayRaise`, `effect_raises` — the traps that an operation at an address can raise.
-/

namespace PseudoAsm

/-! ### Computations that fail in one way only -/

/-- A computation fails, if it does, with a trap of a kind. -/
def Raises {α : Type} (kind : Trap → Prop) (e : Except Trap α) : Prop :=
  ∀ trap, e = .error trap → kind trap

namespace Raises

variable {α β : Type} {kind : Trap → Prop} {e : Except Trap α}

theorem ok (x : α) : Raises kind (.ok x) := by
  intro trap h
  cases h

theorem error {trap : Trap} (h : kind trap) : Raises kind (.error trap : Except Trap α) := by
  intro other hother
  cases hother
  exact h

/-- The second part of a sequence may count on the first having succeeded. -/
theorem bind_of_ok {f : α → Except Trap β} (he : Raises kind e)
    (hf : ∀ x, e = .ok x → Raises kind (f x)) : Raises kind (e >>= f) := by
  intro trap h
  cases e with
  | error raised => exact he trap (by cases h; rfl)
  | ok x => exact hf x rfl trap h

theorem bind {f : α → Except Trap β} (he : Raises kind e) (hf : ∀ x, Raises kind (f x)) :
    Raises kind (e >>= f) :=
  he.bind_of_ok fun x _ => hf x

theorem map (he : Raises kind e) (f : α → β) : Raises kind (e.map f) := by
  intro trap h
  cases e with
  | error raised => exact he trap (by cases h; rfl)
  | ok x => cases h

end Raises

/-! ### What is wrong -/

/-- An operand is missing if its parameter is absent or empty. -/
def Instruction.Lacks (ins : Instruction) (index : Nat) : Prop :=
  ins.param? index = none ∨ ins.param? index = some ""

/-- A parameter that an operation cannot use: a jump target that is no address, or a value that is
neither a numeral nor a register name. -/
def Instruction.Misstates (ins : Instruction) (op : Operation) (literal : String) : Prop :=
  match op.operands with
  | .address => ins.param? 0 = some literal ∧ Numeral.nat64? literal = none
  | _ => literal ∈ ins.params ∧ Numeral.int32? literal = none ∧ isIdentifier literal = false

/-- What a trap finds wrong with an instruction, or with the machine that executes it under an
operation. -/
def Diagnosis (ins : Instruction) (op : Operation) (m : Machine) : Trap → Prop
  | .missingOperand other index => other = op ∧ ins.Lacks index
  | .unknownRegister name =>
    (∃ token ∈ ins.registersRead op m, name = RegisterFile.key token) ∧ name ∉ m.registers.names
  | .malformedNumericLiteral literal => ins.Misstates op literal
  | .divisionByZero place => op = .div ∧ place = m.ip
    ∧ (∃ first, ins.param? 0 = some first ∧ RegisterFile.key first ∈ m.registers.names)
    ∧ ∃ second, ins.param? 1 = some second ∧ m.value second = .ok 0
  | .addressOutOfRange source target => op = .jnz ∧ source = m.ip
    ∧ (∃ first x, ins.param? 0 = some first ∧ m.value first = .ok x ∧ x ≠ 0)
    ∧ ∃ second offset, ins.param? 1 = some second ∧ m.value second = .ok offset
      ∧ target = m.ip + offset.toInt ∧ target < 0
  | .callStackUnderflow place => op = .ret ∧ place = m.ip ∧ m.callStack = []
  | .unknownInstruction _ _ | .stepLimit _ => False

variable {ins : Instruction} {op : Operation} {m : Machine} {index : Nat} {token : String}

theorem operand_raises (index : Nat) : Raises (Diagnosis ins op m) (operand ins op index) := by
  unfold operand
  split
  · next hnone => exact .error ⟨rfl, .inl hnone⟩
  · next token hparam =>
    split
    · next hempty =>
      rw [String.isEmpty_iff] at hempty
      exact .error ⟨rfl, .inr (hempty ▸ hparam)⟩
    · exact .ok _

theorem read_raises (hread : token ∈ ins.registersRead op m) :
    Raises (Diagnosis ins op m) (m.registers.read token) := by
  unfold RegisterFile.read
  split
  · exact .ok _
  · next hnone =>
    refine .error ⟨⟨token, hread, rfl⟩, ?_⟩
    rw [RegisterFile.mem_names_iff, Classical.not_not]
    exact hnone

/-- An operation other than a jump misstates what it cannot read as a value. -/
theorem misstates_of_value (hop : op.operands ≠ .address) (hparam : ins.param? index = some token)
    (hnumeral : Numeral.int32? token = none) (hname : isIdentifier token = false) :
    ins.Misstates op token := by
  unfold Instruction.Misstates
  split
  · next haddress => exact absurd haddress hop
  · exact ⟨List.mem_of_getElem? hparam, hnumeral, hname⟩

theorem value_raises (hop : op.operands ≠ .address) (hparam : ins.param? index = some token)
    (hread : (ins.valueRegister? index).toList ⊆ ins.registersRead op m) :
    Raises (Diagnosis ins op m) (m.value token) := by
  unfold Machine.value
  split
  · exact .ok _
  · next hnumeral =>
    split
    · exact read_raises (hread (mem_valueRegister?_iff.2 ⟨hparam, hnumeral⟩))
    · next hname =>
      exact .error (misstates_of_value hop hparam hnumeral (Bool.eq_false_iff.2 hname))

/-- An operand is evaluated before it is used. -/
theorem evaluated_raises {α : Type} {f : Int32 → Except Trap α} (hop : op.operands ≠ .address)
    (hread : (ins.valueRegister? index).toList ⊆ ins.registersRead op m)
    (hf : ∀ token value, ins.param? index = some token → m.value token = .ok value →
      Raises (Diagnosis ins op m) (f value)) :
    Raises (Diagnosis ins op m) (operand ins op index >>= fun token => m.value token >>= f) := by
  refine (operand_raises index).bind_of_ok fun token htoken => ?_
  have hparam := (operand_eq_ok_iff.1 htoken).1
  exact (value_raises hop hparam hread).bind_of_ok fun value => hf token value hparam

theorem jumpTo_raises (hop : op.operands = .address) :
    Raises (Diagnosis ins op m) (jumpTo ins op) := by
  refine (operand_raises 0).bind_of_ok fun target htarget => ?_
  split
  · exact .ok _
  · next hnumeral =>
    have hmisstates : ins.Misstates op target := by
      unfold Instruction.Misstates
      rw [hop]
      exact ⟨(operand_eq_ok_iff.1 htarget).1, hnumeral⟩
    exact .error hmisstates

theorem jumpIf_raises (hop : op.operands = .address) (taken : Bool) :
    Raises (Diagnosis ins op m) (jumpIf taken ins op) := by
  cases taken with
  | false => exact .ok _
  | true => exact jumpTo_raises hop

theorem messagePart_raises {part : String}
    (hread : ∀ token, bareRegister? part = some token → token ∈ ins.registersRead op m) :
    Raises (Diagnosis ins op m) (m.messagePart part) := by
  cases hbare : bareRegister? part with
  | none =>
    obtain ⟨text, htext⟩ := exists_text_of_eq_none hbare
    rw [htext]
    exact .ok _
  | some token =>
    rw [messagePart_of_bareRegister? hbare]
    exact (read_raises (hread token hbare)).bind fun value => .ok _

theorem message_raises {parts : List String}
    (hread : parts.filterMap bareRegister? ⊆ ins.registersRead op m) :
    Raises (Diagnosis ins op m) (m.message parts) := by
  induction parts with
  | nil => exact .ok _
  | cons part rest ih =>
    have hpart : Raises (Diagnosis ins op m) (m.messagePart part) := by
      refine messagePart_raises fun token hbare => hread ?_
      exact List.mem_filterMap.2 ⟨part, List.mem_cons_self, hbare⟩
    have hrest : Raises (Diagnosis ins op m) (m.message rest) := by
      refine ih fun token htoken => hread ?_
      obtain ⟨other, hother, hbare⟩ := List.mem_filterMap.1 htoken
      exact List.mem_filterMap.2 ⟨other, List.mem_cons_of_mem part hother, hbare⟩
    exact hpart.bind fun head => hrest.bind fun tail => .ok _

theorem adjusted_raises {f : Int32 → Except Trap Int32}
    (hread : (ins.param? 0).toList ⊆ ins.registersRead op m)
    (hf : ∀ name old, ins.param? 0 = some name → m.registers.read name = .ok old →
      Raises (Diagnosis ins op m) (f old)) :
    Raises (Diagnosis ins op m) (adjusted ins op m f) := by
  refine (operand_raises 0).bind_of_ok fun name hname => Raises.bind ?_ fun written => .ok _
  have hparam := (operand_eq_ok_iff.1 hname).1
  refine (read_raises (hread (Option.mem_toList.2 hparam))).bind_of_ok fun old hold => ?_
  exact (hf name old hparam hold).bind fun value => .ok _

theorem combined_raises {f : Int32 → Int32 → Except Trap Int32} (hop : op.operands ≠ .address)
    (hread : (ins.valueRegister? 1).toList ++ (ins.param? 0).toList ⊆ ins.registersRead op m)
    (hf : ∀ first v second w, ins.param? 0 = some first → m.registers.read first = .ok v →
      ins.param? 1 = some second → m.value second = .ok w →
      Raises (Diagnosis ins op m) (f v w)) :
    Raises (Diagnosis ins op m) (combined ins op m f) := by
  obtain ⟨hsource, htarget⟩ := List.append_subset.1 hread
  refine evaluated_raises hop hsource fun second w hsecond hw => ?_
  exact adjusted_raises htarget fun first v hfirst hv => hf first v second w hfirst hv hsecond hw

/-- **An instruction raises a trap only if what the trap finds wrong is so.** -/
theorem effect_diagnosis (ins : Instruction) (op : Operation) (m : Machine) :
    Raises (Diagnosis ins op m) (effect ins op m) := by
  cases op with
  | mov =>
    refine (operand_raises 0).bind fun name => ?_
    exact evaluated_raises nofun (List.Subset.refl _) fun token value _ _ => .ok _
  | inc | dec => exact adjusted_raises (List.Subset.refl _) fun name old _ _ => .ok _
  | add | sub | mul =>
    exact combined_raises nofun (List.Subset.refl _) fun first v second w _ _ _ _ => .ok _
  | div =>
    refine combined_raises nofun (List.Subset.refl _) ?_
    intro first v second w hfirst hv hsecond hw
    unfold quotient
    split
    · next hzero =>
      rw [hzero] at hw
      have hwritten := RegisterFile.key_mem_names_of_read hv
      exact .error ⟨rfl, rfl, ⟨first, hfirst, hwritten⟩, second, hsecond, hw⟩
    · exact .ok _
  | cmp =>
    refine evaluated_raises nofun (List.subset_append_left _ _) fun first x _ _ => ?_
    exact evaluated_raises nofun (List.subset_append_right _ _) fun second y _ _ => .ok _
  | jmp | je | jne | jg | jge | jl | jle => exact (jumpIf_raises rfl _).map _
  | jnz =>
    refine evaluated_raises nofun (List.subset_append_left _ _) fun first x hfirst hx => ?_
    split
    · exact .ok _
    · next hzero =>
      -- the offset is read, because the operand that was tested is not zero
      have hread : (ins.valueRegister? 1).toList ⊆ ins.registersRead .jnz m := by
        intro token htoken
        refine List.mem_append_right _ ?_
        rwa [if_neg]
        rw [hfirst, Option.map_some, hx, Option.some.injEq, Except.ok.injEq]
        exact hzero
      refine evaluated_raises nofun hread fun second offset hsecond hoffset => ?_
      refine Raises.bind ?_ fun flow => .ok _
      unfold relativeJump
      split
      · next hnegative =>
        exact .error ⟨rfl, rfl, ⟨first, x, hfirst, hx, hzero⟩, second, offset, hsecond, hoffset,
          rfl, hnegative⟩
      · exact .ok _
  | call => exact (jumpTo_raises rfl).bind fun flow => .ok _
  | ret =>
    unfold effect
    cases hstack : m.callStack with
    | nil => exact .error ⟨rfl, rfl, hstack⟩
    | cons back below => exact .ok _
  | msg => exact (message_raises (List.Subset.refl _)).bind fun text => .ok _
  | stop => exact .ok _

/-! ### The traps of an operation -/

/-- The traps that an operation at an address can raise. -/
def Operation.MayRaise (op : Operation) (address : Nat) : Trap → Prop
  | .missingOperand other _ => other = op
  | .unknownRegister _ | .malformedNumericLiteral _ => True
  | .divisionByZero place => op = .div ∧ place = address
  | .addressOutOfRange source _ => op = .jnz ∧ source = address
  | .callStackUnderflow place => op = .ret ∧ place = address
  | .unknownInstruction _ _ | .stepLimit _ => False

theorem Diagnosis.mayRaise {trap : Trap} (h : Diagnosis ins op m trap) : op.MayRaise m.ip trap := by
  cases trap with
  | missingOperand other index => exact h.1
  | unknownRegister | malformedNumericLiteral => exact trivial
  | divisionByZero | addressOutOfRange | callStackUnderflow => exact ⟨h.1, h.2.1⟩
  | unknownInstruction | stepLimit => exact h

/-- **An instruction raises no other traps than those of its operation.** -/
theorem effect_raises (ins : Instruction) (op : Operation) (m : Machine) :
    Raises (op.MayRaise m.ip) (effect ins op m) := by
  intro trap h
  exact (effect_diagnosis ins op m trap h).mayRaise

end PseudoAsm
