import Mathlib.Data.List.Forall2
import PseudoAsm.Proofs.Outcome
import PseudoAsm.Proofs.Resolution.Position

/-!
# What resolution makes of each instruction

Removing label definitions shifts every later instruction down, and resolution has to write the
shifted addresses into the targets.  This file says what becomes of every single instruction.

* `Shifted` — what an instruction of a program may become: itself if it takes no target, with its
  target replaced by the address of the first definition of the label it names, or itself again if
  its target is an address already;
* `resolve_eq_resolveFrom` — the shortcut for programs without labels makes no difference;
* `forall₂_shifted` — **a resolved program is its body shifted, instruction by instruction**;
* `resolve_eq_self` — a program without labels and with addresses for targets resolves to itself;
* `resolve_shifts_program` — **the shift invariant**: sizes, names, targets and idempotence at once.

An address is written as a decimal numeral, and numerals of addresses are read as unsigned 64-bit
numbers; `Program.Addressable` says that a program is short enough for that, as every program in
a memory with such addresses is.
-/

namespace PseudoAsm

/-- Every address of the program, its end included, is an unsigned 64-bit number. -/
def Program.Addressable (program : Program) : Prop :=
  program.length < Numeral.nat64Bound

instance (program : Program) : Decidable program.Addressable :=
  inferInstanceAs (Decidable (_ < _))

/-- What resolution may make of an instruction of a program. -/
structure Shifted (targeted : List String) (program : Program) (ins out : Instruction) : Prop where
  /-- The mnemonic stays. -/
  name_eq : out.name = ins.name
  /-- An instruction without a target stays as it is. -/
  untargeted : ins.name ∉ targeted → out = ins
  /-- A target is there. -/
  target : ins.name ∈ targeted → ∃ target, ins.param? 0 = some target ∧ target.isEmpty = false
  /-- A target that names a label becomes the address of its first definition. -/
  symbolic : ∀ target position, ins.name ∈ targeted → ins.param? 0 = some target →
    program.definition? target = some position →
      out = ins.withTarget (toString (program.addressAt position))
  /-- A target that names no label is an address of the program, and the instruction stays. -/
  literal : ∀ target, ins.name ∈ targeted → ins.param? 0 = some target →
    program.definition? target = none →
      out = ins ∧ ∃ address, Numeral.nat64? target = some address ∧ address ≤ program.body.length

/-! ### One target -/

section Targets

variable {size index : Nat} {ins out : Instruction} {target : String}

theorem givenTarget_eq_ok_iff :
    givenTarget index ins = .ok target ↔ ins.param? 0 = some target ∧ target.isEmpty = false := by
  unfold givenTarget
  cases hparam : ins.param? 0 with
  | none => simp only [reduceCtorEq, false_and]
  | some found =>
    constructor
    · intro h
      cases hempty : found.isEmpty with
      | true => simp only [hempty, if_true, reduceCtorEq] at h
      | false =>
        simp only [hempty, Bool.false_eq_true, if_false, Except.ok.injEq] at h
        rw [← h]
        exact ⟨rfl, hempty⟩
    · rintro ⟨hfound, hempty⟩
      rw [Option.some.injEq] at hfound
      simp only [hfound, hempty, Bool.false_eq_true, if_false]

theorem literalAddress_eq_ok_iff {address : Nat} :
    literalAddress size index ins target = .ok address
      ↔ Numeral.nat64? target = some address ∧ address ≤ size := by
  unfold literalAddress
  cases Numeral.nat64? target with
  | none => simp only [reduceCtorEq, false_and]
  | some found =>
    by_cases hle : found ≤ size
    · simp only [if_pos hle, Except.ok.injEq, Option.some.injEq]
      constructor
      · rintro rfl
        exact ⟨rfl, hle⟩
      · exact And.left
    · simp only [if_neg hle, reduceCtorEq, Option.some.injEq, false_iff]
      rintro ⟨rfl, hle'⟩
      exact hle hle'

/-- A target that could be resolved was there, and named a label or was an address. -/
theorem resolveTarget_ok {labels : List (String × Nat)}
    (h : resolveTarget labels size index ins = .ok out) :
    ∃ target, ins.param? 0 = some target ∧ target.isEmpty = false ∧
      ((∃ address, labelAddress? labels target = some address
          ∧ out = ins.withTarget (toString address))
        ∨ (labelAddress? labels target = none ∧ out = ins
          ∧ ∃ address, Numeral.nat64? target = some address ∧ address ≤ size)) := by
  obtain ⟨target, htarget, h⟩ := bind_eq_ok_iff.1 h
  obtain ⟨hparam, hempty⟩ := givenTarget_eq_ok_iff.1 htarget
  refine ⟨target, hparam, hempty, ?_⟩
  cases hlabel : labelAddress? labels target with
  | some address =>
    simp only [hlabel] at h
    exact Or.inl ⟨address, rfl, (Except.ok.inj h).symm⟩
  | none =>
    simp only [hlabel] at h
    obtain ⟨address, haddress, h⟩ := bind_eq_ok_iff.1 h
    exact Or.inr ⟨rfl, (Except.ok.inj h).symm, address, literalAddress_eq_ok_iff.1 haddress⟩

end Targets

/-- An instruction whose target could be resolved is shifted. -/
theorem shifted_of_resolveTarget {targeted : List String} {program : Program} {index : Nat}
    {ins out : Instruction}
    (h : resolveTarget (labelTable 0 program) program.body.length index ins = .ok out)
    (hmem : ins.name ∈ targeted) : Shifted targeted program ins out := by
  obtain ⟨target, hparam, hempty, hcases⟩ := resolveTarget_ok h
  rw [Program.labelAddress?_labelTable] at hcases
  constructor
  · rcases hcases with ⟨address, -, rfl⟩ | ⟨-, rfl, -⟩ <;> rfl
  · intro hnot
    exact absurd hmem hnot
  · intro _
    exact ⟨target, hparam, hempty⟩
  · intro other position _ hother hposition
    rw [hparam, Option.some.injEq] at hother
    subst hother
    rcases hcases with ⟨address, haddress, rfl⟩ | ⟨hnone, -⟩
    · rw [hposition, Option.map_some, Option.some.injEq] at haddress
      rw [haddress]
    · rw [hposition] at hnone
      cases hnone
  · intro other _ hother hundefined
    rw [hparam, Option.some.injEq] at hother
    subst hother
    rcases hcases with ⟨address, haddress, -⟩ | ⟨-, rfl, hliteral⟩
    · rw [hundefined] at haddress
      cases haddress
    · exact ⟨rfl, hliteral⟩

/-- An instruction that takes no target is shifted to itself. -/
theorem shifted_self {targeted : List String} {program : Program} {ins : Instruction}
    (h : ins.name ∉ targeted) : Shifted targeted program ins ins where
  name_eq := rfl
  untargeted _ := rfl
  target hmem := absurd hmem h
  symbolic _ _ hmem := absurd hmem h
  literal _ hmem := absurd hmem h

/-- Resolution keeps an instruction, or makes its target a number. -/
theorem Shifted.eq_or_eq_withTarget {targeted : List String} {program : Program}
    {ins out : Instruction} (h : Shifted targeted program ins out) :
    out = ins ∨ ∃ address : Nat, out = ins.withTarget (toString address) := by
  by_cases hmem : ins.name ∈ targeted
  · obtain ⟨target, hparam, -⟩ := h.target hmem
    cases hdefinition : program.definition? target with
    | none => exact Or.inl (h.literal target hmem hparam hdefinition).1
    | some position => exact Or.inr ⟨_, h.symbolic target position hmem hparam hdefinition⟩
  · exact Or.inl (h.untargeted hmem)

/-! ### Whole programs -/

/-- An instruction that is no label definition is resolved before those that follow it. -/
theorem resolveFrom_cons_code {targeted : List String} {labels : List (String × Nat)}
    {size index : Nat} {ins : Instruction} {rest : Program} (h : ins.isLabel = false) :
    resolveFrom targeted labels size index (ins :: rest)
      = (if targeted.contains ins.name then resolveTarget labels size index ins else .ok ins)
        >>= fun out => resolveFrom targeted labels size (index + 1) rest
          >>= fun following => .ok (out :: following) := by
  rw [resolveFrom, if_neg (by rw [h]; exact Bool.false_ne_true)]
  by_cases hmem : targeted.contains ins.name = true
  · rw [if_pos hmem, if_pos hmem]
    rfl
  · rw [if_neg hmem, if_neg hmem]
    rfl

/-- A program without label definitions has an empty label table, and no other has. -/
theorem labelTable_eq_nil_iff {program : Program} {start : Nat} :
    labelTable start program = [] ↔ ∀ ins ∈ program, ins.isLabel = false := by
  induction program generalizing start with
  | nil => simp only [labelTable, List.not_mem_nil, false_implies, implies_true]
  | cons ins rest ih =>
    rw [List.forall_mem_cons, ← Instruction.labelName?_eq_none_iff, labelTable]
    cases ins.labelName? with
    | none => simp only [ih, true_and]
    | some name => simp only [reduceCtorEq, false_and]

/-- Without labels, resolving an instruction is checking it. -/
theorem resolveTarget_nil (targeted : List String) (size index : Nat) (ins : Instruction) :
    (if targeted.contains ins.name then resolveTarget [] size index ins else .ok ins)
      = checkTarget targeted size index ins >>= fun _ => .ok ins := by
  unfold checkTarget
  by_cases hmem : targeted.contains ins.name = true
  · rw [if_pos hmem, if_pos hmem, resolveTarget, bind_assoc]
    congr 1
    funext target
    show (literalAddress size index ins target >>= fun _ => Except.ok ins) = _
    rw [bind_assoc]
    rfl
  · rw [if_neg hmem, if_neg hmem]
    rfl

/-- Without labels, resolving a program is checking it. -/
theorem resolveFrom_nil (targeted : List String) (size : Nat) {program : Program}
    (hcode : ∀ ins ∈ program, ins.isLabel = false) (index : Nat) :
    resolveFrom targeted [] size index program
      = checkTargets targeted size index program >>= fun _ => .ok program := by
  induction program generalizing index with
  | nil => rfl
  | cons ins rest ih =>
    obtain ⟨hins, hrest⟩ := List.forall_mem_cons.1 hcode
    rw [resolveFrom_cons_code hins, resolveTarget_nil, ih hrest, checkTargets, bind_assoc,
      bind_assoc]
    congr 1
    funext _
    show (checkTargets targeted size (index + 1) rest >>= _) >>= _ = _
    rw [bind_assoc]
    rfl

/-- **Checking a program that has no labels is resolving it.**  Every program is resolved as if
there were no such shortcut. -/
theorem resolve_eq_resolveFrom (targeted : List String) (program : Program) :
    resolve targeted program
      = resolveFrom targeted (labelTable 0 program) program.body.length 0 program := by
  unfold resolve
  cases hlabels : labelTable 0 program with
  | nil =>
    rw [resolveFrom_nil targeted _ (labelTable_eq_nil_iff.1 hlabels)]
    rfl
  | cons entry labels => rfl

/-- A resolved program is the shifted body of the rest of the program that it was made of. -/
theorem forall₂_shifted_from {targeted : List String} {program : Program} (rest : Program)
    {index : Nat} {resolved : Program}
    (h : resolveFrom targeted (labelTable 0 program) program.body.length index rest
      = .ok resolved) :
    List.Forall₂ (Shifted targeted program) rest.body resolved := by
  induction rest generalizing index resolved with
  | nil =>
    rw [resolveFrom, Except.ok.injEq] at h
    rw [← h]
    exact .nil
  | cons ins rest ih =>
    cases hlabel : ins.isLabel with
    | true =>
      rw [resolveFrom, if_pos hlabel] at h
      rw [Program.body_cons_label hlabel]
      exact ih h
    | false =>
      rw [resolveFrom_cons_code hlabel] at h
      obtain ⟨out, hout, h⟩ := bind_eq_ok_iff.1 h
      obtain ⟨following, hfollowing, h⟩ := bind_eq_ok_iff.1 h
      rw [← Except.ok.inj h, Program.body_cons_code hlabel]
      refine .cons ?_ (ih hfollowing)
      by_cases hmem : ins.name ∈ targeted
      · rw [if_pos (List.contains_iff_mem.2 hmem)] at hout
        exact shifted_of_resolveTarget hout hmem
      · rw [if_neg (fun hcontains => hmem (List.contains_iff_mem.1 hcontains))] at hout
        rw [← Except.ok.inj hout]
        exact shifted_self hmem

/-- **A resolved program is the body of the program, shifted instruction by instruction.** -/
theorem forall₂_shifted {targeted : List String} {program resolved : Program}
    (h : resolve targeted program = .ok resolved) :
    List.Forall₂ (Shifted targeted program) program.body resolved := by
  rw [resolve_eq_resolveFrom] at h
  exact forall₂_shifted_from program h

/-- A resolved program has as many instructions as the body it was made of. -/
theorem length_of_resolve {targeted : List String} {program resolved : Program}
    (h : resolve targeted program = .ok resolved) :
    List.length resolved = program.body.length :=
  (forall₂_shifted h).length_eq.symm

/-- Every instruction of the body becomes the one with its address. -/
theorem exists_shifted {targeted : List String} {program resolved : Program}
    (h : resolve targeted program = .ok resolved) {address : Nat} {ins : Instruction}
    (hins : program.body[address]? = some ins) :
    ∃ out, resolved[address]? = some out ∧ Shifted targeted program ins out := by
  obtain ⟨hlength, hget⟩ := List.forall₂_iff_get.1 (forall₂_shifted h)
  obtain ⟨hlt, hins⟩ := List.getElem?_eq_some_iff.1 hins
  have hlt' : address < List.length resolved := hlength ▸ hlt
  refine ⟨resolved[address], List.getElem?_eq_getElem hlt', ?_⟩
  have hshifted := hget address hlt hlt'
  rw [List.get_eq_getElem, List.get_eq_getElem] at hshifted
  rwa [hins] at hshifted

/-- Every instruction of a resolved program comes from one of the body. -/
theorem exists_source {targeted : List String} {program resolved : Program}
    (h : resolve targeted program = .ok resolved) {out : Instruction} (hout : out ∈ resolved) :
    ∃ ins ∈ program.body, Shifted targeted program ins out := by
  obtain ⟨address, hlt, hget⟩ := List.mem_iff_getElem.1 hout
  have hlt' : address < program.body.length := length_of_resolve h ▸ hlt
  have hins := List.getElem?_eq_getElem hlt'
  obtain ⟨other, hother, hshifted⟩ := exists_shifted h hins
  rw [List.getElem?_eq_getElem hlt, hget, Option.some.injEq] at hother
  rw [← hother] at hshifted
  exact ⟨program.body[address], List.mem_of_getElem? hins, hshifted⟩

/-! ### Programs with addresses for targets -/

/-- The first parameter is an address of a program with `size` instructions, whose end counts. -/
def Instruction.HasAddress (size : Nat) (ins : Instruction) : Prop :=
  ∃ target address, ins.param? 0 = some target ∧ Numeral.nat64? target = some address
    ∧ address ≤ size

theorem addressAt_lt_nat64Bound {program : Program} (hsize : program.Addressable)
    {name : String} {position : Nat} (h : program.definition? name = some position) :
    program.addressAt position ≤ program.body.length
      ∧ program.addressAt position < Numeral.nat64Bound := by
  have hlt : position < program.length := by
    rw [Program.definition?, List.findIdx?_eq_some_iff_getElem] at h
    exact h.1
  have hle := program.addressAt_le_length_body (Nat.le_of_lt hlt)
  have hbody : program.body.length ≤ program.length := List.length_filter_le _ _
  exact ⟨hle, Nat.lt_of_le_of_lt (Nat.le_trans hle hbody) hsize⟩

/-- A shifted target is an address of the program. -/
theorem hasAddress_of_shifted {targeted : List String} {program : Program}
    {ins out : Instruction} (hsize : program.Addressable)
    (h : Shifted targeted program ins out) (hmem : ins.name ∈ targeted) :
    out.HasAddress program.body.length := by
  obtain ⟨target, hparam, -⟩ := h.target hmem
  cases hdefinition : program.definition? target with
  | none =>
    obtain ⟨rfl, address, hnumeral, hle⟩ := h.literal target hmem hparam hdefinition
    exact ⟨target, address, hparam, hnumeral, hle⟩
  | some position =>
    obtain ⟨hle, hlt⟩ := addressAt_lt_nat64Bound hsize hdefinition
    rw [h.symbolic target position hmem hparam hdefinition]
    exact ⟨_, _, Instruction.param?_withTarget ins _, Numeral.nat64?_toString hlt, hle⟩

/-- A program whose targets are addresses passes the check. -/
theorem checkTargets_eq_ok {targeted : List String} {size : Nat} {program : Program}
    (haddress : ∀ ins ∈ program, ins.name ∈ targeted → ins.HasAddress size) (index : Nat) :
    checkTargets targeted size index program = .ok () := by
  induction program generalizing index with
  | nil => rfl
  | cons ins rest ih =>
    obtain ⟨hins, hrest⟩ := List.forall_mem_cons.1 haddress
    have hchecked : checkTarget targeted size index ins = .ok () := by
      unfold checkTarget
      by_cases hmem : ins.name ∈ targeted
      · obtain ⟨target, address, hparam, hnumeral, hle⟩ := hins hmem
        have hempty := Numeral.isEmpty_of_nat64? hnumeral
        rw [if_pos (List.contains_iff_mem.2 hmem), givenTarget_eq_ok_iff.2 ⟨hparam, hempty⟩]
        show (literalAddress size index ins target >>= fun _ => Except.ok ()) = _
        rw [literalAddress_eq_ok_iff.2 ⟨hnumeral, hle⟩]
        rfl
      · rw [if_neg fun hcontains => hmem (List.contains_iff_mem.1 hcontains)]
    rw [checkTargets, hchecked]
    exact ih hrest (index + 1)

/-- **A program without labels whose targets are addresses resolves to itself.** -/
theorem resolve_eq_self {targeted : List String} {program : Program}
    (hcode : ∀ ins ∈ program, ins.isLabel = false)
    (haddress : ∀ ins ∈ program, ins.name ∈ targeted → ins.HasAddress program.length) :
    resolve targeted program = .ok program := by
  rw [resolve_eq_resolveFrom, labelTable_eq_nil_iff.2 hcode, resolveFrom_nil targeted _ hcode,
    Program.body_eq_self hcode, checkTargets_eq_ok haddress]
  rfl

/-! ### The shift invariant -/

/-- **The shift invariant.**  A resolved program has the instructions of the body in order, each
shifted, and no label definition; its targets are addresses of it, and resolving it again changes
nothing. -/
theorem resolve_shifts_program {targeted : List String} {program resolved : Program}
    (h : resolve targeted program = .ok resolved) :
    List.length resolved = program.body.length
      ∧ (∀ out ∈ resolved, out.isLabel = false)
      ∧ (∀ (address : Nat) (ins : Instruction), program.body[address]? = some ins →
          ∃ out, resolved[address]? = some out ∧ Shifted targeted program ins out)
      ∧ (program.Addressable →
          (∀ out ∈ resolved, out.name ∈ targeted → out.HasAddress resolved.length)
            ∧ resolve targeted resolved = .ok resolved) := by
  have hcode : ∀ out ∈ resolved, out.isLabel = false := by
    intro out hout
    obtain ⟨ins, hins, hshifted⟩ := exists_source h hout
    rw [Instruction.isLabel, hshifted.name_eq]
    obtain ⟨address, hget⟩ := List.mem_iff_getElem?.1 hins
    exact Program.isLabel_of_getElem?_body hget
  refine ⟨length_of_resolve h, hcode, fun _ _ => exists_shifted h, fun hsize => ?_⟩
  have haddress : ∀ out ∈ resolved, out.name ∈ targeted → out.HasAddress resolved.length := by
    intro out hout hmem
    obtain ⟨ins, -, hshifted⟩ := exists_source h hout
    rw [hshifted.name_eq] at hmem
    rw [length_of_resolve h]
    exact hasAddress_of_shifted hsize hshifted hmem
  exact ⟨haddress, resolve_eq_self hcode haddress⟩

/-- A program with a label defined twice in different letter case, one that reads as a numeral, one
between an offset and where it leads, and one at the end. -/
def sampleProgram : Program :=
  [⟨"again:", []⟩, ⟨"call", ["Sub"]⟩, ⟨"AGAIN:", []⟩, ⟨"6:", []⟩, ⟨"jnz", ["a", "2"]⟩,
    ⟨"jmp", ["6", "x"]⟩, ⟨"sub:", []⟩, ⟨"mov", ["a", "-7"]⟩, ⟨"jg", ["out"]⟩, ⟨"je", ["Again"]⟩,
    ⟨"ret", []⟩, ⟨"out:", []⟩]

/-- The sample program resolved for the standard set. -/
def sampleResolved : Program :=
  [⟨"call", ["3"]⟩, ⟨"jnz", ["a", "2"]⟩, ⟨"jmp", ["1", "x"]⟩, ⟨"mov", ["a", "-7"]⟩, ⟨"jg", ["7"]⟩,
    ⟨"je", ["0"]⟩, ⟨"ret", []⟩]

/-- The sample program has seven instructions when it is resolved, and its targets are addresses. -/
theorem resolve_shifts_program_sample :
    resolve InstructionSet.standard.addressMnemonics sampleProgram = .ok sampleResolved
      ∧ sampleResolved.length = sampleProgram.body.length
      ∧ sampleProgram.Addressable
      ∧ (∀ out ∈ sampleResolved, out.name ∈ InstructionSet.standard.addressMnemonics →
          out.HasAddress sampleResolved.length)
      ∧ resolve InstructionSet.standard.addressMnemonics sampleResolved = .ok sampleResolved := by
  have hsize : sampleProgram.Addressable := by decide
  have hresolve : resolve InstructionSet.standard.addressMnemonics sampleProgram
      = .ok sampleResolved := by decide +kernel
  obtain ⟨hlength, -, -, htargets⟩ := resolve_shifts_program hresolve
  exact ⟨hresolve, hlength, hsize, htargets hsize⟩

end PseudoAsm
