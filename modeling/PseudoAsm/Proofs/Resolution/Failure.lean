import PseudoAsm.Proofs.Resolution.Bodywise

/-!
# When resolution fails

Only an instruction that takes a target can be at fault, and only through that target: it is absent
or empty, or it neither names a label nor is an address of the program.  Resolution fails if there
is such an instruction, and it tells of the first.

* `Program.Understands` — the targets that mean something in a program;
* `Program.Offender` — an instruction that cannot be resolved, and `Instruction.complaint`, the
  error that tells of it;
* `resolveAt_eq_error_iff` — one instruction fails exactly if it is an offender;
* `resolve_fails_at_first_offender` — **a program fails exactly if it has an offender, with the
  complaint about the first**.
-/

namespace PseudoAsm

/-! ### Offenders -/

/-- A target that means something in a program: it names a label, whatever the letter case, or it is
an address, the end of the program included. -/
def Program.Understands (program : Program) (target : String) : Prop :=
  Text.lower target ∈ program.labelNames
    ∨ ∃ address ∈ Numeral.nat64? target, address ≤ program.body.length

instance (program : Program) (target : String) : Decidable (program.Understands target) :=
  inferInstanceAs (Decidable (_ ∨ _))

/-- An instruction that takes a target and has none, or none that the program understands. -/
def Program.Offender (targeted : List String) (program : Program) (ins : Instruction) : Prop :=
  ins.name ∈ targeted ∧ ∀ target ∈ ins.target?, ¬program.Understands target

instance (targeted : List String) (program : Program) (ins : Instruction) :
    Decidable (program.Offender targeted ins) :=
  inferInstanceAs (Decidable (_ ∧ _))

/-- The error that tells of an offender at an index. -/
def Instruction.complaint (index : Nat) (ins : Instruction) : ResolveError :=
  match ins.target? with
  | none => .missingTarget ins.name index
  | some target => .unresolvedLabel target ins.name index

section Offenders

variable {targeted : List String} {program : Program} {size index : Nat} {ins : Instruction}
  {target : String} {e : ResolveError}

theorem literalAddress_eq_error_iff :
    literalAddress size index ins target = .error e
      ↔ (¬∃ address ∈ Numeral.nat64? target, address ≤ size)
        ∧ e = .unresolvedLabel target ins.name index := by
  unfold literalAddress
  cases hnumeral : Numeral.nat64? target with
  | none => simp [eq_comm]
  | some address =>
    by_cases hle : address ≤ size
    · simp [hle]
    · simp [hle, eq_comm]

/-- An instruction that takes no target is never at fault. -/
theorem not_offender_of_not_mem (h : ins.name ∉ targeted) :
    ¬program.Offender targeted ins := by
  intro hoffender
  exact h hoffender.1

/-- An instruction with a target is at fault exactly if the program does not understand it. -/
theorem offender_iff_of_some (hmem : ins.name ∈ targeted) (h : ins.target? = some target) :
    program.Offender targeted ins ↔ ¬program.Understands target := by
  simp only [Program.Offender, hmem, h, Option.mem_some_iff, forall_eq', true_and]

/-- **An instruction fails exactly if it is an offender**, and with the complaint about it. -/
theorem resolveAt_eq_error_iff :
    resolveAt targeted (labelTable 0 program) program.body.length (ins, index) = .error e
      ↔ program.Offender targeted ins ∧ e = ins.complaint index := by
  by_cases hmem : ins.name ∈ targeted
  · rw [resolveAt_of_mem hmem]
    cases htarget : ins.target? with
    | none =>
      have hoffender : program.Offender targeted ins := by
        simp [Program.Offender, hmem, htarget]
      rw [resolveTarget_of_none htarget, Instruction.complaint, htarget]
      simp [hoffender, eq_comm]
    | some target =>
      rw [resolveTarget_of_some htarget, offender_iff_of_some hmem htarget, Program.Understands,
        Instruction.complaint, htarget]
      cases hlabel : labelAddress? (labelTable 0 program) target with
      | some address =>
        have hdefined : Text.lower target ∈ program.labelNames :=
          (exists_labelAddress?_iff 0).1 ⟨address, hlabel⟩
        simp [hdefined]
      | none =>
        rw [or_iff_right ((labelAddress?_eq_none_iff 0).1 hlabel), ← literalAddress_eq_error_iff]
        cases literalAddress program.body.length index ins target <;> simp [bind, Except.bind]
  · rw [resolveAt_of_not_mem hmem]
    simp [not_offender_of_not_mem hmem]

theorem exists_resolveAt_iff :
    (∃ out, resolveAt targeted (labelTable 0 program) program.body.length (ins, index) = .ok out)
      ↔ ¬program.Offender targeted ins := by
  cases h : resolveAt targeted (labelTable 0 program) program.body.length (ins, index) with
  | error e => simp [(resolveAt_eq_error_iff.1 h).1]
  | ok out =>
    have hfine : ¬program.Offender targeted ins := by
      intro hoffender
      rw [resolveAt_eq_error_iff.2 ⟨hoffender, rfl⟩] at h
      cases h
    simp [hfine]

end Offenders

/-! ### Programs -/

/-- The entry of a numbered list at an index. -/
theorem getElem?_zipIdx_eq_some_iff {α : Type} {l : List α} {i : Nat} {entry : α × Nat} :
    l.zipIdx[i]? = some entry ↔ l[i]? = some entry.1 ∧ entry.2 = i := by
  rw [List.getElem?_zipIdx, Option.map_eq_some_iff]
  constructor
  · rintro ⟨a, ha, rfl⟩
    exact ⟨ha, Nat.zero_add i⟩
  · rintro ⟨ha, hi⟩
    exact ⟨entry.1, ha, Prod.ext rfl ((Nat.zero_add i).trans hi.symm)⟩

/-- A program fails with the complaint about its first offender. -/
theorem resolve_eq_error_iff {targeted : List String} {program : Program} {e : ResolveError} :
    resolve targeted program = .error e
      ↔ ∃ (index : Nat) (ins : Instruction), program.body[index]? = some ins
        ∧ program.Offender targeted ins
        ∧ (∀ i < index, ∀ other, program.body[i]? = some other →
          ¬program.Offender targeted other)
        ∧ e = ins.complaint index := by
  rw [resolve_eq_mapM, mapM_eq_error_iff]
  constructor
  · intro ⟨i, ⟨ins, index⟩, hget, hfails, hbefore⟩
    obtain ⟨hins, rfl⟩ := getElem?_zipIdx_eq_some_iff.1 hget
    obtain ⟨hoffender, he⟩ := resolveAt_eq_error_iff.1 hfails
    refine ⟨index, ins, hins, hoffender, ?_, he⟩
    intro j hj other hother
    exact exists_resolveAt_iff.1
      (hbefore j hj (other, j) (getElem?_zipIdx_eq_some_iff.2 ⟨hother, rfl⟩))
  · intro ⟨index, ins, hins, hoffender, hbefore, he⟩
    refine ⟨index, (ins, index), getElem?_zipIdx_eq_some_iff.2 ⟨hins, rfl⟩,
      resolveAt_eq_error_iff.2 ⟨hoffender, he⟩, ?_⟩
    intro j hj ⟨other, j'⟩ hget
    obtain ⟨hother, rfl⟩ := getElem?_zipIdx_eq_some_iff.1 hget
    exact exists_resolveAt_iff.2 (hbefore j' hj other hother)

/-- A program that is resolved has no offender. -/
theorem not_offender_of_resolve {targeted : List String} {program resolved : Program}
    (h : resolve targeted program = .ok resolved) {ins : Instruction} (hins : ins ∈ program.body) :
    ¬program.Offender targeted ins := by
  intro ⟨hmem, hno⟩
  obtain ⟨index, hget⟩ := List.mem_iff_getElem?.1 hins
  obtain ⟨out, -, hshifted⟩ := exists_shifted h hget
  obtain ⟨target, hparam, hempty⟩ := hshifted.target hmem
  refine hno target (target?_eq_some_iff.2 ⟨hparam, hempty⟩) ?_
  by_cases hdefined : Text.lower target ∈ program.labelNames
  · exact .inl hdefined
  · have hundefined := definition?_eq_none_iff.2 hdefined
    exact .inr (hshifted.literal target hmem hparam hundefined).2

/-- **Resolution fails exactly if it must, and tells of the first offender.**  It fails if an
instruction of the body, label definitions apart, takes a target and has none, or one that neither
names a label nor is an address of the program.  The error then describes the first such
instruction, with its name, its index in the body and its target, unless that is missing. -/
theorem resolve_fails_at_first_offender (targeted : List String) (program : Program) :
    ((∃ e, resolve targeted program = .error e)
      ↔ ∃ ins ∈ program.body, program.Offender targeted ins)
    ∧ ∀ e, resolve targeted program = .error e
      ↔ ∃ (index : Nat) (ins : Instruction), program.body[index]? = some ins
        ∧ program.Offender targeted ins
        ∧ (∀ i < index, ∀ other, program.body[i]? = some other →
          ¬program.Offender targeted other)
        ∧ e = ins.complaint index := by
  refine ⟨⟨?_, ?_⟩, fun e => resolve_eq_error_iff⟩
  · intro ⟨e, he⟩
    obtain ⟨index, ins, hins, hoffender, -, -⟩ := resolve_eq_error_iff.1 he
    exact ⟨ins, List.mem_of_getElem? hins, hoffender⟩
  · intro ⟨ins, hins, hoffender⟩
    cases h : resolve targeted program with
    | error e => exact ⟨e, rfl⟩
    | ok resolved => exact absurd hoffender (not_offender_of_resolve h hins)

/-- The end of the program is an address, and a label without a name makes no empty target good: the
second jump is the first offender. -/
example : resolve ["jmp"] [⟨":", []⟩, ⟨"jmp", ["3"]⟩, ⟨"jmp", [""]⟩, ⟨"jmp", ["4"]⟩]
    = .error (.missingTarget "jmp" 1) := by decide +kernel

end PseudoAsm
