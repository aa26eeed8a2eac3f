import PseudoAsm.Proofs.Resolution.Bodywise
import PseudoAsm.Proofs.Text.Lowercase

/-!
# Adding and renaming labels

Resolution reads the label table only at the targets of the program.  A label definition that no
target asks for, or that comes after another of the same name, can be put anywhere, and labels can
be given other names together with the targets that name them.

* `resolveAt_congr` — an instruction is resolved alike under tables that agree on its target;
* `labelAddress?_insert` — what one more definition does to the label table;
* `irrelevant_definition` — **one more definition that nothing needs makes no difference**;
* `Renaming`, `Relabeled` — new names for the labels of a program, and what becomes of it;
* `resolve_relabeled` — **new names for the labels make no difference**.
-/

namespace PseudoAsm

variable {targeted : List String} {program : Program}

/-- An instruction is resolved alike under label tables that agree on its target. -/
theorem resolveAt_congr {labels labels' : List (String × Nat)} {size index : Nat}
    {ins : Instruction} (h : ins.name ∈ targeted → ∀ target ∈ ins.target?,
      labelAddress? labels target = labelAddress? labels' target) :
    resolveAt targeted labels size (ins, index) = resolveAt targeted labels' size (ins, index) := by
  by_cases hmem : ins.name ∈ targeted
  · rw [resolveAt_of_mem hmem, resolveAt_of_mem hmem]
    cases htarget : ins.target? with
    | none => rw [resolveTarget_of_none htarget, resolveTarget_of_none htarget]
    | some target =>
      rw [resolveTarget_of_some htarget, resolveTarget_of_some htarget, h hmem target htarget]
  · rw [resolveAt_of_not_mem hmem, resolveAt_of_not_mem hmem]

/-! ### One more definition -/

theorem body_append (before after : Program) :
    Program.body (before ++ after) = before.body ++ after.body :=
  List.filter_append before after

theorem labelTable_append (start : Nat) (before after : Program) :
    labelTable start (before ++ after)
      = labelTable start before ++ labelTable (start + before.body.length) after := by
  induction before generalizing start with
  | nil => rfl
  | cons ins rest ih =>
    cases hname : ins.labelName? with
    | some name =>
      have hlabel := Instruction.isLabel_of_labelName? hname
      simp only [List.cons_append, labelTable, hname, ih, Program.body_cons_label hlabel]
    | none =>
      have hcode := Instruction.labelName?_eq_none_iff.1 hname
      simp only [List.cons_append, labelTable, hname, ih, Program.body_cons_code hcode,
        List.length_cons, Nat.add_assoc, Nat.add_comm 1]

section Insertion

variable {before after : Program} {label : Instruction} {name : String}

/-- A definition adds nothing to the body. -/
theorem body_insert (hlabel : label.labelName? = some name) :
    Program.body (before ++ label :: after) = Program.body (before ++ after) := by
  rw [body_append, body_append, Program.body_cons_label (Instruction.isLabel_of_labelName? hlabel)]

/-- One more definition gives an address to its own name only, and not even to that if the name is
defined before. -/
theorem labelAddress?_insert (hlabel : label.labelName? = some name) {target : String}
    (h : Text.lower target ≠ Text.lower name ∨ Text.lower name ∈ before.labelNames) :
    labelAddress? (labelTable 0 (before ++ label :: after)) target
      = labelAddress? (labelTable 0 (before ++ after)) target := by
  rw [labelTable_append, labelTable_append, labelAddress?, labelAddress?, List.lookup_append,
    List.lookup_append, labelTable, hlabel]
  by_cases hsame : Text.lower target = Text.lower name
  · have hdefined : Text.lower target ∈ before.labelNames := by
      rw [hsame]
      exact h.resolve_left (not_not_intro hsame)
    obtain ⟨address, haddress⟩ := (exists_labelAddress?_iff 0).2 hdefined
    rw [labelAddress?] at haddress
    rw [haddress, Option.some_or, Option.some_or]
  · rw [List.lookup_cons, beq_eq_false_iff_ne.2 hsame]

/-- **A label definition that nothing needs makes no difference**: no target of the program asks for
its name, or the name is defined before.  So the check of a program without labels and the rewriting
of the same program with a label added come to the same. -/
theorem irrelevant_definition (targeted : List String) (before after : Program)
    (hlabel : label.labelName? = some name)
    (h : (∀ ins ∈ Program.body (before ++ after), ins.name ∈ targeted → ∀ target ∈ ins.target?,
        Text.lower target ≠ Text.lower name)
      ∨ Text.lower name ∈ before.labelNames) :
    resolve targeted (before ++ label :: after) = resolve targeted (before ++ after)
      ∧ ((∀ ins ∈ before ++ after, ins.isLabel = false) →
        (checkTargets targeted (before ++ after).length 0 (before ++ after)
            >>= fun _ => .ok (before ++ after))
          = resolveFrom targeted (labelTable 0 (before ++ label :: after))
              (before ++ after).length 0 (before ++ label :: after)) := by
  have hinsert : resolve targeted (before ++ label :: after)
      = resolve targeted (before ++ after) := by
    refine resolve_congr ?_
    rw [body_insert hlabel, List.forall₂_same]
    intro ins hins index
    refine resolveAt_congr fun hmem target htarget => labelAddress?_insert hlabel ?_
    exact h.imp_left fun hunused => hunused ins hins hmem target htarget
  refine ⟨hinsert, fun hfree => ?_⟩
  have hbody : Program.body (before ++ after) = before ++ after := Program.body_eq_self hfree
  rw [resolve_eq_resolveFrom, resolve_eq_resolveFrom, body_insert hlabel, hbody,
    labelTable_eq_nil_iff.2 hfree, resolveFrom_nil targeted _ hfree] at hinsert
  exact hinsert.symm

end Insertion

/-- A second subroutine label in the sample program goes to nobody, and in a program without labels
a label makes the same target an error as before. -/
theorem irrelevant_definition_sample :
    Text.lower "SUB" ∈ Program.labelNames (sampleProgram.take 8)
      ∧ resolve InstructionSet.standard.addressMnemonics
          (sampleProgram.take 8 ++ ⟨"SUB:", []⟩ :: sampleProgram.drop 8) = .ok sampleResolved
      ∧ resolveFrom ["jmp"] (labelTable 0 [⟨"jmp", ["2"]⟩, ⟨"x:", []⟩, ⟨"jmp", ["3"]⟩]) 2 0
          [⟨"jmp", ["2"]⟩, ⟨"x:", []⟩, ⟨"jmp", ["3"]⟩]
        = .error (.unresolvedLabel "3" "jmp" 1) := by
  have hbefore : Text.lower "SUB" ∈ Program.labelNames (sampleProgram.take 8) := by decide +kernel
  have hsub : Instruction.labelName? ⟨"SUB:", []⟩ = some "SUB" := by decide +kernel
  have hx : Instruction.labelName? ⟨"x:", []⟩ = some "x" := by decide +kernel
  have hsample := (irrelevant_definition InstructionSet.standard.addressMnemonics
    (sampleProgram.take 8) (sampleProgram.drop 8) hsub (.inr hbefore)).1
  have hfree := (irrelevant_definition ["jmp"] [⟨"jmp", ["2"]⟩] [⟨"jmp", ["3"]⟩] hx
    (.inl (by decide +kernel))).2 (by decide +kernel)
  refine ⟨hbefore, hsample.trans (by decide +kernel), ?_⟩
  exact hfree.symm.trans (by decide +kernel)

/-! ### New names -/

/-- New names for the labels of a program, whose old names are given in lowercase.  Like all names
of labels, the new ones are compared in lowercase. -/
structure Renaming (targeted : List String) (program : Program) (f : String → String) : Prop where
  /-- Different labels get different names. -/
  injective : ∀ a ∈ program.labelNames, ∀ b ∈ program.labelNames,
    Text.lower (f a) = Text.lower (f b) → a = b
  /-- A name that is not empty does not become empty. -/
  nonempty : ∀ a ∈ program.labelNames, a ≠ "" → f a ≠ ""
  /-- No label gets the name of a target that names no label. -/
  fresh : ∀ ins ∈ program.body, ins.name ∈ targeted → ∀ target ∈ ins.target?,
    Text.lower target ∉ program.labelNames →
      ∀ a ∈ program.labelNames, Text.lower (f a) ≠ Text.lower target

/-- What becomes of an instruction of a program when its labels get new names: a definition defines
the new name, a target that names a label is replaced by the new name in any letter case, and all
else stays.  An empty target names no label. -/
inductive Relabeled (targeted : List String) (program : Program) (f : String → String) :
    Instruction → Instruction → Prop
  /-- A label definition. -/
  | definition {ins out : Instruction} (name new : String) (hins : ins.labelName? = some name)
      (hout : out.labelName? = some new)
      (hnew : Text.lower new = Text.lower (f (Text.lower name))) :
      Relabeled targeted program f ins out
  /-- An instruction with a target that names a label. -/
  | target {ins : Instruction} (target new : String) (hcode : ins.isLabel = false)
      (hmem : ins.name ∈ targeted) (htarget : ins.target? = some target)
      (hlabel : Text.lower target ∈ program.labelNames)
      (hnew : Text.lower new = Text.lower (f (Text.lower target))) :
      Relabeled targeted program f ins (ins.withTarget new)
  /-- Any other instruction. -/
  | other {ins : Instruction} (hcode : ins.isLabel = false)
      (hother : ins.name ∈ targeted → ∀ target ∈ ins.target?,
        Text.lower target ∉ program.labelNames) :
      Relabeled targeted program f ins ins

theorem Relabeled.isLabel_eq {f : String → String} {ins out : Instruction}
    (h : Relabeled targeted program f ins out) : out.isLabel = ins.isLabel := by
  cases h with
  | definition name new hins hout =>
    rw [Instruction.isLabel_of_labelName? hins, Instruction.isLabel_of_labelName? hout]
  | target | other => rfl

/-- In a table whose names are replaced, a new name stands for what the old one did, unless
another old name became the same. -/
theorem lookup_map_name {g : String → String} {table : List (String × Nat)} {name : String}
    (h : ∀ other ∈ table.map Prod.fst, g other = g name → other = name) :
    (table.map fun entry => (g entry.1, entry.2)).lookup (g name) = table.lookup name := by
  induction table with
  | nil => rfl
  | cons entry rest ih =>
    obtain ⟨other, address⟩ := entry
    rw [List.map_cons, List.forall_mem_cons] at h
    rw [List.map_cons, List.lookup_cons, List.lookup_cons, ih h.2]
    by_cases hsame : name = other
    · rw [hsame, beq_self_eq_true, beq_self_eq_true]
    · have hdiffer : g name ≠ g other := fun heq => hsame (h.1 heq.symm).symm
      rw [beq_eq_false_iff_ne.2 hsame, beq_eq_false_iff_ne.2 hdiffer]

section Renaming

variable {f : String → String} {renamed : Program}

/-- What names a label keeps doing so under the new name, which is not empty. -/
theorem Renaming.ne_empty (hf : Renaming targeted program f) {ins : Instruction}
    {target new : String} (htarget : ins.target? = some target)
    (hlabel : Text.lower target ∈ program.labelNames)
    (hnew : Text.lower new = Text.lower (f (Text.lower target))) : new ≠ "" := by
  intro hempty
  have hold : Text.lower target ≠ "" := by
    rw [Ne, Text.lower_eq_empty_iff, ← String.isEmpty_iff, (target?_eq_some_iff.1 htarget).2]
    exact Bool.false_ne_true
  refine hf.nonempty _ hlabel hold ?_
  rw [← Text.lower_eq_empty_iff, ← hnew, Text.lower_eq_empty_iff]
  exact hempty

/-- The label table of a relabeled program. -/
theorem labelTable_relabeled {part part' : Program}
    (h : List.Forall₂ (Relabeled targeted program f) part part') (start : Nat) :
    labelTable start part'
      = (labelTable start part).map fun entry => (Text.lower (f entry.1), entry.2) := by
  induction h generalizing start with
  | nil => rfl
  | @cons ins out rest rest' hhead htail ih =>
    cases hhead with
    | definition name new hins hout hnew =>
      simp only [labelTable, hins, hout, hnew, ih, List.map_cons]
    | target target new hcode =>
      have hnone := Instruction.labelName?_eq_none_iff.2 hcode
      have hnone' : (ins.withTarget new).labelName? = none := hnone
      simp only [labelTable, hnone, hnone', ih]
    | other hcode =>
      simp only [labelTable, Instruction.labelName?_eq_none_iff.2 hcode, ih]

theorem labelNames_relabeled (h : List.Forall₂ (Relabeled targeted program f) program renamed) :
    renamed.labelNames = program.labelNames.map fun name => Text.lower (f name) := by
  rw [← map_fst_labelTable renamed 0, labelTable_relabeled h, ← map_fst_labelTable program 0,
    List.map_map, List.map_map]
  rfl

/-- A new name has the address that the old one has. -/
theorem labelAddress?_relabeled (hf : Renaming targeted program f)
    (h : List.Forall₂ (Relabeled targeted program f) program renamed) {target new : String}
    (hlabel : Text.lower target ∈ program.labelNames)
    (hnew : Text.lower new = Text.lower (f (Text.lower target))) :
    labelAddress? (labelTable 0 renamed) new = labelAddress? (labelTable 0 program) target := by
  rw [labelAddress?, labelAddress?, hnew, labelTable_relabeled h]
  refine lookup_map_name (g := fun name => Text.lower (f name)) fun other hother hsame => ?_
  rw [map_fst_labelTable] at hother
  exact hf.injective other hother _ hlabel hsame

/-- The body of a relabeled program. -/
theorem forall₂_body {part part' : Program}
    (h : List.Forall₂ (Relabeled targeted program f) part part') :
    List.Forall₂ (Relabeled targeted program f) part.body part'.body := by
  induction h with
  | nil => exact .nil
  | @cons ins out rest rest' hhead htail ih =>
    cases hins : ins.isLabel with
    | true =>
      rw [Program.body_cons_label hins, Program.body_cons_label (hhead.isLabel_eq.trans hins)]
      exact ih
    | false =>
      rw [Program.body_cons_code hins, Program.body_cons_code (hhead.isLabel_eq.trans hins)]
      exact .cons hhead ih

/-- An instruction of the body is resolved as before. -/
theorem resolveAt_relabeled (hf : Renaming targeted program f)
    (h : List.Forall₂ (Relabeled targeted program f) program renamed) {size index : Nat}
    {ins out : Instruction} (hins : ins ∈ program.body)
    (hout : Relabeled targeted program f ins out) :
    resolveAt targeted (labelTable 0 renamed) size (out, index)
      = resolveAt targeted (labelTable 0 program) size (ins, index) := by
  cases hout with
  | definition name new hname =>
    have hlabel := Instruction.isLabel_of_labelName? hname
    rw [Program.isLabel_of_mem_body hins] at hlabel
    cases hlabel
  | target target new hcode hmem htarget hlabel hnew =>
    have htarget' : (ins.withTarget new).target? = some new :=
      target?_withTarget (hf.ne_empty htarget hlabel hnew)
    have hmem' : (ins.withTarget new).name ∈ targeted := hmem
    obtain ⟨address, haddress⟩ := (exists_labelAddress?_iff 0).2 hlabel
    have haddress' := (labelAddress?_relabeled hf h hlabel hnew).trans haddress
    rw [resolveAt_of_mem hmem, resolveAt_of_mem hmem', resolveTarget_of_some htarget,
      resolveTarget_of_some htarget', haddress, haddress']
    rfl
  | other hcode hother =>
    refine resolveAt_congr fun hmem target htarget => ?_
    have hundefined := hother hmem target htarget
    rw [(labelAddress?_eq_none_iff 0).2 hundefined, labelAddress?_eq_none_iff 0,
      labelNames_relabeled h, List.mem_map]
    intro ⟨name, hname, hsame⟩
    exact hf.fresh ins hins hmem target htarget hundefined name hname hsame

/-- **New names for the labels make no difference.**  If the labels of a program get new names, and
with them the targets that name a label, then the same program comes out of the resolution, or the
same error. -/
theorem resolve_relabeled (hf : Renaming targeted program f)
    (h : List.Forall₂ (Relabeled targeted program f) program renamed) :
    resolve targeted renamed = resolve targeted program := by
  have hbody := forall₂_body h
  refine (resolve_congr ?_).symm
  refine List.Forall₂.imp ?_ ((List.forall₂_and_left _ _).2 ⟨fun ins hins => hins, hbody⟩)
  intro ins out hpair index
  exact (resolveAt_relabeled hf h hpair.1 hpair.2).symm

end Renaming

/-- A program with two labels, a jump to each, and a jump to an address. -/
def loopProgram : Program :=
  [⟨"loop:", []⟩, ⟨"jmp", ["LOOP"]⟩, ⟨"je", ["done", "x"]⟩, ⟨"Done:", []⟩, ⟨"jl", ["0"]⟩]

/-- One label named like an address, and the other like the first was. -/
def numberedName (name : String) : String :=
  if name = "loop" then "1" else "loop"

/-- The loop program under the new names. -/
def numberedProgram : Program :=
  [⟨"1:", []⟩, ⟨"jmp", ["1"]⟩, ⟨"je", ["Loop", "x"]⟩, ⟨"loop:", []⟩, ⟨"jl", ["0"]⟩]

/-- The new names leave the loop program what it was. -/
theorem resolve_relabeled_numbered :
    Renaming InstructionSet.standard.addressMnemonics loopProgram numberedName
      ∧ List.Forall₂
        (Relabeled InstructionSet.standard.addressMnemonics loopProgram numberedName)
        loopProgram numberedProgram
      ∧ resolve InstructionSet.standard.addressMnemonics numberedProgram
        = .ok [⟨"jmp", ["0"]⟩, ⟨"je", ["2", "x"]⟩, ⟨"jl", ["0"]⟩] := by
  have hf : Renaming InstructionSet.standard.addressMnemonics loopProgram numberedName := by
    constructor
    · decide +kernel
    · decide +kernel
    · decide +kernel
  have hrelabeled : List.Forall₂
      (Relabeled InstructionSet.standard.addressMnemonics loopProgram numberedName)
      loopProgram numberedProgram := by
    refine .cons ?_ (.cons ?_ (.cons ?_ (.cons ?_ (.cons ?_ .nil))))
    · exact .definition "loop" "1" (by decide +kernel) (by decide +kernel) (by decide +kernel)
    · exact .target "LOOP" "1" (by decide +kernel) (by decide +kernel) (by decide +kernel)
        (by decide +kernel) (by decide +kernel)
    · exact .target "done" "Loop" (by decide +kernel) (by decide +kernel) (by decide +kernel)
        (by decide +kernel) (by decide +kernel)
    · exact .definition "Done" "loop" (by decide +kernel) (by decide +kernel) (by decide +kernel)
    · exact .other (by decide +kernel) (by decide +kernel)
  refine ⟨hf, hrelabeled, (resolve_relabeled hf hrelabeled).trans ?_⟩
  decide +kernel

end PseudoAsm
