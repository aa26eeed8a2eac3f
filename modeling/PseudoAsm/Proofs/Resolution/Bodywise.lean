import PseudoAsm.Proofs.Resolution.Shift

/-!
# Resolution, one instruction at a time

Resolution goes through the body of a program in order.  What becomes of an instruction depends on
its index, the addresses of the labels and the size of the body, and the first instruction that
cannot be resolved fails the whole.  The label definitions between the instructions matter only for
the addresses that they give.

* `Program.labelNames` — the labels that a program defines;
* `Instruction.target?` — the target that an instruction is given;
* `resolveAt` — the resolution of one instruction of the body;
* `resolve_eq_mapM` — **a program is resolved instruction by instruction**;
* `resolve_congr` — programs whose instructions are resolved alike are resolved alike.
-/

namespace PseudoAsm

/-! ### Labels -/

/-- The labels that a program defines, in lowercase and in order of definition. -/
def Program.labelNames (program : Program) : List String :=
  program.filterMap fun ins => ins.labelName?.map Text.lower

theorem map_fst_labelTable (program : Program) (start : Nat) :
    (labelTable start program).map Prod.fst = program.labelNames := by
  induction program generalizing start with
  | nil => rfl
  | cons ins rest ih =>
    cases hname : ins.labelName? with
    | none =>
      simp only [labelTable, Program.labelNames, hname, ih, List.filterMap_cons, Option.map_none]
    | some name =>
      simp only [labelTable, Program.labelNames, hname, ih, List.filterMap_cons, Option.map_some,
        List.map_cons]

/-- A name has no address exactly if the program defines no such label. -/
theorem labelAddress?_eq_none_iff {program : Program} (start : Nat) {name : String} :
    labelAddress? (labelTable start program) name = none
      ↔ Text.lower name ∉ program.labelNames := by
  rw [← map_fst_labelTable program start, labelAddress?, List.lookup_eq_none_iff]
  simp only [bne_iff_ne, List.mem_map, not_exists, not_and, ne_comm]

/-- A name has an address exactly if the program defines such a label. -/
theorem exists_labelAddress?_iff {program : Program} (start : Nat) {name : String} :
    (∃ address, labelAddress? (labelTable start program) name = some address)
      ↔ Text.lower name ∈ program.labelNames := by
  rw [← Option.ne_none_iff_exists', Ne, labelAddress?_eq_none_iff, Classical.not_not]

theorem definition?_eq_none_iff {program : Program} {name : String} :
    program.definition? name = none ↔ Text.lower name ∉ program.labelNames := by
  rw [← labelAddress?_eq_none_iff 0, Program.labelAddress?_labelTable,
    Option.map_eq_none_iff]

/-! ### Targets -/

/-- The target that an instruction is given; an empty one counts as absent. -/
def Instruction.target? (ins : Instruction) : Option String :=
  (ins.param? 0).filter fun target => !target.isEmpty

section Targets

variable {targeted : List String} {labels : List (String × Nat)} {size index : Nat}
  {ins : Instruction} {target : String}

theorem target?_eq_some_iff :
    ins.target? = some target ↔ ins.param? 0 = some target ∧ target.isEmpty = false := by
  simp only [Instruction.target?, Option.filter_eq_some_iff, Bool.not_eq_true']

theorem target?_withTarget {new : String} (h : new ≠ "") :
    (ins.withTarget new).target? = some new := by
  refine target?_eq_some_iff.2 ⟨rfl, ?_⟩
  rw [Bool.eq_false_iff, Ne, String.isEmpty_iff]
  exact h

theorem givenTarget_of_some (h : ins.target? = some target) :
    givenTarget index ins = .ok target :=
  givenTarget_eq_ok_iff.2 (target?_eq_some_iff.1 h)

theorem givenTarget_of_none (h : ins.target? = none) :
    givenTarget index ins = .error (.missingTarget ins.name index) := by
  unfold givenTarget
  cases hparam : ins.param? 0 with
  | none => rfl
  | some target =>
    cases hempty : target.isEmpty with
    | true => simp only [hempty, if_true]
    | false => rw [target?_eq_some_iff.2 ⟨hparam, hempty⟩] at h; cases h

theorem resolveTarget_of_some (h : ins.target? = some target) :
    resolveTarget labels size index ins = match labelAddress? labels target with
      | some address => .ok (ins.withTarget (toString address))
      | none => literalAddress size index ins target >>= fun _ => .ok ins := by
  rw [resolveTarget, givenTarget_of_some h]
  rfl

theorem resolveTarget_of_none (h : ins.target? = none) :
    resolveTarget labels size index ins = .error (.missingTarget ins.name index) := by
  rw [resolveTarget, givenTarget_of_none h]
  rfl

end Targets

/-! ### The body, instruction by instruction -/

section Body

variable {targeted : List String} {labels : List (String × Nat)} {size index : Nat}

/-- The resolution of an instruction of the body, given with its index. -/
def resolveAt (targeted : List String) (labels : List (String × Nat)) (size : Nat)
    (entry : Instruction × Nat) : Except ResolveError Instruction :=
  if targeted.contains entry.1.name then resolveTarget labels size entry.2 entry.1
  else .ok entry.1

theorem resolveAt_of_mem {ins : Instruction} (h : ins.name ∈ targeted) :
    resolveAt targeted labels size (ins, index) = resolveTarget labels size index ins :=
  if_pos (List.contains_iff_mem.2 h)

theorem resolveAt_of_not_mem {ins : Instruction} (h : ins.name ∉ targeted) :
    resolveAt targeted labels size (ins, index) = .ok ins :=
  if_neg fun hcontains => h (List.contains_iff_mem.1 hcontains)

theorem resolveFrom_eq_mapM (program : Program) :
    resolveFrom targeted labels size index program
      = (program.body.zipIdx index).mapM (resolveAt targeted labels size) := by
  induction program generalizing index with
  | nil => rfl
  | cons ins rest ih =>
    cases hlabel : ins.isLabel with
    | true => rw [resolveFrom, if_pos hlabel, Program.body_cons_label hlabel, ih]
    | false =>
      rw [resolveFrom_cons_code hlabel, Program.body_cons_code hlabel, List.zipIdx_cons,
        List.mapM_cons, ih]
      rfl

/-- **A program is resolved instruction by instruction**, with the labels of the whole. -/
theorem resolve_eq_mapM (targeted : List String) (program : Program) :
    resolve targeted program
      = program.body.zipIdx.mapM
          (resolveAt targeted (labelTable 0 program) program.body.length) := by
  rw [resolve_eq_resolveFrom, resolveFrom_eq_mapM]

/-- Lists whose elements fare alike, each at its index, fare alike. -/
theorem mapM_zipIdx_congr {ε α β γ : Type} {f : α × Nat → Except ε γ} {g : β × Nat → Except ε γ}
    {l : List α} {l' : List β} (h : List.Forall₂ (fun a b => ∀ i, f (a, i) = g (b, i)) l l')
    (start : Nat) : (l.zipIdx start).mapM f = (l'.zipIdx start).mapM g := by
  induction h generalizing start with
  | nil => rfl
  | cons hhead htail ih =>
    rw [List.zipIdx_cons, List.zipIdx_cons, List.mapM_cons, List.mapM_cons, hhead, ih]

/-- Programs whose instructions are resolved alike are resolved alike. -/
theorem resolve_congr {program other : Program}
    (h : List.Forall₂ (fun ins out => ∀ index,
        resolveAt targeted (labelTable 0 program) program.body.length (ins, index)
          = resolveAt targeted (labelTable 0 other) program.body.length (out, index))
      program.body other.body) :
    resolve targeted program = resolve targeted other := by
  rw [resolve_eq_mapM, resolve_eq_mapM, ← h.length_eq]
  exact mapM_zipIdx_congr h 0

end Body

end PseudoAsm
