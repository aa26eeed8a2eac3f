import PseudoAsm.Analysis.Walk
import PseudoAsm.Listing

/-!
# Control-flow reports

The findings about a named program together with its lines.
-/

namespace PseudoAsm

/-- An instruction of a report. -/
structure ReportLine where
  address : Nat
  text : String
  reachable : Bool
deriving DecidableEq, Repr

/-- The lines and findings of a named program. -/
structure Report where
  name : String
  lines : List ReportLine
  findings : Findings
deriving DecidableEq, Repr

namespace Report

/-- The lines of a program from an address on. -/
def linesFrom (reachable : List Nat) (address : Nat) : Program → List ReportLine
  | [] => []
  | ins :: rest =>
    ⟨address, ins.listed, reachable.contains address⟩ :: linesFrom reachable (address + 1) rest

/-- The report on a program. -/
def ofProgram (name : String) (program : Program) : Report :=
  let findings := analyze program
  ⟨name, linesFrom findings.reachable 0 program, findings⟩

/-- The addresses that control never reaches, in ascending order. -/
def unreachable (report : Report) : List Nat :=
  (report.lines.filter fun line => !line.reachable).map ReportLine.address

theorem length_linesFrom (reachable : List Nat) (address : Nat) (program : Program) :
    (linesFrom reachable address program).length = program.length := by
  induction program generalizing address with
  | nil => rfl
  | cons ins rest ih => simp only [linesFrom, List.length_cons, ih]

/-- The lines from an address on are the instructions with their addresses, each marked by whether
control reaches it. -/
theorem mem_linesFrom_iff {reachable : List Nat} {address : Nat} {program : Program}
    {line : ReportLine} :
    line ∈ linesFrom reachable address program ↔ ∃ i ins, program[i]? = some ins
      ∧ line = ⟨address + i, ins.listed, reachable.contains (address + i)⟩ := by
  induction program generalizing address with
  | nil => simp only [linesFrom, List.not_mem_nil, List.getElem?_nil, reduceCtorEq, false_and,
      exists_false]
  | cons first rest ih =>
    rw [linesFrom, List.mem_cons, ih]
    constructor
    · rintro (rfl | ⟨i, ins, hins, rfl⟩)
      · exact ⟨0, first, rfl, rfl⟩
      · refine ⟨i + 1, ins, hins, ?_⟩
        rw [show address + (i + 1) = address + 1 + i by omega]
    · rintro ⟨i, ins, hins, rfl⟩
      cases i with
      | zero =>
        rw [List.getElem?_cons_zero, Option.some.injEq] at hins
        rw [hins]
        exact .inl rfl
      | succ i =>
        refine .inr ⟨i, ins, hins, ?_⟩
        rw [show address + (i + 1) = address + 1 + i by omega]

/-- The unreachable addresses are those of the program that the findings lack. -/
theorem mem_unreachable_iff {name : String} {program : Program} {a : Nat} :
    a ∈ (ofProgram name program).unreachable
      ↔ a < program.length ∧ a ∉ (analyze program).reachable := by
  simp only [unreachable, ofProgram, List.mem_map, List.mem_filter, Bool.not_eq_true']
  constructor
  · rintro ⟨line, ⟨hline, hunreached⟩, rfl⟩
    obtain ⟨i, ins, hins, rfl⟩ := mem_linesFrom_iff.1 hline
    have hlt : i < program.length := (List.getElem?_eq_some_iff.1 hins).1
    simp only [Nat.zero_add] at hunreached ⊢
    refine ⟨hlt, ?_⟩
    intro hmem
    rw [List.contains_iff_mem.2 hmem] at hunreached
    exact Bool.noConfusion hunreached
  · rintro ⟨hlt, hunreached⟩
    have hmarked : (analyze program).reachable.contains (0 + a) = false := by
      rw [Nat.zero_add, Bool.eq_false_iff]
      intro hmem
      exact hunreached (List.contains_iff_mem.1 hmem)
    have hline : ⟨0 + a, program[a].listed, (analyze program).reachable.contains (0 + a)⟩
        ∈ linesFrom (analyze program).reachable 0 program :=
      mem_linesFrom_iff.2 ⟨a, program[a], List.getElem?_eq_getElem hlt, rfl⟩
    exact ⟨_, ⟨hline, hmarked⟩, Nat.zero_add a⟩

end Report

end PseudoAsm
