import Mathlib.Algebra.GroupWithZero.Nat
import PseudoAsm.Proofs.Analysis.Soundness
import PseudoAsm.Proofs.Machine.Running

/-!
# Programs without backward edges

If every edge of a report goes forward, each run of the program comes to an end.  The pointer alone
does not show it, since a return moves it backwards and a subroutine may be entered many times.  So
steps are counted for the pointer and for every return address on the stack.

* `stepsFrom` — a bound on the steps from an address on until control leaves the program or returns;
* `weight` — a bound on the steps to come: those from the pointer on, and those from every return
  address on;
* `weight_lt_of_transferred`, `Tracked.weight_lt` — **every step lowers the weight**;
* `forward_halts` — **a program whose edges all go forward halts**.
-/

namespace PseudoAsm

variable {program : Program} {ins : Instruction} {op : Operation} {m after : Machine} {flow : Flow}

/-- Every edge that the analysis finds leads to a later address. -/
def Program.IsForward (program : Program) : Prop :=
  ∀ edge ∈ (analyze program).edges, edge.source < edge.target

/-! ### Counting the steps to come -/

/-- The most steps that a forward program takes from an address on, called subroutines included,
until control leaves the program or returns. -/
def stepsFrom (program : Program) (address : Nat) : Nat :=
  2 ^ (program.length - address) - 1

/-- The steps of a call, of its subroutine further on, and from the return address on. -/
theorem stepsFrom_eq {address : Nat} (h : address < program.length) :
    stepsFrom program address = 1 + 2 * stepsFrom program (address + 1) := by
  have hdouble : 2 ^ (program.length - address) = 2 ^ (program.length - (address + 1)) * 2 := by
    rw [← Nat.pow_succ]
    congr 1
    omega
  have hpos : 0 < 2 ^ (program.length - (address + 1)) := Nat.two_pow_pos _
  unfold stepsFrom
  omega

theorem stepsFrom_anti {a b : Nat} (h : a ≤ b) : stepsFrom program b ≤ stepsFrom program a := by
  have hle : 2 ^ (program.length - b) ≤ 2 ^ (program.length - a) :=
    Nat.pow_le_pow_right Nat.two_pos (by omega)
  unfold stepsFrom
  omega

/-- A bound on the steps to come, those after each return address included. -/
def weight (program : Program) (m : Machine) : Nat :=
  stepsFrom program m.ip + (m.callStack.map (stepsFrom program)).sum

theorem weight_fresh (program : Program) (settings : Settings) :
    weight program (.fresh settings) = 2 ^ program.length - 1 := rfl

/-! ### One step -/

/-- **An executed instruction lowers the weight** if it returns or leads to a later address. -/
theorem weight_lt_of_transferred {control : ControlEffect} {target : Nat}
    (hlt : m.ip < program.length) (h : Transferred ins m control flow after)
    (htarget : flow.target? m.ip = some target) (hforward : control ≠ .back → m.ip < target) :
    weight program { after with ip := target } < weight program m := by
  have hsteps : stepsFrom program m.ip = 1 + 2 * stepsFrom program (m.ip + 1) := stepsFrom_eq hlt
  have htargetSteps (hcontrol : control ≠ .back) :
      stepsFrom program target ≤ stepsFrom program (m.ip + 1) := stepsFrom_anti (hforward hcontrol)
  unfold weight
  cases h with
  | advance hip hstack =>
    have hle := htargetSteps (by nofun)
    show stepsFrom program target + (after.callStack.map (stepsFrom program)).sum < _
    rw [hstack]
    omega
  | branch | taken | passed | moved | stayed =>
    have hle := htargetSteps (by nofun)
    show stepsFrom program target + (m.callStack.map (stepsFrom program)).sum < _
    omega
  | call =>
    -- the subroutine and what follows its return are both counted from the next address on
    have hle := htargetSteps (by nofun)
    show stepsFrom program target
      + (((m.ip + 1) :: m.callStack).map (stepsFrom program)).sum < _
    rw [List.map_cons, List.sum_cons]
    omega
  | @back _ below hback =>
    -- what follows the return was counted on the stack already
    cases htarget
    show stepsFrom program target + (below.map (stepsFrom program)).sum < _
    rw [hback, List.map_cons, List.sum_cons]
    omega
  | stop => cases htarget

/-- **Every step that leaves a tracked machine running lowers the weight.** -/
theorem Tracked.weight_lt (h : Tracked program m) (hforward : program.IsForward)
    (hdetermined : Determined program m) (hstep : Stepped program m (.ok .running) after) :
    weight program after < weight program m := by
  generalize hresult : (.ok .running : Except Trap Status) = result at hstep
  cases hstep with
  | outside | unknown | trapped | ended => cases hresult
  | moved hfetch heffect htarget =>
    have hreached := h.reached hfetch
    have htransferred := transferred_of_effect heffect
    have hlt : m.ip < program.length := (List.getElem?_eq_some_iff.1 hreached.instruction).1
    apply weight_lt_of_transferred hlt htransferred htarget
    intro hback
    obtain ⟨kind, hedge⟩ := exists_edge_of_transferred htransferred
      (hreached.isUndetermined_eq_false (hdetermined _ _ hfetch)) hback htarget
    exact hforward _ (hreached.edge_mem hedge)

/-! ### Every run -/

/-- The steps taken and the steps to come are never more than there were to come. -/
theorem weight_machineAt_le (hnone : (analyze program).undetermined = [])
    (hforward : program.IsForward) (settings : Settings) {n : Nat}
    (hgoes : Processor.standard.GoesOn program (.fresh settings) n) :
    weight program (Processor.standard.machineAt program (.fresh settings) n) + n
      ≤ weight program (.fresh settings) := by
  induction n with
  | zero => exact Nat.le_refl _
  | succ n ih =>
    have hbefore := ih (hgoes.mono n.le_succ)
    have htracked := tracked_machineAt program settings
      fun i (_ : i < n) => determined_of_eq_nil hnone _
    have hstep := stepped_at program (.fresh settings) n
    rw [hgoes n n.lt_succ_self] at hstep
    have hlt := htracked.weight_lt hforward (determined_of_eq_nil hnone _) hstep
    omega

/-- **Forward programs halt.**  If nothing is undetermined and every edge leads to a later address,
one of the first `2 ^ program.length` steps does not leave the machine running. -/
theorem forward_halts (program : Program) (settings : Settings)
    (hnone : (analyze program).undetermined = [])
    (hforward : ∀ edge ∈ (analyze program).edges, edge.source < edge.target) :
    ∃ n < 2 ^ program.length, Processor.standard.HaltsAt program (.fresh settings) n := by
  rcases Processor.goesOn_or_haltsAt Processor.standard program (.fresh settings)
    (2 ^ program.length) with hgoes | hhalts
  · have hle := weight_machineAt_le hnone hforward settings hgoes
    have hpos : 0 < 2 ^ program.length := Nat.two_pow_pos _
    rw [weight_fresh] at hle
    omega
  · exact hhalts

/-- A subroutine entered twice, the first time from within another one. -/
def nestedProgram : Program :=
  [⟨"call", ["3"]⟩, ⟨"call", ["5"]⟩, ⟨"end", []⟩, ⟨"call", ["5"]⟩, ⟨"ret", []⟩, ⟨"mov", ["a", "1"]⟩,
    ⟨"ret", []⟩]

/-- Its calls are forward, so that it halts even though it returns three times. -/
theorem forward_halts_nested :
    (analyze nestedProgram).undetermined = []
      ∧ (∀ edge ∈ (analyze nestedProgram).edges, edge.source < edge.target)
      ∧ (Processor.standard.machineAt nestedProgram (.fresh {}) 4).ip = 4
      ∧ ∃ n < 2 ^ 7, Processor.standard.HaltsAt nestedProgram (.fresh {}) n := by
  have hnone : (analyze nestedProgram).undetermined = [] := by decide +kernel
  have hforward : ∀ edge ∈ (analyze nestedProgram).edges, edge.source < edge.target := by
    decide +kernel
  have hreturned : (Processor.standard.machineAt nestedProgram (.fresh {}) 4).ip = 4 := by
    decide +kernel
  exact ⟨hnone, hforward, hreturned, forward_halts nestedProgram {} hnone hforward⟩

end PseudoAsm
