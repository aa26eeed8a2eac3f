import Mathlib.Order.Bounds.Basic
import PseudoAsm.Proofs.Analysis.Walk

/-!
# The reachable part of the control flow, exactly

Which addresses may follow an address is told by the text of its instruction, case by case.  The
walk looks at addresses in the order of its queue, which may hold one of them several times; what it
finds in the end depends on none of this.

* `Successor` — the addresses that may follow an address, and how control passes to them;
* `mem_edges_iff_successor` — **they are the targets of its edges**;
* `ClosedUnderSuccessors` — the sets that control started at address 0 cannot leave;
* `Undetermined` — the addresses whose successors the text does not tell;
* `Walk.Exact` — the invariant of the walk: it never leaves such a set, and notes every edge once;
* `analyze_exact` — **the findings are the least such set, with its edges and special addresses**.
-/

namespace PseudoAsm

variable {program : Program} {ins : Instruction} {op : Operation} {kind : EdgeKind} {a t : Nat}

/-! ### Successors -/

/-- The operations that jump to a stated address if the last comparison came out as they ask. -/
def conditionalJumps : List Operation :=
  [.je, .jne, .jg, .jge, .jl, .jle]

/-- Control may pass from an address to another, as the text of the instruction tells. -/
inductive Successor (program : Program) (a : Nat) : Nat → EdgeKind → Prop
  | branch {ins : Instruction} {t : Nat} (hins : program[a]? = some ins)
      (hop : ins.operation? = some .jmp) (htarget : statedTarget? ins = some t) :
      Successor program a t .branch
  | conditional {ins : Instruction} {op : Operation} {t : Nat} (hins : program[a]? = some ins)
      (hop : ins.operation? = some op) (hjump : op ∈ conditionalJumps)
      (htarget : statedTarget? ins = some t) : Successor program a t .conditional
  /-- A relative jump leads to its address and the offset together, unless this is negative. -/
  | relative {ins : Instruction} {offset : Int32} {t : Nat} (hins : program[a]? = some ins)
      (hop : ins.operation? = some .jnz) (hoffset : ins.offset? = some offset)
      (htarget : (t : Int) = a + offset.toInt) : Successor program a t .conditional
  | call {ins : Instruction} {t : Nat} (hins : program[a]? = some ins)
      (hop : ins.operation? = some .call) (htarget : statedTarget? ins = some t) :
      Successor program a t .call
  /-- Jumps, returns and ends do not go on to the following instruction, all others do. -/
  | fallthrough {ins : Instruction} {op : Operation} (hins : program[a]? = some ins)
      (hop : ins.operation? = some op) (honward : op ∉ [.jmp, .ret, .stop]) :
      Successor program a (a + 1) .fallthrough

/-- The text does not tell all that may follow an address. -/
inductive Undetermined (program : Program) (a : Nat) : Prop
  /-- Its mnemonic is unknown. -/
  | unknown {ins : Instruction} (hins : program[a]? = some ins) (hop : ins.operation? = none)
  /-- A jump or call states no address. -/
  | target {ins : Instruction} {op : Operation} (hins : program[a]? = some ins)
      (hop : ins.operation? = some op) (hjump : op ∈ .jmp :: .call :: conditionalJumps)
      (htarget : statedTarget? ins = none)
  /-- A relative jump has no numeral for an offset, or one that leads below all addresses. -/
  | offset {ins : Instruction} (hins : program[a]? = some ins) (hop : ins.operation? = some .jnz)
      (hoffset : ∀ offset, ins.offset? = some offset → (a : Int) + offset.toInt < 0)

/-- What an operation may transfer control to, case by case. -/
theorem transfer?_eq_some_iff {target : Option Nat} :
    transfer? a ins op.controlEffect = some (target, kind)
      ↔ (op = .jmp ∧ statedTarget? ins = target ∧ kind = .branch)
        ∨ (op ∈ conditionalJumps ∧ statedTarget? ins = target ∧ kind = .conditional)
        ∨ (op = .jnz ∧ statedOffset? a ins = target ∧ kind = .conditional)
        ∨ (op = .call ∧ statedTarget? ins = target ∧ kind = .call) := by
  cases op <;>
    simp [transfer?, Operation.controlEffect, conditionalJumps, eq_comm (a := kind)]

theorem fallsThrough_iff : op.controlEffect.fallsThrough = true ↔ op ∉ [.jmp, .ret, .stop] := by
  cases op <;> decide

/-! ### Edges -/

/-- **The edges of an instruction lead to the addresses that may follow it.** -/
theorem mem_edges_iff_successor (hins : program[a]? = some ins) :
    ⟨a, t, kind⟩ ∈ ins.edges a ↔ Successor program a t kind := by
  constructor
  · intro hedge
    cases hop : ins.operation? with
    | none =>
      rw [Instruction.edges, hop] at hedge
      cases hedge
    | some op =>
      rw [Instruction.edges_of_operation hop] at hedge
      obtain ⟨-, htransfer | ⟨honward, rfl, rfl⟩⟩ := Edge.mem_leaving_iff.1 hedge
      · obtain ⟨rfl, htarget, rfl⟩ | ⟨hjump, htarget, rfl⟩ | ⟨rfl, htarget, rfl⟩
          | ⟨rfl, htarget, rfl⟩ := transfer?_eq_some_iff.1 htransfer
        · exact .branch hins hop htarget
        · exact .conditional hins hop hjump htarget
        · obtain ⟨offset, hoffset, hsum⟩ := statedOffset?_eq_some_iff.1 htarget
          exact .relative hins hop hoffset hsum
        · exact .call hins hop htarget
      · exact .fallthrough hins hop (fallsThrough_iff.1 honward)
  · intro hsuccessor
    have htransfers {op : Operation} (hop : ins.operation? = some op)
        (htransfer : transfer? a ins op.controlEffect = some (some t, kind)) :
        ⟨a, t, kind⟩ ∈ ins.edges a := by
      rw [Instruction.edges_of_operation hop]
      exact Edge.mem_leaving_iff.2 ⟨rfl, .inl htransfer⟩
    cases hsuccessor with
    | branch hother hop htarget =>
      cases hins.symm.trans hother
      exact htransfers hop (transfer?_eq_some_iff.2 (.inl ⟨rfl, htarget, rfl⟩))
    | conditional hother hop hjump htarget =>
      cases hins.symm.trans hother
      exact htransfers hop (transfer?_eq_some_iff.2 (.inr (.inl ⟨hjump, htarget, rfl⟩)))
    | relative hother hop hoffset htarget =>
      cases hins.symm.trans hother
      have hstated := statedOffset?_eq_some_iff.2 ⟨_, hoffset, htarget⟩
      exact htransfers hop (transfer?_eq_some_iff.2 (.inr (.inr (.inl ⟨rfl, hstated, rfl⟩))))
    | call hother hop htarget =>
      cases hins.symm.trans hother
      exact htransfers hop (transfer?_eq_some_iff.2 (.inr (.inr (.inr ⟨rfl, htarget, rfl⟩))))
    | fallthrough hother hop honward =>
      cases hins.symm.trans hother
      rw [Instruction.edges_of_operation hop]
      exact Edge.mem_leaving_iff.2 ⟨rfl, .inr ⟨fallsThrough_iff.2 honward, rfl, rfl⟩⟩

theorem isUndetermined_eq_true_iff :
    isUndetermined a ins op = true
      ↔ ∃ kind, transfer? a ins op.controlEffect = some (none, kind) := by
  unfold isUndetermined
  rcases transfer? a ins op.controlEffect with - | ⟨- | target, kind⟩ <;> simp

/-- **The text of an instruction does not tell all its edges exactly if it does not tell what may
follow it.** -/
theorem isUndetermined_iff_undetermined (hins : program[a]? = some ins) :
    ins.isUndetermined a = true ↔ Undetermined program a := by
  unfold Instruction.isUndetermined
  constructor
  · intro h
    cases hop : ins.operation? with
    | none => exact .unknown hins hop
    | some op =>
      rw [hop, Option.all_some, isUndetermined_eq_true_iff] at h
      obtain ⟨kind, htransfer⟩ := h
      obtain ⟨rfl, htarget, -⟩ | ⟨hjump, htarget, -⟩ | ⟨rfl, htarget, -⟩ | ⟨rfl, htarget, -⟩ :=
        transfer?_eq_some_iff.1 htransfer
      · exact .target hins hop (by decide) htarget
      · exact .target hins hop (List.mem_cons_of_mem _ (List.mem_cons_of_mem _ hjump)) htarget
      · exact .offset hins hop (statedOffset?_eq_none_iff.1 htarget)
      · exact .target hins hop (by decide) htarget
  · rintro (⟨hother, hop⟩ | ⟨hother, hop, hjump, htarget⟩ | ⟨hother, hop, hoffset⟩) <;>
      cases hins.symm.trans hother
    · rw [hop, Option.all_none]
    · rw [hop, Option.all_some, isUndetermined_eq_true_iff]
      simp only [List.mem_cons] at hjump
      obtain rfl | rfl | hjump := hjump
      · exact ⟨_, transfer?_eq_some_iff.2 (.inl ⟨rfl, htarget, rfl⟩)⟩
      · exact ⟨_, transfer?_eq_some_iff.2 (.inr (.inr (.inr ⟨rfl, htarget, rfl⟩)))⟩
      · exact ⟨_, transfer?_eq_some_iff.2 (.inr (.inl ⟨hjump, htarget, rfl⟩))⟩
    · rw [hop, Option.all_some, isUndetermined_eq_true_iff]
      have hstated := statedOffset?_eq_none_iff.2 hoffset
      exact ⟨_, transfer?_eq_some_iff.2 (.inr (.inr (.inl ⟨rfl, hstated, rfl⟩)))⟩

theorem Instruction.isReturn_iff : ins.isReturn = true ↔ ins.operation? = some .ret := by
  unfold Instruction.isReturn
  cases ins.operation? with
  | none => exact iff_of_false nofun nofun
  | some op => cases op <;> decide

theorem Instruction.isEnd_iff : ins.isEnd = true ↔ ins.operation? = some .stop := by
  unfold Instruction.isEnd
  cases ins.operation? with
  | none => exact iff_of_false nofun nofun
  | some op => cases op <;> decide

/-- Of two edges of an instruction the first is its transfer and the second its fallthrough. -/
theorem pairwise_edges (ins : Instruction) (a : Nat) :
    (ins.edges a).Pairwise fun edge later => edge.source = later.source →
      edge.kind ≠ .fallthrough ∧ later.kind = .fallthrough := by
  cases hop : ins.operation? with
  | none =>
    rw [Instruction.edges, hop]
    exact List.Pairwise.nil
  | some op =>
    rw [Instruction.edges_of_operation hop, Edge.leaving, List.pairwise_append]
    refine ⟨?_, ?_, ?_⟩
    · split
      · exact List.pairwise_singleton _ _
      · exact List.Pairwise.nil
    · split
      · exact List.pairwise_singleton _ _
      · exact List.Pairwise.nil
    · intro jump hjump onward honward _
      split at hjump
      · next target kind htransfer =>
        split at honward
        · rw [List.mem_singleton.1 hjump, List.mem_singleton.1 honward]
          refine ⟨?_, rfl⟩
          rintro rfl
          obtain ⟨-, -, hkind⟩ | ⟨-, -, hkind⟩ | ⟨-, -, hkind⟩ | ⟨-, -, hkind⟩ :=
            transfer?_eq_some_iff.1 htransfer <;> cases hkind
        · cases honward
      · cases hjump

/-- An instruction has no edge twice: its transfer is of another kind than its fallthrough. -/
theorem nodup_edges (ins : Instruction) (a : Nat) : (ins.edges a).Nodup := by
  refine (pairwise_edges ins a).imp ?_
  rintro edge _ hkinds rfl
  obtain ⟨hnot, hfallthrough⟩ := hkinds rfl
  exact hnot hfallthrough

/-! ### The walk -/

/-- A set of addresses holds the first address of the program, and with an address all that may
follow it inside the program. -/
structure ClosedUnderSuccessors (program : Program) (addresses : Set Nat) : Prop where
  entry : 0 < program.length → 0 ∈ addresses
  successor : ∀ a ∈ addresses, ∀ t kind, Successor program a t kind → t < program.length →
    t ∈ addresses

namespace Findings

theorem mem_addSubroutines {edges : List Edge} {set : List Nat} :
    t ∈ addSubroutines edges set
      ↔ (∃ edge ∈ edges, edge.kind = .call ∧ edge.target = t) ∨ t ∈ set := by
  induction edges generalizing set with
  | nil => simp only [addSubroutines, List.foldl_nil, List.not_mem_nil, false_and, exists_false,
      false_or]
  | cons edge rest ih =>
    show t ∈ addSubroutines rest (insertIf (edge.kind == .call) edge.target set) ↔ _
    simp only [ih, mem_insertIf, beq_iff_eq, List.mem_cons, exists_eq_or_imp, eq_comm (a := t)]
    exact or_left_comm.trans or_assoc.symm

end Findings

namespace Walk

/-- The walk never leaves a closed set, and notes every edge and every subroutine once. -/
structure Exact (program : Program) (walk : Walk) : Prop extends Sound program walk where
  within : ∀ addresses : Set Nat, ClosedUnderSuccessors program addresses →
    ∀ a, a ∈ walk.found.reachable ∨ a ∈ walk.waiting → a ∈ addresses
  nodup : walk.found.edges.Nodup
  subroutines : ∀ t, t ∈ walk.found.subroutines
    ↔ ∃ edge ∈ walk.found.edges, edge.kind = .call ∧ edge.target = t

theorem exact_start (program : Program) : (start program).Exact program where
  toSound := sound_start program
  within := by
    intro addresses hclosed a ha
    rcases ha with hseen | hwaiting
    · exact absurd hseen List.not_mem_nil
    · cases program with
      | nil => exact absurd hwaiting List.not_mem_nil
      | cons ins rest =>
        rw [List.mem_singleton.1 hwaiting]
        exact hclosed.entry (Nat.succ_pos _)
  nodup := List.nodup_nil
  subroutines := by
    intro t
    simp only [start, List.not_mem_nil, false_and, exists_false]

/-- **A step keeps the invariant.** -/
theorem Exact.of_advanced {walk after : Walk} (hstep : Advanced program walk after)
    (h : walk.Exact program) : after.Exact program := by
  have hsound := h.toSound.of_advanced hstep
  cases hstep with
  | idle => exact h
  | dropped hseen =>
    exact {
      toSound := hsound
      within := by
        intro addresses hclosed b hb
        exact h.within addresses hclosed b (hb.imp_right (List.mem_cons_of_mem _))
      nodup := h.nodup
      subroutines := h.subroutines }
  | @expanded found a rest ins hins hnew =>
    have hwithin : ∀ addresses : Set Nat, ClosedUnderSuccessors program addresses →
        ∀ b, b ∈ insertAddress a found.reachable
          ∨ b ∈ rest ++ ((ins.edges a).map Edge.target).filter (· < program.length) →
        b ∈ addresses := by
      intro addresses hclosed b hb
      have ha : a ∈ addresses := h.within addresses hclosed a (.inr List.mem_cons_self)
      rcases hb with hseen | hwaiting
      · rcases mem_insertAddress.1 hseen with rfl | hseen
        · exact ha
        · exact h.within addresses hclosed b (.inl hseen)
      · rcases List.mem_append.1 hwaiting with hrest | hqueued
        · exact h.within addresses hclosed b (.inr (List.mem_cons_of_mem a hrest))
        · obtain ⟨htarget, hlt⟩ := List.mem_filter.1 hqueued
          obtain ⟨⟨source, target, kind⟩, hedge, rfl⟩ := List.mem_map.1 htarget
          obtain rfl : source = a := Instruction.source_of_mem_edges hedge
          exact hclosed.successor _ ha target kind ((mem_edges_iff_successor hins).1 hedge)
            (of_decide_eq_true hlt)
    -- the edges noted so far leave other addresses
    have hdisjoint : ∀ old ∈ found.edges, ∀ new ∈ ins.edges a, old ≠ new := by
      rintro old hold new hedge rfl
      have hsource := ((h.edges old).1 hold).1
      rw [Instruction.source_of_mem_edges hedge] at hsource
      exact hnew hsource
    rw [Findings.add_operation?] at hsound ⊢
    exact {
      toSound := hsound
      within := hwithin
      nodup := List.nodup_append.2 ⟨h.nodup, nodup_edges ins a, hdisjoint⟩
      subroutines := by
        intro t
        simp only [Findings.mem_addSubroutines, h.subroutines t, List.mem_append, or_and_right,
          exists_or]
        exact or_comm }

end Walk

theorem exact_finished (program : Program) : (Walk.finished program).Exact program :=
  Walk.advanceBy_induction (fun _ _ => Walk.Exact.of_advanced) (Walk.exact_start program) _

/-! ### The findings -/

/-- **The analysis finds exactly the reachable part of the control flow.**  The reachable addresses
are the least set that holds the first address and all successors inside the program; the edges are
the successors of the reachable addresses, those outside the program included, and each is noted
once; the subroutines are the targets of the calls among them, the returns and ends the reachable
instructions of their kind, and the undetermined addresses the reachable ones whose successors the
text does not tell. -/
theorem analyze_exact (program : Program) :
    IsLeast { addresses | ClosedUnderSuccessors program addresses }
        { a | a ∈ (analyze program).reachable }
      ∧ (analyze program).edges.Nodup
      ∧ (∀ source target kind, ⟨source, target, kind⟩ ∈ (analyze program).edges
        ↔ source ∈ (analyze program).reachable ∧ Successor program source target kind)
      ∧ (∀ t, t ∈ (analyze program).subroutines
        ↔ ∃ edge ∈ (analyze program).edges, edge.kind = .call ∧ edge.target = t)
      ∧ (∀ a, a ∈ (analyze program).returns ↔ a ∈ (analyze program).reachable
        ∧ ∃ ins, program[a]? = some ins ∧ ins.operation? = some .ret)
      ∧ (∀ a, a ∈ (analyze program).ends ↔ a ∈ (analyze program).reachable
        ∧ ∃ ins, program[a]? = some ins ∧ ins.operation? = some .stop)
      ∧ ∀ a, a ∈ (analyze program).undetermined
        ↔ a ∈ (analyze program).reachable ∧ Undetermined program a := by
  have hexact := exact_finished program
  have hedges (source target : Nat) (kind : EdgeKind) :
      ⟨source, target, kind⟩ ∈ (analyze program).edges
        ↔ source ∈ (analyze program).reachable ∧ Successor program source target kind := by
    rw [mem_edges_analyze_iff]
    refine and_congr_right fun hsource => ?_
    constructor
    · rintro ⟨ins, hins, hedge⟩
      exact (mem_edges_iff_successor hins).1 hedge
    · intro hsuccessor
      have hins := List.getElem?_eq_getElem (hexact.inside source hsource)
      exact ⟨_, hins, (mem_edges_iff_successor hins).2 hsuccessor⟩
  refine ⟨⟨⟨zero_mem_reachable, ?_⟩, ?_⟩, hexact.nodup, hedges, hexact.subroutines, ?_, ?_, ?_⟩
  · intro source hsource target kind hsuccessor hlt
    exact target_mem_reachable ((hedges source target kind).2 ⟨hsource, hsuccessor⟩) hlt
  · intro addresses hclosed a ha
    exact hexact.within addresses hclosed a (.inl ha)
  · intro a
    rw [mem_returns_analyze_iff]
    simp only [Instruction.isReturn_iff]
  · intro a
    rw [mem_ends_analyze_iff]
    simp only [Instruction.isEnd_iff]
  · intro a
    rw [mem_undetermined_analyze_iff]
    refine and_congr_right fun ha => ?_
    constructor
    · rintro ⟨ins, hins, hundetermined⟩
      exact (isUndetermined_iff_undetermined hins).1 hundetermined
    · intro hundetermined
      have hins := List.getElem?_eq_getElem (hexact.inside a ha)
      exact ⟨_, hins, (isUndetermined_iff_undetermined hins).2 hundetermined⟩

/-- Both edges of the first instruction queue the same address; those of the second lead out. -/
example : analyze [⟨"jnz", ["x", "1"]⟩, ⟨"je", ["7"]⟩]
    = { reachable := [0, 1]
        edges := [⟨0, 1, .conditional⟩, ⟨0, 1, .fallthrough⟩, ⟨1, 7, .conditional⟩,
          ⟨1, 2, .fallthrough⟩] } := by
  decide +kernel

end PseudoAsm
