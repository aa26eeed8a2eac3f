import PseudoAsm.Analysis.Walk

/-!
# What the control-flow walk finds

The walk of `analyze` is run on a budget of steps and stops early when nothing is waiting.  This
file says what it finds, the queue forgotten.

* `Walk.Advanced`, `Walk.advanced` — **a step is one of three**: nothing is waiting, an address is
  dropped, or a new one is expanded;
* `Walk.advanceBy_induction` — what these steps keep, a walk keeps;
* `Walk.Sound` — the invariant: findings and queue describe the part of the program seen so far;
* `Walk.Sound.of_advanced`, `Walk.Sound.advanceBy` — one step keeps it, and so does any number;
* `Walk.remaining` — a bound on the steps to come, which every step lowers, so that
  `waiting_finished` — **the budget suffices: nothing is left waiting**;
* `mem_edges_analyze_iff`, `mem_returns_analyze_iff` and their companions — each finding as a
  condition on reachable instructions.
-/

namespace PseudoAsm

variable {program : Program} {ins : Instruction} {a t : Nat}

/-! ### Instructions as the walk sees them -/

namespace Instruction

/-- Whether an instruction passes control back to where it was called from. -/
def isReturn (ins : Instruction) : Bool :=
  ins.operation?.any fun op => op.controlEffect == .back

/-- Whether an instruction ends the program. -/
def isEnd (ins : Instruction) : Bool :=
  ins.operation?.any fun op => op.controlEffect == .stop

/-- Whether the text of an instruction does not tell all its successors, its mnemonic perhaps
unknown. -/
def isUndetermined (ins : Instruction) (address : Nat) : Bool :=
  ins.operation?.all fun op => PseudoAsm.isUndetermined address ins op

/-- The numeral in the second parameter. -/
def offset? (ins : Instruction) : Option Int32 :=
  (ins.param? 1).bind Numeral.int32?

theorem edges_of_operation {op : Operation} (hop : ins.operation? = some op) (a : Nat) :
    ins.edges a = Edge.leaving a ins op := by
  rw [Instruction.edges, hop]

theorem source_of_mem_edges {edge : Edge} (h : edge ∈ ins.edges a) : edge.source = a := by
  cases hop : ins.operation? with
  | none =>
    rw [Instruction.edges, hop] at h
    cases h
  | some op =>
    rw [edges_of_operation hop] at h
    exact Edge.source_of_mem_leaving h

theorem length_edges_le (ins : Instruction) (a : Nat) : (ins.edges a).length ≤ 2 := by
  unfold Instruction.edges
  cases ins.operation? with
  | none => exact Nat.zero_le 2
  | some op => exact Edge.length_leaving_le a ins op

end Instruction

theorem statedOffset?_eq (a : Nat) (ins : Instruction) :
    statedOffset? a ins = ins.offset?.bind fun offset =>
      if (a : Int) + offset.toInt < 0 then none else some ((a : Int) + offset.toInt).toNat := by
  unfold statedOffset? Instruction.offset?
  cases ins.param? 1 <;> rfl

/-- An offset states an address unless the two together are negative. -/
theorem statedOffset?_eq_some_iff :
    statedOffset? a ins = some t
      ↔ ∃ offset, ins.offset? = some offset ∧ (t : Int) = a + offset.toInt := by
  rw [statedOffset?_eq, Option.bind_eq_some_iff]
  refine exists_congr fun offset => and_congr_right fun _ => ?_
  by_cases hneg : (a : Int) + offset.toInt < 0
  · simp only [if_pos hneg, reduceCtorEq, false_iff]
    omega
  · simp only [if_neg hneg, Option.some.injEq]
    omega

theorem statedOffset?_eq_none_iff :
    statedOffset? a ins = none
      ↔ ∀ offset, ins.offset? = some offset → (a : Int) + offset.toInt < 0 := by
  rw [statedOffset?_eq, Option.bind_eq_none_iff]
  refine forall_congr' fun offset => imp_congr_right fun _ => ?_
  by_cases hneg : (a : Int) + offset.toInt < 0
  · rw [if_pos hneg]
    exact iff_of_true rfl hneg
  · rw [if_neg hneg]
    exact iff_of_false (Option.some_ne_none _) hneg

namespace Findings

theorem mem_insertIf {condition : Bool} {b : Nat} {set : List Nat} :
    b ∈ insertIf condition a set ↔ (condition = true ∧ b = a) ∨ b ∈ set := by
  cases condition with
  | false => simp only [insertIf, Bool.false_eq_true, if_false, false_and, false_or]
  | true => simp only [insertIf, if_true, mem_insertAddress, true_and]

/-- Noting an instruction, its operation known or not, in one form. -/
theorem add_operation? (found : Findings) (a : Nat) (ins : Instruction) :
    found.add a ins ins.operation? =
      { reachable := insertAddress a found.reachable
        edges := found.edges ++ ins.edges a
        subroutines := addSubroutines (ins.edges a) found.subroutines
        returns := insertIf ins.isReturn a found.returns
        ends := insertIf ins.isEnd a found.ends
        undetermined := insertIf (ins.isUndetermined a) a found.undetermined } := by
  unfold Instruction.edges Instruction.isReturn Instruction.isEnd Instruction.isUndetermined
  cases ins.operation? with
  | none => simp only [add, insertIf, addSubroutines, List.append_nil, List.foldl_nil,
      Option.any_none, Option.all_none, Bool.false_eq_true, if_false, if_true]
  | some op => rfl

end Findings

/-! ### Steps -/

namespace Walk

/-- What a step makes of a walk. -/
inductive Advanced (program : Program) : Walk → Walk → Prop
  /-- Nothing is waiting. -/
  | idle {found : Findings} :
      Advanced program { waiting := [], found } { waiting := [], found }
  /-- The address was seen before, or lies outside the program. -/
  | dropped {found : Findings} {a : Nat} {rest : List Nat}
      (hseen : a < program.length → a ∈ found.reachable) :
      Advanced program { waiting := a :: rest, found } { waiting := rest, found }
  /-- The address is new. -/
  | expanded {found : Findings} {a : Nat} {rest : List Nat} {ins : Instruction}
      (hins : program[a]? = some ins) (hnew : a ∉ found.reachable) :
      Advanced program { waiting := a :: rest, found } {
        waiting := rest ++ ((ins.edges a).map Edge.target).filter (· < program.length)
        found := found.add a ins ins.operation? }

/-- **Every step is one of the three.** -/
theorem advanced (program : Program) (walk : Walk) :
    Advanced program walk (walk.advance program) := by
  obtain ⟨waiting, found⟩ := walk
  cases waiting with
  | nil => exact .idle
  | cons a rest =>
    unfold Walk.advance
    by_cases hseen : found.reachable.contains a = true
    · simp only [hseen, if_true]
      exact .dropped fun _ => List.contains_iff_mem.1 hseen
    · simp only [hseen]
      cases hins : program[a]? with
      | none =>
        have hle : program.length ≤ a := List.getElem?_eq_none_iff.1 hins
        exact .dropped fun hlt => absurd hlt (Nat.not_lt.2 hle)
      | some ins => exact .expanded hins fun hmem => hseen (List.contains_iff_mem.2 hmem)

/-- What every step keeps, a walk of any length keeps. -/
theorem advanceBy_induction {Holds : Walk → Prop}
    (hstep : ∀ walk after, Advanced program walk after → Holds walk → Holds after) {walk : Walk}
    (h : Holds walk) (n : Nat) : Holds (walk.advanceBy program n) := by
  induction n generalizing walk with
  | zero => exact h
  | succ n ih =>
    rw [Walk.advanceBy]
    by_cases hempty : walk.waiting.isEmpty = true
    · rw [if_pos hempty]
      exact h
    · rw [if_neg hempty]
      exact ih (hstep walk _ (advanced program walk) h)

end Walk

/-! ### The invariant -/

/-- A set holds exactly the reachable addresses whose instruction passes a test. -/
def Collected (program : Program) (reachable : List Nat) (test : Nat → Instruction → Bool)
    (set : List Nat) : Prop :=
  ∀ a, a ∈ set ↔ a ∈ reachable ∧ ∃ ins, program[a]? = some ins ∧ test a ins = true

theorem collected_nil (program : Program) (test : Nat → Instruction → Bool) :
    Collected program [] test [] := by
  intro a
  simp only [List.not_mem_nil, false_and]

theorem Collected.insert {reachable set : List Nat} {test : Nat → Instruction → Bool}
    (h : Collected program reachable test set) (hins : program[a]? = some ins) :
    Collected program (insertAddress a reachable) test
      (Findings.insertIf (test a ins) a set) := by
  intro b
  rw [Findings.mem_insertIf, mem_insertAddress, h b]
  by_cases hb : b = a
  · subst hb
    constructor
    · rintro (⟨htest, -⟩ | ⟨-, hpassed⟩)
      · exact ⟨.inl rfl, ins, hins, htest⟩
      · exact ⟨.inl rfl, hpassed⟩
    · rintro ⟨-, other, hother, htest⟩
      rw [hins, Option.some.injEq] at hother
      exact .inl ⟨hother ▸ htest, rfl⟩
  · simp only [hb, and_false, false_or]

namespace Walk

/-- The findings and the queue of a walk describe the part of the program seen so far. -/
structure Sound (program : Program) (walk : Walk) : Prop where
  ascending : walk.found.reachable.Pairwise (· < ·)
  inside : ∀ a ∈ walk.found.reachable, a < program.length
  entry : 0 < program.length → 0 ∈ walk.found.reachable ∨ 0 ∈ walk.waiting
  /-- An edge into the program leads to an address that was seen or is waiting. -/
  closed : ∀ edge ∈ walk.found.edges, edge.target < program.length →
    edge.target ∈ walk.found.reachable ∨ edge.target ∈ walk.waiting
  edges : ∀ edge, edge ∈ walk.found.edges ↔ edge.source ∈ walk.found.reachable
    ∧ ∃ ins, program[edge.source]? = some ins ∧ edge ∈ ins.edges edge.source
  returns : Collected program walk.found.reachable (fun _ ins => ins.isReturn) walk.found.returns
  ends : Collected program walk.found.reachable (fun _ ins => ins.isEnd) walk.found.ends
  undetermined : Collected program walk.found.reachable (fun a ins => ins.isUndetermined a)
    walk.found.undetermined

theorem sound_start (program : Program) : (start program).Sound program where
  ascending := List.Pairwise.nil
  inside := by
    intro a ha
    exact absurd ha List.not_mem_nil
  entry := by
    intro h
    right
    cases program with
    | nil => exact absurd h (Nat.lt_irrefl 0)
    | cons ins rest => exact List.mem_singleton_self 0
  closed := by
    intro edge hedge
    exact absurd hedge List.not_mem_nil
  edges := by
    intro edge
    simp only [start, List.not_mem_nil, false_and]
  returns := collected_nil program _
  ends := collected_nil program _
  undetermined := collected_nil program _

/-- Dropping an address that was seen, or lies outside the program, keeps the invariant. -/
theorem Sound.drop {found : Findings} {rest : List Nat}
    (h : Sound program { waiting := a :: rest, found })
    (hdrop : a < program.length → a ∈ found.reachable) :
    Sound program { waiting := rest, found } := by
  have hkept : ∀ b < program.length, b ∈ found.reachable ∨ b ∈ a :: rest →
      b ∈ found.reachable ∨ b ∈ rest := by
    rintro b hb (hseen | hwaiting)
    · exact .inl hseen
    · rcases List.mem_cons.1 hwaiting with rfl | hrest
      · exact .inl (hdrop hb)
      · exact .inr hrest
  exact {
    ascending := h.ascending
    inside := h.inside
    entry := by
      intro hpos
      exact hkept 0 hpos (h.entry hpos)
    closed := by
      intro edge hedge hlt
      exact hkept edge.target hlt (h.closed edge hedge hlt)
    edges := h.edges
    returns := h.returns
    ends := h.ends
    undetermined := h.undetermined }

/-- Expanding an address keeps the invariant. -/
theorem Sound.expand {found : Findings} {rest : List Nat}
    (h : Sound program { waiting := a :: rest, found }) (hins : program[a]? = some ins) :
    Sound program {
      waiting := rest ++ ((ins.edges a).map Edge.target).filter (· < program.length)
      found := found.add a ins ins.operation? } := by
  have hlt : a < program.length := (List.getElem?_eq_some_iff.1 hins).1
  have hkept : ∀ b, b ∈ found.reachable ∨ b ∈ a :: rest →
      b ∈ insertAddress a found.reachable
        ∨ b ∈ rest ++ ((ins.edges a).map Edge.target).filter (· < program.length) := by
    rintro b (hseen | hwaiting)
    · exact .inl (mem_insertAddress.2 (.inr hseen))
    · rcases List.mem_cons.1 hwaiting with rfl | hrest
      · exact .inl (mem_insertAddress.2 (.inl rfl))
      · exact .inr (List.mem_append_left _ hrest)
  rw [Findings.add_operation?]
  exact {
    ascending := pairwise_insertAddress h.ascending
    inside := by
      intro b hb
      rcases mem_insertAddress.1 hb with rfl | hb
      · exact hlt
      · exact h.inside b hb
    entry := fun hpos => hkept 0 (h.entry hpos)
    closed := by
      intro edge hedge htarget
      rcases List.mem_append.1 hedge with hold | hnew
      · exact hkept edge.target (h.closed edge hold htarget)
      · have hqueued : edge.target ∈ ((ins.edges a).map Edge.target).filter
            (· < program.length) :=
          List.mem_filter.2 ⟨List.mem_map_of_mem hnew, decide_eq_true htarget⟩
        exact .inr (List.mem_append_right _ hqueued)
    edges := by
      intro edge
      rw [List.mem_append, h.edges edge, mem_insertAddress]
      constructor
      · rintro (⟨hsource, hedge⟩ | hnew)
        · exact ⟨.inr hsource, hedge⟩
        · have hsource := Instruction.source_of_mem_edges hnew
          exact ⟨.inl hsource, ins, hsource ▸ hins, hsource ▸ hnew⟩
      · rintro ⟨hsource | hsource, other, hother, hedge⟩
        · rw [hsource, hins, Option.some.injEq] at hother
          rw [hsource, ← hother] at hedge
          exact .inr hedge
        · exact .inl ⟨hsource, other, hother, hedge⟩
    returns := h.returns.insert hins
    ends := h.ends.insert hins
    undetermined := h.undetermined.insert hins }

/-- **A step keeps the invariant.** -/
theorem Sound.of_advanced {walk after : Walk} (hstep : Advanced program walk after)
    (h : walk.Sound program) : after.Sound program := by
  cases hstep with
  | idle => exact h
  | dropped hseen => exact h.drop hseen
  | expanded hins _ => exact h.expand hins

/-- **Any number of steps keeps the invariant.** -/
theorem Sound.advanceBy {walk : Walk} (h : walk.Sound program) (n : Nat) :
    (walk.advanceBy program n).Sound program :=
  advanceBy_induction (fun _ _ => Sound.of_advanced) h n

/-! ### The budget -/

/-- A bound on the steps to come: an address of the program that was not seen yet may still be
expanded, and then queues at most two others. -/
def remaining (program : Program) (walk : Walk) : Nat :=
  walk.waiting.length + 2 * (program.length - walk.found.reachable.length)

/-- No more addresses are reachable than the program has. -/
theorem Sound.length_reachable_le {walk : Walk} (h : walk.Sound program) :
    walk.found.reachable.length ≤ program.length := by
  have hnodup : walk.found.reachable.Nodup := h.ascending.imp Nat.ne_of_lt
  have hsubset : walk.found.reachable ⊆ List.range program.length := by
    intro a ha
    exact List.mem_range.2 (h.inside a ha)
  have hle := hnodup.length_le_of_subset hsubset
  rwa [List.length_range] at hle

/-- **Every step lowers the bound.** -/
theorem remaining_lt_of_advanced {walk after : Walk} (hstep : Advanced program walk after)
    (h : walk.Sound program) (hwaiting : walk.waiting ≠ []) :
    after.remaining program < walk.remaining program := by
  have hbound := (h.of_advanced hstep).length_reachable_le
  cases hstep with
  | idle => exact absurd rfl hwaiting
  | dropped _ =>
    simp only [remaining, List.length_cons]
    omega
  | @expanded found a rest ins hins hnew =>
    have hqueued :
        (((ins.edges a).map Edge.target).filter (· < program.length)).length ≤ 2 := by
      refine Nat.le_trans (List.length_filter_le _ _) ?_
      rw [List.length_map]
      exact ins.length_edges_le a
    simp only [Findings.add_operation?, length_insertAddress hnew] at hbound
    simp only [remaining, Findings.add_operation?, length_insertAddress hnew, List.length_append,
      List.length_cons]
    omega

/-- A walk run for as many steps as the bound says leaves nothing waiting. -/
theorem waiting_advanceBy {walk : Walk} (h : walk.Sound program) {n : Nat}
    (hn : walk.remaining program ≤ n) : (walk.advanceBy program n).waiting = [] := by
  induction n generalizing walk with
  | zero =>
    have hlength : walk.waiting.length = 0 := by
      rw [remaining] at hn
      omega
    exact List.length_eq_zero_iff.1 hlength
  | succ n ih =>
    rw [Walk.advanceBy]
    by_cases hempty : walk.waiting.isEmpty = true
    · rw [if_pos hempty]
      exact List.isEmpty_iff.1 hempty
    · rw [if_neg hempty]
      have hne : walk.waiting ≠ [] := by
        intro hnil
        exact hempty (List.isEmpty_iff.2 hnil)
      have hlt := remaining_lt_of_advanced (advanced program walk) h hne
      apply ih (h.of_advanced (advanced program walk))
      omega

theorem remaining_start_le (program : Program) :
    (start program).remaining program ≤ 2 * program.length + 1 := by
  cases program with
  | nil => decide
  | cons ins rest =>
    simp only [remaining, start, List.isEmpty_cons, Bool.false_eq_true, if_false,
      List.length_singleton, List.length_nil]
    omega

end Walk

/-! ### The findings of the whole walk -/

/-- The walk at its end. -/
def Walk.finished (program : Program) : Walk :=
  (Walk.start program).advanceBy program (2 * program.length + 1)

/-- **The budget suffices: nothing is left waiting.** -/
theorem waiting_finished (program : Program) : (Walk.finished program).waiting = [] :=
  Walk.waiting_advanceBy (Walk.sound_start program) (Walk.remaining_start_le program)

theorem sound_finished (program : Program) : (Walk.finished program).Sound program :=
  (Walk.sound_start program).advanceBy _

/-- Control reaches the first address of a program that has one. -/
theorem zero_mem_reachable (h : 0 < program.length) : 0 ∈ (analyze program).reachable := by
  rcases (sound_finished program).entry h with hseen | hwaiting
  · exact hseen
  · rw [waiting_finished] at hwaiting
    exact absurd hwaiting List.not_mem_nil

/-- **Reachable addresses are closed under edges into the program.** -/
theorem target_mem_reachable {edge : Edge} (h : edge ∈ (analyze program).edges)
    (hlt : edge.target < program.length) : edge.target ∈ (analyze program).reachable := by
  rcases (sound_finished program).closed edge h hlt with hseen | hwaiting
  · exact hseen
  · rw [waiting_finished] at hwaiting
    exact absurd hwaiting List.not_mem_nil

/-- The edges are those that leave the reachable instructions. -/
theorem mem_edges_analyze_iff {edge : Edge} :
    edge ∈ (analyze program).edges ↔ edge.source ∈ (analyze program).reachable
      ∧ ∃ ins, program[edge.source]? = some ins ∧ edge ∈ ins.edges edge.source :=
  (sound_finished program).edges edge

theorem mem_returns_analyze_iff : a ∈ (analyze program).returns
    ↔ a ∈ (analyze program).reachable ∧ ∃ ins, program[a]? = some ins ∧ ins.isReturn = true :=
  (sound_finished program).returns a

theorem mem_ends_analyze_iff : a ∈ (analyze program).ends
    ↔ a ∈ (analyze program).reachable ∧ ∃ ins, program[a]? = some ins ∧ ins.isEnd = true :=
  (sound_finished program).ends a

theorem mem_undetermined_analyze_iff : a ∈ (analyze program).undetermined
    ↔ a ∈ (analyze program).reachable
      ∧ ∃ ins, program[a]? = some ins ∧ ins.isUndetermined a = true :=
  (sound_finished program).undetermined a

end PseudoAsm
