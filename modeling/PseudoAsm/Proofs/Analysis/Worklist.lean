import Mathlib.Data.Nat.Find
import Mathlib.Tactic.ByContra
import PseudoAsm.Proofs.Analysis.Walk

/-!
# The queue of the control-flow walk

The queue grows while it is drained, and an address may wait in it several times.  This file follows
it from one taking to the next, with no budget in the way: it runs empty however control goes in
circles, only addresses of the program get into it, and taking an address once more is of no
consequence.

* `Walk.after` — the walk when some addresses have been taken from the queue;
* `Walk.Takes`, `Walk.Expands` — the address that is taken then, and one that adds to the findings;
* `Walk.taken` — **an address that is taken is one of the program, and is expanded unless it is
  known**;
* `Walk.mem_reachable_after_iff` — the reachable addresses are those expanded so far;
* `Walk.count_after` — **as many addresses have been taken or wait as edges lead into the program**,
  and the entry;
* `worklist_bounded` — the queue runs empty within a bound, each address is expanded at most once,
  and the edges are at most twice as many as the instructions.
-/

namespace PseudoAsm

variable {program : Program} {ins : Instruction} {m n a b : Nat}

namespace Walk

variable {walk next : Walk}

/-! ### One taking after the other -/

theorem advance_of_waiting_eq_nil (h : walk.waiting = []) : walk.advance program = walk := by
  obtain ⟨waiting, found⟩ := walk
  cases h
  rfl

theorem advanceBy_of_waiting_eq_nil (h : walk.waiting = []) (n : Nat) :
    walk.advanceBy program n = walk := by
  cases n with
  | zero => rfl
  | succ n => rw [Walk.advanceBy, if_pos (List.isEmpty_iff.2 h)]

/-- The last of some takings can be split off as well as the first. -/
theorem advanceBy_succ (program : Program) (walk : Walk) (n : Nat) :
    walk.advanceBy program (n + 1) = (walk.advanceBy program n).advance program := by
  by_cases hempty : walk.waiting = []
  · rw [advanceBy_of_waiting_eq_nil hempty, advanceBy_of_waiting_eq_nil hempty,
      advance_of_waiting_eq_nil hempty]
  · have hfirst (k : Nat) :
        walk.advanceBy program (k + 1) = (walk.advance program).advanceBy program k := by
      rw [Walk.advanceBy, if_neg fun h => hempty (List.isEmpty_iff.1 h)]
    cases n with
    | zero => exact hfirst 0
    | succ n => rw [hfirst, hfirst, advanceBy_succ]

/-- The walk when up to `n` addresses have been taken from the queue. -/
def after (program : Program) (n : Nat) : Walk :=
  (start program).advanceBy program n

theorem advanced_after (program : Program) (n : Nat) :
    Advanced program (after program n) (after program (n + 1)) := by
  rw [after, after, advanceBy_succ]
  exact advanced program _

/-- A walk with nothing waiting has come to its end. -/
theorem after_add_of_waiting_eq_nil (h : (after program n).waiting = []) (k : Nat) :
    after program (n + k) = after program n := by
  induction k with
  | zero => rfl
  | succ k ih =>
    rw [← Nat.add_assoc, after, advanceBy_succ, ← after, ih]
    exact advance_of_waiting_eq_nil h

/-- The address that is taken when `n` have been taken before. -/
def Takes (program : Program) (n a : Nat) : Prop :=
  (after program n).waiting.head? = some a

/-- The address that is taken when `n` have been taken before is expanded: it adds to the
findings. -/
def Expands (program : Program) (n a : Nat) : Prop :=
  Takes program n a ∧ (after program (n + 1)).found ≠ (after program n).found

/-! ### Only addresses of the program -/

theorem inside_of_advanced (hstep : Advanced program walk next)
    (h : ∀ a ∈ walk.waiting, a < program.length) : ∀ a ∈ next.waiting, a < program.length := by
  cases hstep with
  | idle => exact h
  | dropped _ =>
    intro b hb
    exact h b (List.mem_cons_of_mem _ hb)
  | expanded hins _ =>
    intro b hb
    rcases List.mem_append.1 hb with hrest | hqueued
    · exact h b (List.mem_cons_of_mem _ hrest)
    · exact of_decide_eq_true (List.mem_filter.1 hqueued).2

/-- **Only addresses of the program wait.** -/
theorem inside_after (program : Program) (n : Nat) :
    ∀ a ∈ (after program n).waiting, a < program.length := by
  refine advanceBy_induction (fun _ _ => inside_of_advanced) ?_ n
  intro a ha
  cases program with
  | nil => exact absurd ha List.not_mem_nil
  | cons ins rest =>
    rw [List.mem_singleton.1 ha]
    exact Nat.succ_pos _

/-- **An address that is taken is one of the program.**  If it is known, nothing is found; else its
instruction is added to the findings. -/
theorem taken (h : Takes program n a) :
    ∃ ins, program[a]? = some ins
      ∧ (after program (n + 1)).found
        = if a ∈ (after program n).found.reachable then (after program n).found
          else (after program n).found.add a ins ins.operation? := by
  have hlt : a < program.length := inside_after program n a (List.mem_of_mem_head? h)
  refine ⟨program[a], List.getElem?_eq_getElem hlt, ?_⟩
  have hstep := advanced_after program n
  unfold Takes at h
  generalize after program n = walk at hstep h
  generalize after program (n + 1) = next at hstep
  cases hstep with
  | idle => cases h
  | dropped hseen =>
    cases h
    rw [if_pos (hseen hlt)]
  | expanded hins hnew =>
    cases h
    obtain ⟨_, rfl⟩ := List.getElem?_eq_some_iff.1 hins
    rw [if_neg hnew]

/-! ### Expanded once -/

theorem add_ne_self {found : Findings} (hnew : a ∉ found.reachable) (ins : Instruction) :
    found.add a ins ins.operation? ≠ found := by
  intro hsame
  apply hnew
  rw [← hsame, Findings.add_operation?]
  exact mem_insertAddress.2 (.inl rfl)

/-- **An address is expanded exactly if it is taken and not known.** -/
theorem expands_iff :
    Expands program n a ↔ Takes program n a ∧ a ∉ (after program n).found.reachable := by
  refine and_congr_right fun htakes => ?_
  obtain ⟨ins, -, hfound⟩ := taken htakes
  rw [hfound]
  by_cases hknown : a ∈ (after program n).found.reachable
  · rw [if_pos hknown]
    exact iff_of_false (fun h => h rfl) (fun h => h hknown)
  · rw [if_neg hknown]
    exact iff_of_true (add_ne_self hknown ins) hknown

/-- A taking makes the address known that it expands. -/
theorem mem_reachable_after_succ_iff : b ∈ (after program (n + 1)).found.reachable
    ↔ Expands program n b ∨ b ∈ (after program n).found.reachable := by
  cases hhead : (after program n).waiting.head? with
  | none =>
    have hnone : ¬Expands program n b := by
      rintro ⟨htakes, -⟩
      rw [Takes, hhead] at htakes
      cases htakes
    rw [after_add_of_waiting_eq_nil (List.head?_eq_none_iff.1 hhead)]
    simp only [hnone, false_or]
  | some a =>
    obtain ⟨ins, -, hfound⟩ := taken hhead
    have htakes : Takes program n b ↔ b = a := by
      rw [Takes, hhead, Option.some.injEq, eq_comm]
    rw [hfound, expands_iff, htakes]
    by_cases hknown : a ∈ (after program n).found.reachable
    · rw [if_pos hknown]
      constructor
      · exact .inr
      · rintro (⟨rfl, hnew⟩ | hb)
        · exact hknown
        · exact hb
    · rw [if_neg hknown, Findings.add_operation?, mem_insertAddress]
      constructor
      · rintro (rfl | hb)
        · exact .inl ⟨rfl, hknown⟩
        · exact .inr hb
      · rintro (⟨rfl, -⟩ | hb)
        · exact .inl rfl
        · exact .inr hb

/-- **The reachable addresses are those expanded so far.** -/
theorem mem_reachable_after_iff :
    b ∈ (after program n).found.reachable ↔ ∃ m < n, Expands program m b := by
  induction n with
  | zero => exact iff_of_false List.not_mem_nil (fun ⟨m, hm, _⟩ => absurd hm (Nat.not_lt_zero m))
  | succ n ih =>
    rw [mem_reachable_after_succ_iff, ih]
    constructor
    · rintro (hlast | ⟨m, hm, hexpands⟩)
      · exact ⟨n, Nat.lt_succ_self n, hlast⟩
      · exact ⟨m, Nat.lt_succ_of_lt hm, hexpands⟩
    · rintro ⟨m, hm, hexpands⟩
      rcases Nat.lt_succ_iff_lt_or_eq.1 hm with hlt | rfl
      · exact .inr ⟨m, hlt, hexpands⟩
      · exact .inl hexpands

/-- An address that has been expanded is not expanded later. -/
theorem not_expands_of_lt (h : Expands program m a) (hlt : m < n) : ¬Expands program n a := by
  intro hlater
  exact (expands_iff.1 hlater).2 (mem_reachable_after_iff.2 ⟨m, hlt, h⟩)

/-! ### Counting edges -/

/-- The edges that lead into the program. -/
def edgesInside (program : Program) (found : Findings) : Nat :=
  found.edges.countP fun edge => edge.target < program.length

/-- Each address that is taken came into the queue by an edge, and each edge into the program queues
one. -/
theorem count_of_advanced (hstep : Advanced program walk next) (hwaiting : walk.waiting ≠ []) :
    next.waiting.length + 1 + edgesInside program walk.found
      = walk.waiting.length + edgesInside program next.found := by
  cases hstep with
  | idle => exact absurd rfl hwaiting
  | dropped _ => rfl
  | @expanded found a rest ins hins hnew =>
    have hqueued : (((ins.edges a).map Edge.target).filter (· < program.length)).length
        = (ins.edges a).countP fun edge => edge.target < program.length := by
      rw [← List.countP_eq_length_filter, List.countP_map]
      rfl
    simp only [edgesInside, Findings.add_operation?, List.countP_append, List.length_append,
      List.length_cons, hqueued]
    omega

/-- **As many addresses have been taken or wait as edges lead into the program**, and the entry. -/
theorem count_after (h : ∀ m < n, (after program m).waiting ≠ []) :
    n + (after program n).waiting.length
      = min 1 program.length + edgesInside program (after program n).found := by
  induction n with
  | zero => cases program <;> simp [after, advanceBy, start, edgesInside]
  | succ n ih =>
    have hcount := count_of_advanced (advanced_after program n) (h n (Nat.lt_succ_self n))
    have hbefore := ih fun m hm => h m (Nat.lt_succ_of_lt hm)
    omega

/-- An address has at most two edges, and only expanded ones have any. -/
theorem length_edges_le_of_advanced (hstep : Advanced program walk next)
    (h : walk.found.edges.length ≤ 2 * walk.found.reachable.length) :
    next.found.edges.length ≤ 2 * next.found.reachable.length := by
  cases hstep with
  | idle => exact h
  | dropped _ => exact h
  | @expanded found a rest ins hins hnew =>
    have hleaving := ins.length_edges_le a
    simp only [Findings.add_operation?, List.length_append, length_insertAddress hnew] at h ⊢
    omega

theorem length_edges_after_le (program : Program) (n : Nat) :
    (after program n).found.edges.length ≤ 2 * (after program n).found.reachable.length := by
  have hstart : (start program).found.edges.length
      ≤ 2 * (start program).found.reachable.length := Nat.le_refl 0
  unfold after
  generalize start program = walk at hstart ⊢
  exact advanceBy_induction (fun _ _ => length_edges_le_of_advanced) hstart n

end Walk

/-! ### The whole walk -/

theorem length_edges_analyze_le (program : Program) :
    (analyze program).edges.length ≤ 2 * program.length := by
  have hreachable := (sound_finished program).length_reachable_le
  have hedges := Walk.length_edges_after_le program (2 * program.length + 1)
  exact Nat.le_trans hedges (Nat.mul_le_mul_left 2 hreachable)

/-- The walk stands still from where its queue has run empty. -/
theorem Walk.found_after_of_waiting_eq_nil (h : (Walk.after program n).waiting = [])
    (hn : n ≤ 2 * program.length + 1) : (Walk.after program n).found = analyze program := by
  obtain ⟨k, hk⟩ := Nat.exists_eq_add_of_le hn
  rw [← Walk.after_add_of_waiting_eq_nil h k, ← hk]
  rfl

/-- Nothing is taken when the budget is used up. -/
theorem Walk.Takes.lt (h : Walk.Takes program n a) : n < 2 * program.length + 1 := by
  by_contra hle
  obtain ⟨k, rfl⟩ := Nat.exists_eq_add_of_le (Nat.le_of_not_lt hle)
  have hempty : (Walk.after program (2 * program.length + 1)).waiting = [] :=
    waiting_finished program
  rw [Walk.Takes, Walk.after_add_of_waiting_eq_nil hempty, hempty] at h
  cases h

/-- **The walk ends, and stays inside the program and its bounds.**  After some number of takings
the queue is empty for the first time: one for the entry, and one for every edge into the program,
at most one more than twice the length of the program.  Every address that is taken is that of an
instruction; each is expanded at most once, namely if it is reachable; and the edges are at most
twice as many as the instructions. -/
theorem worklist_bounded (program : Program) :
    (∃ n ≤ 2 * program.length + 1, (∀ m < n, (Walk.after program m).waiting ≠ [])
        ∧ (Walk.after program n).waiting = [] ∧ (Walk.after program n).found = analyze program
        ∧ n = min 1 program.length
          + (analyze program).edges.countP fun edge => edge.target < program.length)
      ∧ (∀ n a, Walk.Takes program n a → ∃ ins, program[a]? = some ins)
      ∧ (∀ a m n, Walk.Expands program m a → Walk.Expands program n a → m = n)
      ∧ (∀ a, (∃ n, Walk.Expands program n a) ↔ a ∈ (analyze program).reachable)
      ∧ (analyze program).edges.length ≤ 2 * program.length := by
  refine ⟨?_, ?_, ?_, ?_, length_edges_analyze_le program⟩
  · have hends : ∃ n, (Walk.after program n).waiting = [] := ⟨_, waiting_finished program⟩
    have hempty := Nat.find_spec hends
    have hfirst : ∀ m < Nat.find hends, (Walk.after program m).waiting ≠ [] :=
      fun m hm => Nat.find_min hends hm
    have hle : Nat.find hends ≤ 2 * program.length + 1 :=
      Nat.find_min' hends (waiting_finished program)
    have hfound := Walk.found_after_of_waiting_eq_nil hempty hle
    have hcount := Walk.count_after hfirst
    rw [hempty, hfound] at hcount
    exact ⟨_, hle, hfirst, hempty, hfound, hcount⟩
  · intro n a htakes
    obtain ⟨ins, hins, -⟩ := Walk.taken htakes
    exact ⟨ins, hins⟩
  · intro a m n hm hn
    by_contra hne
    rcases Nat.lt_or_gt_of_ne hne with hlt | hlt
    · exact Walk.not_expands_of_lt hm hlt hn
    · exact Walk.not_expands_of_lt hn hlt hm
  · intro a
    rw [show (analyze program) = (Walk.after program (2 * program.length + 1)).found from rfl,
      Walk.mem_reachable_after_iff]
    constructor
    · rintro ⟨n, hexpands⟩
      exact ⟨n, hexpands.1.lt, hexpands⟩
    · rintro ⟨n, -, hexpands⟩
      exact ⟨n, hexpands⟩

/-- In a loop an address waits that is known; the other edge of the jump leads out. -/
example : (Walk.after [⟨"inc", ["x"]⟩, ⟨"jnz", ["x", "-1"]⟩] 2).waiting = [0] := by
  decide +kernel

end PseudoAsm
