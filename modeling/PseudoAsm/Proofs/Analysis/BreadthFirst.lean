import Mathlib.Order.Bounds.Basic
import PseudoAsm.Proofs.Analysis.Reachability

/-!
# The order in which edges are found

The walk goes through a program breadth first: it comes to addresses in the order of their distance
from address 0.  Its queue may hold an address several times, and whether an address is new is asked
only when it is taken.

* `PathTo`, `IsDistance` — paths from address 0 along a relation, and the length of the shortest;
* `Queues` — expanding an address queues another;
* `InOrder` — edges grouped by their source, each source led to by an edge before it;
* `Walk.Ordered` — the edges found so far are in this order, and lead to what waits;
* `Walk.InLayers`, `Walk.Layered` — **the invariant of the queue**: the depths of the addresses in
  it ascend and span at most two levels, and what is nearer than all of them is known;
* `Walk.Layered.isDistance_head` — **an address is expanded at its distance**;
* `edges_breadth_first` — the edges that the analysis lists are in breadth-first order.
-/

namespace PseudoAsm

variable {program : Program} {ins : Instruction} {a b d n : Nat}

/-! ### Distances -/

/-- A path from address 0 to an address along a relation, with its length. -/
inductive PathTo (leads : Nat → Nat → Prop) : Nat → Nat → Prop
  | entry : PathTo leads 0 0
  | step {a b n : Nat} (hpath : PathTo leads a n) (hleads : leads a b) : PathTo leads b (n + 1)

/-- The distance of an address from address 0: the length of a shortest path. -/
def IsDistance (leads : Nat → Nat → Prop) (a d : Nat) : Prop :=
  IsLeast { n | PathTo leads a n } d

theorem PathTo.mono {leads wider : Nat → Nat → Prop} (h : PathTo leads a n)
    (hmono : ∀ a b n, PathTo leads a n → leads a b → wider a b) : PathTo wider a n := by
  induction h with
  | entry => exact .entry
  | step hpath hleads ih => exact .step ih (hmono _ _ _ hpath hleads)

theorem IsDistance.congr {leads other : Nat → Nat → Prop}
    (h : ∀ a n, PathTo leads a n ↔ PathTo other a n) :
    IsDistance leads a d ↔ IsDistance other a d := by
  have hpaths : { n | PathTo leads a n } = { n | PathTo other a n } := Set.ext (h a)
  rw [IsDistance, hpaths, IsDistance]

/-- Expanding an address queues another: an edge leads there, inside the program. -/
def Queues (program : Program) (a b : Nat) : Prop :=
  ∃ ins, program[a]? = some ins ∧ b ∈ ((ins.edges a).map Edge.target).filter (· < program.length)

/-- One of some edges leads from an address to another below a bound. -/
def LeadsBelow (edges : List Edge) (bound a b : Nat) : Prop :=
  b < bound ∧ ∃ edge ∈ edges, edge.source = a ∧ edge.target = b

theorem Queues.lt (h : Queues program a b) : b < program.length := by
  obtain ⟨ins, -, hmem⟩ := h
  exact of_decide_eq_true (List.mem_filter.1 hmem).2

theorem queues_iff (hins : program[a]? = some ins) :
    Queues program a b ↔ b < program.length ∧ ∃ edge ∈ ins.edges a, edge.target = b := by
  unfold Queues
  simp only [hins, Option.some.injEq, exists_eq_left', List.mem_filter, List.mem_map,
    decide_eq_true_iff]
  exact and_comm

/-! ### Edges in order -/

/-- The order of edges: those of one source stand together, its transfer before its fallthrough, and
the source is 0 or the target of an edge before them that leaves another address. -/
structure InOrder (edges : List Edge) : Prop where
  contiguous {i j k : Nat} {first middle last : Edge} (hi : edges[i]? = some first)
    (hj : edges[j]? = some middle) (hk : edges[k]? = some last) (hij : i ≤ j) (hjk : j ≤ k)
    (hsource : first.source = last.source) : middle.source = first.source
  transfer_first : edges.Pairwise fun edge later => edge.source = later.source →
    edge.kind ≠ .fallthrough ∧ later.kind = .fallthrough
  discovered {i : Nat} {edge : Edge} (hi : edges[i]? = some edge) (hsource : edge.source ≠ 0) :
    ∃ j < i, ∃ earlier, edges[j]? = some earlier ∧ earlier.target = edge.source
      ∧ earlier.source ≠ edge.source

theorem InOrder.nil : InOrder [] where
  contiguous := by
    intro i j k first middle last hi
    cases hi
  transfer_first := List.Pairwise.nil
  discovered := by
    intro i edge hi
    cases hi

/-- Edges of a source that has none yet go to the end, if an edge leads to it or it is 0. -/
theorem InOrder.append {edges added : List Edge} (h : InOrder edges)
    (hsource : ∀ edge ∈ added, edge.source = a) (hfresh : ∀ edge ∈ edges, edge.source ≠ a)
    (htransfer : added.Pairwise fun edge later => edge.source = later.source →
      edge.kind ≠ .fallthrough ∧ later.kind = .fallthrough)
    (horigin : a ≠ 0 → ∃ edge ∈ edges, edge.target = a) : InOrder (edges ++ added) where
  contiguous := by
    intro i j k first middle last hi hj hk hij hjk hsame
    by_cases hold : k < edges.length
    · rw [List.getElem?_append_left (by omega)] at hi hj hk
      exact h.contiguous hi hj hk hij hjk hsame
    · rw [List.getElem?_append_right (Nat.le_of_not_lt hold)] at hk
      have hfirst : first.source = a := hsame.trans (hsource last (List.mem_of_getElem? hk))
      -- the first of the three is not an older edge, so none of them is
      have hnew : edges.length ≤ i := by
        by_contra hlt
        rw [List.getElem?_append_left (Nat.lt_of_not_le hlt)] at hi
        exact hfresh first (List.mem_of_getElem? hi) hfirst
      rw [List.getElem?_append_right (Nat.le_trans hnew hij)] at hj
      exact (hsource middle (List.mem_of_getElem? hj)).trans hfirst.symm
  transfer_first := by
    refine List.pairwise_append.2 ⟨h.transfer_first, htransfer, ?_⟩
    intro edge hedge later hlater hsame
    exact absurd (hsame.trans (hsource later hlater)) (hfresh edge hedge)
  discovered := by
    intro i edge hi hne
    by_cases hold : i < edges.length
    · rw [List.getElem?_append_left hold] at hi
      obtain ⟨j, hj, earlier, hearlier, htarget, hother⟩ := h.discovered hi hne
      refine ⟨j, hj, earlier, ?_, htarget, hother⟩
      rwa [List.getElem?_append_left (Nat.lt_trans hj hold)]
    · rw [List.getElem?_append_right (Nat.le_of_not_lt hold)] at hi
      have hedge := hsource edge (List.mem_of_getElem? hi)
      obtain ⟨earlier, hmem, htarget⟩ := horigin (hedge ▸ hne)
      obtain ⟨j, hj⟩ := List.getElem?_of_mem hmem
      have hlt : j < edges.length := (List.getElem?_eq_some_iff.1 hj).1
      refine ⟨j, Nat.lt_of_lt_of_le hlt (Nat.le_of_not_lt hold), earlier, ?_, ?_, ?_⟩
      · rwa [List.getElem?_append_left hlt]
      · rw [htarget, hedge]
      · rw [hedge]
        exact hfresh earlier hmem

namespace Walk

/-- The edges found so far are in order, and what waits was queued along one of them. -/
structure Ordered (program : Program) (walk : Walk) : Prop extends Sound program walk where
  inOrder : InOrder walk.found.edges
  origin : ∀ a ∈ walk.waiting, a ≠ 0 → ∃ edge ∈ walk.found.edges, edge.target = a

theorem ordered_start (program : Program) : (start program).Ordered program where
  toSound := sound_start program
  inOrder := .nil
  origin := by
    intro a ha hne
    cases program with
    | nil => exact absurd ha List.not_mem_nil
    | cons ins rest => exact absurd (List.mem_singleton.1 ha) hne

/-- **A step keeps the order.** -/
theorem Ordered.of_advanced {walk after : Walk} (hstep : Advanced program walk after)
    (h : walk.Ordered program) : after.Ordered program := by
  have hsound := h.toSound.of_advanced hstep
  cases hstep with
  | idle => exact h
  | dropped _ =>
    exact {
      toSound := hsound
      inOrder := h.inOrder
      origin := by
        intro b hb
        exact h.origin b (List.mem_cons_of_mem _ hb) }
  | @expanded found a rest ins hins hnew =>
    have hfresh : ∀ edge ∈ found.edges, edge.source ≠ a := by
      rintro edge hedge rfl
      exact hnew ((h.edges edge).1 hedge).1
    rw [Findings.add_operation?] at hsound ⊢
    exact {
      toSound := hsound
      inOrder := h.inOrder.append (fun _ => Instruction.source_of_mem_edges) hfresh
        (pairwise_edges ins a) (h.origin a List.mem_cons_self)
      origin := by
        intro b hb hne
        rcases List.mem_append.1 hb with hrest | hqueued
        · obtain ⟨edge, hedge, htarget⟩ := h.origin b (List.mem_cons_of_mem a hrest) hne
          exact ⟨edge, List.mem_append_left _ hedge, htarget⟩
        · obtain ⟨edge, hedge, htarget⟩ := List.mem_map.1 (List.mem_filter.1 hqueued).1
          exact ⟨edge, List.mem_append_right _ hedge, htarget⟩ }

/-! ### The layers of the queue -/

/-- A place in the queue: an address, and the length of the path along which it was queued. -/
structure Visit where
  address : Nat
  depth : Nat

/-- A visit that an address queues lies one level below its own. -/
def Visit.below (visit : Visit) (b : Nat) : Visit where
  address := b
  depth := visit.depth + 1

/-- A queue in layers: its depths ascend and span at most two levels. -/
structure InLayers (queue : List Visit) : Prop where
  ascending : queue.Pairwise fun visit later => visit.depth ≤ later.depth
  span : ∀ visit ∈ queue, ∀ other ∈ queue, other.depth ≤ visit.depth + 1

section Layers

variable {visit : Visit} {queue : List Visit}

theorem InLayers.tail (h : InLayers (visit :: queue)) : InLayers queue where
  ascending := (List.pairwise_cons.1 h.ascending).2
  span := by
    intro other hother another hanother
    exact h.span other (List.mem_cons_of_mem _ hother) another (List.mem_cons_of_mem _ hanother)

/-- What stands behind the head, or is queued by it, is on its level or on the one below. -/
theorem InLayers.between (h : InLayers (visit :: queue)) (targets : List Nat) :
    ∀ other ∈ queue ++ targets.map visit.below,
      visit.depth ≤ other.depth ∧ other.depth ≤ visit.depth + 1 := by
  intro other hother
  rcases List.mem_append.1 hother with hold | hadded
  · exact ⟨(List.pairwise_cons.1 h.ascending).1 other hold,
      h.span visit List.mem_cons_self other (List.mem_cons_of_mem _ hold)⟩
  · obtain ⟨b, -, rfl⟩ := List.mem_map.1 hadded
    exact ⟨Nat.le_succ _, Nat.le_refl _⟩

/-- **What the head queues starts the next layer, or goes on with it.** -/
theorem InLayers.append (h : InLayers (visit :: queue)) (targets : List Nat) :
    InLayers (queue ++ targets.map visit.below) where
  ascending := by
    refine List.pairwise_append.2 ⟨h.tail.ascending, ?_, ?_⟩
    · exact List.pairwise_map.2 (List.pairwise_of_forall fun _ _ => Nat.le_refl _)
    · intro other hother added hadded
      obtain ⟨b, -, rfl⟩ := List.mem_map.1 hadded
      exact (h.between targets other (List.mem_append_left _ hother)).2
  span := by
    intro other hother another hanother
    have hlow := (h.between targets other hother).1
    have hhigh := (h.between targets another hanother).2
    omega

end Layers

/-- An address is known, or waits at no more than some depth. -/
def Met (reachable : List Nat) (queue : List Visit) (b n : Nat) : Prop :=
  b ∈ reachable ∨ ∃ visit ∈ queue, visit.address = b ∧ visit.depth ≤ n

/-- What has been met stays so when the head of the queue is taken and known then. -/
theorem Met.of_cons {reachable known : List Nat} {visit : Visit} {queue longer : List Visit}
    (h : Met reachable (visit :: queue) b n) (hkept : reachable ⊆ known) (hqueue : queue ⊆ longer)
    (hhead : visit.address = b → b ∈ known) : Met known longer b n := by
  rcases h with hknown | ⟨waiting, hwaiting, haddress, hdepth⟩
  · exact .inl (hkept hknown)
  · rcases List.mem_cons.1 hwaiting with rfl | hrest
    · exact .inl (hhead haddress)
    · exact .inr ⟨waiting, hqueue hrest, haddress, hdepth⟩

/-- The queue is in layers, its depths are lengths of paths, and what has been expanded is no deeper
than what waits. -/
structure Layered (program : Program) (walk : Walk) (queue : List Visit) : Prop
    extends Sound program walk where
  waiting : walk.waiting = queue.map Visit.address
  path : ∀ visit ∈ queue, PathTo (Queues program) visit.address visit.depth
  layers : InLayers queue
  settled : ∀ a ∈ walk.found.reachable,
    ∃ d, IsDistance (Queues program) a d ∧ ∀ visit ∈ queue, d ≤ visit.depth
  entered : 0 < program.length → Met walk.found.reachable queue 0 0
  /-- An address that is expanded passes its depth on. -/
  passed : ∀ a ∈ walk.found.reachable, ∀ d, IsDistance (Queues program) a d →
    ∀ b, Queues program a b → Met walk.found.reachable queue b (d + 1)
  deeper : walk.found.edges.Pairwise fun edge later => ∀ d e,
    IsDistance (Queues program) edge.source d → IsDistance (Queues program) later.source e → d ≤ e

theorem layered_start (program : Program) : ∃ queue, (start program).Layered program queue := by
  have hnone (P : Nat → Prop) : ∀ a ∈ (start program).found.reachable, P a := by
    intro a ha
    exact absurd ha List.not_mem_nil
  cases program with
  | nil =>
    exact ⟨[], {
      toSound := sound_start []
      waiting := rfl
      path := by simp
      layers := ⟨List.Pairwise.nil, by simp⟩
      settled := hnone _
      entered := fun hpos => absurd hpos (Nat.lt_irrefl 0)
      passed := hnone _
      deeper := List.Pairwise.nil }⟩
  | cons ins rest =>
    exact ⟨[⟨0, 0⟩], {
      toSound := sound_start (ins :: rest)
      waiting := rfl
      path := by
        intro visit hvisit
        rw [List.mem_singleton.1 hvisit]
        exact .entry
      layers := ⟨List.pairwise_singleton _ _, by simp⟩
      settled := hnone _
      entered := fun _ => .inr ⟨_, List.mem_singleton_self _, rfl, Nat.le_refl 0⟩
      passed := hnone _
      deeper := List.Pairwise.nil }⟩

section Steps

variable {walk : Walk} {found : Findings} {rest : List Nat} {visit : Visit} {queue : List Visit}

/-- **An address is known once it is nearer than all that wait.** -/
theorem Layered.mem_reachable (h : walk.Layered program queue) (hpos : 0 < program.length)
    (hpath : PathTo (Queues program) b n) (hnear : ∀ visit ∈ queue, n < visit.depth) :
    b ∈ walk.found.reachable := by
  induction hpath with
  | entry =>
    rcases h.entered hpos with hknown | ⟨visit, hvisit, -, hdepth⟩
    · exact hknown
    · exact absurd (hnear visit hvisit) (Nat.not_lt.2 hdepth)
  | @step a b n hpath hqueues ih =>
    have hknown := ih fun visit hvisit => Nat.lt_of_succ_lt (hnear visit hvisit)
    obtain ⟨d, hd, -⟩ := h.settled a hknown
    have hle : d ≤ n := hd.2 hpath
    rcases h.passed a hknown d hd b hqueues with hknown | ⟨visit, hvisit, -, hdepth⟩
    · exact hknown
    · have hlt := hnear visit hvisit
      omega

/-- **An address is expanded at its distance**: a shorter path would have made it known before. -/
theorem Layered.isDistance_head (h : walk.Layered program (visit :: queue))
    (hlt : visit.address < program.length) (hnew : visit.address ∉ walk.found.reachable) :
    IsDistance (Queues program) visit.address visit.depth := by
  refine ⟨h.path visit List.mem_cons_self, ?_⟩
  intro n hpath
  by_contra hle
  have hshorter : n < visit.depth := Nat.lt_of_not_le hle
  refine hnew (h.mem_reachable (Nat.zero_lt_of_lt hlt) hpath ?_)
  intro other hother
  rcases List.mem_cons.1 hother with rfl | hother
  · exact hshorter
  · exact Nat.lt_of_lt_of_le hshorter ((List.pairwise_cons.1 h.layers.ascending).1 other hother)

/-- Dropping the head keeps the layers. -/
theorem Layered.drop (h : Layered program { waiting := a :: rest, found } (visit :: queue))
    (hseen : a < program.length → a ∈ found.reachable) :
    Layered program { waiting := rest, found } queue := by
  obtain ⟨rfl, hrest⟩ := List.cons.inj h.waiting
  have hkept {b n : Nat} (hb : b < program.length)
      (hmet : Met found.reachable (visit :: queue) b n) : Met found.reachable queue b n :=
    hmet.of_cons (List.Subset.refl _) (List.Subset.refl _) fun haddress =>
      haddress ▸ hseen (haddress ▸ hb)
  exact {
    toSound := h.toSound.drop hseen
    waiting := hrest
    path := fun other hother => h.path other (List.mem_cons_of_mem _ hother)
    layers := h.layers.tail
    settled := by
      intro b hb
      obtain ⟨d, hd, hle⟩ := h.settled b hb
      exact ⟨d, hd, fun other hother => hle other (List.mem_cons_of_mem _ hother)⟩
    entered := fun hpos => hkept hpos (h.entered hpos)
    passed := by
      intro b hb d hd c hqueues
      exact hkept hqueues.lt (h.passed b hb d hd c hqueues)
    deeper := h.deeper }

/-- The edges of the head go behind those of nearer addresses. -/
theorem Layered.deeper_append (h : walk.Layered program (visit :: queue))
    (hdistance : IsDistance (Queues program) visit.address visit.depth) (ins : Instruction) :
    (walk.found.edges ++ ins.edges visit.address).Pairwise fun edge later => ∀ d e,
      IsDistance (Queues program) edge.source d → IsDistance (Queues program) later.source e →
      d ≤ e := by
  refine List.pairwise_append.2 ⟨h.deeper, ?_, ?_⟩
  · refine List.pairwise_of_forall_mem_list ?_
    intro edge hedge later hlater d e hd he
    rw [Instruction.source_of_mem_edges hedge] at hd
    rw [Instruction.source_of_mem_edges hlater] at he
    exact Nat.le_of_eq (hd.unique he)
  · intro edge hedge later hlater d e hd he
    obtain ⟨c, hc, hle⟩ := h.settled edge.source ((h.edges edge).1 hedge).1
    rw [Instruction.source_of_mem_edges hlater] at he
    rw [hd.unique hc, he.unique hdistance]
    exact hle visit List.mem_cons_self

/-- Expanding the head keeps the layers. -/
theorem Layered.expand (h : Layered program { waiting := a :: rest, found } (visit :: queue))
    (hins : program[a]? = some ins) (hnew : a ∉ found.reachable) :
    Layered program {
        waiting := rest ++ ((ins.edges a).map Edge.target).filter (· < program.length)
        found := found.add a ins ins.operation? }
      (queue ++ (((ins.edges a).map Edge.target).filter (· < program.length)).map
        visit.below) := by
  obtain ⟨rfl, hrest⟩ := List.cons.inj h.waiting
  have hdistance : IsDistance (Queues program) visit.address visit.depth :=
    h.isDistance_head (List.getElem?_eq_some_iff.1 hins).1 hnew
  have hsound := h.toSound.expand hins
  generalize htargets :
    ((ins.edges visit.address).map Edge.target).filter (· < program.length) = targets at hsound ⊢
  have hqueues (b : Nat) : b ∈ targets ↔ Queues program visit.address b := by
    rw [← htargets, Queues]
    simp only [hins, Option.some.injEq, exists_eq_left']
  have hbetween := h.layers.between targets
  rw [Findings.add_operation?] at hsound ⊢
  have hkept {b n : Nat} (hmet : Met found.reachable (visit :: queue) b n) :
      Met (insertAddress visit.address found.reachable) (queue ++ targets.map visit.below) b n :=
    hmet.of_cons (fun b hb => mem_insertAddress.2 (.inr hb)) (List.subset_append_left _ _)
      fun haddress => mem_insertAddress.2 (.inl haddress.symm)
  exact {
    toSound := hsound
    waiting := by
      rw [hrest, List.map_append, List.map_map]
      exact congrArg _ (List.map_id targets).symm
    path := by
      intro other hother
      rcases List.mem_append.1 hother with hold | hadded
      · exact h.path other (List.mem_cons_of_mem _ hold)
      · obtain ⟨b, hb, rfl⟩ := List.mem_map.1 hadded
        exact .step hdistance.1 ((hqueues b).1 hb)
    layers := h.layers.append targets
    settled := by
      intro b hb
      rcases mem_insertAddress.1 hb with rfl | hb
      · exact ⟨visit.depth, hdistance, fun other hother => (hbetween other hother).1⟩
      · obtain ⟨d, hd, hle⟩ := h.settled b hb
        refine ⟨d, hd, fun other hother => ?_⟩
        exact Nat.le_trans (hle visit List.mem_cons_self) (hbetween other hother).1
    entered := fun hpos => hkept (h.entered hpos)
    passed := by
      intro b hb d hd c hc
      rcases mem_insertAddress.1 hb with rfl | hb
      · rw [hd.unique hdistance]
        have hadded := List.mem_map_of_mem (f := visit.below) ((hqueues c).2 hc)
        exact .inr ⟨_, List.mem_append_right _ hadded, rfl, Nat.le_refl _⟩
      · exact hkept (h.passed b hb d hd c hc)
    deeper := h.deeper_append hdistance ins }

/-- **A step keeps the layers.** -/
theorem layered_of_advanced {after : Walk} (hstep : Advanced program walk after)
    (h : ∃ queue, walk.Layered program queue) : ∃ queue, after.Layered program queue := by
  obtain ⟨queue, h⟩ := h
  cases hstep with
  | idle => exact ⟨queue, h⟩
  | dropped hseen =>
    cases queue with
    | nil => cases h.waiting
    | cons visit queue => exact ⟨queue, h.drop hseen⟩
  | expanded hins hnew =>
    cases queue with
    | nil => cases h.waiting
    | cons visit queue => exact ⟨_, h.expand hins hnew⟩

end Steps

end Walk

/-! ### The whole walk -/

theorem ordered_finished (program : Program) : (Walk.finished program).Ordered program :=
  Walk.advanceBy_induction (fun _ _ => Walk.Ordered.of_advanced) (Walk.ordered_start program) _

theorem layered_finished (program : Program) :
    ∃ queue, (Walk.finished program).Layered program queue :=
  Walk.advanceBy_induction (fun _ _ => Walk.layered_of_advanced) (Walk.layered_start program) _

/-- The end of a path is reachable. -/
theorem mem_reachable_of_pathTo (h : PathTo (Queues program) a n) (hpos : 0 < program.length) :
    a ∈ (analyze program).reachable := by
  induction h with
  | entry => exact zero_mem_reachable hpos
  | step hpath hqueues ih =>
    obtain ⟨ins, hins, hmem⟩ := hqueues
    obtain ⟨htarget, hlt⟩ := List.mem_filter.1 hmem
    obtain ⟨edge, hedge, rfl⟩ := List.mem_map.1 htarget
    obtain rfl := Instruction.source_of_mem_edges hedge
    exact target_mem_reachable (mem_edges_analyze_iff.2 ⟨ih, ins, hins, hedge⟩)
      (of_decide_eq_true hlt)

/-- **The edges that are listed have the same paths as the whole program.** -/
theorem pathTo_leadsBelow_iff :
    PathTo (LeadsBelow (analyze program).edges program.length) a n
      ↔ PathTo (Queues program) a n := by
  constructor
  · intro h
    refine h.mono ?_
    rintro a b n - ⟨hlt, edge, hedge, rfl, rfl⟩
    obtain ⟨-, ins, hins, hleaves⟩ := mem_edges_analyze_iff.1 hedge
    exact (queues_iff hins).2 ⟨hlt, edge, hleaves, rfl⟩
  · intro h
    refine h.mono ?_
    rintro a b n hpath hqueues
    have hlt := hqueues.lt
    have hknown := mem_reachable_of_pathTo hpath (Nat.zero_lt_of_lt hlt)
    obtain ⟨ins, hins, -⟩ := id hqueues
    obtain ⟨-, edge, hedge, rfl⟩ := (queues_iff hins).1 hqueues
    have hsource := Instruction.source_of_mem_edges hedge
    subst hsource
    exact ⟨hlt, edge, mem_edges_analyze_iff.2 ⟨hknown, ins, hins, hedge⟩, rfl, rfl⟩

/-- **The edges are listed in breadth-first order.**  Those of one source stand together, a jump or
call before the fallthrough; each source but 0 is the target of an edge before, which leaves another
address; and the sources, which all have a distance from address 0 along the edges inside the
program, come in the order of this distance. -/
theorem edges_breadth_first (program : Program) :
    InOrder (analyze program).edges
      ∧ (∀ edge ∈ (analyze program).edges, ∃ d,
        IsDistance (LeadsBelow (analyze program).edges program.length) edge.source d)
      ∧ (analyze program).edges.Pairwise fun edge later => ∀ d e,
        IsDistance (LeadsBelow (analyze program).edges program.length) edge.source d →
        IsDistance (LeadsBelow (analyze program).edges program.length) later.source e → d ≤ e := by
  obtain ⟨queue, hlayered⟩ := layered_finished program
  have hdistance (a d : Nat) :
      IsDistance (LeadsBelow (analyze program).edges program.length) a d
        ↔ IsDistance (Queues program) a d :=
    IsDistance.congr fun _ _ => pathTo_leadsBelow_iff
  simp only [hdistance]
  refine ⟨(ordered_finished program).inOrder, ?_, hlayered.deeper⟩
  intro edge hedge
  obtain ⟨d, hd, -⟩ := hlayered.settled edge.source ((hlayered.edges edge).1 hedge).1
  exact ⟨d, hd⟩

end PseudoAsm
