import PseudoAsm.Analysis.Edge

/-!
# Walking the control flow

A breadth-first walk over a program from address 0.  Addresses wait in a queue, possibly more than
once; each address of the program is expanded the first time it is taken from the queue.

* `Findings` — what the walk has found: reachable addresses, edges and special addresses;
* `Walk.advance` — take one address from the queue;
* `analyze` — the findings of the walk run to its end.
-/

namespace PseudoAsm

/-! ### Ascending sets of addresses -/

/-- Add an address to an ascending list without repetitions. -/
def insertAddress (a : Nat) : List Nat → List Nat
  | [] => [a]
  | b :: rest =>
    if a < b then a :: b :: rest
    else if a = b then b :: rest
    else b :: insertAddress a rest

theorem mem_insertAddress {a b : Nat} {set : List Nat} :
    b ∈ insertAddress a set ↔ b = a ∨ b ∈ set := by
  induction set with
  | nil => simp only [insertAddress, List.mem_cons, List.not_mem_nil, or_false]
  | cons c rest ih =>
    simp only [insertAddress]
    split
    · simp only [List.mem_cons]
    · split
      · next h => subst h; simp only [List.mem_cons, or_self_left]
      · simp only [List.mem_cons, ih]
        exact or_left_comm

/-- Adding an address keeps the order. -/
theorem pairwise_insertAddress {a : Nat} {set : List Nat} (h : set.Pairwise (· < ·)) :
    (insertAddress a set).Pairwise (· < ·) := by
  induction set with
  | nil => exact List.pairwise_singleton _ _
  | cons b rest ih =>
    obtain ⟨hb, hrest⟩ := List.pairwise_cons.1 h
    simp only [insertAddress]
    split
    · next hab =>
      refine List.pairwise_cons.2 ⟨fun c hc => ?_, h⟩
      rcases List.mem_cons.1 hc with rfl | hc
      · exact hab
      · exact Nat.lt_trans hab (hb c hc)
    · split
      · exact h
      · refine List.pairwise_cons.2 ⟨fun c hc => ?_, ih hrest⟩
        rcases mem_insertAddress.1 hc with rfl | hc
        · omega
        · exact hb c hc

theorem length_insertAddress {a : Nat} {set : List Nat} (h : a ∉ set) :
    (insertAddress a set).length = set.length + 1 := by
  induction set with
  | nil => rfl
  | cons b rest ih =>
    rw [List.mem_cons, not_or] at h
    simp only [insertAddress]
    by_cases hlt : a < b
    · rw [if_pos hlt]
      rfl
    · rw [if_neg hlt, if_neg h.1, List.length_cons, ih h.2, List.length_cons]

/-! ### Findings -/

/-- What is known about the control flow of a program. -/
structure Findings where
  /-- The addresses that control can reach from address 0. -/
  reachable : List Nat := []
  /-- The edges that leave reachable addresses, in order of discovery. -/
  edges : List Edge := []
  /-- The targets of calls. -/
  subroutines : List Nat := []
  /-- The reachable returns. -/
  returns : List Nat := []
  /-- The reachable ends. -/
  ends : List Nat := []
  /-- The reachable addresses some of whose successors are not known. -/
  undetermined : List Nat := []
deriving DecidableEq, Repr, Inhabited

namespace Findings

/-- Add an address to a set if a condition holds. -/
def insertIf (condition : Bool) (a : Nat) (set : List Nat) : List Nat :=
  if condition then insertAddress a set else set

/-- Note the targets of the calls among some edges. -/
def addSubroutines (edges : List Edge) (set : List Nat) : List Nat :=
  edges.foldl (fun acc e => insertIf (e.kind == .call) e.target acc) set

/-- Note a reachable instruction; `none` stands for an unknown operation. -/
def add (found : Findings) (address : Nat) (ins : Instruction) :
    Option Operation → Findings
  | none =>
    { found with
      reachable := insertAddress address found.reachable
      undetermined := insertAddress address found.undetermined }
  | some op =>
    { reachable := insertAddress address found.reachable
      edges := found.edges ++ Edge.leaving address ins op
      subroutines := addSubroutines (Edge.leaving address ins op) found.subroutines
      returns := insertIf (op.controlEffect == .back) address found.returns
      ends := insertIf (op.controlEffect == .stop) address found.ends
      undetermined := insertIf (isUndetermined address ins op) address found.undetermined }

end Findings

/-! ### The walk -/

/-- The operation of an instruction in the standard instruction set. -/
def Instruction.operation? (ins : Instruction) : Option Operation :=
  (InstructionSet.standard.find? ins.name).map MnemonicRow.operation

/-- The edges that leave an instruction; none if its mnemonic is unknown. -/
def Instruction.edges (ins : Instruction) (address : Nat) : List Edge :=
  match ins.operation? with
  | some op => Edge.leaving address ins op
  | none => []

/-- The addresses waiting to be looked at, the first to be taken first, and the findings so far. -/
structure Walk where
  waiting : List Nat
  found : Findings := {}
deriving DecidableEq, Repr

namespace Walk

/-- A walk that has not looked at anything yet. -/
def start (program : Program) : Walk where
  waiting := if program.isEmpty then [] else [0]

/-- Take one address from the queue.  One seen before is dropped; another is added to the findings
and its successors inside the program are queued. -/
def advance (program : Program) (walk : Walk) : Walk :=
  match walk.waiting with
  | [] => walk
  | address :: rest =>
    if walk.found.reachable.contains address then { walk with waiting := rest }
    else match program[address]? with
      | none => { walk with waiting := rest }
      | some ins =>
        let targets := (ins.edges address).map Edge.target
        { waiting := rest ++ targets.filter (· < program.length)
          found := walk.found.add address ins ins.operation? }

/-- Take up to `n` addresses from the queue. -/
def advanceBy (program : Program) : Nat → Walk → Walk
  | 0, walk => walk
  | n + 1, walk =>
    if walk.waiting.isEmpty then walk else advanceBy program n (walk.advance program)

end Walk

/-- The findings about a program.  Every address is expanded at most once and queues at most two
others, so twice the length and one more addresses are all that is ever taken from the queue. -/
def analyze (program : Program) : Findings :=
  ((Walk.start program).advanceBy program (2 * program.length + 1)).found

end PseudoAsm
