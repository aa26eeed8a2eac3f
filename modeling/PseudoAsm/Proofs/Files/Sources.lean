import Mathlib.Data.List.Forall2
import PseudoAsm.Files.Source
import PseudoAsm.Proofs.Text.ByteOrder

/-!
# The sources that arguments stand for

A path that leads to no directory stands for itself; one that does stands for the plain files in the
directory, each once, in the order of the bytes of their names.

* `sortNames_eq_iff` — sorting puts the same names into the order of their bytes, which is one order
  only;
* `FileTree.StandsFor` — what an argument stands for, whatever sorts the names;
* `standsFor_iff`, `forall₂_standsFor_iff` — **the paths that are taken are the ones that the
  arguments stand for, argument by argument**.
-/

namespace PseudoAsm

/-! ### Names in the order of their bytes -/

theorem pairwise_sortNames (names : List String) :
    (sortNames names).Pairwise fun a b => Text.utf8 a ≤ Text.utf8 b := by
  have hsorted : (sortNames names).Pairwise fun a b => decide (a ≤ b) = true := by
    apply List.pairwise_mergeSort
    · intro a b c hab hbc
      exact decide_eq_true (String.le_trans (of_decide_eq_true hab) (of_decide_eq_true hbc))
    · intro a b
      rw [Bool.or_eq_true, decide_eq_true_iff, decide_eq_true_iff]
      exact String.le_total a b
  refine hsorted.imp ?_
  intro a b hab
  exact Text.utf8_le_iff.2 (of_decide_eq_true hab)

/-- **Sorting puts the names into the order of their bytes**, and there is only one such order. -/
theorem sortNames_eq_iff {names sorted : List String} :
    sorted = sortNames names
      ↔ sorted.Perm names ∧ sorted.Pairwise fun a b => Text.utf8 a ≤ Text.utf8 b := by
  constructor
  · rintro rfl
    exact ⟨List.mergeSort_perm names _, pairwise_sortNames names⟩
  · rintro ⟨hperm, hsorted⟩
    refine List.Perm.eq_of_pairwise ?_ hsorted (pairwise_sortNames names)
      (hperm.trans (List.mergeSort_perm names _).symm)
    intro a b _ _ hab hba
    exact String.le_antisymm (Text.utf8_le_iff.1 hab) (Text.utf8_le_iff.1 hba)

/-! ### Lists element by element -/

/-- A list has a counterpart exactly if each of its elements has one. -/
theorem exists_forall₂_iff {α β : Type} {R : α → β → Prop} {l : List α} :
    (∃ found, List.Forall₂ R l found) ↔ ∀ a ∈ l, ∃ b, R a b := by
  induction l with
  | nil => exact iff_of_true ⟨[], .nil⟩ (by simp)
  | cons a l ih =>
    rw [List.forall_mem_cons, ← ih]
    constructor
    · rintro ⟨found, h⟩
      cases h with
      | cons hhead htail => exact ⟨⟨_, hhead⟩, _, htail⟩
    · rintro ⟨⟨b, hhead⟩, found, htail⟩
      exact ⟨b :: found, .cons hhead htail⟩

/-! ### Arguments and their paths -/

/-- An argument stands for itself unless it leads to a directory, and then for the plain files in
it, in the order of the bytes of their names. -/
inductive FileTree.StandsFor (tree : FileTree) (argument : String) : List String → Prop where
  | itself (hplain : tree.leadsToDirectory argument = false) : StandsFor tree argument [argument]
  | files {place : Place} {names : List String} (hplace : tree.locate argument = .ok place)
      (hdirectory : tree.isDirectory place = true) (hnames : names.Perm (tree.plainFiles place))
      (hsorted : names.Pairwise fun a b => Text.utf8 a ≤ Text.utf8 b) :
      StandsFor tree argument (names.map (joinPath argument))

variable {tree : FileTree}

theorem leadsToDirectory_iff {argument : String} : tree.leadsToDirectory argument = true
    ↔ ∃ place, tree.locate argument = .ok place ∧ tree.isDirectory place = true := by
  unfold FileTree.leadsToDirectory
  cases tree.locate argument with
  | error cause => simp
  | ok place => simp

/-- **An argument stands for the paths that are taken for it**, and for no others. -/
theorem standsFor_iff {argument : String} {paths : List String} :
    tree.StandsFor argument paths ↔ paths = tree.sourcePaths argument := by
  constructor
  · intro h
    cases h with
    | itself hplain => rw [FileTree.sourcePaths, if_neg (ne_true_of_eq_false hplain)]
    | files hplace hdirectory hnames hsorted =>
      rw [FileTree.sourcePaths, if_pos (leadsToDirectory_iff.2 ⟨_, hplace, hdirectory⟩),
        FileTree.directorySources, hplace, sortNames_eq_iff.2 ⟨hnames, hsorted⟩]
  · rintro rfl
    cases hleads : tree.leadsToDirectory argument with
    | false =>
      rw [FileTree.sourcePaths, if_neg (ne_true_of_eq_false hleads)]
      exact .itself hleads
    | true =>
      obtain ⟨place, hplace, hdirectory⟩ := leadsToDirectory_iff.1 hleads
      obtain ⟨hnames, hsorted⟩ := sortNames_eq_iff.1 (Eq.refl (sortNames (tree.plainFiles place)))
      rw [FileTree.sourcePaths, if_pos hleads, FileTree.directorySources, hplace]
      exact .files hplace hdirectory hnames hsorted

/-- Arguments stand for their paths one by one. -/
theorem forall₂_standsFor_iff {arguments : List String} {groups : List (List String)} :
    List.Forall₂ tree.StandsFor arguments groups ↔ groups = arguments.map tree.sourcePaths := by
  have hrelation : tree.StandsFor = fun argument paths => tree.sourcePaths argument = paths := by
    funext argument paths
    exact propext (standsFor_iff.trans eq_comm)
  rw [hrelation, eq_comm]
  rw [← List.forall₂_map_left_iff, List.forall₂_eq_eq_eq]

end PseudoAsm
