import PseudoAsm.Files.Tree
import PseudoAsm.Proofs.Outcome

/-!
# Writing a file

A text can be written to a path that leads to no directory, through directories that exist.  After
that the file there holds the text, and nothing else has changed: writing replaces a file or adds
one, and the directories above it were there before.

* `FileTree.Writable` — a file can be written at a path;
* `FileTree.Rewritten` — two trees differ in one file, which holds a text afterwards;
* `FileTree.enclosed_of_locate` — **a path leads to a place only through directories**;
* `FileTree.writeText_eq_ok_iff`, `FileTree.rewritten_putFile` — **a text is written exactly if it
  can be, and changes one file**;
* `FileTree.Rewritten.readText` — it is what is read under the path from then on.
-/

namespace PseudoAsm

variable {tree after : FileTree} {place other here : Place} {path text : String}
  {content : ByteArray}

namespace FileTree

/-- A file can be written at a path, which stands for a place. -/
structure Writable (tree : FileTree) (path : String) (place : Place) : Prop where
  located : tree.locate path = .ok place
  free : tree.isDirectory place = false
  unslashed : withoutFinalSlashes path = path

/-- The trees differ in the file at a place alone, which holds a text in the second. -/
structure Rewritten (tree after : FileTree) (place : Place) (text : String) : Prop where
  written : after.content? place = some text.toUTF8
  others {other : Place} (hother : other ≠ place) : after.content? other = tree.content? other
  directories (other : Place) : after.isDirectory other = tree.isDirectory other

/-! ### The directories above a place -/

/-- Every place above another is a directory. -/
def Enclosed (tree : FileTree) (place : Place) : Prop :=
  ∀ above, above <+: place → above ≠ place → tree.isDirectory above = true

theorem isDirectory_nil (tree : FileTree) : tree.isDirectory [] = true := by
  simp [isDirectory]

theorem enclosed_singleton (tree : FileTree) (name : String) : tree.Enclosed [name] := by
  intro above hpart hne
  rcases List.prefix_concat_iff.1 (show above <+: [] ++ [name] from hpart) with heq | hnil
  · exact absurd heq hne
  · rw [List.prefix_nil.1 hnil]
    exact isDirectory_nil tree

theorem Enclosed.concat (h : tree.Enclosed here) (hdirectory : tree.isDirectory here = true)
    (name : String) : tree.Enclosed (here ++ [name]) := by
  intro above hpart hne
  rcases List.prefix_concat_iff.1 hpart with heq | habove
  · exact absurd heq hne
  · by_cases hhere : above = here
    · rwa [hhere]
    · exact h above habove hhere

theorem Enclosed.dropLast (h : tree.Enclosed here) : tree.Enclosed here.dropLast := by
  intro above hpart hne
  refine h above (hpart.trans (List.dropLast_prefix here)) ?_
  rintro rfl
  exact hne (hpart.eq_of_length_le (List.dropLast_prefix above).length_le)

/-- A name leads from a directory to a place that is enclosed if the directory is. -/
theorem Enclosed.enter (h : tree.Enclosed here) (hdirectory : tree.isDirectory here = true)
    (name : String) : tree.Enclosed (enter here name) := by
  unfold FileTree.enter
  split
  · exact h
  · split
    · split
      · exact enclosed_singleton tree ".."
      · split
        · exact h.concat hdirectory ".."
        · split
          · exact h
          · exact h.dropLast
    · exact h.concat hdirectory name

theorem Enclosed.of_follow {names : List String} (h : tree.Enclosed here)
    (hfollow : tree.follow here names = .ok place) : tree.Enclosed place := by
  induction names generalizing here with
  | nil =>
    obtain rfl := Except.ok.inj hfollow
    exact h
  | cons name rest ih =>
    rw [follow] at hfollow
    by_cases hdirectory : tree.isDirectory here = true
    · rw [if_pos hdirectory] at hfollow
      exact ih (h.enter hdirectory name) hfollow
    · rw [if_neg hdirectory] at hfollow
      split at hfollow <;> cases hfollow

/-- **A path leads to a place only through directories.** -/
theorem enclosed_of_locate (h : tree.locate path = .ok place) : tree.Enclosed place := by
  unfold locate at h
  split at h
  · cases h
  · refine Enclosed.of_follow ?_ h
    unfold origin
    split
    · exact enclosed_singleton tree "/"
    · intro above hpart hne
      exact absurd (List.prefix_nil.1 hpart) hne

/-! ### Putting a file into a tree -/

theorem content?_putFile_self (place : Place) (content : ByteArray)
    (entries : List (Place × FileNode)) :
    content? ⟨putFile place content entries⟩ place = some content := by
  unfold content?
  induction entries with
  | nil => simp [putFile]
  | cons entry rest ih =>
    obtain ⟨other, node⟩ := entry
    by_cases hplace : other = place
    · simp [putFile, hplace]
    · cases node <;> simpa [putFile, hplace] using ih

theorem content?_putFile_of_ne (hother : other ≠ place) (content : ByteArray)
    (entries : List (Place × FileNode)) :
    content? ⟨putFile place content entries⟩ other = content? ⟨entries⟩ other := by
  unfold content?
  induction entries with
  | nil => simp [putFile, hother.symm]
  | cons entry rest ih =>
    obtain ⟨found, node⟩ := entry
    by_cases hplace : found = place
    · subst hplace
      cases node <;> simp [putFile, hother.symm]
    · simp only [putFile, hplace, if_false, List.findSome?_cons, ih]

/-- A question put to all entries has the same answer when a file is put in, up to this file, if it
makes no difference between the file and what stood in its place. -/
theorem any_putFile {ask : Place × FileNode → Bool} {entries : List (Place × FileNode)}
    (h : ∀ node, (place, node) ∈ entries → ask (place, node) = ask (place, .file content)) :
    (putFile place content entries).any ask = (entries.any ask || ask (place, .file content)) := by
  induction entries with
  | nil => simp [putFile]
  | cons entry rest ih =>
    obtain ⟨other, node⟩ := entry
    by_cases hplace : other = place
    · subst hplace
      rw [putFile, if_pos rfl, List.any_cons, List.any_cons, h node List.mem_cons_self]
      cases ask (other, .file content) <;> simp
    · rw [putFile, if_neg hplace, List.any_cons, List.any_cons, Bool.or_assoc]
      rw [ih fun node hnode => h node (List.mem_cons_of_mem _ hnode)]

/-- **A file put where no directory stands, below directories that exist, makes and removes
none.** -/
theorem isDirectory_putFile (henclosed : tree.Enclosed place)
    (hfree : tree.isDirectory place = false) (content : ByteArray) (other : Place) :
    isDirectory ⟨putFile place content tree.entries⟩ other = tree.isDirectory other := by
  unfold isDirectory at hfree ⊢
  simp only [Bool.or_eq_false_iff, List.any_eq_false] at hfree
  have hnone : ∀ node, (place, node) ∈ tree.entries → node.isDirectory = false := by
    intro node hnode
    simpa using hfree.2 _ hnode
  rw [any_putFile]
  · by_cases habove : other ≠ place ∧ other <+: place
    · have hdirectory := henclosed other habove.2 habove.1
      unfold isDirectory at hdirectory
      rw [← Bool.or_assoc, hdirectory, Bool.true_or]
    · have hfile : (if place = other then (FileNode.file content).isDirectory
          else other.isPrefixOf place) = false := by
        by_cases hplace : place = other
        · rw [if_pos hplace]
          rfl
        · rw [if_neg hplace, Bool.eq_false_iff]
          intro hpart
          exact habove ⟨Ne.symm hplace, List.isPrefixOf_iff_prefix.1 hpart⟩
      simp only [hfile, Bool.or_false]
  · intro node hnode
    show (if place = other then node.isDirectory else other.isPrefixOf place)
      = if place = other then (FileNode.file content).isDirectory else other.isPrefixOf place
    rw [hnone node hnode]
    rfl

/-! ### Writing a text -/

theorem rewritten_putFile (h : tree.Writable path place) (text : String) :
    tree.Rewritten ⟨putFile place text.toUTF8 tree.entries⟩ place text where
  written := content?_putFile_self place _ _
  others := by
    intro other hother
    exact content?_putFile_of_ne hother _ _
  directories := isDirectory_putFile (enclosed_of_locate h.located) h.free _

theorem writeText_eq (tree : FileTree) (path text : String) : tree.writeText path text
    = tree.locate (withoutFinalSlashes path) >>= fun place =>
      if withoutFinalSlashes path = path ∧ tree.isDirectory place = false then
        .ok ⟨putFile place text.toUTF8 tree.entries⟩
      else .error .isDirectory := by
  unfold writeText
  congr 1
  funext place
  by_cases hpath : withoutFinalSlashes path = path
  · cases tree.isDirectory place <;> simp [hpath] <;> rfl
  · simp [hpath]
    rfl

/-- **A text is written exactly if the file can be.** -/
theorem writeText_eq_ok_iff : tree.writeText path text = .ok after
    ↔ ∃ place, tree.Writable path place ∧ after = ⟨putFile place text.toUTF8 tree.entries⟩ := by
  rw [writeText_eq, bind_eq_ok_iff]
  constructor
  · rintro ⟨place, hplace, h⟩
    by_cases hfree : withoutFinalSlashes path = path ∧ tree.isDirectory place = false
    · rw [if_pos hfree] at h
      rw [hfree.1] at hplace
      exact ⟨place, ⟨hplace, hfree.2, hfree.1⟩, (Except.ok.inj h).symm⟩
    · rw [if_neg hfree] at h
      cases h
  · rintro ⟨place, hwritable, rfl⟩
    refine ⟨place, ?_, if_pos ⟨hwritable.unslashed, hwritable.free⟩⟩
    rw [hwritable.unslashed]
    exact hwritable.located

theorem follow_of_directories {names : List String}
    (hsame : ∀ other, after.isDirectory other = tree.isDirectory other)
    (h : tree.follow here names = .ok place) : after.follow here names = .ok place := by
  induction names generalizing here with
  | nil => exact h
  | cons name rest ih =>
    rw [follow] at h ⊢
    by_cases hdirectory : tree.isDirectory here = true
    · rw [if_pos hdirectory] at h
      rw [if_pos ((hsame here).trans hdirectory)]
      exact ih h
    · rw [if_neg hdirectory] at h
      split at h <;> cases h

/-- **What was written to a path is what is read under it.** -/
theorem Rewritten.readText (h : tree.Rewritten after place text)
    (hwritable : tree.Writable path place) : after.readText path = .ok text := by
  have hlocate : after.locate path = .ok place := by
    have hplace := hwritable.located
    unfold locate at hplace ⊢
    split at hplace
    · cases hplace
    · next hpath =>
      rw [if_neg hpath]
      exact follow_of_directories h.directories hplace
  have htext : String.fromUTF8? text.toUTF8 = some text := by
    unfold String.fromUTF8?
    exact dif_pos text.isValidUTF8
  rw [FileTree.readText, hlocate]
  simp only [bind, Except.bind, h.written, htext]
  rfl

end FileTree

end PseudoAsm
