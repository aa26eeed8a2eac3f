import PseudoAsm.Proofs.Files.Sources
import PseudoAsm.Proofs.Outcome

/-!
# Directories, in whatever order they are listed

A file system lists the entries of a directory in any order, each once.  What is read under a path
does not depend on the order, and the path of a directory leads on to the files in it.

* `FileTree.Listed` — a tree as a file system lists it;
* `mem_plainFiles_iff`, `nodup_plainFiles` — the plain files of a directory, each once;
* `locate_joinPath`, `readText_joinPath` — the path of a directory with a name behind it leads to
  the entry of this name;
* `readText_eq_of_perm`, `sourcePaths_eq_of_perm` — **what is read, and which files are read, does
  not depend on the order of the entries**;
* `loadSources_eq_ok_iff`, `loadSources_eq_error_iff` — the sources that are loaded, and the first
  one that cannot be.
-/

namespace PseudoAsm

variable {tree : FileTree} {place here : Place} {name path : String} {content : ByteArray}

/-- A name that an entry of a directory can have. -/
def IsEntryName (name : String) : Prop :=
  name ∉ ["", ".", ".."] ∧ '/' ∉ name.toList

instance (name : String) : Decidable (IsEntryName name) :=
  inferInstanceAs (Decidable (_ ∧ _))

theorem IsEntryName.ne (h : IsEntryName name) : name ≠ "" ∧ name ≠ "." ∧ name ≠ ".." := by
  simpa using h.1

/-- A tree as a file system lists it: every place once, and the files under names that they can
have. -/
structure FileTree.Listed (tree : FileTree) : Prop where
  once : (tree.entries.map Prod.fst).Nodup
  named {directory : Place} {name : String} {content : ByteArray}
    (h : (directory ++ [name], FileNode.file content) ∈ tree.entries) : IsEntryName name

/-! ### Plain files -/

/-- A place with a name at its end is the place of an entry of a directory. -/
theorem eq_concat_iff {other directory : Place} :
    other = directory ++ [name] ↔ other.dropLast = directory ∧ other.getLast? = some name := by
  constructor
  · rintro rfl
    simp
  · rintro ⟨rfl, hlast⟩
    exact (List.dropLast_append_getLast? name hlast).symm

/-- The name of a plain file in a directory, if an entry is one. -/
theorem plainFile_eq_some_iff {directory : Place} {entry : Place × FileNode} :
    (match entry.2 with
      | .directory => none
      | .file _ => if entry.1.dropLast = directory then entry.1.getLast? else none) = some name
      ↔ ∃ content, entry = (directory ++ [name], .file content) := by
  obtain ⟨other, node⟩ := entry
  cases node with
  | directory => simp
  | file content =>
    simp only [Prod.mk.injEq, FileNode.file.injEq, exists_and_left, exists_eq', and_true,
      eq_concat_iff]
    by_cases hparent : other.dropLast = directory <;> simp [hparent]

theorem mem_plainFiles_iff {directory : Place} :
    name ∈ tree.plainFiles directory
      ↔ ∃ content, (directory ++ [name], FileNode.file content) ∈ tree.entries := by
  unfold FileTree.plainFiles
  rw [List.mem_filterMap]
  constructor
  · rintro ⟨entry, hentry, hname⟩
    obtain ⟨content, rfl⟩ := plainFile_eq_some_iff.1 hname
    exact ⟨content, hentry⟩
  · rintro ⟨content, hentry⟩
    exact ⟨_, hentry, plainFile_eq_some_iff.2 ⟨content, rfl⟩⟩

/-- Where every place is listed once, so is every name in a directory. -/
theorem nodup_plainFiles (h : (tree.entries.map Prod.fst).Nodup) (directory : Place) :
    (tree.plainFiles directory).Nodup := by
  unfold FileTree.plainFiles List.Nodup
  rw [List.pairwise_filterMap]
  refine (List.pairwise_map.1 h).imp ?_
  intro entry other hne name hname other_name hother hsame
  obtain ⟨content, rfl⟩ := plainFile_eq_some_iff.1 hname
  obtain ⟨other_content, rfl⟩ := plainFile_eq_some_iff.1 hother
  exact hne (by rw [hsame])

/-- Sorted names of which none occurs twice ascend strictly. -/
theorem strictlyAscending_of_nodup {names : List String} (h : names.Nodup)
    (hsorted : names.Pairwise fun a b => Text.utf8 a ≤ Text.utf8 b) :
    names.Pairwise fun a b => Text.utf8 a < Text.utf8 b := by
  refine (hsorted.and h).imp ?_
  rintro a b ⟨hle, hne⟩
  rw [Text.utf8_lt_iff]
  by_contra hnot
  exact hne (String.le_antisymm (Text.utf8_le_iff.1 hle) hnot)

/-- The content of a file is the one that is listed with its place. -/
theorem content?_eq_some_iff (h : (tree.entries.map Prod.fst).Nodup) :
    tree.content? place = some content ↔ (place, FileNode.file content) ∈ tree.entries := by
  unfold FileTree.content?
  generalize tree.entries = entries at h
  induction entries with
  | nil => simp
  | cons entry rest ih =>
    obtain ⟨hfresh, hrest⟩ := List.nodup_cons.1 h
    obtain ⟨other, node⟩ := entry
    rw [List.findSome?_cons, List.mem_cons, Prod.mk.injEq]
    cases node with
    | directory => simpa using ih hrest
    | file found =>
      by_cases hplace : other = place
      · subst hplace
        have hnot : (other, FileNode.file content) ∉ rest := fun hmem =>
          hfresh (List.mem_map.2 ⟨_, hmem, rfl⟩)
        simp [hnot, eq_comm (a := found)]
      · simpa [hplace, Ne.symm hplace] using ih hrest

/-! ### Paths of entries -/

theorem enter_of_isEntryName (h : IsEntryName name) (here : Place) :
    FileTree.enter here name = here ++ [name] := by
  simp [FileTree.enter, h.ne]

/-- Names are followed one after the other. -/
theorem follow_append (tree : FileTree) (here : Place) (before after : List String) :
    tree.follow here (before ++ after)
      = tree.follow here before >>= fun place => tree.follow place after := by
  induction before generalizing here with
  | nil => rfl
  | cons name before ih =>
    simp only [List.cons_append, FileTree.follow]
    split
    · exact ih _
    · split <;> rfl

/-- From a directory the name of an entry leads to its place. -/
theorem follow_entryName (hdirectory : tree.isDirectory place = true) (h : IsEntryName name) :
    tree.follow place [name] = .ok (place ++ [name]) := by
  simp only [FileTree.follow, hdirectory, if_true, enter_of_isEntryName h]

/-- An empty name leads nowhere else. -/
theorem follow_of_follow_concat_empty {before : List String}
    (h : tree.follow here (before ++ [""]) = .ok place) : tree.follow here before = .ok place := by
  rw [follow_append] at h
  obtain ⟨other, hother, hlast⟩ := bind_eq_ok_iff.1 h
  rw [hother]
  simp only [FileTree.follow, FileTree.enter, true_or, if_true] at hlast
  split at hlast
  · exact hlast
  · split at hlast <;> cases hlast

/-- The names in the path of an entry: those in the path of the directory, which may have an empty
one behind a slash at its end, and the one of the entry. -/
theorem names_joinPath (h : '/' ∉ name.toList) (path : String) :
    ∃ before, FileTree.names (joinPath path name) = before ++ [name]
      ∧ (FileTree.names path = before ∨ FileTree.names path = before ++ [""]) := by
  have hname : (name.toList.splitOn '/').map String.ofList = [name] := by
    rw [List.splitOn_eq_singleton h, List.map_singleton, String.ofList_toList]
  unfold joinPath FileTree.names
  by_cases hslash : path.toList.getLast? = some '/'
  · obtain ⟨cs, hcs⟩ : ∃ cs, path.toList = cs ++ ['/'] :=
      ⟨_, (List.dropLast_append_getLast? '/' hslash).symm⟩
    refine ⟨(cs.splitOn '/').map String.ofList, ?_, .inr ?_⟩
    · rw [if_pos hslash, String.toList_append, hcs, List.append_assoc, List.singleton_append,
        List.splitOn_append_cons_self, List.map_append, hname]
    · rw [hcs, List.splitOn_append_cons_self, List.map_append]
      rfl
  · refine ⟨(path.toList.splitOn '/').map String.ofList, ?_, .inl rfl⟩
    rw [if_neg hslash, String.toList_append, String.toList_append, List.append_assoc,
      show "/".toList = ['/'] from rfl, List.singleton_append, List.splitOn_append_cons_self,
      List.map_append, hname]

theorem joinPath_eq (path name : String) :
    ∃ between, joinPath path name = path ++ between ++ name := by
  unfold joinPath
  by_cases hslash : path.toList.getLast? = some '/'
  · exact ⟨"", by rw [if_pos hslash, String.append_empty]⟩
  · exact ⟨"/", by rw [if_neg hslash]⟩

theorem origin_joinPath (hpath : path ≠ "") (name : String) :
    FileTree.origin (joinPath path name) = FileTree.origin path := by
  obtain ⟨between, hjoin⟩ := joinPath_eq path name
  have hne : path.toList ≠ [] := by simpa using hpath
  have hhead : (joinPath path name).toList.head? = path.toList.head? := by
    rw [hjoin, String.toList_append, String.toList_append, List.append_assoc,
      List.head?_append_of_ne_nil _ hne]
  rw [FileTree.origin, hhead, FileTree.origin]

/-- **The path of a directory with a name behind it leads to the entry of this name.** -/
theorem locate_joinPath (hplace : tree.locate path = .ok place)
    (hdirectory : tree.isDirectory place = true) (h : IsEntryName name) :
    tree.locate (joinPath path name) = .ok (place ++ [name]) := by
  have hpath : path ≠ "" := by
    rintro rfl
    cases hplace
  have hjoined : joinPath path name ≠ "" := by
    obtain ⟨between, hjoin⟩ := joinPath_eq path name
    rw [hjoin]
    simp [hpath]
  unfold FileTree.locate at hplace ⊢
  rw [if_neg (by simpa using hpath)] at hplace
  rw [if_neg (by simpa using hjoined), origin_joinPath hpath]
  obtain ⟨before, hnames, hbefore⟩ := names_joinPath h.2 path
  have hfollow : tree.follow (FileTree.origin path) before = .ok place := by
    rcases hbefore with hbefore | hbefore
    · rwa [← hbefore]
    · rw [hbefore] at hplace
      exact follow_of_follow_concat_empty hplace
  rw [hnames, follow_append, hfollow]
  exact follow_entryName hdirectory h

theorem fileName_joinPath (h : IsEntryName name) (path : String) :
    fileName (joinPath path name) = name := by
  obtain ⟨before, hnames, -⟩ := names_joinPath h.2 path
  simp [fileName, hnames, List.filter_append, h.ne]

/-! ### Texts of entries -/

/-- A file in the tree holds a text: its content is the text in UTF-8. -/
def FileTree.Holds (tree : FileTree) (place : Place) (text : String) : Prop :=
  ∃ content, (place, FileNode.file content) ∈ tree.entries ∧ String.fromUTF8? content = some text

section Entries

variable (hlisted : tree.Listed) (hplace : tree.locate path = .ok place)
  (hdirectory : tree.isDirectory place = true) (hfile : name ∈ tree.plainFiles place)

include hlisted hplace hdirectory hfile

/-- What is read of an entry is its content, if this is text. -/
theorem readText_joinPath :
    ∃ content, (place ++ [name], FileNode.file content) ∈ tree.entries
      ∧ tree.readText (joinPath path name)
        = (String.fromUTF8? content).elim (.error .invalidText) .ok := by
  obtain ⟨content, hentry⟩ := mem_plainFiles_iff.1 hfile
  refine ⟨content, hentry, ?_⟩
  have hlocate := locate_joinPath hplace hdirectory (hlisted.named hentry)
  have hcontent := (content?_eq_some_iff hlisted.once).2 hentry
  rw [FileTree.readText, hlocate]
  simp only [bind, Except.bind, hcontent]
  cases String.fromUTF8? content <;> rfl

/-- An entry is read as the text that it holds. -/
theorem readText_joinPath_eq_ok_iff {text : String} :
    tree.readText (joinPath path name) = .ok text ↔ tree.Holds (place ++ [name]) text := by
  obtain ⟨content, hentry, hread⟩ := readText_joinPath hlisted hplace hdirectory hfile
  have hholds : tree.Holds (place ++ [name]) text ↔ String.fromUTF8? content = some text := by
    constructor
    · rintro ⟨other, hother, htext⟩
      have hsame := (content?_eq_some_iff hlisted.once).2 hentry
      rw [(content?_eq_some_iff hlisted.once).2 hother, Option.some.injEq] at hsame
      rwa [← hsame]
    · intro htext
      exact ⟨content, hentry, htext⟩
  rw [hread, hholds]
  cases String.fromUTF8? content <;> simp

/-- Of an entry nothing can be wrong but that it holds no text. -/
theorem readText_joinPath_eq_error_iff {cause : FileError} :
    tree.readText (joinPath path name) = .error cause
      ↔ (¬∃ text, tree.Holds (place ++ [name]) text) ∧ cause = .invalidText := by
  have hok (text : String) : tree.readText (joinPath path name) = .ok text
      ↔ tree.Holds (place ++ [name]) text :=
    readText_joinPath_eq_ok_iff hlisted hplace hdirectory hfile
  obtain ⟨content, -, hread⟩ := readText_joinPath hlisted hplace hdirectory hfile
  simp only [← hok]
  rw [hread]
  cases String.fromUTF8? content <;> simp [eq_comm]

end Entries

/-! ### The order of the entries -/

/-- The order of the names is no matter where they are sorted. -/
theorem sortNames_eq_of_perm {names others : List String} (h : others.Perm names) :
    sortNames others = sortNames names := by
  obtain ⟨hsame, hsorted⟩ := sortNames_eq_iff.1 (Eq.refl (sortNames others))
  exact sortNames_eq_iff.2 ⟨hsame.trans h, hsorted⟩

section Orders

variable {other : FileTree} (hperm : other.entries.Perm tree.entries)

include hperm

theorem isDirectory_eq_of_perm (place : Place) :
    other.isDirectory place = tree.isDirectory place := by
  rw [Bool.eq_iff_iff]
  simp only [FileTree.isDirectory, Bool.or_eq_true, List.any_eq_true, hperm.mem_iff]

theorem plainFiles_perm (directory : Place) :
    (other.plainFiles directory).Perm (tree.plainFiles directory) :=
  hperm.filterMap _

variable (honce : (tree.entries.map Prod.fst).Nodup)

include honce

theorem content?_eq_of_perm (place : Place) : other.content? place = tree.content? place := by
  have hother : (other.entries.map Prod.fst).Nodup := (hperm.map Prod.fst).nodup_iff.2 honce
  ext content
  rw [content?_eq_some_iff hother, content?_eq_some_iff honce, hperm.mem_iff]

theorem locate_eq_of_perm (path : String) : other.locate path = tree.locate path := by
  have hfollow (here : Place) (names : List String) :
      other.follow here names = tree.follow here names := by
    induction names generalizing here with
    | nil => rfl
    | cons name rest ih =>
      simp only [FileTree.follow, isDirectory_eq_of_perm hperm, content?_eq_of_perm hperm honce, ih]
  rw [FileTree.locate, FileTree.locate, hfollow]

/-- **What is read does not depend on the order of the entries.** -/
theorem readText_eq_of_perm (path : String) : other.readText path = tree.readText path := by
  simp only [FileTree.readText, locate_eq_of_perm hperm honce, content?_eq_of_perm hperm honce,
    isDirectory_eq_of_perm hperm]

/-- **Which files are read does not depend on the order of the entries.** -/
theorem sourcePaths_eq_of_perm (path : String) :
    other.sourcePaths path = tree.sourcePaths path := by
  have hsorted (directory : Place) :
      sortNames (other.plainFiles directory) = sortNames (tree.plainFiles directory) :=
    sortNames_eq_of_perm (plainFiles_perm hperm directory)
  simp only [FileTree.sourcePaths, FileTree.leadsToDirectory, FileTree.directorySources,
    locate_eq_of_perm hperm honce, isDirectory_eq_of_perm hperm, hsorted]
  rfl

theorem loadSources_eq_of_perm (path : String) :
    loadSources other path = loadSources tree path := by
  have hload : loadSource other = loadSource tree := by
    funext path
    rw [loadSource, loadSource, readText_eq_of_perm hperm honce]
  rw [loadSources, loadSources, sourcePaths_eq_of_perm hperm honce, hload]

end Orders

/-! ### Loading the files of a directory -/

/-- Lists are related in the same way where their relations agree on the elements of the first. -/
theorem forall₂_congr_left {α β : Type} {R S : α → β → Prop} {l : List α} {found : List β}
    (h : ∀ a ∈ l, ∀ b, R a b ↔ S a b) : List.Forall₂ R l found ↔ List.Forall₂ S l found := by
  induction l generalizing found with
  | nil => rw [List.forall₂_nil_left_iff, List.forall₂_nil_left_iff]
  | cons a l ih =>
    obtain ⟨hhead, htail⟩ := List.forall_mem_cons.1 h
    rw [List.forall₂_cons_left_iff, List.forall₂_cons_left_iff]
    simp only [hhead, ih htail]

/-- A computation over a list succeeds exactly if it does on every element. -/
theorem mapM_eq_ok_iff {ε α β : Type} {f : α → Except ε β} {l : List α} {found : List β} :
    l.mapM f = .ok found ↔ List.Forall₂ (fun a b => f a = .ok b) l found := by
  induction l generalizing found with
  | nil =>
    rw [List.forall₂_nil_left_iff]
    exact ⟨fun h => (Except.ok.inj h).symm, fun h => congrArg Except.ok h.symm⟩
  | cons a l ih =>
    rw [List.mapM_cons, List.forall₂_cons_left_iff]
    constructor
    · intro h
      obtain ⟨b, hb, h⟩ := bind_eq_ok_iff.1 h
      obtain ⟨rest, hrest, h⟩ := bind_eq_ok_iff.1 h
      cases h
      exact ⟨b, rest, hb, ih.1 hrest, rfl⟩
    · rintro ⟨b, rest, hb, hrest, rfl⟩
      exact bind_eq_ok_iff.2 ⟨b, hb, bind_eq_ok_iff.2 ⟨rest, ih.2 hrest, rfl⟩⟩

/-- It fails exactly if one of them does and those before it do not, and then as this one. -/
theorem mapM_eq_error_iff_split {ε α β : Type} {f : α → Except ε β} {l : List α} {e : ε} :
    l.mapM f = .error e
      ↔ ∃ before a after, l = before ++ a :: after ∧ (∀ b ∈ before, ∃ c, f b = .ok c)
        ∧ f a = .error e := by
  rw [mapM_eq_error_iff]
  constructor
  · rintro ⟨i, a, ha, hfails, hbefore⟩
    obtain ⟨hi, rfl⟩ := List.getElem?_eq_some_iff.1 ha
    refine ⟨l.take i, l[i], l.drop (i + 1), ?_, ?_, hfails⟩
    · rw [List.getElem_cons_drop, List.take_append_drop]
    · intro b hb
      obtain ⟨j, hj, rfl⟩ := List.mem_take_iff_getElem.1 hb
      exact hbefore j (by omega) _ (List.getElem?_eq_getElem (by omega))
  · rintro ⟨before, a, after, rfl, hbefore, hfails⟩
    refine ⟨before.length, a, by simp, hfails, ?_⟩
    intro j hj b hb
    rw [List.getElem?_append_left hj] at hb
    exact hbefore b (List.mem_of_getElem? hb)

theorem loadSource_eq_ok_iff {source : Source} :
    loadSource tree path = .ok source
      ↔ source.name = fileName path ∧ tree.readText path = .ok source.text := by
  obtain ⟨name, text⟩ := source
  unfold loadSource
  cases tree.readText path with
  | error cause => simp
  | ok found => simp [eq_comm]

theorem loadSource_eq_error_iff {e : LoadError} :
    loadSource tree path = .error e
      ↔ ∃ cause, tree.readText path = .error cause ∧ e = .unreadable path cause := by
  unfold loadSource
  cases tree.readText path with
  | error cause => simp [eq_comm]
  | ok found => simp

theorem loadSources_eq_mapM (h : tree.sourcePaths path ≠ []) :
    loadSources tree path = (tree.sourcePaths path).mapM (loadSource tree) := by
  unfold loadSources
  split
  · next hnone => exact absurd hnone h
  · rfl

/-- The source in an entry: the name of the entry with the text that it holds. -/
def Source.IsEntry (tree : FileTree) (place : Place) (name : String) (source : Source) : Prop :=
  source.name = name ∧ tree.Holds (place ++ [name]) source.text

section Loading

variable {names : List String} (hlisted : tree.Listed) (hplace : tree.locate path = .ok place)
  (hdirectory : tree.isDirectory place = true)
  (hfiles : ∀ name ∈ names, name ∈ tree.plainFiles place)
  (hpaths : tree.sourcePaths path = names.map (joinPath path)) (hne : names ≠ [])

include hlisted hplace hdirectory hfiles hpaths hne

/-- **The sources of a directory are its entries.** -/
theorem loadSources_eq_ok_iff {sources : List Source} :
    loadSources tree path = .ok sources
      ↔ List.Forall₂ (Source.IsEntry tree place) names sources := by
  have hentry {name : String} (hname : name ∈ names) (source : Source) :
      loadSource tree (joinPath path name) = .ok source
        ↔ Source.IsEntry tree place name source := by
    have hentryName : IsEntryName name := by
      obtain ⟨content, hmem⟩ := mem_plainFiles_iff.1 (hfiles name hname)
      exact hlisted.named hmem
    rw [loadSource_eq_ok_iff, fileName_joinPath hentryName,
      readText_joinPath_eq_ok_iff hlisted hplace hdirectory (hfiles name hname)]
    rfl
  rw [loadSources_eq_mapM (by simpa [hpaths] using hne), hpaths, mapM_eq_ok_iff,
    List.forall₂_map_left_iff]
  exact forall₂_congr_left fun _ hname source => hentry hname source

/-- **Loading them fails exactly on the first entry that holds no text.** -/
theorem loadSources_eq_error_iff {e : LoadError} :
    loadSources tree path = .error e
      ↔ ∃ before name after, names = before ++ name :: after
        ∧ (∀ earlier ∈ before, ∃ text, tree.Holds (place ++ [earlier]) text)
        ∧ (¬∃ text, tree.Holds (place ++ [name]) text)
        ∧ e = .unreadable (joinPath path name) .invalidText := by
  have hok {name : String} (hname : name ∈ names) :
      (∃ source, loadSource tree (joinPath path name) = .ok source)
        ↔ ∃ text, tree.Holds (place ++ [name]) text := by
    simp only [← readText_joinPath_eq_ok_iff hlisted hplace hdirectory (hfiles name hname)]
    constructor
    · rintro ⟨source, hsource⟩
      exact ⟨source.text, (loadSource_eq_ok_iff.1 hsource).2⟩
    · rintro ⟨text, htext⟩
      exact ⟨⟨_, text⟩, loadSource_eq_ok_iff.2 ⟨rfl, htext⟩⟩
  have herror {name : String} (hname : name ∈ names) :
      loadSource tree (joinPath path name) = .error e
        ↔ (¬∃ text, tree.Holds (place ++ [name]) text)
          ∧ e = .unreadable (joinPath path name) .invalidText := by
    simp only [loadSource_eq_error_iff,
      readText_joinPath_eq_error_iff hlisted hplace hdirectory (hfiles name hname)]
    constructor
    · rintro ⟨cause, ⟨hnone, rfl⟩, rfl⟩
      exact ⟨hnone, rfl⟩
    · rintro ⟨hnone, rfl⟩
      exact ⟨_, ⟨hnone, rfl⟩, rfl⟩
  rw [loadSources_eq_mapM (by simpa [hpaths] using hne), hpaths, List.mapM_map,
    mapM_eq_error_iff_split]
  refine exists_congr fun before => exists_congr fun name => exists_congr fun after =>
    and_congr_right fun hsplit => ?_
  have hname : name ∈ names := by simp [hsplit]
  have hbefore : ∀ earlier ∈ before, earlier ∈ names := by
    intro earlier hearlier
    simp [hsplit, hearlier]
  refine and_congr ?_ (herror hname)
  exact forall₂_congr fun earlier hearlier => hok (hbefore earlier hearlier)

end Loading

end PseudoAsm
