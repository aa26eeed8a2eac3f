import PseudoAsm.Proofs.Command.Batch
import PseudoAsm.Proofs.Files.Directory

/-!
# Directories as both commands see them

A directory can be given to the command that runs programs and to the one that prints them.  Both
take its plain files in the order of their names, whatever order the file system lists them in.
They differ in an empty directory alone, which is no program to the one and an error to the other.

* `settings_eq_of_perm`, `runAll_eq_of_perm` — a batch does not see the order of the entries;
* `DirectorySources` — what both commands make of a directory with some names;
* `DirectorySources.of_listed` — they make it of every directory;
* `directory_sources` — **both commands see the plain files of a directory, once each and in the
  order of the bytes of their names**, and the order in which they are listed does not matter.
-/

namespace PseudoAsm

variable {tree other : FileTree} {path : String} {place : Place} {names : List String}

/-! ### Batches and the order of the entries -/

/-- What a command shows of itself. -/
def Outcome.shown (outcome : Outcome) : Nat × String × String :=
  (outcome.code, outcome.stdout, outcome.stderr)

section Orders

variable (hperm : other.entries.Perm tree.entries) (honce : (tree.entries.map Prod.fst).Nodup)

include hperm honce

theorem settings_eq_of_perm (request : BatchRequest) :
    Batch.settings other request = Batch.settings tree request := by
  simp only [Batch.settings, readText_eq_of_perm hperm honce]

theorem runAll_eq_of_perm (patience : Nat) (settings : Settings) (log : Option Subscriber)
    (paths : List String) (progress : Batch.Progress) :
    Batch.runAll patience settings other log paths progress
      = Batch.runAll patience settings tree log paths progress := by
  induction paths generalizing progress with
  | nil => rfl
  | cons path rest ih => simp only [Batch.runAll, readText_eq_of_perm hperm honce, ih]

/-- A batch shows the same in whatever order the entries are listed. -/
theorem shown_runBatch_of_perm (patience : Nat) (request : BatchRequest)
    (log : Option Subscriber) :
    (runBatch patience other request log).map Outcome.shown
      = (runBatch patience tree request log).map Outcome.shown := by
  have hpaths : other.sourcePaths = tree.sourcePaths :=
    funext (sourcePaths_eq_of_perm hperm honce)
  unfold runBatch
  rw [settings_eq_of_perm hperm honce, hpaths]
  cases Batch.settings tree request with
  | error error => rfl
  | ok settings =>
    dsimp only
    rw [runAll_eq_of_perm hperm honce, Option.map_map, Option.map_map]
    congr 1
    funext progress
    simp only [Function.comp_apply]
    cases progress.finalError? (request.sources.flatMap tree.sourcePaths).length <;> rfl

end Orders

/-! ### What is made of a directory -/

/-- A run is that of a source in a directory. -/
def FileRun.IsOfSource (path : String) (settings : Settings) (source : Source) (run : FileRun) :
    Prop :=
  run.path = joinPath path source.name
    ∧ Interprets settings source.text run.result run.events

/-- What both commands make of the directory at a place, given by a path: they see files under some
names. -/
structure DirectorySources (tree : FileTree) (path : String) (place : Place)
    (names : List String) : Prop where
  /-- The names are those of the plain files. -/
  files (name : String) :
    name ∈ names ↔ ∃ content, (place ++ [name], FileNode.file content) ∈ tree.entries
  /-- They ascend in the order of their bytes, so none occurs twice. -/
  ascending : names.Pairwise fun a b => Text.utf8 a < Text.utf8 b
  /-- A batch takes the files under these names for the directory. -/
  taken : tree.sourcePaths path = names.map (joinPath path)
  /-- Loading takes them too: it succeeds with one source for each, which holds its text. -/
  loaded (hne : names ≠ []) (sources : List Source) :
    loadSources tree path = .ok sources ↔ List.Forall₂ (Source.IsEntry tree place) names sources
  /-- It fails exactly on the first file that holds no text. -/
  refused (hne : names ≠ []) (e : LoadError) :
    loadSources tree path = .error e
      ↔ ∃ before name after, names = before ++ name :: after
        ∧ (∀ earlier ∈ before, ∃ text, tree.Holds (place ++ [earlier]) text)
        ∧ (¬∃ text, tree.Holds (place ++ [name]) text)
        ∧ e = .unreadable (joinPath path name) .invalidText
  /-- A batch runs the texts that are loaded, in their order. -/
  run {sources : List Source} (hloaded : loadSources tree path = .ok sources) (settings : Settings)
    (runs : List FileRun) :
    AreRunsOf tree settings (tree.sourcePaths path) runs
      ↔ List.Forall₂ (FileRun.IsOfSource path settings) sources runs
  /-- A batch of the directory alone ends when the runs of these texts do. -/
  ends {sources : List Source} (hloaded : loadSources tree path = .ok sources)
    {request : BatchRequest} {settings : Settings}
    (hsettings : Batch.settings tree request = .ok settings) (hsources : request.sources = [path])
    (log : Option Subscriber) (outcome : Outcome) :
    BatchEnds tree request log outcome
      ↔ ∃ runs, List.Forall₂ (FileRun.IsOfSource path settings) sources runs
        ∧ outcome = .completed tree log runs
  /-- Without any file loading fails. -/
  none_loaded (hnone : names = []) : loadSources tree path = .error (.noSources path)
  /-- Without any file the directory adds nothing to a batch. -/
  none_run (hnone : names = []) (patience : Nat) {request : BatchRequest}
    {before after : List String} (hsources : request.sources = before ++ path :: after)
    (log : Option Subscriber) :
    runBatch patience tree request log
      = runBatch patience tree { request with sources := before ++ after } log

section Directory

variable (hlisted : tree.Listed) (hplace : tree.locate path = .ok place)
  (hdirectory : tree.isDirectory place = true)
  (hfiles : ∀ name ∈ names, name ∈ tree.plainFiles place)
  (hpaths : tree.sourcePaths path = names.map (joinPath path))

include hpaths in
/-- A directory without files adds nothing to a batch. -/
theorem runBatch_of_no_files (hnone : names = []) (patience : Nat) {request : BatchRequest}
    {before after : List String} (hsources : request.sources = before ++ path :: after)
    (log : Option Subscriber) :
    runBatch patience tree request log
      = runBatch patience tree { request with sources := before ++ after } log := by
  have hempty : tree.sourcePaths path = [] := by rw [hpaths, hnone, List.map_nil]
  have hsame : request.sources.flatMap tree.sourcePaths
      = (before ++ after).flatMap tree.sourcePaths := by
    rw [hsources, List.flatMap_append, List.flatMap_cons, hempty, List.nil_append,
      List.flatMap_append]
  rw [runBatch, hsame]
  rfl

include hlisted hplace hdirectory hfiles hpaths in
/-- The runs of the files of a directory are those of its sources. -/
theorem areRunsOf_sourcePaths_iff (hne : names ≠ []) {sources : List Source}
    (hloaded : loadSources tree path = .ok sources) (settings : Settings) (runs : List FileRun) :
    AreRunsOf tree settings (tree.sourcePaths path) runs
      ↔ List.Forall₂ (FileRun.IsOfSource path settings) sources runs := by
  have hsources :=
    (loadSources_eq_ok_iff hlisted hplace hdirectory hfiles hpaths hne).1 hloaded
  rw [hpaths, AreRunsOf, List.forall₂_map_left_iff]
  clear hloaded hne hpaths
  induction hsources generalizing runs with
  | nil => rw [List.forall₂_nil_left_iff, List.forall₂_nil_left_iff]
  | @cons name source names sources hsource _ ih =>
    obtain ⟨hname, hholds⟩ := hsource
    obtain ⟨hfile, hfiles⟩ := List.forall_mem_cons.1 hfiles
    have hread := (readText_joinPath_eq_ok_iff hlisted hplace hdirectory hfile).2 hholds
    have hrun (run : FileRun) : FileRun.IsOf tree settings (joinPath path name) run
        ↔ FileRun.IsOfSource path settings source run := by
      simp [FileRun.IsOf, FileRun.IsOfSource, hname, hread]
    rw [List.forall₂_cons_left_iff, List.forall₂_cons_left_iff]
    refine exists_congr fun run => exists_congr fun others => ?_
    exact and_congr (hrun run) (and_congr (ih hfiles others) Iff.rfl)

include hlisted hplace hdirectory hfiles hpaths in
/-- The files of a directory whose sources are loaded can be read. -/
theorem readable_sourcePaths (hne : names ≠ []) {sources : List Source}
    (hloaded : loadSources tree path = .ok sources) :
    ∀ file ∈ tree.sourcePaths path, tree.Readable file := by
  have hsources :=
    (loadSources_eq_ok_iff hlisted hplace hdirectory hfiles hpaths hne).1 hloaded
  intro file hfile
  rw [hpaths] at hfile
  obtain ⟨name, hname, rfl⟩ := List.mem_map.1 hfile
  obtain ⟨i, hi, rfl⟩ := List.mem_iff_getElem.1 hname
  obtain ⟨-, hholds⟩ := hsources.get hi (hsources.length_eq ▸ hi)
  exact ⟨_, (readText_joinPath_eq_ok_iff hlisted hplace hdirectory (hfiles _ hname)).2 hholds⟩

end Directory

/-- **Both commands make the same of every directory.** -/
theorem DirectorySources.of_listed (hlisted : tree.Listed) (hplace : tree.locate path = .ok place)
    (hdirectory : tree.isDirectory place = true) :
    DirectorySources tree path place (sortNames (tree.plainFiles place)) := by
  obtain ⟨hsame, hsorted⟩ := sortNames_eq_iff.1 (Eq.refl (sortNames (tree.plainFiles place)))
  have hfiles (name : String) (h : name ∈ sortNames (tree.plainFiles place)) :
      name ∈ tree.plainFiles place := hsame.mem_iff.1 h
  have hpaths : tree.sourcePaths path
      = (sortNames (tree.plainFiles place)).map (joinPath path) := by
    rw [FileTree.sourcePaths, if_pos (leadsToDirectory_iff.2 ⟨_, hplace, hdirectory⟩),
      FileTree.directorySources, hplace]
  have hne {sources : List Source} (hloaded : loadSources tree path = .ok sources) :
      sortNames (tree.plainFiles place) ≠ [] := by
    intro hnone
    rw [loadSources, hpaths, hnone] at hloaded
    cases hloaded
  refine
    { files := ?_, ascending := ?_, taken := hpaths, loaded := ?_, refused := ?_, run := ?_,
      ends := ?_, none_loaded := ?_, none_run := runBatch_of_no_files hpaths }
  · intro name
    rw [hsame.mem_iff, mem_plainFiles_iff]
  · exact strictlyAscending_of_nodup (hsame.nodup_iff.2 (nodup_plainFiles hlisted.once place))
      hsorted
  · intro hne sources
    exact loadSources_eq_ok_iff hlisted hplace hdirectory hfiles hpaths hne
  · intro hne e
    exact loadSources_eq_error_iff hlisted hplace hdirectory hfiles hpaths hne
  · intro sources hloaded
    exact areRunsOf_sourcePaths_iff hlisted hplace hdirectory hfiles hpaths (hne hloaded) hloaded
  · intro sources hloaded request settings hsettings hsources log outcome
    have hfound : request.sources.flatMap tree.sourcePaths = tree.sourcePaths path := by
      rw [hsources, List.flatMap_singleton]
    have hreadable :=
      readable_sourcePaths hlisted hplace hdirectory hfiles hpaths (hne hloaded) hloaded
    rw [batchEnds_readable hsettings log (by rwa [hfound]), hfound]
    simp only [areRunsOf_sourcePaths_iff hlisted hplace hdirectory hfiles hpaths (hne hloaded)
      hloaded]
  · intro hnone
    rw [loadSources, hpaths, hnone]
    rfl

/-- **Both commands see the plain files of a directory, once each and in the order of the bytes of
their names**, and neither sees the order in which they are listed. -/
theorem directory_sources (hlisted : tree.Listed) (hplace : tree.locate path = .ok place)
    (hdirectory : tree.isDirectory place = true) :
    ∃ names, DirectorySources tree path place names
      ∧ ∀ other : FileTree, other.entries.Perm tree.entries →
        DirectorySources other path place names
          ∧ other.sourcePaths path = tree.sourcePaths path
          ∧ loadSources other path = loadSources tree path
          ∧ ∀ patience request log, (runBatch patience other request log).map Outcome.shown
            = (runBatch patience tree request log).map Outcome.shown := by
  refine ⟨sortNames (tree.plainFiles place), .of_listed hlisted hplace hdirectory, ?_⟩
  intro other hperm
  have hother : other.Listed :=
    ⟨(hperm.map Prod.fst).nodup_iff.2 hlisted.once, fun h => hlisted.named (hperm.mem_iff.1 h)⟩
  have hview : DirectorySources other path place (sortNames (other.plainFiles place)) :=
    .of_listed hother ((locate_eq_of_perm hperm hlisted.once path).trans hplace)
      ((isDirectory_eq_of_perm hperm place).trans hdirectory)
  rw [sortNames_eq_of_perm (plainFiles_perm hperm place)] at hview
  exact ⟨hview, sourcePaths_eq_of_perm hperm hlisted.once path,
    loadSources_eq_of_perm hperm hlisted.once path, shown_runBatch_of_perm hperm hlisted.once⟩

/-- A directory whose names come in another order by their bytes than in an alphabet. -/
def mixedTree : FileTree where
  entries :=
    [(["d", "b"], .file "end".toUTF8), (["d", "é"], .file "ret".toUTF8), (["d", "sub"], .directory),
      (["d", "Z"], .file "mov a, 1".toUTF8)]

example : mixedTree.sourcePaths "d" = ["d/Z", "d/b", "d/é"] := by cbv

/-- The files of a directory with a subdirectory, under names with letters of three kinds. -/
theorem directory_sources_mixed :
    mixedTree.Listed ∧ mixedTree.locate "d" = .ok ["d"] ∧ mixedTree.isDirectory ["d"] = true
      ∧ ∃ names, DirectorySources mixedTree "d" ["d"] names
        ∧ ∀ other : FileTree, other.entries.Perm mixedTree.entries →
          DirectorySources other "d" ["d"] names
            ∧ other.sourcePaths "d" = mixedTree.sourcePaths "d"
            ∧ loadSources other "d" = loadSources mixedTree "d"
            ∧ ∀ patience request log, (runBatch patience other request log).map Outcome.shown
              = (runBatch patience mixedTree request log).map Outcome.shown := by
  have hlisted : mixedTree.Listed := by
    refine ⟨by decide, ?_⟩
    intro directory name content h
    have hlast := List.mem_map_of_mem (f := fun entry => entry.1.getLast?) h
    simp only [List.getLast?_concat, mixedTree] at hlast
    simp only [List.map_cons, List.map_nil, List.getLast?_cons_cons, List.getLast?_singleton,
      List.mem_cons, Option.some.injEq, List.not_mem_nil, or_false] at hlast
    rcases hlast with rfl | rfl | rfl | rfl <;> decide
  have hplace : mixedTree.locate "d" = .ok ["d"] := by decide
  have hdirectory : mixedTree.isDirectory ["d"] = true := by decide
  exact ⟨hlisted, hplace, hdirectory, directory_sources hlisted hplace hdirectory⟩

end PseudoAsm
