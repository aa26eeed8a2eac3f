import PseudoAsm.Command.Inspection
import PseudoAsm.Proofs.Command.Batch
import PseudoAsm.Proofs.Files.Directory
import PseudoAsm.Proofs.Files.Writing

/-!
# Inspections are all or nothing

An inspection loads all its sources, resolves all of them, and only then prints or writes.  So it
either fails as a whole, with nothing printed and every file left as it was, or its whole output
goes to one place.

* `Inspection.ProgramIn` — the program in a file, as the inspection wants it;
* `InspectionFailure` — the error of an inspection: the first source that cannot be loaded, and if
  all can be, the first that cannot be resolved;
* `Inspection.render_eq_ok_iff`, `Inspection.failure_of_render` — **the output is that of all
  programs, or there is none and this error**;
* `inspection_all_or_nothing` — what the command leaves behind, printing or writing.
-/

namespace PseudoAsm

variable {tree : FileTree} {request : InspectionRequest} {raw : Bool} {source path : String}
  {paths : List String} {error : FinalError}

namespace Inspection

/-- The program in a file: as it is written if it is wanted raw, and else resolved. -/
def ProgramIn (tree : FileTree) (raw : Bool) (path : String) (program : Program) : Prop :=
  ∃ text, tree.readText path = .ok text
    ∧ if raw then program = Program.ofSource text else assemble text = .ok program

/-- A file can be inspected: it can be read and, unless it is wanted raw, its program resolved. -/
def Inspectable (tree : FileTree) (raw : Bool) (path : String) : Prop :=
  ∃ program, ProgramIn tree raw path program

/-- The program in a file, under the name of the file. -/
def NamedProgramIn (tree : FileTree) (raw : Bool) (path : String) (named : String × Program) :
    Prop :=
  named.1 = fileName path ∧ ProgramIn tree raw path named.2

end Inspection

open Inspection

/-- The error that an inspection of some sources ends with. -/
inductive InspectionFailure (tree : FileTree) (raw : Bool) (source : String) (paths : List String) :
    FinalError → Prop
  /-- The argument stands for no source. -/
  | none_found (hnone : paths = []) :
      InspectionFailure tree raw source paths ⟨"no source files in " ++ source, none⟩
  /-- A source cannot be read, and all before it can be. -/
  | unreadable {before after : List String} {path : String} {cause : FileError}
      (hsplit : paths = before ++ path :: after)
      (hbefore : ∀ earlier ∈ before, tree.Readable earlier)
      (hread : tree.readText path = .error cause) :
      InspectionFailure tree raw source paths ⟨"reading " ++ path, some cause.message⟩
  /-- All sources can be read, but the program in one cannot be resolved, and all before it can
  be. -/
  | unresolved {before after : List String} {path text : String} {cause : ResolveError}
      (hraw : raw = false) (hreadable : ∀ path ∈ paths, tree.Readable path)
      (hsplit : paths = before ++ path :: after)
      (hbefore : ∀ earlier ∈ before, Inspectable tree raw earlier)
      (hread : tree.readText path = .ok text) (hcause : assemble text = .error cause) :
      InspectionFailure tree raw source paths
        ⟨"resolving " ++ fileName path, some cause.message⟩

namespace Inspection

/-! ### One source -/

/-- The program in the file at a path, both steps in one. -/
def inspect (tree : FileTree) (raw : Bool) (path : String) :
    Except FinalError (String × Program) :=
  (loadSource tree path).mapError loadFailure >>= programOf raw

theorem inspect_of_error {cause : FileError} (h : tree.readText path = .error cause) :
    inspect tree raw path = .error ⟨"reading " ++ path, some cause.message⟩ := by
  rw [inspect, loadSource, h]
  rfl

theorem inspect_of_ok {text : String} (h : tree.readText path = .ok text) :
    inspect tree raw path = programOf raw ⟨fileName path, text⟩ := by
  rw [inspect, loadSource, h]
  rfl

/-- **A file that can be inspected gives its program under its name.** -/
theorem inspect_eq_ok_iff {named : String × Program} :
    inspect tree raw path = .ok named ↔ NamedProgramIn tree raw path named := by
  obtain ⟨name, program⟩ := named
  unfold NamedProgramIn ProgramIn
  cases hread : tree.readText path with
  | error cause => simp [inspect_of_error hread]
  | ok text =>
    rw [inspect_of_ok hread]
    cases raw with
    | true => simp [programOf, eq_comm]
    | false =>
      cases hassembled : assemble text with
      | error cause => simp [programOf, hassembled]
      | ok found => simp [programOf, hassembled, eq_comm]

theorem exists_inspect_iff :
    (∃ named, inspect tree raw path = .ok named) ↔ Inspectable tree raw path := by
  simp only [inspect_eq_ok_iff, NamedProgramIn]
  constructor
  · rintro ⟨named, -, hprogram⟩
    exact ⟨named.2, hprogram⟩
  · rintro ⟨program, hprogram⟩
    exact ⟨(fileName path, program), rfl, hprogram⟩

/-- A file that can be read fails only by its program. -/
theorem unresolved_of_inspect {text : String} (hread : tree.readText path = .ok text)
    (h : inspect tree raw path = .error error) :
    raw = false ∧ ∃ cause, assemble text = .error cause
      ∧ error = ⟨"resolving " ++ fileName path, some cause.message⟩ := by
  rw [inspect_of_ok hread] at h
  cases raw with
  | true => cases h
  | false =>
    cases hassembled : assemble text with
    | error cause =>
      rw [programOf, hassembled] at h
      exact ⟨rfl, cause, rfl, (Except.error.inj h).symm⟩
    | ok program =>
      rw [programOf, hassembled] at h
      cases h

/-! ### All sources -/

theorem exists_loadSource_iff :
    (∃ loaded, loadSource tree path = .ok loaded) ↔ tree.Readable path := by
  simp only [loadSource_eq_ok_iff]
  constructor
  · rintro ⟨loaded, -, htext⟩
    exact ⟨loaded.text, htext⟩
  · rintro ⟨text, htext⟩
    exact ⟨⟨fileName path, text⟩, rfl, htext⟩

/-- **Sources are loaded all or not at all**: there is none, or a first one that cannot be read, or
each is loaded. -/
theorem loadSources_cases (tree : FileTree) (source : String) :
    (tree.sourcePaths source = [] ∧ loadSources tree source = .error (.noSources source))
      ∨ (∃ before path after cause, tree.sourcePaths source = before ++ path :: after
        ∧ (∀ earlier ∈ before, tree.Readable earlier) ∧ tree.readText path = .error cause
        ∧ loadSources tree source = .error (.unreadable path cause))
      ∨ (tree.sourcePaths source ≠ [] ∧ ∃ sources, loadSources tree source = .ok sources
        ∧ List.Forall₂ (fun path loaded => loadSource tree path = .ok loaded)
          (tree.sourcePaths source) sources) := by
  by_cases hnone : tree.sourcePaths source = []
  · refine .inl ⟨hnone, ?_⟩
    rw [loadSources, hnone]
  · rw [loadSources_eq_mapM hnone]
    cases hload : (tree.sourcePaths source).mapM (loadSource tree) with
    | error e =>
      obtain ⟨before, path, after, hsplit, hbefore, hfails⟩ := mapM_eq_error_iff_split.1 hload
      obtain ⟨cause, hread, rfl⟩ := loadSource_eq_error_iff.1 hfails
      refine .inr (.inl ⟨before, path, after, cause, hsplit, ?_, hread, rfl⟩)
      intro earlier hearlier
      exact exists_loadSource_iff.1 (hbefore earlier hearlier)
    | ok sources => exact .inr (.inr ⟨hnone, sources, rfl, mapM_eq_ok_iff.1 hload⟩)

/-- Of loaded sources the programs are those of their files. -/
theorem mapM_programOf {sources : List Source}
    (h : List.Forall₂ (fun path loaded => loadSource tree path = .ok loaded) paths sources) :
    sources.mapM (programOf raw) = paths.mapM (inspect tree raw) := by
  induction h with
  | nil => rfl
  | @cons path loaded paths sources hloaded _ ih =>
    have hinspect : inspect tree raw path = programOf raw loaded := by
      rw [inspect, hloaded]
      rfl
    rw [List.mapM_cons, List.mapM_cons, ih, hinspect]

theorem render_of_loaded {sources : List Source}
    (hload : loadSources tree request.source = .ok sources)
    (h : List.Forall₂ (fun path loaded => loadSource tree path = .ok loaded) paths sources) :
    render tree request = (paths.mapM (inspect tree request.kind.isRaw)).map
      (output request.kind request.format) := by
  rw [render, hload, ← mapM_programOf h]
  rfl

theorem mapM_inspect_eq_ok_iff {programs : List (String × Program)} :
    paths.mapM (inspect tree raw) = .ok programs
      ↔ List.Forall₂ (NamedProgramIn tree raw) paths programs := by
  simp only [mapM_eq_ok_iff, inspect_eq_ok_iff]

/-- **The output is that of the programs in all sources.** -/
theorem render_eq_ok_iff {text : String} :
    render tree request = .ok text
      ↔ tree.sourcePaths request.source ≠ [] ∧ ∃ programs,
        List.Forall₂ (NamedProgramIn tree request.kind.isRaw) (tree.sourcePaths request.source)
          programs
        ∧ text = output request.kind request.format programs := by
  rcases loadSources_cases tree request.source with
    ⟨hnone, hload⟩ | ⟨before, path, after, cause, hsplit, -, hread, hload⟩
      | ⟨hne, sources, hload, h⟩
  · rw [render, hload]
    exact iff_of_false (fun h => by cases h) (fun h => h.1 hnone)
  · rw [render, hload]
    refine iff_of_false (fun h => by cases h) ?_
    rintro ⟨-, programs, hprograms, -⟩
    obtain ⟨named, -, text, htext, -⟩ :=
      exists_forall₂_iff.1 ⟨programs, hprograms⟩ path (by simp [hsplit])
    rw [hread] at htext
    cases htext
  · rw [render_of_loaded hload h]
    simp only [← mapM_inspect_eq_ok_iff]
    cases (tree.sourcePaths request.source).mapM (inspect tree request.kind.isRaw) with
    | error e => simp [Except.map]
    | ok programs => simp [Except.map, hne, eq_comm]

/-- **The error is that of the first source that cannot be loaded, and else of the first that cannot
be resolved.** -/
theorem failure_of_render (h : render tree request = .error error) :
    InspectionFailure tree request.kind.isRaw request.source (tree.sourcePaths request.source)
      error := by
  rcases loadSources_cases tree request.source with
    ⟨hnone, hload⟩ | ⟨before, path, after, cause, hsplit, hbefore, hread, hload⟩
      | ⟨hne, sources, hload, hloaded⟩
  · rw [render, hload] at h
    cases h
    exact .none_found hnone
  · rw [render, hload] at h
    cases h
    exact .unreadable hsplit hbefore hread
  · rw [render_of_loaded hload hloaded] at h
    have hreadable : ∀ path ∈ tree.sourcePaths request.source, tree.Readable path := by
      intro path hpath
      exact exists_loadSource_iff.1 (exists_forall₂_iff.1 ⟨sources, hloaded⟩ path hpath)
    cases hinspected :
      (tree.sourcePaths request.source).mapM (inspect tree request.kind.isRaw) with
    | ok programs =>
      rw [hinspected] at h
      cases h
    | error e =>
      rw [hinspected] at h
      cases h
      obtain ⟨before, path, after, hsplit, hbefore, hfails⟩ :=
        mapM_eq_error_iff_split.1 hinspected
      obtain ⟨text, hread⟩ := hreadable path (by simp [hsplit])
      obtain ⟨hraw, cause, hcause, rfl⟩ := unresolved_of_inspect hread hfails
      refine .unresolved hraw hreadable hsplit ?_ hread hcause
      intro earlier hearlier
      exact exists_inspect_iff.1 (hbefore earlier hearlier)

end Inspection

/-! ### The whole command -/

theorem runInspection_of_error (h : render tree request = .error error) :
    runInspection tree request = { code := 1, stdout := "", stderr := error.text, tree } := by
  rw [runInspection, h]

/-- Without a file to write to, the output is printed. -/
theorem runInspection_printing {printed : String} (h : render tree request = .ok printed) :
    runInspection tree { request with out := none }
      = { code := 0, stdout := printed, stderr := "", tree } := by
  have hsame : render tree { request with out := none } = .ok printed := h
  rw [runInspection, hsame]

/-- With one, the output goes to this file, or nowhere. -/
theorem runInspection_writing {printed out : String} (h : render tree request = .ok printed)
    (hout : request.out = some out) :
    (∀ place, tree.Writable out place → ∃ after, tree.Rewritten after place printed
        ∧ runInspection tree request = { code := 0, stdout := "", stderr := "", tree := after })
      ∧ ((¬∃ place, tree.Writable out place) → ∃ cause : FileError, runInspection tree request
        = { code := 1
            stdout := ""
            stderr := FinalError.text ⟨"writing " ++ out, some cause.message⟩
            tree }) := by
  rw [runInspection, h, hout]
  constructor
  · intro place hwritable
    refine ⟨_, FileTree.rewritten_putFile hwritable printed, ?_⟩
    dsimp only
    rw [FileTree.writeText_eq_ok_iff.2 ⟨place, hwritable, rfl⟩]
  · intro hnone
    dsimp only
    cases hwrite : tree.writeText out printed with
    | ok after =>
      obtain ⟨place, hwritable, -⟩ := FileTree.writeText_eq_ok_iff.1 hwrite
      exact absurd ⟨place, hwritable⟩ hnone
    | error cause => exact ⟨cause, rfl⟩

/-- **An inspection is all or nothing.**  If its argument stands for no source, or if one of the
sources cannot be loaded or, unless the programs are wanted raw, resolved, it prints nothing, leaves
every file as it was and ends with the error of the first such source.  Else the output of all
programs is what it prints, where no file is given, and what it writes to a file that can be
written, which may be one of the sources; then it prints nothing and changes no other file.  Where
the file cannot be written, it fails and changes none. -/
theorem inspection_all_or_nothing (hpaths : tree.StandsFor request.source paths) :
    (paths = [] ∨ (∃ path ∈ paths, ¬Inspectable tree request.kind.isRaw path) →
      ∃ error, InspectionFailure tree request.kind.isRaw request.source paths error
        ∧ runInspection tree request
          = { code := 1, stdout := "", stderr := error.text, tree })
    ∧ (paths ≠ [] → (∀ path ∈ paths, Inspectable tree request.kind.isRaw path) →
      ∃ programs printed,
        List.Forall₂ (NamedProgramIn tree request.kind.isRaw) paths programs
        ∧ printed = output request.kind request.format programs
        ∧ runInspection tree { request with out := none }
          = { code := 0, stdout := printed, stderr := "", tree }
        ∧ ∀ out, request.out = some out →
          (∀ place, tree.Writable out place →
            ∃ after, tree.Rewritten after place printed ∧ after.readText out = .ok printed
              ∧ runInspection tree request
                = { code := 0, stdout := "", stderr := "", tree := after })
          ∧ ((¬∃ place, tree.Writable out place) →
            ∃ cause : FileError, runInspection tree request
              = { code := 1
                  stdout := ""
                  stderr := FinalError.text ⟨"writing " ++ out, some cause.message⟩
                  tree })) := by
  obtain rfl := standsFor_iff.1 hpaths
  constructor
  · intro hfails
    cases hrender : render tree request with
    | error error => exact ⟨error, failure_of_render hrender, runInspection_of_error hrender⟩
    | ok printed =>
      obtain ⟨hne, programs, hprograms, -⟩ := render_eq_ok_iff.1 hrender
      rcases hfails with hnone | ⟨path, hpath, hnot⟩
      · exact absurd hnone hne
      · obtain ⟨named, -, hprogram⟩ := exists_forall₂_iff.1 ⟨programs, hprograms⟩ path hpath
        exact absurd ⟨named.2, hprogram⟩ hnot
  · intro hne hall
    have hnamed : ∀ path ∈ tree.sourcePaths request.source,
        ∃ named, NamedProgramIn tree request.kind.isRaw path named := by
      intro path hpath
      obtain ⟨program, hprogram⟩ := hall path hpath
      exact ⟨(fileName path, program), rfl, hprogram⟩
    obtain ⟨programs, hprograms⟩ := exists_forall₂_iff.2 hnamed
    have hrender := render_eq_ok_iff.2 ⟨hne, programs, hprograms, rfl⟩
    refine ⟨programs, _, hprograms, rfl, runInspection_printing hrender, ?_⟩
    intro out hout
    obtain ⟨hwrites, hrefuses⟩ := runInspection_writing hrender hout
    refine ⟨?_, hrefuses⟩
    intro place hwritable
    obtain ⟨after, hafter, hrun⟩ := hwrites place hwritable
    exact ⟨after, hafter, hafter.readText hwritable, hrun⟩

/-- A directory with two programs, one of them under a label. -/
def sharedTree : FileTree where
  entries := [(["d", "b"], .file "l:\njmp l".toUTF8), (["d", "a"], .file "end".toUTF8)]

/-- To list the directory into one of its files. -/
def overwriting : InspectionRequest where
  source := "d"
  kind := .list false
  out := some "d/b"

/-- The listings of a directory go to one of its files. -/
theorem inspection_all_or_nothing_overwriting :
    sharedTree.StandsFor overwriting.source ["d/a", "d/b"]
      ∧ ∃ after, sharedTree.Rewritten after ["d", "b"] "== a\n0:  end\n== b\n0:  jmp @0\n"
        ∧ after.readText "d/b" = .ok "== a\n0:  end\n== b\n0:  jmp @0\n"
        ∧ runInspection sharedTree overwriting
          = { code := 0, stdout := "", stderr := "", tree := after } := by
  have hpaths : sharedTree.StandsFor overwriting.source ["d/a", "d/b"] :=
    @FileTree.StandsFor.files _ _ ["d"] ["a", "b"] (by decide) (by decide) (by decide) (by decide)
  have hinspected : ["d/a", "d/b"].mapM (inspect sharedTree false)
      = .ok [("a", [⟨"end", []⟩]), ("b", [⟨"jmp", ["0"]⟩])] := by
    decide +kernel
  have hall : ∀ path ∈ ["d/a", "d/b"], Inspectable sharedTree false path := by
    intro path hpath
    obtain ⟨named, -, hprogram⟩ :=
      exists_forall₂_iff.1 ⟨_, mapM_inspect_eq_ok_iff.1 hinspected⟩ path hpath
    exact ⟨named.2, hprogram⟩
  obtain ⟨-, hsucceeds⟩ := inspection_all_or_nothing hpaths
  obtain ⟨programs, printed, hprograms, rfl, -, hout⟩ := hsucceeds (by decide) hall
  obtain rfl := Except.ok.inj (hinspected.symm.trans (mapM_inspect_eq_ok_iff.2 hprograms))
  have hprinted : output (.list false) .text [("a", [⟨"end", []⟩]), ("b", [⟨"jmp", ["0"]⟩])]
      = "== a\n0:  end\n== b\n0:  jmp @0\n" := by
    decide +kernel
  obtain ⟨after, hafter, hread, hrun⟩ :=
    (hout "d/b" rfl).1 ["d", "b"] ⟨by decide, by decide, by decide⟩
  exact ⟨hpaths, after, hprinted ▸ hafter, hprinted ▸ hread, hrun⟩

end PseudoAsm
