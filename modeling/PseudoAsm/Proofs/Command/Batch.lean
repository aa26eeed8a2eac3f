import PseudoAsm.Command.Batch
import PseudoAsm.Proofs.Files.Sources
import PseudoAsm.Proofs.Log

/-!
# Batches as runs of single programs

A batch goes through its sources in order and carries along what has been printed so far.  This file
says what it leaves behind in terms of the programs alone: each is run as if there were no other,
and the batch prints what they print, one after the other.  A subscriber to the log may add lines of
its own to the standard output, between those of the programs; with the log off nothing else is
there, and with errors alone let through one line for each program that failed.

* `FileRun`, `FileRun.IsOf` — the run of the program in one file, and what it prints and reports;
* `FileRun.emissions` — what it gives to the console, told events among it;
* `BatchEnds` — the outcome of a batch that ends;
* `Batch.reaches_append` — **a batch passes over files that can be read by running each program
  alone**;
* `batch_outcome` — **the outcome of every batch**, whether all its sources can be read or not.
-/

namespace PseudoAsm

/-! ### Runs of the programs in files -/

/-- The run of the program in a file: what came of it, and what the log was told of it. -/
structure FileRun where
  path : String
  result : Except Failure (Option String)
  events : List LogEvent

namespace FileRun

/-- A run that succeeds prints one line, its output, which is empty if there is none. -/
def printed (run : FileRun) : String :=
  match run.result with
  | .ok output => output.getD "" ++ "\n"
  | .error _ => ""

/-- A run that fails is reported in one line, its file and the failure. -/
def reported (run : FileRun) : String :=
  match run.result with
  | .ok _ => ""
  | .error failure => run.path ++ ": " ++ failure.message ++ "\n"

def failed (run : FileRun) : Bool :=
  match run.result with
  | .ok _ => false
  | .error _ => true

/-- In the end a run that succeeds prints its line, and of one that fails the log is told. -/
def emission (run : FileRun) : Emission :=
  match run.result with
  | .ok output => .printed (output.getD "" ++ "\n")
  | .error failure => .told (.programFailed run.path failure)

/-- All that a run gives to the console. -/
def emissions (run : FileRun) : List Emission :=
  run.events.map .told ++ [run.emission]

/-- A run is that of the program in a file if its result is what the text of the file comes to, on
its own, and its events are what the log is told of this. -/
def IsOf (tree : FileTree) (settings : Settings) (path : String) (run : FileRun) : Prop :=
  run.path = path
    ∧ ∃ text, tree.readText path = .ok text ∧ Interprets settings text run.result run.events

end FileRun

/-- The runs of the programs in some files, one for each and in their order. -/
abbrev AreRunsOf (tree : FileTree) (settings : Settings) :
    List String → List FileRun → Prop :=
  List.Forall₂ (FileRun.IsOf tree settings)

/-- What runs leave on the standard output, one after the other. -/
def printedBy (log : Option Subscriber) (runs : List FileRun) : String :=
  transcript log (runs.flatMap FileRun.emissions)

/-- What is reported of runs, one after the other. -/
def reportedBy (runs : List FileRun) : String :=
  String.join (runs.map FileRun.reported)

theorem reportedBy_concat (runs : List FileRun) (run : FileRun) :
    reportedBy (runs ++ [run]) = reportedBy runs ++ run.reported := by
  simp [reportedBy]

/-! ### What the log adds -/

section Heard

variable {log : Option Subscriber} {runs : List FileRun}

/-- If nothing is heard of the programs while they run, each leaves one thing: its line, or what the
log makes of its failure. -/
theorem printedBy_of_events_unheard
    (h : ∀ run ∈ runs, ∀ event ∈ run.events, ¬event.IsHeard log) :
    printedBy log runs = transcript log (runs.map FileRun.emission) := by
  suffices hconsole : ∀ console : Console, console.emitAll log (runs.flatMap FileRun.emissions)
      = console.emitAll log (runs.map FileRun.emission) from congrArg Console.text (hconsole {})
  induction runs with
  | nil => exact fun console => rfl
  | cons run runs ih =>
    obtain ⟨hrun, hruns⟩ := List.forall_mem_cons.1 h
    intro console
    rw [List.flatMap_cons, FileRun.emissions, List.append_assoc, Console.emitAll_append,
      Console.emitAll_of_unheard hrun, List.singleton_append, Console.emitAll_cons, ih hruns,
      List.map_cons, Console.emitAll_cons]

/-- **With the log off runs leave the lines that they print.** -/
theorem printedBy_of_logOff (h : LogOff log) (runs : List FileRun) :
    printedBy log runs = String.join (runs.map FileRun.printed) := by
  have htext : Emission.text ∘ FileRun.emission = FileRun.printed := by
    funext ⟨path, result, events⟩
    cases result <;> rfl
  rw [printedBy_of_events_unheard fun run _ event _ => h event, transcript_of_logOff h,
    List.map_map, htext]

/-- **With errors alone let through runs leave their lines and, where one failed, what the log makes
of its failure.** -/
theorem printedBy_of_errorsAlone {tree : FileTree} {settings : Settings} {paths : List String}
    (h : ErrorsAlone log) (hruns : AreRunsOf tree settings paths runs) :
    printedBy log runs = transcript log (runs.map FileRun.emission) := by
  apply printedBy_of_events_unheard
  intro run hrun event hevent hheard
  obtain ⟨path, -, text, -, patience, -, hevents⟩ :=
    exists_forall₂_iff.1 ⟨paths, hruns.flip⟩ run hrun
  rw [← hevents] at hevent
  exact level_ne_error hevent (h event hheard)

end Heard

/-! ### Going through the files -/

/-- A file whose text can be read. -/
def FileTree.Readable (tree : FileTree) (path : String) : Prop :=
  ∃ text, tree.readText path = .ok text

/-- All files can be read, or there is a first one that cannot. -/
theorem readable_or_first_unreadable (tree : FileTree) (paths : List String) :
    (∀ path ∈ paths, tree.Readable path)
      ∨ ∃ before path after cause, paths = before ++ path :: after
        ∧ (∀ earlier ∈ before, tree.Readable earlier) ∧ tree.readText path = .error cause := by
  induction paths with
  | nil => exact .inl (by simp)
  | cons path paths ih =>
    cases hread : tree.readText path with
    | error cause => exact .inr ⟨[], path, paths, cause, rfl, by simp, hread⟩
    | ok text =>
      rcases ih with hall | ⟨before, first, after, cause, rfl, hbefore, hfirst⟩
      · exact .inl (List.forall_mem_cons.2 ⟨⟨text, hread⟩, hall⟩)
      · exact .inr ⟨path :: before, first, after, cause, rfl,
          List.forall_mem_cons.2 ⟨⟨text, hread⟩, hbefore⟩, hfirst⟩

/-- Under a step limit files that can be read have their runs. -/
theorem exists_areRunsOf {tree : FileTree} {settings : Settings}
    (hlimit : settings.maxSteps ≠ none) {paths : List String}
    (hreadable : ∀ path ∈ paths, tree.Readable path) :
    ∃ runs, AreRunsOf tree settings paths runs := by
  refine exists_forall₂_iff.2 fun path hpath => ?_
  obtain ⟨text, htext⟩ := hreadable path hpath
  obtain ⟨result, events, hresult⟩ := exists_interprets hlimit text
  exact ⟨⟨path, result, events⟩, rfl, text, htext, hresult⟩

theorem readable_of_areRunsOf {tree : FileTree} {settings : Settings} {paths : List String}
    {runs : List FileRun} (h : AreRunsOf tree settings paths runs) :
    ∀ path ∈ paths, tree.Readable path := by
  intro path hpath
  obtain ⟨run, -, text, htext, -⟩ := exists_forall₂_iff.1 ⟨runs, h⟩ path hpath
  exact ⟨text, htext⟩

namespace Batch

/-- What a run adds to the progress of a batch. -/
def Progress.addRun (log : Option Subscriber) (progress : Progress) (run : FileRun) : Progress :=
  { progress with stdout := progress.stdout.emitAll log (run.events.map .told) }.add log run.path
    run.result

/-- With some patience a batch gets from one progress through some files to another. -/
def Reaches (settings : Settings) (tree : FileTree) (log : Option Subscriber) (paths : List String)
    (progress final : Progress) : Prop :=
  ∃ patience, runAll patience settings tree log paths progress = some final

section Reaching

variable {settings : Settings} {tree : FileTree} {log : Option Subscriber} {path : String}
  {paths rest : List String} {progress final : Progress}

theorem runAll_unreadable {cause : FileError} (h : tree.readText path = .error cause)
    (patience : Nat) : runAll patience settings tree log (path :: rest) progress
      = some { progress with ended := some (.reading path cause) } := by
  rw [runAll, h]

theorem runAll_readable {text : String} (h : tree.readText path = .ok text) (patience : Nat) :
    runAll patience settings tree log (path :: rest) progress
      = (interpret patience settings text).bind fun result =>
          runAll patience settings tree log rest
            (progress.addRun log ⟨path, result, interpretEvents patience settings text⟩) := by
  rw [runAll, h]
  simp only [Progress.addRun, Console.follow_eq]
  rfl

theorem runAll_mono {patience more : Nat}
    (h : runAll patience settings tree log paths progress = some final) (hmore : patience ≤ more) :
    runAll more settings tree log paths progress = some final := by
  induction paths generalizing progress with
  | nil => exact h
  | cons path rest ih =>
    cases hread : tree.readText path with
    | error cause =>
      rw [runAll_unreadable hread] at h ⊢
      exact h
    | ok text =>
      rw [runAll_readable hread] at h ⊢
      obtain ⟨result, hresult, hrest⟩ := Option.bind_eq_some_iff.1 h
      rw [interpretEvents_of_answer hresult hmore]
      exact Option.bind_eq_some_iff.2 ⟨result, interpret_mono hresult hmore, ih hrest⟩

theorem reaches_nil : Reaches settings tree log [] progress final ↔ final = progress := by
  constructor
  · rintro ⟨patience, h⟩
    exact (Option.some.inj h).symm
  · rintro rfl
    exact ⟨0, rfl⟩

/-- A file that cannot be read ends the batch. -/
theorem reaches_unreadable {cause : FileError} (h : tree.readText path = .error cause) :
    Reaches settings tree log (path :: rest) progress final
      ↔ final = { progress with ended := some (.reading path cause) } := by
  constructor
  · rintro ⟨patience, hfinal⟩
    rw [runAll_unreadable h] at hfinal
    exact (Option.some.inj hfinal).symm
  · rintro rfl
    exact ⟨0, runAll_unreadable h 0⟩

/-- The program in a file that can be read is run on its own, and the batch goes on. -/
theorem reaches_readable {text : String} (h : tree.readText path = .ok text) :
    Reaches settings tree log (path :: rest) progress final
      ↔ ∃ run, FileRun.IsOf tree settings path run
        ∧ Reaches settings tree log rest (progress.addRun log run) final := by
  constructor
  · rintro ⟨patience, hfinal⟩
    rw [runAll_readable h] at hfinal
    obtain ⟨result, hresult, hrest⟩ := Option.bind_eq_some_iff.1 hfinal
    exact ⟨⟨path, result, interpretEvents patience settings text⟩,
      ⟨rfl, text, h, patience, hresult, rfl⟩, patience, hrest⟩
  · rintro ⟨⟨_, result, _⟩, ⟨rfl, found, hfound, patience, hresult, rfl⟩, other, hrest⟩
    obtain rfl : text = found := by
      rw [h] at hfound
      exact Except.ok.inj hfound
    refine ⟨max patience other, ?_⟩
    rw [runAll_readable h]
    refine Option.bind_eq_some_iff.2
      ⟨result, interpret_mono hresult (Nat.le_max_left _ _), ?_⟩
    rw [interpretEvents_of_answer hresult (Nat.le_max_left _ _)]
    exact runAll_mono hrest (Nat.le_max_right _ _)

end Reaching

/-- The progress of a batch after some runs. -/
def progressOf (log : Option Subscriber) (runs : List FileRun) : Progress where
  stdout := ({} : Console).emitAll log (runs.flatMap FileRun.emissions)
  stderr := reportedBy runs
  failed := runs.countP FileRun.failed

theorem progressOf_addRun (log : Option Subscriber) (runs : List FileRun) (run : FileRun) :
    (progressOf log runs).addRun log run = progressOf log (runs ++ [run]) := by
  have hconsole : ({} : Console).emitAll log ((runs ++ [run]).flatMap FileRun.emissions)
      = ((({} : Console).emitAll log (runs.flatMap FileRun.emissions)).emitAll log
          (run.events.map .told)).emit log run.emission := by
    rw [List.flatMap_append, List.flatMap_singleton, FileRun.emissions, Console.emitAll_append,
      Console.emitAll_append]
    rfl
  unfold progressOf
  rw [hconsole, reportedBy_concat, List.countP_append, List.countP_singleton]
  obtain ⟨path, result, events⟩ := run
  cases result with
  | ok output =>
    simp [Progress.addRun, Progress.add, FileRun.emission, FileRun.reported, FileRun.failed]
  | error failure =>
    simp [Progress.addRun, Progress.add, FileRun.emission, FileRun.reported, FileRun.failed,
      String.append_assoc]

/-- **A batch passes over files that can be read by running each program alone.** -/
theorem reaches_append {settings : Settings} {tree : FileTree} {log : Option Subscriber}
    {before rest : List String} (hreadable : ∀ path ∈ before, tree.Readable path)
    {done : List FileRun} {final : Progress} :
    Reaches settings tree log (before ++ rest) (progressOf log done) final
      ↔ ∃ runs, AreRunsOf tree settings before runs
        ∧ Reaches settings tree log rest (progressOf log (done ++ runs)) final := by
  induction before generalizing done with
  | nil =>
    constructor
    · intro h
      exact ⟨[], .nil, by rwa [List.append_nil]⟩
    · rintro ⟨runs, hruns, h⟩
      cases hruns
      rwa [List.append_nil] at h
  | cons path before ih =>
    obtain ⟨⟨text, htext⟩, hbefore⟩ := List.forall_mem_cons.1 hreadable
    rw [List.cons_append, reaches_readable htext]
    constructor
    · rintro ⟨run, hrun, hrest⟩
      rw [progressOf_addRun, ih hbefore] at hrest
      obtain ⟨runs, hruns, hfinal⟩ := hrest
      exact ⟨run :: runs, .cons hrun hruns, by rwa [List.append_assoc] at hfinal⟩
    · rintro ⟨runs, hruns, hfinal⟩
      cases hruns with
      | @cons _ run _ runs hrun hothers =>
        refine ⟨run, hrun, ?_⟩
        rw [progressOf_addRun, ih hbefore]
        exact ⟨runs, hothers, by rwa [List.append_assoc]⟩

/-- Through files that can be read a batch gets by their runs. -/
theorem reaches_iff {settings : Settings} {tree : FileTree} {log : Option Subscriber}
    {paths : List String} (hreadable : ∀ path ∈ paths, tree.Readable path) {final : Progress} :
    Reaches settings tree log paths (progressOf log []) final
      ↔ ∃ runs, AreRunsOf tree settings paths runs ∧ final = progressOf log runs := by
  have happend : Reaches settings tree log (paths ++ []) (progressOf log []) final ↔ _ :=
    reaches_append hreadable
  simpa only [List.append_nil, List.nil_append, reaches_nil] using happend

end Batch

/-! ### Outcomes -/

/-- A batch ends in an outcome. -/
def BatchEnds (tree : FileTree) (request : BatchRequest) (log : Option Subscriber)
    (outcome : Outcome) : Prop :=
  ∃ patience, runBatch patience tree request log = some outcome

/-- What a batch leaves behind when all its programs have been run: an error if one failed. -/
def Outcome.completed (tree : FileTree) (log : Option Subscriber) (runs : List FileRun) :
    Outcome :=
  let failed := runs.countP FileRun.failed
  if failed = 0 then
    { code := 0, stdout := printedBy log runs, stderr := reportedBy runs, tree }
  else
    { code := 1
      stdout := printedBy log runs
      stderr := reportedBy runs
        ++ "Error: " ++ toString failed ++ " of " ++ toString runs.length ++ " programs failed\n"
      tree }

/-- What a batch leaves behind when it comes to a file that cannot be read. -/
def Outcome.aborted (tree : FileTree) (log : Option Subscriber) (runs : List FileRun)
    (path : String) (cause : FileError) : Outcome where
  code := 1
  stdout := printedBy log runs
  stderr := reportedBy runs
    ++ "Error: reading " ++ path ++ "\n\nCaused by:\n    " ++ cause.message ++ "\n"
  tree := tree

namespace Batch

/-- What a batch of a number of programs leaves behind when it ends with a progress. -/
def outcomeOf (tree : FileTree) (count : Nat) (final : Progress) : Outcome :=
  let stdout := final.stdout.text
  match final.finalError? count with
  | none => { stdout, stderr := final.stderr, tree }
  | some error => { code := 1, stdout, stderr := final.stderr ++ error.text, tree }

theorem outcomeOf_progressOf (tree : FileTree) (log : Option Subscriber) (runs : List FileRun) :
    outcomeOf tree runs.length (progressOf log runs) = .completed tree log runs := by
  unfold outcomeOf Outcome.completed printedBy transcript
  by_cases hfailed : runs.countP FileRun.failed = 0
  · simp [Progress.finalError?, progressOf, hfailed]
  · simp [Progress.finalError?, progressOf, hfailed, FinalError.text, String.append_assoc]

theorem text_reading (path : String) (cause : FileError) :
    (FinalError.reading path cause).text
      = "Error: reading " ++ path ++ "\n\nCaused by:\n    " ++ cause.message ++ "\n" := by
  rw [show "Error: reading " = "Error: " ++ "reading " by decide,
    show "\n\nCaused by:\n    " = "\n" ++ "\nCaused by:\n    " by decide]
  simp only [FinalError.text, FinalError.reading, String.append_assoc]

theorem outcomeOf_ended (tree : FileTree) (log : Option Subscriber) (count : Nat)
    (runs : List FileRun) (path : String) (cause : FileError) :
    outcomeOf tree count { progressOf log runs with ended := some (.reading path cause) }
      = .aborted tree log runs path cause := by
  simp only [outcomeOf, Outcome.aborted, Progress.finalError?, progressOf, printedBy, transcript,
    text_reading, String.append_assoc]

/-- A batch ends in what the progress that it reaches leaves behind. -/
theorem batchEnds_iff {tree : FileTree} {request : BatchRequest} {settings : Settings}
    (hsettings : Batch.settings tree request = .ok settings) {log : Option Subscriber}
    {outcome : Outcome} :
    BatchEnds tree request log outcome
      ↔ ∃ final, Reaches settings tree log (request.sources.flatMap tree.sourcePaths)
          (progressOf log []) final
        ∧ outcome = outcomeOf tree (request.sources.flatMap tree.sourcePaths).length final := by
  have hrun (patience : Nat) : runBatch patience tree request log
      = (runAll patience settings tree log (request.sources.flatMap tree.sourcePaths)
          (progressOf log [])).map
          (outcomeOf tree (request.sources.flatMap tree.sourcePaths).length) := by
    rw [runBatch, hsettings]
    rfl
  constructor
  · rintro ⟨patience, h⟩
    rw [hrun] at h
    obtain ⟨final, hfinal, rfl⟩ := Option.map_eq_some_iff.1 h
    exact ⟨final, ⟨patience, hfinal⟩, rfl⟩
  · rintro ⟨final, ⟨patience, hfinal⟩, rfl⟩
    exact ⟨patience, by rw [hrun, hfinal, Option.map_some]⟩

end Batch

section

variable {tree : FileTree} {request : BatchRequest} {settings : Settings}
  (hsettings : Batch.settings tree request = .ok settings) (log : Option Subscriber)

include hsettings

/-- A batch whose files can all be read ends when the runs of all its programs do. -/
theorem batchEnds_readable
    (hreadable : ∀ path ∈ request.sources.flatMap tree.sourcePaths, tree.Readable path)
    {outcome : Outcome} :
    BatchEnds tree request log outcome
      ↔ ∃ runs, AreRunsOf tree settings (request.sources.flatMap tree.sourcePaths) runs
        ∧ outcome = .completed tree log runs := by
  rw [Batch.batchEnds_iff hsettings]
  constructor
  · rintro ⟨final, hfinal, rfl⟩
    obtain ⟨runs, hruns, rfl⟩ := (Batch.reaches_iff hreadable).1 hfinal
    exact ⟨runs, hruns, by rw [hruns.length_eq, Batch.outcomeOf_progressOf]⟩
  · rintro ⟨runs, hruns, rfl⟩
    refine ⟨_, (Batch.reaches_iff hreadable).2 ⟨runs, hruns, rfl⟩, ?_⟩
    rw [hruns.length_eq, Batch.outcomeOf_progressOf]

/-- A batch ends at the first file that cannot be read, when the runs of the programs before it
do. -/
theorem batchEnds_unreadable {before after : List String} {path : String} {cause : FileError}
    (hpaths : request.sources.flatMap tree.sourcePaths = before ++ path :: after)
    (hbefore : ∀ earlier ∈ before, tree.Readable earlier)
    (hcause : tree.readText path = .error cause) {outcome : Outcome} :
    BatchEnds tree request log outcome
      ↔ ∃ runs, AreRunsOf tree settings before runs
        ∧ outcome = .aborted tree log runs path cause := by
  rw [Batch.batchEnds_iff hsettings, hpaths]
  constructor
  · rintro ⟨final, hfinal, rfl⟩
    obtain ⟨runs, hruns, hlast⟩ := (Batch.reaches_append hbefore).1 hfinal
    rw [Batch.reaches_unreadable hcause, List.nil_append] at hlast
    exact ⟨runs, hruns, by rw [hlast, Batch.outcomeOf_ended]⟩
  · rintro ⟨runs, hruns, rfl⟩
    refine ⟨_, (Batch.reaches_append hbefore).2 ⟨runs, hruns,
      (Batch.reaches_unreadable hcause).2 rfl⟩, ?_⟩
    rw [List.nil_append, Batch.outcomeOf_ended]

/-- Under a step limit every batch ends. -/
theorem exists_batchEnds (hlimit : settings.maxSteps ≠ none) :
    ∃ outcome, BatchEnds tree request log outcome := by
  rcases readable_or_first_unreadable tree (request.sources.flatMap tree.sourcePaths) with
    hall | ⟨before, path, after, cause, hpaths, hbefore, hcause⟩
  · obtain ⟨runs, hruns⟩ := exists_areRunsOf hlimit hall
    exact ⟨_, (batchEnds_readable hsettings log hall).2 ⟨runs, hruns, rfl⟩⟩
  · obtain ⟨runs, hruns⟩ := exists_areRunsOf hlimit hbefore
    exact ⟨_, (batchEnds_unreadable hsettings log hpaths hbefore hcause).2 ⟨runs, hruns, rfl⟩⟩

end

/-- **The outcome of every batch.**  Its sources are the files that its arguments stand for.  If all
of them can be read, the batch leaves what the runs of their programs leave, each on its own; if
not, what the runs before the first unreadable one leave and an error that names it.  It ends
exactly if the runs that it waits for do, and always under a step limit.  Its standard output holds
what the runs emit: with the log off these are the outputs of the programs that succeed, a line for
each, and if errors alone are heard every program that fails has what the log writes of its failure
in the place of its output. -/
theorem batch_outcome (tree : FileTree) (request : BatchRequest) (settings : Settings)
    (hsettings : Batch.settings tree request = .ok settings) (log : Option Subscriber) :
    ∃ groups, (∀ others, List.Forall₂ tree.StandsFor request.sources others ↔ others = groups)
      ∧ ((∀ path ∈ groups.flatten, tree.Readable path) →
        ∀ outcome, BatchEnds tree request log outcome
          ↔ ∃ runs, AreRunsOf tree settings groups.flatten runs
            ∧ outcome = .completed tree log runs)
      ∧ (∀ before path after cause, groups.flatten = before ++ path :: after →
        (∀ earlier ∈ before, tree.Readable earlier) → tree.readText path = .error cause →
        ∀ outcome, BatchEnds tree request log outcome
          ↔ ∃ runs, AreRunsOf tree settings before runs
            ∧ outcome = .aborted tree log runs path cause)
      ∧ (settings.maxSteps ≠ none → ∃ outcome, BatchEnds tree request log outcome)
      ∧ (LogOff log → ∀ runs, printedBy log runs = String.join (runs.map FileRun.printed))
      ∧ (ErrorsAlone log → ∀ paths runs, AreRunsOf tree settings paths runs →
        printedBy log runs = transcript log (runs.map FileRun.emission)) := by
  refine ⟨request.sources.map tree.sourcePaths, fun _ => forall₂_standsFor_iff, ?_, ?_,
    exists_batchEnds hsettings log, printedBy_of_logOff, ?_⟩
  · intro hreadable outcome
    exact batchEnds_readable hsettings log hreadable
  · intro before path after cause hsplit hbefore hcause outcome
    exact batchEnds_unreadable hsettings log hsplit hbefore hcause
  · intro herrors paths runs hruns
    exact printedBy_of_errorsAlone herrors hruns

/-- A program that returns where nothing was called, and a directory with a program that says
something, one that does not, and another directory. -/
def sampleTree : FileTree where
  entries :=
    [(["x"], .file "ret".toUTF8), (["d", "b"], .file "mov a, 1\nend".toUTF8),
      (["d", "sub", "c"], .file "end".toUTF8), (["d", "a"], .file "msg 'A'\nend".toUTF8)]

/-- The runs of the programs in the directory. -/
def sampleRuns : List FileRun :=
  [⟨"d/a", .ok (some "A"),
      [.stepBegun 0 ⟨"msg", ["'A'"]⟩, .stepBegun 1 ⟨"end", []⟩, .runEnded (some "A")]⟩,
    ⟨"d/b", .ok none,
      [.stepBegun 0 ⟨"mov", ["a", "1"]⟩, .stepBegun 1 ⟨"end", []⟩, .runEnded none]⟩]

/-- The run of the program beside it. -/
def failedRun : FileRun :=
  ⟨"x", .error (.trapped (.callStackUnderflow 0)),
    [.stepBegun 0 ⟨"ret", []⟩, .runAborted (.callStackUnderflow 0)]⟩

/-- A subscriber to errors that starts every line with its number. -/
def errorLog : Subscriber where
  enabled event := event.level == .error
  line before event :=
    let fields := event.fields.map fun (name, value) => " " ++ name ++ "=" ++ value.form
    toString before ++ " ERROR " ++ event.message ++ String.join fields ++ "\n"

theorem sampleRuns_isOf : AreRunsOf sampleTree {} ["d/a", "d/b"] sampleRuns :=
  .cons ⟨rfl, "msg 'A'\nend", by decide +kernel, 2, by decide +kernel⟩
    (.cons ⟨rfl, "mov a, 1\nend", by decide +kernel, 2, by decide +kernel⟩ .nil)

theorem failedRun_isOf : FileRun.IsOf sampleTree {} "x" failedRun :=
  ⟨rfl, "ret", by decide +kernel, 1, by decide +kernel⟩

/-- A batch with a failed program, without and with a subscriber to errors, and one with a file that
is not there. -/
theorem batch_outcome_sample :
    BatchEnds sampleTree { sources := ["x", "d"] } none
        { code := 1
          stdout := "A\n\n"
          stderr := "x: ret without call at 0\nError: 1 of 3 programs failed\n"
          tree := sampleTree }
      ∧ BatchEnds sampleTree { sources := ["x", "d"] } (some errorLog)
        { code := 1
          stdout := "0 ERROR program failed path=x err=ret without call at 0\nA\n\n"
          stderr := "x: ret without call at 0\nError: 1 of 3 programs failed\n"
          tree := sampleTree }
      ∧ BatchEnds sampleTree { sources := ["d", "missing", "x"] } none
        { code := 1
          stdout := "A\n\n"
          stderr := "Error: reading missing\n\nCaused by:\n"
            ++ "    No such file or directory (os error 2)\n"
          tree := sampleTree } := by
  have hfile (path : String) (hplain : sampleTree.leadsToDirectory path = false) :
      sampleTree.StandsFor path [path] := .itself hplain
  have hdirectory : sampleTree.StandsFor "d" ["d/a", "d/b"] :=
    @FileTree.StandsFor.files _ _ ["d"] ["a", "b"] (by decide) (by decide) (by decide) (by decide)
  have hall : AreRunsOf sampleTree {} ["x", "d/a", "d/b"] (failedRun :: sampleRuns) :=
    .cons failedRun_isOf sampleRuns_isOf
  have hends (log : Option Subscriber) :
      BatchEnds sampleTree { sources := ["x", "d"] } log
        (.completed sampleTree log (failedRun :: sampleRuns)) := by
    obtain ⟨groups, honly, hends, -⟩ :=
      batch_outcome sampleTree { sources := ["x", "d"] } {} rfl log
    obtain rfl := (honly [["x"], ["d/a", "d/b"]]).1
      (.cons (hfile "x" (by decide)) (.cons hdirectory .nil))
    exact (hends (readable_of_areRunsOf hall) _).2 ⟨_, hall, rfl⟩
  refine ⟨hends none, hends (some errorLog), ?_⟩
  obtain ⟨groups, honly, -, haborts, -⟩ :=
    batch_outcome sampleTree { sources := ["d", "missing", "x"] } {} rfl none
  obtain rfl := (honly [["d/a", "d/b"], ["missing"], ["x"]]).1
    (.cons hdirectory (.cons (hfile "missing" (by decide)) (.cons (hfile "x" (by decide)) .nil)))
  exact (haborts ["d/a", "d/b"] "missing" ["x"] .notFound rfl
    (readable_of_areRunsOf sampleRuns_isOf) (by decide +kernel) _).2 ⟨_, sampleRuns_isOf, rfl⟩

/-- **A batch is not silent about what fails.**  With the log off the standard error of an aborted
batch holds more than what is reported of the runs before the unreadable file, as the final error
comes after it.  With a subscriber to errors the standard output holds more than the lines of the
programs that succeed. -/
theorem not_silent_about_failures :
    (¬∀ (tree : FileTree) (request : BatchRequest) (settings : Settings)
      (groups : List (List String)) (before after : List String) (path : String)
      (cause : FileError) (runs : List FileRun) (outcome : Outcome),
      Batch.settings tree request = .ok settings →
      List.Forall₂ tree.StandsFor request.sources groups →
      groups.flatten = before ++ path :: after →
      tree.readText path = .error cause →
      AreRunsOf tree settings before runs →
      BatchEnds tree request none outcome →
      outcome.stdout = String.join (runs.map FileRun.printed)
        ∧ outcome.stderr = reportedBy runs ∧ outcome.code = 1)
    ∧ ¬∀ (tree : FileTree) (request : BatchRequest) (settings : Settings)
      (log : Option Subscriber) (groups : List (List String)) (runs : List FileRun)
      (outcome : Outcome),
      Batch.settings tree request = .ok settings →
      List.Forall₂ tree.StandsFor request.sources groups →
      AreRunsOf tree settings groups.flatten runs →
      BatchEnds tree request log outcome →
      outcome.stdout = String.join (runs.map FileRun.printed) := by
  constructor
  · -- The log is off, and the only source is not there.
    intro h
    have hsilent := h {} { sources := ["missing"] } {} [["missing"]] [] [] "missing" .notFound []
      { code := 1
        stderr :=
          "Error: reading missing\n\nCaused by:\n    No such file or directory (os error 2)\n"
        tree := {} }
      rfl (.cons (.itself (by decide)) .nil) rfl (by decide) .nil ⟨0, rfl⟩
    exact absurd hsilent.2.1 (by decide +kernel)
  · -- The only program fails, and errors are heard.
    intro h
    have hruns : AreRunsOf sampleTree {} ["x"] [failedRun] := .cons failedRun_isOf .nil
    have hends : BatchEnds sampleTree { sources := ["x"] } (some errorLog)
        (.completed sampleTree (some errorLog) [failedRun]) :=
      (batchEnds_readable rfl (some errorLog) (readable_of_areRunsOf hruns)).2 ⟨_, hruns, rfl⟩
    have hsilent := h sampleTree { sources := ["x"] } {} (some errorLog) [["x"]] [failedRun] _
      rfl (.cons (.itself (by decide)) .nil) hruns hends
    exact absurd hsilent (by decide +kernel)

end PseudoAsm
