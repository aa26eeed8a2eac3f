import PseudoAsm.Command.Arguments
import PseudoAsm.Command.Outcome
import PseudoAsm.Files.Source
import PseudoAsm.Log
import PseudoAsm.Machine.SettingsText

/-!
# Running batches of programs

The command that runs every program among its sources and prints their outputs, one line each; a
program without output prints an empty line.  A failed program is reported, to the log as well, and
the others run all the same, but a source that cannot be read ends the batch.  What the log writes
stands between the outputs.

* `BatchRequest.ofArguments` — options `--max-steps` and `--config` and the sources;
* `Batch.settings` — the settings: those of the file, a limit among the options prevailing;
* `Batch.runAll` — the programs in order;
* `runBatch` — the whole command.
-/

namespace PseudoAsm

/-- What a batch is asked to do. -/
structure BatchRequest where
  maxSteps : Option Nat := none
  config : Option String := none
  sources : List String
deriving DecidableEq, Repr

/-- The options of the command. -/
def batchOptions : List OptionSpec := [⟨"max-steps", true⟩, ⟨"config", true⟩]

/-- Read the arguments of the command.  At least one source is needed, and no path is empty. -/
def BatchRequest.ofArguments (arguments : List String) : Except UsageError BatchRequest := do
  let given ← Arguments.read batchOptions [] arguments
  let maxSteps ← (given.option? "max-steps").mapM fun value =>
    match Numeral.nat64? value with
    | some limit => .ok limit
    | none => .error (.invalidValue "max-steps" value)
  let config := given.option? "config"
  if config = some "" then throw (.invalidValue "config" "")
  if given.operands.isEmpty then throw .missingOperand
  if given.operands.contains "" then throw (.invalidValue "source" "")
  return ⟨maxSteps, config, given.operands⟩

namespace Batch

/-- The settings of a batch. -/
def settings (tree : FileTree) (request : BatchRequest) : Except FinalError Settings := do
  let base ← match request.config with
    | none => pure {}
    | some path =>
      match tree.readText path with
      | .error cause => throw (.reading path cause)
      | .ok text =>
        match Settings.ofText? text with
        | some settings => pure settings
        | none => throw ⟨"parsing " ++ path, none⟩
  return { base with maxSteps := request.maxSteps.or base.maxSteps }

/-- What some programs of a batch have printed, how many failed, and the error that ended it
early. -/
structure Progress where
  stdout : Console := {}
  stderr : String := ""
  failed : Nat := 0
  ended : Option FinalError := none
deriving DecidableEq, Repr

/-- What the result of one program adds. -/
def Progress.add (log : Option Subscriber) (progress : Progress) (path : String) :
    Except Failure (Option String) → Progress
  | .ok output =>
    { progress with stdout := progress.stdout.emit log (.printed (output.getD "" ++ "\n")) }
  | .error failure =>
    { progress with
      stdout := progress.stdout.emit log (.told (.programFailed path failure))
      stderr := progress.stderr ++ path ++ ": " ++ failure.message ++ "\n"
      failed := progress.failed + 1 }

/-- Run the programs in some files in order; none if the patience for one of them runs out. -/
def runAll (patience : Nat) (settings : Settings) (tree : FileTree) (log : Option Subscriber) :
    List String → Progress → Option Progress
  | [], progress => some progress
  | path :: rest, progress =>
    match tree.readText path with
    | .error cause => some { progress with ended := some (.reading path cause) }
    | .ok text => do
      let result ← interpret patience settings text
      let followed := progress.stdout.follow log patience settings text
      runAll patience settings tree log rest
        ({ progress with stdout := followed }.add log path result)

/-- The final error of a batch: the one that ended it early, or a count of failed programs. -/
def Progress.finalError? (progress : Progress) (count : Nat) : Option FinalError :=
  match progress.ended with
  | some error => some error
  | none =>
    if progress.failed = 0 then none
    else some ⟨toString progress.failed ++ " of " ++ toString count ++ " programs failed", none⟩

end Batch

/-- Run a batch; none if the patience for one of the programs runs out. -/
def runBatch (patience : Nat) (tree : FileTree) (request : BatchRequest)
    (log : Option Subscriber := none) : Option Outcome :=
  match Batch.settings tree request with
  | .error error => some { code := 1, stderr := error.text, tree }
  | .ok settings =>
    let paths := request.sources.flatMap tree.sourcePaths
    (Batch.runAll patience settings tree log paths {}).map fun progress =>
      let stdout := progress.stdout.text
      match progress.finalError? paths.length with
      | none => { stdout, stderr := progress.stderr, tree }
      | some error => { code := 1, stdout, stderr := progress.stderr ++ error.text, tree }

end PseudoAsm
