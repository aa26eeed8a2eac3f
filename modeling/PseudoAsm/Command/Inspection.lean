import PseudoAsm.Analysis.ReportPrinter
import PseudoAsm.Command.Arguments
import PseudoAsm.Command.Outcome
import PseudoAsm.Files.Source
import PseudoAsm.Resolution

/-!
# Listing and analysing sources

The command that prints the listings of its sources, or reports on their control flow, as text or
as JSON.  It first loads all sources, then resolves all of them, and only then prints, so a failure
prints nothing.

* `InspectionRequest.ofArguments` — the source, `list` or `analyze`, and the options;
* `Inspection.render` — the whole output;
* `runInspection` — the whole command.
-/

namespace PseudoAsm

/-- What to print of each source. -/
inductive InspectionKind where
  /-- The listing, before label resolution if `raw`. -/
  | list (raw : Bool)
  /-- The control-flow report. -/
  | analyze
deriving DecidableEq, Repr

/-- Whether the programs are wanted as they are before resolution. -/
def InspectionKind.isRaw : InspectionKind → Bool
  | .list raw => raw
  | .analyze => false

/-- The form of the output. -/
inductive OutputFormat where
  | text
  | json
deriving DecidableEq, Repr

/-- What an inspection is asked to do. -/
structure InspectionRequest where
  source : String
  kind : InspectionKind
  format : OutputFormat := .text
  /-- The file to write the output to instead of printing it. -/
  out : Option String := none
deriving DecidableEq, Repr

/-! ### Arguments -/

/-- The options allowed before and after the command word. -/
def inspectionOptions : List OptionSpec := [⟨"format", true⟩, ⟨"out", true⟩]

/-- The output format by its name. -/
def OutputFormat.ofName? : String → Option OutputFormat
  | "text" => some .text
  | "json" => some .json
  | _ => none

/-- The format given among some arguments, if any. -/
def givenFormat (arguments : Arguments) : Except UsageError (Option OutputFormat) :=
  (arguments.option? "format").mapM fun value =>
    match OutputFormat.ofName? value with
    | some format => .ok format
    | none => .error (.invalidValue "format" value)

/-- The options that a command word allows after it. -/
def optionsOf (command : String) : List OptionSpec :=
  if command = "list" then ⟨"raw", false⟩ :: inspectionOptions else inspectionOptions

/-- What a command word asks for, given the arguments after it. -/
def kindOf (command : String) (inner : Arguments) : InspectionKind :=
  if command = "list" then .list (inner.option? "raw").isSome else .analyze

/-- Read the arguments of the command.  The source comes before the command word, and of an option
given both before and after it the latter counts. -/
def InspectionRequest.ofArguments (arguments : List String) :
    Except UsageError InspectionRequest := do
  let outer ← Arguments.read inspectionOptions ["list", "analyze"] arguments
  let outerFormat ← givenFormat outer
  match outer.operands, outer.command with
  | _ :: extra :: _, _ => throw (.unexpectedOperand extra)
  | _, none => throw .missingCommand
  | [], some _ => throw .missingOperand
  | [source], some (command, rest) =>
    let inner ← Arguments.read (optionsOf command) [] rest
    let innerFormat ← givenFormat inner
    if let extra :: _ := inner.operands then throw (.unexpectedOperand extra)
    return {
      source
      kind := kindOf command inner
      format := (innerFormat.or outerFormat).getD .text
      out := (inner.option? "out").or (outer.option? "out") }

namespace Inspection

/-! ### Listings -/

/-- The JSON form of an instruction. -/
def instructionJson (ins : Instruction) : Json.Value :=
  .object [("name", .text ins.name), ("params", .list (ins.params.map .text))]

/-- The JSON form of a named program. -/
def listingJson (name : String) (program : Program) : Json.Value :=
  .object [("name", .text name), ("instructions", .list (program.map instructionJson))]

/-- The listings of named programs as text; one alone has no heading. -/
def listingText (programs : List (String × Program)) : String :=
  String.join (programs.map fun (name, program) =>
    (if programs.length > 1 then heading name else "") ++ program.listing)

/-! ### The whole output -/

/-- The program in a source, resolved unless it is wanted raw. -/
def programOf (raw : Bool) (source : Source) : Except FinalError (String × Program) :=
  if raw then .ok (source.name, Program.ofSource source.text)
  else match assemble source.text with
    | .ok program => .ok (source.name, program)
    | .error error => .error ⟨"resolving " ++ source.name, some error.message⟩

/-- What is printed of named programs. -/
def output (kind : InspectionKind) (format : OutputFormat) (programs : List (String × Program)) :
    String :=
  match kind, format with
  | .list _, .text => listingText programs
  | .list _, .json =>
    (Json.Value.list (programs.map fun (name, program) => listingJson name program)).pretty ++ "\n"
  | .analyze, .text =>
    String.join (programs.map fun (name, program) => (Report.ofProgram name program).text)
  | .analyze, .json =>
    (Json.Value.list (programs.map fun (name, program) =>
      (Report.ofProgram name program).json)).pretty ++ "\n"

/-- The error that a failure to load sources ends the command with. -/
def loadFailure (error : LoadError) : FinalError :=
  match error with
  | .unreadable _ cause => ⟨error.message, some cause.message⟩
  | .noSources _ => ⟨error.message, none⟩

/-- The whole output of an inspection: the first source that cannot be loaded fails it, and else the
first that cannot be resolved. -/
def render (tree : FileTree) (request : InspectionRequest) : Except FinalError String := do
  let sources ← (loadSources tree request.source).mapError loadFailure
  let programs ← sources.mapM (programOf request.kind.isRaw)
  return output request.kind request.format programs

end Inspection

/-- Run an inspection: print its output or write it to a file. -/
def runInspection (tree : FileTree) (request : InspectionRequest) : Outcome :=
  match Inspection.render tree request with
  | .error error => { code := 1, stderr := error.text, tree }
  | .ok text =>
    match request.out with
    | none => { stdout := text, tree }
    | some path =>
      match tree.writeText path text with
      | .ok after => { tree := after }
      | .error cause =>
        { code := 1, stderr := FinalError.text ⟨"writing " ++ path, some cause.message⟩, tree }

end PseudoAsm
