/-!
# Command-line arguments

The grammar of arguments: options by their long names, operands, and at most one command word with
arguments of its own after it.

* an option's value follows in the next argument or after an equals sign in the same one, and each
  option may be given once;
* `--` ends the options, and all that follows are operands;
* an argument that equals a command word is that command, unless it is an option's value.
-/

namespace PseudoAsm

/-- An option by its long name without the dashes. -/
structure OptionSpec where
  name : String
  takesValue : Bool
deriving DecidableEq, Repr

/-- What is wrong with the arguments of a command. -/
inductive UsageError where
  | unknownOption (argument : String)
  | repeatedOption (name : String)
  | missingValue (name : String)
  | unexpectedValue (name : String)
  | invalidValue (name value : String)
  | missingOperand
  | unexpectedOperand (operand : String)
  | missingCommand
deriving DecidableEq, Repr

/-- The wording of a usage error. -/
def UsageError.message : UsageError → String
  | .unknownOption argument => "unknown option '" ++ argument ++ "'"
  | .repeatedOption name => "option '--" ++ name ++ "' is given more than once"
  | .missingValue name => "option '--" ++ name ++ "' needs a value"
  | .unexpectedValue name => "option '--" ++ name ++ "' takes no value"
  | .invalidValue name value => "invalid value '" ++ value ++ "' for '" ++ name ++ "'"
  | .missingOperand => "an operand is missing"
  | .unexpectedOperand operand => "unexpected operand '" ++ operand ++ "'"
  | .missingCommand => "a command is missing"

/-- Arguments cut up: options with their values (empty for a flag), operands, and the command word
with the arguments after it. -/
structure Arguments where
  options : List (String × String) := []
  operands : List String := []
  command : Option (String × List String) := none
deriving DecidableEq, Repr

namespace Arguments

/-- Whether an argument has the form of an option; a lone dash has not. -/
def looksLikeOption (argument : String) : Bool :=
  match argument.toList with
  | '-' :: _ :: _ => true
  | _ => false

/-- The name and the attached value of an argument that starts with two dashes. -/
def longOption? (argument : String) : Option (String × Option String) :=
  match argument.toList with
  | '-' :: '-' :: rest =>
    let name := String.ofList (rest.takeWhile (· ≠ '='))
    match rest.dropWhile (· ≠ '=') with
    | [] => some (name, none)
    | _ :: value => some (name, some (String.ofList value))
  | _ => none

/-- Add an option; each may be given once. -/
def addOption (name value : String) (arguments : Arguments) : Except UsageError Arguments :=
  if (arguments.options.lookup name).isSome then .error (.repeatedOption name)
  else .ok { arguments with options := (name, value) :: arguments.options }

/-- Cut up arguments. -/
def read (specs : List OptionSpec) (commands : List String) :
    List String → Except UsageError Arguments
  | [] => .ok {}
  | argument :: rest =>
    if argument = "--" then .ok { operands := rest }
    else if commands.contains argument then .ok { command := some (argument, rest) }
    else match longOption? argument with
      | some (name, attached) =>
        match specs.find? (·.name == name) with
        | none => .error (.unknownOption argument)
        | some spec =>
          match spec.takesValue, attached, rest with
          | false, some _, _ => .error (.unexpectedValue name)
          | false, none, rest => do (← read specs commands rest).addOption name ""
          | true, some value, rest => do (← read specs commands rest).addOption name value
          | true, none, value :: rest =>
            if looksLikeOption value then .error (.missingValue name)
            else do (← read specs commands rest).addOption name value
          | true, none, [] => .error (.missingValue name)
      | none =>
        if looksLikeOption argument then .error (.unknownOption argument)
        else do
          let arguments ← read specs commands rest
          return { arguments with operands := argument :: arguments.operands }

/-- The value of an option. -/
def option? (arguments : Arguments) (name : String) : Option String :=
  arguments.options.lookup name

end Arguments

end PseudoAsm
