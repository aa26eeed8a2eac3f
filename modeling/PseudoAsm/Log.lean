import PseudoAsm.Machine.Run

/-!
# The log

Work on a program can be followed in a log.  It is told which targets were found to name labels,
which instruction comes next, how a run ended, and which program of a batch failed.  What becomes of
an event is up to a subscriber, if there is one: it lets the event through or not, and writes its
line between those that the programs print.

* `LogEvent` — what the log is told;
* `resolutionEvents`, `Processor.runEvents`, `interpretEvents` — the events of a resolution, of a
  run, and of program text that is read, resolved and run;
* `Subscriber`, `LogEvent.IsHeard` — what lets events through and words them;
* `Console` — what has been written so far, by programs and by the log.
-/

namespace PseudoAsm

/-! ### Events -/

/-- How urgent an event is. -/
inductive LogLevel where
  | error
  | warn
  | debug
  | trace
deriving DecidableEq, Repr

/-- The part of the work that an event is about. -/
inductive LogOrigin where
  | batch
  | resolution
  | machine
deriving DecidableEq, Repr

/-- The value of a field of an event. -/
inductive LogValue where
  | number (value : Nat)
  | text (value : String)
  /-- Something else, in its written form. -/
  | written (form : String)
deriving DecidableEq, Repr

/-- A value in its written form. -/
def LogValue.form : LogValue → String
  | .number value => toString value
  | .text value => value
  | .written form => form

/-- What the log is told: a message with named values. -/
structure LogEvent where
  level : LogLevel
  origin : LogOrigin
  message : String
  fields : List (String × LogValue)
deriving DecidableEq, Repr

/-- The name that a status has in the log. -/
def Status.name : Status → String
  | .running => "Running"
  | .ended => "HaltedByEnd"
  | .fellThrough => "HaltedByFallthrough"

namespace LogEvent

/-- The target of the instruction at `index` names a label and became an address. -/
def targetResolved (label : String) (address index : Nat) : LogEvent where
  level := .debug
  origin := .resolution
  message := "resolved jump target"
  fields := [("label", .text label), ("addr", .number address), ("index", .number index)]

/-- An instruction is about to be executed. -/
def stepBegun (address : Nat) (ins : Instruction) : LogEvent where
  level := .trace
  origin := .machine
  message := "step"
  fields := [("address", .number address), ("ins", .written ins.text)]

/-- A run reached the end of its program; there may be no output. -/
def runEnded (output : Option String) : LogEvent where
  level := .debug
  origin := .machine
  message := "halted by end"
  fields := output.toList.map fun text => ("output", .text text)

/-- A run stopped in another way than at the end of its program. -/
def runStopped (status : Status) : LogEvent where
  level := .debug
  origin := .machine
  message := "halted without end, output discarded"
  fields := [("state", .written status.name)]

/-- A run was given up. -/
def runAborted (trap : Trap) : LogEvent where
  level := .warn
  origin := .machine
  message := "run aborted"
  fields := [("trap", .written trap.message)]

/-- A program of a batch failed. -/
def programFailed (path : String) (failure : Failure) : LogEvent where
  level := .error
  origin := .batch
  message := "program failed"
  fields := [("path", .written path), ("err", .written failure.message)]

end LogEvent

/-! ### What is told -/

/-- The events of a resolution: one for every target that names a label, up to the first instruction
that cannot be resolved. -/
def resolutionEvents (targeted : List String) (program : Program) : List LogEvent :=
  let labels := labelTable 0 program
  let size := program.body.length
  let aimed := program.body.zipIdx.filter fun (ins, _) => targeted.contains ins.name
  let resolved := aimed.takeWhile fun (ins, index) => (resolveTarget labels size index ins).isOk
  resolved.filterMap fun (ins, index) => do
    let target ← ins.param? 0
    let address ← labelAddress? labels target
    return .targetResolved target address index

namespace Processor

/-- What is told of a step: the instruction, if one was given to the executor. -/
def Stage.told (stage : Stage) : Option LogEvent :=
  stage.event.map fun event => .stepBegun event.address event.instruction

/-- What is told of the end of a run. -/
def haltEvent (result : Except Trap Status) (output : Option String) : LogEvent :=
  match result with
  | .ok .ended => .runEnded output
  | .ok status => .runStopped status
  | .error trap => .runAborted trap

/-- The events of a run: its steps and its end. -/
def runEvents (p : Processor) (patience : Nat) (program : Program) (m : Machine) : List LogEvent :=
  let halt := (p.runFrom program patience 0 m.reset).map fun (result, final) =>
    haltEvent result final.output
  (p.history patience program m).filterMap Stage.told ++ halt.toList

end Processor

/-- The events of program text that is read, resolved and run on a fresh machine. -/
def interpretEvents (patience : Nat) (settings : Settings) (source : String) : List LogEvent :=
  let resolving :=
    resolutionEvents InstructionSet.standard.addressMnemonics (Program.ofSource source)
  match assemble source with
  | .error _ => resolving
  | .ok program => resolving ++ Processor.standard.runEvents patience program (.fresh settings)

/-! ### What is written -/

/-- What listens to the log.  The line of an event may depend on how many lines were written before,
as it does if it starts with the time. -/
structure Subscriber where
  /-- Whether an event is let through. -/
  enabled : LogEvent → Bool
  /-- What is written of an event, `before` others having been written. -/
  line : (before : Nat) → LogEvent → String

/-- There is a subscriber and it lets the event through. -/
def LogEvent.IsHeard (log : Option Subscriber) (event : LogEvent) : Prop :=
  ∃ subscriber, log = some subscriber ∧ subscriber.enabled event = true

/-- Something for the console. -/
inductive Emission where
  /-- Text that is printed as it is. -/
  | printed (text : String)
  /-- Something that the log is told. -/
  | told (event : LogEvent)

/-- What has been written, and how many events are among it. -/
structure Console where
  text : String := ""
  events : Nat := 0
deriving DecidableEq, Repr

namespace Console

/-- Print a text, or tell the log an event. -/
def emit (log : Option Subscriber) (console : Console) : Emission → Console
  | .printed text => { console with text := console.text ++ text }
  | .told event =>
    match log with
    | none => console
    | some subscriber =>
      if subscriber.enabled event then
        { text := console.text ++ subscriber.line console.events event
          events := console.events + 1 }
      else console

/-- Emit one thing after the other. -/
def emitAll (log : Option Subscriber) (console : Console) (emissions : List Emission) : Console :=
  emissions.foldl (emit log) console

/-- Tell the log the events of program text; without a subscriber they need not be known. -/
def follow (log : Option Subscriber) (patience : Nat) (settings : Settings) (source : String)
    (console : Console) : Console :=
  match log with
  | none => console
  | some _ => console.emitAll log ((interpretEvents patience settings source).map .told)

@[simp] theorem text_emit_printed (log : Option Subscriber) (console : Console) (text : String) :
    (console.emit log (.printed text)).text = console.text ++ text := rfl

theorem emitAll_cons (log : Option Subscriber) (console : Console) (emission : Emission)
    (emissions : List Emission) :
    console.emitAll log (emission :: emissions)
      = (console.emit log emission).emitAll log emissions := rfl

theorem emitAll_append (log : Option Subscriber) (console : Console)
    (first second : List Emission) :
    console.emitAll log (first ++ second) = (console.emitAll log first).emitAll log second :=
  List.foldl_append

/-- An event that is not heard leaves nothing. -/
theorem emit_of_unheard {log : Option Subscriber} {event : LogEvent} (h : ¬event.IsHeard log)
    (console : Console) : console.emit log (.told event) = console := by
  cases log with
  | none => rfl
  | some subscriber =>
    have hdisabled : ¬subscriber.enabled event = true := fun henabled => h ⟨_, rfl, henabled⟩
    rw [emit, if_neg hdisabled]

theorem emitAll_of_unheard {log : Option Subscriber} {events : List LogEvent}
    (h : ∀ event ∈ events, ¬event.IsHeard log) (console : Console) :
    console.emitAll log (events.map .told) = console := by
  induction events with
  | nil => rfl
  | cons event events ih =>
    obtain ⟨hevent, hevents⟩ := List.forall_mem_cons.1 h
    rw [List.map_cons, emitAll_cons, emit_of_unheard hevent]
    exact ih hevents

/-- To follow program text is to tell its events. -/
theorem follow_eq (log : Option Subscriber) (patience : Nat) (settings : Settings) (source : String)
    (console : Console) :
    console.follow log patience settings source
      = console.emitAll log ((interpretEvents patience settings source).map .told) := by
  cases log with
  | none =>
    have hunheard : ∀ event ∈ interpretEvents patience settings source,
        ¬LogEvent.IsHeard none event := by
      rintro event - ⟨subscriber, hnone, -⟩
      cases hnone
    exact (emitAll_of_unheard hunheard console).symm
  | some subscriber => rfl

end Console

end PseudoAsm
