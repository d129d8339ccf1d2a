import Monotype.Command.Files
import Monotype.Diagnostic
import Monotype.Log

/-! Checking a text: its type is printed, on request after its equations. The loop checks line after
line and prints the faults it meets. -/
namespace Monotype.Command

/-- The faults that end the command without an exit code of its own. -/
inductive Abort where
  /-- A log file was asked for without a name. -/
  | unnamedLog
  | level (e : Log.UnknownLevel)
  | file (e : FileError)
  | failure (e : Failure)

def Abort.message : Abort → String
  | .unnamedLog => "expected str, bytes or os.PathLike object, not list"
  | .level e => e.message
  | .file e => e.message
  | .failure e => e.diagnostic.text

/-- What checking printed, how it ended, and what happened on the way. -/
structure Check where
  output : String
  outcome : Except Abort Unit
  events : List Event

/-- The equations, one line each. -/
def listing (constraints : List Constraint) : String :=
  String.join (constraints.map fun c => c.toEquation.text ++ "\n")

/-- The equations as far as they are asked for. -/
def listingIf (showConstraints : Bool) (constraints : List Constraint) : String :=
  if showConstraints then listing constraints else ""

/-- Checks one text. The equations are printed even when they cannot be solved. -/
def check (showConstraints : Bool) (source : String) : Check :=
  match Source.parse source with
  | .error e => ⟨"", .error (.failure (.reading e)), []⟩
  | .ok e =>
    let inference := infer e
    let listed := listingIf showConstraints inference.constraints
    match inference.outcome with
    | .error e => ⟨listed, .error (.failure (.typing e)), inference.events⟩
    | .ok t => ⟨listed ++ "_ : " ++ t.pretty ++ "\n", .ok (), inference.events⟩

/-- Checks one text up to the first event that must be logged and cannot be: there the program ends.
Equations are printed if they had all been collected by then. -/
def checkUntil (logged : Event → Bool) (fault : FileError) (showConstraints : Bool)
    (source : String) : Check :=
  let c := check showConstraints source
  match Source.parse source, c.events.find? logged with
  | .ok e, some event =>
    let listed := listingIf showConstraints (infer e).constraints
    ⟨if event.isPreparation then "" else listed, .error (.file fault), []⟩
  | _, _ => c

/-- Whether a fault is told to the user and no more; other faults end the program. -/
def isReported : Abort → Bool
  | .failure (.reading (.numberTooLong _)) => false
  | .failure _ => true
  | _ => false

/-- What the loop asks for input with. -/
def prompt : String := "==> "

/-- Checks one line of input; blank lines are passed over. -/
def checkLine (checker : String → Check) (line : String) : Check :=
  if Text.allBlank line then ⟨"", .ok (), []⟩
  else
    let c := checker line
    match c.outcome with
    | .error abort =>
      if isReported abort then
        { c with output := c.output ++ abort.message ++ "\n", outcome := .ok () }
      else c
    | .ok () => c

/-- Checks the lines in turn, each after a prompt, up to the end of the input. -/
def loop (checker : String → Check) : List String → Check
  | [] => ⟨prompt ++ "\n", .ok (), []⟩
  | line :: rest =>
    let first := checkLine checker line
    match first.outcome with
    | .error abort => ⟨prompt ++ first.output, .error abort, first.events⟩
    | .ok () =>
      let others := loop checker rest
      ⟨prompt ++ first.output ++ others.output, others.outcome, first.events ++ others.events⟩

end Monotype.Command
