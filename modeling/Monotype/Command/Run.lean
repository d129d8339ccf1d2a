import Monotype.Command.Check
import Monotype.Command.Options

/-! The command as a function: from its arguments, what its input holds and what files there are, to
all that it prints and writes, and how it ends. -/
namespace Monotype.Command

structure Input where
  args : List String
  stdin : String
  /-- The directory that the command runs in. -/
  directory : String
  entry : String → Entry

/-- All that a run of the command does. A log file is written only if there is something to log. -/
structure Report where
  stdout : String
  stderr : String
  logFile : Option (String × String)
  ending : Except Abort UInt32

/-! ### Fixed texts -/

/-- Lines, each with its line end. -/
def block (lines : List String) : String := String.join (lines.map (· ++ "\n"))

def usage : String := block
  ["usage: mlconstraints [-h] [-e EXPR] [--constraints] [--log-level LEVEL]",
    "                     [--log-file PATH]",
    "                     [SRC]"]

def help : String := usage ++ block
  ["",
    "Infers the type of an expression by collecting and solving type constraints.",
    "",
    "positional arguments:",
    "  SRC                the file to check (starts a REPL if neither SRC nor -e is",
    "                     given)",
    "",
    "options:",
    "  -h, --help         show this help message and exit",
    "  -e EXPR            an expression to check instead of a file",
    "  --constraints      print the collected constraints before the inferred type",
    "  --log-level LEVEL  enable logging at LEVEL (DEBUG, INFO, WARNING, ...)",
    "  --log-file PATH    write log records to PATH instead of stderr"]

/-! ### The log -/

/-- Where a log goes. -/
inductive Sink where
  | stderr
  | file (path : String)
  /-- A file that cannot be opened, which comes out when there is something to log. -/
  | broken (fault : FileError)

/-- How a log is kept: from which level on, and where. -/
structure Logging where
  level : Log.Level
  sink : Sink

/-- The log that goes to a file. -/
def Sink.ofFile (entry : String → Entry) (directory path : String) : Sink :=
  match openFault entry directory path with
  | some fault => .broken fault
  | none => .file (shortPath path)

/-- The log that the options ask for, if any. Without a level, or with an empty one, all is
logged. -/
def Options.logging? (o : Options) (entry : String → Entry) (directory : String) :
    Except Abort (Option Logging) :=
  let name := o.logLevel.getD ""
  let keep (sink : Sink) : Except Abort (Option Logging) :=
    match Log.level (if name = "" then "DEBUG" else name) with
    | .ok level => .ok (some ⟨level, sink⟩)
    | .error e => .error (.level e)
  match o.logLevel, o.logFile with
  | none, none => .ok none
  | _, some .unnamed => .error .unnamedLog
  | _, some (.named path) => keep (.ofFile entry directory path)
  | some _, none => keep .stderr

/-- The log of some events: what goes to standard error, and what to a file. -/
def Logging.write (logging : Option Logging) (events : List Event) :
    String × Option (String × String) :=
  match logging with
  | none => ("", none)
  | some ⟨level, .stderr⟩ => (Log.text level events, none)
  | some ⟨level, .file path⟩ =>
    match Log.lines level events with
    | [] => ("", none)
    | lines => ("", some (path, String.join lines))
  | some ⟨_, .broken _⟩ => ("", none)

/-- Checks one text while a log is kept. -/
def Options.check (o : Options) (logging : Option Logging) : String → Check :=
  match logging with
  | some ⟨level, .broken fault⟩ => checkUntil (Log.admits level) fault o.showConstraints
  | _ => Command.check o.showConstraints

/-! ### The run -/

/-- The text to check, if the options name one. -/
def Options.text? (o : Options) (entry : String → Entry) : Except FileError (Option String) :=
  match o.expr, o.source with
  | some text, _ => .ok (some text)
  | none, some path => (readFile entry path).map some
  | none, none => .ok none

/-- Checks one text; a fault that is reported goes to standard error, after the log. -/
def runText (o : Options) (logging : Option Logging) (text : String) : Report :=
  let c := o.check logging text
  let (log, logFile) := Logging.write logging c.events
  match c.outcome with
  | .ok () => ⟨c.output, log, logFile, .ok 0⟩
  | .error abort =>
    if isReported abort then ⟨c.output, log ++ abort.message ++ "\n", logFile, .ok 1⟩
    else ⟨c.output, log, logFile, .error abort⟩

/-- Checks the lines of the input. -/
def runLoop (o : Options) (logging : Option Logging) (stdin : String) : Report :=
  let lines := (Text.lines (Text.normalizeLineEnds stdin.toList)).map String.ofList
  let c := loop (o.check logging) lines
  let (log, logFile) := Logging.write logging c.events
  match c.outcome with
  | .ok () => ⟨c.output, log, logFile, .ok 0⟩
  | .error abort => ⟨c.output, log, logFile, .error abort⟩

/-- Runs the command. -/
def run (input : Input) : Report :=
  match invocation input.args with
  | .help => ⟨help, "", none, .ok 0⟩
  | .misuse m => ⟨"", usage ++ "mlconstraints: error: " ++ m.message ++ "\n", none, .ok 2⟩
  | .run o =>
    match o.logging? input.entry input.directory with
    | .error abort => ⟨"", "", none, .error abort⟩
    | .ok logging =>
      match o.text? input.entry with
      | .error e => ⟨"", "", none, .error (.file e)⟩
      | .ok (some text) => runText o logging text
      | .ok none => runLoop o logging input.stdin

end Monotype.Command
