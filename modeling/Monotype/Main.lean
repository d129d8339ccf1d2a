import Monotype.Command.Run

/-! The command line: carries out what the command does as a function. The loop answers every line
as it comes. -/
namespace Monotype.Command

/-- The obstacle that a fault of the system shows. -/
def obstacleOf : IO.Error → Obstacle
  | .noFileOrDirectory .. => .missing
  | .permissionDenied .. => .forbidden
  | .invalidArgument .. => .nameTooLong
  | .inappropriateType _ code _ => if code = 21 then .directory else .underFile
  | _ => .underFile

/-- Finds out what stands under a name, and reads it. -/
def lookUp (path : String) : IO Entry := do
  try
    let bytes ← IO.FS.readBinFile path
    pure (.file bytes.toList)
  catch e => pure (.obstacle (obstacleOf e))

/-- Finds out what stands under a name without reading it: only directories have a place inside. -/
def lookAt (path : String) : IO Entry := do
  match ← lookUp (path ++ "/.") with
  | .obstacle .underFile =>
    match ← lookUp (parentPath path ++ "/.") with
    | .obstacle .directory => pure (.file [])
    | _ => pure (.obstacle .underFile)
  | found => pure found

/-- Finds out about the files that the options name. -/
def survey (o : Options) : IO (String → Entry) := do
  let source ← match o.expr, o.source with
    | none, some path => do pure [(plainPath path, ← lookUp (plainPath path))]
    | _, _ => pure []
  let log ← match o.logFile with
    | some (.named path) => do
      let path := shortPath path
      let parent := parentPath path
      pure [(path, ← lookAt path), (parent, ← lookAt parent)]
    | _ => pure []
  pure fun path => ((source ++ log).lookup path).getD (.obstacle .missing)

/-- Prints and writes what a report says. -/
def carryOut (report : Report) : IO UInt32 := do
  IO.print report.stdout
  IO.eprint report.stderr
  if let some (path, text) := report.logFile then
    IO.FS.writeFile path text
  match report.ending with
  | .ok code => pure code
  | .error abort =>
    IO.eprintln abort.message
    pure 1

/-- The lines that come next; none at the end of the input. -/
def nextLines : IO (List String) := do
  let text ← (← IO.getStdin).getLine
  pure ((Text.lines (Text.normalizeLineEnds text.toList)).map String.ofList)

/-- Answers the lines that have been read and those still to come. -/
partial def interact (o : Options) (logging : Option Logging) (past : List Event)
    (pending : List String) : IO UInt32 := do
  IO.print prompt
  (← IO.getStdout).flush
  let pending ← if pending.isEmpty then nextLines else pure pending
  match pending with
  | [] =>
    IO.println ""
    pure 0
  | line :: rest =>
    let c := checkLine (o.check logging) line
    let events := past ++ c.events
    let ending := match c.outcome with
      | .ok () => .ok 0
      | .error abort => .error abort
    let (log, _) := Logging.write logging c.events
    let (_, logFile) := Logging.write logging events
    let code ← carryOut ⟨c.output, log, logFile, ending⟩
    if code = 0 then interact o logging events rest else pure code

def execute (args : List String) : IO UInt32 := do
  let directory := (← IO.currentDir).toString
  match invocation args with
  | .run o =>
    let entry ← survey o
    match o.expr, o.source, o.logging? entry directory with
    | none, none, .ok logging => interact o logging [] []
    | _, _, _ => carryOut (run ⟨args, "", directory, entry⟩)
  | _ => carryOut (run ⟨args, "", directory, fun _ => .obstacle .missing⟩)

end Monotype.Command

def main (args : List String) : IO UInt32 := Monotype.Command.execute args
