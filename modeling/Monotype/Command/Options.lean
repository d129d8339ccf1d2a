import Monotype.Text.Delimited
import Monotype.Text.Numeral

/-! The arguments of the command. Every argument is first sorted by what it looks like, and then the
arguments act in turn. Long options may be shortened as long as they stay unambiguous, an option may
carry its value after an equals sign or, a short one, directly, and `--` makes all that follows it
plain. Where `--` is itself the value that an option carries, the option is given without a
value. -/
namespace Monotype.Command

/-- The file that a log goes to, which may have been asked for without saying which. -/
inductive LogFile where
  | named (path : String)
  | unnamed
  deriving DecidableEq

/-- What the arguments ask for. -/
structure Options where
  source : Option String
  expr : Option String
  showConstraints : Bool
  logLevel : Option String
  logFile : Option LogFile
  deriving DecidableEq

def Options.initial : Options := ⟨none, none, false, none, none⟩

inductive Opt where
  | help
  | expr
  | constraints
  | logLevel
  | logFile
  deriving DecidableEq

/-- How each option is spelled. -/
def spellings : List (String × Opt) :=
  [("-h", .help), ("--help", .help), ("-e", .expr), ("--constraints", .constraints),
    ("--log-level", .logLevel), ("--log-file", .logFile)]

/-- An option in messages. -/
def Opt.title (o : Opt) : String :=
  "/".intercalate ((spellings.filter fun s => s.2 = o).map Prod.fst)

/-- Why arguments make no sense. -/
inductive Misuse where
  | unrecognized (args : List String)
  | expectedArgument (o : Opt)
  | ignoredArgument (o : Opt) (value : String)
  | ambiguous (arg : String) (candidates : List String)
  deriving DecidableEq

def Misuse.message : Misuse → String
  | .unrecognized args => "unrecognized arguments: " ++ " ".intercalate args
  | .expectedArgument o => "argument " ++ o.title ++ ": expected one argument"
  | .ignoredArgument o value =>
    "argument " ++ o.title ++ ": ignored explicit argument " ++ Text.quoted value
  | .ambiguous arg candidates =>
    "ambiguous option: " ++ arg ++ " could match " ++ ", ".intercalate candidates

/-! ### What an argument looks like -/

inductive Piece where
  | plain
  /-- An option and the characters that it carries; the spelling says whether it is a short one. -/
  | option (spelling : String) (o : Opt) (attached : Option (List Char))
  /-- Looks like an option and is none. -/
  | stranger
  | separator
  deriving DecidableEq

/-- The characters before the first equals sign, and those after it. -/
def splitEquals (cs : List Char) : List Char × Option (List Char) :=
  match cs.dropWhile (· != '=') with
  | [] => (cs, none)
  | _ :: value => (cs.takeWhile (· != '='), some value)

/-- Whether an argument is a negative number; a line feed may follow it. -/
def isNegativeNumber : List Char → Bool
  | '-' :: cs =>
    let cs := if cs.getLast? = some '\n' then cs.dropLast else cs
    let fraction := cs.dropWhile Text.isDigit
    match fraction with
    | [] => !cs.isEmpty
    | '.' :: digits => !digits.isEmpty && digits.all Text.isDigit
    | _ => false
  | _ => false

/-- The options that an argument may stand for, when it is not the spelling of one. -/
def candidates (arg : String) : List (String × Opt × Option (List Char)) :=
  match arg.toList with
  | '-' :: '-' :: cs =>
    let (start, attached) := splitEquals ('-' :: '-' :: cs)
    (spellings.filter fun s => start.isPrefixOf s.1.toList).map fun s => (s.1, s.2, attached)
  | d :: c :: value =>
    (spellings.filter fun s => s.1.toList = [d, c]).map fun s => (s.1, s.2, some value)
  | _ => []

/-- Sorts an argument. -/
def classify (arg : String) : Except Misuse Piece :=
  let cs := arg.toList
  if cs.head? ≠ some '-' ∨ cs.length = 1 then .ok .plain
  else
    match spellings.lookup arg with
    | some o => .ok (.option arg o none)
    | none =>
      let (start, attached) := splitEquals cs
      match attached, spellings.lookup (String.ofList start) with
      | some cs, some o => .ok (.option (String.ofList start) o (some cs))
      | _, _ =>
        match candidates arg with
        | [] => .ok (if isNegativeNumber cs || cs.contains ' ' then .plain else .stranger)
        | [(spelling, o, attached)] => .ok (.option spelling o attached)
        | several => .error (.ambiguous arg (several.map (·.1)))

/-- Sorts all arguments; after the first separator they are plain. -/
def classifyAll : List String → Except Misuse (List (String × Piece))
  | [] => .ok []
  | arg :: rest =>
    if arg = "--" then .ok ((arg, .separator) :: rest.map fun a => (a, .plain))
    else do
      let piece ← classify arg
      let pieces ← classifyAll rest
      pure ((arg, piece) :: pieces)

/-! ### What the arguments do -/

/-- What a command line comes to. -/
inductive Invocation where
  | run (o : Options)
  | help
  | misuse (m : Misuse)
  deriving DecidableEq

/-- The options so far, whether a source has been named, and arguments that nothing wanted. -/
structure Progress where
  options : Options
  named : Bool
  extras : List String

def Progress.initial : Progress := ⟨.initial, false, []⟩

def Progress.refuse (p : Progress) (arg : String) : Progress :=
  { p with extras := p.extras ++ [arg] }

def Progress.name (p : Progress) (arg : String) : Progress :=
  { p with options := { p.options with source := some arg }, named := true }

/-- Gives an option its value, if it has one; the last time wins. -/
def Progress.set (p : Progress) (o : Opt) (value : Option String) : Progress :=
  match o with
  | .expr => { p with options := { p.options with expr := some (value.getD "") } }
  | .logLevel => { p with options := { p.options with logLevel := some (value.getD "") } }
  | .logFile =>
    { p with options := { p.options with logFile := some (value.elim .unnamed .named) } }
  | .constraints => { p with options := { p.options with showConstraints := true } }
  | .help => p

/-- The value in the characters that an option carries. -/
def carried (cs : List Char) : Option String :=
  if cs = ['-', '-'] then none else some (String.ofList cs)

/-- Characters after `-h` are further short options; as long as they all are, and none of them lacks
its value, help is given. The flag says whether a plain argument follows. -/
def helpCluster (followed : Bool) : List Char → Invocation
  | [] => .help
  | 'h' :: cs => helpCluster followed cs
  | ['e'] => if followed then .help else .misuse (.expectedArgument .expr)
  | 'e' :: _ => .help
  | cs => .misuse (.ignoredArgument .help (String.ofList cs))

/-- Lets the arguments act in turn. -/
def consume (p : Progress) : List (String × Piece) → Invocation
  | [] => if p.extras.isEmpty then .run p.options else .misuse (.unrecognized p.extras)
  | (arg, .stranger) :: rest => consume (p.refuse arg) rest
  | (arg, .separator) :: rest => consume (if p.named then p.refuse arg else p) rest
  | (arg, .plain) :: rest =>
    if p.named then consume (p.refuse arg) rest
    else
      match rest with
      | (_, .separator) :: rest => consume (p.name arg) rest
      | rest => consume (p.name arg) rest
  | (_, .option spelling .help attached) :: rest =>
    let followed := rest.head?.any fun a => a.2 = .plain
    match attached with
    | none => .help
    | some cs =>
      if spelling = "-h" ∧ cs ≠ [] then helpCluster followed cs
      else .misuse (.ignoredArgument .help (String.ofList cs))
  | (_, .option _ .constraints attached) :: rest =>
    match attached with
    | none => consume (p.set .constraints none) rest
    | some cs => .misuse (.ignoredArgument .constraints (String.ofList cs))
  | (_, .option _ o (some cs)) :: rest => consume (p.set o (carried cs)) rest
  | (_, .option _ o none) :: rest =>
    match rest with
    | (value, .plain) :: rest => consume (p.set o (some value)) rest
    | _ => .misuse (.expectedArgument o)

/-- What a list of arguments comes to. -/
def invocation (args : List String) : Invocation :=
  match classifyAll args with
  | .error m => .misuse m
  | .ok pieces => consume .initial pieces

end Monotype.Command
