import Monotype.Source.Lexing
import Monotype.Term

/-! Reading expressions. The reader takes the tokens one at a time. It keeps the constructs that are
open, innermost first, and what the last tokens amount to; the bodies of `fn` and `else` stay open
as long as they can be continued. A token that cannot continue what was read is refused on the spot,
so the refused token is always the first that no expression could have at its place. What the reader
makes of a construct once it is complete is up to the actions that it is given. -/
namespace Monotype.Source

/-! ### The grammar's actions -/

/-- What the parts of a text can be: expressions, operands that are applied to one another, and
operands that are complete in themselves. -/
inductive Nonterminal where
  | expr
  | application
  | atom
  deriving DecidableEq

/-- What is made of the productions of the grammar, out of what was made of their parts. -/
structure Actions (α : Nonterminal → Type) where
  /-- `fn param => body` -/
  lambda (param : String) (body : α .expr) : α .expr
  /-- `if pred then yes else no` -/
  cond (pred yes no : α .expr) : α .expr
  /-- `let val name = value in body end` -/
  letIn (name : String) (value body : α .expr) : α .expr
  /-- `left op right` -/
  binary (op : Op) (left right : α .expr) : α .expr
  /-- An application is an expression. -/
  application (e : α .application) : α .expr
  /-- `fn arg` -/
  apply (fn : α .application) (arg : α .atom) : α .application
  /-- An operand by itself is an application to nothing. -/
  single (e : α .atom) : α .application
  number (text : String) : α .atom
  name (text : String) : α .atom
  /-- `(e)` -/
  paren (e : α .expr) : α .atom

/-- Builds expressions. An operator between two operands is a function of two arguments, applied to
one after the other, and parentheses leave no trace. -/
def Actions.build : Actions fun _ => Expr where
  lambda := .lambda
  cond := .cond
  letIn := .letIn
  binary op left right := .call (.call (.ident op.symbol) left) right
  application e := e
  apply := .call
  single e := e
  number text := .const (Text.numeral text.toList)
  name := .ident
  paren e := e

/-! ### Where a reader stands -/

/-- A construct that is open: all of it that stands to the left of the part being read. -/
inductive Frame (α : Nonterminal → Type) where
  /-- `( …` -/
  | paren
  /-- `f ( …` -/
  | argument (fn : α .application)
  /-- `fn x => …` -/
  | body (param : String)
  /-- `if …` -/
  | predicate
  /-- `if p then …` -/
  | yes (pred : α .expr)
  /-- `if p then y else …` -/
  | no (pred yes : α .expr)
  /-- `let val x = …` -/
  | value (name : String)
  /-- `let val x = v in …` -/
  | scope (name : String) (value : α .expr)
  /-- `a + …` -/
  | right (op : Op) (left : α .expr)

/-- What the last tokens amount to. -/
inductive Focus (α : Nonterminal → Type) where
  /-- An expression starts here. -/
  | start
  /-- After `fn`. -/
  | fn
  /-- After `fn x`. -/
  | fnParam (param : String)
  /-- After `let`. -/
  | letWord
  /-- After `let val`. -/
  | letVal
  /-- After `let val x`. -/
  | letName (name : String)
  /-- After an operand that may be applied to what follows. -/
  | applied (e : α .application)
  /-- After an operand that may not. -/
  | closed (e : α .expr)

/-- Where a reader stands. -/
structure State (α : Nonterminal → Type) where
  focus : Focus α
  frames : List (Frame α)

def State.initial {α : Nonterminal → Type} : State α := ⟨.start, []⟩

/-- Why a token is refused. -/
inductive Refusal where
  | unexpected
  /-- A number of that many digits. -/
  | tooLong (digits : Nat)
  deriving DecidableEq

variable {α : Nonterminal → Type} (A : Actions α)

/-! ### Closing frames -/

/-- Completes the operations that bind at least as tightly as `level`. -/
def reduce (level : Nat) (e : α .expr) : List (Frame α) → α .expr × List (Frame α)
  | .right op left :: rest =>
    if level ≤ op.level then reduce level (A.binary op left e) rest else (e, .right op left :: rest)
  | frames => (e, frames)

/-- Completes all that may end with `e`. -/
def collapse (e : α .expr) : List (Frame α) → α .expr × List (Frame α)
  | .right op left :: rest => collapse (A.binary op left e) rest
  | .body param :: rest => collapse (A.lambda param e) rest
  | .no pred yes :: rest => collapse (A.cond pred yes e) rest
  | frames => (e, frames)

/-- Closes the innermost construct that is left open, if `kind` is how it goes on after `e`. -/
def close (kind : Kind) (e : α .expr) : List (Frame α) → Option (State α)
  | frame :: rest =>
    match frame, kind with
    | .paren, .closeParen => some ⟨.applied (A.single (A.paren e)), rest⟩
    | .argument f, .closeParen => some ⟨.applied (A.apply f (A.paren e)), rest⟩
    | .predicate, .keyword .then_ => some ⟨.start, .yes e :: rest⟩
    | .yes pred, .keyword .else_ => some ⟨.start, .no pred e :: rest⟩
    | .value name, .keyword .in_ => some ⟨.start, .scope name e :: rest⟩
    | .scope name value, .keyword .end_ => some ⟨.closed (A.letIn name value e), rest⟩
    | _, _ => none
  | [] => none

/-- Goes on after the operand `e` with a token that is not part of it. -/
def continueAfter (e : α .expr) (frames : List (Frame α)) (kind : Kind) : Option (State α) :=
  match kind with
  | .op op =>
    let (e, frames) := reduce A op.level e frames
    some ⟨.start, .right op e :: frames⟩
  | kind =>
    let (e, frames) := collapse A e frames
    close A kind e frames

/-! ### One token -/

/-- The number that a token writes. -/
def readNumber (text : String) : Except Refusal (α .atom) :=
  if Text.maxDigits < text.length then .error (.tooLong text.length) else .ok (A.number text)

/-- The operand that a token is by itself. -/
def atom? (kind : Kind) (text : String) : Option (Except Refusal (α .atom)) :=
  match kind with
  | .number => some (readNumber A text)
  | .name => some (.ok (A.name text))
  | _ => none

def orUnexpected : Option (State α) → Except Refusal (State α)
  | some s => .ok s
  | none => .error .unexpected

/-- Reads one token. -/
def State.step (s : State α) (t : Token) : Except Refusal (State α) :=
  match s.focus with
  | .start =>
    match atom? A t.kind t.text, t.kind with
    | some atom, _ => atom.map fun a => ⟨.applied (A.single a), s.frames⟩
    | none, .openParen => .ok ⟨.start, .paren :: s.frames⟩
    | none, .keyword .fn => .ok ⟨.fn, s.frames⟩
    | none, .keyword .if_ => .ok ⟨.start, .predicate :: s.frames⟩
    | none, .keyword .let_ => .ok ⟨.letWord, s.frames⟩
    | none, _ => .error .unexpected
  | .fn => if t.kind = .name then .ok ⟨.fnParam t.text, s.frames⟩ else .error .unexpected
  | .fnParam x => if t.kind = .arrow then .ok ⟨.start, .body x :: s.frames⟩ else .error .unexpected
  | .letWord => if t.kind = .keyword .val then .ok ⟨.letVal, s.frames⟩ else .error .unexpected
  | .letVal => if t.kind = .name then .ok ⟨.letName t.text, s.frames⟩ else .error .unexpected
  | .letName x =>
    if t.kind = .op .eq then .ok ⟨.start, .value x :: s.frames⟩ else .error .unexpected
  | .applied e =>
    match atom? A t.kind t.text, t.kind with
    | some atom, _ => atom.map fun a => ⟨.applied (A.apply e a), s.frames⟩
    | none, .openParen => .ok ⟨.start, .argument e :: s.frames⟩
    | none, kind => orUnexpected (continueAfter A (A.application e) s.frames kind)
  | .closed e => orUnexpected (continueAfter A e s.frames t.kind)

/-- The expression that the last tokens complete, if they do. -/
def Focus.operand? : Focus α → Option (α .expr)
  | .applied e => some (A.application e)
  | .closed e => some e
  | _ => none

/-- What has been read, if nothing is open. -/
def State.finish? (s : State α) : Option (α .expr) :=
  match s.focus.operand? A with
  | none => none
  | some e =>
    match collapse A e s.frames with
    | (e, []) => some e
    | _ => none

/-! ### Whole texts -/

/-- Why a text is no expression. -/
inductive ReadError where
  /-- No token starts here. -/
  | badCharacter (position : Position)
  /-- No expression goes on with the token here. -/
  | badToken (position : Position)
  /-- The text ends too early. -/
  | unfinished
  | numberTooLong (digits : Nat)
  deriving DecidableEq

def Refusal.readError (position : Position) : Refusal → ReadError
  | .unexpected => .badToken position
  | .tooLong digits => .numberTooLong digits

/-- Reads the tokens in turn from a given state on. -/
def State.read (s : State α) : List Token → Except ReadError (State α)
  | [] => .ok s
  | t :: rest =>
    match s.step A t with
    | .ok s => s.read rest
    | .error refusal => .error (refusal.readError t.position)

theorem State.read_append (s : State α) (as bs : List Token) :
    s.read A (as ++ bs) = (s.read A as).bind fun s => s.read A bs := by
  induction as generalizing s with
  | nil => rfl
  | cons t as ih =>
    simp only [List.cons_append, State.read]
    cases s.step A t with
    | ok s' => exact ih s'
    | error refusal => rfl

/-- Reads a lexed text. A place where lexing stopped matters only when all tokens before it were
read. -/
def readTokens (lexed : Lexed) : Except ReadError (α .expr) :=
  match State.initial.read A lexed.tokens, lexed.stuck? with
  | .error e, _ => .error e
  | .ok _, some position => .error (.badCharacter position)
  | .ok s, none =>
    match s.finish? A with
    | some e => .ok e
    | none => .error .unfinished

/-- The expression that a text writes. -/
def parse (source : String) : Except ReadError Expr := readTokens .build (lex source)

end Monotype.Source
