import Monotype.Inference

/-! Messages about faults, as the user reads them. -/
namespace Monotype

/-- A place named in a message. Where line and column are both negative, only the index is known. -/
structure Mark where
  index : Int
  line : Int
  column : Int
  deriving DecidableEq

def Source.Position.mark (p : Source.Position) : Mark := ⟨p.index, p.line, p.column⟩

/-- A fault, with all that its message tells. -/
inductive Diagnostic where
  | badCharacter (mark : Option Mark)
  /-- Without a place, it is the end of the text that was not expected. -/
  | badToken (mark : Option Mark)
  | typeError (message : String) (constraint : Option Constraint)
  | other (message : String)

namespace Diagnostic

def lineColumn (m : Mark) : String :=
  " on line " ++ toString m.line ++ ", column " ++ toString m.column

/-- Where a character was not expected. -/
def place : Option Mark → String
  | none => ""
  | some m =>
    if m.line < 0 ∧ m.column < 0 then " at index " ++ toString m.index else lineColumn m

/-- What led to a type error, one line each. -/
def trail : Option Constraint → String
  | none => ""
  | some c =>
    "\n    while solving " ++ c.toEquation.text ++
      match c.origin with
      | some term => "\n    from " ++ term.text
      | none => ""

def text : Diagnostic → String
  | .badCharacter mark => "Lexing Error: Unexpected character" ++ place mark ++ "!"
  | .badToken none => "Parsing Error: Unexpected end of input!"
  | .badToken (some m) => "Parsing Error: Unexpected token" ++ lineColumn m ++ "!"
  | .typeError message c => "Type Error: " ++ message ++ trail c
  | .other message => message

end Diagnostic

open Source in
def Source.ReadError.diagnostic : ReadError → Diagnostic
  | .badCharacter p => .badCharacter (some p.mark)
  | .badToken p => .badToken (some p.mark)
  | .unfinished => .badToken none
  | .numberTooLong digits => .other (Text.tooManyDigits (some digits))

def Conflict.diagnostic (e : Conflict) : Diagnostic := .typeError e.clash.message e.constraint

def Failure.diagnostic : Failure → Diagnostic
  | .reading e => e.diagnostic
  | .typing e => e.diagnostic

end Monotype
