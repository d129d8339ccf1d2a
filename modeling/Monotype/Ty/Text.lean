import Monotype.Text.Numeral
import Monotype.Ty.Basic

/-! Texts of types. The plain text, `(t1 → int)`, and the one that spells out the constructors,
`Fn(Var(1), Int)`, give the numbers of variables, and are refused where one of these has too many
digits. In the readable text variables get Greek names in the order in which they first appear, so
types that differ only in the numbers of their variables look the same. -/
namespace Monotype

namespace Ty

mutual

/-- The text of a type under a naming of its variables. -/
def render (name : Int → String) : Ty → String
  | .var v => name v
  | .int => "int"
  | .bool => "bool"
  | .fn a b => "(" ++ a.render name ++ " → " ++ b.render name ++ ")"
  | .tuple ts => "(" ++ ", ".intercalate (renderAll name ts) ++ ")"

def renderAll (name : Int → String) : List Ty → List String
  | [] => []
  | t :: ts => t.render name :: renderAll name ts

end

/-! ### Plain texts -/

/-- The name of a variable in plain texts. -/
def plainName (v : Int) : String := "t" ++ toString v

/-- The plain text with the numbers of variables however long. Messages and log lines are made of
this: the numbers in them are those that annotation hands out, counted from one, and that a number
may be too long to be written is left out there. -/
def spelling (t : Ty) : String := t.render plainName

mutual

/-- The constructors that build a type, with the numbers of variables however long. -/
def constructors : Ty → String
  | .var v => "Var(" ++ toString v ++ ")"
  | .int => "Int"
  | .bool => "Bool"
  | .fn a b => "Fn(" ++ a.constructors ++ ", " ++ b.constructors ++ ")"
  | .tuple ts => "Poly(" ++ ", ".intercalate (constructorsAll ts) ++ ")"

def constructorsAll : List Ty → List String
  | [] => []
  | t :: ts => t.constructors :: constructorsAll ts

end

/-- The plain text of a type. -/
def text (t : Ty) : Except Text.TooLong String := Text.ifWritable t.vars t.spelling

/-- The text that spells out the constructors of a type. -/
def construction (t : Ty) : Except Text.TooLong String := Text.ifWritable t.vars t.constructors

end Ty

/-! ### Readable texts -/

/-- The letters in order; omicron, which looks like a Latin letter, is left out. -/
def greekLetters : List Char := "αβγδεζηθικλμνξπρστυφχψω".toList

/-- The name of the variable with number `n`: the letters run through once bare, then with 1, 2, …
-/
def greekName (n : Nat) : String :=
  let letter := String.singleton (greekLetters.getD (n % greekLetters.length) 'α')
  if n < greekLetters.length then letter else letter ++ toString (n / greekLetters.length)

/-- The names with numbers from `start` up to `stop`. -/
def greekNames (start stop : Nat) : List String :=
  (List.range (stop - start)).map fun i => greekName (start + i)

namespace Ty

/-- The variables in order of their first appearance. -/
def distinctVars (t : Ty) : List Int := t.vars.eraseDups

def pretty (t : Ty) : String :=
  let order := t.distinctVars
  t.render fun v => greekName (order.idxOf v)

end Ty

end Monotype
