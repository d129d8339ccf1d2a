import Monotype.Term
import Monotype.Ty.Text

/-! The equations between types that a term implies. Each node contributes its own equations, with
the node as their origin, followed by those of its parts. -/
namespace Monotype

/-- Two types that must become the same. -/
structure Equation where
  left : Ty
  right : Ty
  deriving DecidableEq

/-- An equation in listings, messages and log lines. The numbers of variables are written as in
`Ty.spelling`, however long. -/
def Equation.text (e : Equation) : String := e.left.spelling ++ " = " ++ e.right.spelling

/-- The text that spells out the constructors of an equation. -/
def Equation.construction (e : Equation) : Except Text.TooLong String := do
  let left ← e.left.construction
  let right ← e.right.construction
  pure ("Constraint(type1=" ++ left ++ ", type2=" ++ right ++ ")")

/-- An equation and the node that it comes from, if that is known. -/
structure Constraint extends Equation where
  origin : Option Term
  deriving DecidableEq

namespace Term

/-- The equations of a term. The scope gives the types of declared names and built-in operators;
parameters are not in it. -/
def constraints (scope : Scope) (term : Term) : List Constraint :=
  match term with
  | .int type _ => [⟨⟨type, .int⟩, term⟩]
  | .ident type x =>
    match scope.typeOf? x with
    | some bound => [⟨⟨type, bound⟩, term⟩]
    | none => []
  | .app type f a =>
    ⟨⟨f.type, .fn a.type type⟩, term⟩ :: (constraints scope f ++ constraints scope a)
  | .fn type x b => ⟨⟨type, .fn x.type b.type⟩, term⟩ :: constraints scope b
  | .cond type p y n =>
    [⟨⟨type, y.type⟩, term⟩, ⟨⟨type, n.type⟩, term⟩, ⟨⟨p.type, .bool⟩, term⟩,
      ⟨⟨y.type, n.type⟩, term⟩] ++
      (constraints scope p ++ (constraints scope y ++ constraints scope n))
  | .letIn type x v b =>
    [⟨⟨type, b.type⟩, term⟩, ⟨⟨x.type, v.type⟩, term⟩] ++
      (constraints scope v ++ constraints (x.bindIn scope (some x.type)) b)

end Term

end Monotype
