import Monotype.Annotation
import Monotype.Source.Reading
import Monotype.Unifier

/-! Inference: annotate an expression, collect its equations, solve them, and read off its type. -/
namespace Monotype

/-- An inference: the annotated expression, its equations, the type or the reason why there is none,
the substitution it left, and what it did. -/
structure Inference where
  term : Term
  constraints : List Constraint
  outcome : Except Conflict Ty
  unifier : Unifier
  events : List Event

/-- Infers the type of an expression, given what is known already. -/
def inferWith (u : Unifier) (e : Expr) : Inference :=
  let (term, minted) := e.label .empty 0
  let constraints := term.constraints .builtin
  let solution := Unifier.solve u constraints
  let events := .annotated term minted :: .collected constraints :: solution.events
  match solution.verdict with
  | .error err => ⟨term, constraints, .error err, solution.unifier, events⟩
  | .ok () =>
    let (type, u) := Unifier.concretize solution.unifier term.type
    ⟨term, constraints, .ok type, u, events⟩

/-- Infers the type of an expression. -/
def infer (e : Expr) : Inference := inferWith .empty e

/-- Why a text has no type. -/
inductive Failure where
  | reading (e : Source.ReadError)
  | typing (e : Conflict)

/-- The type of the expression that a text writes. -/
def inferSource (source : String) : Except Failure Ty :=
  match Source.parse source with
  | .error e => .error (.reading e)
  | .ok e =>
    match (infer e).outcome with
    | .error e => .error (.typing e)
    | .ok t => .ok t

end Monotype
