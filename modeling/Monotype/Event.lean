import Monotype.Constraint
import Monotype.Forest

/-! What can be told about an inference while it runs, with the weight and the wording of each
report. -/
namespace Monotype

inductive Event where
  | annotated (term : Term) (minted : Nat)
  | collected (constraints : List Constraint)
  /-- Two types are about to be made equal; these are the roots of their sets. -/
  | compared (left right : Ty)
  /-- A variable would have to contain itself. -/
  | circular (var other : Ty)
  | mismatched (left right : Ty)
  | solved (unifier : Forest Ty)

/-- How much a report matters. -/
inductive Severity where
  | debug
  | critical
  deriving DecidableEq

def Severity.rank : Severity → Int
  | .debug => 10
  | .critical => 50

def Severity.label : Severity → String
  | .debug => "DEBUG"
  | .critical => "CRITICAL"

/-- All sets of a substitution in one line. -/
def substitutionText (sets : OrderedMap Ty (List Ty)) : String :=
  Forest.listing "UnifierSet" Ty.spelling sets

namespace Event

def severity : Event → Severity
  | .circular _ _ | .mismatched _ _ => .critical
  | _ => .debug

/-- Whether an event comes before the equations of a text are known. -/
def isPreparation : Event → Bool
  | .annotated _ _ | .collected _ => true
  | _ => false

/-- The wording of a report. The numbers of variables are written as in `Ty.spelling`. -/
def text : Event → String
  | .annotated term minted =>
    "annotated " ++ term.text ++ " with " ++ toString minted ++ " type variables"
  | .collected cs =>
    "collected " ++ toString cs.length ++ " constraints: ["
      ++ ", ".intercalate (cs.map (·.toEquation.text)) ++ "]"
  | .compared a b => "(" ++ a.spelling ++ ") ~ (" ++ b.spelling ++ ")"
  | .circular v t => "Circularity detected in (" ++ v.spelling ++ ") ~ (" ++ t.spelling ++ ")"
  | .mismatched a b => "Cannot unify: (" ++ a.spelling ++ ") ~ (" ++ b.spelling ++ ")"
  | .solved u => "substitution: " ++ substitutionText u.sets.1

end Event

end Monotype
