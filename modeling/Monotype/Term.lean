import Monotype.Env
import Monotype.Ty.Basic

/-! Expressions, which are written without types, and terms, in which every node carries a type and
parameters and declared names are terms themselves. A sketch may have nodes of which nothing but the
type is known; a term has none. A scope binds a name to a type, or without one; a name bound without
a type still hides outer bindings. The contract between binders and uses is that a use of a
parameter carries the type of the parameter, and a use of a declared name carries the type of no
parameter around it. -/
namespace Monotype

/-- Expressions as they are written. -/
inductive Expr where
  | ident (name : String)
  | const (value : Int)
  | lambda (param : String) (body : Expr)
  | call (fn arg : Expr)
  | cond (pred yes no : Expr)
  | letIn (name : String) (value body : Expr)
  deriving DecidableEq, Inhabited

/-! ### Scopes -/

abbrev Scope := Env String (Option Ty)

namespace Scope

/-- The type of the innermost binding of a name, if the name is bound and its binding has one. -/
def typeOf? (scope : Scope) (name : String) : Option Ty := (scope.find? name).join

/-- The types of all bindings, hidden ones included. -/
def types (scope : Scope) : List Ty := scope.values.filterMap id

end Scope

/-- The names of the built-in operators. -/
def operators : List String := ["+", "-", "*", "/", "="]

/-- The scope of the built-in operators: each takes an integer to an integer. -/
def Scope.builtin : Scope := .ofList (operators.map fun o => (o, some (.fn .int .int)))

/-! ### Terms -/

/-- Typed trees in which a node of unknown kind carries a mark from `γ`. -/
inductive Sketch (γ : Type) where
  | int (type : Ty) (value : Int)
  | ident (type : Ty) (name : String)
  | app (type : Ty) (fn arg : Sketch γ)
  | fn (type : Ty) (param body : Sketch γ)
  | cond (type : Ty) (pred yes no : Sketch γ)
  | letIn (type : Ty) (name value body : Sketch γ)
  | unknown (type : Ty) (mark : γ)
  deriving DecidableEq

/-- Typed trees all of whose nodes are of a known kind. -/
abbrev Term := Sketch Empty

namespace Sketch

variable {γ : Type}

def type : Sketch γ → Ty
  | .int t _ | .ident t _ | .app t _ _ | .fn t _ _ | .cond t _ _ _ | .letIn t _ _ _
  | .unknown t _ => t

/-- The name of a node that is nothing but a name. -/
def name? : Sketch γ → Option String
  | .ident _ x => some x
  | _ => none

/-- The scope inside a binder: a binder that is a name hides outer bindings of the name, and any
other binder hides nothing. -/
def bindIn (binder : Sketch γ) (scope : Scope) (type : Option Ty) : Scope :=
  match binder.name? with
  | some x => scope.extend x type
  | none => scope

end Sketch

/-- A term as it would be written, with parentheses around all but names and numbers. A number is
written however many digits it has; those that are read have no more than can be written. -/
def Term.text : Term → String
  | .int _ n => toString n
  | .ident _ x => x
  | .app _ f a => "(" ++ Term.text f ++ " " ++ Term.text a ++ ")"
  | .fn _ x b => "(fn " ++ Term.text x ++ " => " ++ Term.text b ++ ")"
  | .cond _ p y n =>
    "(if " ++ Term.text p ++ " then " ++ Term.text y ++ " else " ++ Term.text n ++ ")"
  | .letIn _ x v b =>
    "(let val " ++ Term.text x ++ " = " ++ Term.text v ++ " in " ++ Term.text b ++ " end)"

/-! ### The contract between binders and uses -/

/-- Whether a use of `name` may carry `type`. A binding without a type is that of a declared name.
-/
def Scope.permits (scope : Scope) (name : String) (type : Ty) : Bool :=
  match scope.find? name with
  | none => true
  | some (some binder) => decide (type = binder)
  | some none => !scope.types.contains type

namespace Sketch

variable {γ : Type}

/-- Whether the uses in a sketch keep the contract. The uses are visited from left to right up to
the first that breaks it; there is no answer when a node of unknown kind is met before. -/
def aliased? (scope : Scope) : Sketch γ → Option Bool
  | .int _ _ => some true
  | .ident type x => some (scope.permits x type)
  | .app _ f a => do
    if ← f.aliased? scope then a.aliased? scope else pure false
  | .fn _ x b => b.aliased? (x.bindIn scope (some x.type))
  | .cond _ p y n => do
    if ← p.aliased? scope then
      if ← y.aliased? scope then n.aliased? scope else pure false
    else pure false
  | .letIn _ x v b => do
    if ← v.aliased? scope then b.aliased? (x.bindIn scope none) else pure false
  | .unknown _ _ => none

/-- What is said of a node of unknown kind. -/
def unknownKind : String := "Unknown term kind: NoneType"

end Sketch

end Monotype
