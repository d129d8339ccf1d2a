import Monotype.Term

/-! Annotation: every node of an expression gets a type variable. Variables are numbered in the
order in which the nodes are met, a node before its parts. A use of a parameter gets the variable of
the parameter; a use of any other name gets a variable of its own. -/
namespace Monotype

/-- `n` numbers for variables, in a row from `start` on. -/
def numbersFrom (start : Int) (n : Nat) : List Int := (List.range n).map fun (i : Nat) => start + i

/-- How many variables have been handed out, and the names in scope. A name in scope without a type
is that of a declaration. -/
structure Annotator where
  minted : Nat
  scope : Scope

namespace Annotator

def initial : Annotator := ⟨0, .empty⟩

/-- Hands out the next variable. -/
def fresh (a : Annotator) : Ty × Annotator :=
  (.var (a.minted + 1), { a with minted := a.minted + 1 })

/-- Enters a scope with one more name. -/
def enter (a : Annotator) (name : String) (type : Option Ty) : Annotator :=
  { a with scope := a.scope.extend name type }

/-- Leaves the innermost scope. -/
def leave (a : Annotator) : Annotator := { a with scope := a.scope.leave }

end Annotator

namespace Expr

/-- Annotates an expression when `n` variables have been handed out; also how many have been handed
out afterwards. -/
def label (scope : Scope) (n : Nat) : Expr → Term × Nat
  | .const value => (.int (.var (n + 1)) value, n + 1)
  | .ident x =>
    match scope.typeOf? x with
    | some t => (.ident t x, n)
    | none => (.ident (.var (n + 1)) x, n + 1)
  | .lambda x body =>
    let param : Ty := .var (n + 2)
    let (body, m) := body.label (scope.extend x (some param)) (n + 2)
    (.fn (.var (n + 1)) (.ident param x) body, m)
  | .call f a =>
    let (f, m) := f.label scope (n + 1)
    let (a, m) := a.label scope m
    (.app (.var (n + 1)) f a, m)
  | .cond p y e =>
    let (p, m) := p.label scope (n + 1)
    let (y, m) := y.label scope m
    let (e, m) := e.label scope m
    (.cond (.var (n + 1)) p y e, m)
  | .letIn x value body =>
    let (value, m) := value.label scope (n + 2)
    let (body, m) := body.label (scope.extend x none) m
    (.letIn (.var (n + 1)) (.ident (.var (n + 2)) x) value body, m)

/-- Annotates with the steps of an annotator: it takes a variable for a node before it comes to the
parts of the node, enters the scope of a binder before the part inside, and leaves it after. -/
def walk : Expr → Annotator → Term × Annotator
  | .const value, a =>
    let (t, a) := a.fresh
    (.int t value, a)
  | .ident x, a =>
    match a.scope.typeOf? x with
    | some t => (.ident t x, a)
    | none =>
      let (t, a) := a.fresh
      (.ident t x, a)
  | .lambda x body, a =>
    let (t, a) := a.fresh
    let (param, a) := a.fresh
    let (body, a) := body.walk (a.enter x (some param))
    (.fn t (.ident param x) body, a.leave)
  | .call f arg, a =>
    let (t, a) := a.fresh
    let (f, a) := f.walk a
    let (arg, a) := arg.walk a
    (.app t f arg, a)
  | .cond p y e, a =>
    let (t, a) := a.fresh
    let (p, a) := p.walk a
    let (y, a) := y.walk a
    let (e, a) := e.walk a
    (.cond t p y e, a)
  | .letIn x value body, a =>
    let (t, a) := a.fresh
    let (name, a) := a.fresh
    let (value, a) := value.walk a
    let (body, a) := body.walk (a.enter x none)
    (.letIn t (.ident name x) value body, a.leave)

/-- Annotates an expression that stands by itself. -/
def annotate (e : Expr) : Term := (e.label .empty 0).1

end Expr

/-- Annotates an expression in the current scope, which stays as it is. -/
def Annotator.annotate (a : Annotator) (e : Expr) : Term × Annotator :=
  let (term, n) := e.label a.scope a.minted
  (term, { a with minted := n })

/-- A term in which a use breaks the contract with its binder. -/
structure BrokenContract where
  term : Term

def BrokenContract.message (b : BrokenContract) : String :=
  "Parameter uses not aliased in " ++ b.term.text

/-- Annotates an expression that stands by itself, and refuses a term that breaks the contract. -/
def Expr.annotateChecked (e : Expr) : Except BrokenContract Term :=
  let (term, _) := Annotator.initial.annotate e
  if term.aliased? .empty = some true then .ok term else .error ⟨term⟩

end Monotype
