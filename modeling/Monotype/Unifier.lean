import Monotype.Event

/-! Unification. A substitution is kept as disjoint sets of types: types in one set have been made
equal, and a set that has a type other than a variable has it as its root. Looking a type up may add
it and shorten ways to roots, so every operation also gives the sets it leaves, and a failed one
does too.

The recursive operations are first written with `depth`, and have no answer when their calls nest
that deeply, and with the steps that they take as a parameter. The operations themselves take plain
steps and allow so much depth that it does not run out. -/
namespace Monotype

abbrev Unifier := Forest Ty

/-- Why two types cannot be made equal. -/
inductive Clash where
  /-- The variable would have to contain itself. -/
  | infinite (var type : Ty)
  | mismatch (left right : Ty)
  deriving DecidableEq

/-- What is said of a clash. The numbers of variables are written as in `Ty.spelling`. -/
def Clash.message : Clash → String
  | .infinite v t => "Infinite type: " ++ v.spelling ++ " occurs in " ++ t.spelling
  | .mismatch a b => "Type mismatch: " ++ a.spelling ++ " != " ++ b.spelling

/-- How an attempt to make types equal ended, the sets it left, and what it did. -/
structure Attempt where
  verdict : Except Clash Unit
  unifier : Unifier
  events : List Event

/-- Goes on to `next` unless the attempt failed. -/
def Attempt.andThen (a : Attempt) (next : Unifier → Option Attempt) : Option Attempt :=
  match a.verdict with
  | .error _ => some a
  | .ok () => (next a.unifier).map fun b => { b with events := a.events ++ b.events }

/-- A clash and the constraint that could not be kept, if the clash came from one. -/
structure Conflict where
  clash : Clash
  constraint : Option Constraint

/-- How solving ended, the sets it left, and what it did. -/
structure Solution where
  verdict : Except Conflict Unit
  unifier : Unifier
  events : List Event

namespace Unifier

/-- The types in the sets and the given ones, weighed by size. -/
def weight (u : Unifier) (ts : List Ty) : Nat := Ty.sizeAll u.elements + Ty.sizeAll ts

/-- A depth that suffices for operations on the given types: calls inside one another are for
different types, and all of these lie inside the types that are weighed. -/
def depthFor (u : Unifier) (ts : List Ty) : Nat := weight u ts + 1

/-! ### Steps -/

/-- Joins the sets of two roots. A root that is not a variable stays a root. -/
def joinRoots (u : Unifier) (r s : Ty) : Unifier :=
  match r.isVar, s.isVar with
  | true, false => u.link r s
  | false, true => u.link s r
  | _, _ => u.merge r s

/-- The steps that the operations are made of. An operation has no answer when one of its steps has
none. -/
structure Steps where
  /-- Gives the root of a type. -/
  root : Ty → StateT Unifier Option Ty
  /-- Joins the sets of two roots. -/
  join : Unifier → Ty → Ty → Option Unifier

/-- Steps that always have an answer. -/
def plain : Steps where
  root t := modifyGet fun u => u.root t
  join u r s := some (joinRoots u r s)

namespace Steps

variable (steps : Steps)

/-! ### Reading a substitution -/

/-- A variable is looked up; any other type stands for itself. -/
def look (t : Ty) : StateT Unifier Option Ty := if t.isVar then steps.root t else pure t

/-- Whether the type `v` occurs in `t` under the substitution. The look-ups stop at the first hit.
-/
def occursWithin : (depth : Nat) → Ty → Ty → StateT Unifier Option Bool
  | 0, _, _ => failure
  | depth + 1, v, t => do
    let t ← steps.look t
    if t = v then pure true else t.args.anyM (occursWithin depth v)

/-- Replaces every variable that is not a root of its set by what it stands for. -/
def concretizeWithin : (depth : Nat) → Ty → StateT Unifier Option Ty
  | 0, _ => failure
  | depth + 1, .var v => do
    let r ← steps.look (.var v)
    if r = .var v then pure r else concretizeWithin depth r
  | depth + 1, .fn a b => do
    let a ← concretizeWithin depth a
    let b ← concretizeWithin depth b
    pure (.fn a b)
  | depth + 1, .tuple ts => do
    let ts ← ts.mapM (concretizeWithin depth)
    pure (.tuple ts)
  | _ + 1, .int => pure .int
  | _ + 1, .bool => pure .bool

/-! ### Making types equal -/

/-- Joins the set of the variable `v`, a root, to that of the other root `t`, unless `v` occurs in
`t`. -/
def bindWithin (depth : Nat) (u : Unifier) (v t : Ty) : Option Attempt := do
  let (found, u) ← steps.occursWithin depth v t u
  if found then
    let (whole, u) ← steps.concretizeWithin depth t u
    pure ⟨.error (.infinite v whole), u, [.circular v t]⟩
  else
    let u ← steps.join u v t
    pure ⟨.ok (), u, []⟩

/-- Reports that two roots have different shapes. -/
def mismatchWithin (depth : Nat) (u : Unifier) (r s : Ty) : Option Attempt := do
  let (left, u) ← steps.concretizeWithin depth r u
  let (right, u) ← steps.concretizeWithin depth s u
  pure ⟨.error (.mismatch left right), u, [.mismatched left right]⟩

/-- Makes each pair equal in turn, up to the first failure. -/
def each (step : Unifier → Ty → Ty → Option Attempt) (u : Unifier) :
    List (Ty × Ty) → Option Attempt
  | [] => some ⟨.ok (), u, []⟩
  | (a, b) :: rest => (step u a b).bind fun attempt => attempt.andThen fun u => each step u rest

def unifyWithin : (depth : Nat) → Unifier → Ty → Ty → Option Attempt
  | 0, _, _, _ => none
  | depth + 1, u, a, b => do
    let (r, u) ← steps.root a u
    let (s, u) ← steps.root b u
    let attempt :=
      if r = s then some ⟨.ok (), u, []⟩
      else if r.isVar then steps.bindWithin depth u r s
      else if s.isVar then steps.bindWithin depth u s r
      else if r.shape = s.shape then each (unifyWithin depth) u (r.args.zip s.args)
      else steps.mismatchWithin depth u r s
    attempt.map fun a => { a with events := .compared r s :: a.events }

end Steps

/-! ### The operations -/

/-- Whether the type `v` occurs in `t` under the substitution. -/
def occurs (u : Unifier) (v t : Ty) : Bool × Unifier :=
  (plain.occursWithin (depthFor u [t]) v t u).getD (false, u)

/-- The type with every variable replaced that stands for something else. -/
def concretize (u : Unifier) (t : Ty) : Ty × Unifier :=
  (plain.concretizeWithin (depthFor u [t]) t u).getD (t, u)

/-- Makes two types equal, or says why they cannot be. -/
def unify (u : Unifier) (a b : Ty) : Attempt :=
  (plain.unifyWithin (depthFor u [a, b]) u a b).getD ⟨.ok (), u, []⟩

/-! ### Solving equations -/

/-- Makes the two sides of each constraint equal in turn, up to the first that cannot be kept. -/
def solve (u : Unifier) : List Constraint → Solution
  | [] => ⟨.ok (), u, [.solved u]⟩
  | c :: rest =>
    let attempt := unify u c.left c.right
    match attempt.verdict with
    | .error clash => ⟨.error ⟨clash, some c⟩, attempt.unifier, attempt.events⟩
    | .ok () =>
      let solution := solve attempt.unifier rest
      { solution with events := attempt.events ++ solution.events }

end Unifier

end Monotype
