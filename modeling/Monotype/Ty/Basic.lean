/-! Types: variables, integers, truth values, functions, and tuples of any length. A type is its
`shape` together with its `args`, and the last section says so. -/
namespace Monotype

inductive Ty where
  | var (id : Int)
  | int
  | bool
  | fn (param result : Ty)
  | tuple (parts : List Ty)
  deriving Inhabited

namespace Ty

/-! ### Equality is decidable -/

mutual

protected def decEq : (a b : Ty) → Decidable (a = b)
  | .var v, .var w =>
    if h : v = w then isTrue (by rw [h]) else isFalse fun e => h (Ty.var.inj e)
  | .int, .int => isTrue rfl
  | .bool, .bool => isTrue rfl
  | .fn a b, .fn c d =>
    match a.decEq c, b.decEq d with
    | isTrue h, isTrue k => isTrue (by rw [h, k])
    | isFalse h, _ => isFalse fun e => h (Ty.fn.inj e).1
    | _, isFalse k => isFalse fun e => k (Ty.fn.inj e).2
  | .tuple as, .tuple bs =>
    match Ty.decEqAll as bs with
    | isTrue h => isTrue (by rw [h])
    | isFalse h => isFalse fun e => h (Ty.tuple.inj e)
  | .var _, .int | .var _, .bool | .var _, .fn _ _ | .var _, .tuple _
  | .int, .var _ | .int, .bool | .int, .fn _ _ | .int, .tuple _
  | .bool, .var _ | .bool, .int | .bool, .fn _ _ | .bool, .tuple _
  | .fn _ _, .var _ | .fn _ _, .int | .fn _ _, .bool | .fn _ _, .tuple _
  | .tuple _, .var _ | .tuple _, .int | .tuple _, .bool | .tuple _, .fn _ _ =>
    isFalse (by intro e; cases e)

protected def decEqAll : (as bs : List Ty) → Decidable (as = bs)
  | [], [] => isTrue rfl
  | a :: as, b :: bs =>
    match a.decEq b, Ty.decEqAll as bs with
    | isTrue h, isTrue k => isTrue (by rw [h, k])
    | isFalse h, _ => isFalse fun e => h (List.cons.inj e).1
    | _, isFalse k => isFalse fun e => k (List.cons.inj e).2
  | [], _ :: _ => isFalse (by intro e; cases e)
  | _ :: _, [] => isFalse (by intro e; cases e)

end

instance : DecidableEq Ty := Ty.decEq

/-! ### Measures and parts -/

mutual

/-- The number of nodes. -/
def size : Ty → Nat
  | .var _ => 1
  | .int => 1
  | .bool => 1
  | .fn a b => a.size + b.size + 1
  | .tuple ts => sizeAll ts + 1

def sizeAll : List Ty → Nat
  | [] => 0
  | t :: ts => t.size + sizeAll ts

end

mutual

/-- The variables from left to right, repeated where they repeat. -/
def vars : Ty → List Int
  | .var v => [v]
  | .int => []
  | .bool => []
  | .fn a b => a.vars ++ b.vars
  | .tuple ts => varsAll ts

def varsAll : List Ty → List Int
  | [] => []
  | t :: ts => t.vars ++ varsAll ts

end

def isVar : Ty → Bool
  | .var _ => true
  | _ => false

/-- A type without its arguments: the constructor, and how many arguments it takes here. -/
inductive Shape where
  | var (id : Int)
  | int
  | bool
  | fn
  | tuple (arity : Nat)
  deriving DecidableEq

def shape : Ty → Shape
  | .var v => .var v
  | .int => .int
  | .bool => .bool
  | .fn _ _ => .fn
  | .tuple ts => .tuple ts.length

def args : Ty → List Ty
  | .fn a b => [a, b]
  | .tuple ts => ts
  | _ => []

theorem eq_of_shape_args {a b : Ty} (hs : a.shape = b.shape) (ha : a.args = b.args) : a = b := by
  cases a <;> cases b <;> simp_all [shape, args]

/-- The function constructor was given other than two arguments. -/
structure ArityError where
  given : Nat
  deriving DecidableEq

def ArityError.message (e : ArityError) : String :=
  "Fn constructor takes exactly 2 arguments, " ++ toString e.given ++ " given!"

/-- The function type on a list of two types. -/
def fnOfList : List Ty → Except ArityError Ty
  | [a, b] => .ok (.fn a b)
  | ts => .error ⟨ts.length⟩

end Ty

end Monotype
