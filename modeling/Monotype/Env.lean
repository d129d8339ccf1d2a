import Monotype.OrderedMap

/-! Chains of scopes. The outermost scope is a map of any size, and every further scope binds one
key. A binding hides the outer bindings of its key, and extending a chain leaves the chain as it
was. -/
namespace Monotype

universe u v

/-- A chain of scopes; `locals` holds the inner ones, the innermost first. -/
structure Env (κ : Type u) (ν : Type v) where
  globals : OrderedMap κ ν
  locals : List (κ × ν)

namespace Env

variable {κ : Type u} {ν : Type v}

/-- The chain of one scope with nothing bound. -/
def empty : Env κ ν := ⟨.empty, []⟩

instance : Inhabited (Env κ ν) := ⟨empty⟩

/-- Opens an inner scope that binds `k`. -/
def extend (env : Env κ ν) (k : κ) (v : ν) : Env κ ν := { env with locals := (k, v) :: env.locals }

/-- Opens one scope for each binding in turn. -/
def extendAll (env : Env κ ν) (bindings : List (κ × ν)) : Env κ ν :=
  bindings.foldl (fun env b => env.extend b.1 b.2) env

/-- Leaves the innermost scope. -/
def leave (env : Env κ ν) : Env κ ν := { env with locals := env.locals.tail }

/-- The values of all bindings, hidden ones included. -/
def values (env : Env κ ν) : List ν := env.locals.map Prod.snd ++ env.globals.values

variable [DecidableEq κ]

/-- The chain whose only scope holds the given bindings. -/
def ofList (bindings : List (κ × ν)) : Env κ ν := ⟨.ofList bindings, []⟩

/-- The value of the innermost binding of `k`. -/
def find? (env : Env κ ν) (k : κ) : Option ν := (env.locals.lookup k).or (env.globals.find? k)

def contains (env : Env κ ν) (k : κ) : Bool := (env.find? k).isSome

def getD (env : Env κ ν) (k : κ) (default : ν) : ν := (env.find? k).getD default

/-- A key that no scope of a chain binds. -/
structure Unbound (κ : Type u) where
  key : κ

def get (env : Env κ ν) (k : κ) : Except (Unbound κ) ν :=
  match env.find? k with
  | some v => .ok v
  | none => .error ⟨k⟩

/-- One map for the whole chain: keys stand where their outermost binding puts them, with the value
of their innermost binding. -/
def flatten (env : Env κ ν) : OrderedMap κ ν := env.globals.insertAll env.locals.reverse

/-- Whether two chains have the same scopes, each with the same bindings. -/
def sameScopes [BEq ν] (a b : Env κ ν) : Bool :=
  a.locals == b.locals && a.globals.sameEntries b.globals

theorem find?_extend (env : Env κ ν) (k k' : κ) (v : ν) :
    (env.extend k v).find? k' = if k' = k then some v else env.find? k' := by
  by_cases h : k' = k
  · simp [find?, extend, h]
  · simp [find?, extend, h, List.lookup_cons, beq_false_of_ne h]

end Env

end Monotype
