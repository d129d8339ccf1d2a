import Monotype.OrderedMap
import Monotype.Text.Delimited

/-! Disjoint sets as a forest of trees. A root records how many elements its tree has, and every
other element records its parent. Looking an element up adds it when it is new, and points every
element on the way directly at the root. -/
namespace Monotype

universe u

/-- What is recorded for an element. -/
inductive Cell (α : Type u) where
  | root (size : Nat)
  | child (parent : α)
  deriving DecidableEq

/-- The cells of all elements, in the order in which the elements were added. -/
structure Forest (α : Type u) where
  cells : OrderedMap α (Cell α)

namespace Forest

variable {α : Type u}

def empty : Forest α := ⟨.empty⟩

instance : Inhabited (Forest α) := ⟨empty⟩

def elements (f : Forest α) : List α := f.cells.keys

variable [DecidableEq α]

def contains (f : Forest α) (e : α) : Bool := f.cells.contains e

def cell? (f : Forest α) (e : α) : Option (Cell α) := f.cells.find? e

def set (f : Forest α) (e : α) (c : Cell α) : Forest α := ⟨f.cells.insert e c⟩

theorem cell?_set (f : Forest α) (e e' : α) (c : Cell α) :
    (f.set e c).cell? e' = if e' = e then some c else f.cell? e' :=
  OrderedMap.find?_insert f.cells e e' c

theorem elements_set (f : Forest α) (e : α) (c : Cell α) :
    (f.set e c).elements = if e ∈ f.elements then f.elements else f.elements ++ [e] :=
  OrderedMap.keys_insert f.cells e c

/-- Makes `e` a tree of its own, unless it is there already. -/
def add (f : Forest α) (e : α) : Forest α := if f.contains e then f else f.set e (.root 1)

/-- The size recorded at a root; other elements have none. -/
def rootSize? (f : Forest α) (e : α) : Option Nat :=
  match f.cell? e with
  | some (.root n) => some n
  | _ => none

/-! ### Looking up -/

/-- Follows parents from `e` to the root and points all elements passed at it; a new element becomes
a tree of its own. No answer when the way has `steps` elements or more. -/
def climb : (steps : Nat) → Forest α → α → Option (α × Forest α)
  | 0, _, _ => none
  | steps + 1, f, e =>
    match f.cell? e with
    | none => some (e, f.set e (.root 1))
    | some (.root _) => some (e, f)
    | some (.child p) =>
      (climb steps f p).map fun (r, f) => (r, if r = p then f else f.set e (.child r))

/-- The root of the tree of `e`, which is added when new. A way up has no element twice, so the
number of elements bounds it. -/
def root (f : Forest α) (e : α) : α × Forest α := (climb (f.cells.size + 1) f e).getD (e, f)

/-- Looks the elements up in order while they have the root `r`; whether all have it. -/
def allUnder (r : α) : Forest α → List α → Bool × Forest α
  | f, [] => (true, f)
  | f, e :: rest =>
    let (s, f) := f.root e
    if r = s then allUnder r f rest else (false, f)

/-- What an operation on disjoint sets may refuse. -/
inductive Fault (α : Type u) where
  /-- The element is not there. -/
  | unknown (e : α)
  /-- A comparison needs two elements. -/
  | tooFew

def Fault.message (quote : α → String) : Fault α → String
  | .unknown e => quote e
  | .tooFew => "`same_set` requires at least two arguments!"

/-- Whether all elements, of which there must be two, are in one set. The look-ups stop at the first
element that is in another set than the first. -/
def sameSet (f : Forest α) : List α → Except (Fault α) Bool × Forest α
  | e :: e' :: rest =>
    let (r, f) := f.root e
    let (same, f) := allUnder r f (e' :: rest)
    (.ok same, f)
  | _ => (.error .tooFew, f)

/-! ### Joining -/

/-- Hangs the root `child` under the root `parent`. An element that is no root records no size, and
would count as a tree of size zero here. -/
def link (f : Forest α) (child parent : α) : Forest α :=
  let total := (f.rootSize? parent).getD 0 + (f.rootSize? child).getD 0
  (f.set parent (.root total)).set child (.child parent)

/-- Joins the trees of two roots; `a` stays a root only when its tree is the larger one. An element
that is no root would count as a tree of size zero, as in `link`. -/
def merge (f : Forest α) (a b : α) : Forest α :=
  if (f.rootSize? b).getD 0 < (f.rootSize? a).getD 0 then f.link b a else f.link a b

/-- Joins the trees of two roots, and refuses elements that are not there. That an element which is
there is a root is up to the caller and not checked: see `merge` for what is made of another. -/
def join (f : Forest α) (a b : α) : Except (Fault α) Unit × Forest α :=
  match f.cell? a, f.cell? b with
  | none, _ => (.error (.unknown a), f)
  | some _, none => (.error (.unknown b), f)
  | some _, some _ => (.ok (), f.merge a b)

/-- Puts `a` and `b` into one set. -/
def union (f : Forest α) (a b : α) : Except (Fault α) Unit × Forest α :=
  let (r, f) := f.root a
  let (s, f) := f.root b
  if r = s then (.ok (), f) else f.join r s

/-! ### All sets -/

/-- Looks up each of the elements in turn and files it under its root. -/
def gather : Forest α → OrderedMap α (List α) → List α → OrderedMap α (List α) × Forest α
  | f, sets, [] => (sets, f)
  | f, sets, e :: rest =>
    let (r, f) := f.root e
    gather f (sets.insert r (((sets.find? r).getD []) ++ [e])) rest

/-- Every set under its root. The sets come in the order of their first elements. -/
def sets (f : Forest α) : OrderedMap α (List α) × Forest α := gather f .empty f.elements

/-- Sets in one line, after the name of the collection. -/
def listing (name : String) (write : α → String) (sets : OrderedMap α (List α)) : String :=
  let items := sets.values.map fun members => Text.braced (members.map write)
  name ++ "(\x7b " ++ ", ".intercalate items ++ " \x7d)"

end Forest

end Monotype
