import Monotype.Term
import Mathlib.Data.List.Infix

/-! Places in a term. A place says by which parts to go down from the top of a term to one of its
nodes; the places before it on the way tell what is around it. Of the nodes around a place, those
that bind a name for it are the functions that have the place in their body and the declarations
that have it in their expression, and the innermost of them come last.

A walk that visits the nodes in pre-order, and carries along what is bound around the node it is at,
gives the same as a list of the places together with what is around each (`survey`). -/
namespace Monotype

/-- A part of a node. A binder is the parameter of a function or the name that is declared, and
inside is where it binds: the body of the function or the expression after the declaration. -/
inductive Part where
  | fn
  | arg
  | pred
  | yes
  | no
  | binder
  | value
  | inside
  deriving DecidableEq

/-- The parts that lead from the top of a term down to a node. -/
abbrev Place := List Part

namespace Sketch

variable {γ β : Type}

def part? : Sketch γ → Part → Option (Sketch γ)
  | .app _ f _, .fn => some f
  | .app _ _ a, .arg => some a
  | .cond _ p _ _, .pred => some p
  | .cond _ _ y _, .yes => some y
  | .cond _ _ _ n, .no => some n
  | .fn _ x _, .binder => some x
  | .fn _ _ b, .inside => some b
  | .letIn _ x _ _, .binder => some x
  | .letIn _ _ v _, .value => some v
  | .letIn _ _ _ b, .inside => some b
  | _, _ => none

/-- The node at a place. -/
def at? (t : Sketch γ) : Place → Option (Sketch γ)
  | [] => some t
  | s :: p => (t.part? s).bind fun c => c.at? p

/-- The places of all nodes in pre-order, those inside of binders included. -/
def places : Sketch γ → List Place
  | .int _ _ | .ident _ _ | .unknown _ _ => [[]]
  | .app _ f a => [] :: (f.places.map (.fn :: ·) ++ a.places.map (.arg :: ·))
  | .fn _ x b => [] :: (x.places.map (.binder :: ·) ++ b.places.map (.inside :: ·))
  | .cond _ p y n =>
    [] :: (p.places.map (.pred :: ·) ++ (y.places.map (.yes :: ·) ++ n.places.map (.no :: ·)))
  | .letIn _ x v b =>
    [] :: (x.places.map (.binder :: ·) ++
      (v.places.map (.value :: ·) ++ b.places.map (.inside :: ·)))

/-- The places that are reached without going into a binder. -/
def visits (t : Sketch γ) : List Place := t.places.filter fun p => Part.binder ∉ p

/-- The nodes that have a place inside, from the outermost to the innermost. -/
def around (t : Sketch γ) (p : Place) : List (Sketch γ) :=
  (p.inits.filter fun q => q ++ [.inside] <+: p).filterMap t.at?

/-- Whether a node binds a name inside. -/
def binds (x : String) (t : Sketch γ) : Bool := (t.part? .binder).bind name? == some x

/-- The last node with a property; of nodes around a place, the innermost. -/
def innermost? (P : Sketch γ → Bool) (nodes : List (Sketch γ)) : Option (Sketch γ) :=
  (nodes.filter P).getLast?

/-! ### Nodes and places -/

@[simp] theorem at?_nil (t : Sketch γ) : t.at? [] = some t := rfl

theorem at?_cons {t c : Sketch γ} {s : Part} (h : t.part? s = some c) (p : Place) :
    t.at? (s :: p) = c.at? p := by
  rw [at?, h, Option.bind_some]

theorem mem_places {t : Sketch γ} {p : Place} : p ∈ t.places ↔ ∃ node, t.at? p = some node := by
  induction t generalizing p with
  | int | ident | unknown =>
    cases p with
    | nil => simp [places]
    | cons s p => simp [places, at?, part?]
  | app T f a ihf iha =>
    cases p with
    | nil => simp [places]
    | cons s p => cases s <;> simp [places, at?, part?, ihf, iha]
  | fn T x b ihx ihb =>
    cases p with
    | nil => simp [places]
    | cons s p => cases s <;> simp [places, at?, part?, ihx, ihb]
  | cond T c y n ihc ihy ihn =>
    cases p with
    | nil => simp [places]
    | cons s p => cases s <;> simp [places, at?, part?, ihc, ihy, ihn]
  | letIn T x v b ihx ihv ihb =>
    cases p with
    | nil => simp [places]
    | cons s p => cases s <;> simp [places, at?, part?, ihx, ihv, ihb]

@[simp] theorem around_nil (t : Sketch γ) : t.around [] = [] := by
  simp [around]

theorem around_cons {t c : Sketch γ} {s : Part} (h : t.part? s = some c) (p : Place) :
    t.around (s :: p) = (if s = .inside then [t] else []) ++ c.around p := by
  unfold around
  -- The empty beginning stands for `t` itself, and all others go through `c`.
  rw [List.inits_cons, List.filter_cons, List.filter_map]
  by_cases hs : s = .inside
  · subst hs
    simp [List.filterMap_map, Function.comp_def, at?_cons h]
  · have hs' : ¬Part.inside = s := fun e => hs e.symm
    simp [List.filterMap_map, Function.comp_def, at?_cons h, hs, hs']

/-! ### The innermost node -/

theorem innermost?_snoc (P : Sketch γ → Bool) (nodes : List (Sketch γ)) (t : Sketch γ) :
    innermost? P (nodes ++ [t]) = if P t then some t else innermost? P nodes := by
  unfold innermost?
  rw [List.filter_append]
  by_cases h : P t <;> simp [h]

theorem innermost?_eq_some {P : Sketch γ → Bool} {nodes : List (Sketch γ)} {t : Sketch γ}
    (h : innermost? P nodes = some t) : t ∈ nodes ∧ P t = true :=
  List.mem_filter.1 (List.mem_of_getLast? h)

/-! ### Walks -/

/-- What `F` gives for the nodes in pre-order, of a term that stands inside of the nodes `above`.
For every node `F` is told whether it belongs to a binder, and the nodes that have it inside. -/
def survey (F : Bool → List (Sketch γ) → Sketch γ → List β) (above : List (Sketch γ))
    (t : Sketch γ) : List β :=
  t.places.flatMap fun p =>
    (t.at? p).elim [] (F (decide (Part.binder ∈ p)) (above ++ t.around p))

section Survey

variable (F : Bool → List (Sketch γ) → Sketch γ → List β) (above : List (Sketch γ))

/-- What a part contributes that is no binder. -/
theorem flatMap_part {t c : Sketch γ} {s : Part} (h : t.part? s = some c) (hs : s ≠ .binder) :
    ((c.places.map (s :: ·)).flatMap fun p =>
      (t.at? p).elim [] (F (decide (Part.binder ∈ p)) (above ++ t.around p))) =
      survey F (above ++ if s = .inside then [t] else []) c := by
  rw [List.flatMap_map, survey]
  congr 1
  funext p
  have hmem : Part.binder ∈ s :: p ↔ Part.binder ∈ p := by simp [hs.symm]
  rw [at?_cons h, around_cons h, List.append_assoc]
  simp only [hmem]

/-- What the binder of a node contributes. -/
theorem flatMap_binder {t c : Sketch γ} (h : t.part? .binder = some c) :
    ((c.places.map (.binder :: ·)).flatMap fun p =>
      (t.at? p).elim [] (F (decide (Part.binder ∈ p)) (above ++ t.around p))) =
      survey (fun _ => F true) above c := by
  rw [List.flatMap_map, survey]
  congr 1
  funext p
  rw [at?_cons h, around_cons h]
  simp

theorem survey_int (T : Ty) (n : Int) : survey F above (.int T n) = F false above (.int T n) := by
  simp [survey, places]

theorem survey_ident (T : Ty) (x : String) :
    survey F above (.ident T x) = F false above (.ident T x) := by
  simp [survey, places]

theorem survey_app (T : Ty) (f a : Sketch γ) : survey F above (.app T f a) =
    F false above (.app T f a) ++ (survey F above f ++ survey F above a) := by
  have hf := flatMap_part F above (t := .app T f a) (s := .fn) rfl (by decide)
  have ha := flatMap_part F above (t := .app T f a) (s := .arg) rfl (by decide)
  rw [survey, places, List.flatMap_cons, List.flatMap_append, hf, ha]
  simp

theorem survey_fn (T : Ty) (x b : Sketch γ) : survey F above (.fn T x b) =
    F false above (.fn T x b) ++
      (survey (fun _ => F true) above x ++ survey F (above ++ [.fn T x b]) b) := by
  have hx := flatMap_binder F above (t := .fn T x b) rfl
  have hb := flatMap_part F above (t := .fn T x b) (s := .inside) rfl (by decide)
  rw [survey, places, List.flatMap_cons, List.flatMap_append, hx, hb]
  simp

theorem survey_cond (T : Ty) (p y n : Sketch γ) : survey F above (.cond T p y n) =
    F false above (.cond T p y n) ++
      (survey F above p ++ (survey F above y ++ survey F above n)) := by
  have hp := flatMap_part F above (t := .cond T p y n) (s := .pred) rfl (by decide)
  have hy := flatMap_part F above (t := .cond T p y n) (s := .yes) rfl (by decide)
  have hn := flatMap_part F above (t := .cond T p y n) (s := .no) rfl (by decide)
  rw [survey, places, List.flatMap_cons, List.flatMap_append, List.flatMap_append, hp, hy, hn]
  simp

theorem survey_letIn (T : Ty) (x v b : Sketch γ) : survey F above (.letIn T x v b) =
    F false above (.letIn T x v b) ++
      (survey (fun _ => F true) above x ++
        (survey F above v ++ survey F (above ++ [.letIn T x v b]) b)) := by
  have hx := flatMap_binder F above (t := .letIn T x v b) rfl
  have hv := flatMap_part F above (t := .letIn T x v b) (s := .value) rfl (by decide)
  have hb := flatMap_part F above (t := .letIn T x v b) (s := .inside) rfl (by decide)
  rw [survey, places, List.flatMap_cons, List.flatMap_append, List.flatMap_append, hx, hv, hb]
  simp

end Survey

/-! ### Walks that leave binders out -/

/-- Asks `G` of a node unless it belongs to a binder. -/
def outside (G : List (Sketch γ) → Sketch γ → List β) (inBinder : Bool) (nodes : List (Sketch γ))
    (node : Sketch γ) : List β :=
  if inBinder then [] else G nodes node

section Outside

variable (G : List (Sketch γ) → Sketch γ → List β) (above : List (Sketch γ))

theorem survey_outside_binder (x : Sketch γ) : survey (fun _ => outside G true) above x = [] := by
  unfold survey
  rw [List.flatMap_eq_nil_iff]
  intro p _
  cases x.at? p <;> rfl

theorem survey_outside (t : Sketch γ) :
    survey (outside G) above t =
      t.visits.flatMap fun p => (t.at? p).elim [] (G (above ++ t.around p)) := by
  unfold survey visits
  induction t.places with
  | nil => rfl
  | cons p ps ih =>
    rw [List.flatMap_cons, ih]
    by_cases hp : Part.binder ∈ p
    · cases hnode : t.at? p <;> simp [hp, outside]
    · cases hnode : t.at? p <;> simp [hp, hnode, outside]

theorem mem_survey_outside {t : Sketch γ} {b : β} : b ∈ survey (outside G) above t ↔
    ∃ p node, t.at? p = some node ∧ Part.binder ∉ p ∧ b ∈ G (above ++ t.around p) node := by
  rw [survey_outside, List.mem_flatMap]
  constructor
  · rintro ⟨p, hp, hb⟩
    obtain ⟨hplace, hbinder⟩ := List.mem_filter.1 hp
    obtain ⟨node, hnode⟩ := mem_places.1 hplace
    rw [hnode] at hb
    exact ⟨p, node, hnode, by simpa using hbinder, hb⟩
  · rintro ⟨p, node, hnode, hbinder, hb⟩
    refine ⟨p, List.mem_filter.2 ⟨mem_places.2 ⟨node, hnode⟩, by simpa using hbinder⟩, ?_⟩
    rw [hnode]
    exact hb

end Outside

/-! ### Scopes along a walk -/

theorem find?_bindIn (scope : Scope) (x : Sketch γ) (b : Option Ty) (y : String) :
    (x.bindIn scope b).find? y = if x.name? = some y then some b else scope.find? y := by
  unfold bindIn
  cases x.name? with
  | none => simp
  | some z => simp [Env.find?_extend, eq_comm]

theorem typeOf?_bindIn (scope : Scope) (x : Sketch γ) (b : Option Ty) (y : String) :
    (x.bindIn scope b).typeOf? y = if x.name? = some y then b else scope.typeOf? y := by
  unfold Scope.typeOf?
  rw [find?_bindIn]
  split <;> rfl

end Sketch

end Monotype
