import Monotype.Proofs.Contract

/-! What annotation makes of an expression. The term is the expression again when its types are
dropped. A use that a function captures carries the type of the parameter; all other nodes, listed
in pre-order together with the parameters and the declared names, carry the variables from the first
on, in order and each once. An annotator that takes the variables one by one, and enters and leaves
the scopes of binders on its way, makes the same term and ends in the scope that it began in. -/
namespace Monotype

/-! ### Dropping types -/

namespace Sketch

variable {γ : Type}

/-- The expression that is left without types, where all binders are names. -/
def erase? : Sketch γ → Option Expr
  | .int _ n => some (.const n)
  | .ident _ x => some (.ident x)
  | .app _ f a => do
    let f ← f.erase?
    let a ← a.erase?
    some (.call f a)
  | .fn _ x b => do
    let x ← x.name?
    let b ← b.erase?
    some (.lambda x b)
  | .cond _ p y n => do
    let p ← p.erase?
    let y ← y.erase?
    let n ← n.erase?
    some (.cond p y n)
  | .letIn _ x v b => do
    let x ← x.name?
    let v ← v.erase?
    let b ← b.erase?
    some (.letIn x v b)
  | .unknown _ _ => none

end Sketch

theorem Expr.erase?_label (scope : Scope) (n : Nat) (e : Expr) :
    (e.label scope n).1.erase? = some e := by
  induction e generalizing scope n with
  | ident x =>
    cases hx : scope.typeOf? x with
    | some t => rw [label_ident_some hx, Sketch.erase?]
    | none => rw [label_ident_none hx, Sketch.erase?]
  | const value => rfl
  | lambda x b ih => simp [label, Sketch.erase?, Sketch.name?, ih]
  | call f a ihf iha => simp [label, Sketch.erase?, ihf, iha]
  | cond p y e ihp ihy ihe => simp [label, Sketch.erase?, ihp, ihy, ihe]
  | letIn x v b ihv ihb => simp [label, Sketch.erase?, Sketch.name?, ihv, ihb]

/-! ### Captured uses -/

namespace Sketch

variable {γ : Type}

/-- The innermost binder of the name that is used at a place. Binders are no uses. -/
def binderOf? (t : Sketch γ) (p : Place) : Option (Sketch γ) :=
  if Part.binder ∈ p then none else
    match t.at? p with
    | some (.ident _ x) => innermost? (binds x) (t.around p)
    | _ => none

/-- Whether a place is that of a use whose innermost binder is a function. -/
def captured (t : Sketch γ) (p : Place) : Bool := ((t.binderOf? p).bind paramType?).isSome

/-- The types of all nodes but the captured uses. -/
def typeUnlessCaptured (inBinder : Bool) (nodes : List (Sketch γ)) : Sketch γ → List Ty
  | .ident T x =>
    if !inBinder && ((innermost? (binds x) nodes).bind paramType?).isSome then [] else [T]
  | node => [node.type]

theorem typeUnlessCaptured_eq {t node : Sketch γ} {p : Place} (h : t.at? p = some node) :
    typeUnlessCaptured (decide (Part.binder ∈ p)) (t.around p) node =
      if t.captured p then [] else [node.type] := by
  unfold captured binderOf?
  by_cases hp : Part.binder ∈ p
  · cases node <;> simp [typeUnlessCaptured, type, hp]
  · cases node <;> simp [typeUnlessCaptured, type, hp, h]

/-- Listing the types by a walk, and listing the places before the types. -/
theorem map_some_survey_typeUnlessCaptured (t : Sketch γ) :
    (survey typeUnlessCaptured [] t).map some =
      (t.places.filter fun p => !t.captured p).map fun p => (t.at? p).map type := by
  have hplaces : ∀ p ∈ t.places, ∃ node, t.at? p = some node := fun p => mem_places.1
  unfold survey
  generalize t.places = ps at hplaces
  induction ps with
  | nil => rfl
  | cons p ps ih =>
    obtain ⟨node, hnode⟩ := hplaces p (by simp)
    rw [List.flatMap_cons, List.map_append, ih fun q hq => hplaces q (by simp [hq]), hnode,
      Option.elim_some, List.nil_append, typeUnlessCaptured_eq hnode, List.filter_cons]
    cases t.captured p <;> simp [hnode]

end Sketch

/-! ### Numbers in a row -/

theorem numbersFrom_add (start : Int) (m n : Nat) :
    numbersFrom start (m + n) = numbersFrom start m ++ numbersFrom (start + m) n := by
  simp only [numbersFrom, List.range_add, List.map_append, List.map_map]
  congr 1
  refine List.map_congr_left fun i _ => ?_
  simp only [Function.comp_apply]
  omega

/-- The variables that come after the first `n`, up to the `m`-th. -/
def Row (n m : Nat) (ts : List Ty) : Prop := ∃ k, m = n + k ∧ ts = (numbersFrom (n + 1) k).map .var

theorem row_nil (n : Nat) : Row n n [] := ⟨0, rfl, rfl⟩

theorem row_one (n : Nat) : Row n (n + 1) [.var (n + 1)] := ⟨1, rfl, by simp [numbersFrom]⟩

theorem Row.append {n m l : Nat} {ts us : List Ty} (ht : Row n m ts) (hu : Row m l us) :
    Row n l (ts ++ us) := by
  obtain ⟨k, rfl, rfl⟩ := ht
  obtain ⟨j, rfl, rfl⟩ := hu
  have hstart : ((n + k : Nat) : Int) + 1 = n + 1 + k := by omega
  exact ⟨k + j, by omega, by rw [numbersFrom_add, List.map_append, hstart]⟩

theorem row_two (n : Nat) : Row n (n + 2) [.var (n + 1), .var (n + 2)] := by
  have h := (row_one n).append (row_one (n + 1))
  have hsucc : ((n + 1 : Nat) : Int) + 1 = n + 2 := by omega
  rwa [hsucc] at h

namespace Expr

open Sketch

/-- Annotation after `n` variables hands out the variables that follow, in pre-order. -/
theorem row_label {scope : Scope} {above : List Term} (h : Mirrors above scope) (n : Nat)
    (e : Expr) :
    Row n (e.label scope n).2 (survey typeUnlessCaptured above (e.label scope n).1) := by
  induction e generalizing scope above n with
  | ident x =>
    have hbinder := h.typeOf? x
    cases hx : scope.typeOf? x with
    -- A name in scope with a type is one that a function around it captures.
    | some t =>
      rw [hx] at hbinder
      rw [label_ident_some hx, survey_ident]
      simpa [typeUnlessCaptured, ← hbinder] using row_nil n
    | none =>
      rw [hx] at hbinder
      rw [label_ident_none hx, survey_ident]
      simpa [typeUnlessCaptured, ← hbinder] using row_one n
  | const value =>
    rw [label, survey_int]
    exact row_one n
  | lambda x b ih =>
    have hb := ih (h.fn (.var (n + 1)) (.ident (.var (n + 2)) x)
      (b.label (scope.extend x (some (.var (n + 2)))) (n + 2)).1) (n + 2)
    simp only [label]
    rw [survey_fn, survey_ident]
    exact (row_two n).append hb
  | call f a ihf iha =>
    have hf := ihf h (n + 1)
    have ha := iha h (f.label scope (n + 1)).2
    simp only [label]
    rw [survey_app]
    exact (row_one n).append (hf.append ha)
  | cond p y e ihp ihy ihe =>
    have hp := ihp h (n + 1)
    have hy := ihy h (p.label scope (n + 1)).2
    have he := ihe h (y.label scope (p.label scope (n + 1)).2).2
    simp only [label]
    rw [survey_cond]
    exact (row_one n).append (hp.append (hy.append he))
  | letIn x v b ihv ihb =>
    have hv := ihv h (n + 2)
    have hb := ihb (h.letIn (.var (n + 1)) (.ident (.var (n + 2)) x) (v.label scope (n + 2)).1
      (b.label (scope.extend x none) (v.label scope (n + 2)).2).1) (v.label scope (n + 2)).2
    simp only [label]
    rw [survey_letIn, survey_ident]
    exact (row_two n).append (hv.append hb)

/-! ### Annotation step by step -/

/-- Every scope that is entered is left again. -/
theorem walk_eq (e : Expr) (a : Annotator) :
    e.walk a = ((e.label a.scope a.minted).1, ⟨(e.label a.scope a.minted).2, a.scope⟩) := by
  have hsucc : ∀ n : Nat, ((n + 1 : Nat) : Int) + 1 = n + 2 := by omega
  induction e generalizing a with
  | ident x =>
    cases hx : a.scope.typeOf? x with
    | some t => simp only [walk, hx, label]
    | none => simp only [walk, hx, label, Annotator.fresh]
  | const value => rfl
  | lambda x b ih =>
    simp only [walk, ih, label, Annotator.fresh, Annotator.enter, Annotator.leave, hsucc]
    rfl
  | call f arg ihf iharg => simp only [walk, ihf, iharg, label, Annotator.fresh]
  | cond p y e ihp ihy ihe => simp only [walk, ihp, ihy, ihe, label, Annotator.fresh]
  | letIn x v b ihv ihb =>
    simp only [walk, ihv, ihb, label, Annotator.fresh, Annotator.enter, Annotator.leave, hsucc]
    rfl

/-! ### The labelling -/

/-- The term is the expression with its nodes numbered in pre-order, up to the variable `n`. -/
structure Numbered (e : Expr) (t : Term) (n : Nat) : Prop where
  /-- Without its types, the term is the expression. -/
  erases : t.erase? = some e
  /-- A use that a function captures carries the type of the parameter. -/
  captured : ∀ p T x b, t.binderOf? p = some (.fn T x b) → (t.at? p).map type = some x.type
  /-- The other nodes, parameters and declared names among them, carry the variables in order. -/
  preorder : ((t.places.filter fun p => !t.captured p).map fun p => (t.at? p).map type) =
    (numbersFrom 1 n).map fun i => some (.var i)

theorem keepsContract_label (e : Expr) : (e.label .empty 0).1.KeepsContract := by
  obtain ⟨ok, hok, hiff⟩ := exists_aliased? (e.label .empty 0).1
  rw [aliased?_label (Scope.below_empty 0)] at hok
  exact hiff.1 (Option.some.inj hok).symm

theorem numbered_label (e : Expr) :
    e.Numbered (e.label .empty 0).1 (e.label .empty 0).2 := by
  have hcontract := keepsContract_label e
  refine ⟨erase?_label .empty 0 e, fun p T x b hbinder => ?_, ?_⟩
  · unfold binderOf? at hbinder
    split at hbinder
    · cases hbinder
    · rename_i hp
      split at hbinder
      · rename_i U y hnode
        rw [hnode, Option.map_some, ← (hcontract p U y hnode hp).param T x b hbinder]
        rfl
      · cases hbinder
  · obtain ⟨k, hk, hrow⟩ := row_label mirrors_empty 0 e
    rw [← map_some_survey_typeUnlessCaptured, hrow, hk, List.map_map, Nat.zero_add]
    rfl

/-- Annotation numbers the nodes of an expression in pre-order. It never refuses its own term; an
annotator hands out as many variables as are needed for this, and ends in the scope that it began
in. -/
theorem annotate_numbered (e : Expr) :
    e.annotateChecked = .ok (Annotator.initial.annotate e).1 ∧
      e.Numbered (Annotator.initial.annotate e).1 (Annotator.initial.annotate e).2.minted ∧
      ∀ a : Annotator, e.walk a = a.annotate e ∧ (e.walk a).2.scope = a.scope := by
  refine ⟨?_, numbered_label e, fun a => ?_⟩
  · have h : (Annotator.initial.annotate e).1.aliased? .empty = some true :=
      aliased?_label (Scope.below_empty 0) e
    simp only [annotateChecked, h, if_true]
  · rw [walk_eq]
    exact ⟨rfl, rfl⟩

-- The declared name hides the parameter in the expression, but not in the value.
example : let t := (lambda "x" (letIn "x" (ident "x") (ident "x"))).annotate
    t.places.filter t.captured = [[.inside, .value]] := by decide

end Expr

end Monotype
