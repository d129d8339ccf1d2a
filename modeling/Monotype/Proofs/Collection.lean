import Monotype.Proofs.Places
import Monotype.Proofs.Typing

/-! The equations of a term by place. Every node that is not part of a binder contributes its own
equations, in pre-order. What a use contributes depends on its place alone: it has the type of the
innermost declaration of its name that has it inside, or else that of the operator of its name.
Functions around the use do not come between, and the value of a declaration is not inside of it. -/
namespace Monotype

namespace Sketch

variable {γ : Type}

/-- Whether a node declares a name inside. -/
def declares (x : String) : Sketch γ → Bool
  | .letIn _ name _ _ => name.name? == some x
  | _ => false

/-- The type that a name has inside of the given nodes: that of its innermost declaration, or else
that of the operator. -/
def resolve (nodes : List (Sketch γ)) (x : String) : Option Ty :=
  match innermost? (declares x) nodes with
  | some d => (d.part? .binder).map type
  | none => operatorTypes x

theorem resolve_fn (nodes : List (Sketch γ)) (T : Ty) (x b : Sketch γ) :
    resolve (nodes ++ [.fn T x b]) = resolve nodes := by
  funext y
  unfold resolve
  rw [innermost?_snoc]
  rfl

theorem resolve_letIn (nodes : List (Sketch γ)) (T : Ty) (x v b : Sketch γ) (y : String) :
    resolve (nodes ++ [.letIn T x v b]) y =
      if x.name? = some y then some x.type else resolve nodes y := by
  unfold resolve
  rw [innermost?_snoc]
  by_cases hx : x.name? = some y
  · simp [declares, hx, part?]
  · simp [declares, hx]

end Sketch

theorem Scope.typeOf?_builtin : Scope.builtin.typeOf? = operatorTypes := by
  rw [← Scope.declared_builtin .var]
  funext x
  have hid : Ty.subst .var = id := funext Ty.subst_var_eq_self
  rw [Scope.declared, hid, Option.map_id, id]

namespace Term

open Sketch

/-- The equations that a node has by itself, where names have the types that `typeOf?` gives. -/
def equations (typeOf? : String → Option Ty) : Term → List Equation
  | .int T _ => [⟨T, .int⟩]
  | .ident T x => (typeOf? x).toList.map fun bound => ⟨T, bound⟩
  | .app T f a => [⟨f.type, .fn a.type T⟩]
  | .fn T x b => [⟨T, .fn x.type b.type⟩]
  | .cond T p y n => [⟨T, y.type⟩, ⟨T, n.type⟩, ⟨p.type, .bool⟩, ⟨y.type, n.type⟩]
  | .letIn T x v b => [⟨T, b.type⟩, ⟨x.type, v.type⟩]

/-- The constraints that a node contributes inside of the given nodes. -/
def contribution (nodes : List Term) (node : Term) : List Constraint :=
  (node.equations (resolve nodes)).map fun e => ⟨e, some node⟩

/-- A walk whose scope says of names what the nodes around it say collects what the nodes
contribute. -/
theorem constraints_eq_survey {scope : Scope} (above : List Term)
    (h : scope.typeOf? = resolve above) (t : Term) :
    t.constraints scope = survey (outside contribution) above t := by
  induction t generalizing scope above with
  | int T n =>
    rw [survey_int]
    rfl
  | ident T x =>
    rw [survey_ident, constraints, h]
    cases hx : resolve above x <;> simp [outside, contribution, equations, hx]
  | app T f a ihf iha =>
    rw [survey_app, constraints, ihf above h, iha above h]
    rfl
  | fn T x b _ ihb =>
    have hb : scope.typeOf? = resolve (above ++ [.fn T x b]) := by rw [h, resolve_fn]
    rw [survey_fn, survey_outside_binder, constraints, ihb _ hb]
    rfl
  | cond T p y n ihp ihy ihn =>
    rw [survey_cond, constraints, ihp above h, ihy above h, ihn above h]
    rfl
  | letIn T x v b _ ihv ihb =>
    -- Only here does the scope change, and only for the expression: the value keeps the old one.
    have hb : (x.bindIn scope (some x.type)).typeOf? = resolve (above ++ [.letIn T x v b]) := by
      funext y
      rw [typeOf?_bindIn, resolve_letIn, h]
    rw [survey_letIn, survey_outside_binder, constraints, ihv above h, ihb _ hb]
    rfl
  | unknown T mark => exact mark.elim

/-- The constraints of a term are those that its nodes contribute at their places, in pre-order. -/
theorem constraints_eq_flatMap_visits (t : Term) :
    t.constraints .builtin =
      t.visits.flatMap fun p => (t.at? p).elim [] (contribution (t.around p)) := by
  rw [constraints_eq_survey [] Scope.typeOf?_builtin, survey_outside]
  rfl

end Term

end Monotype
