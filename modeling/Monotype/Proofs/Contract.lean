import Monotype.Proofs.Places
import Monotype.Proofs.Labelling

/-! The contract between binders and uses by place. The check walks a term with a scope; the
contract itself is about the places of uses alone. A use whose innermost binder is a function
carries the type of the parameter. A use whose innermost binder is a declaration carries the type of
no parameter around it, hidden ones included. A use that nothing binds carries any type. Only
binders that are names bind, and binders are not looked into. -/
namespace Monotype

namespace Sketch

variable {γ : Type}

/-- The type of the parameter, of a node that is a function. -/
def paramType? : Sketch γ → Option Ty
  | .fn _ x _ => some x.type
  | _ => none

/-- A use of a name, with the nodes that have it inside. -/
structure Use (γ : Type) where
  around : List (Sketch γ)
  type : Ty
  name : String

/-- What the contract asks of a use. -/
structure Use.Honours (u : Use γ) : Prop where
  param : ∀ T x b, innermost? (binds u.name) u.around = some (.fn T x b) → u.type = x.type
  decl : ∀ T x v b, innermost? (binds u.name) u.around = some (.letIn T x v b) →
    ∀ T' P y b', .fn T' (.ident P y) b' ∈ u.around → u.type ≠ P

/-- All uses keep the contract. -/
def KeepsContract (t : Sketch γ) : Prop :=
  ∀ p T x, t.at? p = some (.ident T x) → Part.binder ∉ p → Use.Honours ⟨t.around p, T, x⟩

/-! ### Scopes that say what is around -/

/-- The scope binds a name as the innermost of the nodes that bind it does, and has the types of all
parameters that are names. -/
structure Mirrors (nodes : List (Sketch γ)) (scope : Scope) : Prop where
  find? : ∀ x, scope.find? x = (innermost? (binds x) nodes).map paramType?
  mem_types : ∀ P, P ∈ scope.types ↔ ∃ T y b, .fn T (.ident P y) b ∈ nodes

theorem mirrors_empty : Mirrors ([] : List (Sketch γ)) .empty where
  find? _ := rfl
  mem_types P := by simp [Scope.types, Env.empty, Env.values, OrderedMap.empty, OrderedMap.values]

namespace Mirrors

variable {nodes : List (Sketch γ)} {scope : Scope} (h : Mirrors nodes scope)
include h

theorem typeOf? (x : String) :
    scope.typeOf? x = (innermost? (binds x) nodes).bind paramType? := by
  rw [Scope.typeOf?, h.find?]
  cases innermost? (binds x) nodes <;> rfl

/-- Below a function. -/
theorem fn (T : Ty) (x b : Sketch γ) :
    Mirrors (nodes ++ [.fn T x b]) (x.bindIn scope (some x.type)) where
  find? y := by
    rw [find?_bindIn, innermost?_snoc, h.find?]
    by_cases hx : x.name? = some y <;> simp [binds, part?, hx, paramType?]
  mem_types P := by
    have hold := h.mem_types P
    cases x with
    | ident U y =>
      change P ∈ Scope.types (scope.extend y (some U)) ↔ _
      rw [Scope.types_extend_some, List.mem_cons, hold]
      simp only [List.mem_append, List.mem_singleton, fn.injEq, ident.injEq]
      grind
    | _ => simpa [bindIn, name?] using hold

/-- Below a declaration. -/
theorem letIn (T : Ty) (x v b : Sketch γ) :
    Mirrors (nodes ++ [.letIn T x v b]) (x.bindIn scope none) where
  find? y := by
    rw [find?_bindIn, innermost?_snoc, h.find?]
    by_cases hx : x.name? = some y <;> simp [binds, part?, hx, paramType?]
  mem_types P := by
    have hold := h.mem_types P
    have htypes : (x.bindIn scope none).types = scope.types := by cases x <;> rfl
    rw [htypes, hold]
    simp

/-- The scope permits what the contract does. -/
theorem permits_iff (x : String) (type : Ty) :
    scope.permits x type = true ↔ Use.Honours ⟨nodes, type, x⟩ := by
  unfold Scope.permits
  rw [h.find?]
  cases hbinder : innermost? (binds x) nodes with
  | none =>
    simp only [Option.map_none, true_iff]
    exact ⟨fun T y b hb => by simp [hbinder] at hb, fun T y v b hb => by simp [hbinder] at hb⟩
  | some binder =>
    have hbinds := (innermost?_eq_some hbinder).2
    cases binder with
    | fn T y b =>
      simp only [Option.map_some, paramType?, decide_eq_true_eq]
      constructor
      · intro htype
        refine ⟨fun T' y' b' hb => ?_, fun T' y' v' b' hb => ?_⟩
        · simp only [hbinder, Option.some.injEq, Sketch.fn.injEq] at hb
          rw [htype, hb.2.1]
        · simp [hbinder] at hb
      · intro hhonours
        exact hhonours.param T y b hbinder
    | letIn T y v b =>
      simp only [Option.map_some, paramType?, Bool.not_eq_true', List.contains_eq_mem,
        decide_eq_false_iff_not, h.mem_types]
      constructor
      · intro htypes
        refine ⟨fun T' y' b' hb => by simp [hbinder] at hb, ?_⟩
        rintro T' y' v' b' - U P z c hfn rfl
        exact htypes ⟨U, z, c, hfn⟩
      · rintro hhonours ⟨U, z, c, hfn⟩
        exact hhonours.decl T y v b hbinder U type z c hfn rfl
    -- No other node has a binder.
    | _ => simp [binds, part?] at hbinds

end Mirrors

/-! ### The check -/

/-- A node that is a name is a use of it. -/
def uses (nodes : List (Sketch γ)) : Sketch γ → List (Use γ)
  | .ident T x => [⟨nodes, T, x⟩]
  | _ => []

theorem keepsContract_iff {t : Sketch γ} :
    t.KeepsContract ↔ ∀ u ∈ survey (outside uses) [] t, u.Honours := by
  constructor
  · intro h u hu
    obtain ⟨p, node, hnode, hp, hu⟩ := (mem_survey_outside uses []).1 hu
    cases node with
    | ident T x =>
      rw [List.mem_singleton.1 hu]
      exact h p T x hnode hp
    | _ => simp [uses] at hu
  · intro h p T x hnode hp
    exact h _ ((mem_survey_outside uses []).2 ⟨p, _, hnode, hp, List.mem_singleton_self _⟩)

/-- The check has an answer, and it is positive when all uses keep the contract. -/
theorem aliased?_spec {scope : Scope} {above : List Term} (h : Mirrors above scope) (t : Term) :
    ∃ ok, t.aliased? scope = some ok ∧
      (ok = true ↔ ∀ u ∈ survey (outside uses) above t, u.Honours) := by
  induction t generalizing scope above with
  | int T n => exact ⟨true, rfl, by simp [survey_int, outside, uses]⟩
  | ident T x =>
    refine ⟨scope.permits x T, rfl, ?_⟩
    rw [survey_ident, h.permits_iff]
    simp [outside, uses]
  | app T f a ihf iha =>
    obtain ⟨okf, hf, hokf⟩ := ihf h
    obtain ⟨oka, ha, hoka⟩ := iha h
    -- The argument is not checked when the function is refused, but it has an answer all the same.
    refine ⟨okf && oka, ?_, ?_⟩
    · cases okf <;> simp [aliased?, hf, ha]
    · rw [survey_app, Bool.and_eq_true, hokf, hoka]
      simp [outside, uses, or_imp, forall_and]
  | fn T x b _ ihb =>
    obtain ⟨okb, hb, hokb⟩ := ihb (h.fn T x b)
    refine ⟨okb, hb, ?_⟩
    rw [survey_fn, survey_outside_binder, hokb]
    simp [outside, uses]
  | cond T p y n ihp ihy ihn =>
    obtain ⟨okp, hp, hokp⟩ := ihp h
    obtain ⟨oky, hy, hoky⟩ := ihy h
    obtain ⟨okn, hn, hokn⟩ := ihn h
    refine ⟨okp && (oky && okn), ?_, ?_⟩
    · cases okp <;> cases oky <;> simp [aliased?, hp, hy, hn]
    · rw [survey_cond, Bool.and_eq_true, Bool.and_eq_true, hokp, hoky, hokn]
      simp [outside, uses, or_imp, forall_and]
  | letIn T x v b _ ihv ihb =>
    obtain ⟨okv, hv, hokv⟩ := ihv h
    obtain ⟨okb, hb, hokb⟩ := ihb (h.letIn T x v b)
    refine ⟨okv && okb, ?_, ?_⟩
    · cases okv <;> simp [aliased?, hv, hb]
    · rw [survey_letIn, survey_outside_binder, Bool.and_eq_true, hokv, hokb]
      simp [outside, uses, or_imp, forall_and]
  | unknown T mark => exact mark.elim

theorem exists_aliased? (t : Term) :
    ∃ ok, t.aliased? .empty = some ok ∧ (ok = true ↔ t.KeepsContract) := by
  rw [keepsContract_iff]
  exact aliased?_spec mirrors_empty t

/-- The check accepts the terms that keep the contract, and refuses all others. -/
theorem aliased?_iff_keepsContract (t : Term) :
    (t.aliased? .empty = some true ↔ t.KeepsContract) ∧
      (t.aliased? .empty = some false ↔ ¬t.KeepsContract) := by
  obtain ⟨ok, hok, hiff⟩ := exists_aliased? t
  rw [hok, ← hiff]
  cases ok <;> simp

end Sketch

end Monotype
