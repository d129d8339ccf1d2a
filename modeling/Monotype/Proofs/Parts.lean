import Monotype.Proofs.Declarations

/-! Parts of an expression that has a type. A part that stands by itself has lost what is bound
around it: its free names may have any type, and differently at every use. So it has a type as well,
of which the type that it has in its place is an instance. Only the operators keep their types, and
for this no declaration around the part may have the name of one. -/
namespace Monotype

open Source
open Unifier (Keeps)

/-! ### Fewer bindings -/

/-- Whatever the first context gives to a name, the second gives to it too. -/
def Within {β : Type} (f g : String → Option β) : Prop := ∀ x b, f x = some b → g x = some b

theorem Within.update {β : Type} {f g : String → Option β} (h : Within f g) (x : String)
    (b : Option β) : Within (Function.update f x b) (Function.update g x b) := by
  intro y c hy
  by_cases hyx : y = x
  · subst hyx
    simpa using hy
  · rw [Function.update_of_ne hyx] at hy ⊢
    exact h y c hy

/-- What is typed remains so with fewer bindings, which only constrain the types of uses. -/
theorem HasType.within {G G' : Globals} {D D' : Binders} {e : Expr} {t : Ty}
    (h : HasType G D e t) (hG : Within G' G) (hD : Within D' D) : HasType G' D' e t := by
  induction h generalizing G' D' with
  | const value => exact .const value
  | ident hparam hdecl =>
    exact .ident (fun p hp => hparam p (hD _ _ hp)) fun u hu => hdecl u (hG _ _ hu)
  | lambda _ ih => exact .lambda (ih hG (hD.update _ _))
  | call _ _ ihf iha => exact .call (ihf hG hD) (iha hG hD)
  | cond _ _ _ ihp ihy ihn => exact .cond (ihp hG hD) (ihy hG hD) (ihn hG hD)
  | letIn _ _ ihv ihb => exact .letIn (ihv hG hD) (ihb (hG.update _ _) (hD.update _ _))

/-! ### The node of a part -/

namespace Context

/-- The node of an annotated expression that stands at the hole. -/
def node? : Context → Term → Option Term
  | .hole, t => some t
  | .lambda _ b, .fn _ _ t => b.node? t
  | .fn f _, .app _ t _ => f.node? t
  | .arg _ a, .app _ _ t => a.node? t
  | .pred p _ _, .cond _ t _ _ => p.node? t
  | .yes _ y _, .cond _ _ t _ => y.node? t
  | .no _ _ n, .cond _ _ _ t => n.node? t
  | .value _ v _, .letIn _ _ t _ => v.node? t
  | .body _ _ b, .letIn _ _ _ t => b.node? t
  | _, _ => none

/-- The node at the hole is the part as it is annotated after `m` variables. What keeps the
equations of the whole keeps those of the node. Names that are not declared around the hole have the
same types there. -/
structure Locates (C : Context) (e : Expr) (globals : Scope) (whole : Term) (scope globals' : Scope)
    (m : Nat) : Prop where
  node : C.node? whole = some (e.label scope m).1
  keeps : ∀ s, Keeps s (whole.constraints globals) →
    Keeps s ((e.label scope m).1.constraints globals')
  declared : ∀ x ∉ C.declared, globals'.typeOf? x = globals.typeOf? x

/-- What locates a part in a node locates it in the node around, which has the equations of the
node inside and declares nothing for it. -/
theorem Locates.outward {C C' : Context} {e : Expr} {globals : Scope} {part whole : Term}
    {scope globals' : Scope} {m : Nat} (h : C.Locates e globals part scope globals' m)
    (hnode : C'.node? whole = C.node? part) (hdeclared : C'.declared = C.declared)
    (hkeeps : ∀ s, Keeps s (whole.constraints globals) → Keeps s (part.constraints globals)) :
    C'.Locates e globals whole scope globals' m where
  node := hnode.trans h.node
  keeps s hs := h.keeps s (hkeeps s hs)
  declared x hx := h.declared x (hdeclared ▸ hx)

theorem exists_locates (C : Context) (e : Expr) (scope globals : Scope) (n : Nat) :
    ∃ scope' globals' m,
      C.Locates e globals ((C.fill e).label scope n).1 scope' globals' m := by
  induction C generalizing scope globals n with
  | hole => exact ⟨scope, globals, n, rfl, fun _ h => h, fun _ _ => rfl⟩
  | lambda x b ih =>
    obtain ⟨scope', globals', m, h⟩ := ih (scope.extend x (some (.var (n + 2)))) globals (n + 2)
    exact ⟨scope', globals', m, h.outward rfl rfl fun s hs =>
      ((Expr.keeps_lambda s scope globals n x _).1 hs).2⟩
  | fn f a ih =>
    obtain ⟨scope', globals', m, h⟩ := ih scope globals (n + 1)
    exact ⟨scope', globals', m, h.outward rfl rfl fun s hs =>
      ((Expr.keeps_call s scope globals n _ a).1 hs).2.1⟩
  | arg f a ih =>
    obtain ⟨scope', globals', m, h⟩ := ih scope globals (f.label scope (n + 1)).2
    exact ⟨scope', globals', m, h.outward rfl rfl fun s hs =>
      ((Expr.keeps_call s scope globals n f _).1 hs).2.2⟩
  | pred p y no ih =>
    obtain ⟨scope', globals', m, h⟩ := ih scope globals (n + 1)
    exact ⟨scope', globals', m, h.outward rfl rfl fun s hs =>
      ((Expr.keeps_cond s scope globals n _ y no).1 hs).2.1⟩
  | yes p y no ih =>
    obtain ⟨scope', globals', m, h⟩ := ih scope globals (p.label scope (n + 1)).2
    exact ⟨scope', globals', m, h.outward rfl rfl fun s hs =>
      ((Expr.keeps_cond s scope globals n p _ no).1 hs).2.2.1⟩
  | no p y no ih =>
    obtain ⟨scope', globals', m, h⟩ :=
      ih scope globals (y.label scope (p.label scope (n + 1)).2).2
    exact ⟨scope', globals', m, h.outward rfl rfl fun s hs =>
      ((Expr.keeps_cond s scope globals n p y _).1 hs).2.2.2⟩
  | value x v b ih =>
    obtain ⟨scope', globals', m, h⟩ := ih scope globals (n + 2)
    exact ⟨scope', globals', m, h.outward rfl rfl fun s hs =>
      ((Expr.keeps_letIn s scope globals n x _ b).1 hs).2.1⟩
  | body x v b ih =>
    -- Only here do the types of names change on the way to the hole, and only that of `x`.
    obtain ⟨scope', globals', m, h⟩ := ih (scope.extend x none)
      (globals.extend x (some (.var (n + 2)))) (v.label scope (n + 2)).2
    refine ⟨scope', globals', m, h.node, fun s hs => h.keeps s ?_, fun y hy => ?_⟩
    · exact ((Expr.keeps_letIn s scope globals n x v _).1 hs).2.2
    · obtain ⟨hyx, hyb⟩ : y ≠ x ∧ y ∉ b.declared := by simpa [declared] using hy
      rw [h.declared y hyb, Scope.typeOf?_extend, if_neg hyx]

theorem declared_subset_declarations (C : Context) (e : Expr) :
    C.declared ⊆ (C.fill e).declarations := by
  induction C <;> simp only [declared, fill, Expr.declarations] <;> grind

/-- The type of the node at the hole is one that the part has by itself. -/
theorem hasType_of_locates {C : Context} {e : Expr} {whole : Term} {scope globals : Scope}
    {m : Nat} (h : C.Locates e .builtin whole scope globals m)
    (hC : ∀ x ∈ C.declared, x ∉ operators) {s : Int → Ty}
    (hs : Keeps s (whole.constraints .builtin)) :
    HasType operatorTypes (fun _ => none) e ((e.label scope m).1.type.subst s) := by
  refine (Expr.hasType_of_keeps e (h.keeps s hs)).within (fun x u hx => ?_) (by simp [Within])
  rw [← Scope.declared_builtin s] at hx
  have hop : x ∈ operators := by
    by_contra hno
    simp [Scope.declared_builtin, operatorTypes, hno] at hx
  rw [Scope.declared, h.declared x fun hmem => hC x hmem hop]
  exact hx

end Context

/-! ### Reading nodes -/

theorem looked_infer (e : Expr) : Forest.Looked e.solution.unifier (infer e).unifier := by
  have hu : Unifier.Consistent e.solution.unifier := Unifier.consistent_empty.solve _
  obtain ⟨σ, hσ⟩ := hu.solvable
  simp only [infer, inferWith]
  split
  · exact .refl hu.sound
  · exact (hu.concretize_spec hσ _).2.1

theorem verdict_of_infer_ok {e : Expr} {T : Ty} (h : (infer e).outcome = .ok T) :
    e.solution.verdict = .ok () := by
  rw [outcome_infer] at h
  cases hv : e.solution.verdict with
  | ok _ => rfl
  | error conflict =>
    rw [hv] at h
    cases h

/-- After inference, types are read with a substitution that keeps all equations. -/
theorem exists_reading_of_infer_ok {e : Expr} {T : Ty} (h : (infer e).outcome = .ok T) :
    ∃ σ, (∀ t, (Unifier.concretize (infer e).unifier t).1 = t.subst σ) ∧
      Keeps σ (e.annotate.constraints .builtin) := by
  have hlooked := looked_infer e
  have hu := (Unifier.consistent_empty.solve (e.annotate.constraints .builtin)).looked hlooked
  obtain ⟨σ, hread, hσ, -⟩ := hu.concretize_solution
  rw [Unifier.satisfies_iff, hlooked.rootOf, ← Unifier.satisfies_iff] at hσ
  have hkeeps := (Unifier.consistent_empty.satisfies_solve _ (verdict_of_infer_ok h) σ).1 hσ
  exact ⟨σ, hread, hkeeps.2⟩

/-- No text declares an operator. Where none is declared, the parts of an expression that has a type
have types by themselves, and the type that is read for a part in its place is an instance of the
type that is inferred for the part. -/
theorem infer_part :
    (∀ source e, parse source = .ok e → ∀ x ∈ e.declarations, x ∉ operators) ∧
      ∀ (C : Context) (e : Expr) (T : Ty), (∀ x ∈ (C.fill e).declarations, x ∉ operators) →
        (infer (C.fill e)).outcome = .ok T →
        ∃ S node s, (infer e).outcome = .ok S ∧ C.node? (infer (C.fill e)).term = some node ∧
          (Unifier.concretize (infer (C.fill e)).unifier node.type).1 = S.subst s := by
  refine ⟨fun source e h => notMem_operators_of_parse h, fun C e T hdecl hT => ?_⟩
  obtain ⟨σ, hread, hσ⟩ := exists_reading_of_infer_ok hT
  obtain ⟨scope, globals, m, h⟩ := C.exists_locates e .empty .builtin 0
  have hC : ∀ x ∈ C.declared, x ∉ operators := fun x hx =>
    hdecl x (C.declared_subset_declarations e hx)
  have htyped := Context.hasType_of_locates h hC hσ
  cases hS : (infer e).outcome with
  | error conflict => exact absurd htyped (not_hasType_of_infer_error hS _)
  | ok S =>
    obtain ⟨s, hs⟩ := (hasType_iff_of_infer_ok hS _).1 htyped
    refine ⟨S, (e.label scope m).1, s, rfl, ?_, ?_⟩
    · rw [term_infer]
      exact h.node
    · rw [hread, hs]

/-- A declared function from truth values to integers. -/
def Context.declaring : Context :=
  .body "f" (.lambda "x" (.cond (.ident "x") (.const 1) (.const 2))) .hole

/-- A function that applies another one, of which nothing is known here. -/
def Expr.applying : Expr := .lambda "y" (.call (.ident "f") (.ident "y"))

theorem infer_part_applying :
    (∀ x ∈ (Context.declaring.fill .applying).declarations, x ∉ operators) ∧
      (infer (Context.declaring.fill .applying)).outcome = .ok (.fn .bool .int) ∧
      (infer .applying).outcome = .ok (.fn (.var 2) (.var 3)) ∧
      ∃ S node s, (infer .applying).outcome = .ok S ∧
        Context.declaring.node? (infer (Context.declaring.fill .applying)).term = some node ∧
        (Unifier.concretize (infer (Context.declaring.fill .applying)).unifier node.type).1 =
          S.subst s :=
  have hdecl : ∀ x ∈ (Context.declaring.fill .applying).declarations, x ∉ operators := by decide
  have hT : (infer (Context.declaring.fill .applying)).outcome = .ok (.fn .bool .int) := by rfl
  ⟨hdecl, hT, rfl, infer_part.2 .declaring .applying (.fn .bool .int) hdecl hT⟩

end Monotype
