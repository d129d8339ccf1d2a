import Monotype.Proofs.Consistency

/-! Runs of a unifier: any operations in any order, from the empty unifier on, failed ones included.
Every state of a run is consistent. So in every state the representation is well formed, every
operation ends, and making two types equal computes a most general unifier of them and of all that
was made equal before. -/
namespace Monotype.Unifier

/-- One use of a unifier. -/
inductive Operation where
  | unify (a b : Ty)
  | solve (cs : List Constraint)
  | root (t : Ty)
  | add (t : Ty)
  | concretize (t : Ty)
  | occurs (v t : Ty)
  | sameSet (ts : List Ty)
  | sets

/-- The unifier that an operation leaves, whether it fails or not. -/
def Operation.run (u : Unifier) : Operation → Unifier
  | .unify a b => (Unifier.unify u a b).unifier
  | .solve cs => (Unifier.solve u cs).unifier
  | .root t => (u.root t).2
  | .add t => u.add t
  | .concretize t => (Unifier.concretize u t).2
  | .occurs v t => (Unifier.occurs u v t).2
  | .sameSet ts => (u.sameSet ts).2
  | .sets => u.sets.2

/-- The unifier after the operations, from the empty one on. -/
def after (ops : List Operation) : Unifier := ops.foldl Operation.run .empty

theorem Consistent.run {u : Unifier} (hu : Consistent u) (o : Operation) :
    Consistent (o.run u) := by
  cases o with
  | unify a b => exact hu.unify a b
  | solve cs => exact hu.solve cs
  | root t => exact hu.looked (Forest.looked_root hu.sound t)
  | add t => exact hu.looked (Forest.looked_add hu.sound t)
  | concretize t => exact hu.concretize t
  | occurs v t => exact hu.occurs v t
  | sameSet ts => exact hu.looked (Forest.looked_sameSet hu.sound ts)
  | sets => exact hu.looked (Forest.looked_sets hu.sound)

theorem Consistent.foldl {u : Unifier} (hu : Consistent u) (ops : List Operation) :
    Consistent (ops.foldl Operation.run u) := by
  induction ops generalizing u with
  | nil => exact hu
  | cons o ops ih => exact ih (hu.run o)

theorem consistent_after (ops : List Operation) : Consistent (after ops) :=
  consistent_empty.foldl ops

/-! ### The representation -/

/-- `v` stands for a type other than a variable in which `w` occurs. -/
def DependsOn (u : Unifier) (v w : Int) : Prop :=
  (u.root (.var v)).1.isVar = false ∧ w ∈ (u.root (.var v)).1.vars

/-- The cells make up trees of the recorded sizes, and what they say of variables has no cycle. -/
structure WellFormed (u : Unifier) : Prop where
  /-- Parents are elements. -/
  parent_mem : ∀ e p, u.cell? e = some (.child p) → p ∈ u.elements
  /-- From every element, parents lead to the root that a look-up gives. -/
  chain_ends : ∀ e ∈ u.elements,
    Relation.ReflTransGen (fun x p => u.cell? x = some (.child p)) e (u.root e).1 ∧
      ∃ n, u.cell? (u.root e).1 = some (.root n)
  /-- A root records how many elements have it as their root. -/
  root_size : ∀ r n, u.cell? r = some (.root n) →
    n = (u.elements.filter fun e => (u.root e).1 = r).length
  /-- An element that is not a variable is a root. -/
  concrete_root : ∀ e ∈ u.elements, e.isVar = false →
    (u.root e).1 = e ∧ ∃ n, u.cell? e = some (.root n)
  /-- No set has two types other than variables. -/
  concrete_unique : ∀ e ∈ u.elements, ∀ e' ∈ u.elements, e.isVar = false → e'.isVar = false →
    (u.root e).1 = (u.root e').1 → e = e'
  /-- No variable depends on itself. -/
  acyclic : ∀ v, ¬Relation.TransGen (DependsOn u) v v

theorem reflTransGen_of_way {u : Unifier} {e r : Ty} {l : List Ty} (h : u.Way e l r) :
    Relation.ReflTransGen (fun x p => u.cell? x = some (.child p)) e r := by
  induction h with
  | root _ => exact .refl
  | child hc _ ih => exact .head hc ih

/-- A variable stands for a larger type than each that it depends on. -/
theorem size_lt_of_dependsOn {u : Unifier} {σ : Int → Ty} (hσ : Solved u.rootOf σ) {v w : Int}
    (h : DependsOn u v w) : (σ w).size < (σ v).size := by
  have hlt := Ty.size_lt_size_subst (s := σ) h.1 h.2
  change (σ w).size < ((u.rootOf (.var v)).subst σ).size at hlt
  rwa [hσ.equates, Ty.subst_var] at hlt

theorem not_dependsOn_self {u : Unifier} (hu : Consistent u) (v : Int) :
    ¬Relation.TransGen (DependsOn u) v v := by
  obtain ⟨σ, hσ⟩ := hu.solvable
  have hlt : ∀ w, Relation.TransGen (DependsOn u) v w → (σ w).size < (σ v).size := by
    intro w h
    induction h with
    | single h => exact size_lt_of_dependsOn hσ h
    | tail _ h ih => exact Nat.lt_trans (size_lt_of_dependsOn hσ h) ih
  intro h
  have := hlt v h
  omega

theorem Consistent.wellFormed {u : Unifier} (hu : Consistent u) : WellFormed u := by
  obtain ⟨σ, hσ⟩ := hu.solvable
  have hconcrete : ∀ e : Ty, e.isVar = false → (u.root e).1 = e := hσ.concrete
  refine ⟨fun e p hp => ?_, fun e he => ?_, fun r n hr => ?_, fun e he hv => ?_, ?_,
    not_dependsOn_self hu⟩
  · obtain ⟨l, r, way⟩ := hu.sound.way e (Forest.mem_elements hp)
    cases way with
    | root hc => rw [hp] at hc; cases hc
    | child hc way =>
      rw [hp] at hc
      cases hc
      exact way.start_mem
  · obtain ⟨l, way⟩ := hu.sound.way_rootOf he
    exact ⟨reflTransGen_of_way way, way.cell?_root⟩
  · rw [← List.countP_eq_length_filter]
    exact hu.sound.size r n hr
  · exact ⟨hconcrete e hv, (hu.sound.rootOf_eq_iff he).1 (hconcrete e hv)⟩
  · intro e _ e' _ hv hv' h
    rwa [hconcrete e hv, hconcrete e' hv'] at h

/-- In every state of a run the representation is well formed, and whatever joins an attempt makes,
it makes of two different roots: otherwise the checked attempt would have no answer. -/
theorem after_wellFormed (ops : List Operation) :
    WellFormed (after ops) ∧ ∀ a b,
      checked.unifyWithin (depthFor (after ops) [a, b]) (after ops) a b =
        some (unify (after ops) a b) := by
  have hu := consistent_after ops
  refine ⟨hu.wellFormed, fun a b => ?_⟩
  exact (hu.unify_spec a b).1 _ (weight_lt_depthFor _ _)

/-! ### Termination -/

/-- In every state of a run all operations end, with calls nested no deeper than the weight of what
they are given. The calls that make up the message of a failed attempt are calls of the attempt. -/
theorem after_terminates (ops : List Operation) (a b t v : Ty) :
    (∀ d, weight (after ops) [a, b] < d →
      checked.unifyWithin d (after ops) a b = some (unify (after ops) a b)) ∧
    (∀ d, weight (after ops) [t] < d →
      checked.concretizeWithin d t (after ops) = some (concretize (after ops) t)) ∧
    (∀ d, weight (after ops) [t] < d →
      checked.occursWithin d v t (after ops) = some (occurs (after ops) v t)) ∧
    (after ops).root? t = some ((after ops).root t) := by
  have hu := consistent_after ops
  obtain ⟨σ, hσ⟩ := hu.solvable
  exact ⟨(hu.unify_spec a b).1, (hu.concretize_spec hσ t).1, (hu.occurs_spec hσ v t 0).1,
    hu.sound.root?_eq t⟩

/-! ### Most general unifiers -/

/-- In every state of a run, two types can be made equal exactly when some substitution that
satisfies the state makes them equal. What is left then means exactly that, and reading it is the
most general such substitution. -/
theorem unify_mostGeneral (ops : List Operation) (a b : Ty) :
    let u := after ops
    let attempt := unify u a b
    let u' := attempt.unifier
    (attempt.verdict = .ok () ↔ ∃ s, Satisfies s u ∧ a.subst s = b.subst s) ∧
    ((∃ clash, attempt.verdict = .error clash) ↔ ¬∃ s, Satisfies s u ∧ a.subst s = b.subst s) ∧
    (attempt.verdict = .ok () →
      (∀ s, Satisfies s u' ↔ Satisfies s u ∧ a.subst s = b.subst s) ∧
      (∃ σ, (∀ t, (concretize u' t).1 = t.subst σ) ∧ Satisfies σ u ∧ a.subst σ = b.subst σ) ∧
      (concretize u' a).1 = (concretize u' b).1 ∧
      ∀ s, Satisfies s u' → ∀ t, (concretize u' t).1.subst s = t.subst s) := by
  intro u attempt u'
  have hu : Consistent u := consistent_after ops
  have hok := hu.unify_ok_iff a b
  refine ⟨hok, ?_, fun h => ?_⟩
  · rw [← hok]
    constructor
    · rintro ⟨clash, h⟩
      simp [attempt, h]
    · intro h
      cases hv : attempt.verdict with
      | ok _ => exact absurd hv h
      | error clash => exact ⟨clash, rfl⟩
  · have hsat := hu.satisfies_unify h
    obtain ⟨σ, hread, hσ, hgeneral⟩ := (hu.unify a b).concretize_solution
    have heq := (hsat σ).1 hσ
    refine ⟨hsat, ⟨σ, hread, heq⟩, ?_, fun s hs t => ?_⟩
    · rw [hread, hread, heq.2]
    · rw [hread]
      exact hgeneral s hs t

end Monotype.Unifier
