import Monotype.Proofs.Runs

/-! Reading gives normal forms and changes nothing that can be read. The variables of what is read
are roots, and reading it again gives it back. Searching a variable finds it exactly where reading
leaves it. Every operation except making types equal may add elements and shorten ways, but keeps
all roots, and so keeps what any type reads as and which elements are together. -/
namespace Monotype

universe u

namespace Forest

variable {α : Type u} [DecidableEq α] {f f' : Forest α}

theorem allUnder_fst (r : α) (es : List α) (hf : f.Sound) :
    (allUnder r f es).1 = es.all fun e => r = f.rootOf e := by
  induction es generalizing f with
  | nil => rfl
  | cons e es ih =>
    have hroot := looked_root hf e
    change (if r = f.rootOf e then allUnder r (f.root e).2 es else (false, (f.root e).2)).1 = _
    by_cases hr : r = f.rootOf e
    · rw [if_pos hr, ih hroot.sound, hroot.rootOf]
      simp [← hr]
    · rw [if_neg hr]
      simp [hr]

theorem Looked.sameSet (h : Looked f f') (hf : f.Sound) (es : List α) :
    (f'.sameSet es).1 = (f.sameSet es).1 := by
  match es with
  | [] | [_] => rfl
  | e :: e' :: rest =>
    have hroot := looked_root hf e
    have hroot' := looked_root h.sound e
    change Except.ok (allUnder (f'.rootOf e) (f'.root e).2 (e' :: rest)).1 =
      Except.ok (allUnder (f.rootOf e) (f.root e).2 (e' :: rest)).1
    rw [allUnder_fst _ _ hroot'.sound, allUnder_fst _ _ hroot.sound, hroot'.rootOf, hroot.rootOf,
      h.rootOf]

end Forest

namespace Unifier

/-! ### Variables that are read -/

/-- A variable that is left under the substitution is a root. -/
theorem Solved.root_of_mem_vars {ρ : Ty → Ty} {σ : Int → Ty} (h : Solved ρ σ) {t : Ty} {v : Int}
    (hv : v ∈ (t.subst σ).vars) : ρ (.var v) = .var v := by
  induction hn : measure ρ σ t using Nat.strong_induction_on generalizing t with
  | _ n ih =>
    -- The variable is the root of `t`, or it comes from an argument of that root.
    by_cases hroot : ρ t = .var v
    · rw [← hroot, h.idem]
    · obtain ⟨x, hx, hvx⟩ := (mem_vars_subst_iff h hroot).1 hv
      have hlt := h.measure_arg hx
      exact ih _ (by omega) hvx rfl

/-- A sound unifier that has the variables among its elements. -/
structure Has (vs : List Int) (u : Unifier) : Prop where
  sound : u.Sound
  mem : ∀ v ∈ vs, Ty.var v ∈ u.elements

namespace Has

variable {vs : List Int} {u : Unifier}

theorem root (h : Has vs u) (t : Ty) : Has vs (u.root t).2 :=
  ⟨h.sound.root t, fun v hv => (h.sound.mem_elements_root t).2 (.inl (h.mem v hv))⟩

theorem mapM {step : Ty → StateT Unifier Option Ty} {ts ts' : List Ty} {u' : Unifier}
    (hstep : ∀ {vs u t t' u'}, Has vs u → step t u = some (t', u') → Has (t'.vars ++ vs) u')
    (h : Has vs u) (hrun : ts.mapM step u = some (ts', u')) : Has (Ty.varsAll ts' ++ vs) u' := by
  induction ts generalizing ts' u vs with
  | nil =>
    cases hrun
    exact h
  | cons t ts ih =>
    rw [List.mapM_cons] at hrun
    obtain ⟨t₁, u₁, ht, hrun⟩ := exists_of_bind hrun
    obtain ⟨ts₁, u₂, hts, hrun⟩ := exists_of_bind hrun
    cases hrun
    have hrest := ih (hstep h ht) hts
    refine ⟨hrest.sound, fun v hv => hrest.mem v ?_⟩
    simp only [Ty.varsAll, List.mem_append] at hv ⊢
    tauto

/-- Reading looks up every variable that is left in what it gives. -/
theorem concretizeWithin {depth : Nat} {t t' : Ty} {u' : Unifier} (h : Has vs u)
    (hrun : plain.concretizeWithin depth t u = some (t', u')) : Has (t'.vars ++ vs) u' := by
  induction depth generalizing t t' u u' vs with
  | zero => cases hrun
  | succ depth ih =>
    cases t with
    | var v =>
      have hlook : plain.look (.var v) u = some ((u.root (.var v)).1, (u.root (.var v)).2) := rfl
      have hroot := h.root (.var v)
      rw [Steps.concretizeWithin, bind_apply hlook] at hrun
      split at hrun
      · rename_i hv
        cases hrun
        rw [hv, Ty.vars_var]
        refine ⟨hroot.sound, fun w hw => ?_⟩
        rcases List.mem_cons.1 hw with rfl | hw
        · exact (h.sound.mem_elements_root _).2 (.inr rfl)
        · exact hroot.mem w hw
      · exact ih hroot hrun
    | int =>
      cases hrun
      exact h
    | bool =>
      cases hrun
      exact h
    | fn a b =>
      rw [Steps.concretizeWithin] at hrun
      obtain ⟨a', u₁, ha, hrun⟩ := exists_of_bind hrun
      obtain ⟨b', u₂, hb, hrun⟩ := exists_of_bind hrun
      cases hrun
      have hrest := ih (ih h ha) hb
      refine ⟨hrest.sound, fun v hv => hrest.mem v ?_⟩
      simp only [Ty.vars, List.mem_append] at hv ⊢
      tauto
    | tuple ts =>
      rw [Steps.concretizeWithin] at hrun
      obtain ⟨ts', u₁, hts, hrun⟩ := exists_of_bind hrun
      cases hrun
      exact h.mapM (fun h' hrun' => ih h' hrun') hts

end Has

/-! ### Normal forms -/

/-- Reading gives normal forms. -/
structure ReadsNormally (u : Unifier) : Prop where
  /-- In the state that reading leaves, every variable of what it gives is the root of its set. -/
  root_of_var : ∀ t, ∀ v ∈ (concretize u t).1.vars,
    ((concretize u t).2.root (.var v)).1 = .var v ∧
      ∃ n, (concretize u t).2.cell? (.var v) = some (.root n)
  /-- Reading once more changes nothing. -/
  idem : ∀ t, (concretize (concretize u t).2 (concretize u t).1).1 = (concretize u t).1

namespace Consistent

variable {u u' : Unifier} (hu : Consistent u)
include hu

theorem concretize_mem_elements {t : Ty} {v : Int} (hv : v ∈ (Unifier.concretize u t).1.vars) :
    Ty.var v ∈ (Unifier.concretize u t).2.elements := by
  obtain ⟨σ, hσ⟩ := hu.solvable
  have hrun : plain.concretizeWithin (depthFor u [t]) t u = some (Unifier.concretize u t) :=
    checked_follows.concretizeWithin (Nat.le_refl _) t u _
      ((hu.concretize_spec hσ t).1 _ (weight_lt_depthFor u [t]))
  have hstart : Has [] u := ⟨hu.sound, by simp⟩
  exact (hstart.concretizeWithin hrun).mem v (List.mem_append_left _ hv)

theorem concretize_looked (h : Forest.Looked u u') (t : Ty) :
    (Unifier.concretize u' t).1 = (Unifier.concretize u t).1 := by
  obtain ⟨σ, hσ⟩ := hu.solvable
  have hσ' : Solved u'.rootOf σ := by rwa [h.rootOf]
  rw [((hu.looked h).concretize_spec hσ' t).2.2, (hu.concretize_spec hσ t).2.2]

theorem readsNormally : ReadsNormally u := by
  obtain ⟨σ, hσ⟩ := hu.solvable
  refine ⟨fun t v hv => ?_, fun t => ?_⟩
  · obtain ⟨-, hlooked, hvalue⟩ := hu.concretize_spec hσ t
    have hmem := hu.concretize_mem_elements hv
    have hroot : (Unifier.concretize u t).2.rootOf (.var v) = .var v := by
      rw [hlooked.rootOf]
      rw [hvalue] at hv
      exact hσ.root_of_mem_vars hv
    exact ⟨hroot, (hlooked.sound.rootOf_eq_iff hmem).1 hroot⟩
  · obtain ⟨-, hlooked, hvalue⟩ := hu.concretize_spec hσ t
    rw [hu.concretize_looked hlooked, (hu.concretize_spec hσ _).2.2, hvalue]
    exact hσ.mostGeneral hσ.equates t

end Consistent

/-! ### Searching -/

namespace Consistent

variable {u u' : Unifier} (hu : Consistent u)
include hu

/-- A variable is found exactly where reading leaves it. -/
theorem occurs_iff (v : Int) (t : Ty) :
    (Unifier.occurs u (.var v) t).1 = true ↔ v ∈ (Unifier.concretize u t).1.vars := by
  obtain ⟨σ, hσ⟩ := hu.solvable
  rw [(hu.concretize_spec hσ t).2.2]
  exact (hu.occurs_spec hσ (.var v) t v).2.2 rfl

theorem occurs_looked (h : Forest.Looked u u') (v : Int) (t : Ty) :
    (Unifier.occurs u' (.var v) t).1 = (Unifier.occurs u (.var v) t).1 := by
  rw [Bool.eq_iff_iff, (hu.looked h).occurs_iff, hu.occurs_iff, hu.concretize_looked h]

end Consistent

/-- Searching a variable agrees with reading. -/
structure SearchesExactly (u : Unifier) (v : Int) (t : Ty) : Prop where
  /-- Beyond the weight of the type in the unifier, the search has this answer at every depth. -/
  search_ends : ∀ d, weight u [t] < d →
    plain.occursWithin d (.var v) t u = some (occurs u (.var v) t)
  /-- So has reading. -/
  read_ends : ∀ d, weight u [t] < d → plain.concretizeWithin d t u = some (concretize u t)
  /-- It finds the variable exactly where reading the type leaves it. -/
  found_iff : (occurs u (.var v) t).1 = true ↔ v ∈ (concretize u t).1.vars
  /-- Reading what the search leaves behind gives the same type. -/
  read_after : (concretize (occurs u (.var v) t).2 t).1 = (concretize u t).1
  /-- Searching what reading leaves behind gives the same answer. -/
  found_after : (occurs (concretize u t).2 (.var v) t).1 = (occurs u (.var v) t).1

/-- In every state of a run, searching is exact. A variable need not be a root for that: one that is
not is never found, and reading leaves none. -/
theorem after_searchesExactly (ops : List Operation) (v : Int) (t : Ty) :
    SearchesExactly (after ops) v t := by
  have hu := consistent_after ops
  obtain ⟨σ, hσ⟩ := hu.solvable
  obtain ⟨hsearch, hsearched, -⟩ := hu.occurs_spec hσ (.var v) t v
  obtain ⟨hread, hlooked, -⟩ := hu.concretize_spec hσ t
  refine ⟨fun d hd => ?_, fun d hd => ?_, hu.occurs_iff v t, hu.concretize_looked hsearched t,
    hu.occurs_looked hlooked v t⟩
  · exact checked_follows.occursWithin (Nat.le_refl d) (.var v) t _ _ (hsearch d hd)
  · exact checked_follows.concretizeWithin (Nat.le_refl d) t _ _ (hread d hd)

-- The second variable stands for a type that has the first one inside.
example : (occurs (after [.unify (.var 2) (.fn (.var 1) .int)]) (.var 1)
    (.fn (.var 2) .bool)).1 = true := by decide

/-! ### Operations that only read -/

/-- Whether an operation makes no types equal. -/
def Operation.isReading : Operation → Bool
  | .unify _ _ | .solve _ => false
  | _ => true

theorem Consistent.looked_run {u : Unifier} (hu : Consistent u) {o : Operation}
    (ho : o.isReading = true) : Forest.Looked u (o.run u) := by
  obtain ⟨σ, hσ⟩ := hu.solvable
  cases o with
  | unify a b => cases ho
  | solve cs => cases ho
  | root t => exact Forest.looked_root hu.sound t
  | add t => exact Forest.looked_add hu.sound t
  | concretize t => exact (hu.concretize_spec hσ t).2.1
  | occurs v t => exact (hu.occurs_spec hσ v t 0).2.1
  | sameSet ts => exact Forest.looked_sameSet hu.sound ts
  | sets => exact Forest.looked_sets hu.sound

/-- The second unifier says of all types what the first says. -/
structure SameReadings (u u' : Unifier) : Prop where
  /-- Types read as before. -/
  concretize : ∀ t, (concretize u' t).1 = (concretize u t).1
  /-- Elements have the roots that they had. -/
  root : ∀ t, (u'.root t).1 = (u.root t).1
  /-- What was together is together, and nothing else. -/
  sameSet : ∀ ts, (u'.sameSet ts).1 = (u.sameSet ts).1

/-- In every state of a run, reading gives normal forms, and operations that only read leave a state
in which everything reads as before. -/
theorem after_readsNormally (ops : List Operation) :
    ReadsNormally (after ops) ∧
      ∀ o : Operation, o.isReading = true → SameReadings (after ops) (o.run (after ops)) := by
  have hu := consistent_after ops
  refine ⟨hu.readsNormally, fun o ho => ?_⟩
  have hlooked := hu.looked_run ho
  exact ⟨hu.concretize_looked hlooked, fun t => congrFun hlooked.rootOf t,
    hlooked.sameSet hu.sound⟩

/-- Two sets of two variables each, made one: the way from the first variable has three elements. -/
def chaining : List Operation :=
  [.unify (.var 1) (.var 2), .unify (.var 3) (.var 4), .unify (.var 2) (.var 4)]

/-- Looking up the first variable shortens its way, and everything reads as before. -/
theorem sameReadings_shortened :
    (Operation.root (.var 1)).isReading = true ∧
      (after chaining).cell? (.var 1) = some (.child (.var 2)) ∧
      ((Operation.root (.var 1)).run (after chaining)).cell? (.var 1) = some (.child (.var 4)) ∧
      SameReadings (after chaining) ((Operation.root (.var 1)).run (after chaining)) :=
  ⟨rfl, by decide, by decide, (after_readsNormally chaining).2 (.root (.var 1)) rfl⟩

end Unifier

end Monotype
