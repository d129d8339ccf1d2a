import Monotype.Proofs.Unification

/-! Consistent unifiers: sound forests whose roots some substitution solves. On a consistent unifier
every operation ends at any depth beyond the weight of what it is given, and so does what the
operations give as their answers: reading gives the instance under the solving substitution, and
making types equal keeps exactly the substitutions that make them equal. Every operation leaves a
consistent unifier, also where it fails. -/
namespace Monotype.Unifier

/-- The invariant of all operations. -/
structure Consistent (u : Unifier) : Prop where
  sound : u.Sound
  solvable : ∃ σ, Solved u.rootOf σ

theorem consistent_empty : Consistent .empty := by
  refine ⟨Forest.sound_empty, .var, fun t => ?_, fun t _ => Forest.rootOf_empty t, fun t => ?_,
    fun v _ => rfl⟩
  · rw [Forest.rootOf_empty, Forest.rootOf_empty]
  · rw [Forest.rootOf_empty]

theorem Consistent.looked {u u' : Unifier} (hu : Consistent u) (h : Forest.Looked u u') :
    Consistent u' :=
  ⟨h.sound, by rw [h.rootOf]; exact hu.solvable⟩

theorem Frame.looked {L : List Ty} {U : Finset Ty} {u u' : Unifier} (h : Frame L U u.rootOf u') :
    Forest.Looked u u' :=
  ⟨h.sound, h.rootOf⟩

theorem Frame.consistent {L : List Ty} {U : Finset Ty} {ρ : Ty → Ty} {σ : Int → Ty} {u : Unifier}
    (h : Frame L U ρ u) (hρ : Solved ρ σ) : Consistent u :=
  ⟨h.sound, σ, by rw [h.rootOf]; exact hρ⟩

/-! ### Depths -/

/-- All types inside the elements and the given types. -/
def scope (u : Unifier) (ts : List Ty) : Finset Ty := Ty.partSet (u.elements ++ ts)

theorem closed_scope (u : Unifier) (ts : List Ty) : Ty.Closed (scope u ts) := Ty.closed_partSet _

theorem mem_scope (u : Unifier) {ts : List Ty} {t : Ty} (h : t ∈ ts) : t ∈ scope u ts :=
  Ty.mem_partSet (by simp [h])

theorem card_scope_le (u : Unifier) (ts : List Ty) : (scope u ts).card ≤ weight u ts := by
  have hle := Ty.card_partSet_le (u.elements ++ ts)
  rw [Ty.sizeAll_eq, List.map_append, List.sum_append, ← Ty.sizeAll_eq, ← Ty.sizeAll_eq] at hle
  exact hle

theorem Consistent.frame {u : Unifier} (hu : Consistent u) (ts : List Ty) :
    Frame [] (scope u ts) u.rootOf u :=
  ⟨hu.sound, rfl, by simp, fun e he => Ty.mem_partSet (by simp [he])⟩

theorem weight_lt_depthFor (u : Unifier) (ts : List Ty) : weight u ts < depthFor u ts :=
  Nat.lt_succ_self _

theorem rank_le_depth (u : Unifier) {ts : List Ty} {d : Nat} (hd : weight u ts < d) (ρ : Ty → Ty)
    (σ : Int → Ty) (t : Ty) : rank (scope u ts) ρ σ t ≤ d := by
  have hcard := card_scope_le u ts
  have hrank := rank_le_card (U := scope u ts) (ρ := ρ) (σ := σ) (t := t)
  omega

/-- Where checked runs beyond the depth `w` have answers with the property `P`, they all have one
answer, and the run at a depth `D` beyond `w` has it too. -/
theorem exists_answer {β : Type} (checked plain : Nat → Option β) (P : β → Prop) {w D : Nat}
    (href : ∀ {d d' : Nat} {x : β}, d ≤ d' → checked d = some x → plain d' = some x) (hw : w < D)
    (hrun : ∀ {d : Nat}, w < d → ∃ x, checked d = some x ∧ P x) :
    ∃ x, plain D = some x ∧ (∀ d, w < d → checked d = some x) ∧ P x := by
  obtain ⟨x, hx, hP⟩ := hrun hw
  refine ⟨x, href (Nat.le_refl _) hx, fun d hd => ?_, hP⟩
  obtain ⟨y, hy, -⟩ := hrun hd
  have hx' := href (Nat.le_max_left D d) hx
  have hy' := href (Nat.le_max_right D d) hy
  rw [hx'] at hy'
  rw [hy, Option.some.inj hy']

/-! ### Exact answers -/

namespace Consistent

variable {u : Unifier} (hu : Consistent u)
include hu

/-- The search ends and keeps the roots, and finds a variable exactly where it occurs in the
instance. -/
theorem occurs_spec {σ : Int → Ty} (hσ : Solved u.rootOf σ) (v t : Ty) (w : Int) :
    (∀ d, weight u [t] < d → checked.occursWithin d v t u = some (occurs u v t)) ∧
      Forest.Looked u (occurs u v t).2 ∧
      (v = .var w → ((occurs u v t).1 = true ↔ w ∈ (t.subst σ).vars)) := by
  obtain ⟨x, hplain, hchecked, hlooked, hfound⟩ := exists_answer
    (fun d => checked.occursWithin d v t u) (fun d => plain.occursWithin d v t u)
    (fun x => Forest.Looked u x.2 ∧
      (v = .var w → (x.1 = true ↔ w ∈ (t.subst σ).vars)))
    (fun hd => checked_follows.occursWithin hd v t u _) (weight_lt_depthFor u [t])
    (fun {d} hd => by
      obtain ⟨found, u', hx, hu', hfound⟩ := occursWithin_run (closed_scope u [t]) hσ
        (hu.frame [t]) v w (mem_scope u (by simp)) (rank_le_depth u hd u.rootOf σ t)
      exact ⟨_, hx, hu'.looked, hfound⟩)
  have hx : occurs u v t = x := by rw [occurs, hplain, Option.getD_some]
  rw [hx]
  exact ⟨hchecked, hlooked, hfound⟩

/-- Reading ends, keeps the roots and gives the instance. -/
theorem concretize_spec {σ : Int → Ty} (hσ : Solved u.rootOf σ) (t : Ty) :
    (∀ d, weight u [t] < d → checked.concretizeWithin d t u = some (concretize u t)) ∧
      Forest.Looked u (concretize u t).2 ∧ (concretize u t).1 = t.subst σ := by
  obtain ⟨x, hplain, hchecked, hlooked, hvalue⟩ := exists_answer
    (fun d => checked.concretizeWithin d t u) (fun d => plain.concretizeWithin d t u)
    (fun x => Forest.Looked u x.2 ∧ x.1 = t.subst σ)
    (fun hd => checked_follows.concretizeWithin hd t u _) (weight_lt_depthFor u [t])
    (fun {d} hd => by
      obtain ⟨u', hx, hu'⟩ := concretizeWithin_run (closed_scope u [t]) hσ (hu.frame [t])
        (mem_scope u (by simp)) (rank_le_depth u hd u.rootOf σ t)
      exact ⟨_, hx, hu'.looked, rfl⟩)
  have hx : concretize u t = x := by rw [concretize, hplain, Option.getD_some]
  rw [hx]
  exact ⟨hchecked, hlooked, hvalue⟩

/-- An attempt ends and settles its pair. -/
theorem unify_spec (a b : Ty) :
    (∀ d, weight u [a, b] < d → checked.unifyWithin d u a b = some (unify u a b)) ∧
      Settles (scope u [a, b]) u.rootOf [(a, b)] (unify u a b) := by
  obtain ⟨σ, hσ⟩ := hu.solvable
  obtain ⟨x, hplain, hchecked, hsettles⟩ := exists_answer
    (fun d => checked.unifyWithin d u a b) (fun d => plain.unifyWithin d u a b)
    (Settles (scope u [a, b]) u.rootOf [(a, b)])
    (fun hd => checked_follows.unifyWithin hd) (weight_lt_depthFor u [a, b])
    (fun {d} hd => unifyWithin_run (closed_scope u [a, b]) (hu.frame [a, b]) hσ
      (.start (mem_scope u (by simp))) (.start (mem_scope u (by simp)))
      (by have hcard := card_scope_le u [a, b]; omega))
  have hx : unify u a b = x := by rw [unify, hplain, Option.getD_some]
  rw [hx]
  exact ⟨hchecked, hsettles⟩

theorem unify (a b : Ty) : Consistent (unify u a b).unifier := by
  obtain ⟨-, ρ', σ', hframe, hsolved, -⟩ := hu.unify_spec a b
  exact hframe.consistent hsolved

theorem occurs (v t : Ty) : Consistent (occurs u v t).2 := by
  obtain ⟨σ, hσ⟩ := hu.solvable
  exact hu.looked (hu.occurs_spec hσ v t 0).2.1

theorem concretize (t : Ty) : Consistent (concretize u t).2 := by
  obtain ⟨σ, hσ⟩ := hu.solvable
  exact hu.looked (hu.concretize_spec hσ t).2.1

end Consistent

/-! ### What a unifier means -/

/-- The substitution gives every element the instance that its root has. -/
def Satisfies (s : Int → Ty) (u : Unifier) : Prop :=
  ∀ e ∈ u.elements, e.subst s = (u.root e).1.subst s

theorem satisfies_iff (s : Int → Ty) (u : Unifier) : Satisfies s u ↔ Equates s u.rootOf := by
  constructor
  · intro h t
    by_cases ht : t ∈ u.elements
    · exact (h t ht).symm
    · rw [Forest.rootOf_new ht]
  · intro h e _
    exact (h e).symm

theorem satisfies_empty (s : Int → Ty) : Satisfies s .empty := by
  intro e he
  simp at he

namespace Consistent

variable {u : Unifier} (hu : Consistent u)
include hu

/-- Reading is a substitution that satisfies the unifier, and every other one is an instance of
it. -/
theorem concretize_solution :
    ∃ σ, (∀ t, (Unifier.concretize u t).1 = t.subst σ) ∧ Satisfies σ u ∧
      ∀ s, Satisfies s u → ∀ t : Ty, (t.subst σ).subst s = t.subst s := by
  obtain ⟨σ, hσ⟩ := hu.solvable
  refine ⟨σ, fun t => (hu.concretize_spec hσ t).2.2, (satisfies_iff σ u).2 hσ.equates, ?_⟩
  intro s hs t
  exact hσ.mostGeneral ((satisfies_iff s u).1 hs) t

theorem satisfies_unify {a b : Ty} (h : (Unifier.unify u a b).verdict = .ok ()) (s : Int → Ty) :
    Satisfies s (Unifier.unify u a b).unifier ↔ Satisfies s u ∧ a.subst s = b.subst s := by
  obtain ⟨-, ρ', σ', hframe, -, -, hends⟩ := hu.unify_spec a b
  rw [h] at hends
  rw [satisfies_iff, satisfies_iff, hframe.rootOf, ← unifies_singleton]
  exact hends s

theorem not_satisfies_of_error {a b : Ty} {clash : Clash}
    (h : (Unifier.unify u a b).verdict = .error clash) (s : Int → Ty) (hs : Satisfies s u) :
    a.subst s ≠ b.subst s := by
  obtain ⟨-, ρ', σ', -, -, -, hends⟩ := hu.unify_spec a b
  rw [h] at hends
  rw [Ne, ← unifies_singleton]
  exact hends.1 s ((satisfies_iff s u).1 hs)

theorem unify_ok_iff (a b : Ty) : (Unifier.unify u a b).verdict = .ok () ↔
    ∃ s, Satisfies s u ∧ a.subst s = b.subst s := by
  constructor
  · intro h
    obtain ⟨σ, -, hσ, -⟩ := (hu.unify a b).concretize_solution
    exact ⟨σ, (hu.satisfies_unify h σ).1 hσ⟩
  · rintro ⟨s, hs, heq⟩
    cases h : (Unifier.unify u a b).verdict with
    | ok _ => rfl
    | error clash => exact absurd heq (hu.not_satisfies_of_error h s hs)

end Consistent

/-! ### Solving equations -/

/-- The substitution keeps all the constraints. -/
def Keeps (s : Int → Ty) (cs : List Constraint) : Prop :=
  ∀ c ∈ cs, c.left.subst s = c.right.subst s

theorem keeps_nil (s : Int → Ty) : Keeps s [] := by
  intro c hc
  simp at hc

theorem keeps_cons (s : Int → Ty) (c : Constraint) (cs : List Constraint) :
    Keeps s (c :: cs) ↔ c.left.subst s = c.right.subst s ∧ Keeps s cs := by
  simp [Keeps]

theorem keeps_append (s : Int → Ty) (cs ds : List Constraint) :
    Keeps s (cs ++ ds) ↔ Keeps s cs ∧ Keeps s ds := by
  simp [Keeps, or_imp, forall_and]

theorem Consistent.solve {u : Unifier} (hu : Consistent u) (cs : List Constraint) :
    Consistent (solve u cs).unifier := by
  induction cs generalizing u with
  | nil => exact hu
  | cons c cs ih =>
    have hc := hu.unify c.left c.right
    simp only [Unifier.solve]
    split
    · exact hc
    · exact ih hc

theorem Consistent.satisfies_solve {u : Unifier} (hu : Consistent u) (cs : List Constraint)
    (h : (Unifier.solve u cs).verdict = .ok ()) (s : Int → Ty) :
    Satisfies s (Unifier.solve u cs).unifier ↔ Satisfies s u ∧ Keeps s cs := by
  induction cs generalizing u with
  | nil => simp [Unifier.solve, keeps_nil]
  | cons c cs ih =>
    have hc := hu.unify c.left c.right
    simp only [Unifier.solve] at h ⊢
    split at h
    · cases h
    · rename_i hok
      dsimp only at h ⊢
      rw [ih hc h, hu.satisfies_unify hok, keeps_cons, and_assoc]

theorem Consistent.not_keeps_of_error {u : Unifier} (hu : Consistent u) (cs : List Constraint)
    {conflict : Conflict} (h : (Unifier.solve u cs).verdict = .error conflict) (s : Int → Ty)
    (hs : Satisfies s u) : ¬Keeps s cs := by
  induction cs generalizing u with
  | nil => cases h
  | cons c cs ih =>
    have hc := hu.unify c.left c.right
    rw [keeps_cons]
    rintro ⟨heq, hcs⟩
    simp only [Unifier.solve] at h
    split at h
    · rename_i hbad
      exact hu.not_satisfies_of_error hbad s hs heq
    · rename_i hok
      exact ih hc h ((hu.satisfies_unify hok s).2 ⟨hs, heq⟩) hcs

/-- Constraints are solved exactly when some substitution keeps them and satisfies the unifier. -/
theorem Consistent.solve_ok_iff {u : Unifier} (hu : Consistent u) (cs : List Constraint) :
    (Unifier.solve u cs).verdict = .ok () ↔ ∃ s, Satisfies s u ∧ Keeps s cs := by
  constructor
  · intro h
    obtain ⟨σ, -, hσ, -⟩ := (hu.solve cs).concretize_solution
    exact ⟨σ, (hu.satisfies_solve cs h σ).1 hσ⟩
  · rintro ⟨s, hs, hk⟩
    cases h : (Unifier.solve u cs).verdict with
    | ok _ => rfl
    | error conflict => exact absurd hk (hu.not_keeps_of_error cs h s hs)

end Monotype.Unifier
