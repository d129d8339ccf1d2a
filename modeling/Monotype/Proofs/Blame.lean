import Monotype.Inference
import Monotype.Proofs.Runs
import Mathlib.Order.Bounds.Defs

/-! Solving blames the first constraint that cannot be kept. A constraint is refused exactly when no
substitution keeps it along with the constraints before it and what was known already, so the
constraint that an error names ends the shortest beginning that no substitution keeps. Nothing that
comes after it has been looked at: another rest would have left the same. -/
namespace Monotype.Unifier

/-! ### What a checker has been asked -/

/-- One request to a checker: a use of its unifier, or an inference that goes on from what is
known. -/
inductive Request where
  | use (o : Operation)
  | infer (e : Expr)

/-- The unifier that a request leaves, whether it fails or not. -/
def Request.run (u : Unifier) : Request → Unifier
  | .use o => o.run u
  | .infer e => (inferWith u e).unifier

/-- The unifier after the requests, from the empty one on. -/
def served (requests : List Request) : Unifier := requests.foldl Request.run .empty

theorem Consistent.inferWith {u : Unifier} (hu : Consistent u) (e : Expr) :
    Consistent (inferWith u e).unifier := by
  have hsolve := hu.solve ((e.label .empty 0).1.constraints .builtin)
  simp only [Monotype.inferWith]
  split
  · exact hsolve
  · exact hsolve.concretize _

theorem Consistent.request {u : Unifier} (hu : Consistent u) (r : Request) :
    Consistent (r.run u) := by
  cases r with
  | use o => exact hu.run o
  | infer e => exact hu.inferWith e

theorem Consistent.requests {u : Unifier} (hu : Consistent u) (rs : List Request) :
    Consistent (rs.foldl Request.run u) := by
  induction rs generalizing u with
  | nil => exact hu
  | cons r rs ih => exact ih (hu.request r)

theorem consistent_served (requests : List Request) : Consistent (served requests) :=
  consistent_empty.requests requests

/-! ### The constraint that is blamed -/

/-- Some substitution keeps the constraints and all that is known. -/
def Keepable (u : Unifier) (cs : List Constraint) : Prop := ∃ s, Satisfies s u ∧ Keeps s cs

theorem Keepable.of_append {u : Unifier} {cs ds : List Constraint} (h : Keepable u (cs ++ ds)) :
    Keepable u cs := by
  obtain ⟨s, hs, hk⟩ := h
  exact ⟨s, hs, ((keeps_append s cs ds).1 hk).1⟩

section Solve

variable {u : Unifier} {c : Constraint}

theorem solve_cons_error {clash : Clash} (h : (unify u c.left c.right).verdict = .error clash)
    (cs : List Constraint) :
    solve u (c :: cs) = ⟨.error ⟨clash, some c⟩, (unify u c.left c.right).unifier,
      (unify u c.left c.right).events⟩ := by
  simp only [solve, h]

theorem solve_cons_ok (h : (unify u c.left c.right).verdict = .ok ()) (cs : List Constraint) :
    solve u (c :: cs) = { solve (unify u c.left c.right).unifier cs with
      events := (unify u c.left c.right).events ++
        (solve (unify u c.left c.right).unifier cs).events } := by
  simp only [solve, h]

variable (hu : Consistent u)
include hu

theorem Consistent.keepable_nil : Keepable u [] := by
  obtain ⟨σ, -, hσ, -⟩ := hu.concretize_solution
  exact ⟨σ, hσ, keeps_nil σ⟩

theorem Consistent.keepable_cons (h : (Unifier.unify u c.left c.right).verdict = .ok ())
    (cs : List Constraint) :
    Keepable u (c :: cs) ↔ Keepable (Unifier.unify u c.left c.right).unifier cs := by
  refine exists_congr fun s => ?_
  rw [hu.satisfies_unify h, keeps_cons, and_assoc]

end Solve

/-- An error names a constraint up to which the constraints cannot be kept, while those before it
can, and it comes whatever follows. -/
theorem Consistent.solve_error {u : Unifier} (hu : Consistent u) {cs : List Constraint}
    {conflict : Conflict} (h : (Unifier.solve u cs).verdict = .error conflict) :
    ∃ before c behind clash, cs = before ++ c :: behind ∧ conflict = ⟨clash, some c⟩ ∧
      Keepable u before ∧ ¬Keepable u (before ++ [c]) ∧
      ∀ rest, Unifier.solve u (before ++ c :: rest) = Unifier.solve u cs := by
  induction cs generalizing u with
  | nil => cases h
  | cons c cs ih =>
    cases hv : (Unifier.unify u c.left c.right).verdict with
    | error clash =>
      rw [solve_cons_error hv] at h
      refine ⟨[], c, cs, clash, rfl, (Except.error.inj h).symm, hu.keepable_nil, ?_, fun rest => ?_⟩
      · rintro ⟨s, hs, hk⟩
        exact hu.not_satisfies_of_error hv s hs (hk c (by simp))
      · rw [List.nil_append, solve_cons_error hv, solve_cons_error hv]
    | ok _ =>
      rw [solve_cons_ok hv] at h
      obtain ⟨before, d, behind, clash, rfl, rfl, hbefore, hd, hrest⟩ := ih (hu.unify _ _) h
      refine ⟨c :: before, d, behind, clash, rfl, rfl, (hu.keepable_cons hv before).2 hbefore,
        fun hk => hd ((hu.keepable_cons hv _).1 hk), fun rest => ?_⟩
      rw [List.cons_append, solve_cons_ok hv, solve_cons_ok hv, hrest]

/-- After any requests, the constraints are solved exactly when some substitution keeps them and
what is known. Otherwise the error names the first constraint up to which none does, and what comes
after that constraint has no influence on the error, on the unifier or on what happened. -/
theorem solve_blames_first (requests : List Request) (cs : List Constraint) :
    let u := served requests
    let solution := solve u cs
    (solution.verdict = .ok () ↔ ∃ s, Satisfies s u ∧ Keeps s cs) ∧
    ((¬∃ s, Satisfies s u ∧ Keeps s cs) → ∃ k c clash,
      IsLeast {j | ¬∃ s, Satisfies s u ∧ Keeps s (cs.take (j + 1))} k ∧ cs[k]? = some c ∧
      solution.verdict = .error ⟨clash, some c⟩ ∧
      ∀ rest, solve u (cs.take (k + 1) ++ rest) = solution) := by
  intro u solution
  have hu : Consistent u := consistent_served requests
  have hok := hu.solve_ok_iff cs
  refine ⟨hok, fun hnone => ?_⟩
  cases hv : solution.verdict with
  | ok _ => exact absurd (hok.1 hv) hnone
  | error conflict =>
    obtain ⟨before, c, behind, clash, hcs, rfl, hbefore, hc, hrest⟩ := hu.solve_error hv
    have htake : cs.take (before.length + 1) = before ++ [c] := by
      rw [hcs, List.take_append]
      simp
    refine ⟨before.length, c, clash, ⟨?_, fun j hj => ?_⟩, ?_, rfl, fun rest => ?_⟩
    · rw [Set.mem_ofPred_eq, htake]
      exact hc
    · -- a shorter beginning is a beginning of the constraints before the one that is blamed
      by_contra hlt
      have hle : j + 1 ≤ before.length := by omega
      refine hj ?_
      rw [hcs, List.take_append_of_le_length hle]
      rw [← List.take_append_drop (j + 1) before] at hbefore
      exact hbefore.of_append
    · rw [hcs]
      simp
    · rw [htake, List.append_assoc, List.singleton_append, hrest]

end Monotype.Unifier
