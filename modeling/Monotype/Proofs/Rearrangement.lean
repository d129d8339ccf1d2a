import Monotype.Proofs.Consistency
import Monotype.Proofs.Variants

/-! Solving does not depend on the order of the equations, nor on which side of an equation a type
stands. Two runs may build different trees and choose different variables to stand for a set; but
the substitutions that satisfy what they leave are the same, so each reads a type as an instance of
what the other reads, and the two readings differ in the numbers of their variables only. -/
namespace Monotype

/-! ### Other orders and other sides -/

/-- The types change sides; the origin stays. -/
def Constraint.swap (c : Constraint) : Constraint := { c with left := c.right, right := c.left }

/-- The constraints of the second list are those of the first in some order, and any of them may
have been swapped. -/
def Rearranged (cs cs' : List Constraint) : Prop :=
  ∃ ds, cs.Perm ds ∧ List.Forall₂ (fun c c' => c' = c ∨ c' = c.swap) ds cs'

namespace Unifier

theorem keeps_perm {cs ds : List Constraint} (h : cs.Perm ds) (s : Int → Ty) :
    Keeps s cs ↔ Keeps s ds :=
  forall_congr' fun _ => imp_congr_left h.mem_iff

theorem keeps_swapped {cs cs' : List Constraint}
    (h : List.Forall₂ (fun c c' => c' = c ∨ c' = c.swap) cs cs') (s : Int → Ty) :
    Keeps s cs ↔ Keeps s cs' := by
  induction h with
  | nil => rfl
  | cons hc _ ih =>
    rw [keeps_cons, keeps_cons, ih]
    rcases hc with rfl | rfl
    · rfl
    · exact and_congr_left' eq_comm

theorem keeps_rearranged {cs cs' : List Constraint} (h : Rearranged cs cs') (s : Int → Ty) :
    Keeps s cs ↔ Keeps s cs' := by
  obtain ⟨ds, hperm, hswapped⟩ := h
  rw [keeps_perm hperm, keeps_swapped hswapped]

/-! ### Unifiers that mean the same -/

section Meaning

variable {u : Unifier} (hu : Consistent u)
include hu

/-- Solving fails exactly when no substitution that satisfies the unifier keeps the constraints. -/
theorem Consistent.solve_error_iff (cs : List Constraint) :
    (∃ conflict, (Unifier.solve u cs).verdict = .error conflict) ↔
      ∀ s, Satisfies s u → ¬Keeps s cs := by
  have hok := hu.solve_ok_iff cs
  cases h : (Unifier.solve u cs).verdict with
  | error conflict =>
    exact iff_of_true ⟨conflict, rfl⟩ fun s hs => hu.not_keeps_of_error cs h s hs
  | ok _ =>
    obtain ⟨s, hs, hkeeps⟩ := hok.1 h
    exact iff_of_false (by simp) fun hnone => hnone s hs hkeeps

/-- Where the same substitutions satisfy two unifiers, their readings of a type are instances of
each other. -/
theorem Consistent.variants_concretize {u' : Unifier} (hu' : Consistent u')
    (h : ∀ s, Satisfies s u ↔ Satisfies s u') (t : Ty) :
    Ty.Variants (Unifier.concretize u t).1 (Unifier.concretize u' t).1 := by
  obtain ⟨σ, hread, hσ, hgeneral⟩ := hu.concretize_solution
  obtain ⟨σ', hread', hσ', hgeneral'⟩ := hu'.concretize_solution
  rw [hread, hread']
  exact ⟨⟨σ', hgeneral σ' ((h σ').2 hσ') t⟩, ⟨σ, hgeneral' σ ((h σ).1 hσ) t⟩⟩

end Meaning

/-- Rearranged constraints fail together, and otherwise types are read alike after either. -/
theorem solve_rearranged (cs cs' : List Constraint) (h : Rearranged cs cs') :
    ((∃ conflict, (solve .empty cs).verdict = .error conflict) ↔
      ∃ conflict, (solve .empty cs').verdict = .error conflict) ∧
    ((solve .empty cs).verdict = .ok () → (solve .empty cs').verdict = .ok () →
      ∀ t, (concretize (solve .empty cs).unifier t).1.pretty =
        (concretize (solve .empty cs').unifier t).1.pretty) := by
  have hempty := consistent_empty
  constructor
  · simp only [hempty.solve_error_iff, keeps_rearranged h]
  · intro hok hok' t
    have hsame : ∀ s, Satisfies s (solve .empty cs).unifier ↔
        Satisfies s (solve .empty cs').unifier := by
      intro s
      rw [hempty.satisfies_solve cs hok, hempty.satisfies_solve cs' hok', keeps_rearranged h]
    exact ((hempty.solve cs).variants_concretize (hempty.solve cs') hsame t).pretty_eq

/-- Two variables are made equal, and one of them is a part of what a third stands for. -/
def forwards : List Constraint := [⟨⟨.var 1, .var 2⟩, none⟩, ⟨⟨.var 3, .fn (.var 1) .int⟩, none⟩]

/-- The last comes first, and all are swapped. -/
def backwards : List Constraint := forwards.reverse.map Constraint.swap

/-- The runs choose different variables for the two that were made equal, which does not show. -/
theorem solve_backwards :
    Rearranged forwards backwards ∧
      (concretize (solve .empty forwards).unifier (.var 3)).1 = .fn (.var 2) .int ∧
      (concretize (solve .empty backwards).unifier (.var 3)).1 = .fn (.var 1) .int ∧
      ∀ t, (concretize (solve .empty forwards).unifier t).1.pretty =
        (concretize (solve .empty backwards).unifier t).1.pretty :=
  have h : Rearranged forwards backwards :=
    ⟨forwards.reverse, (List.reverse_perm forwards).symm,
      .cons (.inr rfl) (.cons (.inr rfl) .nil)⟩
  ⟨h, rfl, rfl, (solve_rearranged forwards backwards h).2 rfl rfl⟩

end Unifier

end Monotype
