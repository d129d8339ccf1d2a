import Monotype.Proofs.Checked
import Monotype.Proofs.Substitution

/-! What the sets of a unifier mean. The roots alone count: they are given here as a function from
types to types. A substitution equates the roots when it makes no difference between a type and its
root, and it solves them when it moreover keeps the variables that are roots; every substitution
that equates the roots is then an instance of the one that solves them. Reading an instance of a
type, or searching a variable in it, walks along types of falling rank, and the rank counts types
inside a fixed finite set, so the depth of the walk is bounded by the size of that set. -/
namespace Monotype.Unifier

/-- The substitution does not tell a type from its root. -/
def Equates (s : Int → Ty) (ρ : Ty → Ty) : Prop := ∀ t, (ρ t).subst s = t.subst s

/-- Types other than variables are roots, and `σ` equates the roots and keeps the variables that are
roots. -/
structure Solved (ρ : Ty → Ty) (σ : Int → Ty) : Prop where
  idem : ∀ t, ρ (ρ t) = ρ t
  concrete : ∀ t, t.isVar = false → ρ t = t
  equates : Equates σ ρ
  free : ∀ v, ρ (.var v) = .var v → σ v = .var v

/-- Points the types with root `c` at `p`. -/
def redirect (ρ : Ty → Ty) (c p : Ty) : Ty → Ty := fun t => if ρ t = c then p else ρ t

theorem equates_redirect {ρ : Ty → Ty} {c p : Ty} (hc : ρ c = c) (s : Int → Ty) :
    Equates s (redirect ρ c p) ↔ Equates s ρ ∧ c.subst s = p.subst s := by
  constructor
  · intro h
    have hcp : c.subst s = p.subst s := by
      have := h c
      rw [redirect, if_pos hc] at this
      exact this.symm
    refine ⟨fun t => ?_, hcp⟩
    by_cases ht : ρ t = c
    · have := h t
      rw [redirect, if_pos ht] at this
      rw [ht, hcp, this]
    · have := h t
      rwa [redirect, if_neg ht] at this
  · rintro ⟨h, hcp⟩ t
    by_cases ht : ρ t = c
    · rw [redirect, if_pos ht, ← hcp, ← ht, h t]
    · rw [redirect, if_neg ht, h t]

/-- Every later root that is not a variable was the root before. -/
def Extends (ρ ρ' : Ty → Ty) : Prop := ∀ t, (ρ t).isVar = false → ρ' t = ρ t

theorem Extends.refl (ρ : Ty → Ty) : Extends ρ ρ := fun _ _ => rfl

theorem Extends.trans {ρ ρ' ρ'' : Ty → Ty} (h : Extends ρ ρ') (h' : Extends ρ' ρ'') :
    Extends ρ ρ'' := by
  intro t ht
  rw [h' t (by rw [h t ht, ht]), h t ht]

theorem extends_redirect (ρ : Ty → Ty) {c : Ty} (hc : c.isVar = true) (p : Ty) :
    Extends ρ (redirect ρ c p) := by
  intro t ht
  have hne : ρ t ≠ c := fun h => by rw [h, hc] at ht; cases ht
  rw [redirect, if_neg hne]

/-! ### Ranks -/

/-- Falls on the way from a type to the arguments of its root, and from a variable to its root. -/
def measure (ρ : Ty → Ty) (σ : Int → Ty) (t : Ty) : Nat :=
  3 * (t.subst σ).size + if t.isVar then if ρ t = t then 1 else 2 else 0

/-- How many types of `U` measure no more than `t`. -/
def rank (U : Finset Ty) (ρ : Ty → Ty) (σ : Int → Ty) (t : Ty) : Nat :=
  (U.filter fun x => measure ρ σ x ≤ measure ρ σ t).card

theorem measure_lt (ρ : Ty → Ty) (σ : Int → Ty) (t : Ty) :
    measure ρ σ t < 3 * (t.subst σ).size + 3 := by
  unfold measure
  split_ifs <;> omega

theorem le_measure (ρ : Ty → Ty) (σ : Int → Ty) (t : Ty) :
    3 * (t.subst σ).size ≤ measure ρ σ t := by
  unfold measure
  omega

section Rank

variable {U : Finset Ty} {ρ : Ty → Ty} {σ : Int → Ty} {t x : Ty}

theorem rank_pos (ht : t ∈ U) : 0 < rank U ρ σ t :=
  Finset.card_pos.2 ⟨t, Finset.mem_filter.2 ⟨ht, Nat.le_refl _⟩⟩

theorem rank_le_card : rank U ρ σ t ≤ U.card := Finset.card_filter_le _ _

theorem rank_le (h : measure ρ σ x ≤ measure ρ σ t) : rank U ρ σ x ≤ rank U ρ σ t := by
  refine Finset.card_le_card fun y hy => ?_
  rw [Finset.mem_filter] at hy ⊢
  exact ⟨hy.1, Nat.le_trans hy.2 h⟩

theorem rank_lt (ht : t ∈ U) (h : measure ρ σ x < measure ρ σ t) :
    rank U ρ σ x < rank U ρ σ t := by
  refine Finset.card_lt_card (Finset.ssubset_iff_of_subset ?_ |>.2 ⟨t, ?_, ?_⟩)
  · intro y hy
    rw [Finset.mem_filter] at hy ⊢
    exact ⟨hy.1, Nat.le_trans hy.2 (Nat.le_of_lt h)⟩
  · exact Finset.mem_filter.2 ⟨ht, Nat.le_refl _⟩
  · rw [Finset.mem_filter, not_and]
    omega

end Rank

namespace Solved

variable {ρ : Ty → Ty} {σ : Int → Ty} (h : Solved ρ σ)
include h

theorem measure_arg {t x : Ty} (hx : x ∈ (ρ t).args) : measure ρ σ x < measure ρ σ t := by
  have hsize := Ty.size_subst_lt_of_mem_args hx σ
  rw [h.equates] at hsize
  have hlt := measure_lt ρ σ x
  have hle := le_measure ρ σ t
  omega

theorem measure_root {t : Ty} (ht : ρ t ≠ t) : measure ρ σ (ρ t) < measure ρ σ t := by
  have hvar : t.isVar = true := by
    rw [← Bool.not_eq_false]
    exact fun hv => ht (h.concrete t hv)
  unfold measure
  rw [h.equates, h.idem, if_pos hvar, if_neg ht, if_pos rfl]
  split_ifs <;> omega

theorem measure_root_le (t : Ty) : measure ρ σ (ρ t) ≤ measure ρ σ t := by
  by_cases ht : ρ t = t
  · rw [ht]
  · exact Nat.le_of_lt (h.measure_root ht)

/-- What equates the roots is an instance of what solves them. -/
theorem mostGeneral {s : Int → Ty} (hs : Equates s ρ) (t : Ty) :
    (t.subst σ).subst s = t.subst s := by
  induction hn : measure ρ σ t using Nat.strong_induction_on generalizing t with
  | _ n ih =>
    by_cases ht : ρ t = t
    · cases hv : t.isVar with
      | true =>
        obtain ⟨v, rfl⟩ := Ty.exists_of_isVar hv
        rw [Ty.subst_var, h.free v ht]
      | false =>
        have hv' := Ty.isVar_subst hv σ
        apply Ty.eq_of_shape_args
        · rw [Ty.shape_subst hv', Ty.shape_subst hv, Ty.shape_subst hv]
        · rw [Ty.args_subst hv', Ty.args_subst hv, Ty.args_subst hv, List.map_map]
          apply List.map_congr_left
          intro x hx
          have hlt := h.measure_arg (t := t) (by rwa [ht])
          exact ih _ (by omega) x rfl
    · have hlt := h.measure_root ht
      have := ih _ (by omega) (ρ t) rfl
      rwa [h.equates, hs] at this

/-- Hanging a variable under a root that it does not occur in keeps the roots solved. -/
theorem redirect {c : Int} {p : Ty} (hc : ρ (.var c) = .var c) (hp : ρ p = p)
    (hocc : c ∉ (p.subst σ).vars) :
    Solved (redirect ρ (.var c) p)
      (fun v => (σ v).subst (Function.update .var c (p.subst σ))) := by
  have hne : p ≠ .var c := by
    rintro rfl
    rw [Ty.subst_var, h.free c hc] at hocc
    simp at hocc
  constructor
  · intro t
    by_cases ht : ρ t = .var c
    · simp only [Unifier.redirect, ht, if_true, hp, if_neg hne]
    · simp only [Unifier.redirect, ht, if_false, h.idem]
  · intro t ht
    have htc : t ≠ .var c := by rintro rfl; cases ht
    rw [Unifier.redirect, h.concrete t ht, if_neg htc]
  · intro t
    simp only [← Ty.subst_subst]
    by_cases ht : ρ t = .var c
    · have hfix : (p.subst σ).subst (Function.update .var c (p.subst σ)) = p.subst σ := by
        apply Ty.subst_eq_self
        intro v hv
        have hvc : v ≠ c := fun e => hocc (e ▸ hv)
        rw [Function.update_of_ne hvc]
      rw [Unifier.redirect, if_pos ht, hfix, ← h.equates t, ht, Ty.subst_var, h.free c hc,
        Ty.subst_var, Function.update_self]
    · rw [Unifier.redirect, if_neg ht, h.equates t]
  · intro v hv
    by_cases hvc : ρ (.var v) = .var c
    · rw [Unifier.redirect, if_pos hvc] at hv
      rw [hv] at hp hne
      exact absurd (hp.symm.trans hvc) hne
    · rw [Unifier.redirect, if_neg hvc] at hv
      have hne' : v ≠ c := fun e => hvc (by rw [hv, e])
      rw [h.free v hv, Ty.subst_var, Function.update_of_ne hne']

end Solved

end Monotype.Unifier
