import Monotype.Proofs.Substitution
import Monotype.Ty.Text

/-! Types that are instances of each other. Each comes from the other by a renaming of variables
that keeps distinct variables apart, and the readable text of a type does not show which numbers its
variables have; so such types read the same. -/
namespace Monotype.Ty

/-! ### Renaming variables -/

/-- Replaces variables by variables. -/
def rename (f : Int → Int) (t : Ty) : Ty := t.subst fun v => .var (f v)

theorem vars_rename (f : Int → Int) (t : Ty) : (t.rename f).vars = t.vars.map f := by
  induction t using argsInduction with
  | step t ih =>
    cases hv : t.isVar with
    | true =>
      obtain ⟨v, rfl⟩ := exists_of_isVar hv
      simp [rename]
    | false =>
      have hvars : (t.rename f).vars = (t.rename f).args.flatMap vars := vars_eq (isVar_subst hv _)
      have hargs : (t.rename f).args = t.args.map (rename f) := args_subst hv _
      rw [hvars, hargs, vars_eq hv, List.flatMap_map, List.map_flatMap]
      exact List.flatMap_congr ih

theorem renderAll_eq (name : Int → String) (ts : List Ty) :
    renderAll name ts = ts.map (render name) := by
  induction ts with
  | nil => rfl
  | cons t ts ih => rw [renderAll, ih, List.map_cons]

/-- A renamed type is rendered as it was, if its variables keep their names. -/
theorem render_rename {f : Int → Int} {name name' : Int → String} {t : Ty}
    (h : ∀ v ∈ t.vars, name' (f v) = name v) : (t.rename f).render name' = t.render name := by
  induction t using argsInduction with
  | step t ih =>
    have harg : ∀ x ∈ t.args, (x.rename f).render name' = x.render name := by
      intro x hx
      refine ih x hx fun v hvx => h v ?_
      rw [vars_eq (isVar_eq_false_of_mem_args hx)]
      exact List.mem_flatMap.2 ⟨x, hx, hvx⟩
    unfold rename at harg ⊢
    cases t with
    | var v => simpa [render] using h v (by simp)
    | int => rfl
    | bool => rfl
    | fn a b => simp only [subst, render, harg a (by simp [args]), harg b (by simp [args])]
    | tuple ts =>
      have hall : ts.map (render name' ∘ subst fun v => .var (f v)) = ts.map (render name) :=
        List.map_congr_left harg
      simp only [subst, render, substAll_eq, renderAll_eq, List.map_map, hall]

/-! ### Order of first appearance -/

section Order

variable {α β : Type} [BEq α] [LawfulBEq α] [BEq β] [LawfulBEq β] {f : α → β}

theorem eraseDups_map (l : List α) (h : ∀ a ∈ l, ∀ b ∈ l, f a = f b → a = b) :
    (l.map f).eraseDups = l.eraseDups.map f := by
  induction hn : l.length using Nat.strong_induction_on generalizing l with
  | _ n ih =>
    cases l with
    | nil => rfl
    | cons a l =>
      have hfilter : (l.map f).filter (fun b => !b == f a) = (l.filter fun b => !b == a).map f := by
        rw [List.filter_map]
        congr 1
        apply List.filter_congr
        intro b hb
        have hba := h b (by simp [hb]) a (by simp)
        by_cases heq : b = a
        · simp [heq]
        · simp [heq, mt hba heq]
      rw [List.map_cons, List.eraseDups_cons, List.eraseDups_cons, hfilter, List.map_cons]
      congr 1
      refine ih _ ?_ _ (fun b hb c hc => h b ?_ c ?_) rfl
      · have := List.length_filter_le (fun b => !b == a) l
        simp only [List.length_cons] at hn
        omega
      · exact List.mem_cons_of_mem _ (List.mem_of_mem_filter hb)
      · exact List.mem_cons_of_mem _ (List.mem_of_mem_filter hc)

theorem idxOf_map {a : α} (l : List α) (h : ∀ b ∈ l, f b = f a → b = a) :
    (l.map f).idxOf (f a) = l.idxOf a := by
  induction l with
  | nil => rfl
  | cons b l ih =>
    have hl := ih fun c hc => h c (by simp [hc])
    have hb := h b (by simp)
    by_cases heq : b = a
    · simp [heq]
    · simp [heq, mt hb heq, hl]

end Order

theorem pretty_rename {f : Int → Int} {t : Ty}
    (h : ∀ v ∈ t.vars, ∀ w ∈ t.vars, f v = f w → v = w) : (t.rename f).pretty = t.pretty := by
  have horder : (t.rename f).distinctVars = t.distinctVars.map f := by
    rw [distinctVars, vars_rename]
    exact eraseDups_map _ h
  refine render_rename fun v hv => ?_
  rw [horder, idxOf_map]
  intro w hw
  exact h w (List.mem_eraseDups.1 hw) v hv

/-! ### Instances of each other -/

/-- Each type is an instance of the other. -/
def Variants (t t' : Ty) : Prop := (∃ s, t.subst s = t') ∧ ∃ s, t'.subst s = t

theorem eq_of_subst_eq {s s' : Int → Ty} {t : Ty} (h : t.subst s = t.subst s') {v : Int}
    (hv : v ∈ t.vars) : s v = s' v := by
  induction t using argsInduction with
  | step t ih =>
    cases hvar : t.isVar with
    | true =>
      obtain ⟨w, rfl⟩ := exists_of_isVar hvar
      obtain rfl : v = w := by simpa using hv
      simpa using h
    | false =>
      have hargs := congrArg args h
      rw [args_subst hvar, args_subst hvar, List.map_inj_left] at hargs
      rw [vars_eq hvar] at hv
      obtain ⟨x, hx, hvx⟩ := List.mem_flatMap.1 hv
      exact ih x hx (hargs x hx) hvx

theorem Variants.exists_rename {t t' : Ty} (h : Variants t t') :
    ∃ f, t' = t.rename f ∧ ∀ v ∈ t.vars, ∀ w ∈ t.vars, f v = f w → v = w := by
  obtain ⟨⟨s, rfl⟩, s', hs'⟩ := h
  have hback : ∀ v ∈ t.vars, (s v).subst s' = .var v := by
    intro v hv
    rw [subst_subst, ← t.subst_var_eq_self, subst_subst] at hs'
    exact eq_of_subst_eq hs' hv
  have hvar : ∀ v ∈ t.vars, ∃ w, s v = .var w := by
    intro v hv
    apply exists_of_isVar
    by_contra hno
    have := isVar_subst (Bool.eq_false_iff.2 hno) s'
    rw [hback v hv] at this
    simp [isVar] at this
  choose! f hf using hvar
  refine ⟨f, subst_congr hf, fun v hv w hw hvw => ?_⟩
  have hsv : s v = s w := by rw [hf v hv, hf w hw, hvw]
  have := hback v hv
  rw [hsv, hback w hw] at this
  exact (Ty.var.inj this).symm

theorem Variants.pretty_eq {t t' : Ty} (h : Variants t t') : t.pretty = t'.pretty := by
  obtain ⟨f, rfl, hf⟩ := h.exists_rename
  exact (pretty_rename hf).symm

end Monotype.Ty
