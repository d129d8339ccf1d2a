import Monotype.Proofs.Solved

/-! Reading a unifier. Look-ups may add elements and shorten ways, but the roots stay: what is kept
is the frame, a root function together with a finite set of types that has all elements. In a frame
whose roots are solved, reading a type gives its instance, and searching a variable finds it exactly
where it occurs in the instance. Both end within a depth that the rank gives. -/
namespace Monotype.Unifier

/-- A sound forest with the roots `ρ` that has all elements of `L`, and only elements of `U`. -/
structure Frame (L : List Ty) (U : Finset Ty) (ρ : Ty → Ty) (u : Unifier) : Prop where
  sound : u.Sound
  rootOf : u.rootOf = ρ
  contains : ∀ e ∈ L, e ∈ u.elements
  within : ∀ e ∈ u.elements, e ∈ U

namespace Frame

variable {L : List Ty} {U : Finset Ty} {ρ : Ty → Ty} {u : Unifier} (hu : Frame L U ρ u)
include hu

theorem weaken {L' : List Ty} (h : L' ⊆ L) : Frame L' U ρ u :=
  ⟨hu.sound, hu.rootOf, fun e he => hu.contains e (h he), hu.within⟩

theorem root_mem {t : Ty} (ht : t ∈ U) : ρ t ∈ U := by
  rw [← hu.rootOf]
  by_cases he : t ∈ u.elements
  · exact hu.within _ (hu.sound.rootOf_mem he)
  · rwa [Forest.rootOf_new he]

/-- A look-up comes to its end and keeps the frame. -/
theorem root {t : Ty} (ht : t ∈ U) :
    ∃ u', checked.root t u = some (ρ t, u') ∧ Frame (ρ t :: L) U ρ u' := by
  have hroots : (u.root t).2.rootOf = ρ := by
    rw [← hu.rootOf]
    funext x
    exact hu.sound.rootOf_root t x
  refine ⟨(u.root t).2, ?_, hu.sound.root t, hroots, fun e he => ?_, fun e he => ?_⟩
  · change u.root? t = _
    rw [hu.sound.root?_eq, ← hu.rootOf]
    rfl
  · rcases List.mem_cons.1 he with rfl | he
    · rw [← hroots]
      exact (hu.sound.root t).rootOf_mem ((hu.sound.mem_elements_root t).2 (.inr rfl))
    · exact (hu.sound.mem_elements_root t).2 (.inl (hu.contains e he))
  · rcases (hu.sound.mem_elements_root t).1 he with he | rfl
    · exact hu.within e he
    · exact ht

theorem look {σ : Int → Ty} (hρ : Solved ρ σ) {t : Ty} (ht : t ∈ U) :
    ∃ u', checked.look t u = some (ρ t, u') ∧ Frame L U ρ u' := by
  cases hv : t.isVar with
  | true =>
    obtain ⟨u', hroot, hu'⟩ := hu.root ht
    exact ⟨u', by rw [Steps.look, if_pos hv, hroot], hu'.weaken (List.subset_cons_self _ _)⟩
  | false =>
    refine ⟨u, ?_, hu⟩
    rw [Steps.look, if_neg (by simp [hv]), hρ.concrete t hv]
    rfl

end Frame

/-! ### Computations that keep an invariant -/

section Run

variable {β γ : Type} {I : Unifier → Prop}

/-- A search through a list finds what some step finds; the steps need not be trusted to find the
right things unless `H` holds. -/
theorem anyM_run {step : γ → StateT Unifier Option Bool} {H : Prop} {Q : γ → Prop} (ts : List γ)
    (hstep : ∀ x ∈ ts, ∀ u, I u →
      ∃ found u', step x u = some (found, u') ∧ I u' ∧ (H → (found = true ↔ Q x)))
    (u : Unifier) (hu : I u) :
    ∃ found u', ts.anyM step u = some (found, u') ∧ I u' ∧
      (H → (found = true ↔ ∃ x ∈ ts, Q x)) := by
  induction ts generalizing u with
  | nil => exact ⟨false, u, rfl, hu, by simp⟩
  | cons t ts ih =>
    obtain ⟨found, u₁, hrun, hu₁, hfound⟩ := hstep t (by simp) u hu
    rw [List.anyM, bind_apply hrun]
    cases found with
    | true =>
      refine ⟨true, u₁, rfl, hu₁, fun hH => ?_⟩
      exact ⟨fun _ => ⟨t, by simp, (hfound hH).1 rfl⟩, fun _ => rfl⟩
    | false =>
      obtain ⟨found, u₂, hrest, hu₂, hfound₂⟩ := ih (fun x hx => hstep x (by simp [hx])) u₁ hu₁
      refine ⟨found, u₂, hrest, hu₂, fun hH => ?_⟩
      have hnot : ¬Q t := fun hQ => by simpa using (hfound hH).2 hQ
      rw [hfound₂ hH]
      simp [hnot]

theorem mapM_run {step : γ → StateT Unifier Option β} {g : γ → β} (ts : List γ)
    (hstep : ∀ x ∈ ts, ∀ u, I u → ∃ u', step x u = some (g x, u') ∧ I u')
    (u : Unifier) (hu : I u) : ∃ u', ts.mapM step u = some (ts.map g, u') ∧ I u' := by
  induction ts generalizing u with
  | nil => exact ⟨u, rfl, hu⟩
  | cons t ts ih =>
    obtain ⟨u₁, hrun, hu₁⟩ := hstep t (by simp) u hu
    obtain ⟨u₂, hrest, hu₂⟩ := ih (fun x hx => hstep x (by simp [hx])) u₁ hu₁
    refine ⟨u₂, ?_, hu₂⟩
    rw [List.mapM_cons, bind_apply hrun, bind_apply hrest]
    rfl

end Run

/-! ### Searching and reading -/

section Read

variable {L : List Ty} {U : Finset Ty} {ρ : Ty → Ty} {σ : Int → Ty}
variable (hU : Ty.Closed U) (hρ : Solved ρ σ)
include hρ

/-- Where the root of a type is another root than the variable `w`, the variable occurs in the
instance of the type exactly when it occurs in the instance of an argument of the root. -/
theorem mem_vars_subst_iff {t : Ty} {w : Int} (hne : ρ t ≠ .var w) :
    w ∈ (t.subst σ).vars ↔ ∃ x ∈ (ρ t).args, w ∈ (x.subst σ).vars := by
  rw [← hρ.equates t]
  cases hv : (ρ t).isVar with
  | true =>
    obtain ⟨v, hv⟩ := Ty.exists_of_isVar hv
    have hroot : ρ (.var v) = .var v := by rw [← hv, hρ.idem]
    have hvw : w ≠ v := fun e => hne (by rw [hv, e])
    rw [hv, Ty.subst_var, hρ.free v hroot]
    simp [hvw, Ty.args]
  | false =>
    rw [Ty.vars_eq (Ty.isVar_subst hv σ), Ty.args_subst hv]
    simp

include hU

/-- The search may be for any type; it is exact where that is a variable. -/
theorem occursWithin_run {depth : Nat} {u : Unifier} (hu : Frame L U ρ u) (v : Ty) (w : Int)
    {t : Ty} (ht : t ∈ U) (hd : rank U ρ σ t ≤ depth) :
    ∃ found u', checked.occursWithin depth v t u = some (found, u') ∧ Frame L U ρ u' ∧
      (v = .var w → (found = true ↔ w ∈ (t.subst σ).vars)) := by
  induction depth generalizing t u with
  | zero =>
    have := rank_pos (ρ := ρ) (σ := σ) ht
    omega
  | succ depth ih =>
    obtain ⟨u₁, hlook, hu₁⟩ := hu.look hρ ht
    rw [Steps.occursWithin, bind_apply hlook]
    by_cases hr : ρ t = v
    · rw [if_pos hr]
      refine ⟨true, u₁, rfl, hu₁, ?_⟩
      rintro rfl
      have hw : ρ (.var w) = .var w := by rw [← hr, hρ.idem]
      rw [← hρ.equates t, hr, Ty.subst_var, hρ.free w hw]
      simp
    · rw [if_neg hr]
      have hstep : ∀ x ∈ (ρ t).args, ∀ u, Frame L U ρ u →
          ∃ found u', checked.occursWithin depth v x u = some (found, u') ∧ Frame L U ρ u' ∧
            (v = .var w → (found = true ↔ w ∈ (x.subst σ).vars)) := by
        intro x hx u hu
        have hlt := rank_lt ht (hρ.measure_arg hx)
        exact ih hu (hU _ (hu.root_mem ht) x hx) (by omega)
      obtain ⟨found, u₂, hrun, hu₂, hfound⟩ := anyM_run _ hstep u₁ hu₁
      refine ⟨found, u₂, hrun, hu₂, fun hw => ?_⟩
      rw [hfound hw, mem_vars_subst_iff hρ (hw ▸ hr)]

theorem concretizeWithin_run {depth : Nat} {u : Unifier} (hu : Frame L U ρ u) {t : Ty}
    (ht : t ∈ U) (hd : rank U ρ σ t ≤ depth) :
    ∃ u', checked.concretizeWithin depth t u = some (t.subst σ, u') ∧ Frame L U ρ u' := by
  induction depth generalizing t u with
  | zero =>
    have := rank_pos (ρ := ρ) (σ := σ) ht
    omega
  | succ depth ih =>
    have hargs : ∀ x ∈ t.args, ∀ u, Frame L U ρ u →
        ∃ u', checked.concretizeWithin depth x u = some (x.subst σ, u') ∧ Frame L U ρ u' := by
      intro x hx u hu
      have hroot := hρ.concrete t (Ty.isVar_eq_false_of_mem_args hx)
      have hlt := rank_lt ht (hρ.measure_arg (t := t) (by rwa [hroot]))
      exact ih hu (hU t ht x hx) (by omega)
    cases t with
    | var v =>
      obtain ⟨u₁, hlook, hu₁⟩ := hu.look hρ ht
      rw [Steps.concretizeWithin, bind_apply hlook]
      by_cases hr : ρ (.var v) = .var v
      · refine ⟨u₁, ?_, hu₁⟩
        rw [if_pos hr, Ty.subst_var, hρ.free v hr, hr]
        rfl
      · have hlt := rank_lt ht (hρ.measure_root hr)
        rw [if_neg hr, ← hρ.equates]
        exact ih hu₁ (hu.root_mem ht) (by omega)
    | int => exact ⟨u, by rw [Ty.subst]; rfl, hu⟩
    | bool => exact ⟨u, by rw [Ty.subst]; rfl, hu⟩
    | fn a b =>
      obtain ⟨u₁, ha, hu₁⟩ := hargs a (by simp [Ty.args]) u hu
      obtain ⟨u₂, hb, hu₂⟩ := hargs b (by simp [Ty.args]) u₁ hu₁
      refine ⟨u₂, ?_, hu₂⟩
      rw [Steps.concretizeWithin, bind_apply ha, bind_apply hb, Ty.subst]
      rfl
    | tuple ts =>
      obtain ⟨u₁, hts, hu₁⟩ := mapM_run ts hargs u hu
      refine ⟨u₁, ?_, hu₁⟩
      rw [Steps.concretizeWithin, bind_apply hts, Ty.subst, Ty.substAll_eq]
      rfl

end Read

end Monotype.Unifier
