import Monotype.Proofs.Reading

/-! Unification is exact. From any unifier whose roots are solved, an attempt to make pairs of types
equal ends, leaves a unifier whose roots are solved again, and either keeps exactly those
substitutions that also make the pairs equal, or fails where there is no such substitution. The
state changes between the calls for successive arguments, so the depth is not bounded by a rank in
one state: what persists is the trail of types that led to the present call, and it has no type
twice in any state. -/
namespace Monotype.Unifier

/-- The substitution makes the types of each pair equal. -/
def Unifies (s : Int → Ty) (ps : List (Ty × Ty)) : Prop := ∀ p ∈ ps, p.1.subst s = p.2.subst s

theorem unifies_nil (s : Int → Ty) : Unifies s [] := by
  intro p hp
  simp at hp

theorem unifies_cons (s : Int → Ty) (p : Ty × Ty) (ps : List (Ty × Ty)) :
    Unifies s (p :: ps) ↔ p.1.subst s = p.2.subst s ∧ Unifies s ps := by
  simp [Unifies]

theorem unifies_singleton (s : Int → Ty) (a b : Ty) :
    Unifies s [(a, b)] ↔ a.subst s = b.subst s := by
  simp [Unifies]

/-- A clash tells the truth: types that the substitution does not change any more, one of which has
the variable inside or which differ in shape. -/
def ClashHolds (ρ : Ty → Ty) (σ : Int → Ty) : Clash → Prop
  | .infinite v t => ∃ w, v = .var w ∧ ρ v = v ∧ t ≠ v ∧ w ∈ t.vars ∧ t.subst σ = t
  | .mismatch a b => a.isVar = false ∧ b.isVar = false ∧ a.shape ≠ b.shape ∧
      a.subst σ = a ∧ b.subst σ = b

/-- How an attempt at the pairs may end, where the roots were `ρ`. -/
def Ends (ρ : Ty → Ty) (ps : List (Ty × Ty)) (ρ' : Ty → Ty) (σ' : Int → Ty) :
    Except Clash Unit → Prop
  | .ok () => ∀ s, Equates s ρ' ↔ Equates s ρ ∧ Unifies s ps
  | .error clash => (∀ s, Equates s ρ → ¬Unifies s ps) ∧ ClashHolds ρ' σ' clash

/-- The attempt ends as it should and leaves solved roots. -/
def Settles (U : Finset Ty) (ρ : Ty → Ty) (ps : List (Ty × Ty)) (a : Attempt) : Prop :=
  ∃ ρ' σ', Frame [] U ρ' a.unifier ∧ Solved ρ' σ' ∧ Extends ρ ρ' ∧ Ends ρ ps ρ' σ' a.verdict

/-- Pairs that the same substitutions make equal are settled by the same attempts. -/
theorem Settles.congr {U : Finset Ty} {ρ : Ty → Ty} {ps qs : List (Ty × Ty)} {x : Attempt}
    (h : Settles U ρ ps x) (hpq : ∀ s, Equates s ρ → (Unifies s ps ↔ Unifies s qs)) :
    Settles U ρ qs x := by
  obtain ⟨ρ', σ', hframe, hsolved, hext, hends⟩ := h
  refine ⟨ρ', σ', hframe, hsolved, hext, ?_⟩
  cases hx : x.verdict with
  | ok _ =>
    rw [hx] at hends
    intro s
    rw [hends s]
    exact and_congr_right (hpq s)
  | error clash =>
    rw [hx] at hends
    exact ⟨fun s hs hqs => hends.1 s hs ((hpq s hs).2 hqs), hends.2⟩

/-! ### Trails -/

/-- `n` steps, each from a type to an argument of its root, lead from a type of `U` to this one. -/
inductive Trail (U : Finset Ty) (ρ : Ty → Ty) : Nat → Ty → Prop
  | start {t : Ty} (h : t ∈ U) : Trail U ρ 0 t
  | arg {n : Nat} {t x : Ty} (trail : Trail U ρ n t) (h : x ∈ (ρ t).args) : Trail U ρ (n + 1) x

namespace Trail

variable {U : Finset Ty} {ρ ρ' : Ty → Ty} {n : Nat} {t : Ty}

theorem mem (hU : Ty.Closed U) (hroot : ∀ t ∈ U, ρ t ∈ U) (h : Trail U ρ n t) : t ∈ U := by
  induction h with
  | start h => exact h
  | arg _ hx ih => exact hU _ (hroot _ ih) _ hx

theorem extend (hρ : Extends ρ ρ') (h : Trail U ρ n t) : Trail U ρ' n t := by
  induction h with
  | start h => exact .start h
  | arg _ hx ih =>
    refine .arg ih ?_
    rwa [hρ _ (Ty.isVar_eq_false_of_mem_args hx)]

/-- The rank falls with every step, so a trail is no longer than `U` has types. -/
theorem add_rank_le (hU : Ty.Closed U) (hroot : ∀ t ∈ U, ρ t ∈ U) {σ : Int → Ty}
    (hρ : Solved ρ σ) (h : Trail U ρ n t) : n + rank U ρ σ t ≤ U.card := by
  induction h with
  | start _ => rw [Nat.zero_add]; exact rank_le_card
  | arg trail hx ih =>
    have hlt := rank_lt (trail.mem hU hroot) (hρ.measure_arg hx)
    omega

end Trail

/-! ### Joining -/

section Join

variable {L : List Ty} {U : Finset Ty} {ρ : Ty → Ty} {u : Unifier} {r s : Ty}

theorem Frame.cell?_root (hu : Frame L U ρ u) (hmem : r ∈ L) (hr : ρ r = r) :
    ∃ n, u.cell? r = some (.root n) := by
  rw [← hu.sound.rootOf_eq_iff (hu.contains r hmem), hu.rootOf, hr]

theorem Frame.link (hu : Frame L U ρ u) (hrL : r ∈ L) (hsL : s ∈ L) (hr : ρ r = r) (hs : ρ s = s)
    (hne : r ≠ s) : Frame L U (redirect ρ r s) (u.link r s) := by
  obtain ⟨m, hm⟩ := hu.cell?_root hrL hr
  obtain ⟨n, hn⟩ := hu.cell?_root hsL hs
  have helements := Forest.elements_link hm hn
  refine ⟨Forest.sound_link hm hn hne hu.sound, ?_, fun e he => ?_, fun e he => ?_⟩
  · funext t
    rw [Forest.rootOf_link hm hn hne hu.sound, hu.rootOf]
    rfl
  · rw [helements]
    exact hu.contains e he
  · rw [helements] at he
    exact hu.within e he

/-- A join of a variable and another root hangs one of them under the other. The one that is hung is
a variable. -/
theorem Frame.joinRoots (hu : Frame L U ρ u) (hrL : r ∈ L) (hsL : s ∈ L) (hr : ρ r = r)
    (hs : ρ s = s) (hne : r ≠ s) (hv : r.isVar = true) :
    ∃ u', checked.join u r s = some u' ∧
      (Frame L U (redirect ρ r s) u' ∨ s.isVar = true ∧ Frame L U (redirect ρ s r) u') := by
  obtain ⟨m, hm⟩ := hu.cell?_root hrL hr
  obtain ⟨n, hn⟩ := hu.cell?_root hsL hs
  refine ⟨Unifier.joinRoots u r s, ?_, ?_⟩
  · refine if_pos ⟨hne, ?_, ?_⟩
    · simp [Forest.rootSize?, hm]
    · simp [Forest.rootSize?, hn]
  · unfold Unifier.joinRoots
    cases hvs : s.isVar with
    | false =>
      rw [hv]
      exact .inl (hu.link hrL hsL hr hs hne)
    | true =>
      rw [hv]
      dsimp only
      unfold Forest.merge
      split
      · exact .inr ⟨rfl, hu.link hsL hrL hs hr hne.symm⟩
      · exact .inl (hu.link hrL hsL hr hs hne)

end Join

/-! ### Attempts -/

section Attempt

variable {U : Finset Ty} {ρ : Ty → Ty} {σ : Int → Ty}

theorem Settles.join {r s : Ty} {u : Unifier} {es : List Event} {c : Int} {p : Ty}
    (hρ : Solved ρ σ) (hc : ρ (.var c) = .var c) (hp : ρ p = p) (hocc : c ∉ (p.subst σ).vars)
    (hpair : ∀ t : Int → Ty, r.subst t = s.subst t ↔ (Ty.var c).subst t = p.subst t)
    (hu : Frame [] U (redirect ρ (.var c) p) u) : Settles U ρ [(r, s)] ⟨.ok (), u, es⟩ := by
  refine ⟨_, _, hu, hρ.redirect hc hp hocc, extends_redirect ρ rfl p, fun t => ?_⟩
  rw [equates_redirect hc, unifies_singleton, hpair]

/-- A variable stands for a smaller type than any other type that has it in its instance. -/
theorem not_unifies_of_occurs (hρ : Solved ρ σ) {c : Int} {t : Ty} (ht : ρ t = t)
    (hne : t ≠ .var c) (hocc : c ∈ (t.subst σ).vars) (s : Int → Ty) (hs : Equates s ρ) :
    ¬Unifies s [(.var c, t)] := by
  rw [unifies_singleton, Ty.subst_var]
  intro heq
  have hv : t.isVar = false := by
    rw [Bool.eq_false_iff]
    intro hv
    obtain ⟨w, rfl⟩ := Ty.exists_of_isVar hv
    rw [Ty.subst_var, hρ.free w ht] at hocc
    simp only [Ty.vars_var, List.mem_singleton] at hocc
    exact hne (by rw [hocc])
  have hlt := Ty.size_lt_size_subst (s := s) (Ty.isVar_subst hv σ) hocc
  rw [hρ.mostGeneral hs, ← heq] at hlt
  omega

variable (hU : Ty.Closed U) (hρ : Solved ρ σ)
include hU hρ

theorem bindWithin_run {depth : Nat} {u : Unifier} {L : List Ty} (hu : Frame L U ρ u) {v t : Ty}
    (hvL : v ∈ L) (htL : t ∈ L) (hvar : v.isVar = true) (hv : ρ v = v) (ht : ρ t = t) (hne : v ≠ t)
    (hd : rank U ρ σ t ≤ depth) :
    ∃ a, checked.bindWithin depth u v t = some a ∧ Settles U ρ [(v, t)] a := by
  obtain ⟨c, rfl⟩ := Ty.exists_of_isVar hvar
  have htU : t ∈ U := hu.within t (hu.contains t htL)
  obtain ⟨found, u₁, hoccurs, hu₁, hfound⟩ := occursWithin_run hU hρ hu (.var c) c htU hd
  have hocc := hfound rfl
  unfold Steps.bindWithin
  rw [hoccurs]
  cases found with
  | true =>
    obtain ⟨u₂, hread, hu₂⟩ := concretizeWithin_run hU hρ hu₁ htU hd
    have hmem := hocc.1 rfl
    refine ⟨⟨.error (.infinite (.var c) (t.subst σ)), u₂, [.circular (.var c) t]⟩, ?_, ρ, σ,
      hu₂.weaken (by simp), hρ, .refl ρ, not_unifies_of_occurs hρ ht hne.symm hmem, ?_⟩
    · simp only [Option.bind_eq_bind, Option.bind_some, if_true, hread, Option.pure_def]
    · refine ⟨c, rfl, hv, fun e => ?_, hmem, hρ.mostGeneral hρ.equates t⟩
      exact not_unifies_of_occurs hρ ht hne.symm hmem σ hρ.equates
        ((unifies_singleton _ _ _).2 (by rw [e, Ty.subst_var, hρ.free c hv]))
  | false =>
    have hmem : c ∉ (t.subst σ).vars := fun h => by simpa using hocc.2 h
    obtain ⟨u₂, hjoin, hu₂⟩ := hu₁.joinRoots hvL htL hv ht hne hvar
    refine ⟨⟨.ok (), u₂, []⟩, ?_, ?_⟩
    · simp only [Option.bind_eq_bind, Option.bind_some, Bool.false_eq_true, if_false, hjoin,
        Option.pure_def]
    · rcases hu₂ with hu₂ | ⟨hvt, hu₂⟩
      · exact .join hρ hv ht hmem (fun _ => Iff.rfl) (hu₂.weaken (by simp))
      · -- both are variables, and the other one was hung
        obtain ⟨w, rfl⟩ := Ty.exists_of_isVar hvt
        refine .join hρ ht hv ?_ (fun _ => eq_comm) (hu₂.weaken (by simp))
        rw [Ty.subst_var, hρ.free c hv, Ty.vars_var, List.mem_singleton]
        exact fun e => hne (by rw [e])

theorem mismatchWithin_run {depth : Nat} {u : Unifier} {L : List Ty} (hu : Frame L U ρ u)
    {r s : Ty} (hrU : r ∈ U) (hsU : s ∈ U) (hr : r.isVar = false) (hs : s.isVar = false)
    (hne : r.shape ≠ s.shape) (hdr : rank U ρ σ r ≤ depth) (hds : rank U ρ σ s ≤ depth) :
    ∃ a, checked.mismatchWithin depth u r s = some a ∧ Settles U ρ [(r, s)] a := by
  obtain ⟨u₁, hleft, hu₁⟩ := concretizeWithin_run hU hρ hu hrU hdr
  obtain ⟨u₂, hright, hu₂⟩ := concretizeWithin_run hU hρ hu₁ hsU hds
  have hshape : ∀ q : Int → Ty, (r.subst q).shape ≠ (s.subst q).shape := by
    intro q
    rwa [Ty.shape_subst hr, Ty.shape_subst hs]
  refine ⟨⟨.error (.mismatch (r.subst σ) (s.subst σ)), u₂,
    [.mismatched (r.subst σ) (s.subst σ)]⟩, ?_, ρ, σ, hu₂.weaken (by simp), hρ, .refl ρ,
    fun q _ h => ?_, ?_⟩
  · simp only [Steps.mismatchWithin, Option.bind_eq_bind, hleft, Option.bind_some, hright,
      Option.pure_def]
  · exact hshape q (congrArg Ty.shape ((unifies_singleton _ _ _).1 h))
  · exact ⟨Ty.isVar_subst hr σ, Ty.isVar_subst hs σ, hshape σ, hρ.mostGeneral hρ.equates r,
      hρ.mostGeneral hρ.equates s⟩

end Attempt

/-- Where one step settles a pair, the steps in turn settle all pairs. The trails are those of the
first state; later states extend it. -/
theorem each_run {U : Finset Ty} {n : Nat} {step : Unifier → Ty → Ty → Option Attempt}
    (hstep : ∀ {ρ : Ty → Ty} {σ : Int → Ty} {u : Unifier} {a b : Ty}, Frame [] U ρ u →
      Solved ρ σ → Trail U ρ n a → Trail U ρ n b →
      ∃ x, step u a b = some x ∧ Settles U ρ [(a, b)] x)
    (ps : List (Ty × Ty)) {ρ : Ty → Ty} {σ : Int → Ty} {u : Unifier} (hu : Frame [] U ρ u)
    (hρ : Solved ρ σ) (hps : ∀ p ∈ ps, Trail U ρ n p.1 ∧ Trail U ρ n p.2) :
    ∃ x, Steps.each step u ps = some x ∧ Settles U ρ ps x := by
  induction ps generalizing ρ σ u with
  | nil =>
    refine ⟨⟨.ok (), u, []⟩, rfl, ρ, σ, hu, hρ, .refl ρ, fun s => ?_⟩
    simp [unifies_nil]
  | cons p ps ih =>
    obtain ⟨a, b⟩ := p
    obtain ⟨ha, hb⟩ := hps (a, b) (by simp)
    obtain ⟨x, hx, ρ₁, σ₁, hframe, hsolved, hext, hends⟩ := hstep hu hρ ha hb
    rw [Steps.each, hx, Option.bind_some, Attempt.andThen]
    cases hverdict : x.verdict with
    | error clash =>
      rw [hverdict] at hends
      refine ⟨x, rfl, ρ₁, σ₁, hframe, hsolved, hext, ?_⟩
      rw [hverdict]
      refine ⟨fun s hs hall => hends.1 s hs ?_, hends.2⟩
      rw [unifies_singleton]
      exact ((unifies_cons _ _ _).1 hall).1
    | ok _ =>
      rw [hverdict] at hends
      obtain ⟨y, hy, ρ₂, σ₂, hframe₂, hsolved₂, hext₂, hends₂⟩ := ih hframe hsolved fun p hp =>
        have htrail := hps p (by simp [hp])
        ⟨htrail.1.extend hext, htrail.2.extend hext⟩
      refine ⟨{ y with events := x.events ++ y.events }, ?_, ρ₂, σ₂, hframe₂, hsolved₂,
        hext.trans hext₂, ?_⟩
      · simp only [hy, Option.map_some]
      · have hboth : ∀ s, Equates s ρ₁ ∧ Unifies s ps ↔ Equates s ρ ∧ Unifies s ((a, b) :: ps) := by
          intro s
          rw [hends s, unifies_singleton, unifies_cons, and_assoc]
        change Ends _ _ _ _ y.verdict
        cases hy' : y.verdict with
        | ok _ =>
          rw [hy'] at hends₂
          intro s
          rw [hends₂ s, hboth]
        | error clash =>
          rw [hy'] at hends₂
          refine ⟨fun s hs hall => ?_, hends₂.2⟩
          have := (hboth s).2 ⟨hs, hall⟩
          exact hends₂.1 s this.1 this.2

theorem unifyWithin_run {U : Finset Ty} (hU : Ty.Closed U) {depth n : Nat} {ρ : Ty → Ty}
    {σ : Int → Ty} {u : Unifier} {a b : Ty} (hu : Frame [] U ρ u) (hρ : Solved ρ σ)
    (ha : Trail U ρ n a) (hb : Trail U ρ n b) (hd : U.card < n + depth) :
    ∃ x, checked.unifyWithin depth u a b = some x ∧ Settles U ρ [(a, b)] x := by
  induction depth generalizing n ρ σ u a b with
  | zero =>
    have := ha.add_rank_le hU (fun _ => hu.root_mem) hρ
    omega
  | succ depth ih =>
    have hra := ha.add_rank_le hU (fun _ => hu.root_mem) hρ
    have hrb := hb.add_rank_le hU (fun _ => hu.root_mem) hρ
    have hra' := rank_le (U := U) (hρ.measure_root_le a)
    have hrb' := rank_le (U := U) (hρ.measure_root_le b)
    have haU := ha.mem hU fun _ => hu.root_mem
    have hbU := hb.mem hU fun _ => hu.root_mem
    obtain ⟨u₁, hroot₁, hu₁⟩ := hu.root haU
    obtain ⟨u₂, hroot₂, hu₂⟩ := hu₁.root hbU
    have hu' : Frame [] U ρ u₂ := hu₂.weaken (by simp)
    suffices h : ∃ x, (if ρ a = ρ b then some ⟨.ok (), u₂, []⟩
        else if (ρ a).isVar then checked.bindWithin depth u₂ (ρ a) (ρ b)
        else if (ρ b).isVar then checked.bindWithin depth u₂ (ρ b) (ρ a)
        else if (ρ a).shape = (ρ b).shape then
          Steps.each (checked.unifyWithin depth) u₂ ((ρ a).args.zip (ρ b).args)
        else checked.mismatchWithin depth u₂ (ρ a) (ρ b)) = some x ∧
        Settles U ρ [(ρ a, ρ b)] x by
      obtain ⟨x, hx, hsettles⟩ := h
      refine ⟨{ x with events := .compared (ρ a) (ρ b) :: x.events }, ?_, ?_⟩
      · simp only [Steps.unifyWithin, Option.bind_eq_bind, hroot₁, Option.bind_some, hroot₂, hx,
          Option.map_some]
      · refine hsettles.congr fun s hs => ?_
        rw [unifies_singleton, unifies_singleton, hs a, hs b]
    split_ifs with heq hva hvb hshape
    · refine ⟨_, rfl, ρ, σ, hu', hρ, .refl ρ, fun s => ?_⟩
      rw [unifies_singleton, heq]
      simp
    · exact bindWithin_run hU hρ hu₂ (by simp) (by simp) hva (hρ.idem a) (hρ.idem b) heq (by omega)
    · obtain ⟨x, hx, hsettles⟩ := bindWithin_run hU hρ hu₂ (by simp) (by simp) hvb (hρ.idem b)
        (hρ.idem a) (Ne.symm heq) (show rank U ρ σ (ρ a) ≤ depth by omega)
      refine ⟨x, hx, hsettles.congr fun s _ => ?_⟩
      rw [unifies_singleton, unifies_singleton, eq_comm]
    · have htrails : ∀ p ∈ (ρ a).args.zip (ρ b).args,
          Trail U ρ (n + 1) p.1 ∧ Trail U ρ (n + 1) p.2 := by
        intro p hp
        have hp' := List.of_mem_zip (a := p.1) (b := p.2) hp
        exact ⟨.arg ha hp'.1, .arg hb hp'.2⟩
      obtain ⟨x, hx, hsettles⟩ := each_run
        (fun hu hρ ha hb => ih hu hρ ha hb (by omega)) _ hu' hρ htrails
      refine ⟨x, hx, hsettles.congr fun s _ => ?_⟩
      rw [unifies_singleton, Ty.subst_eq_iff_of_shape (by simpa using hva) (by simpa using hvb)
        hshape]
      rfl
    · exact mismatchWithin_run hU hρ hu₂ (hu.root_mem haU) (hu.root_mem hbU) (by simpa using hva)
        (by simpa using hvb) hshape (by omega) (by omega)

end Monotype.Unifier
