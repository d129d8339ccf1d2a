import Monotype.Proofs.Runs

/-! What look-ups and joins keep, runs keep. Every operation of a unifier is made up of look-ups and
of joins of two different roots. So a property that each of the two keeps is kept by searching,
reading, making types equal and solving, whether they succeed or fail, and it holds in every state
of a run if it holds of the empty unifier. -/
namespace Monotype.Unifier

/-- A property that look-ups and joins of two different roots keep. -/
structure Stable (P : Unifier → Prop) : Prop where
  lookUp : Forest.Lasting P
  join : ∀ {u : Unifier} {r s : Ty} {m n : Nat}, P u → u.cell? r = some (.root m) →
    u.cell? s = some (.root n) → r ≠ s → P (joinRoots u r s)

/-- Every answer of `m` comes with a state that has the property if the first state had it. -/
def Preserves {β : Type} (P : Unifier → Prop) (m : StateT Unifier Option β) : Prop :=
  ∀ u x, P u → m u = some x → P x.2

/-! ### Searching and reading -/

namespace Preserves

variable {β γ : Type} {P : Unifier → Prop}

theorem pure (b : β) : Preserves P (Pure.pure b : StateT Unifier Option β) := by
  intro u x hu h
  cases h
  exact hu

theorem bind {m : StateT Unifier Option β} {k : β → StateT Unifier Option γ} (hm : Preserves P m)
    (hk : ∀ b, Preserves P (k b)) : Preserves P (m >>= k) := by
  intro u x hu h
  obtain ⟨b, u', hb, hx⟩ := exists_of_bind h
  exact hk b u' x (hm u _ hu hb) hx

theorem anyM {step : γ → StateT Unifier Option Bool} (h : ∀ t, Preserves P (step t))
    (ts : List γ) : Preserves P (ts.anyM step) := by
  induction ts with
  | nil => exact .pure false
  | cons t ts ih =>
    refine (h t).bind fun found => ?_
    cases found with
    | true => exact .pure true
    | false => exact ih

theorem mapM {step : γ → StateT Unifier Option β} (h : ∀ t, Preserves P (step t))
    (ts : List γ) : Preserves P (ts.mapM step) := by
  induction ts with
  | nil => exact .pure []
  | cons t ts ih =>
    rw [List.mapM_cons]
    exact (h t).bind fun _ => ih.bind fun _ => .pure _

variable (hP : Forest.Lasting P)
include hP

theorem root (t : Ty) : Preserves P (checked.root t) := by
  intro u x hu h
  rw [← root_eq_of_root? h]
  exact hP u t hu

theorem look (t : Ty) : Preserves P (checked.look t) := by
  unfold Steps.look
  split
  · exact root hP t
  · exact .pure t

theorem occursWithin (depth : Nat) (v t : Ty) :
    Preserves P (checked.occursWithin depth v t) := by
  induction depth generalizing t with
  | zero => intro u x _ h; cases h
  | succ depth ih =>
    refine (look hP t).bind fun r => ?_
    split
    · exact .pure true
    · exact .anyM ih _

theorem concretizeWithin (depth : Nat) (t : Ty) :
    Preserves P (checked.concretizeWithin depth t) := by
  induction depth generalizing t with
  | zero => intro u x _ h; cases h
  | succ depth ih =>
    cases t with
    | var v =>
      refine (look hP (.var v)).bind fun r => ?_
      split
      · exact .pure r
      · exact ih r
    | int => exact .pure Ty.int
    | bool => exact .pure Ty.bool
    | fn a b => exact (ih a).bind fun _ => (ih b).bind fun _ => .pure _
    | tuple ts => exact (Preserves.mapM ih ts).bind fun _ => .pure _

end Preserves

/-! ### Making types equal -/

namespace Stable

variable {P : Unifier → Prop} (hP : Stable P) {u : Unifier} {x : Attempt} {depth : Nat}
include hP

theorem joinRoots (hu : P u) {r s : Ty} {u' : Unifier}
    (h : checked.join u r s = some u') : P u' := by
  have hroot : ∀ {t : Ty}, (u.rootSize? t).isSome → ∃ n, u.cell? t = some (.root n) := by
    intro t ht
    unfold Forest.rootSize? at ht
    split at ht
    · exact ⟨_, ‹_›⟩
    · cases ht
  simp only [checked] at h
  split at h
  · rename_i hroots
    obtain ⟨m, hm⟩ := hroot hroots.2.1
    obtain ⟨n, hn⟩ := hroot hroots.2.2
    cases h
    exact hP.join hu hm hn hroots.1
  · cases h

theorem bindWithin (hu : P u) {v t : Ty} (h : checked.bindWithin depth u v t = some x) :
    P x.unifier := by
  obtain ⟨⟨found, u₁⟩, hfound, h⟩ := Option.bind_eq_some_iff.1 h
  have hu₁ : P u₁ := Preserves.occursWithin hP.lookUp depth v t u _ hu hfound
  cases found with
  | true =>
    obtain ⟨⟨whole, u₂⟩, hwhole, h⟩ := Option.bind_eq_some_iff.1 h
    cases h
    exact Preserves.concretizeWithin hP.lookUp depth t u₁ _ hu₁ hwhole
  | false =>
    obtain ⟨u₂, hjoin, h⟩ := Option.bind_eq_some_iff.1 h
    cases h
    exact hP.joinRoots hu₁ hjoin

theorem mismatchWithin (hu : P u) {r s : Ty} (h : checked.mismatchWithin depth u r s = some x) :
    P x.unifier := by
  obtain ⟨⟨left, u₁⟩, hleft, h⟩ := Option.bind_eq_some_iff.1 h
  obtain ⟨⟨right, u₂⟩, hright, h⟩ := Option.bind_eq_some_iff.1 h
  cases h
  have hu₁ : P u₁ := Preserves.concretizeWithin hP.lookUp depth r u _ hu hleft
  exact Preserves.concretizeWithin hP.lookUp depth s u₁ _ hu₁ hright

omit hP in
theorem each {step : Unifier → Ty → Ty → Option Attempt}
    (hstep : ∀ u a b x, P u → step u a b = some x → P x.unifier) (hu : P u)
    (ps : List (Ty × Ty)) (h : Steps.each step u ps = some x) : P x.unifier := by
  induction ps generalizing u x with
  | nil =>
    cases h
    exact hu
  | cons p ps ih =>
    obtain ⟨first, hfirst, h⟩ := Option.bind_eq_some_iff.1 h
    have hu₁ := hstep _ _ _ _ hu hfirst
    unfold Attempt.andThen at h
    split at h
    · cases h
      exact hu₁
    · obtain ⟨rest, hrest, rfl⟩ := Option.map_eq_some_iff.1 h
      exact ih (x := rest) hu₁ hrest

theorem unifyWithin (hu : P u) {a b : Ty} (h : checked.unifyWithin depth u a b = some x) :
    P x.unifier := by
  induction depth generalizing u a b x with
  | zero => cases h
  | succ depth ih =>
    obtain ⟨⟨r, u₁⟩, hr, h⟩ := Option.bind_eq_some_iff.1 h
    obtain ⟨⟨s, u₂⟩, hs, h⟩ := Option.bind_eq_some_iff.1 h
    obtain ⟨attempt, hattempt, rfl⟩ := Option.map_eq_some_iff.1 h
    have hu₁ : P u₁ := Preserves.root hP.lookUp a u _ hu hr
    have hu₂ : P u₂ := Preserves.root hP.lookUp b u₁ _ hu₁ hs
    change P attempt.unifier
    split_ifs at hattempt
    · cases hattempt
      exact hu₂
    · exact hP.bindWithin hu₂ hattempt
    · exact hP.bindWithin hu₂ hattempt
    · exact each (fun _ _ _ _ hu h => ih hu h) hu₂ _ hattempt
    · exact hP.mismatchWithin hu₂ hattempt

theorem unify (hcons : Consistent u) (hu : P u) (a b : Ty) : P (unify u a b).unifier :=
  hP.unifyWithin hu ((hcons.unify_spec a b).1 _ (weight_lt_depthFor u [a, b]))

theorem solve (hcons : Consistent u) (hu : P u) (cs : List Constraint) :
    P (solve u cs).unifier := by
  induction cs generalizing u with
  | nil => exact hu
  | cons c cs ih =>
    have hc := hP.unify hcons hu c.left c.right
    simp only [Unifier.solve]
    split
    · exact hc
    · exact ih (hcons.unify c.left c.right) hc

/-! ### Runs -/

theorem run (hcons : Consistent u) (hu : P u) (o : Operation) : P (o.run u) := by
  obtain ⟨σ, hσ⟩ := hcons.solvable
  cases o with
  | unify a b => exact hP.unify hcons hu a b
  | solve cs => exact hP.solve hcons hu cs
  | root t => exact hP.lookUp u t hu
  | add t => exact hP.lookUp.add hu t
  | concretize t =>
    have hread := (hcons.concretize_spec hσ t).1 _ (weight_lt_depthFor u [t])
    exact Preserves.concretizeWithin hP.lookUp _ t u _ hu hread
  | occurs v t =>
    have hsearch := (hcons.occurs_spec hσ v t 0).1 _ (weight_lt_depthFor u [t])
    exact Preserves.occursWithin hP.lookUp _ v t u _ hu hsearch
  | sameSet ts => exact hP.lookUp.sameSet hu ts
  | sets => exact hP.lookUp.sets hu

theorem foldl (hcons : Consistent u) (hu : P u) (ops : List Operation) :
    P (ops.foldl Operation.run u) := by
  induction ops generalizing u with
  | nil => exact hu
  | cons o ops ih => exact ih (hcons.run o) (hP.run hcons hu o)

/-- A property of the empty unifier that look-ups and joins keep holds in every state of a run. -/
theorem after (hempty : P .empty) (ops : List Operation) : P (after ops) :=
  hP.foldl consistent_empty hempty ops

end Stable

end Monotype.Unifier
