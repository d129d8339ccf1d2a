import Monotype.Proofs.Ways
import Monotype.Unifier

/-! The operations of unification with nothing taken for granted. A checked look-up that does not
come to its end has no answer, and neither has a checked join of anything but two different roots;
an operation that takes such steps has no answer then either. Where steps follow other steps, an
answer of an operation is its answer with the other steps at every greater depth. So an operation
that has an answer with checked steps ends, and joins two different roots wherever it joins. -/
namespace Monotype.Unifier

/-- Looks types up, and has no answer when a look-up does not come to its end. Joins the sets of two
different roots, and has no answer for anything else. -/
def checked : Steps where
  root t := fun u => u.root? t
  join u r s :=
    if r ≠ s ∧ (u.rootSize? r).isSome ∧ (u.rootSize? s).isSome then some (joinRoots u r s) else none

/-! ### Computations with the same answers -/

section Bind

variable {β γ : Type} {m : StateT Unifier Option β} {k : β → StateT Unifier Option γ}
  {u : Unifier}

theorem bind_apply {b : β} {u' : Unifier} (h : m u = some (b, u')) : (m >>= k) u = k b u' := by
  change (m u).bind (fun p => k p.1 p.2) = _
  rw [h, Option.bind_some]

theorem exists_of_bind {x : γ × Unifier} (h : (m >>= k) u = some x) :
    ∃ b u', m u = some (b, u') ∧ k b u' = some x := by
  change (m u).bind (fun p => k p.1 p.2) = some x at h
  obtain ⟨⟨b, u'⟩, hb, hx⟩ := Option.bind_eq_some_iff.1 h
  exact ⟨b, u', hb, hx⟩

end Bind

/-- Every answer of `m` is the answer of `m'`. -/
def Refines {β : Type} (m m' : StateT Unifier Option β) : Prop :=
  ∀ u x, m u = some x → m' u = some x

namespace Refines

variable {β γ : Type}

theorem refl (m : StateT Unifier Option β) : Refines m m := fun _ _ h => h

theorem bind {m m' : StateT Unifier Option β} {k k' : β → StateT Unifier Option γ}
    (hm : Refines m m') (hk : ∀ b, Refines (k b) (k' b)) : Refines (m >>= k) (m' >>= k') := by
  intro u x h
  obtain ⟨b, u', hb, hx⟩ := exists_of_bind h
  rw [bind_apply (hm u _ hb)]
  exact hk b u' x hx

theorem anyM {step step' : γ → StateT Unifier Option Bool} (h : ∀ t, Refines (step t) (step' t))
    (ts : List γ) : Refines (ts.anyM step) (ts.anyM step') := by
  induction ts with
  | nil => exact refl _
  | cons t ts ih =>
    refine (h t).bind fun found => ?_
    cases found with
    | true => exact refl _
    | false => exact ih

theorem mapM {step step' : γ → StateT Unifier Option β} (h : ∀ t, Refines (step t) (step' t))
    (ts : List γ) : Refines (ts.mapM step) (ts.mapM step') := by
  induction ts with
  | nil => exact refl _
  | cons t ts ih =>
    rw [List.mapM_cons, List.mapM_cons]
    exact (h t).bind fun _ => ih.bind fun _ => refl _

end Refines

/-! ### Steps that follow others -/

namespace Steps

/-- Every answer of these steps is the answer of the others. -/
structure Follows (steps steps' : Steps) : Prop where
  root : ∀ t, Refines (steps.root t) (steps'.root t)
  join : ∀ {u r s u'}, steps.join u r s = some u' → steps'.join u r s = some u'

theorem each_follows {step step' : Unifier → Ty → Ty → Option Attempt}
    (hstep : ∀ u a b x, step u a b = some x → step' u a b = some x) (u : Unifier)
    (ps : List (Ty × Ty)) {x : Attempt} (h : each step u ps = some x) :
    each step' u ps = some x := by
  induction ps generalizing u x with
  | nil => exact h
  | cons p ps ih =>
    obtain ⟨attempt, hp, h⟩ := Option.bind_eq_some_iff.1 h
    refine Option.bind_eq_some_iff.2 ⟨attempt, hstep _ _ _ _ hp, ?_⟩
    unfold Attempt.andThen at h ⊢
    split at h
    · exact h
    · obtain ⟨rest, hrest, h⟩ := Option.map_eq_some_iff.1 h
      exact Option.map_eq_some_iff.2 ⟨rest, ih _ hrest, h⟩

namespace Follows

variable {steps steps' : Steps} (hsteps : steps.Follows steps') {d d' : Nat} (hd : d ≤ d')
include hsteps

theorem look (t : Ty) : Refines (steps.look t) (steps'.look t) := by
  unfold Steps.look
  split
  · exact hsteps.root t
  · exact .refl _

include hd

theorem occursWithin (v t : Ty) :
    Refines (steps.occursWithin d v t) (steps'.occursWithin d' v t) := by
  induction d generalizing d' t with
  | zero => intro u x h; cases h
  | succ d ih =>
    obtain ⟨d', rfl⟩ : ∃ k, d' = k + 1 := ⟨d' - 1, by omega⟩
    refine (hsteps.look t).bind fun r => ?_
    split
    · exact .refl _
    · exact .anyM (fun t => ih (by omega) t) _

theorem concretizeWithin (t : Ty) :
    Refines (steps.concretizeWithin d t) (steps'.concretizeWithin d' t) := by
  induction d generalizing d' t with
  | zero => intro u x h; cases h
  | succ d ih =>
    obtain ⟨d', rfl⟩ : ∃ k, d' = k + 1 := ⟨d' - 1, by omega⟩
    have hd' : d ≤ d' := by omega
    cases t with
    | var v =>
      refine (hsteps.look (.var v)).bind fun r => ?_
      split
      · exact .refl _
      · exact ih hd' r
    | int => exact .refl _
    | bool => exact .refl _
    | fn a b => exact (ih hd' a).bind fun _ => (ih hd' b).bind fun _ => .refl _
    | tuple ts => exact (Refines.mapM (fun t => ih hd' t) ts).bind fun _ => .refl _

theorem bindWithin {u : Unifier} {v t : Ty} {x : Attempt}
    (h : steps.bindWithin d u v t = some x) : steps'.bindWithin d' u v t = some x := by
  obtain ⟨⟨found, u₁⟩, hfound, h⟩ := Option.bind_eq_some_iff.1 h
  refine Option.bind_eq_some_iff.2 ⟨_, hsteps.occursWithin hd v t u _ hfound, ?_⟩
  cases found with
  | true =>
    obtain ⟨p, hp, h⟩ := Option.bind_eq_some_iff.1 h
    exact Option.bind_eq_some_iff.2 ⟨p, hsteps.concretizeWithin hd t u₁ p hp, h⟩
  | false =>
    obtain ⟨u₂, hu₂, h⟩ := Option.bind_eq_some_iff.1 h
    exact Option.bind_eq_some_iff.2 ⟨u₂, hsteps.join hu₂, h⟩

theorem mismatchWithin {u : Unifier} {r s : Ty} {x : Attempt}
    (h : steps.mismatchWithin d u r s = some x) : steps'.mismatchWithin d' u r s = some x := by
  obtain ⟨⟨left, u₁⟩, hleft, h⟩ := Option.bind_eq_some_iff.1 h
  obtain ⟨p, hp, h⟩ := Option.bind_eq_some_iff.1 h
  exact Option.bind_eq_some_iff.2 ⟨_, hsteps.concretizeWithin hd r u _ hleft,
    Option.bind_eq_some_iff.2 ⟨p, hsteps.concretizeWithin hd s u₁ p hp, h⟩⟩

theorem unifyWithin {u : Unifier} {a b : Ty} {x : Attempt}
    (h : steps.unifyWithin d u a b = some x) : steps'.unifyWithin d' u a b = some x := by
  induction d generalizing d' u a b x with
  | zero => cases h
  | succ d ih =>
    obtain ⟨d', rfl⟩ : ∃ k, d' = k + 1 := ⟨d' - 1, by omega⟩
    have hd' : d ≤ d' := by omega
    obtain ⟨⟨r, u₁⟩, hr, h⟩ := Option.bind_eq_some_iff.1 h
    obtain ⟨⟨s, u₂⟩, hs, h⟩ := Option.bind_eq_some_iff.1 h
    obtain ⟨attempt, hattempt, h⟩ := Option.map_eq_some_iff.1 h
    refine Option.bind_eq_some_iff.2 ⟨_, hsteps.root a u _ hr, ?_⟩
    refine Option.bind_eq_some_iff.2 ⟨_, hsteps.root b u₁ _ hs, ?_⟩
    refine Option.map_eq_some_iff.2 ⟨attempt, ?_, h⟩
    split_ifs at hattempt ⊢
    · exact hattempt
    · exact hsteps.bindWithin hd' hattempt
    · exact hsteps.bindWithin hd' hattempt
    · exact each_follows (fun _ _ _ _ => ih hd') _ _ hattempt
    · exact hsteps.mismatchWithin hd' hattempt

end Follows

end Steps

theorem root_eq_of_root? {u : Unifier} {t : Ty} {x : Ty × Unifier} (h : u.root? t = some x) :
    u.root t = x := by
  rw [Forest.root?] at h
  rw [Forest.root, h, Option.getD_some]

theorem checked_follows : checked.Follows plain := by
  refine ⟨fun t u x h => ?_, fun {u r s u'} h => ?_⟩
  · change some (u.root t) = some x
    rw [root_eq_of_root? h]
  · change some (joinRoots u r s) = some u'
    simp only [checked] at h
    split at h
    · exact h
    · cases h

end Monotype.Unifier
