import Monotype.Proofs.NormalForms
import Monotype.Proofs.Rendering

/-! What a failed attempt says is true. Its message can be understood in one way only, since the
first type in it is followed by a space, and no text of a type goes on with a space outside its
parentheses. In the unifier that the attempt leaves, the types that are named read as themselves,
and they are in conflict as the message says: a variable that stands for itself occurs in another
type, or two types differ at their head. -/
namespace Monotype

/-! ### Messages -/

/-- Two texts with something between them that begins with a divider can be told apart. -/
theorem Ty.spellings_inj {between : List Char} (hbetween : ∀ rest, Divided (between ++ rest))
    {a a' b b' : Ty} (h : a.spelling.toList ++ (between ++ b.spelling.toList) =
      a'.spelling.toList ++ (between ++ b'.spelling.toList)) : a = a' ∧ b = b' := by
  obtain ⟨ha, hrest⟩ := spelling_append_inj (hbetween _) (hbetween _) h
  exact ⟨ha, spelling_injective (String.toList_inj.1 (List.append_cancel_left hrest))⟩

namespace Clash

theorem toList_message_infinite (v t : Ty) : (infinite v t).message.toList =
    "Infinite type: ".toList ++
      (v.spelling.toList ++ (" occurs in ".toList ++ t.spelling.toList)) := by
  -- `change`, since the equations of `message` take long to generate
  change ("Infinite type: " ++ v.spelling ++ " occurs in " ++ t.spelling).toList = _
  simp only [String.toList_append, List.append_assoc]

theorem toList_message_mismatch (a b : Ty) : (mismatch a b).message.toList =
    "Type mismatch: ".toList ++ (a.spelling.toList ++ (" != ".toList ++ b.spelling.toList)) := by
  change ("Type mismatch: " ++ a.spelling ++ " != " ++ b.spelling).toList = _
  simp only [String.toList_append, List.append_assoc]

theorem message_infinite_ne_mismatch (v t a b : Ty) :
    (infinite v t).message ≠ (mismatch a b).message := by
  intro h
  have hfirst := congrArg (fun s => s.toList.head?) h
  simp only [toList_message_infinite, toList_message_mismatch] at hfirst
  exact absurd hfirst (show some 'I' ≠ some 'T' by decide)

theorem message_injective : Function.Injective message := by
  intro c d h
  cases c with
  | infinite v t =>
    cases d with
    | infinite v' t' =>
      have hchars := congrArg String.toList h
      rw [toList_message_infinite, toList_message_infinite] at hchars
      obtain ⟨rfl, rfl⟩ := Ty.spellings_inj (fun _ => Ty.divided_cons rfl _)
        (List.append_cancel_left hchars)
      rfl
    | mismatch a b => exact absurd h (message_infinite_ne_mismatch v t a b)
  | mismatch a b =>
    cases d with
    | infinite v t => exact absurd h.symm (message_infinite_ne_mismatch v t a b)
    | mismatch a' b' =>
      have hchars := congrArg String.toList h
      rw [toList_message_mismatch, toList_message_mismatch] at hchars
      obtain ⟨rfl, rfl⟩ := Ty.spellings_inj (fun _ => Ty.divided_cons rfl _)
        (List.append_cancel_left hchars)
      rfl

end Clash

/-! ### Conflicts -/

namespace Unifier

/-- In the unifier, `v` is a variable that stands for itself, and it occurs in `t`, which is another
type and reads as itself. -/
structure Circular (u : Unifier) (v t : Ty) : Prop where
  occurs : ∃ w, v = .var w ∧ w ∈ t.vars
  root : (u.root v).1 = v
  ne : t ≠ v
  read : (concretize u t).1 = t

/-- Neither type is a variable, they differ in their constructor or in the number of its arguments,
and both read as themselves in the unifier. -/
structure Mismatched (u : Unifier) (a b : Ty) : Prop where
  left_concrete : a.isVar = false
  right_concrete : b.isVar = false
  shape_ne : a.shape ≠ b.shape
  left_read : (concretize u a).1 = a
  right_read : (concretize u b).1 = b

def Holds (u : Unifier) : Clash → Prop
  | .infinite v t => Circular u v t
  | .mismatch a b => Mismatched u a b

/-- What is true of the roots and of the substitution that solves them is true of the unifier. -/
theorem Consistent.holds {u : Unifier} (hu : Consistent u) {σ : Int → Ty}
    (hσ : Solved u.rootOf σ) {clash : Clash} (h : ClashHolds u.rootOf σ clash) :
    Holds u clash := by
  have hread : ∀ t : Ty, t.subst σ = t → (Unifier.concretize u t).1 = t := by
    intro t ht
    rw [(hu.concretize_spec hσ t).2.2, ht]
  cases clash with
  | infinite v t =>
    obtain ⟨w, hw, hroot, hne, hmem, hfix⟩ := h
    exact ⟨⟨w, hw, hmem⟩, hroot, hne, hread t hfix⟩
  | mismatch a b =>
    obtain ⟨ha, hb, hshape, hfixa, hfixb⟩ := h
    exact ⟨ha, hb, hshape, hread a hfixa, hread b hfixb⟩

theorem Consistent.unify_holds {u : Unifier} (hu : Consistent u) {a b : Ty} {clash : Clash}
    (h : (Unifier.unify u a b).verdict = .error clash) :
    Holds (Unifier.unify u a b).unifier clash := by
  obtain ⟨-, ρ', σ', hframe, hsolved, -, hends⟩ := hu.unify_spec a b
  rw [h] at hends
  rw [← hframe.rootOf] at hsolved hends
  exact (hu.unify a b).holds hsolved hends.2

/-- In every state of a run, whatever types the message of a failed attempt can be understood to
name, they are in that conflict in the unifier that the attempt leaves. -/
theorem unify_message_true (ops : List Operation) (a b : Ty) (clash : Clash)
    (h : (unify (after ops) a b).verdict = .error clash) :
    (∀ v t : Ty, clash.message = "Infinite type: " ++ v.spelling ++ " occurs in " ++ t.spelling →
      clash = .infinite v t ∧ Circular (unify (after ops) a b).unifier v t) ∧
    (∀ l r : Ty, clash.message = "Type mismatch: " ++ l.spelling ++ " != " ++ r.spelling →
      clash = .mismatch l r ∧ Mismatched (unify (after ops) a b).unifier l r) := by
  have hholds := (consistent_after ops).unify_holds h
  refine ⟨fun v t hmessage => ?_, fun l r hmessage => ?_⟩
  · obtain rfl : clash = .infinite v t := Clash.message_injective hmessage
    exact ⟨rfl, hholds⟩
  · obtain rfl : clash = .mismatch l r := Clash.message_injective hmessage
    exact ⟨rfl, hholds⟩

/-- The first variable stands for a function from what the fourth stands for. -/
def nesting : List Operation :=
  [.unify (.var 4) (.fn (.var 2) .bool), .unify (.var 1) (.fn (.var 4) .int)]

/-- The first pair of arguments is made equal, and then the second pair fails. The type that is
named is the root with the fourth variable replaced. -/
theorem unify_message_nested :
    (unify (after nesting) (.tuple [.var 3, .var 2]) (.tuple [.var 1, .var 3])).verdict =
        .error (.infinite (.var 2) (.fn (.fn (.var 2) .bool) .int)) ∧
      Circular (unify (after nesting) (.tuple [.var 3, .var 2]) (.tuple [.var 1, .var 3])).unifier
        (.var 2) (.fn (.fn (.var 2) .bool) .int) :=
  have h : (unify (after nesting) (.tuple [.var 3, .var 2]) (.tuple [.var 1, .var 3])).verdict =
      .error (.infinite (.var 2) (.fn (.fn (.var 2) .bool) .int)) := rfl
  ⟨h, ((unify_message_true nesting (.tuple [.var 3, .var 2]) (.tuple [.var 1, .var 3])
    (.infinite (.var 2) (.fn (.fn (.var 2) .bool) .int)) h).1 (.var 2)
    (.fn (.fn (.var 2) .bool) .int) rfl).2⟩

end Unifier

end Monotype
