import Monotype.Ty.Basic
import Mathlib.Algebra.GroupWithZero.Nat
import Mathlib.Algebra.Order.BigOperators.Group.List
import Mathlib.Algebra.Order.Group.Nat
import Mathlib.Data.Finset.Card
import Mathlib.Tactic.Common

/-! Substitutions of types for variables. Every type other than a variable is its shape over its
arguments, and a substitution keeps the shape and acts on the arguments, so functions and tuples are
treated alike throughout. A variable that occurs properly in a type stands for a smaller type than
the whole under every substitution; this is what the occurs check rests on. -/
namespace Monotype.Ty

mutual

/-- Replaces every variable by what the substitution gives for it. -/
def subst (s : Int → Ty) : Ty → Ty
  | .var v => s v
  | .int => .int
  | .bool => .bool
  | .fn a b => .fn (a.subst s) (b.subst s)
  | .tuple ts => .tuple (substAll s ts)

def substAll (s : Int → Ty) : List Ty → List Ty
  | [] => []
  | t :: ts => t.subst s :: substAll s ts

end

theorem substAll_eq (s : Int → Ty) (ts : List Ty) : substAll s ts = ts.map (subst s) := by
  induction ts with
  | nil => rfl
  | cons t ts ih => rw [substAll, ih, List.map_cons]

theorem sizeAll_eq (ts : List Ty) : sizeAll ts = (ts.map size).sum := by
  induction ts with
  | nil => rfl
  | cons t ts ih => rw [sizeAll, ih, List.map_cons, List.sum_cons]

theorem varsAll_eq (ts : List Ty) : varsAll ts = ts.flatMap vars := by
  induction ts with
  | nil => rfl
  | cons t ts ih => rw [varsAll, ih, List.flatMap_cons]

@[simp] theorem subst_var (s : Int → Ty) (v : Int) : (Ty.var v).subst s = s v := by rw [subst]

@[simp] theorem vars_var (v : Int) : (Ty.var v).vars = [v] := by rw [vars]

theorem exists_of_isVar {t : Ty} (h : t.isVar = true) : ∃ v, t = .var v := by
  cases t with
  | var v => exact ⟨v, rfl⟩
  | _ => simp [isVar] at h

theorem args_eq_nil_of_isVar {t : Ty} (h : t.isVar = true) : t.args = [] := by
  obtain ⟨v, rfl⟩ := exists_of_isVar h
  rfl

theorem isVar_eq_false_of_mem_args {t x : Ty} (h : x ∈ t.args) : t.isVar = false := by
  rw [Bool.eq_false_iff]
  intro hv
  rw [args_eq_nil_of_isVar hv] at h
  simp at h

/-! ### A type is its shape over its arguments -/

theorem size_eq (t : Ty) : t.size = (t.args.map size).sum + 1 := by
  cases t <;> simp [size, args, sizeAll_eq]

theorem size_lt_of_mem_args {t x : Ty} (h : x ∈ t.args) : x.size < t.size := by
  have hx : x.size ≤ (t.args.map size).sum := List.le_sum_of_mem (List.mem_map_of_mem h)
  have ht := t.size_eq
  omega

/-- Induction on types through their arguments. -/
@[elab_as_elim]
theorem argsInduction {P : Ty → Prop} (step : ∀ t : Ty, (∀ x ∈ t.args, P x) → P t) (t : Ty) :
    P t := by
  induction hn : t.size using Nat.strong_induction_on generalizing t with
  | _ n ih =>
    apply step
    intro x hx
    have hlt := size_lt_of_mem_args hx
    exact ih x.size (by omega) x rfl

theorem vars_eq {t : Ty} (h : t.isVar = false) : t.vars = t.args.flatMap vars := by
  cases t <;> simp_all [vars, args, varsAll_eq, isVar]

theorem isVar_subst {t : Ty} (h : t.isVar = false) (s : Int → Ty) : (t.subst s).isVar = false := by
  cases t <;> simp_all [subst, isVar]

theorem shape_subst {t : Ty} (h : t.isVar = false) (s : Int → Ty) :
    (t.subst s).shape = t.shape := by
  cases t <;> simp_all [subst, shape, isVar, substAll_eq]

theorem args_subst {t : Ty} (h : t.isVar = false) (s : Int → Ty) :
    (t.subst s).args = t.args.map (subst s) := by
  cases t <;> simp_all [subst, args, isVar, substAll_eq]

theorem length_args_of_shape {a b : Ty} (h : a.shape = b.shape) :
    a.args.length = b.args.length := by
  cases a <;> cases b <;> simp_all [shape, args]

/-- Two types of one shape become equal exactly when their arguments do, one by one. -/
theorem subst_eq_iff_of_shape {a b : Ty} (ha : a.isVar = false) (hb : b.isVar = false)
    (h : a.shape = b.shape) (s : Int → Ty) :
    a.subst s = b.subst s ↔ ∀ p ∈ a.args.zip b.args, p.1.subst s = p.2.subst s := by
  have hlen := length_args_of_shape h
  constructor
  · intro e p hp
    have hargs := congrArg args e
    rw [args_subst ha, args_subst hb] at hargs
    obtain ⟨i, hi, rfl⟩ := List.mem_iff_getElem.1 hp
    have hi' := hi
    rw [List.length_zip] at hi'
    have := congrArg (·[i]?) hargs
    simpa [List.getElem?_eq_getElem, show i < a.args.length by omega,
      show i < b.args.length by omega] using this
  · intro e
    apply eq_of_shape_args
    · rw [shape_subst ha, shape_subst hb, h]
    · rw [args_subst ha, args_subst hb]
      apply List.ext_getElem
      · simpa using hlen
      · intro i hi hi'
        simp only [List.length_map] at hi hi'
        have hz : i < (a.args.zip b.args).length := by rw [List.length_zip]; omega
        simpa using e _ (List.getElem_mem hz)

/-! ### Laws of substitution -/

theorem subst_congr {s s' : Int → Ty} {t : Ty} (h : ∀ v ∈ t.vars, s v = s' v) :
    t.subst s = t.subst s' := by
  induction t using argsInduction with
  | step t ih =>
    cases hv : t.isVar with
    | true =>
      obtain ⟨v, rfl⟩ := exists_of_isVar hv
      simpa using h v (by simp)
    | false =>
      apply eq_of_shape_args
      · rw [shape_subst hv, shape_subst hv]
      · rw [args_subst hv, args_subst hv]
        apply List.map_congr_left
        intro x hx
        apply ih x hx
        intro v hvx
        apply h
        rw [vars_eq hv]
        exact List.mem_flatMap.2 ⟨x, hx, hvx⟩

theorem subst_subst (s s' : Int → Ty) (t : Ty) :
    (t.subst s).subst s' = t.subst fun v => (s v).subst s' := by
  induction t using argsInduction with
  | step t ih =>
    cases hv : t.isVar with
    | true =>
      obtain ⟨v, rfl⟩ := exists_of_isVar hv
      simp
    | false =>
      have hv' := isVar_subst hv s
      apply eq_of_shape_args
      · rw [shape_subst hv', shape_subst hv, shape_subst hv]
      · rw [args_subst hv', args_subst hv, args_subst hv, List.map_map]
        exact List.map_congr_left ih

theorem subst_var_eq_self (t : Ty) : t.subst .var = t := by
  induction t using argsInduction with
  | step t ih =>
    cases hv : t.isVar with
    | true =>
      obtain ⟨v, rfl⟩ := exists_of_isVar hv
      simp
    | false =>
      apply eq_of_shape_args (shape_subst hv _)
      rw [args_subst hv, List.map_congr_left ih, List.map_id']

theorem subst_eq_self {s : Int → Ty} {t : Ty} (h : ∀ v ∈ t.vars, s v = .var v) :
    t.subst s = t :=
  (subst_congr h).trans t.subst_var_eq_self

theorem size_subst_lt_of_mem_args {t x : Ty} (h : x ∈ t.args) (s : Int → Ty) :
    (x.subst s).size < (t.subst s).size := by
  apply size_lt_of_mem_args
  rw [args_subst (isVar_eq_false_of_mem_args h)]
  exact List.mem_map_of_mem h

theorem size_le_size_subst {s : Int → Ty} {t : Ty} {v : Int} (h : v ∈ t.vars) :
    (s v).size ≤ (t.subst s).size := by
  induction t using argsInduction with
  | step t ih =>
    cases hv : t.isVar with
    | true =>
      obtain ⟨w, rfl⟩ := exists_of_isVar hv
      simp_all
    | false =>
      rw [vars_eq hv] at h
      obtain ⟨x, hx, hvx⟩ := List.mem_flatMap.1 h
      have hle := ih x hx hvx
      have hlt := size_subst_lt_of_mem_args hx s
      omega

/-- A variable inside a type that is not a variable stands for a smaller type. -/
theorem size_lt_size_subst {s : Int → Ty} {t : Ty} {v : Int} (ht : t.isVar = false)
    (h : v ∈ t.vars) : (s v).size < (t.subst s).size := by
  rw [vars_eq ht] at h
  obtain ⟨x, hx, hvx⟩ := List.mem_flatMap.1 h
  exact Nat.lt_of_le_of_lt (size_le_size_subst hvx) (size_subst_lt_of_mem_args hx s)

/-! ### The parts of a type -/

mutual

/-- All types inside a type, the type itself first, repeated where they repeat. -/
def parts : Ty → List Ty
  | .var v => [.var v]
  | .int => [.int]
  | .bool => [.bool]
  | .fn a b => .fn a b :: (a.parts ++ b.parts)
  | .tuple ts => .tuple ts :: partsAll ts

def partsAll : List Ty → List Ty
  | [] => []
  | t :: ts => t.parts ++ partsAll ts

end

theorem partsAll_eq (ts : List Ty) : partsAll ts = ts.flatMap parts := by
  induction ts with
  | nil => rfl
  | cons t ts ih => rw [partsAll, ih, List.flatMap_cons]

theorem parts_eq (t : Ty) : t.parts = t :: t.args.flatMap parts := by
  cases t <;> simp [parts, args, partsAll_eq]

theorem length_parts (t : Ty) : t.parts.length = t.size := by
  induction t using argsInduction with
  | step t ih =>
    rw [parts_eq, size_eq, List.length_cons, List.length_flatMap, List.map_congr_left ih]

theorem mem_parts_self (t : Ty) : t ∈ t.parts := by
  rw [parts_eq]
  exact List.mem_cons_self

theorem mem_parts_of_mem_args {t p x : Ty} (hp : p ∈ t.parts) (hx : x ∈ p.args) : x ∈ t.parts := by
  induction t using argsInduction with
  | step t ih =>
    rw [parts_eq] at hp ⊢
    rcases List.mem_cons.1 hp with rfl | hp
    · exact List.mem_cons_of_mem _ (List.mem_flatMap.2 ⟨x, hx, x.mem_parts_self⟩)
    · obtain ⟨y, hy, hpy⟩ := List.mem_flatMap.1 hp
      exact List.mem_cons_of_mem _ (List.mem_flatMap.2 ⟨y, hy, ih y hy hpy⟩)

/-- Types that contain the arguments of each of them. -/
def Closed (ts : Finset Ty) : Prop := ∀ t ∈ ts, ∀ x ∈ t.args, x ∈ ts

/-- All types inside the given ones. -/
def partSet (ts : List Ty) : Finset Ty := (ts.flatMap parts).toFinset

theorem mem_partSet {ts : List Ty} {t : Ty} (h : t ∈ ts) : t ∈ partSet ts :=
  List.mem_toFinset.2 (List.mem_flatMap.2 ⟨t, h, t.mem_parts_self⟩)

theorem closed_partSet (ts : List Ty) : Closed (partSet ts) := by
  intro p hp x hx
  obtain ⟨t, ht, hpt⟩ := List.mem_flatMap.1 (List.mem_toFinset.1 hp)
  exact List.mem_toFinset.2 (List.mem_flatMap.2 ⟨t, ht, mem_parts_of_mem_args hpt hx⟩)

theorem card_partSet_le (ts : List Ty) : (partSet ts).card ≤ sizeAll ts := by
  have hlen : (ts.flatMap parts).length = sizeAll ts := by
    rw [sizeAll_eq, List.length_flatMap, List.map_congr_left fun t _ => length_parts t]
  rw [← hlen]
  exact List.toFinset_card_le _

end Monotype.Ty
