import Monotype.Annotation
import Monotype.Constraint
import Monotype.Proofs.Substitution

/-! Where the variables of an annotated expression come from. An expression is annotated when `n`
variables have been handed out, and it leaves `m` handed out: its types and its equations then have
only variables up to `m`. A use of a declared name carries a variable beyond `n`, and so the type of
no parameter around it. -/
namespace Monotype

/-- No variable beyond `n`. -/
def Ty.Below (n : Nat) (t : Ty) : Prop := ∀ v ∈ t.vars, v ≤ (n : Int)

namespace Ty

theorem Below.mono {n m : Nat} {t : Ty} (h : t.Below n) (hnm : n ≤ m) : t.Below m := by
  intro v hv
  have := h v hv
  omega

theorem below_var {n : Nat} {v : Int} : (Ty.var v).Below n ↔ v ≤ (n : Int) := by
  simp [Below]

theorem below_fn {n : Nat} {a b : Ty} : (Ty.fn a b).Below n ↔ a.Below n ∧ b.Below n := by
  simp [Below, vars, or_imp, forall_and]

theorem below_int (n : Nat) : Ty.int.Below n := by simp [Below, vars]

theorem below_bool (n : Nat) : Ty.bool.Below n := by simp [Below, vars]

/-- Substitutions that agree up to `n` do not differ on types without variables beyond `n`. -/
theorem Below.subst_congr {n : Nat} {t : Ty} (h : t.Below n) {s s' : Int → Ty}
    (hs : ∀ v ≤ (n : Int), s' v = s v) : t.subst s' = t.subst s :=
  Ty.subst_congr fun v hv => hs v (h v hv)

end Ty

namespace Scope

/-- No binding, hidden or not, has a type with a variable beyond `n`. -/
def Below (n : Nat) (scope : Scope) : Prop := ∀ t ∈ scope.types, t.Below n

theorem Below.mono {n m : Nat} {scope : Scope} (h : scope.Below n) (hnm : n ≤ m) :
    scope.Below m := fun t ht => (h t ht).mono hnm

theorem types_extend_some (scope : Scope) (x : String) (t : Ty) :
    types (scope.extend x (some t)) = t :: scope.types := rfl

theorem Below.extend {n : Nat} {scope : Scope} (h : scope.Below n) (x : String) {t : Ty}
    (ht : t.Below n) : Scope.Below n (scope.extend x (some t)) := by
  intro t' ht'
  rw [types_extend_some] at ht'
  rcases List.mem_cons.1 ht' with rfl | ht'
  · exact ht
  · exact h t' ht'

theorem Below.hide {n : Nat} {scope : Scope} (h : scope.Below n) (x : String) :
    Scope.Below n (scope.extend x none) := h

theorem below_empty (n : Nat) : Scope.Below n .empty := by
  intro t ht
  simp [types, Env.empty, Env.values, OrderedMap.empty, OrderedMap.values] at ht

theorem below_builtin (n : Nat) : Scope.Below n .builtin := by
  have htypes : types .builtin = List.replicate 5 (.fn .int .int) := by rfl
  intro t ht
  rw [htypes] at ht
  rw [List.eq_of_mem_replicate ht, Ty.below_fn]
  exact ⟨Ty.below_int n, Ty.below_int n⟩

theorem mem_types {scope : Scope} {x : String} {t : Ty} (h : scope.typeOf? x = some t) :
    t ∈ scope.types := by
  have hfind : scope.find? x = some (some t) := Option.join_eq_some_iff.1 h
  have hmem : some t ∈ scope.values := by
    rw [Env.find?, Option.or_eq_some_iff] at hfind
    rw [Env.values, List.mem_append]
    rcases hfind with hlocal | ⟨-, hglobal⟩
    · obtain ⟨l₁, l₂, hl, -⟩ := List.lookup_eq_some_iff.1 hlocal
      exact .inl (List.mem_map.2 ⟨(x, some t), by rw [hl]; simp, rfl⟩)
    · obtain ⟨l₁, l₂, hl, -⟩ := List.lookup_eq_some_iff.1 hglobal
      exact .inr (List.mem_map.2 ⟨(x, some t), by rw [hl]; simp, rfl⟩)
  exact List.mem_filterMap.2 ⟨some t, hmem, rfl⟩

theorem Below.typeOf? {n : Nat} {scope : Scope} (h : scope.Below n) {x : String} {t : Ty}
    (ht : scope.typeOf? x = some t) : t.Below n := h t (mem_types ht)

theorem permits_fresh {scope : Scope} {n : Nat} (h : scope.Below n) {x : String}
    (hx : scope.typeOf? x = none) : scope.permits x (.var (n + 1)) = true := by
  have hnew : (Ty.var (n + 1)) ∉ scope.types := by
    intro hmem
    have := Ty.below_var.1 (h _ hmem)
    omega
  unfold permits
  cases hfind : scope.find? x with
  | none => rfl
  | some binder =>
    cases binder with
    | none => simpa using hnew
    | some t => simp [typeOf?, hfind] at hx

theorem permits_param {scope : Scope} {x : String} {t : Ty} (h : scope.typeOf? x = some t) :
    scope.permits x t = true := by
  have hfind : scope.find? x = some (some t) := Option.join_eq_some_iff.1 h
  simp [permits, hfind]

end Scope

namespace Expr

theorem label_ident_some {scope : Scope} {x : String} {t : Ty} (h : scope.typeOf? x = some t)
    (n : Nat) : (ident x).label scope n = (.ident t x, n) := by
  rw [label, h]

theorem label_ident_none {scope : Scope} {x : String} (h : scope.typeOf? x = none) (n : Nat) :
    (ident x).label scope n = (.ident (.var (n + 1)) x, n + 1) := by
  rw [label, h]

theorem le_label (scope : Scope) (n : Nat) (e : Expr) : n ≤ (e.label scope n).2 := by
  induction e generalizing scope n with
  | ident x =>
    cases hx : scope.typeOf? x with
    | some t => rw [label_ident_some hx]
    | none =>
      rw [label_ident_none hx]
      exact Nat.le_succ n
  | const value => exact Nat.le_succ n
  | lambda x b ih =>
    have := ih (scope.extend x (some (.var (n + 2)))) (n + 2)
    simp only [label]
    omega
  | call f a ihf iha =>
    have := ihf scope (n + 1)
    have := iha scope (f.label scope (n + 1)).2
    simp only [label]
    omega
  | cond p y e ihp ihy ihe =>
    have := ihp scope (n + 1)
    have := ihy scope (p.label scope (n + 1)).2
    have := ihe scope (y.label scope (p.label scope (n + 1)).2).2
    simp only [label]
    omega
  | letIn x v b ihv ihb =>
    have := ihv scope (n + 2)
    have := ihb (scope.extend x none) (v.label scope (n + 2)).2
    simp only [label]
    omega

/-- The type of a term and its equations in the given scope have only variables that have been
handed out. -/
structure Supplied (scope : Scope) (result : Term × Nat) : Prop where
  type : result.1.type.Below result.2
  constraints : ∀ c ∈ result.1.constraints scope, c.left.Below result.2 ∧ c.right.Below result.2

theorem Supplied.mono {scope : Scope} {m : Nat} {result : Term × Nat} (h : Supplied scope result)
    (hm : result.2 ≤ m) :
    ∀ c ∈ result.1.constraints scope, c.left.Below m ∧ c.right.Below m := by
  intro c hc
  have hbelow := h.constraints c hc
  exact ⟨hbelow.1.mono hm, hbelow.2.mono hm⟩

/-- Annotation takes its variables from the scopes and from those that it hands out. -/
theorem supplied_label {scope globals : Scope} {n : Nat} (hs : scope.Below n)
    (hg : globals.Below n) (e : Expr) : Supplied globals (e.label scope n) := by
  induction e generalizing scope globals n with
  | ident x =>
    have hbound : ∀ {t : Ty} {m : Nat}, n ≤ m → t.Below m →
        ∀ c ∈ Term.constraints globals (.ident t x), c.left.Below m ∧ c.right.Below m := by
      intro t m hm ht c hc
      simp only [Term.constraints] at hc
      split at hc
      · rename_i bound hbound
        rw [List.mem_singleton.1 hc]
        exact ⟨ht, (hg.typeOf? hbound).mono hm⟩
      · simp at hc
    cases hx : scope.typeOf? x with
    | some t =>
      rw [label_ident_some hx]
      exact ⟨hs.typeOf? hx, hbound (Nat.le_refl n) (hs.typeOf? hx)⟩
    | none =>
      have hvar : (Ty.var (n + 1)).Below (n + 1) := Ty.below_var.2 (by simp)
      rw [label_ident_none hx]
      exact ⟨hvar, hbound (Nat.le_succ n) hvar⟩
  | const value =>
    have hvar : (Ty.var (n + 1)).Below (n + 1) := Ty.below_var.2 (by simp)
    refine ⟨hvar, fun c hc => ?_⟩
    rw [List.mem_singleton.1 hc]
    exact ⟨hvar, Ty.below_int _⟩
  | lambda x b ih =>
    have hb := ih (n := n + 2) ((hs.mono (by omega)).extend x (t := .var (n + 2))
      (Ty.below_var.2 (by simp))) (hg.mono (by omega))
    have hle := le_label (scope.extend x (some (.var (n + 2)))) (n + 2) b
    have hvar : ∀ {k : Int}, k ≤ n + 2 → (Ty.var k).Below (b.label (scope.extend x
        (some (.var (n + 2)))) (n + 2)).2 := fun hk => Ty.below_var.2 (by omega)
    refine ⟨hvar (by omega), fun c hc => ?_⟩
    rcases List.mem_cons.1 hc with rfl | hc
    · exact ⟨hvar (by omega), Ty.below_fn.2 ⟨hvar (by omega), hb.type⟩⟩
    · exact hb.constraints c hc
  | call f a ihf iha =>
    have hf := ihf (n := n + 1) (hs.mono (by omega)) (hg.mono (by omega))
    have hlf := le_label scope (n + 1) f
    have ha := iha (n := (f.label scope (n + 1)).2) (hs.mono (by omega)) (hg.mono (by omega))
    have hla := le_label scope (f.label scope (n + 1)).2 a
    have hvar : (Ty.var (n + 1)).Below (a.label scope (f.label scope (n + 1)).2).2 :=
      Ty.below_var.2 (by omega)
    refine ⟨hvar, fun c hc => ?_⟩
    rcases List.mem_cons.1 hc with rfl | hc
    · exact ⟨hf.type.mono hla, Ty.below_fn.2 ⟨ha.type, hvar⟩⟩
    · rcases List.mem_append.1 hc with hc | hc
      · exact hf.mono hla c hc
      · exact ha.constraints c hc
  | cond p y e ihp ihy ihe =>
    have hp := ihp (n := n + 1) (hs.mono (by omega)) (hg.mono (by omega))
    have hlp := le_label scope (n + 1) p
    have hy := ihy (n := (p.label scope (n + 1)).2) (hs.mono (by omega)) (hg.mono (by omega))
    have hly := le_label scope (p.label scope (n + 1)).2 y
    have he := ihe (n := (y.label scope (p.label scope (n + 1)).2).2) (hs.mono (by omega))
      (hg.mono (by omega))
    have hle := le_label scope (y.label scope (p.label scope (n + 1)).2).2 e
    have hvar : (Ty.var (n + 1)).Below
        (e.label scope (y.label scope (p.label scope (n + 1)).2).2).2 :=
      Ty.below_var.2 (by omega)
    have hty := hy.type.mono hle
    refine ⟨hvar, fun c hc => ?_⟩
    rcases List.mem_append.1 hc with hc | hc
    · simp only [List.mem_cons, List.not_mem_nil, or_false] at hc
      rcases hc with rfl | rfl | rfl | rfl
      · exact ⟨hvar, hty⟩
      · exact ⟨hvar, he.type⟩
      · exact ⟨hp.type.mono (hly.trans hle), Ty.below_bool _⟩
      · exact ⟨hty, he.type⟩
    · rcases List.mem_append.1 hc with hc | hc
      · exact hp.mono (hly.trans hle) c hc
      · rcases List.mem_append.1 hc with hc | hc
        · exact hy.mono hle c hc
        · exact he.constraints c hc
  | letIn x v b ihv ihb =>
    have hv := ihv (n := n + 2) (hs.mono (by omega)) (hg.mono (by omega))
    have hlv := le_label scope (n + 2) v
    have hb : Supplied (globals.extend x (some (.var (n + 2))))
        (b.label (scope.extend x none) (v.label scope (n + 2)).2) :=
      ihb ((hs.mono (by omega)).hide x)
        ((hg.mono (by omega)).extend x (Ty.below_var.2 (by omega)))
    have hlb := le_label (scope.extend x none) (v.label scope (n + 2)).2 b
    have hvar : ∀ {k : Int}, k ≤ n + 2 →
        (Ty.var k).Below (b.label (scope.extend x none) (v.label scope (n + 2)).2).2 :=
      fun hk => Ty.below_var.2 (by omega)
    refine ⟨hvar (by omega), fun c hc => ?_⟩
    rcases List.mem_append.1 hc with hc | hc
    · simp only [List.mem_cons, List.not_mem_nil, or_false] at hc
      rcases hc with rfl | rfl
      · exact ⟨hvar (by omega), hb.type⟩
      · exact ⟨hvar (by omega), hv.type.mono hlb⟩
    · rcases List.mem_append.1 hc with hc | hc
      · exact hv.mono hlb c hc
      · exact hb.constraints c hc

/-- Annotation keeps the contract between binders and uses. -/
theorem aliased?_label {scope : Scope} {n : Nat} (h : scope.Below n) (e : Expr) :
    (e.label scope n).1.aliased? scope = some true := by
  induction e generalizing scope n with
  | ident x =>
    cases hx : scope.typeOf? x with
    | some t => rw [label_ident_some hx, Sketch.aliased?, Scope.permits_param hx]
    | none => rw [label_ident_none hx, Sketch.aliased?, Scope.permits_fresh h hx]
  | const value => rfl
  | lambda x b ih =>
    exact ih ((h.mono (by omega)).extend x (Ty.below_var.2 (by simp)))
  | call f a ihf iha =>
    have hf := le_label scope (n + 1) f
    simp only [label, Sketch.aliased?]
    rw [ihf (h.mono (by omega))]
    exact iha (h.mono (by omega))
  | cond p y e ihp ihy ihe =>
    have hp := le_label scope (n + 1) p
    have hy := le_label scope (p.label scope (n + 1)).2 y
    simp only [label, Sketch.aliased?]
    rw [ihp (h.mono (by omega)), ihy (h.mono (by omega))]
    exact ihe (h.mono (by omega))
  | letIn x v b ihv ihb =>
    have hv := le_label scope (n + 2) v
    simp only [label, Sketch.aliased?]
    rw [ihv (h.mono (by omega))]
    exact ihb ((h.mono (by omega)).hide x)

/-- A new annotator makes of every expression a term that keeps the contract, so annotation never
refuses its own term. -/
theorem annotateChecked_eq_ok (e : Expr) :
    (Annotator.initial.annotate e).1.aliased? .empty = some true ∧
      e.annotateChecked = .ok e.annotate := by
  have h : (Annotator.initial.annotate e).1.aliased? .empty = some true :=
    aliased?_label (Scope.below_empty 0) e
  refine ⟨h, ?_⟩
  simp only [annotateChecked, h, if_true]
  rfl

end Expr

end Monotype
