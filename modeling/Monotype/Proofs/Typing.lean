import Monotype.Inference
import Monotype.Proofs.Consistency
import Monotype.Proofs.Labelling
import Mathlib.Logic.Function.Basic

/-! Typing rules, and inference as their decision. The rules have two contexts: one gives the types
of declared names and operators, the other says what the innermost binder of a name is. The
substitutions that keep the equations of an annotated expression are its typings, so the type that
inference reads off has exactly the derivable types as its instances. -/
namespace Monotype

open Unifier (Keeps)

/-- What a name is bound by: a parameter of some type, or a declaration. -/
inductive Binder where
  | param (t : Ty)
  | decl

/-- The types of declared names and operators. -/
abbrev Globals := String → Option Ty

/-- The innermost binder of each name. -/
abbrev Binders := String → Option Binder

/-- The typing rules. A use of a parameter has the type of the parameter, and a use of a name with a
type in `G` has that type; a name of which neither holds may have another type at every use. A
declaration puts its type into `G`, and hides a parameter of the same name. A parameter leaves `G`
as it is. -/
inductive HasType : Globals → Binders → Expr → Ty → Prop where
  | const {G D} (value : Int) : HasType G D (.const value) .int
  | ident {G D x t} (param : ∀ p, D x = some (.param p) → t = p)
      (decl : ∀ u, G x = some u → t = u) : HasType G D (.ident x) t
  | lambda {G D x b p t} (body : HasType G (Function.update D x (some (.param p))) b t) :
      HasType G D (.lambda x b) (.fn p t)
  | call {G D f a u t} (fn : HasType G D f (.fn u t)) (arg : HasType G D a u) :
      HasType G D (.call f a) t
  | cond {G D c y n t} (pred : HasType G D c .bool) (yes : HasType G D y t)
      (no : HasType G D n t) : HasType G D (.cond c y n) t
  | letIn {G D x v b u t} (value : HasType G D v u)
      (body : HasType (Function.update G x (some u)) (Function.update D x (some .decl)) b t) :
      HasType G D (.letIn x v b) t

/-- Before any declaration, only the operators have types. -/
def operatorTypes : Globals := fun x => if x ∈ operators then some (.fn .int .int) else none

/-! ### Scopes as contexts -/

/-- The binder that a binding in a scope stands for. -/
def Binder.ofBinding (s : Int → Ty) : Option Ty → Binder
  | some t => .param (t.subst s)
  | none => .decl

namespace Scope

variable (s : Int → Ty) (scope : Scope)

/-- The types that a scope gives to names. -/
def declared : Globals := fun x => (scope.typeOf? x).map (Ty.subst s)

/-- The binders in a scope. -/
def binders : Binders := fun x => (scope.find? x).map (Binder.ofBinding s)

theorem typeOf?_extend (x y : String) (b : Option Ty) :
    typeOf? (scope.extend x b) y = if y = x then b else scope.typeOf? y := by
  unfold typeOf?
  rw [Env.find?_extend]
  split <;> rfl

theorem declared_extend (x : String) (t : Ty) :
    declared s (scope.extend x (some t)) =
      Function.update (scope.declared s) x (some (t.subst s)) := by
  funext y
  rw [declared, typeOf?_extend, Function.update_apply]
  split <;> rfl

theorem binders_extend (x : String) (b : Option Ty) :
    binders s (scope.extend x b) =
      Function.update (scope.binders s) x (some (Binder.ofBinding s b)) := by
  funext y
  rw [binders, Env.find?_extend, Function.update_apply]
  split <;> rfl

theorem declared_builtin : declared s .builtin = operatorTypes := by
  have hkeys : builtin.globals.keys = operators := by decide
  funext x
  by_cases hx : x ∈ operators
  · simp only [operators, List.mem_cons, List.not_mem_nil, or_false] at hx
    rcases hx with rfl | rfl | rfl | rfl | rfl <;> rfl
  · have hnone : builtin.find? x = none := by
      rw [← hkeys, OrderedMap.mem_keys_iff, not_exists] at hx
      exact Option.eq_none_iff_forall_ne_some.2 hx
    simp [declared, typeOf?, operatorTypes, hnone, hx]

theorem binders_empty : binders s .empty = fun _ => none := rfl

theorem binders_eq_param_iff (x : String) (p : Ty) :
    scope.binders s x = some (.param p) ↔ ∃ t, scope.typeOf? x = some t ∧ t.subst s = p := by
  unfold binders typeOf?
  cases scope.find? x with
  | none => simp
  | some b => cases b <;> simp [Binder.ofBinding]

end Scope

/-! ### Substitutions that agree on the variables handed out -/

/-- The substitutions do not differ up to `n`. -/
def Agree (n : Nat) (s s' : Int → Ty) : Prop := ∀ v ≤ (n : Int), s' v = s v

theorem Agree.mono {n m : Nat} {s s' : Int → Ty} (h : Agree m s s') (hnm : n ≤ m) :
    Agree n s s' := fun v hv => h v (by omega)

theorem Agree.trans {n : Nat} {s s' s'' : Int → Ty} (h : Agree n s s') (h' : Agree n s' s'') :
    Agree n s s'' := fun v hv => (h' v hv).trans (h v hv)

/-- The next variable can stand for any type. -/
theorem exists_agree (n : Nat) (s : Int → Ty) (t : Ty) : ∃ s', Agree n s s' ∧ s' (n + 1) = t := by
  refine ⟨Function.update s (n + 1) t, fun v hv => ?_, Function.update_self ..⟩
  have hne : v ≠ n + 1 := by omega
  exact Function.update_of_ne hne t s

theorem exists_agree_two (n : Nat) (s : Int → Ty) (t u : Ty) :
    ∃ s', Agree n s s' ∧ s' (n + 1) = t ∧ s' (n + 2) = u := by
  obtain ⟨s₁, hs₁, ht⟩ := exists_agree n s t
  obtain ⟨s₂, hs₂, hu⟩ := exists_agree (n + 1) s₁ u
  refine ⟨s₂, hs₁.trans (hs₂.mono (by omega)), ?_, ?_⟩
  · rw [hs₂ _ (by omega), ht]
  · rw [← hu]
    congr 1

section Agree

variable {n : Nat} {s s' : Int → Ty} (hs : Agree n s s')
include hs

theorem Scope.Below.declared_congr {scope : Scope} (h : scope.Below n) :
    scope.declared s' = scope.declared s := by
  funext x
  unfold Scope.declared
  cases hx : scope.typeOf? x with
  | none => rfl
  | some t => simp [(h.typeOf? hx).subst_congr hs]

theorem Scope.Below.binders_congr {scope : Scope} (h : scope.Below n) :
    scope.binders s' = scope.binders s := by
  funext x
  unfold Scope.binders
  cases hx : scope.find? x with
  | none => rfl
  | some b =>
    cases b with
    | none => rfl
    | some t =>
      have ht : t.Below n := h.typeOf? (x := x) (by simp [Scope.typeOf?, hx])
      simp [Binder.ofBinding, ht.subst_congr hs]

theorem HasType.congr {scope globals : Scope} (hb : scope.Below n) (hg : globals.Below n)
    {e : Expr} {t : Ty} (h : HasType (globals.declared s) (scope.binders s) e t) :
    HasType (globals.declared s') (scope.binders s') e t := by
  rw [hg.declared_congr hs, hb.binders_congr hs]
  exact h

end Agree

namespace Expr

/-! ### The equations of each node -/

section Nodes

variable (s : Int → Ty) (scope globals : Scope) (n : Nat)

theorem keeps_ident (t : Ty) (x : String) : Keeps s (Term.constraints globals (.ident t x)) ↔
    ∀ u, globals.declared s x = some u → t.subst s = u := by
  unfold Term.constraints Scope.declared
  cases globals.typeOf? x with
  | none => simp [Unifier.keeps_nil]
  | some bound => simp [Unifier.keeps_cons, Unifier.keeps_nil]

theorem keeps_const (value : Int) :
    Keeps s (((const value).label scope n).1.constraints globals) ↔ s (n + 1) = .int := by
  simp [label, Term.constraints, Unifier.keeps_cons, Unifier.keeps_nil, Ty.subst]

theorem keeps_lambda (x : String) (b : Expr) :
    Keeps s (((lambda x b).label scope n).1.constraints globals) ↔
      let b := (b.label (scope.extend x (some (.var (n + 2)))) (n + 2)).1
      s (n + 1) = .fn (s (n + 2)) (b.type.subst s) ∧ Keeps s (b.constraints globals) := by
  simp [label, Term.constraints, Unifier.keeps_cons, Ty.subst, Sketch.type]

theorem keeps_call (f a : Expr) :
    Keeps s (((call f a).label scope n).1.constraints globals) ↔
      let f := f.label scope (n + 1)
      let a := (a.label scope f.2).1
      f.1.type.subst s = .fn (a.type.subst s) (s (n + 1)) ∧
        Keeps s (f.1.constraints globals) ∧ Keeps s (a.constraints globals) := by
  simp [label, Term.constraints, Unifier.keeps_cons, Unifier.keeps_append, Ty.subst]

theorem keeps_cond (p y e : Expr) :
    Keeps s (((cond p y e).label scope n).1.constraints globals) ↔
      let p := p.label scope (n + 1)
      let y := y.label scope p.2
      let e := (e.label scope y.2).1
      (s (n + 1) = y.1.type.subst s ∧ s (n + 1) = e.type.subst s ∧ p.1.type.subst s = .bool ∧
        y.1.type.subst s = e.type.subst s) ∧
        Keeps s (p.1.constraints globals) ∧ Keeps s (y.1.constraints globals) ∧
        Keeps s (e.constraints globals) := by
  simp [label, Term.constraints, Unifier.keeps_cons, Unifier.keeps_append, Ty.subst, and_assoc]

theorem keeps_letIn (x : String) (v b : Expr) :
    Keeps s (((letIn x v b).label scope n).1.constraints globals) ↔
      let v := v.label scope (n + 2)
      let b := (b.label (scope.extend x none) v.2).1
      (s (n + 1) = b.type.subst s ∧ s (n + 2) = v.1.type.subst s) ∧
        Keeps s (v.1.constraints globals) ∧
        Keeps s (b.constraints (globals.extend x (some (.var (n + 2))))) := by
  simp [label, Term.constraints, Unifier.keeps_cons, Unifier.keeps_append, Sketch.type,
    Sketch.bindIn, Sketch.name?, and_assoc]

end Nodes

/-! ### Substitutions that keep the equations are typings -/

theorem hasType_ident_iff (s : Int → Ty) (scope globals : Scope) (x : String) (t : Ty) :
    HasType (globals.declared s) (scope.binders s) (.ident x) t ↔
      (∀ p, scope.typeOf? x = some p → t = p.subst s) ∧
        ∀ u, globals.declared s x = some u → t = u := by
  constructor
  · intro h
    cases h with
    | ident hparam hdecl =>
      exact ⟨fun p hp => hparam _ ((scope.binders_eq_param_iff s x _).2 ⟨p, hp, rfl⟩), hdecl⟩
  · rintro ⟨hparam, hdecl⟩
    refine .ident (fun q hq => ?_) hdecl
    obtain ⟨p, hp, rfl⟩ := (scope.binders_eq_param_iff s x q).1 hq
    exact hparam p hp

theorem hasType_of_keeps {s : Int → Ty} {scope globals : Scope} {n : Nat} (e : Expr)
    (h : Keeps s ((e.label scope n).1.constraints globals)) :
    HasType (globals.declared s) (scope.binders s) e ((e.label scope n).1.type.subst s) := by
  induction e generalizing scope globals n with
  | ident x =>
    rw [hasType_ident_iff]
    cases hx : scope.typeOf? x with
    | some t =>
      rw [label_ident_some hx, keeps_ident] at h
      rw [label_ident_some hx]
      refine ⟨fun p hp => ?_, h⟩
      rw [Option.some.inj hp]
      rfl
    | none =>
      rw [label_ident_none hx, keeps_ident] at h
      rw [label_ident_none hx]
      exact ⟨fun p hp => (nomatch hp), h⟩
  | const value =>
    have htype : s (n + 1) = .int := (keeps_const s scope globals n value).1 h
    change HasType _ _ _ (s (n + 1))
    rw [htype]
    exact .const value
  | lambda x b ih =>
    obtain ⟨htype, hb⟩ := (keeps_lambda s scope globals n x b).1 h
    have hbody := ih hb
    rw [Scope.binders_extend] at hbody
    change HasType _ _ _ (s (n + 1))
    rw [htype]
    exact .lambda hbody
  | call f a ihf iha =>
    obtain ⟨htype, hf, ha⟩ := (keeps_call s scope globals n f a).1 h
    have hfn := ihf hf
    rw [htype] at hfn
    exact .call hfn (iha ha)
  | cond p y e ihp ihy ihe =>
    obtain ⟨⟨hyes, hno, hpred, -⟩, hp, hy, he⟩ := (keeps_cond s scope globals n p y e).1 h
    have htest := ihp hp
    have hthen := ihy hy
    have helse := ihe he
    rw [hpred] at htest
    rw [← hyes] at hthen
    rw [← hno] at helse
    exact .cond htest hthen helse
  | letIn x v b ihv ihb =>
    obtain ⟨⟨htype, hname⟩, hv, hb⟩ := (keeps_letIn s scope globals n x v b).1 h
    have hvalue := ihv hv
    have hbody := ihb hb
    rw [Scope.binders_extend, Scope.declared_extend, ← htype] at hbody
    rw [← hname] at hvalue
    exact .letIn hvalue hbody

/-! ### Typings are substitutions that keep the equations -/

/-- The substitution keeps the equations of an annotated expression and gives it the type `t`. -/
structure Realizes (s : Int → Ty) (globals : Scope) (result : Term × Nat) (t : Ty) : Prop where
  keeps : Keeps s (result.1.constraints globals)
  type : result.1.type.subst s = t

theorem Realizes.congr {s s' : Int → Ty} {globals : Scope} {result : Term × Nat} {t : Ty}
    (h : Realizes s globals result t) (hr : Supplied globals result) (hs : Agree result.2 s s') :
    Realizes s' globals result t := by
  refine ⟨fun c hc => ?_, ?_⟩
  · obtain ⟨hleft, hright⟩ := hr.constraints c hc
    rw [hleft.subst_congr hs, hright.subst_congr hs]
    exact h.keeps c hc
  · rw [hr.type.subst_congr hs, h.type]

/-- Every typing of the expression is realized by a substitution that leaves the variables of the
contexts as they are. -/
def Realizable (e : Expr) : Prop :=
  ∀ {s : Int → Ty} {scope globals : Scope} {n : Nat} {t : Ty}, scope.Below n → globals.Below n →
    HasType (globals.declared s) (scope.binders s) e t →
    ∃ s', Agree n s s' ∧ Realizes s' globals (e.label scope n) t

/-- A part of an expression is realized after others, and stays realized when others follow. -/
theorem Realizable.part {e : Expr} (he : e.Realizable) {s s₁ : Int → Ty} {scope globals : Scope}
    {n : Nat} (m : Nat) {t : Ty} (hs : scope.Below n) (hg : globals.Below n) (hm : n ≤ m)
    (h₁ : Agree n s s₁) (h : HasType (globals.declared s) (scope.binders s) e t) :
    ∃ s₂, Agree m s₁ s₂ ∧ Agree n s s₂ ∧
      ∀ s', Agree (e.label scope m).2 s₂ s' → Realizes s' globals (e.label scope m) t := by
  have hsm := hs.mono hm
  have hgm := hg.mono hm
  obtain ⟨s₂, hs₂, hr⟩ := he hsm hgm (h.congr h₁ hs hg)
  exact ⟨s₂, hs₂, h₁.trans (hs₂.mono hm), fun s' hs' => hr.congr (supplied_label hsm hgm e) hs'⟩

theorem realizable_ident (x : String) : (ident x).Realizable := by
  intro s scope globals n t _ hg h
  obtain ⟨hparam, hdecl⟩ := (hasType_ident_iff s scope globals x t).1 h
  cases hx : scope.typeOf? x with
  | some p =>
    have hp := hparam p hx
    rw [label_ident_some hx]
    exact ⟨s, fun v _ => rfl, (keeps_ident s globals p x).2 (hp ▸ hdecl), hp.symm⟩
  | none =>
    -- The variable of this use occurs nowhere else, so it can stand for the given type.
    obtain ⟨s', hs', hvar⟩ := exists_agree n s t
    rw [label_ident_none hx]
    refine ⟨s', hs', (keeps_ident s' globals _ x).2 ?_, hvar⟩
    rw [hg.declared_congr hs', Ty.subst_var, hvar]
    exact hdecl

theorem realizable_const (value : Int) : (const value).Realizable := by
  intro s scope globals n t _ _ h
  cases h
  obtain ⟨s', hs', hvar⟩ := exists_agree n s .int
  exact ⟨s', hs', (keeps_const s' scope globals n value).2 hvar, hvar⟩

theorem realizable_lambda (x : String) {b : Expr} (hb : b.Realizable) :
    (lambda x b).Realizable := by
  intro s scope globals n t hs hg h
  cases h with
  | @lambda _ _ _ _ p t hbody =>
    obtain ⟨s₁, hs₁, hfn, hparam⟩ := exists_agree_two n s (.fn p t) p
    have hin : HasType (globals.declared s₁)
        (Scope.binders s₁ (scope.extend x (some (.var (n + 2))))) b t := by
      rw [Scope.binders_extend, Binder.ofBinding, Ty.subst_var, hparam, hg.declared_congr hs₁,
        hs.binders_congr hs₁]
      exact hbody
    have hscope : Scope.Below (n + 2) (scope.extend x (some (.var (n + 2)))) :=
      (hs.mono (by omega)).extend x (Ty.below_var.2 (by simp))
    obtain ⟨s', hs', hr⟩ := hb hscope (hg.mono (by omega)) hin
    have hfn' : s' (n + 1) = .fn p t := by rw [hs' _ (by omega), hfn]
    have hparam' : s' (n + 2) = p := by rw [hs' _ (by omega), hparam]
    refine ⟨s', hs₁.trans (hs'.mono (by omega)), ?_, hfn'⟩
    rw [keeps_lambda]
    exact ⟨by rw [hfn', hparam', hr.type], hr.keeps⟩

theorem realizable_call {f a : Expr} (hf : f.Realizable) (ha : a.Realizable) :
    (call f a).Realizable := by
  intro s scope globals n t hs hg h
  cases h with
  | @call _ _ _ _ u _ hfn harg =>
    have hle := le_label scope (n + 1) f
    obtain ⟨s₁, hs₁, hvar⟩ := exists_agree n s t
    obtain ⟨s₂, hs₂, h₂, hrf⟩ := hf.part (n + 1) hs hg (by omega) hs₁ hfn
    obtain ⟨s₃, hs₃, h₃, hra⟩ := ha.part (f.label scope (n + 1)).2 hs hg (by omega) h₂ harg
    have hf₃ := hrf s₃ hs₃
    have ha₃ := hra s₃ fun _ _ => rfl
    have hres : s₃ (n + 1) = t := by rw [hs₃ _ (by omega), hs₂ _ (by omega), hvar]
    refine ⟨s₃, h₃, ?_, hres⟩
    rw [keeps_call]
    exact ⟨by rw [hf₃.type, ha₃.type, hres], hf₃.keeps, ha₃.keeps⟩

theorem realizable_cond {p y e : Expr} (hp : p.Realizable) (hy : y.Realizable)
    (he : e.Realizable) : (cond p y e).Realizable := by
  intro s scope globals n t hs hg h
  cases h with
  | cond htest hthen helse =>
    have hlp := le_label scope (n + 1) p
    have hly := le_label scope (p.label scope (n + 1)).2 y
    obtain ⟨s₁, hs₁, hvar⟩ := exists_agree n s t
    obtain ⟨s₂, hs₂, h₂, hrp⟩ := hp.part (n + 1) hs hg (by omega) hs₁ htest
    obtain ⟨s₃, hs₃, h₃, hry⟩ := hy.part (p.label scope (n + 1)).2 hs hg (by omega) h₂ hthen
    obtain ⟨s₄, hs₄, h₄, hre⟩ :=
      he.part (y.label scope (p.label scope (n + 1)).2).2 hs hg (by omega) h₃ helse
    have h₂₄ : Agree (p.label scope (n + 1)).2 s₂ s₄ := hs₃.trans (hs₄.mono hly)
    have hp₄ := hrp s₄ h₂₄
    have hy₄ := hry s₄ hs₄
    have he₄ := hre s₄ fun _ _ => rfl
    have hres : s₄ (n + 1) = t := by rw [h₂₄ _ (by omega), hs₂ _ (by omega), hvar]
    refine ⟨s₄, h₄, ?_, hres⟩
    rw [keeps_cond]
    refine ⟨⟨?_, ?_, hp₄.type, ?_⟩, hp₄.keeps, hy₄.keeps, he₄.keeps⟩
    · rw [hres, hy₄.type]
    · rw [hres, he₄.type]
    · rw [hy₄.type, he₄.type]

theorem realizable_letIn (x : String) {v b : Expr} (hv : v.Realizable) (hb : b.Realizable) :
    (letIn x v b).Realizable := by
  intro s scope globals n t hs hg h
  cases h with
  | @letIn _ _ _ _ _ u _ hvalue hbody =>
    have hle := le_label scope (n + 2) v
    obtain ⟨s₁, hs₁, hvar, hname⟩ := exists_agree_two n s t u
    obtain ⟨s₂, hs₂, h₂, hrv⟩ := hv.part (n + 2) hs hg (by omega) hs₁ hvalue
    have hname₂ : s₂ (n + 2) = u := by rw [hs₂ _ (by omega), hname]
    have hin : HasType (Scope.declared s₂ (globals.extend x (some (.var (n + 2)))))
        (Scope.binders s₂ (scope.extend x none)) b t := by
      rw [Scope.declared_extend, Scope.binders_extend, Ty.subst_var, hname₂, hg.declared_congr h₂,
        hs.binders_congr h₂]
      exact hbody
    have hglobals : Scope.Below (v.label scope (n + 2)).2
        (globals.extend x (some (.var (n + 2)))) :=
      (hg.mono (by omega)).extend x (Ty.below_var.2 (by omega))
    obtain ⟨s₃, hs₃, hb₃⟩ := hb ((hs.mono (by omega)).hide x) hglobals hin
    have hv₃ := hrv s₃ hs₃
    have hres : s₃ (n + 1) = t := by rw [hs₃ _ (by omega), hs₂ _ (by omega), hvar]
    have hname₃ : s₃ (n + 2) = u := by rw [hs₃ _ (by omega), hname₂]
    refine ⟨s₃, h₂.trans (hs₃.mono (by omega)), ?_, hres⟩
    rw [keeps_letIn]
    refine ⟨⟨?_, ?_⟩, hv₃.keeps, hb₃.keeps⟩
    · rw [hres, hb₃.type]
    · rw [hname₃, hv₃.type]

theorem realizable (e : Expr) : e.Realizable := by
  induction e with
  | ident x => exact realizable_ident x
  | const value => exact realizable_const value
  | lambda x b ih => exact realizable_lambda x ih
  | call f a ihf iha => exact realizable_call ihf iha
  | cond p y e ihp ihy ihe => exact realizable_cond ihp ihy ihe
  | letIn x v b ihv ihb => exact realizable_letIn x ihv ihb

/-- The typings of an expression that stands by itself are the substitutions that keep its
equations. -/
theorem hasType_iff_keeps (e : Expr) (t : Ty) :
    HasType operatorTypes (fun _ => none) e t ↔
      ∃ s, Keeps s (e.annotate.constraints .builtin) ∧ e.annotate.type.subst s = t := by
  constructor
  · intro h
    rw [← Scope.declared_builtin Ty.var, ← Scope.binders_empty Ty.var] at h
    obtain ⟨s, -, hr⟩ := realizable e (Scope.below_empty 0) (Scope.below_builtin 0) h
    exact ⟨s, hr.keeps, hr.type⟩
  · rintro ⟨s, hk, rfl⟩
    rw [← Scope.declared_builtin s, ← Scope.binders_empty s]
    exact hasType_of_keeps e hk

end Expr

/-! ### Inference -/

/-- The equations of an expression, solved. -/
def Expr.solution (e : Expr) : Solution :=
  Unifier.solve .empty (e.annotate.constraints .builtin)

theorem term_infer (e : Expr) : (infer e).term = e.annotate := by
  simp only [infer, inferWith, Expr.annotate]
  split <;> rfl

theorem outcome_infer (e : Expr) :
    (infer e).outcome =
      e.solution.verdict.map fun _ =>
        (Unifier.concretize e.solution.unifier e.annotate.type).1 := by
  simp only [infer, inferWith, Expr.solution, Expr.annotate]
  split
  · rename_i conflict h
    rw [h]
    rfl
  · rename_i h
    rw [h]
    rfl

/-- The equations are solved, and every substitution that keeps them is an instance of the one that
types are read with. -/
theorem exists_solution_of_infer_ok {e : Expr} {T : Ty} (h : (infer e).outcome = .ok T) :
    ∃ σ, e.annotate.type.subst σ = T ∧ Keeps σ (e.annotate.constraints .builtin) ∧
      ∀ s, Keeps s (e.annotate.constraints .builtin) →
        ∀ t : Ty, (t.subst σ).subst s = t.subst s := by
  rw [outcome_infer] at h
  cases hv : e.solution.verdict with
  | error conflict =>
    rw [hv] at h
    cases h
  | ok _ =>
    have hsat : ∀ s, Unifier.Satisfies s e.solution.unifier ↔
        Keeps s (e.annotate.constraints .builtin) := by
      intro s
      rw [Expr.solution, Unifier.consistent_empty.satisfies_solve _ hv]
      exact and_iff_right (Unifier.satisfies_empty s)
    obtain ⟨σ, hread, hσ, hgen⟩ := (Unifier.consistent_empty.solve
      (e.annotate.constraints .builtin)).concretize_solution
    rw [hv] at h
    refine ⟨σ, ?_, (hsat σ).1 hσ, fun s hs => hgen s ((hsat s).2 hs)⟩
    rw [← hread]
    exact Except.ok.inj h

theorem not_keeps_of_infer_error {e : Expr} {conflict : Conflict}
    (h : (infer e).outcome = .error conflict) (s : Int → Ty) :
    ¬Keeps s (e.annotate.constraints .builtin) := by
  rw [outcome_infer] at h
  cases hv : e.solution.verdict with
  | error conflict =>
    exact Unifier.consistent_empty.not_keeps_of_error _ hv s (Unifier.satisfies_empty s)
  | ok _ =>
    rw [hv] at h
    cases h

theorem hasType_iff_of_infer_ok {e : Expr} {T : Ty} (h : (infer e).outcome = .ok T) (t : Ty) :
    HasType operatorTypes (fun _ => none) e t ↔ ∃ s, T.subst s = t := by
  obtain ⟨σ, rfl, hσ, hgen⟩ := exists_solution_of_infer_ok h
  rw [Expr.hasType_iff_keeps]
  constructor
  · rintro ⟨s, hs, rfl⟩
    exact ⟨s, hgen s hs _⟩
  · rintro ⟨s, rfl⟩
    -- An instance of the reading keeps every equation that the reading keeps.
    refine ⟨fun v => (σ v).subst s, fun c hc => ?_, (Ty.subst_subst ..).symm⟩
    rw [← Ty.subst_subst, ← Ty.subst_subst, hσ c hc]

theorem hasType_of_infer_ok {e : Expr} {T : Ty} (h : (infer e).outcome = .ok T) :
    HasType operatorTypes (fun _ => none) e T :=
  (hasType_iff_of_infer_ok h T).2 ⟨.var, T.subst_var_eq_self⟩

theorem not_hasType_of_infer_error {e : Expr} {conflict : Conflict}
    (h : (infer e).outcome = .error conflict) (t : Ty) :
    ¬HasType operatorTypes (fun _ => none) e t := by
  rw [Expr.hasType_iff_keeps]
  rintro ⟨s, hs, -⟩
  exact not_keeps_of_infer_error h s hs

/-- Inference decides the typing rules, and the type that it finds is principal: the derivable types
are its instances. The annotated expression keeps the contract between binders and uses. -/
theorem infer_principal (e : Expr) :
    (infer e).term.aliased? .empty = some true ∧
      ((∃ T, (infer e).outcome = .ok T) ↔ ∃ t, HasType operatorTypes (fun _ => none) e t) ∧
      ((∃ conflict, (infer e).outcome = .error conflict) ↔
        ¬∃ t, HasType operatorTypes (fun _ => none) e t) ∧
      ∀ T, (infer e).outcome = .ok T →
        ∀ t, HasType operatorTypes (fun _ => none) e t ↔ ∃ s, T.subst s = t := by
  have haliased : (infer e).term.aliased? .empty = some true := by
    rw [term_infer]
    exact Expr.aliased?_label (Scope.below_empty 0) e
  have hok : (∃ T, (infer e).outcome = .ok T) ↔
      ∃ t, HasType operatorTypes (fun _ => none) e t := by
    constructor
    · rintro ⟨T, h⟩
      exact ⟨T, (hasType_iff_of_infer_ok h T).2 ⟨.var, T.subst_var_eq_self⟩⟩
    · rintro ⟨t, ht⟩
      cases h : (infer e).outcome with
      | ok T => exact ⟨T, rfl⟩
      | error conflict => exact absurd ht (not_hasType_of_infer_error h t)
  refine ⟨haliased, hok, ?_, fun T h => hasType_iff_of_infer_ok h⟩
  constructor
  · rintro ⟨conflict, h⟩ ⟨t, ht⟩
    exact not_hasType_of_infer_error h t ht
  · intro hnone
    cases h : (infer e).outcome with
    | ok T => exact absurd (hok.1 ⟨T, h⟩) hnone
    | error conflict => exact ⟨conflict, rfl⟩

/-- A parameter with the name of a declaration has the type of the declaration as well. -/
example : (infer (.letIn "x" (.const 1) (.lambda "x" (.ident "x")))).outcome =
    .ok (.fn .int .int) := by rfl

end Monotype
