import Monotype.Proofs.Typing
import Monotype.Proofs.Variants

/-! Renaming a bound name. A use of a name is tied to the innermost binder of the name. It is also
tied to the innermost declaration of the name, or to the operator of that name, and parameters do
not come between: a use of a parameter below a declaration of its name is tied to both. Where no use
is tied to a binder and to something else as well, the name of the binder does not matter: the
renamed expression has the same types, so inference fails on both or finds types that read the
same. -/
namespace Monotype

/-! ### Uses and names -/

namespace Expr

/-- All names in an expression, those of binders included. -/
def names : Expr → List String
  | .ident x => [x]
  | .const _ => []
  | .lambda x b => x :: b.names
  | .call f a => f.names ++ a.names
  | .cond p y n => p.names ++ (y.names ++ n.names)
  | .letIn x v b => x :: (v.names ++ b.names)

/-- The uses of names that no declaration inside an expression declares, each with whether a
parameter inside the expression binds it. -/
def undeclared : Expr → List (String × Bool)
  | .ident x => [(x, false)]
  | .const _ => []
  | .lambda x b => b.undeclared.map fun use => (use.1, use.2 || use.1 == x)
  | .call f a => f.undeclared ++ a.undeclared
  | .cond p y n => p.undeclared ++ (y.undeclared ++ n.undeclared)
  | .letIn x v b => v.undeclared ++ b.undeclared.filter fun use => use.1 != x

/-- Renames the uses that no binder inside the expression binds: below a binder, the name that it
binds stays as it is. -/
def renameUses (r : String → String) : Expr → Expr
  | .ident y => .ident (r y)
  | .const n => .const n
  | .lambda y b => .lambda y (b.renameUses (Function.update r y y))
  | .call f a => .call (f.renameUses r) (a.renameUses r)
  | .cond p y n => .cond (p.renameUses r) (y.renameUses r) (n.renameUses r)
  | .letIn y v b => .letIn y (v.renameUses r) (b.renameUses (Function.update r y y))

theorem mem_names_of_mem_undeclared {e : Expr} {y : String} {bound : Bool}
    (h : (y, bound) ∈ e.undeclared) : y ∈ e.names := by
  induction e generalizing bound with
  | ident x => simp_all [undeclared, names]
  | const value => simp [undeclared] at h
  | lambda x b ih =>
    obtain ⟨use, huse, heq⟩ := List.mem_map.1 h
    cases heq
    exact List.mem_cons_of_mem x (ih huse)
  | call f a ihf iha =>
    rcases List.mem_append.1 h with h | h
    · simp [names, ihf h]
    · simp [names, iha h]
  | cond p y n ihp ihy ihn =>
    rcases List.mem_append.1 h with h | h
    · simp [names, ihp h]
    · rcases List.mem_append.1 h with h | h
      · simp [names, ihy h]
      · simp [names, ihn h]
  | letIn x v b ihv ihb =>
    rcases List.mem_append.1 h with h | h
    · simp [names, ihv h]
    · simp [names, ihb (List.mem_of_mem_filter h)]

end Expr

/-! ### Typings node by node -/

section Nodes

variable {G : Globals} {D : Binders} {t : Ty}

theorem hasType_const_iff {value : Int} : HasType G D (.const value) t ↔ t = .int :=
  ⟨fun h => by cases h; rfl, fun h => h ▸ .const value⟩

theorem hasType_use_iff {x : String} : HasType G D (.ident x) t ↔
    (∀ p, D x = some (.param p) → t = p) ∧ ∀ u, G x = some u → t = u :=
  ⟨fun h => by cases h; exact ⟨‹_›, ‹_›⟩, fun h => .ident h.1 h.2⟩

theorem hasType_lambda_iff {x : String} {b : Expr} : HasType G D (.lambda x b) t ↔
    ∃ p u, t = .fn p u ∧ HasType G (Function.update D x (some (.param p))) b u := by
  constructor
  · rintro ⟨⟩
    exact ⟨_, _, rfl, ‹_›⟩
  · rintro ⟨p, u, rfl, hb⟩
    exact .lambda hb

theorem hasType_call_iff {f a : Expr} : HasType G D (.call f a) t ↔
    ∃ u, HasType G D f (.fn u t) ∧ HasType G D a u := by
  constructor
  · rintro ⟨⟩
    exact ⟨_, ‹_›, ‹_›⟩
  · rintro ⟨u, hf, ha⟩
    exact .call hf ha

theorem hasType_cond_iff {p y n : Expr} : HasType G D (.cond p y n) t ↔
    HasType G D p .bool ∧ HasType G D y t ∧ HasType G D n t := by
  constructor
  · rintro ⟨⟩
    exact ⟨‹_›, ‹_›, ‹_›⟩
  · rintro ⟨hp, hy, hn⟩
    exact .cond hp hy hn

theorem hasType_letIn_iff {x : String} {v b : Expr} : HasType G D (.letIn x v b) t ↔
    ∃ u, HasType G D v u ∧
      HasType (Function.update G x (some u)) (Function.update D x (some .decl)) b t := by
  constructor
  · rintro ⟨⟩
    exact ⟨_, ‹_›, ‹_›⟩
  · rintro ⟨u, hv, hb⟩
    exact .letIn hv hb

end Nodes

/-! ### Typings of renamed uses -/

/-- The renamed uses of an expression see in the contexts `G'` and `D'` what the uses see in `G` and
`D`, and no binder in the expression binds a new name. A use that a parameter inside the expression
binds keeps its name, and sees what is declared only. -/
structure Renames (r : String → String) (G G' : Globals) (D D' : Binders) (e : Expr) : Prop where
  fresh : ∀ y, r y = y ∨ r y ∉ e.names
  declared : ∀ y bound, (y, bound) ∈ e.undeclared → G' (if bound then y else r y) = G y
  binder : ∀ y, (y, false) ∈ e.undeclared → D' (r y) = D y

namespace Renames

variable {r : String → String} {G G' : Globals} {D D' : Binders}

theorem mono {e e' : Expr} (h : Renames r G G' D D' e) (hnames : e'.names ⊆ e.names)
    (huses : e'.undeclared ⊆ e.undeclared) : Renames r G G' D D' e' where
  fresh y := (h.fresh y).imp_right (mt (@hnames _))
  declared y bound hy := h.declared y bound (huses hy)
  binder y hy := h.binder y (huses hy)

theorem ne_binder {e : Expr} (h : Renames r G G' D D' e) {x y : String} (hx : x ∈ e.names)
    (hyx : y ≠ x) : r y ≠ x := by
  rcases h.fresh y with hr | hr
  · rwa [hr]
  · rintro rfl
    exact hr hx

theorem fresh_below {e b : Expr} (h : Renames r G G' D D' e) (hnames : b.names ⊆ e.names)
    (x y : String) : Function.update r x x y = y ∨ Function.update r x x y ∉ b.names := by
  by_cases hyx : y = x
  · subst hyx
    simp
  · rw [Function.update_of_ne hyx]
    exact (h.fresh y).imp_right (mt (@hnames _))

/-- Below a parameter. What was a use of the name outside is bound now. -/
theorem lambda {x : String} {b : Expr} (h : Renames r G G' D D' (.lambda x b))
    (p : Option Binder) :
    Renames (Function.update r x x) G G' (Function.update D x p) (Function.update D' x p) b where
  fresh := h.fresh_below (List.subset_cons_self ..) x
  declared y bound hy := by
    have huse := h.declared y (bound || y == x) (List.mem_map.2 ⟨_, hy, rfl⟩)
    by_cases hyx : y = x
    · subst hyx
      simpa using huse
    · simpa [hyx] using huse
  binder y hy := by
    by_cases hyx : y = x
    · subst hyx
      simp
    · have huse := h.binder y (List.mem_map.2 ⟨_, hy, by simp [hyx]⟩)
      have hry : r y ≠ x := h.ne_binder (by simp [Expr.names]) hyx
      simpa [hyx, hry] using huse

/-- Below a declaration. Both contexts give the name what the declaration gives it. -/
theorem letIn {x : String} {v b : Expr} (h : Renames r G G' D D' (.letIn x v b))
    (u : Option Ty) (p : Option Binder) :
    Renames (Function.update r x x) (Function.update G x u) (Function.update G' x u)
      (Function.update D x p) (Function.update D' x p) b where
  fresh := h.fresh_below (by simp [Expr.names]) x
  declared y bound hy := by
    by_cases hyx : y = x
    · subst hyx
      simp
    · have huse := h.declared y bound (by simp [Expr.undeclared, hy, hyx])
      have hry : r y ≠ x := h.ne_binder (by simp [Expr.names]) hyx
      cases bound <;> simpa [hyx, hry] using huse
  binder y hy := by
    by_cases hyx : y = x
    · subst hyx
      simp
    · have huse := h.binder y (by simp [Expr.undeclared, hy, hyx])
      have hry : r y ≠ x := h.ne_binder (by simp [Expr.names]) hyx
      simpa [hyx, hry] using huse

end Renames

theorem hasType_renameUses {e : Expr} {r : String → String} {G G' : Globals} {D D' : Binders}
    (h : Renames r G G' D D' e) {t : Ty} :
    HasType G D e t ↔ HasType G' D' (e.renameUses r) t := by
  induction e generalizing r G G' D D' t with
  | ident x =>
    have hG : G' (r x) = G x := h.declared x false (by simp [Expr.undeclared])
    have hD : D' (r x) = D x := h.binder x (by simp [Expr.undeclared])
    rw [Expr.renameUses, hasType_use_iff, hasType_use_iff, hG, hD]
  | const value => rw [Expr.renameUses, hasType_const_iff, hasType_const_iff]
  | lambda x b ih => simp only [Expr.renameUses, hasType_lambda_iff, ih (h.lambda _)]
  | call f a ihf iha =>
    have hf : Renames r G G' D D' f := h.mono (by simp [Expr.names]) (by simp [Expr.undeclared])
    have ha : Renames r G G' D D' a := h.mono (by simp [Expr.names]) (by simp [Expr.undeclared])
    simp only [Expr.renameUses, hasType_call_iff, ihf hf, iha ha]
  | cond p y n ihp ihy ihn =>
    have hp : Renames r G G' D D' p := h.mono (by simp [Expr.names]) (by simp [Expr.undeclared])
    have hy : Renames r G G' D D' y := h.mono (by simp [Expr.names]) (by simp [Expr.undeclared])
    have hn : Renames r G G' D D' n := h.mono (by simp [Expr.names]) (by simp [Expr.undeclared])
    simp only [Expr.renameUses, hasType_cond_iff, ihp hp, ihy hy, ihn hn]
  | letIn x v b ihv ihb =>
    have hv : Renames r G G' D D' v := h.mono (by simp [Expr.names]) (by simp [Expr.undeclared])
    simp only [Expr.renameUses, hasType_letIn_iff, ihv hv, ihb (h.letIn _ _)]

/-! ### Binders in their place -/

/-- A node that binds a name. -/
inductive Binding where
  | lambda (x : String) (body : Expr)
  | letIn (x : String) (value body : Expr)

namespace Binding

def expr : Binding → Expr
  | .lambda x b => .lambda x b
  | .letIn x v b => .letIn x v b

/-- Binds another name, and renames the uses that are bound here. -/
def rename (z : String) : Binding → Binding
  | .lambda x b => .lambda z (b.renameUses (Function.update id x z))
  | .letIn x v b => .letIn z v (b.renameUses (Function.update id x z))

end Binding

/-- An expression with a hole. -/
inductive Context where
  | hole
  | lambda (x : String) (body : Context)
  | fn (fn : Context) (arg : Expr)
  | arg (fn : Expr) (arg : Context)
  | pred (pred : Context) (yes no : Expr)
  | yes (pred : Expr) (yes : Context) (no : Expr)
  | no (pred yes : Expr) (no : Context)
  | value (x : String) (value : Context) (body : Expr)
  | body (x : String) (value : Expr) (body : Context)

namespace Context

def fill : Context → Expr → Expr
  | .hole, e => e
  | .lambda x b, e => .lambda x (b.fill e)
  | .fn f a, e => .call (f.fill e) a
  | .arg f a, e => .call f (a.fill e)
  | .pred p y n, e => .cond (p.fill e) y n
  | .yes p y n, e => .cond p (y.fill e) n
  | .no p y n, e => .cond p y (n.fill e)
  | .value x v b, e => .letIn x (v.fill e) b
  | .body x v b, e => .letIn x v (b.fill e)

/-- The names that are declared around the hole. -/
def declared : Context → List String
  | .hole => []
  | .lambda _ b => b.declared
  | .fn f _ => f.declared
  | .arg _ a => a.declared
  | .pred p _ _ => p.declared
  | .yes _ y _ => y.declared
  | .no _ _ n => n.declared
  | .value _ v _ => v.declared
  | .body x _ b => x :: b.declared

/-- What has the same types wherever the names in `S` have none has the same types in a context that
declares none of them. -/
theorem hasType_fill_iff {S : List String} {e e' : Expr}
    (h : ∀ G D t, (∀ y ∈ S, G y = none) → (HasType G D e t ↔ HasType G D e' t)) (C : Context)
    (hC : ∀ y ∈ S, y ∉ C.declared) {G : Globals} (hG : ∀ y ∈ S, G y = none) {D : Binders} {t : Ty} :
    HasType G D (C.fill e) t ↔ HasType G D (C.fill e') t := by
  induction C generalizing G D t with
  | hole => exact h G D t hG
  | lambda x b ih => simp only [fill, hasType_lambda_iff, ih hC hG]
  | fn f a ih => simp only [fill, hasType_call_iff, ih hC hG]
  | arg f a ih => simp only [fill, hasType_call_iff, ih hC hG]
  | pred p y n ih => simp only [fill, hasType_cond_iff, ih hC hG]
  | yes p y n ih => simp only [fill, hasType_cond_iff, ih hC hG]
  | no p y n ih => simp only [fill, hasType_cond_iff, ih hC hG]
  | value x v b ih => simp only [fill, hasType_letIn_iff, ih hC hG]
  | body x v b ih =>
    have hCb : ∀ y ∈ S, y ≠ x ∧ y ∉ b.declared := fun y hy => by simpa [declared] using hC y hy
    have hGb : ∀ u, ∀ y ∈ S, Function.update G x (some u) y = none := by
      intro u y hy
      rw [Function.update_of_ne (hCb y hy).1]
      exact hG y hy
    simp only [fill, hasType_letIn_iff, ih (fun y hy => (hCb y hy).2) (hGb _)]

theorem declared_subset_fill (C : Context) (e : Expr) : C.declared ⊆ (C.fill e).names := by
  induction C <;> simp only [declared, fill, Expr.names] <;> grind

theorem names_subset_fill (C : Context) (e : Expr) : e.names ⊆ (C.fill e).names := by
  induction C <;> simp only [fill, Expr.names] <;> grind

end Context

/-! ### Renaming a binder -/

/-- Contexts that differ in two names only, the new one of which has in the second what the old one
has in the first. -/
theorem renames_update {x z : String} {b : Expr} (hz : z ∉ b.names) {G G' : Globals}
    {D D' : Binders} (hfree : (x, false) ∈ b.undeclared → G' z = G x ∧ D' z = D x)
    (hbound : (x, true) ∈ b.undeclared → G' x = G x) (hG : ∀ y, y ≠ x → y ≠ z → G' y = G y)
    (hD : ∀ y, y ≠ x → y ≠ z → D' y = D y) :
    Renames (Function.update id x z) G G' D D' b := by
  have hne : ∀ {y bound}, (y, bound) ∈ b.undeclared → y ≠ z := by
    rintro y bound hy rfl
    exact hz (Expr.mem_names_of_mem_undeclared hy)
  refine ⟨fun y => ?_, fun y bound hy => ?_, fun y hy => ?_⟩
  · by_cases hyx : y = x
    · subst hyx
      simp [hz]
    · simp [hyx]
  · by_cases hyx : y = x
    · subst hyx
      cases bound with
      | true => exact hbound hy
      | false => simpa using (hfree hy).1
    · simpa [hyx] using hG y hyx (hne hy)
  · by_cases hyx : y = x
    · subst hyx
      simpa using (hfree hy).2
    · simpa [hyx] using hD y hyx (hne hy)

theorem hasType_rename_lambda {x z : String} {b : Expr} (hz : z ∉ b.names) {G : Globals}
    (hG : (x, false) ∈ b.undeclared → G z = G x) {D : Binders} {t : Ty} :
    HasType G D (.lambda x b) t ↔
      HasType G D (.lambda z (b.renameUses (Function.update id x z))) t := by
  have hbody : ∀ p, Renames (Function.update id x z) G G (Function.update D x p)
      (Function.update D z p) b := fun p =>
    renames_update hz (fun hfree => ⟨hG hfree, by simp⟩) (fun _ => rfl) (fun _ _ _ => rfl)
      fun y hyx hyz => by simp [hyx, hyz]
  simp only [hasType_lambda_iff, hasType_renameUses (hbody _)]

theorem hasType_rename_letIn {x z : String} {v b : Expr} (hz : z ∉ b.names)
    (hsole : (x, true) ∉ b.undeclared) {G : Globals} {D : Binders} {t : Ty} :
    HasType G D (.letIn x v b) t ↔
      HasType G D (.letIn z v (b.renameUses (Function.update id x z))) t := by
  have hbody : ∀ u p, Renames (Function.update id x z) (Function.update G x u)
      (Function.update G z u) (Function.update D x p) (Function.update D z p) b := fun u p =>
    renames_update hz (fun _ => by simp) (fun hbound => absurd hbound hsole)
      (fun y hyx hyz => by simp [hyx, hyz]) fun y hyx hyz => by simp [hyx, hyz]
  simp only [hasType_letIn_iff, hasType_renameUses (hbody _ _)]

namespace Binding

/-- No use is tied to the node and to something else as well. A use of a parameter would be tied to
the operator or to the declaration of its name; a use below a declaration would be tied to a
parameter of its name. -/
def Sole (C : Context) : Binding → Prop
  | .lambda x b => (x, false) ∈ b.undeclared → x ∉ operators ∧ x ∉ C.declared
  | .letIn x _ b => (x, true) ∉ b.undeclared

instance decidableSole (C : Context) : (N : Binding) → Decidable (N.Sole C)
  | .lambda x b =>
    inferInstanceAs (Decidable ((x, false) ∈ b.undeclared → x ∉ operators ∧ x ∉ C.declared))
  | .letIn x _ b => inferInstanceAs (Decidable ((x, true) ∉ b.undeclared))

end Binding

/-- Both fail, or both find types that read the same. -/
def SameReading : Except Conflict Ty → Except Conflict Ty → Prop
  | .error _, .error _ => True
  | .ok t, .ok t' => t.pretty = t'.pretty
  | _, _ => False

theorem sameReading_of_hasType_iff {e e' : Expr}
    (h : ∀ t, HasType operatorTypes (fun _ => none) e t ↔
      HasType operatorTypes (fun _ => none) e' t) :
    SameReading (infer e).outcome (infer e').outcome := by
  cases hT : (infer e).outcome with
  | error conflict =>
    cases hT' : (infer e').outcome with
    | error conflict' => trivial
    | ok T' => exact not_hasType_of_infer_error hT T' ((h T').2 (hasType_of_infer_ok hT'))
  | ok T =>
    cases hT' : (infer e').outcome with
    | error conflict' => exact not_hasType_of_infer_error hT' T ((h T).1 (hasType_of_infer_ok hT))
    | ok T' =>
      have hto : ∃ s, T.subst s = T' :=
        (hasType_iff_of_infer_ok hT T').1 ((h T').2 (hasType_of_infer_ok hT'))
      have hfrom : ∃ s, T'.subst s = T :=
        (hasType_iff_of_infer_ok hT' T).1 ((h T).1 (hasType_of_infer_ok hT))
      exact Ty.Variants.pretty_eq ⟨hto, hfrom⟩

/-- In its place, a binder that no use is tied to together with something else has the same types
under a new name. -/
theorem hasType_rename (C : Context) (N : Binding) {z : String} (hz : z ∉ (C.fill N.expr).names)
    (hop : z ∉ operators) (hsole : N.Sole C) (t : Ty) :
    HasType operatorTypes (fun _ => none) (C.fill N.expr) t ↔
      HasType operatorTypes (fun _ => none) (C.fill (N.rename z).expr) t := by
  have hzN : z ∉ N.expr.names := mt (@Context.names_subset_fill C N.expr z) hz
  cases N with
  | letIn x v b =>
    have hzb : z ∉ b.names := mt (fun h => by simp [Binding.expr, Expr.names, h]) hzN
    refine C.hasType_fill_iff (S := []) (fun G D t _ => ?_) (by simp) (by simp)
    exact hasType_rename_letIn hzb hsole
  | lambda x b =>
    have hzb : z ∉ b.names := mt (fun h => by simp [Binding.expr, Expr.names, h]) hzN
    by_cases hfree : (x, false) ∈ b.undeclared
    · obtain ⟨hxop, hxC⟩ := hsole hfree
      refine C.hasType_fill_iff (S := [x, z]) (fun G D t hG => ?_) ?_ ?_
      · refine hasType_rename_lambda hzb fun _ => ?_
        rw [hG x (by simp), hG z (by simp)]
      · have hzC : z ∉ C.declared := mt (@Context.declared_subset_fill C _ z) hz
        simp [hxC, hzC]
      · simp [operatorTypes, hxop, hop]
    · refine C.hasType_fill_iff (S := []) (fun G D t _ => ?_) (by simp) (by simp)
      exact hasType_rename_lambda hzb fun h => absurd h hfree

/-- The name of a binder does not matter, where no use is tied to the binder and to something else
as well. -/
theorem infer_rename (C : Context) (N : Binding) (z : String) (hz : z ∉ (C.fill N.expr).names)
    (hop : z ∉ operators) (hsole : N.Sole C) :
    SameReading (infer (C.fill N.expr)).outcome (infer (C.fill (N.rename z).expr)).outcome :=
  sameReading_of_hasType_iff (hasType_rename C N hz hop hsole)

/-- A declaration whose name is used in its value and bound again inside, by both kinds of
binders. -/
def Binding.shadowing : Binding :=
  .letIn "x" (.ident "x")
    (.call (.ident "x") (.letIn "x" (.const 1) (.lambda "x" (.ident "x"))))

def Context.shadowed : Context := .lambda "x" .hole

theorem infer_rename_shadowing :
    "z" ∉ (Context.shadowed.fill Binding.shadowing.expr).names ∧ "z" ∉ operators ∧
      Binding.shadowing.Sole .shadowed ∧
      SameReading (infer (Context.shadowed.fill Binding.shadowing.expr)).outcome
        (infer (Context.shadowed.fill (Binding.shadowing.rename "z").expr)).outcome :=
  have hz : "z" ∉ (Context.shadowed.fill Binding.shadowing.expr).names := by decide
  have hop : "z" ∉ operators := by decide
  have hsole : Binding.shadowing.Sole .shadowed := by decide
  ⟨hz, hop, hsole, infer_rename .shadowed .shadowing "z" hz hop hsole⟩

/-- Where a parameter has the name of a declaration around it, the name matters. -/
theorem not_forall_sameReading : ¬∀ (C : Context) (N : Binding) (z : String),
    z ∉ (C.fill N.expr).names → z ∉ operators →
      SameReading (infer (C.fill N.expr)).outcome (infer (C.fill (N.rename z).expr)).outcome := by
  intro h
  have hbefore : (infer (.letIn "y" (.const 1) (.lambda "y" (.ident "y")))).outcome =
      .ok (.fn .int .int) := by rfl
  have hafter : (infer (.letIn "y" (.const 1) (.lambda "z" (.ident "z")))).outcome =
      .ok (.fn (.var 5) (.var 5)) := by rfl
  have hsame := h (.body "y" (.const 1) .hole) (.lambda "y" (.ident "y")) "z" (by decide)
    (by decide)
  simp only [Context.fill, Binding.expr, Binding.rename, Expr.renameUses, Function.update_self,
    hbefore, hafter, SameReading] at hsame
  revert hsame
  decide +kernel

/-- It matters for the declaration as well. -/
example : (infer (.letIn "z" (.const 1) (.lambda "y" (.ident "y")))).outcome =
    .ok (.fn (.var 5) (.var 5)) := by rfl

/-- A parameter with the name of an operator has the type of the operator. -/
example : (infer (.lambda "+" (.ident "+"))).outcome =
    .ok (.fn (.fn .int .int) (.fn .int .int)) := by cbv

end Monotype
