import Monotype.Proofs.Precedence
import Monotype.Proofs.Scanning
import Monotype.Proofs.Scoping

/-! What declarations mean, and what can be declared. A declaration gives its name one type, as a
function that is applied to the value gives one to its parameter: where no parameter comes between,
the two are typed alike, and a declaration is no more general. In a text only names are declared,
and no operator is a name; so the expressions that are read from texts declare no operator. -/
namespace Monotype

open Source

namespace Expr

/-- The names that are declared in an expression. -/
def declarations : Expr → List String
  | .ident _ => []
  | .const _ => []
  | .lambda _ b => b.declarations
  | .call f a => f.declarations ++ a.declarations
  | .cond p y n => p.declarations ++ (y.declarations ++ n.declarations)
  | .letIn x v b => x :: (v.declarations ++ b.declarations)

/-- The names of the parameters in an expression. -/
def params : Expr → List String
  | .ident _ => []
  | .const _ => []
  | .lambda x b => x :: b.params
  | .call f a => f.params ++ a.params
  | .cond p y n => p.params ++ (y.params ++ n.params)
  | .letIn _ v b => v.params ++ b.params

end Expr

/-! ### Declarations as applied functions -/

/-- A use of a declared name has the type that the use of a parameter has. The name must have no
type otherwise, and no parameter inside may have it: below such a parameter, a use would still be
tied to the declaration. -/
theorem hasType_decl_iff_param {x : String} {b : Expr} (hb : x ∉ b.params) {G : Globals}
    (hG : G x = none) {D : Binders} {u t : Ty} :
    HasType (Function.update G x (some u)) (Function.update D x (some .decl)) b t ↔
      HasType G (Function.update D x (some (.param u))) b t := by
  induction b generalizing G D t with
  | ident y =>
    rw [hasType_use_iff, hasType_use_iff]
    by_cases hyx : y = x
    · subst hyx
      simp [hG]
    · simp [hyx]
  | const value => rw [hasType_const_iff, hasType_const_iff]
  | lambda y b ih =>
    obtain ⟨hxy, hb⟩ : x ≠ y ∧ x ∉ b.params := by simpa [Expr.params] using hb
    simp only [hasType_lambda_iff, Function.update_comm hxy, ih hb hG]
  | call f a ihf iha =>
    obtain ⟨hf, ha⟩ : x ∉ f.params ∧ x ∉ a.params := by simpa [Expr.params] using hb
    simp only [hasType_call_iff, ihf hf hG, iha ha hG]
  | cond p y n ihp ihy ihn =>
    obtain ⟨hp, hy, hn⟩ : x ∉ p.params ∧ x ∉ y.params ∧ x ∉ n.params := by
      simpa [Expr.params] using hb
    simp only [hasType_cond_iff, ihp hp hG, ihy hy hG, ihn hn hG]
  | letIn y v b ihv ihb =>
    obtain ⟨hv, hb⟩ : x ∉ v.params ∧ x ∉ b.params := by simpa [Expr.params] using hb
    simp only [hasType_letIn_iff, ihv hv hG]
    by_cases hxy : x = y
    · -- The name is declared again, and both contexts forget what it was.
      subst hxy
      simp only [Function.update_idem]
    · have hGy : ∀ w, Function.update G y (some w) x = none := fun w => by simp [hxy, hG]
      simp only [Function.update_comm hxy, ihb hb (hGy _)]

theorem hasType_letIn_iff_call {x : String} {v b : Expr} (hb : x ∉ b.params) {G : Globals}
    (hG : G x = none) {D : Binders} {t : Ty} :
    HasType G D (.letIn x v b) t ↔ HasType G D (.call (.lambda x b) v) t := by
  simp only [hasType_letIn_iff, hasType_call_iff, hasType_lambda_iff,
    hasType_decl_iff_param hb hG]
  constructor
  · rintro ⟨u, hv, hbody⟩
    exact ⟨u, ⟨u, t, rfl, hbody⟩, hv⟩
  · rintro ⟨u, ⟨p, w, heq, hbody⟩, hv⟩
    cases heq
    exact ⟨u, hv, hbody⟩

/-- A declaration is typed as the function of its name applied to its value. -/
theorem infer_letIn_call (x : String) (v b : Expr) (hx : x ∉ operators) (hb : x ∉ b.params) :
    SameReading (infer (.letIn x v b)).outcome (infer (.call (.lambda x b) v)).outcome :=
  sameReading_of_hasType_iff fun _ => hasType_letIn_iff_call hb (by simp [operatorTypes, hx])

/-- A body that declares the name again, by means of the outer declaration. -/
def Expr.redeclaring : Expr :=
  .letIn "f" (.lambda "y" (.call (.ident "f") (.ident "y"))) (.call (.ident "f") (.ident "z"))

theorem infer_letIn_redeclaring :
    "f" ∉ operators ∧ "f" ∉ Expr.redeclaring.params ∧
      (infer (.letIn "f" (.lambda "x" (.ident "x")) .redeclaring)).outcome = .ok (.var 4) ∧
      SameReading (infer (.letIn "f" (.lambda "x" (.ident "x")) .redeclaring)).outcome
        (infer (.call (.lambda "f" .redeclaring) (.lambda "x" (.ident "x")))).outcome :=
  have hx : "f" ∉ operators := by decide
  have hb : "f" ∉ Expr.redeclaring.params := by decide
  ⟨hx, hb, rfl, infer_letIn_call "f" (.lambda "x" (.ident "x")) .redeclaring hx hb⟩

/-! ### What texts declare -/

namespace Source

/-- A name begins with a letter or an underscore, and no operator does. -/
theorem notMem_operators_of_take? {cs text rest : List Char}
    (h : Kind.name.pattern.take? cs = some (text, rest)) : String.ofList text ∉ operators := by
  obtain ⟨c, text, rfl⟩ := List.exists_cons_of_ne_nil (Kind.take?_ne_nil h)
  have hstart : isNameStart c = true := by
    have happend := Kind.take?_append h
    simp only [Kind.pattern, Pattern.take?, ← happend] at h
    split at h
    · rename_i hany
      simpa using hany
    · cases h
  have hoperator : ∀ o ∈ operators, o.toList.head?.any isNameStart = false := by decide
  intro hmem
  have hfirst := hoperator _ hmem
  rw [String.toList_ofList] at hfirst
  simp [hstart] at hfirst

theorem notMem_operators_of_mem_lex {source : String} {t : Token} (h : t ∈ (lex source).tokens)
    (hkind : t.kind = .name) : t.text ∉ operators := by
  obtain ⟨cs, text, rest, hfirst, htext⟩ := (scan_lexFrom _ _ _).exists_first? h
  rw [hkind] at hfirst
  rw [htext]
  exact notMem_operators_of_take? (first?_eq_some hfirst)

theorem readTokens_stuck {α : Nonterminal → Type} (A : Actions α) (ts : List Token)
    (position : Position) (e : α .expr) : readTokens A ⟨ts, some position⟩ ≠ .ok e := by
  simp only [readTokens]
  split <;> simp_all

/-- What is read has a derivation. -/
theorem exists_derivation_of_readTokens {lexed : Lexed} {e : Expr}
    (h : readTokens .build lexed = .ok e) :
    ∃ d : Derivation .expr, d.terminals = lexed.tokens.map Token.terminal ∧ d.tree = e := by
  obtain ⟨ts, stuck?⟩ := lexed
  cases stuck? with
  | some position => exact absurd h (readTokens_stuck .build ts position e)
  | none =>
    rw [readTokens_map maps_tree] at h
    cases hd : readTokens Actions.derive ⟨ts, none⟩ with
    | error err =>
      rw [hd] at h
      cases h
    | ok d =>
      rw [hd] at h
      exact ⟨d, (canonical_of_readTokens hd).1, Except.ok.inj h⟩

theorem Derivation.name_mem_terminals {n : Nonterminal} {d : Derivation n} {x : String}
    (h : x ∈ d.tree.declarations) : .name x ∈ d.terminals := by
  induction d <;> simp only [tree, Expr.declarations] at h <;> simp only [terminals] <;> grind

theorem Token.terminal_eq_name_iff (t : Token) (x : String) :
    t.terminal = .name x ↔ t.kind = .name ∧ t.text = x := by
  unfold Token.terminal
  cases t.kind <;> simp

end Source

/-- No text declares an operator. -/
theorem notMem_operators_of_parse {source : String} {e : Expr} (h : parse source = .ok e) :
    ∀ x ∈ e.declarations, x ∉ operators := by
  intro x hx
  obtain ⟨d, hterminals, rfl⟩ := exists_derivation_of_readTokens h
  have hmem := Derivation.name_mem_terminals hx
  rw [hterminals] at hmem
  obtain ⟨t, ht, hname⟩ := List.mem_map.1 hmem
  obtain ⟨hkind, rfl⟩ := (t.terminal_eq_name_iff x).1 hname
  exact notMem_operators_of_mem_lex ht hkind

end Monotype
