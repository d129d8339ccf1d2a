import Monotype.Proofs.Declarations

/-! Operations have no type. An operator takes one integer to an integer, but an operation applies
it to one operand and the result to the other; so an integer would have to be a function. No text
declares an operator anew, and parameters do not hide one, so this holds wherever the operation
stands. The operations of a text show in its tokens: each operator token is that of an operation,
except for one `=` in each declaration. -/
namespace Monotype

namespace Source

/-! ### Operator tokens -/

/-- There is an operator other than `=`, or there are more of `=` than declarations. -/
def HasOperation (ts : List Token) : Prop :=
  (∃ op : Op, op ≠ .eq ∧ .op op ∈ ts.map Token.terminal) ∨
    (ts.map Token.terminal).count (.keyword .let_) < (ts.map Token.terminal).count (.op .eq)

namespace Derivation

/-- The operators of all operations, from left to right. -/
def operations : {n : Nonterminal} → Derivation n → List Op
  | _, .lambda _ b => b.operations
  | _, .cond p y n => p.operations ++ (y.operations ++ n.operations)
  | _, .letIn _ v b => v.operations ++ b.operations
  | _, .binary op l r => l.operations ++ op :: r.operations
  | _, .application e => e.operations
  | _, .apply f a => f.operations ++ a.operations
  | _, .single e => e.operations
  | _, .number _ => []
  | _, .name _ => []
  | _, .paren e => e.operations

/-- Every operator token is that of an operation, but for one `=` in each declaration. -/
theorem count_op_terminals {n : Nonterminal} (d : Derivation n) (op : Op) :
    d.terminals.count (.op op) =
      d.operations.count op + if op = .eq then d.terminals.count (.keyword .let_) else 0 := by
  induction d with
  | lambda x b ih => simpa [terminals, operations] using ih
  | cond p y n ihp ihy ihn =>
    simp only [terminals, operations, List.count_append, List.count_cons_of_ne, ne_eq,
      reduceCtorEq, not_false_eq_true, Terminal.keyword.injEq, ihp, ihy, ihn]
    split_ifs <;> omega
  | letIn x v b ihv ihb =>
    by_cases hop : op = .eq
    · -- The `=` of the declaration is counted with its `let`.
      subst hop
      simp [terminals, operations, ihv, ihb, Nat.add_assoc, Nat.add_left_comm]
    · simp [terminals, operations, ihv, ihb, hop, Ne.symm hop]
  | binary o l r ihl ihr =>
    simp only [terminals, operations, List.count_append, List.count_cons, ihl, ihr, beq_iff_eq,
      Terminal.op.injEq, reduceCtorEq, if_false]
    split_ifs <;> omega
  | application e ih => exact ih
  | apply f a ihf iha =>
    simp only [terminals, operations, List.count_append, ihf, iha]
    split_ifs <;> omega
  | single e ih => exact ih
  | number text => simp [terminals, operations]
  | name text => simp [terminals, operations]
  | paren e ih => simpa [terminals, operations] using ih

theorem operations_ne_nil {ts : List Token} (h : HasOperation ts) {d : Derivation .expr}
    (hd : d.terminals = ts.map Token.terminal) : d.operations ≠ [] := by
  intro hnil
  have hcount : ∀ op, d.terminals.count (.op op) =
      if op = .eq then d.terminals.count (.keyword .let_) else 0 := by
    intro op
    rw [count_op_terminals, hnil, List.count_nil, Nat.zero_add]
  unfold HasOperation at h
  rw [← hd] at h
  rcases h with ⟨op, hne, hmem⟩ | hlt
  · have hpos := List.count_pos_iff.2 hmem
    rw [hcount, if_neg hne] at hpos
    omega
  · rw [hcount, if_pos rfl] at hlt
    omega

end Derivation

end Source

open Source

/-! ### No type -/

theorem Source.Op.symbol_mem (op : Op) : op.symbol ∈ operators := by cases op <;> decide

/-- An operator with a type of its own cannot be applied to two operands. -/
theorem not_hasType_binary {G : Globals} {o : String} (hG : G o = some (.fn .int .int))
    (D : Binders) (l r : Expr) (t : Ty) : ¬HasType G D (.call (.call (.ident o) l) r) t := by
  simp only [hasType_call_iff, hasType_use_iff]
  rintro ⟨u, ⟨v, ⟨-, hdecl⟩, -⟩, -⟩
  have heq := hdecl _ hG
  simp at heq

/-- An expression that is typed where all operators have their types has no operations. -/
theorem Source.Derivation.operations_eq_nil {n : Nonterminal} (d : Derivation n) {G : Globals}
    (hG : ∀ o ∈ operators, G o = some (.fn .int .int))
    (hd : ∀ x ∈ d.tree.declarations, x ∉ operators) {D : Binders} {t : Ty}
    (h : HasType G D d.tree t) : d.operations = [] := by
  induction d generalizing G D t with
  | lambda x b ih =>
    obtain ⟨p, u, -, hb⟩ := hasType_lambda_iff.1 h
    exact ih hG hd hb
  | cond p y n ihp ihy ihn =>
    simp only [tree, Expr.declarations, List.forall_mem_append] at hd
    obtain ⟨hp, hy, hn⟩ := hasType_cond_iff.1 h
    simp [operations, ihp hG hd.1 hp, ihy hG hd.2.1 hy, ihn hG hd.2.2 hn]
  | letIn x v b ihv ihb =>
    simp only [tree, Expr.declarations, List.forall_mem_cons, List.forall_mem_append] at hd
    obtain ⟨u, hv, hb⟩ := hasType_letIn_iff.1 h
    -- The declared name is none of the operators, so they keep their types in the body.
    have hGb : ∀ o ∈ operators, Function.update G x (some u) o = some (.fn .int .int) := by
      intro o ho
      rw [Function.update_of_ne (by rintro rfl; exact hd.1 ho)]
      exact hG o ho
    simp [operations, ihv hG hd.2.1 hv, ihb hGb hd.2.2 hb]
  | binary op l r ihl ihr => exact absurd h (not_hasType_binary (hG _ op.symbol_mem) D _ _ t)
  | application e ih => exact ih hG hd h
  | apply f a ihf iha =>
    simp only [tree, Expr.declarations, List.forall_mem_append] at hd
    obtain ⟨u, hf, ha⟩ := hasType_call_iff.1 h
    simp [operations, ihf hG hd.1 hf, iha hG hd.2 ha]
  | single e ih => exact ih hG hd h
  | number text => rfl
  | name text => rfl
  | paren e ih => exact ih hG hd h

/-- A text with an operation is read, but it has no type. -/
theorem inferSource_operation (source : String) (e : Expr) (hparse : parse source = .ok e)
    (h : HasOperation (lex source).tokens) :
    ∃ conflict, inferSource source = .error (.typing conflict) := by
  simp only [inferSource, hparse]
  cases hT : (infer e).outcome with
  | error conflict => exact ⟨conflict, rfl⟩
  | ok T =>
    obtain ⟨d, hd, rfl⟩ := exists_derivation_of_readTokens hparse
    have hnil := d.operations_eq_nil (fun o ho => by simp [operatorTypes, ho])
      (notMem_operators_of_parse hparse) (hasType_of_infer_ok hT)
    exact absurd hnil (Derivation.operations_ne_nil h hd)

/-- Two of `=`, one of which belongs to the declaration. -/
def comparison : String := "let val f = fn x => x = 1 in f end"

theorem inferSource_comparison :
    parse comparison = .ok (.letIn "f"
        (.lambda "x" (.call (.call (.ident "=") (.ident "x")) (.const 1))) (.ident "f")) ∧
      HasOperation (lex comparison).tokens ∧
      ∃ conflict, inferSource comparison = .error (.typing conflict) :=
  have hparse : parse comparison = .ok (.letIn "f"
      (.lambda "x" (.call (.call (.ident "=") (.ident "x")) (.const 1))) (.ident "f")) := by
    decide +kernel
  have h : HasOperation (lex comparison).tokens := .inr (by decide +kernel)
  ⟨hparse, h, inferSource_operation comparison _ hparse h⟩

end Monotype
