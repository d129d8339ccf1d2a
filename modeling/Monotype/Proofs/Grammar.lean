import Monotype.Source.Reading

/-! The grammar that the reader implements. A derivation uses one production at each node; the
tokens that it derives, and the expression that it stands for, are read off it. The grammar is
ambiguous, and precedence picks the canonical derivations: among the ways to put parentheses around
the operands of operators, they are those by which operators of a higher level bind more tightly,
operators of one level group to the left, and the bodies of `fn` and `else` extend as far as they
can. -/
namespace Monotype.Source

/-! ### Terminals -/

/-- What the grammar sees of a token: its kind, and the text of a number or a name. -/
inductive Terminal where
  | arrow
  | keyword (k : Keyword)
  | openParen
  | closeParen
  | number (text : String)
  | name (text : String)
  | op (o : Op)
  deriving DecidableEq

def Token.terminal (t : Token) : Terminal :=
  match t.kind with
  | .arrow => .arrow
  | .keyword k => .keyword k
  | .openParen => .openParen
  | .closeParen => .closeParen
  | .number => .number t.text
  | .name => .name t.text
  | .op o => .op o

namespace Terminal

/-- A token for a terminal, at no particular place. -/
def token : Terminal → Token
  | .arrow => ⟨.arrow, "", .start⟩
  | .keyword k => ⟨.keyword k, "", .start⟩
  | .openParen => ⟨.openParen, "", .start⟩
  | .closeParen => ⟨.closeParen, "", .start⟩
  | .number text => ⟨.number, text, .start⟩
  | .name text => ⟨.name, text, .start⟩
  | .op o => ⟨.op o, "", .start⟩

@[simp] theorem terminal_token (x : Terminal) : x.token.terminal = x := by
  cases x <;> rfl

theorem map_terminal_token (xs : List Terminal) : (xs.map token).map Token.terminal = xs := by
  simp [List.map_map, Function.comp_def]

end Terminal

/-! ### Derivations -/

/-- Derivations from a nonterminal, with one constructor for each production of the grammar. -/
inductive Derivation : Nonterminal → Type where
  /-- `expr : "fn" name "=>" expr` -/
  | lambda (param : String) (body : Derivation .expr) : Derivation .expr
  /-- `expr : "if" expr "then" expr "else" expr` -/
  | cond (pred yes no : Derivation .expr) : Derivation .expr
  /-- `expr : "let" "val" name "=" expr "in" expr "end"` -/
  | letIn (name : String) (value body : Derivation .expr) : Derivation .expr
  /-- `expr : expr op expr`, a production for each operator -/
  | binary (op : Op) (left right : Derivation .expr) : Derivation .expr
  /-- `expr : application` -/
  | application (e : Derivation .application) : Derivation .expr
  /-- `application : application atom` -/
  | apply (fn : Derivation .application) (arg : Derivation .atom) : Derivation .application
  /-- `application : atom` -/
  | single (e : Derivation .atom) : Derivation .application
  /-- `atom : number` -/
  | number (text : String) : Derivation .atom
  /-- `atom : name` -/
  | name (text : String) : Derivation .atom
  /-- `atom : "(" expr ")"` -/
  | paren (e : Derivation .expr) : Derivation .atom

namespace Derivation

/-- What is derived. -/
def terminals : {n : Nonterminal} → Derivation n → List Terminal
  | _, .lambda x b => .keyword .fn :: .name x :: .arrow :: b.terminals
  | _, .cond p y n =>
    .keyword .if_ :: (p.terminals ++
      .keyword .then_ :: (y.terminals ++ .keyword .else_ :: n.terminals))
  | _, .letIn x v b =>
    .keyword .let_ :: .keyword .val :: .name x :: .op .eq :: (v.terminals ++
      .keyword .in_ :: (b.terminals ++ [.keyword .end_]))
  | _, .binary op l r => l.terminals ++ .op op :: r.terminals
  | _, .application e => e.terminals
  | _, .apply f a => f.terminals ++ a.terminals
  | _, .single e => e.terminals
  | _, .number text => [.number text]
  | _, .name text => [.name text]
  | _, .paren e => .openParen :: (e.terminals ++ [.closeParen])

/-- The expression that a derivation stands for. An operator is a function of two arguments, applied
to one after the other; application nests to the left; parentheses leave no trace. -/
def tree : {n : Nonterminal} → Derivation n → Expr
  | _, .lambda x b => .lambda x b.tree
  | _, .cond p y n => .cond p.tree y.tree n.tree
  | _, .letIn x v b => .letIn x v.tree b.tree
  | _, .binary op l r => .call (.call (.ident op.symbol) l.tree) r.tree
  | _, .application e => e.tree
  | _, .apply f a => .call f.tree a.tree
  | _, .single e => e.tree
  | _, .number text => .const (Text.numeral text.toList)
  | _, .name text => .ident text
  | _, .paren e => e.tree

/-! ### Precedence -/

/-- The level of an operation that stands without parentheses. -/
def level? : Derivation .expr → Option Nat
  | .binary op _ _ => some op.level
  | _ => none

/-- Whether the right edge is that of a `fn` or an `if` without parentheses. -/
def EndsOpen : {n : Nonterminal} → Derivation n → Prop
  | _, .lambda _ _ => True
  | _, .cond _ _ _ => True
  | _, .binary _ _ r => r.EndsOpen
  | _, _ => False

/-- The left operand of an operator may be an operation of the same level, but not of a lower one,
and it may not end in an open `fn` or `if`. -/
def LeftOperand (op : Op) (d : Derivation .expr) : Prop :=
  (∀ m, d.level? = some m → op.level ≤ m) ∧ ¬d.EndsOpen

/-- The right operand of an operator may be an operation of a higher level only. -/
def RightOperand (op : Op) (d : Derivation .expr) : Prop :=
  ∀ m, d.level? = some m → op.level < m

/-- The operands of all operators are such as precedence allows. -/
def Canonical : {n : Nonterminal} → Derivation n → Prop
  | _, .lambda _ b => b.Canonical
  | _, .cond p y n => p.Canonical ∧ y.Canonical ∧ n.Canonical
  | _, .letIn _ v b => v.Canonical ∧ b.Canonical
  | _, .binary op l r => l.Canonical ∧ r.Canonical ∧ l.LeftOperand op ∧ r.RightOperand op
  | _, .application e => e.Canonical
  | _, .apply f a => f.Canonical ∧ a.Canonical
  | _, .single e => e.Canonical
  | _, .number _ => True
  | _, .name _ => True
  | _, .paren e => e.Canonical

end Derivation

/-- A number has no more digits than can be read. -/
def Token.Readable (t : Token) : Prop := t.kind = .number → t.text.length ≤ Text.maxDigits

/-- The tokens are derived from `expr`. -/
def Derivable (ts : List Token) : Prop :=
  ∃ d : Derivation .expr, d.terminals = ts.map Token.terminal

/-- Tokens with which something derivable begins. -/
def Viable (ts : List Token) : Prop := ∃ rest, Derivable (ts ++ rest)

end Monotype.Source
