import Monotype.Annotation
import Monotype.Proofs.Precedence
import Monotype.Proofs.Spelling
import Mathlib.Algebra.Ring.Int.Defs

/-! Written expressions are read back. An annotated expression is written with parentheses around
all but names and numbers, so the text has a derivation without operators, which is canonical, and
whose tree is the expression. -/
namespace Monotype

open Source

namespace Expr

/-- All names are names to the rules for tokens, and all constants are numbers that can be read. -/
def Writable : Expr → Prop
  | .ident x => IsName x
  | .const n => 0 ≤ n ∧ n < 10 ^ Text.maxDigits
  | .lambda x b => IsName x ∧ b.Writable
  | .call f a => f.Writable ∧ a.Writable
  | .cond p y n => p.Writable ∧ y.Writable ∧ n.Writable
  | .letIn x v b => IsName x ∧ v.Writable ∧ b.Writable

instance decidableWritable : (e : Expr) → Decidable e.Writable
  | .ident x => inferInstanceAs (Decidable (IsName x))
  | .const n => inferInstanceAs (Decidable (0 ≤ n ∧ n < 10 ^ Text.maxDigits))
  | .lambda x b =>
    have := b.decidableWritable
    inferInstanceAs (Decidable (IsName x ∧ b.Writable))
  | .call f a =>
    have := f.decidableWritable
    have := a.decidableWritable
    inferInstanceAs (Decidable (f.Writable ∧ a.Writable))
  | .cond p y n =>
    have := p.decidableWritable
    have := y.decidableWritable
    have := n.decidableWritable
    inferInstanceAs (Decidable (p.Writable ∧ y.Writable ∧ n.Writable))
  | .letIn x v b =>
    have := v.decidableWritable
    have := b.decidableWritable
    inferInstanceAs (Decidable (IsName x ∧ v.Writable ∧ b.Writable))

/-- The derivation of an expression that is written with all parentheses. -/
def written : Expr → Derivation .atom
  | .ident x => .name x
  | .const n => .number (toString n)
  | .lambda x b => .paren (.lambda x (.application (.single b.written)))
  | .call f a => .paren (.application (.apply (.single f.written) a.written))
  | .cond p y n =>
    .paren (.cond (.application (.single p.written)) (.application (.single y.written))
      (.application (.single n.written)))
  | .letIn x v b =>
    .paren (.letIn x (.application (.single v.written)) (.application (.single b.written)))

theorem canonical_written (e : Expr) : e.written.Canonical := by
  induction e <;> simp_all [written, Derivation.Canonical]

theorem exists_toString {n : Int} (hn : 0 ≤ n) : ∃ m : Nat, n = m ∧ toString n = m.repr := by
  obtain ⟨m, rfl⟩ := Int.eq_ofNat_of_zero_le hn
  exact ⟨m, rfl, rfl⟩

theorem tree_written {e : Expr} (he : e.Writable) : e.written.tree = e := by
  induction e with
  | const n =>
    obtain ⟨m, rfl, htext⟩ := exists_toString he.1
    rw [written, Derivation.tree, htext, Text.numeral_repr]
  | _ => simp_all [Writable, written, Derivation.tree]

theorem length_repr_le {m : Nat} (hm : (m : Int) < 10 ^ Text.maxDigits) :
    m.repr.length ≤ Text.maxDigits := by
  have hpow : ((10 ^ Text.maxDigits : Nat) : Int) = 10 ^ Text.maxDigits :=
    Int.natCast_pow 10 Text.maxDigits
  rw [← hpow, Int.ofNat_lt] at hm
  exact (Text.length_repr_le_iff m).2 hm

theorem length_le_of_mem_written {e : Expr} (he : e.Writable) {text : String}
    (h : .number text ∈ e.written.terminals) : text.length ≤ Text.maxDigits := by
  induction e with
  | const n =>
    obtain ⟨m, rfl, htext⟩ := exists_toString he.1
    have heq : text = m.repr := by simpa [written, Derivation.terminals, htext] using h
    exact heq ▸ length_repr_le he.2
  | ident x => simp [written, Derivation.terminals] at h
  | lambda x b ih => exact ih he.2 (by simpa [written, Derivation.terminals] using h)
  | call f a ihf iha =>
    have h : .number text ∈ f.written.terminals ∨ .number text ∈ a.written.terminals := by
      simpa [written, Derivation.terminals] using h
    exact h.elim (ihf he.1) (iha he.2)
  | cond p y n ihp ihy ihn =>
    have h : .number text ∈ p.written.terminals ∨ .number text ∈ y.written.terminals ∨
        .number text ∈ n.written.terminals := by
      simpa [written, Derivation.terminals] using h
    exact h.elim (ihp he.1) fun h => h.elim (ihy he.2.1) (ihn he.2.2)
  | letIn x v b ihv ihb =>
    have h : .number text ∈ v.written.terminals ∨ .number text ∈ b.written.terminals := by
      simpa [written, Derivation.terminals] using h
    exact h.elim (ihv he.2.1) (ihb he.2.2)

/-- The text of an expression is lexed as what is derived. The induction is on the expression, for
any text after it, since each part is followed by the rest of the whole. -/
theorem lexes_text {e : Expr} (he : e.Writable) (scope : Scope) (n : Nat) {rest : List Char}
    (hr : Breaks rest) {xs : List Terminal} (h : Lexes rest xs) :
    Lexes ((Term.text (e.label scope n).1).toList ++ rest) (e.written.terminals ++ xs) := by
  induction e generalizing scope n rest xs with
  | ident x =>
    have htoken := h.token (x := .name x) he (.inr hr)
    rw [label]
    split <;> exact htoken
  | const value =>
    obtain ⟨m, rfl, htext⟩ := exists_toString he.1
    exact h.token (spelled_repr m) (.inr hr)
  | lambda x b ih =>
    obtain ⟨hx, hb⟩ := he
    have hbody := ih hb (scope.extend x (some (.var (n + 2)))) (n + 2) (breaks_close rest)
      (h.close hr)
    have hfn := (((hbody.spaced (x := .arrow) trivial).spaced (x := .name x) hx).spaced
      (x := .keyword .fn) trivial).open
    simpa [label, Term.text, written, Derivation.terminals, Terminal.spelling, Keyword.word]
      using hfn
  | call f a ihf iha =>
    obtain ⟨hf, ha⟩ := he
    have harg := iha ha scope (f.label scope (n + 1)).2 (breaks_close rest) (h.close hr)
    have hfn := (ihf hf scope (n + 1) (breaks_space _) harg.space).open
    simpa [label, Term.text, written, Derivation.terminals] using hfn
  | cond p y e ihp ihy ihe =>
    obtain ⟨hp, hy, he⟩ := he
    have hno := ihe he scope (y.label scope (p.label scope (n + 1)).2).2 (breaks_close rest)
      (h.close hr)
    have hyes := ihy hy scope (p.label scope (n + 1)).2 (breaks_space _)
      (hno.spaced (x := .keyword .else_) trivial).space
    have hpred := ihp hp scope (n + 1) (breaks_space _)
      (hyes.spaced (x := .keyword .then_) trivial).space
    have hif := (hpred.spaced (x := .keyword .if_) trivial).open
    simpa [label, Term.text, written, Derivation.terminals, Terminal.spelling, Keyword.word]
      using hif
  | letIn x v b ihv ihb =>
    obtain ⟨hx, hv, hb⟩ := he
    have hend := (h.close hr).token (x := .keyword .end_) trivial (.inr (breaks_close rest))
    have hbody := ihb hb (scope.extend x none) (v.label scope (n + 2)).2 (breaks_space _) hend.space
    have hvalue := ihv hv scope (n + 2) (breaks_space _)
      (hbody.spaced (x := .keyword .in_) trivial).space
    have hlet := ((((hvalue.spaced (x := .op .eq) trivial).spaced (x := .name x) hx).spaced
      (x := .keyword .val) trivial).spaced (x := .keyword .let_) trivial).open
    simpa [label, Term.text, written, Derivation.terminals, Terminal.spelling, Keyword.word,
      Op.symbol] using hlet

end Expr

theorem lex_text_annotate {e : Expr} (he : e.Writable) :
    (lex (Term.text e.annotate)).tokens.map Token.terminal = e.written.terminals ∧
      (lex (Term.text e.annotate)).stuck? = none := by
  have hlexes := e.lexes_text he .empty 0 (by simp [Breaks]) lexes_nil .start 1
  rw [List.append_nil, List.append_nil] at hlexes
  exact hlexes

/-- An annotated expression whose names and constants can be written is read back from its text. -/
theorem parse_text_annotate (e : Expr) (he : e.Writable) :
    parse (Term.text e.annotate) = .ok e := by
  obtain ⟨hterminals, hstuck⟩ := lex_text_annotate he
  have hreadable : ∀ t ∈ (lex (Term.text e.annotate)).tokens, t.Readable := by
    intro t ht hkind
    refine e.length_le_of_mem_written he ?_
    have hmem : t.terminal ∈ e.written.terminals := hterminals ▸ List.mem_map_of_mem ht
    simpa [Token.terminal, hkind] using hmem
  have hderive : readTokens .derive (lex (Term.text e.annotate)) =
      .ok (.application (.single e.written)) := by
    rw [← readTokens_of_canonical hreadable hterminals.symm e.canonical_written, ← hstuck]
  calc parse (Term.text e.annotate)
      = (readTokens .derive (lex (Term.text e.annotate))).map Derivation.tree :=
        readTokens_map maps_tree _
    _ = .ok e.written.tree := by rw [hderive]; rfl
    _ = .ok e := by rw [e.tree_written he]

/-- The largest constant that can be read, and names that begin with a keyword or hold an
apostrophe. -/
def Expr.atLimits : Expr :=
  .letIn "let_" (.lambda "x'" (.call (.ident "f'let") (.ident "x'")))
    (.cond (.ident "iff") (.const (10 ^ Text.maxDigits - 1)) (.call (.ident "let_") (.ident "_")))

theorem parse_text_atLimits :
    Expr.atLimits.Writable ∧ parse (Term.text Expr.atLimits.annotate) = .ok Expr.atLimits :=
  have he : Expr.atLimits.Writable := by decide +kernel
  ⟨he, parse_text_annotate _ he⟩

end Monotype
