import Monotype.Proofs.Grammar

/-! What one token does to a reader. The transitions are listed once, as a relation, and the
reader's step is this relation: what is said later about reading is a case analysis over the
list. -/
namespace Monotype.Source

variable {α : Nonterminal → Type} (A : Actions α)

/-! ### Places and what fills them -/

/-- Where an operand can stand that is complete in itself: at the start of an expression, or after
the function that it is an argument of. -/
def Focus.awaiting : Option (α .application) → Focus α
  | none => .start
  | some f => .applied f

/-- A parenthesis that opens in such a place. -/
def Frame.parenAfter : Option (α .application) → Frame α
  | none => .paren
  | some f => .argument f

/-- The application that such an operand completes. -/
def Actions.extend : Option (α .application) → α .atom → α .application
  | none, a => A.single a
  | some f, a => A.apply f a

/-- The reader stands after an expression: when all is completed that may end there, this is `e`
inside the given frames. -/
def State.Closes (s : State α) (e : α .expr) (frames : List (Frame α)) : Prop :=
  ∃ o, s.focus.operand? A = some o ∧ collapse A o s.frames = (e, frames)

theorem State.finish?_eq_some_iff {s : State α} {e : α .expr} :
    s.finish? A = some e ↔ s.Closes A e [] := by
  unfold State.finish? State.Closes
  cases s.focus.operand? A with
  | none => simp
  | some o =>
    cases hc : collapse A o s.frames with
    | mk e' fs => cases fs <;> simp [hc]

/-! ### The transitions -/

/-- The transitions of the reader. -/
inductive Transition : State α → Terminal → State α → Prop where
  | number (f : Option (α .application)) (fs : List (Frame α)) {text : String}
      (short : text.length ≤ Text.maxDigits) :
      Transition ⟨.awaiting f, fs⟩ (.number text) ⟨.applied (A.extend f (A.number text)), fs⟩
  | name (f : Option (α .application)) (fs : List (Frame α)) (text : String) :
      Transition ⟨.awaiting f, fs⟩ (.name text) ⟨.applied (A.extend f (A.name text)), fs⟩
  | openParen (f : Option (α .application)) (fs : List (Frame α)) :
      Transition ⟨.awaiting f, fs⟩ .openParen ⟨.start, .parenAfter f :: fs⟩
  | fn (fs : List (Frame α)) : Transition ⟨.start, fs⟩ (.keyword .fn) ⟨.fn, fs⟩
  | param (fs : List (Frame α)) (x : String) :
      Transition ⟨.fn, fs⟩ (.name x) ⟨.fnParam x, fs⟩
  | arrow (fs : List (Frame α)) (x : String) :
      Transition ⟨.fnParam x, fs⟩ .arrow ⟨.start, .body x :: fs⟩
  | if_ (fs : List (Frame α)) :
      Transition ⟨.start, fs⟩ (.keyword .if_) ⟨.start, .predicate :: fs⟩
  | let_ (fs : List (Frame α)) : Transition ⟨.start, fs⟩ (.keyword .let_) ⟨.letWord, fs⟩
  | val (fs : List (Frame α)) : Transition ⟨.letWord, fs⟩ (.keyword .val) ⟨.letVal, fs⟩
  | declared (fs : List (Frame α)) (x : String) :
      Transition ⟨.letVal, fs⟩ (.name x) ⟨.letName x, fs⟩
  | eq (fs : List (Frame α)) (x : String) :
      Transition ⟨.letName x, fs⟩ (.op .eq) ⟨.start, .value x :: fs⟩
  | op {s : State α} {e : α .expr} (operand : s.focus.operand? A = some e) (o : Op) :
      Transition s (.op o) ⟨.start, .right o (reduce A o.level e s.frames).1 ::
        (reduce A o.level e s.frames).2⟩
  | closeParen {s : State α} {e : α .expr} {f : Option (α .application)} {fs : List (Frame α)}
      (closes : s.Closes A e (.parenAfter f :: fs)) :
      Transition s .closeParen ⟨.applied (A.extend f (A.paren e)), fs⟩
  | then_ {s : State α} {e : α .expr} {fs : List (Frame α)}
      (closes : s.Closes A e (.predicate :: fs)) :
      Transition s (.keyword .then_) ⟨.start, .yes e :: fs⟩
  | else_ {s : State α} {e p : α .expr} {fs : List (Frame α)}
      (closes : s.Closes A e (.yes p :: fs)) :
      Transition s (.keyword .else_) ⟨.start, .no p e :: fs⟩
  | in_ {s : State α} {e : α .expr} {x : String} {fs : List (Frame α)}
      (closes : s.Closes A e (.value x :: fs)) :
      Transition s (.keyword .in_) ⟨.start, .scope x e :: fs⟩
  | end_ {s : State α} {e v : α .expr} {x : String} {fs : List (Frame α)}
      (closes : s.Closes A e (.scope x v :: fs)) :
      Transition s (.keyword .end_) ⟨.closed (A.letIn x v e), fs⟩

/-- Whether an operand can start with the terminal that is complete in itself. -/
def Terminal.startsAtom : Terminal → Bool
  | .number _ | .name _ | .openParen => true
  | _ => false

namespace State

theorem step_terminal (s : State α) (t : Token) : s.step A t = s.step A t.terminal.token := by
  obtain ⟨focus, frames⟩ := s
  obtain ⟨kind, text, position⟩ := t
  cases kind <;> cases focus <;> rfl

variable {A} {s s' : State α} {x : Terminal}

theorem step_atom (f : Option (α .application)) (fs : List (Frame α)) {t : Token}
    {r : Except Refusal (α .atom)} (h : atom? A t.kind t.text = some r) :
    (⟨.awaiting f, fs⟩ : State α).step A t = r.map fun a => ⟨.applied (A.extend f a), fs⟩ := by
  cases f <;> simp only [step, Focus.awaiting, h] <;> rfl

theorem step_number (f : Option (α .application)) (fs : List (Frame α)) (text : String) :
    (⟨.awaiting f, fs⟩ : State α).step A (Terminal.number text).token =
      (readNumber A text).map fun a => ⟨.applied (A.extend f a), fs⟩ :=
  step_atom f fs rfl

/-- After an expression, a token that starts no operand completes what it can, and goes on. -/
theorem step_operand {o : α .expr} (h : s.focus.operand? A = some o) (hx : x.startsAtom = false) :
    s.step A x.token = orUnexpected (continueAfter A o s.frames x.token.kind) := by
  obtain ⟨focus, fs⟩ := s
  cases focus <;> simp only [Focus.operand?, Option.some.injEq, reduceCtorEq] at h <;> subst h
  case applied e =>
    cases x
    case number | name | openParen => cases hx
    all_goals rfl
  case closed e => rfl

theorem step_closing {e : α .expr} {fs : List (Frame α)} (h : s.Closes A e fs)
    (hx : x.startsAtom = false) (hop : ∀ o, x ≠ .op o) :
    s.step A x.token = orUnexpected (close A x.token.kind e fs) := by
  obtain ⟨o, ho, hc⟩ := h
  rw [step_operand ho hx]
  cases x
  case op o => exact absurd rfl (hop o)
  all_goals simp only [Terminal.token, continueAfter, hc]

end State

theorem close_parenAfter (e : α .expr) (f : Option (α .application)) (fs : List (Frame α)) :
    close A .closeParen e (.parenAfter f :: fs) =
      some ⟨.applied (A.extend f (A.paren e)), fs⟩ := by
  cases f <;> rfl

section Steps

variable {A} {s s' : State α} {x : Terminal}

theorem Transition.step (h : Transition A s x s') : s.step A x.token = .ok s' := by
  cases h with
  | number f fs short =>
    rw [State.step_number, readNumber, if_neg (Nat.not_lt_of_le short)]
    rfl
  | name f fs text => exact State.step_atom f fs (r := .ok (A.name text)) rfl
  | openParen f fs => cases f <;> rfl
  | op operand o =>
    rw [State.step_operand operand rfl]
    rfl
  | closeParen closes =>
    rw [State.step_closing closes rfl (by simp), Terminal.token, close_parenAfter]
    rfl
  | then_ closes =>
    rw [State.step_closing closes rfl (by simp)]
    rfl
  | else_ closes =>
    rw [State.step_closing closes rfl (by simp)]
    rfl
  | in_ closes =>
    rw [State.step_closing closes rfl (by simp)]
    rfl
  | end_ closes =>
    rw [State.step_closing closes rfl (by simp)]
    rfl
  | _ => rfl

theorem transition_of_close {e : α .expr} {fs : List (Frame α)} (h : s.Closes A e fs)
    (hc : close A x.token.kind e fs = some s') : Transition A s x s' := by
  cases fs with
  | nil => cases hc
  | cons frame fs =>
    cases frame <;> cases x
    case paren.closeParen =>
      cases hc
      exact .closeParen (f := none) h
    case argument.closeParen f =>
      cases hc
      exact .closeParen (f := some f) h
    case predicate.keyword k =>
      cases k <;> cases hc
      exact .then_ h
    case yes.keyword p k =>
      cases k <;> cases hc
      exact .else_ h
    case value.keyword x k =>
      cases k <;> cases hc
      exact .in_ h
    case scope.keyword x v k =>
      cases k <;> cases hc
      exact .end_ h
    all_goals cases hc

theorem transition_of_continueAfter {o : α .expr} (ho : s.focus.operand? A = some o)
    (h : orUnexpected (continueAfter A o s.frames x.token.kind) = .ok s') :
    Transition A s x s' := by
  have closing (hc : orUnexpected (close A x.token.kind (collapse A o s.frames).1
      (collapse A o s.frames).2) = .ok s') : Transition A s x s' := by
    cases hclose : close A x.token.kind (collapse A o s.frames).1 (collapse A o s.frames).2 with
    | none =>
      rw [hclose] at hc
      cases hc
    | some t =>
      rw [hclose] at hc
      cases hc
      exact transition_of_close ⟨o, ho, rfl⟩ hclose
  cases x
  case op op =>
    cases h
    exact .op ho op
  all_goals exact closing h

theorem transition_of_number {f : Option (α .application)} {fs : List (Frame α)} {text : String}
    (h : (⟨.awaiting f, fs⟩ : State α).step A (Terminal.number text).token = .ok s') :
    Transition A ⟨.awaiting f, fs⟩ (.number text) s' := by
  rw [State.step_number, readNumber] at h
  split at h
  · cases h
  · rename_i hle
    cases h
    exact .number f fs (Nat.le_of_not_lt hle)

theorem transition_of_step (h : s.step A x.token = .ok s') : Transition A s x s' := by
  obtain ⟨focus, fs⟩ := s
  cases focus
  case start =>
    cases x
    case number text => exact transition_of_number (f := none) h
    case name text =>
      cases h
      exact .name none fs text
    case openParen =>
      cases h
      exact .openParen none fs
    case keyword k =>
      cases k <;> cases h
      · exact .let_ fs
      · exact .if_ fs
      · exact .fn fs
    all_goals cases h
  case fn =>
    cases x <;> cases h
    exact .param fs _
  case fnParam y =>
    cases x <;> cases h
    exact .arrow fs y
  case letWord =>
    cases x
    case keyword k =>
      cases k <;> cases h
      exact .val fs
    all_goals cases h
  case letVal =>
    cases x <;> cases h
    exact .declared fs _
  case letName y =>
    cases x
    case op o =>
      cases o <;> cases h
      exact .eq fs y
    all_goals cases h
  case applied e =>
    cases x
    case number text => exact transition_of_number (f := some e) h
    case name text =>
      cases h
      exact .name (some e) fs text
    case openParen =>
      cases h
      exact .openParen (some e) fs
    all_goals exact transition_of_continueAfter rfl h
  case closed e => exact transition_of_continueAfter rfl h

/-! ### Numbers that are too long -/

theorem orUnexpected_ne_tooLong (o : Option (State α)) (n : Nat) :
    orUnexpected o ≠ .error (.tooLong n) := by
  cases o <;> simp [orUnexpected]

/-- A number is refused for its length only where a shorter one would be read. -/
theorem State.step_eq_tooLong {n : Nat} (h : s.step A x.token = .error (.tooLong n)) :
    ∃ f text, s.focus = .awaiting f ∧ x = .number text ∧ text.length = n ∧ Text.maxDigits < n := by
  obtain ⟨focus, fs⟩ := s
  have number (f : Option (α .application)) (text : String)
      (hf : (⟨.awaiting f, fs⟩ : State α).step A (Terminal.number text).token =
        .error (.tooLong n)) : text.length = n ∧ Text.maxDigits < n := by
    rw [State.step_number, readNumber] at hf
    split at hf
    · rename_i hlt
      cases hf
      exact ⟨rfl, hlt⟩
    · cases hf
  cases focus
  case start =>
    cases x
    case number text => exact ⟨none, text, rfl, rfl, number none text h⟩
    case keyword k => cases k <;> cases h
    all_goals cases h
  case applied e =>
    cases x
    case number text => exact ⟨some e, text, rfl, rfl, number (some e) text h⟩
    case name => cases h
    case openParen => cases h
    all_goals
      rw [State.step_operand rfl rfl] at h
      exact absurd h (orUnexpected_ne_tooLong _ n)
  case closed e => exact absurd h (orUnexpected_ne_tooLong _ n)
  case letWord =>
    cases x
    case keyword k => cases k <;> cases h
    all_goals cases h
  case letName y =>
    cases x
    case op o => cases o <;> cases h
    all_goals cases h
  all_goals cases x <;> cases h

end Steps

end Monotype.Source
