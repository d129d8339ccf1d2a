import Monotype.Proofs.Transitions

/-! The reader does not look at what it builds. Where one set of actions can be mapped to another,
reading with the first and mapping the result is reading with the second. -/
namespace Monotype.Source

variable {α β : Nonterminal → Type} {A : Actions α} {B : Actions β}

/-- Maps what one set of actions makes to what another makes of the same. -/
structure Actions.Maps (A : Actions α) (B : Actions β) (f : {n : Nonterminal} → α n → β n) :
    Prop where
  lambda : ∀ x b, f (A.lambda x b) = B.lambda x (f b)
  cond : ∀ p y n, f (A.cond p y n) = B.cond (f p) (f y) (f n)
  letIn : ∀ x v b, f (A.letIn x v b) = B.letIn x (f v) (f b)
  binary : ∀ op l r, f (A.binary op l r) = B.binary op (f l) (f r)
  application : ∀ e, f (A.application e) = B.application (f e)
  apply : ∀ g a, f (A.apply g a) = B.apply (f g) (f a)
  single : ∀ e, f (A.single e) = B.single (f e)
  number : ∀ text, f (A.number text) = B.number text
  name : ∀ text, f (A.name text) = B.name text
  paren : ∀ e, f (A.paren e) = B.paren (f e)

variable (f : {n : Nonterminal} → α n → β n)

def Frame.map : Frame α → Frame β
  | .paren => .paren
  | .argument g => .argument (f g)
  | .body x => .body x
  | .predicate => .predicate
  | .yes p => .yes (f p)
  | .no p y => .no (f p) (f y)
  | .value x => .value x
  | .scope x v => .scope x (f v)
  | .right op l => .right op (f l)

def Focus.map : Focus α → Focus β
  | .start => .start
  | .fn => .fn
  | .fnParam x => .fnParam x
  | .letWord => .letWord
  | .letVal => .letVal
  | .letName x => .letName x
  | .applied e => .applied (f e)
  | .closed e => .closed (f e)

def State.map (s : State α) : State β := ⟨s.focus.map f, s.frames.map (Frame.map f)⟩

variable {f} (h : A.Maps B f)
include h

theorem collapse_map (e : α .expr) (fs : List (Frame α)) :
    collapse B (f e) (fs.map (Frame.map f)) =
      (f (collapse A e fs).1, (collapse A e fs).2.map (Frame.map f)) := by
  induction fs generalizing e with
  | nil => rfl
  | cons frame fs ih =>
    cases frame with
    | right op l =>
      rw [List.map_cons, Frame.map, collapse, ← h.binary]
      exact ih _
    | body x =>
      rw [List.map_cons, Frame.map, collapse, ← h.lambda]
      exact ih _
    | no p y =>
      rw [List.map_cons, Frame.map, collapse, ← h.cond]
      exact ih _
    | _ => rfl

theorem reduce_map (level : Nat) (e : α .expr) (fs : List (Frame α)) :
    reduce B level (f e) (fs.map (Frame.map f)) =
      (f (reduce A level e fs).1, (reduce A level e fs).2.map (Frame.map f)) := by
  induction fs generalizing e with
  | nil => rfl
  | cons frame fs ih =>
    cases frame with
    | right op l =>
      by_cases hle : level ≤ op.level
      · simp only [List.map_cons, Frame.map, reduce, hle, if_true, ← h.binary]
        exact ih _
      · simp only [List.map_cons, Frame.map, reduce, hle, if_false]
    | _ => rfl

theorem close_map (kind : Kind) (e : α .expr) (fs : List (Frame α)) :
    close B kind (f e) (fs.map (Frame.map f)) = (close A kind e fs).map (State.map f) := by
  cases fs with
  | nil => rfl
  | cons frame fs =>
    cases frame <;> cases kind
    case paren.closeParen => simp [close, State.map, Focus.map, Frame.map, h.single, h.paren]
    case argument.closeParen => simp [close, State.map, Focus.map, Frame.map, h.apply, h.paren]
    case scope.keyword x v k =>
      cases k <;> simp [close, State.map, Focus.map, Frame.map, h.letIn]
    case predicate.keyword k => cases k <;> rfl
    case yes.keyword p k => cases k <;> rfl
    case value.keyword x k => cases k <;> rfl
    all_goals rfl

theorem continueAfter_map (e : α .expr) (fs : List (Frame α)) (kind : Kind) :
    continueAfter B (f e) (fs.map (Frame.map f)) kind =
      (continueAfter A e fs kind).map (State.map f) := by
  cases kind
  case op op => simp [continueAfter, reduce_map h, State.map, Focus.map, Frame.map]
  all_goals simp only [continueAfter, collapse_map h, close_map h]

theorem atom?_map (kind : Kind) (text : String) :
    atom? B kind text = (atom? A kind text).map (Except.map f) := by
  cases kind
  case number =>
    simp only [atom?, readNumber, Option.map_some]
    split <;> simp [Except.map, h.number]
  case name => simp [atom?, Except.map, h.name]
  all_goals rfl

theorem State.step_atom_map (g : Option (α .application)) (fs : List (Frame α)) {t : Token}
    {r : Except Refusal (α .atom)} (hr : atom? A t.kind t.text = some r) :
    (State.map f (⟨.awaiting g, fs⟩ : State α)).step B t =
      ((⟨.awaiting g, fs⟩ : State α).step A t).map (State.map f) := by
  have hstate : State.map f (⟨.awaiting g, fs⟩ : State α) =
      ⟨.awaiting (g.map f), fs.map (Frame.map f)⟩ := by cases g <;> rfl
  have hatom : atom? B t.kind t.text = some (r.map f) := by rw [atom?_map h, hr]; rfl
  have hextend : ∀ a, f (A.extend g a) = B.extend (g.map f) (f a) := by
    cases g with
    | none => exact h.single
    | some g => exact h.apply g
  rw [hstate, State.step_atom _ _ hatom, State.step_atom _ _ hr]
  cases r <;> simp [Except.map, State.map, Focus.map, hextend]

theorem State.step_map (s : State α) (t : Token) :
    (s.map f).step B t = (s.step A t).map (State.map f) := by
  obtain ⟨focus, fs⟩ := s
  obtain ⟨kind, text, position⟩ := t
  have hcontinue : ∀ e kind, orUnexpected (continueAfter B (f e) (fs.map (Frame.map f)) kind) =
      (orUnexpected (continueAfter A e fs kind)).map (State.map f) := by
    intro e kind
    rw [continueAfter_map h]
    cases continueAfter A e fs kind <;> rfl
  cases focus
  case start =>
    cases kind
    case number => exact State.step_atom_map h none fs (r := readNumber A text) rfl
    case name => exact State.step_atom_map h none fs (r := .ok (A.name text)) rfl
    case keyword k => cases k <;> rfl
    all_goals rfl
  case applied e =>
    cases kind
    case number => exact State.step_atom_map h (some e) fs (r := readNumber A text) rfl
    case name => exact State.step_atom_map h (some e) fs (r := .ok (A.name text)) rfl
    case openParen => rfl
    all_goals
      simp only [State.map, Focus.map, State.step, atom?, ← h.application]
      exact hcontinue _ _
  case closed e => exact hcontinue e kind
  all_goals
    simp only [State.step, State.map, Focus.map]
    split <;> rfl

theorem State.read_map (s : State α) (ts : List Token) :
    (s.map f).read B ts = (s.read A ts).map (State.map f) := by
  induction ts generalizing s with
  | nil => rfl
  | cons t ts ih =>
    simp only [State.read, State.step_map h]
    cases s.step A t with
    | ok s' => exact ih s'
    | error refusal => rfl

theorem State.finish?_map (s : State α) :
    (s.map f).finish? B = (s.finish? A).map f := by
  have hoperand : (s.map f).focus.operand? B = (s.focus.operand? A).map f := by
    obtain ⟨focus, fs⟩ := s
    cases focus <;> simp [State.map, Focus.map, Focus.operand?, h.application]
  simp only [State.finish?, hoperand]
  cases s.focus.operand? A with
  | none => rfl
  | some e =>
    simp only [Option.map_some, State.map, collapse_map h]
    obtain ⟨e', fs⟩ := collapse A e s.frames
    cases fs <;> rfl

/-- What is read depends on the actions only in what it is made into. -/
theorem readTokens_map (lexed : Lexed) : readTokens B lexed = (readTokens A lexed).map f := by
  have hread : State.initial.read B lexed.tokens =
      (State.initial.read A lexed.tokens).map (State.map f) := State.read_map h .initial _
  simp only [readTokens, hread]
  cases State.initial.read A lexed.tokens with
  | error e => rfl
  | ok s =>
    cases lexed.stuck? with
    | some position => rfl
    | none =>
      simp only [Except.map, State.finish?_map h]
      cases s.finish? A <;> rfl

end Monotype.Source
