import Monotype.Proofs.Acceptance
import Monotype.Proofs.Actions
import Mathlib.Tactic.Simps.Basic

/-! The reader resolves ambiguities by precedence. Run with actions that build derivations, it
builds a canonical derivation of what it has read. Conversely a canonical derivation is read back as
it is, so what is derivable has exactly one canonical derivation, and the expression that is read is
the one that this derivation stands for. -/
namespace Monotype.Source

/-- Builds derivations. -/
@[simps]
def Actions.derive : Actions Derivation where
  lambda := .lambda
  cond := .cond
  letIn := .letIn
  binary := .binary
  application := .application
  apply := .apply
  single := .single
  number := .number
  name := .name
  paren := .paren

theorem maps_tree : Actions.derive.Maps .build Derivation.tree := by
  constructor <;> intros <;> rfl

/-! ### What a reader holds -/

/-- The terminals in a construct that is open. -/
def Frame.terminals : Frame Derivation → List Terminal
  | .paren => [.openParen]
  | .argument f => f.terminals ++ [.openParen]
  | .body x => [.keyword .fn, .name x, .arrow]
  | .predicate => [.keyword .if_]
  | .yes p => .keyword .if_ :: (p.terminals ++ [.keyword .then_])
  | .no p y =>
    .keyword .if_ :: (p.terminals ++ .keyword .then_ :: (y.terminals ++ [.keyword .else_]))
  | .value x => [.keyword .let_, .keyword .val, .name x, .op .eq]
  | .scope x v =>
    .keyword .let_ :: .keyword .val :: .name x :: .op .eq :: (v.terminals ++ [.keyword .in_])
  | .right op l => l.terminals ++ [.op op]

def Focus.terminals : Focus Derivation → List Terminal
  | .start => []
  | .fn => [.keyword .fn]
  | .fnParam x => [.keyword .fn, .name x]
  | .letWord => [.keyword .let_]
  | .letVal => [.keyword .let_, .keyword .val]
  | .letName x => [.keyword .let_, .keyword .val, .name x]
  | .applied e => e.terminals
  | .closed e => e.terminals

/-- The terminals in all open constructs, the outermost first. -/
def held : List (Frame Derivation) → List Terminal
  | [] => []
  | frame :: fs => held fs ++ frame.terminals

/-- The terminals that a reader has read. -/
def State.terminals (s : State Derivation) : List Terminal := held s.frames ++ s.focus.terminals

@[simp] theorem held_cons (frame : Frame Derivation) (fs : List (Frame Derivation)) :
    held (frame :: fs) = held fs ++ frame.terminals := rfl

@[simp] theorem State.terminals_start (fs : List (Frame Derivation)) :
    State.terminals ⟨.start, fs⟩ = held fs := List.append_nil _

@[simp] theorem State.terminals_applied (e : Derivation .application)
    (fs : List (Frame Derivation)) : State.terminals ⟨.applied e, fs⟩ = held fs ++ e.terminals :=
  rfl

@[simp] theorem State.terminals_closed (e : Derivation .expr) (fs : List (Frame Derivation)) :
    State.terminals ⟨.closed e, fs⟩ = held fs ++ e.terminals := rfl

@[simp] theorem State.terminals_awaiting (f : Option (Derivation .application))
    (fs : List (Frame Derivation)) :
    State.terminals ⟨.awaiting f, fs⟩ = held fs ++ (Focus.awaiting f).terminals := rfl

@[simp] theorem terminals_extend (f : Option (Derivation .application)) (a : Derivation .atom) :
    (Actions.derive.extend f a).terminals = (Focus.awaiting f).terminals ++ a.terminals := by
  cases f <;> rfl

@[simp] theorem terminals_parenAfter (f : Option (Derivation .application)) :
    (Frame.parenAfter f).terminals = (Focus.awaiting f).terminals ++ [.openParen] := by
  cases f <;> rfl

theorem held_collapse (e : Derivation .expr) (fs : List (Frame Derivation)) :
    held (collapse .derive e fs).2 ++ (collapse .derive e fs).1.terminals =
      held fs ++ e.terminals := by
  induction fs generalizing e with
  | nil => rfl
  | cons frame fs ih =>
    cases frame with
    | right op l =>
      rw [collapse, ih]
      simp [Frame.terminals, Derivation.terminals]
    | body x =>
      rw [collapse, ih]
      simp [Frame.terminals, Derivation.terminals]
    | no p y =>
      rw [collapse, ih]
      simp [Frame.terminals, Derivation.terminals]
    | _ => rfl

theorem held_reduce (level : Nat) (e : Derivation .expr) (fs : List (Frame Derivation)) :
    held (reduce .derive level e fs).2 ++ (reduce .derive level e fs).1.terminals =
      held fs ++ e.terminals := by
  fun_induction reduce Actions.derive level e fs with
  | case1 e op l fs h ih =>
    rw [ih]
    simp [Frame.terminals, Derivation.terminals]
  | case2 e op l fs h => rfl
  | case3 e fs h => rfl

theorem State.terminals_operand {s : State Derivation} {e : Derivation .expr}
    (h : s.focus.operand? .derive = some e) : s.terminals = held s.frames ++ e.terminals := by
  obtain ⟨focus, fs⟩ := s
  cases focus <;> cases h <;> rfl

theorem State.Closes.terminals {s : State Derivation} {e : Derivation .expr}
    {fs : List (Frame Derivation)} (h : s.Closes .derive e fs) :
    s.terminals = held fs ++ e.terminals := by
  obtain ⟨o, ho, hc⟩ := h
  have hheld := held_collapse o s.frames
  rw [hc] at hheld
  rw [State.terminals_operand ho, hheld]

/-- A reader holds what it has read, and nothing else. -/
theorem Transition.terminals {s s' : State Derivation} {x : Terminal}
    (h : Transition .derive s x s') : s'.terminals = s.terminals ++ [x] := by
  cases h with
  | op operand o =>
    rw [State.terminals_operand operand, ← held_reduce o.level]
    simp [Frame.terminals]
  | closeParen closes =>
    rw [closes.terminals]
    simp [Derivation.terminals]
  | then_ closes | else_ closes | in_ closes | end_ closes =>
    rw [closes.terminals]
    simp [Frame.terminals, Derivation.terminals]
  | number | name | openParen => simp [Derivation.terminals]
  | _ => simp [State.terminals, Focus.terminals, Frame.terminals]

/-! ### Canonical readers -/

namespace Derivation

/-- The expression is an operand of any operator, on either side. -/
def Tight (d : Derivation .expr) : Prop := d.level? = none ∧ ¬d.EndsOpen

theorem Tight.leftOperand {d : Derivation .expr} (h : d.Tight) (op : Op) : d.LeftOperand op :=
  ⟨fun m hm => by simp [h.1] at hm, h.2⟩

theorem rightOperand_of_level? {d : Derivation .expr} (h : d.level? = none) (op : Op) :
    d.RightOperand op := fun m hm => by simp [h] at hm

end Derivation

/-- The expression may be what the innermost open construct ends with. -/
def Fits : List (Frame Derivation) → Derivation .expr → Prop
  | .right op _ :: _, d => d.RightOperand op
  | _, _ => True

theorem fits_of_level? {d : Derivation .expr} (h : d.level? = none)
    (fs : List (Frame Derivation)) : Fits fs d := by
  unfold Fits
  split
  · exact Derivation.rightOperand_of_level? h _
  · trivial

theorem Fits.left {op : Op} {l r : Derivation .expr}
    {fs : List (Frame Derivation)} (h : Fits fs (.binary op l r))
    (hlevel : ∀ m, l.level? = some m → op.level ≤ m) : Fits fs l := by
  cases fs with
  | nil => trivial
  | cons frame fs =>
    cases frame with
    | right op' l' =>
      intro m hm
      exact Nat.lt_of_lt_of_le (h op.level rfl) (hlevel m hm)
    | _ => trivial

/-- What is complete of an open construct inside `fs` is canonical. -/
def Frame.CanonicalIn (fs : List (Frame Derivation)) : Frame Derivation → Prop
  | .argument f => f.Canonical
  | .yes p => p.Canonical
  | .no p y => p.Canonical ∧ y.Canonical
  | .scope _ v => v.Canonical
  | .right op l => l.Canonical ∧ l.LeftOperand op ∧ ∀ r, Fits fs (.binary op l r)
  | _ => True

def FramesCanonical : List (Frame Derivation) → Prop
  | [] => True
  | frame :: fs => frame.CanonicalIn fs ∧ FramesCanonical fs

def Focus.Canonical : Focus Derivation → Prop
  | .applied e => e.Canonical
  | .closed e => e.Canonical ∧ e.Tight
  | _ => True

/-- All that a reader has completed is canonical, and will be so as a part of what is open. -/
structure State.Canonical (s : State Derivation) : Prop where
  focus : s.focus.Canonical
  frames : FramesCanonical s.frames

theorem canonical_collapse {e : Derivation .expr} {fs : List (Frame Derivation)}
    (he : e.Canonical) (hfs : FramesCanonical fs) (hfit : Fits fs e) :
    (collapse .derive e fs).1.Canonical ∧ FramesCanonical (collapse .derive e fs).2 := by
  induction fs generalizing e with
  | nil => exact ⟨he, hfs⟩
  | cons frame fs ih =>
    obtain ⟨hframe, hrest⟩ := hfs
    cases frame with
    | right op l =>
      obtain ⟨hl, hleft, hfits⟩ := hframe
      exact ih ⟨hl, he, hleft, hfit⟩ hrest (hfits e)
    | body x => exact ih (e := .lambda x e) he hrest (fits_of_level? rfl fs)
    | no p y =>
      exact ih (e := .cond p y e) ⟨hframe.1, hframe.2, he⟩ hrest (fits_of_level? rfl fs)
    | _ => exact ⟨he, hframe, hrest⟩

/-- Completing operations gives a left operand, and leaves only operations that bind less tightly.
-/
theorem canonical_reduce (op : Op) {e : Derivation .expr} {fs : List (Frame Derivation)}
    (he : e.Canonical) (hleft : e.LeftOperand op) (hfs : FramesCanonical fs) (hfit : Fits fs e) :
    FramesCanonical (.right op (reduce .derive op.level e fs).1 ::
      (reduce .derive op.level e fs).2) := by
  induction fs generalizing e with
  | nil => exact ⟨⟨he, hleft, fun _ => trivial⟩, trivial⟩
  | cons frame fs ih =>
    cases frame with
    | right op' l =>
      rw [reduce]
      split
      · rename_i hle
        obtain ⟨⟨hl, hleft', hfits⟩, hrest⟩ := hfs
        have hleft₁ : (Derivation.binary op' l e).LeftOperand op :=
          ⟨fun m hm => Option.some.inj hm ▸ hle, hleft.2⟩
        exact ih ⟨hl, he, hleft', hfit⟩ hleft₁ hrest (hfits e)
      · rename_i hlt
        refine ⟨⟨he, hleft, fun r m hm => ?_⟩, hfs⟩
        rw [← Option.some.inj hm]
        exact Nat.lt_of_not_le hlt
    | _ => exact ⟨⟨he, hleft, fun _ => trivial⟩, hfs⟩

theorem State.Canonical.operand {s : State Derivation} (hs : s.Canonical) {e : Derivation .expr}
    (h : s.focus.operand? .derive = some e) : e.Canonical ∧ e.Tight := by
  obtain ⟨focus, fs⟩ := s
  cases focus <;> cases h
  case applied e => exact ⟨hs.focus, rfl, id⟩
  case closed => exact hs.focus

theorem State.Canonical.closes {s : State Derivation} (hs : s.Canonical) {e : Derivation .expr}
    {fs : List (Frame Derivation)} (h : s.Closes .derive e fs) :
    e.Canonical ∧ FramesCanonical fs := by
  obtain ⟨o, ho, hc⟩ := h
  obtain ⟨hcan, htight⟩ := hs.operand ho
  have hcollapse := canonical_collapse hcan hs.frames (fits_of_level? htight.1 s.frames)
  rw [hc] at hcollapse
  exact hcollapse

theorem canonical_extend {f : Option (Derivation .application)} {a : Derivation .atom}
    (hf : (Focus.awaiting f).Canonical) (ha : a.Canonical) :
    (Actions.derive.extend f a).Canonical := by
  cases f with
  | none => exact ha
  | some f => exact ⟨hf, ha⟩

theorem Transition.canonical {s s' : State Derivation} {x : Terminal}
    (h : Transition .derive s x s') (hs : s.Canonical) : s'.Canonical := by
  cases h with
  | number f fs | name f fs => exact ⟨canonical_extend hs.focus trivial, hs.frames⟩
  | openParen f fs =>
    refine ⟨trivial, ?_, hs.frames⟩
    cases f with
    | none => trivial
    | some f => exact hs.focus
  | op operand o =>
    obtain ⟨hcan, htight⟩ := hs.operand operand
    exact ⟨trivial, canonical_reduce o hcan (htight.leftOperand o) hs.frames
      (fits_of_level? htight.1 _)⟩
  | @closeParen _ _ f fs closes =>
    obtain ⟨he, hparen, hfs⟩ := hs.closes closes
    have hf : (Focus.awaiting f).Canonical := by
      cases f with
      | none => trivial
      | some f => exact hparen
    exact ⟨canonical_extend hf he, hfs⟩
  | then_ closes =>
    obtain ⟨he, -, hfs⟩ := hs.closes closes
    exact ⟨trivial, he, hfs⟩
  | else_ closes =>
    obtain ⟨he, hp, hfs⟩ := hs.closes closes
    exact ⟨trivial, ⟨hp, he⟩, hfs⟩
  | in_ closes =>
    obtain ⟨he, -, hfs⟩ := hs.closes closes
    exact ⟨trivial, he, hfs⟩
  | end_ closes =>
    obtain ⟨he, hv, hfs⟩ := hs.closes closes
    exact ⟨⟨⟨hv, he⟩, rfl, id⟩, hfs⟩
  | arrow | if_ | eq => exact ⟨trivial, trivial, hs.frames⟩
  | fn | param | let_ | val | declared => exact ⟨trivial, hs.frames⟩

theorem State.accept_derive {s s' : State Derivation} {xs : List Terminal} (hs : s.Canonical)
    (h : s.accept .derive xs = .ok s') : s'.Canonical ∧ s'.terminals = s.terminals ++ xs := by
  induction xs generalizing s with
  | nil =>
    cases h
    exact ⟨hs, (List.append_nil _).symm⟩
  | cons x xs ih =>
    rw [State.accept] at h
    cases hstep : s.step .derive x.token with
    | error refusal => simp [hstep] at h
    | ok s₁ =>
      rw [hstep] at h
      have htrans := transition_of_step hstep
      obtain ⟨hcan, hterm⟩ := ih (htrans.canonical hs) h
      refine ⟨hcan, ?_⟩
      rw [hterm, htrans.terminals, List.append_assoc]
      rfl

theorem State.canonical_initial : (State.initial : State Derivation).Canonical :=
  ⟨trivial, trivial⟩

/-! ### Canonical derivations are read back -/

namespace Derivation

/-- A reader that has read a derivation: the constructs at its right edge are still open. -/
def opened : {n : Nonterminal} → Derivation n → List (Frame Derivation) → State Derivation
  | _, .lambda x b, fs => b.opened (.body x :: fs)
  | _, .cond p y n, fs => n.opened (.no p y :: fs)
  | _, .binary op l r, fs => r.opened (.right op l :: fs)
  | _, .letIn x v b, fs => ⟨.closed (.letIn x v b), fs⟩
  | _, .application e, fs => ⟨.applied e, fs⟩
  | _, .apply f a, fs => ⟨.applied (.apply f a), fs⟩
  | _, .single a, fs => ⟨.applied (.single a), fs⟩
  | _, .number text, fs => ⟨.applied (.single (.number text)), fs⟩
  | _, .name text, fs => ⟨.applied (.single (.name text)), fs⟩
  | _, .paren e, fs => ⟨.applied (.single (.paren e)), fs⟩

/-- Completing what is open gives the derivation back. -/
theorem collapse_opened : ∀ (d : Derivation .expr) (fs : List (Frame Derivation)),
    ∃ o, (d.opened fs).focus.operand? .derive = some o ∧
      collapse .derive o (d.opened fs).frames = collapse .derive d fs
  | .lambda x b, fs => b.collapse_opened (.body x :: fs)
  | .cond p y n, fs => n.collapse_opened (.no p y :: fs)
  | .binary op l r, fs => r.collapse_opened (.right op l :: fs)
  | .letIn _ _ _, _ => ⟨_, rfl, rfl⟩
  | .application _, _ => ⟨_, rfl, rfl⟩

/-- A left operand is complete as soon as an operator of its level follows. -/
theorem reduce_opened (level : Nat) : ∀ (d : Derivation .expr) (fs : List (Frame Derivation)),
    d.Canonical → (∀ m, d.level? = some m → level ≤ m) → ¬d.EndsOpen →
    ∃ o, (d.opened fs).focus.operand? .derive = some o ∧
      reduce .derive level o (d.opened fs).frames = reduce .derive level d fs
  | .lambda _ _, _, _, _, hopen => absurd trivial hopen
  | .cond _ _ _, _, _, _, hopen => absurd trivial hopen
  | .binary op l r, fs, hd, hlevel, hopen => by
    have hle := hlevel op.level rfl
    have hr : ∀ m, r.level? = some m → level ≤ m := fun m hm =>
      Nat.le_of_lt (Nat.lt_of_le_of_lt hle (hd.2.2.2 m hm))
    obtain ⟨o, ho, hreduce⟩ := r.reduce_opened level (.right op l :: fs) hd.2.1 hr hopen
    refine ⟨o, ho, hreduce.trans ?_⟩
    rw [reduce, if_pos hle]
    rfl
  | .letIn _ _ _, _, _, _, _ => ⟨_, rfl, rfl⟩
  | .application _, _, _, _, _ => ⟨_, rfl, rfl⟩

theorem reduce_of_fits {op : Op} {l r : Derivation .expr} {fs : List (Frame Derivation)}
    (h : Fits fs (.binary op l r)) : reduce .derive op.level l fs = (l, fs) := by
  cases fs with
  | nil => rfl
  | cons frame fs =>
    cases frame with
    | right op' l' =>
      have hlt : op'.level < op.level := h op.level rfl
      rw [reduce, if_neg (Nat.not_le_of_lt hlt)]
    | _ => rfl

/-- What reading a canonical derivation comes to. -/
def ReadBack : (n : Nonterminal) → Derivation n → Prop
  | .expr, d => ∀ fs, Fits fs d →
      State.Passes .derive ⟨.start, fs⟩ d.terminals (· = d.opened fs)
  | .application, d => ∀ fs, State.Passes .derive ⟨.start, fs⟩ d.terminals (· = ⟨.applied d, fs⟩)
  | .atom, d => ∀ f fs, State.Passes .derive ⟨.awaiting f, fs⟩ d.terminals
      (· = ⟨.applied (Actions.derive.extend f d), fs⟩)

theorem closes_opened (d : Derivation .expr) {frame : Frame Derivation}
    {fs : List (Frame Derivation)} (h : frame.isOpen = false) :
    (d.opened (frame :: fs)).Closes .derive d (frame :: fs) := by
  obtain ⟨o, ho, hc⟩ := d.collapse_opened (frame :: fs)
  refine ⟨o, ho, hc.trans ?_⟩
  cases frame with
  | right | body | no => cases h
  | _ => rfl

theorem readBack_lambda {x : String} {b : Derivation .expr} (hb : b.ReadBack) :
    (lambda x b).ReadBack := by
  intro fs _
  rw [terminals, State.passes_cons (.fn fs), State.passes_cons (.param fs x),
    State.passes_cons (.arrow fs x)]
  exact hb (.body x :: fs) trivial

theorem readBack_cond {p y n : Derivation .expr} (hp : p.ReadBack) (hy : y.ReadBack)
    (hn : n.ReadBack) : (cond p y n).ReadBack := by
  intro fs _
  refine (State.passes_cons (.if_ fs)).2 ((hp (.predicate :: fs) trivial).append ?_)
  rintro s₁ rfl
  refine (State.passes_cons (.then_ (p.closes_opened rfl))).2
    ((hy (.yes p :: fs) trivial).append ?_)
  rintro s₂ rfl
  exact (State.passes_cons (.else_ (y.closes_opened rfl))).2 (hn (.no p y :: fs) trivial)

theorem readBack_letIn {x : String} {v b : Derivation .expr} (hv : v.ReadBack)
    (hb : b.ReadBack) : (letIn x v b).ReadBack := by
  intro fs _
  rw [terminals, State.passes_cons (.let_ fs), State.passes_cons (.val fs),
    State.passes_cons (.declared fs x), State.passes_cons (.eq fs x)]
  refine (hv (.value x :: fs) trivial).append ?_
  rintro s₁ rfl
  refine (State.passes_cons (.in_ (v.closes_opened rfl))).2
    ((hb (.scope x v :: fs) trivial).append ?_)
  rintro s₂ rfl
  rw [State.passes_cons (.end_ (b.closes_opened rfl)), State.passes_nil]
  rfl

theorem readBack_binary {op : Op} {l r : Derivation .expr} (h : (binary op l r).Canonical)
    (hl : l.ReadBack) (hr : r.ReadBack) : (binary op l r).ReadBack := by
  obtain ⟨hlcan, hrcan, ⟨hlevel, hopen⟩, hright⟩ := h
  intro fs hfit
  refine (hl fs (hfit.left hlevel)).append ?_
  rintro s rfl
  obtain ⟨o, ho, hreduce⟩ := l.reduce_opened op.level fs hlcan hlevel hopen
  refine (State.passes_cons (.op ho op)).2 ?_
  rw [hreduce, reduce_of_fits hfit]
  exact hr (.right op l :: fs) hright

theorem readBack_paren {e : Derivation .expr} (he : e.ReadBack) : (paren e).ReadBack := by
  intro f fs
  have hopen : (Frame.parenAfter f).isOpen = false := by cases f <;> rfl
  have hfit : Fits (.parenAfter f :: fs) e := by cases f <;> trivial
  refine (State.passes_cons (.openParen f fs)).2 ((he (.parenAfter f :: fs) hfit).append ?_)
  rintro s rfl
  rw [State.passes_cons (.closeParen (e.closes_opened hopen)), State.passes_nil]
  rfl

theorem readBack {n : Nonterminal} (d : Derivation n) (h : d.Canonical) : d.ReadBack := by
  induction d with
  | lambda x b ih => exact readBack_lambda (ih h)
  | cond p y n ihp ihy ihn => exact readBack_cond (ihp h.1) (ihy h.2.1) (ihn h.2.2)
  | letIn x v b ihv ihb => exact readBack_letIn (ihv h.1) (ihb h.2)
  | binary op l r ihl ihr => exact readBack_binary h (ihl h.1) (ihr h.2.1)
  | application e ih => exact fun fs _ => ih h fs
  | apply f a ihf iha =>
    intro fs
    refine (ihf h.1 fs).append ?_
    rintro s rfl
    exact iha h.2 (some f) fs
  | single e ih => exact ih h none
  | number text =>
    intro f fs
    exact (State.passes_number f fs text).2 fun _ => rfl
  | name text =>
    intro f fs
    rw [terminals, State.passes_cons (.name f fs text), State.passes_nil]
    rfl
  | paren e ih => exact readBack_paren (ih h)

end Derivation

/-! ### Whole texts -/

theorem readable_of_mem {ts : List Token} (h : ∀ t ∈ ts, t.Readable) {text : String}
    (hmem : .number text ∈ ts.map Token.terminal) : text.length ≤ Text.maxDigits := by
  obtain ⟨t, ht, heq⟩ := List.mem_map.1 hmem
  obtain ⟨kind, text', position⟩ := t
  cases kind <;> cases heq
  exact h _ ht rfl

theorem readTokens_eq_ok_iff {α : Nonterminal → Type} (A : Actions α) (ts : List Token)
    (e : α .expr) : readTokens A ⟨ts, none⟩ = .ok e ↔
      ∃ s, State.initial.accept A (ts.map Token.terminal) = .ok s ∧ s.Closes A e [] := by
  simp only [← State.read_eq_ok_iff, ← State.finish?_eq_some_iff, readTokens]
  cases State.initial.read A ts with
  | error err => simp
  | ok s => cases hs : s.finish? A <;> simp [hs]

theorem canonical_of_readTokens {ts : List Token} {d : Derivation .expr}
    (h : readTokens .derive ⟨ts, none⟩ = .ok d) :
    d.terminals = ts.map Token.terminal ∧ d.Canonical := by
  obtain ⟨s, haccept, hcloses⟩ := (readTokens_eq_ok_iff .derive ts d).1 h
  obtain ⟨hcan, hterm⟩ := State.accept_derive State.canonical_initial haccept
  exact ⟨hcloses.terminals.symm.trans hterm, (hcan.closes hcloses).1⟩

theorem readTokens_of_canonical {ts : List Token} (h : ∀ t ∈ ts, t.Readable)
    {d : Derivation .expr} (hterm : d.terminals = ts.map Token.terminal) (hcan : d.Canonical) :
    readTokens .derive ⟨ts, none⟩ = .ok d := by
  obtain ⟨s, haccept, rfl⟩ := (d.readBack hcan [] trivial).exists_ok
    (hterm ▸ fun text hmem => readable_of_mem h hmem)
  exact (readTokens_eq_ok_iff .derive ts d).2 ⟨_, hterm ▸ haccept, d.collapse_opened []⟩

theorem exists_readTokens_of_derivable {α : Nonterminal → Type} (A : Actions α) {ts : List Token}
    (h : ∀ t ∈ ts, t.Readable) (hts : Derivable ts) : ∃ e, readTokens A ⟨ts, none⟩ = .ok e := by
  obtain ⟨d, hd⟩ := hts
  obtain ⟨s, haccept, e, hcloses⟩ := (d.read (A := A) []).exists_ok
    (hd ▸ fun text hmem => readable_of_mem h hmem)
  exact ⟨e, (readTokens_eq_ok_iff A ts e).2 ⟨s, hd ▸ haccept, hcloses⟩⟩

/-- The reader implements the grammar with its precedences, in which equality binds most loosely,
then addition and subtraction, then multiplication and division. What is derivable has exactly one
canonical derivation, and is read as the expression that this stands for, provided that no number
has more than 4300 digits; all else is refused. -/
theorem readTokens_canonical (ts : List Token) :
    (Op.eq.level < Op.plus.level ∧ Op.plus.level = Op.minus.level ∧
      Op.minus.level < Op.star.level ∧ Op.star.level = Op.slash.level) ∧ Text.maxDigits = 4300 ∧
    (Derivable ts → (∀ t ∈ ts, t.Readable) →
      ∃ d : Derivation .expr, (d.terminals = ts.map Token.terminal ∧ d.Canonical) ∧
        (∀ d' : Derivation .expr, d'.terminals = ts.map Token.terminal → d'.Canonical → d' = d) ∧
        readTokens .build ⟨ts, none⟩ = .ok d.tree) ∧
      (¬Derivable ts → ∃ err, readTokens .build ⟨ts, none⟩ = .error err) := by
  refine ⟨by decide, rfl, ?_, ?_⟩
  · intro hts h
    obtain ⟨d, hread⟩ := exists_readTokens_of_derivable .derive h hts
    refine ⟨d, canonical_of_readTokens hread, fun d' hterm hcan => ?_, ?_⟩
    · have hread' := readTokens_of_canonical h hterm hcan
      exact Except.ok.inj (hread'.symm.trans hread)
    · rw [readTokens_map maps_tree, hread]
      rfl
  · intro hts
    rw [readTokens_map maps_tree]
    cases hread : readTokens Actions.derive ⟨ts, none⟩ with
    | error err => exact ⟨err, rfl⟩
    | ok d => exact absurd ⟨d, (canonical_of_readTokens hread).1⟩ hts

/-- `1 + 2 * fn x => x = 3`: `*` binds more tightly than `+`, and the body of `fn` goes to the end,
although `=` binds most loosely. -/
example : readTokens .build ⟨[.number "1", .op .plus, .number "2", .op .star, .keyword .fn,
      .name "x", .arrow, .name "x", .op .eq, .number "3"].map Terminal.token, none⟩ =
    .ok (.call (.call (.ident "+") (.const 1)) (.call (.call (.ident "*") (.const 2))
      (.lambda "x" (.call (.call (.ident "=") (.ident "x")) (.const 3))))) := by rfl

end Monotype.Source
