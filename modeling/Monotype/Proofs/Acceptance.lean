import Monotype.Proofs.Transitions

/-! The reader accepts whatever the grammar derives. Reading a derivation leaves a reader where it
stood, but for constructs that may end there: these stay open, since more may follow. So a reader
never refuses a token that goes on with something derivable, however the ambiguities of the grammar
are resolved. The only other way to stop is a number that is too long. -/
namespace Monotype.Source

variable {α : Nonterminal → Type} (A : Actions α)

/-! ### Reading terminals -/

/-- Reads terminals in turn. -/
def State.accept (s : State α) : List Terminal → Except Refusal (State α)
  | [] => .ok s
  | x :: xs =>
    match s.step A x.token with
    | .ok s => s.accept xs
    | .error refusal => .error refusal

theorem State.accept_append (s : State α) (xs ys : List Terminal) :
    s.accept A (xs ++ ys) = (s.accept A xs).bind fun s => s.accept A ys := by
  induction xs generalizing s with
  | nil => rfl
  | cons x xs ih =>
    simp only [List.cons_append, State.accept]
    cases s.step A x.token with
    | ok s' => exact ih s'
    | error refusal => rfl

/-- Reading tokens is reading their terminals. -/
theorem State.read_eq_ok_iff (s s' : State α) (ts : List Token) :
    s.read A ts = .ok s' ↔ s.accept A (ts.map Token.terminal) = .ok s' := by
  induction ts generalizing s with
  | nil => simp [State.read, State.accept]
  | cons t ts ih =>
    simp only [State.read, List.map_cons, State.accept, ← s.step_terminal A t]
    cases s.step A t with
    | ok s₁ => exact ih s₁
    | error refusal => simp

/-- Reading gets past the terminals to a state as described, unless a number is too long. -/
def State.Passes (s : State α) (xs : List Terminal) (P : State α → Prop) : Prop :=
  match s.accept A xs with
  | .ok s' => P s'
  | .error refusal => refusal ≠ .unexpected

namespace State

variable {A} {s s' : State α} {x : Terminal} {xs ys : List Terminal} {P Q : State α → Prop}

theorem passes_nil : s.Passes A [] P ↔ P s := Iff.rfl

theorem passes_append :
    s.Passes A (xs ++ ys) P ↔ s.Passes A xs fun s' => s'.Passes A ys P := by
  unfold Passes
  rw [accept_append]
  cases s.accept A xs <;> rfl

theorem passes_cons (h : Transition A s x s') : s.Passes A (x :: xs) P ↔ s'.Passes A xs P := by
  simp only [Passes, accept, h.step]

theorem passes_number (f : Option (α .application)) (fs : List (Frame α)) (text : String) :
    (⟨.awaiting f, fs⟩ : State α).Passes A [.number text] P ↔
      (text.length ≤ Text.maxDigits → P ⟨.applied (A.extend f (A.number text)), fs⟩) := by
  by_cases h : text.length ≤ Text.maxDigits
  · rw [passes_cons (.number f fs h), passes_nil]
    exact (imp_iff_right h).symm
  · have hstep : (⟨.awaiting f, fs⟩ : State α).step A (Terminal.number text).token =
        .error (.tooLong text.length) := by
      rw [step_number, readNumber, if_pos (Nat.lt_of_not_le h)]
      rfl
    simp [Passes, accept, hstep, h]

theorem Passes.mono (h : s.Passes A xs P) (hPQ : ∀ s, P s → Q s) : s.Passes A xs Q := by
  unfold Passes at h ⊢
  split at h
  · exact hPQ _ h
  · exact h

theorem Passes.append (h : s.Passes A xs P) (hP : ∀ s, P s → s.Passes A ys Q) :
    s.Passes A (xs ++ ys) Q :=
  passes_append.2 (h.mono hP)

theorem accept_eq_tooLong {n : Nat} (h : s.accept A xs = .error (.tooLong n)) :
    ∃ text, .number text ∈ xs ∧ Text.maxDigits < text.length := by
  induction xs generalizing s with
  | nil => cases h
  | cons x xs ih =>
    rw [accept] at h
    cases hstep : s.step A x.token with
    | ok s₁ =>
      rw [hstep] at h
      obtain ⟨text, hmem, hlt⟩ := ih h
      exact ⟨text, List.mem_cons_of_mem _ hmem, hlt⟩
    | error refusal =>
      rw [hstep] at h
      cases h
      obtain ⟨f, text, -, rfl, rfl, hlt⟩ := step_eq_tooLong hstep
      exact ⟨text, List.mem_cons_self, hlt⟩

theorem Passes.exists_ok (h : s.Passes A xs P)
    (hshort : ∀ text, .number text ∈ xs → text.length ≤ Text.maxDigits) :
    ∃ s', s.accept A xs = .ok s' ∧ P s' := by
  unfold Passes at h
  split at h
  · exact ⟨_, ‹_›, h⟩
  · rename_i refusal hrefused
    cases refusal with
    | unexpected => exact absurd rfl h
    | tooLong n =>
      obtain ⟨text, hmem, hlt⟩ := accept_eq_tooLong hrefused
      exact absurd (hshort text hmem) (Nat.not_le_of_lt hlt)

end State

/-! ### Constructs that stay open -/

/-- Constructs that may end with the expression that is being read. -/
def Frame.isOpen : Frame α → Bool
  | .right _ _ | .body _ | .no _ _ => true
  | _ => false

theorem collapse_frames (e : α .expr) (fs : List (Frame α)) :
    (collapse A e fs).2 = fs.dropWhile Frame.isOpen := by
  induction fs generalizing e with
  | nil => rfl
  | cons frame fs ih =>
    cases frame with
    | right op left => exact ih _
    | body x => exact ih _
    | no p y => exact ih _
    | _ => rfl

theorem dropWhile_reduce (level : Nat) (e : α .expr) (fs : List (Frame α)) :
    (reduce A level e fs).2.dropWhile Frame.isOpen = fs.dropWhile Frame.isOpen := by
  fun_induction reduce A level e fs with
  | case1 e op left rest h ih => exact ih
  | case2 e op left rest h => rfl
  | case3 e fs h => rfl

/-! ### Whatever is derived passes -/

/-- What reading a derivation comes to. An application leaves the frames alone; an expression leaves
them alone but for those that may end with it. -/
def Derivation.Read : (n : Nonterminal) → Derivation n → Prop
  | .expr, d => ∀ fs : List (Frame α), State.Passes A ⟨.start, fs⟩ d.terminals fun s =>
      ∃ e, s.Closes A e (fs.dropWhile Frame.isOpen)
  | .application, d => ∀ fs : List (Frame α), State.Passes A ⟨.start, fs⟩ d.terminals fun s =>
      ∃ e, s = ⟨.applied e, fs⟩
  | .atom, d => ∀ (f : Option (α .application)) (fs : List (Frame α)),
      State.Passes A ⟨.awaiting f, fs⟩ d.terminals fun s => ∃ e, s = ⟨.applied e, fs⟩

namespace Derivation

variable {A}

theorem read_lambda {x : String} {b : Derivation .expr} (hb : b.Read A) :
    (lambda x b).Read A := by
  intro fs
  rw [terminals, State.passes_cons (.fn fs), State.passes_cons (.param fs x),
    State.passes_cons (.arrow fs x)]
  exact hb (.body x :: fs)

theorem read_cond {p y n : Derivation .expr} (hp : p.Read A) (hy : y.Read A) (hn : n.Read A) :
    (cond p y n).Read A := by
  intro fs
  refine (State.passes_cons (.if_ fs)).2 ((hp (.predicate :: fs)).append ?_)
  rintro s₁ ⟨e₁, h₁⟩
  refine (State.passes_cons (.then_ h₁)).2 ((hy (.yes e₁ :: fs)).append ?_)
  rintro s₂ ⟨e₂, h₂⟩
  exact (State.passes_cons (.else_ h₂)).2 (hn (.no e₁ e₂ :: fs))

theorem read_letIn {x : String} {v b : Derivation .expr} (hv : v.Read A) (hb : b.Read A) :
    (letIn x v b).Read A := by
  intro fs
  rw [terminals, State.passes_cons (.let_ fs), State.passes_cons (.val fs),
    State.passes_cons (.declared fs x), State.passes_cons (.eq fs x)]
  refine (hv (.value x :: fs)).append ?_
  rintro s₁ ⟨e₁, h₁⟩
  refine (State.passes_cons (.in_ h₁)).2 ((hb (.scope x e₁ :: fs)).append ?_)
  rintro s₂ ⟨e₂, h₂⟩
  rw [State.passes_cons (.end_ h₂), State.passes_nil]
  exact ⟨_, _, rfl, Prod.ext rfl (collapse_frames A _ fs)⟩

theorem read_binary {op : Op} {l r : Derivation .expr} (hl : l.Read A) (hr : r.Read A) :
    (binary op l r).Read A := by
  intro fs
  refine (hl fs).append ?_
  rintro s ⟨e, o, ho, hc⟩
  refine (State.passes_cons (.op ho op)).2 ((hr _).mono ?_)
  -- Completing operations does not change which frames stay open whatever follows.
  have hbase : (reduce A op.level o s.frames).2.dropWhile Frame.isOpen =
      fs.dropWhile Frame.isOpen := by
    rw [dropWhile_reduce, ← collapse_frames A o, hc]
  rintro s' ⟨e', h'⟩
  exact ⟨e', hbase ▸ h'⟩

theorem read_application {a : Derivation .application} (ha : a.Read A) :
    (application a).Read A := by
  intro fs
  refine (ha fs).mono ?_
  rintro s ⟨e, rfl⟩
  exact ⟨_, _, rfl, Prod.ext rfl (collapse_frames A _ fs)⟩

theorem read_paren {e : Derivation .expr} (he : e.Read A) : (paren e).Read A := by
  intro f fs
  refine (State.passes_cons (.openParen f fs)).2 ((he (.parenAfter f :: fs)).append ?_)
  rintro s ⟨e', h⟩
  have hopen : (Frame.parenAfter f :: fs).dropWhile Frame.isOpen = .parenAfter f :: fs := by
    cases f <;> rfl
  rw [hopen] at h
  rw [State.passes_cons (.closeParen h), State.passes_nil]
  exact ⟨_, rfl⟩

theorem read {n : Nonterminal} (d : Derivation n) : d.Read A := by
  induction d with
  | lambda x b ih => exact read_lambda ih
  | cond p y n ihp ihy ihn => exact read_cond ihp ihy ihn
  | letIn x v b ihv ihb => exact read_letIn ihv ihb
  | binary op l r ihl ihr => exact read_binary ihl ihr
  | application e ih => exact read_application ih
  | apply f a ihf iha =>
    intro fs
    refine (ihf fs).append ?_
    rintro s ⟨e, rfl⟩
    exact iha (some e) fs
  | single e ih => exact ih none
  | number text =>
    intro f fs
    exact (State.passes_number f fs text).2 fun _ => ⟨_, rfl⟩
  | name text =>
    intro f fs
    rw [terminals, State.passes_cons (.name f fs text), State.passes_nil]
    exact ⟨_, rfl⟩
  | paren e ih => exact read_paren ih

end Derivation

end Monotype.Source
