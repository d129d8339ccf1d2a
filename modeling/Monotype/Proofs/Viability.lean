import Monotype.Proofs.Precedence

/-! Where reading fails. A reader that has read some tokens can always go on to something derivable,
and it refuses only a token after which nothing can. So reading reports the first token up to which
the tokens are not viable, or the first number that is too long if that comes before; a place where
lexing stopped counts only after that, and an early end only when there is no such place. -/
namespace Monotype.Source

/-! ### A reader can go on -/

/-- An expression to go on with. -/
def filler : Derivation .expr := .application (.single (.name "x"))

/-- An open construct completed after `e`. -/
def Frame.complete (e : Derivation .expr) : Frame Derivation → Derivation .expr
  | .paren => .application (.single (.paren e))
  | .argument f => .application (.apply f (.paren e))
  | .body x => .lambda x e
  | .predicate => .cond e filler filler
  | .yes p => .cond p e filler
  | .no p y => .cond p y e
  | .value x => .letIn x e filler
  | .scope x v => .letIn x v e
  | .right op l => .binary op l e

/-- What completes an open construct. -/
def Frame.missing : Frame Derivation → List Terminal
  | .paren | .argument _ => [.closeParen]
  | .predicate => .keyword .then_ :: (filler.terminals ++ .keyword .else_ :: filler.terminals)
  | .yes _ => .keyword .else_ :: filler.terminals
  | .value _ => .keyword .in_ :: (filler.terminals ++ [.keyword .end_])
  | .scope _ _ => [.keyword .end_]
  | .body _ | .no _ _ | .right _ _ => []

theorem Frame.terminals_complete (frame : Frame Derivation) (e : Derivation .expr) :
    (frame.complete e).terminals = frame.terminals ++ e.terminals ++ frame.missing := by
  cases frame <;> simp [Frame.complete, Frame.terminals, Frame.missing, Derivation.terminals]

theorem exists_completion (fs : List (Frame Derivation)) (e : Derivation .expr) :
    ∃ (rest : List Terminal) (d : Derivation .expr),
      d.terminals = held fs ++ e.terminals ++ rest := by
  induction fs generalizing e with
  | nil => exact ⟨[], e, (List.append_nil _).symm⟩
  | cons frame fs ih =>
    obtain ⟨rest, d, hd⟩ := ih (frame.complete e)
    refine ⟨frame.missing ++ rest, d, ?_⟩
    rw [hd, Frame.terminals_complete]
    simp

/-- The expression that starts in the focus, completed. -/
def Focus.complete : Focus Derivation → Derivation .expr
  | .start => filler
  | .fn => .lambda "x" filler
  | .fnParam x => .lambda x filler
  | .letWord | .letVal => .letIn "x" filler filler
  | .letName x => .letIn x filler filler
  | .applied e => .application e
  | .closed e => e

theorem Focus.exists_missing (focus : Focus Derivation) :
    ∃ rest, focus.complete.terminals = focus.terminals ++ rest := by
  cases focus <;> simp [Focus.complete, Focus.terminals, Derivation.terminals]

theorem State.exists_completion (s : State Derivation) :
    ∃ (rest : List Terminal) (d : Derivation .expr), d.terminals = s.terminals ++ rest := by
  obtain ⟨rest₁, h₁⟩ := s.focus.exists_missing
  obtain ⟨rest₂, d, hd⟩ := Source.exists_completion s.frames s.focus.complete
  refine ⟨rest₁ ++ rest₂, d, ?_⟩
  rw [hd, h₁, State.terminals]
  simp

/-! ### Viable beginnings -/

theorem viable_iff (ts : List Token) : Viable ts ↔
    ∃ (rest : List Terminal) (d : Derivation .expr),
      d.terminals = ts.map Token.terminal ++ rest := by
  constructor
  · rintro ⟨rest, d, hd⟩
    exact ⟨rest.map Token.terminal, d, by rw [hd, List.map_append]⟩
  · rintro ⟨rest, d, hd⟩
    exact ⟨rest.map Terminal.token, d, by rw [hd, List.map_append, Terminal.map_terminal_token]⟩

theorem viable_of_accept {ts : List Token} {s : State Derivation}
    (h : State.initial.accept .derive (ts.map Token.terminal) = .ok s) : Viable ts := by
  obtain ⟨-, hterm⟩ := State.accept_derive State.canonical_initial h
  obtain ⟨rest, d, hd⟩ := s.exists_completion
  rw [hterm] at hd
  exact (viable_iff ts).2 ⟨rest, d, hd⟩

theorem not_viable_of_accept {α : Nonterminal → Type} {A : Actions α} {ts : List Token}
    (h : State.initial.accept A (ts.map Token.terminal) = .error .unexpected) : ¬Viable ts := by
  rw [viable_iff]
  rintro ⟨rest, d, hd⟩
  have hpasses := d.read (A := A) []
  rw [hd] at hpasses
  have hread := State.passes_append.1 hpasses
  unfold State.Passes at hread
  rw [show (⟨.start, []⟩ : State α) = State.initial from rfl, h] at hread
  exact hread rfl

/-! ### What one token tells -/

section Token

variable {ts : List Token} {s : State Derivation} {t : Token}
  (h : State.initial.read .derive ts = .ok s)
include h

theorem accept_snoc : State.initial.accept .derive ((ts ++ [t]).map Token.terminal) =
    s.step .derive t := by
  rw [State.read_eq_ok_iff] at h
  rw [List.map_append, State.accept_append, h, State.step_terminal]
  simp only [Except.bind, List.map_cons, List.map_nil, State.accept]
  cases s.step .derive t.terminal.token <;> rfl

/-- A token that is read goes on with something derivable, and is no long number. -/
theorem viable_of_step_ok {s' : State Derivation} (hstep : s.step .derive t = .ok s') :
    Viable (ts ++ [t]) ∧ t.Readable := by
  refine ⟨viable_of_accept ((accept_snoc h).trans hstep), fun hkind => ?_⟩
  rw [State.step_terminal, Token.terminal, hkind] at hstep
  cases transition_of_step hstep
  assumption

theorem not_viable_of_step_unexpected (hstep : s.step .derive t = .error .unexpected) :
    ¬Viable (ts ++ [t]) :=
  not_viable_of_accept ((accept_snoc h).trans hstep)

/-- A token that is refused as too long is a long number, where a number can stand. -/
theorem viable_of_step_tooLong {n : Nat} (hstep : s.step .derive t = .error (.tooLong n)) :
    Viable (ts ++ [t]) ∧ ¬t.Readable ∧ n = t.text.length := by
  rw [State.step_terminal] at hstep
  obtain ⟨f, text, hfocus, hnumber, rfl, hlt⟩ := State.step_eq_tooLong hstep
  have ht : t.kind = .number ∧ t.text = text := by
    obtain ⟨kind, text', position⟩ := t
    cases kind <;> cases hnumber
    exact ⟨rfl, rfl⟩
  refine ⟨?_, fun hread => ?_, by rw [ht.2]⟩
  · rw [State.read_eq_ok_iff] at h
    obtain ⟨-, hterm⟩ := State.accept_derive State.canonical_initial h
    obtain ⟨rest, d, hd⟩ := exists_completion s.frames
      (.application (Actions.derive.extend f (.number text)))
    refine (viable_iff _).2 ⟨rest, d, ?_⟩
    rw [hd, List.map_append, ← show s.terminals = ts.map Token.terminal from hterm,
      State.terminals, hfocus, List.map_cons, hnumber]
    simp [Derivation.terminals]
  · have := hread ht.1
    rw [ht.2] at this
    exact absurd this (Nat.not_le_of_lt hlt)

end Token

theorem exists_read_of_viable {ts : List Token} (hv : Viable ts) (hr : ∀ t ∈ ts, t.Readable) :
    ∃ s, State.initial.read .derive ts = .ok s := by
  simp only [State.read_eq_ok_iff]
  cases h : State.initial.accept .derive (ts.map Token.terminal) with
  | ok s => exact ⟨s, rfl⟩
  | error refusal =>
    cases refusal with
    | unexpected => exact absurd hv (not_viable_of_accept h)
    | tooLong n =>
      obtain ⟨text, hmem, hlt⟩ := State.accept_eq_tooLong h
      exact absurd (readable_of_mem hr hmem) (Nat.not_le_of_lt hlt)

/-! ### The first that is wrong -/

/-- Reading cannot go on with the token at place `i`: nothing derivable begins with the tokens up to
it, or it is a number that is too long. -/
def Bad (ts : List Token) (i : Nat) : Prop :=
  ∃ t, ts[i]? = some t ∧ (¬Viable (ts.take (i + 1)) ∨ ¬t.Readable)

theorem viable_and_readable_of_not_bad {ts : List Token} {i : Nat} (hi : i < ts.length)
    (h : ¬Bad ts i) : Viable (ts.take (i + 1)) ∧ ts[i].Readable := by
  have hget := List.getElem?_eq_getElem hi
  exact ⟨Classical.byContradiction fun hv => h ⟨_, hget, .inl hv⟩,
    Classical.byContradiction fun hr => h ⟨_, hget, .inr hr⟩⟩

theorem viable_take {ts : List Token} {i : Nat} (hi : i ≤ ts.length) (h : ∀ j < i, ¬Bad ts j) :
    Viable (ts.take i) ∧ ∀ t ∈ ts.take i, t.Readable := by
  constructor
  · cases i with
    | zero => exact (viable_iff _).2 ⟨_, filler, (List.nil_append _).symm⟩
    | succ j => exact (viable_and_readable_of_not_bad hi (h j (Nat.lt_succ_self j))).1
  · intro t ht
    obtain ⟨j, hj, rfl⟩ := List.mem_take_iff_getElem.1 ht
    exact (viable_and_readable_of_not_bad (by omega) (h j (by omega))).2

theorem read_first_bad {ts : List Token} {i : Nat} {t : Token} (ht : ts[i]? = some t)
    (h : ∀ j < i, ¬Bad ts j) :
    (¬Viable (ts.take (i + 1)) →
      State.initial.read .derive ts = .error (.badToken t.position)) ∧
    (Viable (ts.take (i + 1)) → ¬t.Readable →
      State.initial.read .derive ts = .error (.numberTooLong t.text.length)) := by
  obtain ⟨hi, hget⟩ := List.getElem?_eq_some_iff.1 ht
  obtain ⟨hviable, hreadable⟩ := viable_take (Nat.le_of_lt hi) h
  obtain ⟨s, hs⟩ := exists_read_of_viable hviable hreadable
  have htake : ts.take (i + 1) = ts.take i ++ [t] := by
    rw [List.take_add_one, ht]
    rfl
  have hread (r : Refusal) (hstep : s.step .derive t = .error r) :
      State.initial.read .derive ts = .error (r.readError t.position) := by
    rw [← List.take_append_drop i ts, List.drop_eq_getElem_cons hi, hget, State.read_append, hs]
    simp only [Except.bind, State.read, hstep]
  rw [htake]
  cases hstep : s.step .derive t with
  | ok s' =>
    obtain ⟨hv, hr⟩ := viable_of_step_ok hs hstep
    exact ⟨fun hnv => absurd hv hnv, fun _ hnr => absurd hr hnr⟩
  | error refusal =>
    cases refusal with
    | unexpected =>
      have hnv := not_viable_of_step_unexpected hs hstep
      exact ⟨fun _ => hread _ hstep, fun hv _ => absurd hv hnv⟩
    | tooLong n =>
      obtain ⟨hv, -, rfl⟩ := viable_of_step_tooLong hs hstep
      exact ⟨fun hnv => absurd hv hnv, fun _ _ => hread _ hstep⟩

/-- Reading reports the first that is wrong. At the first token that is bad, nothing derivable
begins with what was read up to it, or it is too long a number; when no token is bad, lexing has
stopped, or the text is read or is unfinished as its tokens are derivable or not. -/
theorem parse_first_bad (source : String) :
    (∀ i t, (lex source).tokens[i]? = some t → Bad (lex source).tokens i →
      (∀ j < i, ¬Bad (lex source).tokens j) →
      (¬Viable ((lex source).tokens.take (i + 1)) →
        parse source = .error (.badToken t.position)) ∧
      (Viable ((lex source).tokens.take (i + 1)) →
        parse source = .error (.numberTooLong t.text.length))) ∧
    ((∀ i, ¬Bad (lex source).tokens i) →
      (∀ position, (lex source).stuck? = some position →
        parse source = .error (.badCharacter position)) ∧
      ((lex source).stuck? = none →
        ((∃ e, parse source = .ok e) ↔ Derivable (lex source).tokens) ∧
        (¬Derivable (lex source).tokens → parse source = .error .unfinished))) := by
  unfold parse
  obtain ⟨ts, stuck?⟩ := lex source
  rw [readTokens_map maps_tree]
  constructor
  · rintro i t ht ⟨t', ht', hbad⟩ hbefore
    obtain ⟨hunexpected, hlong⟩ := read_first_bad ht hbefore
    obtain rfl : t = t' := Option.some.inj (ht.symm.trans ht')
    constructor
    · intro hnv
      simp [readTokens, hunexpected hnv, Except.map]
    · intro hv
      have hnr : ¬t.Readable := hbad.resolve_left fun hnv => hnv hv
      simp [readTokens, hlong hv hnr, Except.map]
  · intro hgood
    have hall := viable_take (Nat.le_refl ts.length) fun j _ => hgood j
    rw [List.take_length] at hall
    obtain ⟨s, hs⟩ := exists_read_of_viable hall.1 hall.2
    constructor
    · rintro position rfl
      simp [readTokens, hs, Except.map]
    · rintro rfl
      have hderived : (∃ d, readTokens .derive ⟨ts, none⟩ = .ok d) ↔ Derivable ts := by
        refine ⟨?_, exists_readTokens_of_derivable .derive hall.2⟩
        rintro ⟨d, hd⟩
        exact ⟨d, (canonical_of_readTokens hd).1⟩
      cases hfinish : s.finish? .derive with
      | some d =>
        have hread : readTokens Actions.derive ⟨ts, none⟩ = .ok d := by
          simp [readTokens, hs, hfinish]
        have hts := hderived.1 ⟨d, hread⟩
        rw [hread]
        exact ⟨iff_of_true ⟨d.tree, rfl⟩ hts, fun hnot => absurd hts hnot⟩
      | none =>
        have hread : readTokens Actions.derive ⟨ts, none⟩ = .error .unfinished := by
          simp [readTokens, hs, hfinish]
        have hts : ¬Derivable ts := by
          rw [← hderived, hread]
          simp
        rw [hread]
        exact ⟨iff_of_false (by simp [Except.map]) hts, fun _ => rfl⟩

end Monotype.Source
