import Monotype.Source.Lexing
import Mathlib.Data.List.Induction
import Mathlib.Tactic.Common

/-! Lexing loses nothing and counts right. A run of the lexer takes blanks and tokens off the text
in turn, until nothing but blanks is left or no rule applies. So each token is the part of the text
at its place, what lies between the tokens is blank, and the place says how many characters and line
feeds came before. -/
namespace Monotype.Source

/-! ### Runs -/

/-- A run over the characters from a place on, the tokens it gives, and the place where it got
stuck, if it did. -/
inductive Scan : Position → List Char → List Token → Option Position → Prop
  | done {pos : Position} {gap : List Char} (blank : ∀ c ∈ gap, Text.isBlank c = true) :
    Scan pos gap [] none
  | stuck {pos : Position} {gap more : List Char} {c : Char} {column : Nat}
    (blank : ∀ c ∈ gap, Text.isBlank c = true) (hc : Text.isBlank c = false)
    (hnone : first? (c :: more) = none) :
    Scan pos (gap ++ c :: more) [] (some { pos.advance gap with column })
  | token {pos : Position} {gap more text rest : List Char} {c : Char} {kind : Kind}
    {tokens : List Token} {stuck? : Option Position} (blank : ∀ c ∈ gap, Text.isBlank c = true)
    (hc : Text.isBlank c = false) (hfirst : first? (c :: more) = some (kind, text, rest))
    (scan : Scan ((pos.advance gap).advance text) rest tokens stuck?) :
    Scan pos (gap ++ c :: more) (⟨kind, String.ofList text, pos.advance gap⟩ :: tokens) stuck?

/-- Taking the blanks off leaves nothing, or something that does not begin with a blank. -/
theorem takeWhile_isBlank_append {cs more : List Char} {c : Char}
    (h : cs.dropWhile Text.isBlank = c :: more) :
    cs.takeWhile Text.isBlank ++ c :: more = cs ∧ Text.isBlank c = false := by
  refine ⟨by rw [← h, List.takeWhile_append_dropWhile], ?_⟩
  have hhead := List.head?_dropWhile_not Text.isBlank cs
  simpa [h] using hhead

theorem scan_lexFrom (cs : List Char) (pos : Position) (column : Nat) :
    Scan pos cs (lexFrom cs pos column).tokens (lexFrom cs pos column).stuck? := by
  have hblank : ∀ cs : List Char, ∀ c ∈ cs.takeWhile Text.isBlank, Text.isBlank c = true :=
    fun _ => List.all_eq_true.1 List.all_takeWhile
  fun_induction lexFrom cs pos column with
  | case1 cs pos column hd =>
    rw [← List.takeWhile_append_dropWhile (p := Text.isBlank) (l := cs), hd, List.append_nil]
    exact .done (hblank cs)
  | case2 cs pos column here c more hd hf =>
    obtain ⟨hcs, hc⟩ := takeWhile_isBlank_append hd
    have hscan : Scan pos _ _ (some { here with column }) := .stuck (hblank cs) hc hf
    rwa [hcs] at hscan
  | case3 cs pos column here c more hd kind text rest hf lexed ih =>
    obtain ⟨hcs, hc⟩ := takeWhile_isBlank_append hd
    have hscan := Scan.token (hblank cs) hc hf ih
    rwa [hcs] at hscan

/-- A token is what the first rule that applies takes somewhere. -/
theorem Scan.exists_first? {pos : Position} {cs : List Char} {tokens : List Token}
    {stuck? : Option Position} (h : Scan pos cs tokens stuck?) {t : Token} (ht : t ∈ tokens) :
    ∃ cs text rest, first? cs = some (t.kind, text, rest) ∧ t.text = String.ofList text := by
  induction h with
  | done => simp at ht
  | stuck => simp at ht
  | token _ _ hfirst _ ih =>
    rcases List.mem_cons.1 ht with rfl | ht
    · exact ⟨_, _, _, hfirst, rfl⟩
    · exact ih ht

/-! ### Places -/

/-- The place after the characters: each line feed begins a line, and the column counts the
characters since the last one. -/
def Position.after (cs : List Char) : Position :=
  ⟨cs.length, 1 + cs.count '\n', 1 + (cs.reverse.takeWhile (· != '\n')).length⟩

theorem Position.advance_start (cs : List Char) : start.advance cs = after cs := by
  induction cs using List.reverseRecOn with
  | nil => rfl
  | append_singleton cs c ih =>
    have hstep : start.advance (cs ++ [c]) = (start.advance cs).next c := by
      rw [advance_append]
      rfl
    rw [hstep, ih]
    by_cases hc : c = '\n'
    · simp [next, after, hc, Nat.add_assoc]
    · simp [next, after, hc]
      omega

theorem Position.advance_after (as bs : List Char) : (after as).advance bs = after (as ++ bs) := by
  rw [← advance_start, ← advance_append, advance_start]

/-! ### Rules -/

/-- The pattern matches `text` where `rest` follows. -/
def Pattern.Matches : Pattern → (text rest : List Char) → Prop
  | .exactly s, text, _ => text = s.toList
  | .word s, text, rest => text = s.toList ∧ ∀ c ∈ rest.head?, Text.isWord c = false
  | .digits, text, _ => text ≠ [] ∧ ∀ c ∈ text, Text.isDigit c = true
  | .name, text, _ =>
    ∃ c more, text = c :: more ∧ isNameStart c = true ∧ ∀ d ∈ more, isNamePart d = true

/-- Where a pattern matches something, its rule takes something. -/
theorem Pattern.Matches.take?_ne_none {p : Pattern} {text rest : List Char}
    (h : p.Matches text rest) : p.take? (text ++ rest) ≠ none := by
  cases p with
  | exactly s =>
    obtain rfl : text = s.toList := h
    simp [take?]
  | word s =>
    obtain ⟨rfl, hrest⟩ := h
    have hword : rest.head?.any Text.isWord = false := by
      cases rest with
      | nil => rfl
      | cons c rest => exact hrest c rfl
    simp [take?, ← String.length_toList, hword]
  | digits =>
    obtain ⟨hne, hdigits⟩ := h
    obtain ⟨c, more, rfl⟩ := List.exists_cons_of_ne_nil hne
    simp [take?, hdigits c (by simp)]
  | name =>
    obtain ⟨c, more, rfl, hc, -⟩ := h
    simp [take?, hc]

theorem Kind.mem_rules (k : Kind) : k ∈ rules := by
  cases k with
  | keyword w => cases w <;> decide
  | op o => cases o <;> decide
  | _ => decide

theorem take?_eq_none_of_first? {cs : List Char} (h : first? cs = none) (k : Kind) :
    k.pattern.take? cs = none := by
  have hk := List.findSome?_eq_none_iff.1 h k k.mem_rules
  simpa using hk

/-! ### Tokens and what lies between them -/

/-- The index after the last character of a token. -/
def Token.stop (t : Token) : Nat := t.position.index + t.text.length

/-- Where lexing stopped in a text. -/
def stopIndex (s : List Char) : Option Position → Nat
  | none => s.length
  | some p => p.index

/-- The token has its text and its place in the text. -/
structure Token.In (t : Token) (s : List Char) : Prop where
  ne_empty : t.text ≠ ""
  slice : (s.drop t.position.index).take t.text.length = t.text.toList
  position : t.position = .after (s.take t.position.index)

/-- At the place there is a character that is not blank, and no pattern matches there. -/
structure StuckAt (s : List Char) (p : Position) : Prop where
  not_blank : ∃ c, s[p.index]? = some c ∧ Text.isBlank c = false
  no_match : ∀ (k : Kind) (text rest : List Char), s.drop p.index = text ++ rest →
    ¬k.pattern.Matches text rest
  line : p.line = 1 + (s.take p.index).count '\n'

def BlankAt (s : List Char) (i : Nat) : Prop := ∃ c, s[i]? = some c ∧ Text.isBlank c = true

/-- What a run from an index on gives accounts for all characters up to where it stops. -/
structure Accounts (s : List Char) (start : Nat) (tokens : List Token)
    (stuck? : Option Position) : Prop where
  /-- Each token is a part of the text, at its place. -/
  token_in : ∀ t ∈ tokens, t.In s
  start_le : ∀ t ∈ tokens, start ≤ t.position.index
  /-- Tokens follow each other and do not overlap. -/
  ordered : tokens.Pairwise fun t t' => t.stop ≤ t'.position.index
  stop_le : ∀ t ∈ tokens, t.stop ≤ stopIndex s stuck?
  start_le_stop : start ≤ stopIndex s stuck?
  /-- What lies in no token is blank. -/
  blank_between : ∀ i, start ≤ i → i < stopIndex s stuck? →
    (∀ t ∈ tokens, i < t.position.index ∨ t.stop ≤ i) → BlankAt s i
  /-- A run that gets stuck does so where nothing can be taken. -/
  stuck_at : ∀ p, stuck? = some p → StuckAt s p

section Step

variable {s : List Char} {start : Nat} {tokens : List Token} {stuck? : Option Position}

theorem accounts_nil (hstart : start ≤ stopIndex s stuck?)
    (hgap : ∀ i, start ≤ i → i < stopIndex s stuck? → BlankAt s i)
    (hstuck : ∀ p, stuck? = some p → StuckAt s p) : Accounts s start [] stuck? :=
  ⟨by simp, by simp, .nil, by simp, hstart, fun i hlo hhi _ => hgap i hlo hhi, hstuck⟩

theorem Accounts.cons {t : Token} (h : Accounts s t.stop tokens stuck?) (ht : t.In s)
    (hstart : start ≤ t.position.index)
    (hgap : ∀ i, start ≤ i → i < t.position.index → BlankAt s i) :
    Accounts s start (t :: tokens) stuck? := by
  have hstop : t.position.index ≤ t.stop := Nat.le_add_right _ _
  have hend := h.start_le_stop
  refine ⟨List.forall_mem_cons.2 ⟨ht, h.token_in⟩,
    List.forall_mem_cons.2 ⟨hstart, fun t' ht' => ?_⟩, .cons h.start_le h.ordered,
    List.forall_mem_cons.2 ⟨hend, h.stop_le⟩, by omega, fun i hlo hhi hout => ?_, h.stuck_at⟩
  · have := h.start_le t' ht'
    omega
  · obtain ⟨hfirst, hother⟩ := List.forall_mem_cons.1 hout
    rcases hfirst with hbefore | hafter
    · exact hgap i hlo hbefore
    · exact h.blank_between i hafter hhi hother

end Step

theorem blankAt_gap {before gap : List Char} (h : ∀ c ∈ gap, Text.isBlank c = true)
    (cs : List Char) {i : Nat} (hlo : before.length ≤ i) (hhi : i < (before ++ gap).length) :
    BlankAt (before ++ gap ++ cs) i := by
  rw [List.length_append] at hhi
  have hlt : i - before.length < gap.length := by omega
  refine ⟨gap[i - before.length], ?_, h _ (List.getElem_mem hlt)⟩
  rw [List.append_assoc, List.getElem?_append_right hlo, List.getElem?_append_left hlt,
    List.getElem?_eq_getElem hlt]

theorem stuckAt_after {read more : List Char} {c : Char} (hc : Text.isBlank c = false)
    (hnone : first? (c :: more) = none) (column : Nat) :
    StuckAt (read ++ c :: more) { Position.after read with column } := by
  refine ⟨⟨c, by simp [Position.after], hc⟩, fun k text rest hdrop hmatch => ?_, ?_⟩
  · have hcs : c :: more = text ++ rest := by simpa [Position.after] using hdrop
    exact hmatch.take?_ne_none (hcs ▸ take?_eq_none_of_first? hnone k)
  · simp [Position.after]

theorem token_in_after {read text : List Char} (hne : text ≠ []) (kind : Kind) (rest : List Char) :
    Token.In ⟨kind, String.ofList text, .after read⟩ (read ++ text ++ rest) := by
  refine ⟨?_, ?_, ?_⟩
  · simpa using hne
  · simp [Position.after]
  · simp [Position.after]

/-- The induction is on the run, and what has been read before it is arbitrary, so that places in
the rest are places in the whole text. -/
theorem Scan.accounts {cs : List Char} {pos : Position} {tokens : List Token}
    {stuck? : Option Position} (h : Scan pos cs tokens stuck?) (before : List Char)
    (hpos : pos = .after before) : Accounts (before ++ cs) before.length tokens stuck? := by
  induction h generalizing before with
  | @done pos gap blank =>
    refine accounts_nil (by simp [stopIndex]) (fun i hlo hhi => ?_) (by simp)
    rw [← List.append_nil (before ++ gap)]
    exact blankAt_gap blank [] hlo hhi
  | @stuck pos gap more c column blank hc hnone =>
    rw [hpos, Position.advance_after, ← List.append_assoc]
    refine accounts_nil ?_ (fun i hlo hhi => blankAt_gap blank _ hlo hhi) ?_
    · simp [stopIndex, Position.after]
    · rintro p ⟨⟩
      exact stuckAt_after hc hnone column
  | @token pos gap more text rest c kind tokens stuck? blank hc hfirst scan ih =>
    have htake := first?_eq_some hfirst
    have hrest := ih (before ++ gap ++ text)
      (by rw [hpos, Position.advance_after, Position.advance_after])
    rw [hpos, Position.advance_after, ← List.append_assoc, ← Kind.take?_append htake,
      ← List.append_assoc]
    refine Accounts.cons ?_ (token_in_after (Kind.take?_ne_nil htake) kind rest) ?_
      (fun i hlo hhi => ?_)
    · have hstop : Token.stop ⟨kind, String.ofList text, .after (before ++ gap)⟩ =
          (before ++ gap ++ text).length := by
        simp [Token.stop, Position.after, Nat.add_assoc]
      rwa [hstop]
    · simp [Position.after]
    · rw [List.append_assoc _ text]
      exact blankAt_gap blank _ hlo hhi

/-- The tokens of a text account for all its characters up to where lexing stops. -/
theorem lex_accounts (source : String) :
    Accounts source.toList 0 (lex source).tokens (lex source).stuck? :=
  (scan_lexFrom source.toList .start 1).accounts [] rfl

end Monotype.Source
