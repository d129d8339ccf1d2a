import Monotype.Proofs.Grammar
import Monotype.Proofs.Numerals
import Mathlib.Data.List.Basic

/-! How terminals are spelled. A spelling is lexed as the terminal it is of, provided that what
follows cannot be taken for a part of it; so a text that joins spellings, with spaces or closing
parentheses where they are needed, is lexed as the terminals it joins. -/
namespace Monotype.Source

/-! ### Characters -/

/-- A character of a range that meets no range of blanks is not blank. -/
theorem isBlank_eq_false_of_apart {c : Char} {lo hi : Nat}
    (hapart : ∀ b ∈ Text.blankRanges, hi < b.1 ∨ b.2 < lo) (hlo : lo ≤ c.toNat)
    (hhi : c.toNat ≤ hi) : Text.isBlank c = false := by
  rw [Text.isBlank, Text.inRanges, List.any_eq_false]
  intro b hb
  have := hapart b hb
  simp only [Bool.and_eq_true, decide_eq_true_eq]
  omega

theorem isBlank_eq_false {c : Char} (hlo : 33 ≤ c.toNat) (hhi : c.toNat ≤ 122) :
    Text.isBlank c = false :=
  isBlank_eq_false_of_apart (by decide) hlo hhi

/-- No script has a digit among the blanks. -/
theorem isBlank_of_isDigit {c : Char} (h : Text.isDigit c = true) : Text.isBlank c = false := by
  obtain ⟨value, hvalue⟩ := Option.isSome_iff_exists.1 h
  obtain ⟨z, hz, hc⟩ := List.exists_of_findSome?_eq_some hvalue
  have hrange : z ≤ c.toNat ∧ c.toNat < z + 10 := by
    by_contra hnot
    rw [if_neg hnot] at hc
    cases hc
  have hapart : ∀ z ∈ Text.zeros, ∀ b ∈ Text.blankRanges, z + 9 < b.1 ∨ b.2 < z := by decide
  exact isBlank_eq_false_of_apart (hapart z hz) hrange.1 (by omega)

theorem toNat_of_isNameStart {c : Char} (h : isNameStart c) :
    58 ≤ c.toNat ∧ c.toNat ≤ 122 := by
  have hclass : isNameStart c = ((decide (65 ≤ c.val ∧ c.val ≤ 90) ||
      (decide (97 ≤ c.val) && decide (c.val ≤ 122))) || c == '_') := rfl
  simp only [hclass, Bool.or_eq_true, Bool.and_eq_true, decide_eq_true_eq, beq_iff_eq,
    UInt32.le_iff_toNat_le] at h
  change (65 ≤ c.toNat ∧ c.toNat ≤ 90 ∨ 97 ≤ c.toNat ∧ c.toNat ≤ 122) ∨ _ at h
  rcases h with h | rfl
  · omega
  · decide

/-! ### Spelling -/

/-- A letter or an underscore, followed by letters, digits, underscores and apostrophes. A keyword
is no name, and neither is what begins with a keyword and an apostrophe, since a keyword ends before
an apostrophe. -/
structure IsName (s : String) : Prop where
  start : s.toList.head?.any (fun c => c.isAlpha || c == '_') = true
  parts : s.toList.all (fun c => c.isAlphanum || c == '_' || c == Char.ofNat 39) = true
  ne_word : ∀ k : Keyword, s ≠ k.word
  not_primed : ∀ k : Keyword, ¬k.word.toList ++ [Char.ofNat 39] <+: s.toList

theorem IsName.isNamePart_of_mem {s : String} (h : IsName s) :
    ∀ c ∈ s.toList, isNamePart c = true :=
  List.all_eq_true.1 h.parts

def Keyword.all : List Keyword := [.let_, .val, .in_, .end_, .if_, .then_, .else_, .fn]

theorem Keyword.mem_all (k : Keyword) : k ∈ all := by cases k <;> decide

instance : DecidablePred IsName := fun s =>
  decidable_of_iff (s.toList.head?.any (fun c => c.isAlpha || c == '_') = true ∧
      s.toList.all (fun c => c.isAlphanum || c == '_' || c == Char.ofNat 39) = true ∧
      ∀ k ∈ Keyword.all, s ≠ k.word ∧ ¬k.word.toList ++ [Char.ofNat 39] <+: s.toList)
    ⟨fun ⟨hstart, hparts, hk⟩ => ⟨hstart, hparts, fun k => (hk k k.mem_all).1,
        fun k => (hk k k.mem_all).2⟩,
      fun h => ⟨h.start, h.parts, fun k _ => ⟨h.ne_word k, h.not_primed k⟩⟩⟩

namespace Terminal

/-- How a terminal is written. -/
def spelling : Terminal → List Char
  | .arrow => ['=', '>']
  | .keyword k => k.word.toList
  | .openParen => ['(']
  | .closeParen => [')']
  | .number text => text.toList
  | .name text => text.toList
  | .op o => o.symbol.toList

/-- A name or a number has a text such as the rules for tokens take. -/
def Spelled : Terminal → Prop
  | .number text => text ≠ "" ∧ ∀ c ∈ text.toList, Text.isDigit c
  | .name text => IsName text
  | _ => True

end Terminal

/-- What may follow any token that is written: nothing, a space, or a closing parenthesis. -/
def Breaks (rest : List Char) : Prop := ∀ c ∈ rest.head?, c = ' ' ∨ c = ')'

theorem Breaks.any {rest : List Char} (h : Breaks rest) {p : Char → Bool} (hspace : p ' ' = false)
    (hclose : p ')' = false) : rest.head?.any p = false := by
  cases rest with
  | nil => rfl
  | cons c cs =>
    rcases h c rfl with rfl | rfl
    · exact hspace
    · exact hclose

theorem Breaks.takeWhile_append {rest : List Char} (h : Breaks rest) {p : Char → Bool}
    (hspace : p ' ' = false) (hclose : p ')' = false) {cs : List Char} (hcs : ∀ c ∈ cs, p c) :
    (cs ++ rest).takeWhile p = cs ∧ (cs ++ rest).dropWhile p = rest := by
  rw [List.takeWhile_append_of_pos hcs, List.dropWhile_append_of_pos hcs]
  cases rest with
  | nil => simp
  | cons c rest =>
    have hc : p c = false := h.any hspace hclose
    simp [hc]

/-! ### One token -/

/-- Whether what a rule takes may begin with a character. -/
def Kind.starts (k : Kind) (c : Char) : Bool :=
  match k.pattern with
  | .exactly s => s.toList.head?.all (· == c)
  | .word s => s.toList.head?.all (· == c)
  | .digits => Text.isDigit c
  | .name => isNameStart c

theorem take?_eq_none_of_starts {k : Kind} {c : Char} (h : k.starts c = false) (cs : List Char) :
    k.pattern.take? (c :: cs) = none := by
  have hfixed : ∀ s : String, s.toList.head?.all (· == c) = false →
      s.toList.isPrefixOf (c :: cs) = false := by
    intro s hs
    cases hl : s.toList with
    | nil => simp [hl] at hs
    | cons d ds =>
      have hd : d ≠ c := by simpa [hl] using hs
      simp [List.isPrefixOf, hd]
  unfold Kind.starts at h
  cases hp : k.pattern <;> rw [hp] at h
  case exactly s => simp [Pattern.take?, hfixed s h]
  case word s => simp [Pattern.take?, hfixed s h]
  case digits => simp [Pattern.take?, h]
  case name => simp [Pattern.take?, h]

theorem rules_eq (k : Kind) : ∃ after, rules = rules.takeWhile (· != k) ++ k :: after := by
  cases k with
  | keyword w => cases w <;> exact ⟨_, rfl⟩
  | op o => cases o <;> exact ⟨_, rfl⟩
  | _ => exact ⟨_, rfl⟩

/-- The rule that decides is the first that takes something. -/
theorem first?_eq {k : Kind} {cs t rest : List Char} (hk : k.pattern.take? cs = some (t, rest))
    (hbefore : ∀ k' ∈ rules.takeWhile (· != k), k'.pattern.take? cs = none) :
    first? cs = some (k, t, rest) := by
  obtain ⟨after, hrules⟩ := rules_eq k
  refine List.findSome?_eq_some_iff.2 ⟨_, k, after, hrules, by simp [hk], ?_⟩
  intro k' hk'
  simp [hbefore k' hk']

theorem take?_word_eq_some_iff {s : String} {cs t rest : List Char} :
    (Pattern.word s).take? cs = some (t, rest) ↔
      t = s.toList ∧ cs = s.toList ++ rest ∧ rest.head?.any Text.isWord = false := by
  constructor
  · intro h
    simp only [Pattern.take?, ← String.length_toList] at h
    split at h <;> simp only [Option.some.injEq, Prod.mk.injEq, reduceCtorEq] at h
    rename_i hs
    obtain ⟨rfl, rfl⟩ := h
    simp only [Bool.and_eq_true, List.isPrefixOf_iff_prefix, Bool.not_eq_true'] at hs
    obtain ⟨r, rfl⟩ := hs.1
    simpa using hs.2
  · rintro ⟨rfl, rfl, h⟩
    simp [Pattern.take?, ← String.length_toList, h]

theorem Keyword.isAlpha_of_mem (k : Keyword) {c : Char} (h : c ∈ k.word.toList) :
    c.isAlpha = true := by
  have hall : k.word.toList.all Char.isAlpha = true := by cases k <;> rfl
  exact List.all_eq_true.1 hall c h

theorem eq_prime_of_isNamePart {c : Char} (h : isNamePart c = true)
    (hword : Text.isWord c = false) : c = Char.ofNat 39 := by
  simp only [Text.isWord, Bool.or_eq_false_iff] at hword
  simpa [isNamePart, hword.1.1, hword.1.2] using h

/-- A keyword does not begin a name: at the end of the keyword the name goes on, and not with an
apostrophe, so it goes on with a word character. -/
theorem take?_keyword_name (k : Keyword) {s : String} (hs : IsName s) {rest : List Char}
    (hr : Breaks rest) : (Kind.keyword k).pattern.take? (s.toList ++ rest) = none := by
  refine Option.eq_none_iff_forall_ne_some.2 fun ⟨t, after⟩ h => ?_
  obtain ⟨-, heq, hafter⟩ := take?_word_eq_some_iff.1 h
  rcases List.append_eq_append_iff.1 heq with ⟨more, hword, rfl⟩ | ⟨more, hname, rfl⟩
  · cases more with
    | nil => exact hs.ne_word k (String.toList_inj.1 (by simpa using hword.symm))
    | cons c more =>
      have hc : c.isAlpha = true := k.isAlpha_of_mem (by simp [hword])
      rcases hr c rfl with rfl | rfl <;> simp at hc
  · cases more with
    | nil => exact hs.ne_word k (String.toList_inj.1 (by simpa using hname))
    | cons c more =>
      have hc : isNamePart c = true := hs.isNamePart_of_mem c (by simp [hname])
      have hprime : c = Char.ofNat 39 := eq_prime_of_isNamePart hc hafter
      exact hs.not_primed k ⟨more, by simp [hname, hprime]⟩

/-- No keyword begins another. -/
theorem take?_keyword_word {k k' : Keyword} (h : k' ≠ k) (rest : List Char) :
    (Kind.keyword k').pattern.take? (k.word.toList ++ rest) = none := by
  refine Option.eq_none_iff_forall_ne_some.2 fun ⟨t, after⟩ htake => h ?_
  obtain ⟨-, heq, -⟩ := take?_word_eq_some_iff.1 htake
  revert heq
  cases k <;> cases k' <;> simp [Keyword.word]

theorem take?_exactly (s : String) (rest : List Char) :
    (Pattern.exactly s).take? (s.toList ++ rest) = some (s.toList, rest) := by
  simp [Pattern.take?, ← String.length_toList]

/-- An arrow does not begin what goes on after `=` with a space or a parenthesis. -/
theorem take?_arrow {rest : List Char} (hr : Breaks rest) :
    Kind.arrow.pattern.take? ('=' :: rest) = none := by
  cases rest with
  | nil => rfl
  | cons c rest => rcases hr c rfl with rfl | rfl <;> rfl

theorem starts_spelling {x : Terminal} (hx : x.Spelled) :
    ∃ c more, x.spelling = c :: more ∧ x.token.kind.starts c = true ∧ Text.isBlank c = false := by
  cases x with
  | arrow => exact ⟨_, _, rfl, rfl, rfl⟩
  | openParen => exact ⟨_, _, rfl, rfl, rfl⟩
  | closeParen => exact ⟨_, _, rfl, rfl, rfl⟩
  | keyword k => cases k <;> exact ⟨_, _, rfl, rfl, rfl⟩
  | op o => cases o <;> exact ⟨_, _, rfl, rfl, rfl⟩
  | number text =>
    obtain ⟨hne, hdigits⟩ := hx
    cases hl : text.toList with
    | nil => exact absurd (String.toList_inj.1 hl) hne
    | cons c more =>
      have hc := hdigits c (by simp [hl])
      exact ⟨c, more, hl, hc, isBlank_of_isDigit hc⟩
  | name text =>
    have hstart : text.toList.head?.any isNameStart = true := hx.start
    cases hl : text.toList with
    | nil => simp [hl] at hstart
    | cons c more =>
      have hc : isNameStart c = true := by simpa [hl] using hstart
      have hrange := toNat_of_isNameStart hc
      exact ⟨c, more, hl, hc, isBlank_eq_false (by omega) (by omega)⟩

/-- The rule of a terminal takes its spelling. -/
theorem take?_spelling {x : Terminal} (hx : x.Spelled) {rest : List Char}
    (hr : x = .openParen ∨ Breaks rest) :
    x.token.kind.pattern.take? (x.spelling ++ rest) = some (x.spelling, rest) := by
  obtain ⟨c, more, hl, hstarts, -⟩ := starts_spelling hx
  have hhead : (x.spelling ++ rest).head? = some c := by simp [hl]
  cases x with
  | arrow => exact take?_exactly "=>" rest
  | openParen => exact take?_exactly "(" rest
  | closeParen => exact take?_exactly ")" rest
  | op o => exact take?_exactly o.symbol rest
  | keyword k =>
    have hr := hr.resolve_left (by simp)
    exact take?_word_eq_some_iff.2 ⟨rfl, rfl, hr.any rfl rfl⟩
  | number text =>
    have hr := hr.resolve_left (by simp)
    obtain ⟨htake, hdrop⟩ := hr.takeWhile_append (by decide) (by decide) hx.2
    change Pattern.digits.take? (text.toList ++ rest) = _
    rw [Pattern.take?, htake, hdrop]
    refine if_pos ?_
    rw [show (text.toList ++ rest).head? = some c from hhead]
    exact hstarts
  | name text =>
    have hr := hr.resolve_left (by simp)
    obtain ⟨htake, hdrop⟩ := hr.takeWhile_append (by decide) (by decide)
      (IsName.isNamePart_of_mem hx)
    change Pattern.name.take? (text.toList ++ rest) = _
    rw [Pattern.take?, htake, hdrop]
    refine if_pos ?_
    rw [show (text.toList ++ rest).head? = some c from hhead]
    exact hstarts

/-! ### The rules before that of a terminal -/

theorem take?_before_keyword (w : Keyword) (rest : List Char) :
    ∀ k ∈ rules.takeWhile (· != .keyword w), k.pattern.take? (w.word.toList ++ rest) = none := by
  intro k hk
  cases k with
  | keyword w' =>
    have hne := List.all_eq_true.1 List.all_takeWhile _ hk
    exact take?_keyword_word (by simpa using hne) rest
  | arrow => cases w <;> exact take?_eq_none_of_starts rfl _
  | op o => exact absurd hk (by cases w <;> cases o <;> decide)
  | _ => exact absurd hk (by cases w <;> decide)

theorem take?_before_number {c : Char} (hc : Text.isDigit c = true) (cs : List Char) :
    ∀ k ∈ rules.takeWhile (· != .number), k.pattern.take? (c :: cs) = none := by
  have hne : ∀ d : Char, Text.isDigit d = false → (d == c) = false := by
    intro d hd
    apply beq_false_of_ne
    rintro rfl
    simp [hc] at hd
  intro k hk
  apply take?_eq_none_of_starts
  cases k with
  | arrow => exact hne '=' rfl
  | keyword w => cases w <;> exact hne _ rfl
  | openParen => exact hne '(' rfl
  | closeParen => exact hne ')' rfl
  | op o => exact absurd hk (by cases o <;> simp [rules])
  | _ => exact absurd hk (by simp [rules])

theorem take?_before_name {s : String} (hs : IsName s) {rest : List Char} (hr : Breaks rest) :
    ∀ k ∈ rules.takeWhile (· != .name), k.pattern.take? (s.toList ++ rest) = none := by
  obtain ⟨c, more, hl, hc, -⟩ := starts_spelling (x := .name s) hs
  have hstart : isNameStart c = true := hc
  have hother : ∀ k : Kind, k.starts c = false → k.pattern.take? (s.toList ++ rest) = none := by
    intro k hk
    rw [show s.toList = c :: more from hl]
    exact take?_eq_none_of_starts hk _
  have hne : ∀ d, isNameStart d = false → (d == c) = false := by
    intro d hd
    apply beq_false_of_ne
    rintro rfl
    simp [hstart] at hd
  intro k hk
  cases k with
  | arrow => exact hother _ (hne '=' rfl)
  | keyword w => exact take?_keyword_name w hs hr
  | openParen => exact hother _ (hne '(' rfl)
  | closeParen => exact hother _ (hne ')' rfl)
  | number =>
    have hrange := toNat_of_isNameStart hstart
    refine hother _ (Bool.eq_false_iff.2 fun hdigit => ?_)
    have := (Text.isDigit_iff_of_lt (by omega)).1 hdigit
    omega
  | name => exact absurd hk (by simp [rules])
  | op o => exact absurd hk (by cases o <;> simp [rules])

/-- Before the rule of a terminal, no rule takes anything off its spelling. -/
theorem take?_before {x : Terminal} (hx : x.Spelled) {rest : List Char}
    (hr : x = .openParen ∨ Breaks rest) :
    ∀ k ∈ rules.takeWhile (· != x.token.kind), k.pattern.take? (x.spelling ++ rest) = none := by
  cases x with
  | keyword w => exact take?_before_keyword w rest
  | number text =>
    obtain ⟨c, more, hl, -⟩ := starts_spelling hx
    rw [hl]
    exact take?_before_number (hx.2 c (by simp_all [Terminal.spelling])) _
  | name text => exact take?_before_name hx (hr.resolve_left (by simp))
  | op o =>
    intro k hk
    by_cases harrow : k = .arrow ∧ o = .eq
    · obtain ⟨rfl, rfl⟩ := harrow
      exact take?_arrow (hr.resolve_left (by simp))
    · cases o <;> exact take?_eq_none_of_starts (by revert k; decide) _
  | _ => exact fun k hk => take?_eq_none_of_starts (by revert k; decide) _

theorem first?_spelling {x : Terminal} (hx : x.Spelled) {rest : List Char}
    (hr : x = .openParen ∨ Breaks rest) :
    first? (x.spelling ++ rest) = some (x.token.kind, x.spelling, rest) :=
  first?_eq (take?_spelling hx hr) (take?_before hx hr)

/-! ### All tokens -/

/-- From anywhere on, characters are lexed as terminals, to their end. -/
def Lexes (cs : List Char) (xs : List Terminal) : Prop :=
  ∀ pos column, (lexFrom cs pos column).tokens.map Token.terminal = xs ∧
    (lexFrom cs pos column).stuck? = none

theorem lexes_nil : Lexes [] [] := by
  intro pos column
  rw [lexFrom]
  simp

theorem lexFrom_space (cs : List Char) (pos : Position) (column : Nat) :
    lexFrom (' ' :: cs) pos column = lexFrom cs (pos.next ' ') column := by
  have hblank : Text.isBlank ' ' = true := rfl
  rw [lexFrom, lexFrom]
  simp only [List.takeWhile_cons, hblank]
  rfl

theorem lexFrom_token {c : Char} (hc : Text.isBlank c = false) {cs text rest : List Char} {k : Kind}
    (hfirst : first? (c :: cs) = some (k, text, rest)) (pos : Position) (column : Nat) :
    lexFrom (c :: cs) pos column =
      ⟨⟨k, String.ofList text, pos⟩ :: (lexFrom rest (pos.advance text) pos.column).tokens,
        (lexFrom rest (pos.advance text) pos.column).stuck?⟩ := by
  have hdrop : (c :: cs).dropWhile Text.isBlank = c :: cs := by simp [hc]
  have htake : (c :: cs).takeWhile Text.isBlank = [] := by simp [hc]
  rw [lexFrom, htake]
  split
  · simp_all
  · rename_i heq
    rw [hdrop] at heq
    cases heq
    split
    · simp_all
    · rename_i heq
      rw [hfirst] at heq
      cases heq
      rfl

theorem Lexes.space {cs : List Char} {xs : List Terminal} (h : Lexes cs xs) :
    Lexes (' ' :: cs) xs := by
  intro pos column
  rw [lexFrom_space]
  exact h _ _

theorem Lexes.token {x : Terminal} (hx : x.Spelled) {rest : List Char}
    (hr : x = .openParen ∨ Breaks rest) {xs : List Terminal} (h : Lexes rest xs) :
    Lexes (x.spelling ++ rest) (x :: xs) := by
  intro pos column
  obtain ⟨c, more, hl, -, hblank⟩ := starts_spelling hx
  have hfirst := first?_spelling hx hr
  rw [hl, List.cons_append] at hfirst ⊢
  obtain ⟨htokens, hstuck⟩ := h (pos.advance (c :: more)) pos.column
  rw [lexFrom_token hblank hfirst]
  refine ⟨?_, hstuck⟩
  rw [List.map_cons, htokens, ← hl]
  cases x <;> simp [Token.terminal, Terminal.token, Terminal.spelling]

theorem breaks_space (rest : List Char) : Breaks (' ' :: rest) := by simp [Breaks]

theorem breaks_close (rest : List Char) : Breaks (')' :: rest) := by simp [Breaks]

/-- A terminal and a space after it. -/
theorem Lexes.spaced {x : Terminal} (hx : x.Spelled) {rest : List Char} {xs : List Terminal}
    (h : Lexes rest xs) : Lexes (x.spelling ++ ' ' :: rest) (x :: xs) :=
  h.space.token hx (.inr (breaks_space rest))

theorem Lexes.open {rest : List Char} {xs : List Terminal} (h : Lexes rest xs) :
    Lexes ('(' :: rest) (.openParen :: xs) :=
  h.token (x := .openParen) trivial (.inl rfl)

theorem Lexes.close {rest : List Char} (hr : Breaks rest) {xs : List Terminal} (h : Lexes rest xs) :
    Lexes (')' :: rest) (.closeParen :: xs) :=
  h.token (x := .closeParen) trivial (.inr hr)

/-! ### Numbers -/

theorem spelled_repr (n : Nat) : (Terminal.number n.repr).Spelled := by
  refine ⟨Nat.repr_ne_empty, fun c hc => ?_⟩
  rw [Nat.toList_repr] at hc
  exact Text.isDigit_of_isDigit (Nat.isDigit_of_mem_toDigits (by decide) (by decide) hc)

end Monotype.Source
