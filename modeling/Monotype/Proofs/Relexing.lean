import Monotype.Proofs.Scanning
import Monotype.Proofs.Spelling

/-! Tokens stay apart. The texts of the tokens of a text, joined by single spaces, are lexed as the
same tokens, with one exception: a name that is spelled like a keyword comes back as the keyword.
There is such a name only where a digit of another script follows at once, since a keyword ends
before every other character that a name does not go on with. -/
namespace Monotype.Source

/-! ### What the rules take -/

/-- The rules before the one that decides take nothing. -/
theorem take?_before_first? {cs text rest : List Char} {k : Kind}
    (h : first? cs = some (k, text, rest)) :
    ∀ k' ∈ rules.takeWhile (· != k), k'.pattern.take? cs = none := by
  obtain ⟨before, k', behind, hrules, hk', hbefore⟩ := List.findSome?_eq_some_iff.1 h
  obtain ⟨taken, -, hkind⟩ := Option.map_eq_some_iff.1 hk'
  obtain rfl : k' = k := congrArg Prod.fst hkind
  intro j hj
  have hmem : j ∈ before := by
    rw [hrules, List.takeWhile_append] at hj
    split at hj
    · simpa using hj
    · exact (List.takeWhile_subset _) hj
  simpa using hbefore j hmem

/-- Where a name is taken that a keyword begins, a word character follows the keyword. -/
theorem any_isWord_of_first?_name {cs text rest after : List Char}
    (h : first? cs = some (.name, text, rest)) {w : Keyword} (hcs : cs = w.word.toList ++ after) :
    after.head?.any Text.isWord = true := by
  have hnone : (Kind.keyword w).pattern.take? cs = none := by
    refine take?_before_first? h (.keyword w) ?_
    cases w <;> decide
  by_contra hend
  have hsome := take?_word_eq_some_iff.2 ⟨rfl, hcs, Bool.eq_false_iff.2 hend⟩
  exact absurd (hnone.symm.trans hsome) (by simp)

theorem take?_exactly_text {s : String} {cs text rest : List Char}
    (h : (Pattern.exactly s).take? cs = some (text, rest)) : text = s.toList := by
  simp only [Pattern.take?] at h
  split at h
  · cases h
    rfl
  · cases h

theorem isDigit_of_take? {cs text rest : List Char}
    (h : Pattern.digits.take? cs = some (text, rest)) : ∀ c ∈ text, Text.isDigit c = true := by
  simp only [Pattern.take?] at h
  split at h
  · cases h
    exact List.all_eq_true.1 List.all_takeWhile
  · cases h

/-- A name is as long as it can be. -/
theorem isNamePart_of_take? {cs text rest : List Char}
    (h : Pattern.name.take? cs = some (text, rest)) :
    cs.head?.any isNameStart = true ∧ (∀ c ∈ text, isNamePart c = true) ∧
      ∀ c ∈ rest.head?, isNamePart c = false := by
  simp only [Pattern.take?] at h
  split at h
  · rename_i hstart
    cases h
    refine ⟨hstart, List.all_eq_true.1 List.all_takeWhile, fun c hc => ?_⟩
    have hhead := List.head?_dropWhile_not isNamePart cs
    rw [Option.mem_def.1 hc] at hhead
    simpa using hhead
  · cases h

/-- What is taken as a name and is not spelled like a keyword is a name: if a keyword and an
apostrophe began it, the keyword would have been taken. -/
theorem isName_of_first? {cs text rest : List Char} (h : first? cs = some (.name, text, rest))
    (hword : ∀ w : Keyword, String.ofList text ≠ w.word) : IsName (String.ofList text) := by
  have htake := first?_eq_some h
  have happend := Kind.take?_append htake
  obtain ⟨hstart, hparts, -⟩ := isNamePart_of_take? htake
  obtain ⟨c, more, rfl⟩ := List.exists_cons_of_ne_nil (Kind.take?_ne_nil htake)
  refine ⟨?_, ?_, hword, fun w hprimed => ?_⟩
  · rw [← happend] at hstart
    rw [String.toList_ofList]
    exact hstart
  · rw [String.toList_ofList, List.all_eq_true]
    exact hparts
  · rw [String.toList_ofList] at hprimed
    obtain ⟨tail, htail⟩ := hprimed
    have hcs : cs = w.word.toList ++ (Char.ofNat 39 :: (tail ++ rest)) := by
      rw [← happend, ← htail]
      simp
    cases any_isWord_of_first?_name h hcs

/-- A name that is spelled like a keyword is followed by a word character that it does not go on
with. -/
theorem exists_head_of_first?_word {cs rest : List Char} {w : Keyword}
    (h : first? cs = some (.name, w.word.toList, rest)) :
    ∃ c more, rest = c :: more ∧ Text.isWord c = true ∧ isNamePart c = false := by
  have htake := first?_eq_some h
  have hword := any_isWord_of_first?_name h (Kind.take?_append htake).symm
  cases rest with
  | nil => cases hword
  | cons c more => exact ⟨c, more, rfl, hword, (isNamePart_of_take? htake).2.2 c rfl⟩

/-! ### Terminals that stand alone -/

namespace Terminal

/-- What a terminal is lexed as when nothing follows: a name that is spelled like a keyword is the
keyword. -/
def alone : Terminal → Terminal
  | .name text =>
    match Keyword.all.find? fun k => k.word = text with
    | some k => .keyword k
    | none => .name text
  | x => x

theorem alone_word (k : Keyword) : (name k.word).alone = .keyword k := by
  cases k <;> rfl

theorem alone_name {text : String} (h : ∀ k : Keyword, text ≠ k.word) :
    (name text).alone = .name text := by
  have hnone : Keyword.all.find? (fun k => k.word = text) = none := by
    simp [List.find?_eq_none, fun k => (h k).symm]
  rw [alone, hnone]

/-- What a terminal is and how it is written. -/
def face (x : Terminal) : Kind × String := (x.token.kind, String.ofList x.spelling)

theorem spelling_alone (x : Terminal) : x.alone.spelling = x.spelling := by
  cases x with
  | name text =>
    by_cases h : ∃ k : Keyword, text = k.word
    · obtain ⟨k, rfl⟩ := h
      rw [alone_word]
      rfl
    · rw [alone_name (by simpa using h)]
  | _ => rfl

/-- Only a name that is spelled like a keyword changes. -/
theorem face_alone_eq_iff (x : Terminal) :
    x.alone.face = x.face ↔ ∀ text, x = .name text → ∀ k : Keyword, text ≠ k.word := by
  cases x with
  | name text =>
    constructor
    · rintro h _ ⟨⟩ k rfl
      rw [alone_word] at h
      cases congrArg Prod.fst h
    · intro h
      rw [alone_name (h text rfl)]
  | _ => simp [alone]

end Terminal

section Token

variable {cs text rest : List Char} {k : Kind} (h : first? cs = some (k, text, rest))
include h

theorem spelling_terminal (pos : Position) :
    (Token.terminal ⟨k, String.ofList text, pos⟩).spelling = text := by
  have htake := first?_eq_some h
  cases k with
  | arrow => exact (take?_exactly_text htake).symm
  | keyword w => exact (take?_word_eq_some_iff.1 htake).1.symm
  | openParen => exact (take?_exactly_text htake).symm
  | closeParen => exact (take?_exactly_text htake).symm
  | number => exact String.toList_ofList
  | name => exact String.toList_ofList
  | op o => exact (take?_exactly_text htake).symm

theorem spelled_alone (pos : Position) :
    (Token.terminal ⟨k, String.ofList text, pos⟩).alone.Spelled := by
  have htake := first?_eq_some h
  cases k with
  | number =>
    refine ⟨by simpa using Kind.take?_ne_nil htake, ?_⟩
    simpa using isDigit_of_take? htake
  | name =>
    by_cases hword : ∃ w : Keyword, String.ofList text = w.word
    · obtain ⟨w, hw⟩ := hword
      simp only [Token.terminal, hw, Terminal.alone_word]
      trivial
    · simp only [Token.terminal]
      rw [Terminal.alone_name (by simpa using hword)]
      exact isName_of_first? h (by simpa using hword)
  | _ => trivial

end Token

theorem Scan.terminals {pos : Position} {cs : List Char} {tokens : List Token}
    {stuck? : Option Position} (h : Scan pos cs tokens stuck?) :
    ∀ t ∈ tokens, t.terminal.spelling = t.text.toList ∧ t.terminal.alone.Spelled ∧
      t.terminal.token.kind = t.kind := by
  intro t ht
  obtain ⟨cs, text, rest, hfirst, htext⟩ := h.exists_first? ht
  have ht : t = ⟨t.kind, String.ofList text, t.position⟩ := by rw [← htext]
  rw [ht]
  refine ⟨?_, spelled_alone hfirst _, ?_⟩
  · rw [spelling_terminal hfirst, String.toList_ofList]
  · cases t.kind <;> rfl

/-! ### Joined tokens -/

theorem lexes_joined {xs : List Terminal} (h : ∀ x ∈ xs, x.Spelled) :
    Lexes ([' '].intercalate (xs.map Terminal.spelling)) xs := by
  induction xs with
  | nil => exact lexes_nil
  | cons x xs ih =>
    have hx := h x (by simp)
    have hxs := ih fun y hy => h y (by simp [hy])
    cases xs with
    | nil =>
      have hlast := lexes_nil.token hx (.inr (by simp [Breaks]))
      simpa using hlast
    | cons y ys =>
      have hspaced := hxs.spaced hx
      simpa [List.intercalate_cons_cons] using hspaced

/-- A token without its place. -/
def Token.face (t : Token) : Kind × String := (t.kind, t.text)

theorem map_face_lex (source : String) :
    (lex source).tokens.map Token.face =
      ((lex source).tokens.map Token.terminal).map Terminal.face := by
  rw [List.map_map]
  refine List.map_congr_left fun t ht => ?_
  obtain ⟨hspelling, -, hkind⟩ := (scan_lexFrom _ _ _).terminals t ht
  simp [Token.face, Terminal.face, hspelling, hkind]

/-- The texts of tokens, with single spaces between them. -/
def joined (tokens : List Token) : String := " ".intercalate (tokens.map Token.text)

theorem lex_joined (source : String) :
    (lex (joined (lex source).tokens)).stuck? = none ∧
      (lex (joined (lex source).tokens)).tokens.map Token.face =
        ((lex source).tokens.map Token.terminal).map fun x => x.alone.face := by
  have hterminals := (scan_lexFrom source.toList .start 1).terminals
  have hspelled : ∀ x ∈ ((lex source).tokens.map Token.terminal).map Terminal.alone,
      x.Spelled := by
    simp only [List.map_map, List.forall_mem_map]
    exact fun t ht => (hterminals t ht).2.1
  have hchars : (joined (lex source).tokens).toList = [' '].intercalate
      ((((lex source).tokens.map Token.terminal).map Terminal.alone).map Terminal.spelling) := by
    rw [joined, String.toList_intercalate, List.map_map, List.map_map, List.map_map]
    congr 1
    refine List.map_congr_left fun t ht => ?_
    exact ((Terminal.spelling_alone _).trans (hterminals t ht).1).symm
  have hlexes := lexes_joined hspelled
  rw [← hchars] at hlexes
  obtain ⟨htokens, hstuck⟩ := hlexes .start 1
  refine ⟨hstuck, ?_⟩
  rw [map_face_lex]
  change ((lexFrom _ _ _).tokens.map Token.terminal).map Terminal.face = _
  rw [htokens, List.map_map]
  rfl

/-- The tokens, joined by single spaces, are lexed as they are. -/
def Relexes (tokens : List Token) : Prop :=
  (lex (joined tokens)).stuck? = none ∧
    (lex (joined tokens)).tokens.map Token.face = tokens.map Token.face

theorem relexes_iff (source : String) : Relexes (lex source).tokens ↔
    ∀ t ∈ (lex source).tokens, t.kind = .name → ∀ w : Keyword, t.text ≠ w.word := by
  obtain ⟨hstuck, htokens⟩ := lex_joined source
  have hname : ∀ t : Token, (∀ text, t.terminal = .name text → ∀ w : Keyword, text ≠ w.word) ↔
      (t.kind = .name → ∀ w : Keyword, t.text ≠ w.word) := by
    intro t
    unfold Token.terminal
    cases t.kind <;> simp
  rw [Relexes, and_iff_right hstuck, htokens, map_face_lex]
  simp [Terminal.face_alone_eq_iff, hname]

/-! ### Names that are spelled like keywords -/

/-- A word character that no name goes on with lies past ASCII, and is not blank. -/
theorem foreign_of_isWord {c : Char} (hword : Text.isWord c = true) (hpart : isNamePart c = false) :
    128 ≤ c.toNat ∧ Text.isBlank c = false := by
  simp only [isNamePart, Bool.or_eq_false_iff] at hpart
  simp only [Text.isWord, hpart.1.1, hpart.1.2, Bool.false_or, Bool.and_eq_true,
    decide_eq_true_eq] at hword
  obtain ⟨hforeign, hranges⟩ := hword
  obtain ⟨r, hr, hc⟩ := List.any_eq_true.1 hranges
  have hapart : ∀ r ∈ Text.wordRanges, ∀ b ∈ Text.blankRanges, r.2 < b.1 ∨ b.2 < r.1 := by
    decide +kernel
  simp only [Bool.and_eq_true, decide_eq_true_eq] at hc
  exact ⟨hforeign, isBlank_eq_false_of_apart (hapart r hr) hc.1 hc.2⟩

/-- Past ASCII only a number can begin. -/
theorem kind_eq_number {k : Kind} {c : Char} (h : k.starts c = true) (hc : 128 ≤ c.toNat) :
    k = .number := by
  have hascii : ∀ d : Char, d.toNat < 128 → (d == c) = true → False := by
    intro d hd heq
    rw [beq_iff_eq.1 heq] at hd
    omega
  cases k with
  | arrow => exact (hascii '=' (by decide) h).elim
  | keyword w => cases w <;> exact (hascii _ (by decide) h).elim
  | openParen => exact (hascii '(' (by decide) h).elim
  | closeParen => exact (hascii ')' (by decide) h).elim
  | number => rfl
  | name =>
    have := toNat_of_isNameStart (c := c) h
    omega
  | op o => cases o <;> exact (hascii _ (by decide) h).elim

/-- A run from a character past ASCII on, if it does not get stuck, begins with a number there. -/
theorem Scan.head_number {pos : Position} {c : Char} {more : List Char} {tokens : List Token}
    (h : Scan pos (c :: more) tokens none) (hc : 128 ≤ c.toNat) (hblank : Text.isBlank c = false) :
    ∃ t rest, tokens = t :: rest ∧ t.kind = .number ∧ t.position = pos ∧
      t.text.toList.head? = some c ∧ Text.isDigit c = true := by
  generalize hcs : c :: more = cs at h
  generalize hstuck : (none : Option Position) = stuck? at h
  cases h with
  | done blank =>
    have := blank c (by simp [← hcs])
    rw [hblank] at this
    cases this
  | stuck => cases hstuck
  | @token _ gap more' text rest c' kind tokens _ blank hc' hfirst scan =>
    cases gap with
    | cons d gap =>
      obtain rfl : c = d := (List.cons.inj hcs).1
      have := blank c (by simp)
      rw [hblank] at this
      cases this
    | nil =>
      obtain ⟨rfl, rfl⟩ := List.cons.inj hcs
      have htake := first?_eq_some hfirst
      have hstarts : kind.starts c = true := by
        by_contra hno
        rw [take?_eq_none_of_starts (Bool.eq_false_iff.2 hno)] at htake
        cases htake
      obtain rfl := kind_eq_number hstarts hc
      refine ⟨_, tokens, rfl, rfl, rfl, ?_, hstarts⟩
      obtain ⟨d, text, rfl⟩ := List.exists_cons_of_ne_nil (Kind.take?_ne_nil htake)
      have happend := Kind.take?_append htake
      simpa using (List.cons.inj happend).1

/-- In a run that does not get stuck, a name that is spelled like a keyword is followed at once by a
number that begins past ASCII. -/
theorem Scan.next_of_word {pos : Position} {cs : List Char} {tokens : List Token}
    {stuck? : Option Position} (h : Scan pos cs tokens stuck?) (hstuck : stuck? = none) {i : Nat}
    {t : Token} (ht : tokens[i]? = some t) (hname : t.kind = .name) {w : Keyword}
    (hw : t.text = w.word) :
    ∃ next c, tokens[i + 1]? = some next ∧ next.kind = .number ∧ next.position.index = t.stop ∧
      next.text.toList.head? = some c ∧ Text.isDigit c = true ∧ 128 ≤ c.toNat := by
  induction h generalizing i with
  | done => simp at ht
  | stuck => cases hstuck
  | @token pos gap more text rest c kind tokens stuck? blank hc hfirst scan ih =>
    cases i with
    | succ i =>
      obtain ⟨next, c, hnext⟩ := ih hstuck (by simpa using ht)
      exact ⟨next, c, by simpa using hnext⟩
    | zero =>
      obtain rfl : _ = t := by simpa using ht
      have htext : text = w.word.toList := by simpa using congrArg String.toList hw
      obtain rfl : kind = .name := hname
      obtain ⟨d, after, rfl, hword, hpart⟩ := exists_head_of_first?_word (htext ▸ hfirst)
      obtain ⟨hforeign, hblank⟩ := foreign_of_isWord hword hpart
      rw [hstuck] at scan
      obtain ⟨next, others, rfl, hkind, hposition, hhead, hdigit⟩ :=
        scan.head_number hforeign hblank
      refine ⟨next, d, by simp, hkind, ?_, hhead, hdigit, hforeign⟩
      rw [hposition, Position.index_advance]
      simp [Token.stop]

/-- A text that is lexed to its end has tokens that stay apart, exactly when no name among them is
spelled like a keyword; and a name can be spelled so only if the next token is a number that begins
with a digit of another script, right after the name. -/
theorem lex_selfDelimiting (source : String) (h : (lex source).stuck? = none) :
    (Relexes (lex source).tokens ↔
      ∀ t ∈ (lex source).tokens, t.kind = .name → ∀ w : Keyword, t.text ≠ w.word) ∧
    ∀ (i : Nat) (t : Token) (w : Keyword), (lex source).tokens[i]? = some t → t.kind = .name →
      t.text = w.word → ∃ next c, (lex source).tokens[i + 1]? = some next ∧
        next.kind = .number ∧ next.position.index = t.stop ∧
        next.text.toList.head? = some c ∧ Text.isDigit c = true ∧ 128 ≤ c.toNat := by
  refine ⟨relexes_iff source, fun i t w ht hname hw => ?_⟩
  exact (scan_lexFrom _ _ _).next_of_word h ht hname hw

/-- A keyword with an Arabic digit after it, lexed as a name and a number. -/
theorem lex_selfDelimiting_foreignDigit :
    (lex "(let٣)").stuck? = none ∧ ¬Relexes (lex "(let٣)").tokens ∧
      ∃ next c, (lex "(let٣)").tokens[2]? = some next ∧ next.kind = .number ∧
        next.position.index = 4 ∧ next.text.toList.head? = some c ∧ Text.isDigit c = true ∧
        128 ≤ c.toNat := by
  have hstuck : (lex "(let٣)").stuck? = none := by decide +kernel
  have hname : (lex "(let٣)").tokens[1]? = some ⟨.name, "let", ⟨1, 1, 2⟩⟩ := by decide +kernel
  obtain ⟨hrelexes, hnext⟩ := lex_selfDelimiting "(let٣)" hstuck
  refine ⟨hstuck, fun h => ?_, hnext 1 ⟨.name, "let", ⟨1, 1, 2⟩⟩ .let_ hname rfl rfl⟩
  exact hrelexes.1 h ⟨.name, "let", ⟨1, 1, 2⟩⟩ (List.mem_of_getElem? hname) rfl .let_ rfl

end Monotype.Source
