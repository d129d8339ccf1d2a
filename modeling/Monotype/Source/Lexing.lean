import Monotype.Source.Token

/-! Texts as tokens. Blanks separate tokens where needed and are skipped; where no rule applies,
lexing stops. Each token takes at least one character, so lexing ends. -/
namespace Monotype.Source

/-! ### A token is a non-empty beginning of what is left -/

theorem Kind.take?_append {k : Kind} {cs t rest : List Char}
    (h : k.pattern.take? cs = some (t, rest)) : t ++ rest = cs := by
  have key : ∀ s : String, s.toList.isPrefixOf cs = true →
      s.toList ++ cs.drop s.length = cs := by
    intro s hs
    obtain ⟨r, rfl⟩ := List.isPrefixOf_iff_prefix.1 hs
    rw [← String.length_toList, List.drop_left]
  cases k <;> simp only [Kind.pattern, Pattern.take?] at h <;> split at h <;>
    simp only [Option.some.injEq, Prod.mk.injEq, reduceCtorEq] at h <;> obtain ⟨rfl, rfl⟩ := h
  case number => exact List.takeWhile_append_dropWhile
  case name => exact List.takeWhile_append_dropWhile
  all_goals
    apply key
    simp_all

theorem Kind.take?_ne_nil {k : Kind} {cs t rest : List Char}
    (h : k.pattern.take? cs = some (t, rest)) : t ≠ [] := by
  have first : ∀ {p q : Char → Bool}, (∀ c, p c = true → q c = true) →
      cs.head?.any p = true → cs.takeWhile q ≠ [] := by
    intro p q hpq hp
    cases cs with
    | nil => simp at hp
    | cons c cs => simp [hpq c (by simpa using hp)]
  cases k <;> simp only [Kind.pattern, Pattern.take?] at h <;> split at h <;>
    simp only [Option.some.injEq, Prod.mk.injEq, reduceCtorEq] at h <;> obtain ⟨rfl, rfl⟩ := h
  case number hd => exact first (fun _ h => h) hd
  case name hn =>
    refine first (fun c hc => ?_) hn
    simp only [isNameStart, Bool.or_eq_true] at hc
    simp only [isNamePart, Char.isAlphanum, Bool.or_eq_true]
    rcases hc with hc | hc
    · exact .inl (.inl (.inl hc))
    · exact .inl (.inr hc)
  case keyword w _ => cases w <;> simp [Keyword.word]
  case op o _ => cases o <;> simp [Op.symbol]
  all_goals simp

theorem first?_eq_some {cs t rest : List Char} {k : Kind} (h : first? cs = some (k, t, rest)) :
    k.pattern.take? cs = some (t, rest) := by
  obtain ⟨k', _, hk'⟩ := List.exists_of_findSome?_eq_some h
  obtain ⟨p, hp, he⟩ := Option.map_eq_some_iff.1 hk'
  cases he
  exact hp

theorem length_lt_of_first? {cs t rest : List Char} {k : Kind}
    (h : first? cs = some (k, t, rest)) : rest.length < cs.length := by
  have h := first?_eq_some h
  have ht := List.length_pos_iff.2 (Kind.take?_ne_nil h)
  rw [← Kind.take?_append h, List.length_append]
  omega

/-! ### All tokens -/

/-- The tokens of a text, up to its end or up to a place where no rule applies. -/
structure Lexed where
  tokens : List Token
  stuck? : Option Position

/-- Lexes the rest of a text from `pos` on. A place where no rule applies is reported with its index
and line, and with the column of the last token, which is `column`. -/
def lexFrom (cs : List Char) (pos : Position) (column : Nat) : Lexed :=
  let here := pos.advance (cs.takeWhile Text.isBlank)
  match _hd : cs.dropWhile Text.isBlank with
  | [] => ⟨[], none⟩
  | c :: more =>
    match _hf : first? (c :: more) with
    | none => ⟨[], some { here with column }⟩
    | some (kind, text, rest) =>
      let lexed := lexFrom rest (here.advance text) here.column
      ⟨⟨kind, String.ofList text, here⟩ :: lexed.tokens, lexed.stuck?⟩
termination_by cs.length
decreasing_by
  have h1 := length_lt_of_first? _hf
  have h2 := (List.dropWhile_sublist (l := cs) Text.isBlank).length_le
  rw [_hd] at h2
  omega

def lex (source : String) : Lexed := lexFrom source.toList .start 1

end Monotype.Source
