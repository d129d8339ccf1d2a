import Monotype.Proofs.Numerals
import Monotype.Proofs.Variants
import Mathlib.Data.List.Forall2
import Mathlib.Data.Set.Finite.List
import Mathlib.Logic.Equiv.Fintype

/-! Texts of types can be read in one way only. Two types that are written alike, each under a
naming of its variables, have the same form, and variables at the same places have the same names;
so under any reading of the names the two types have the same instance. The plain text therefore
determines the type, and the readable text determines it up to a renaming of variables. -/
namespace Monotype.Ty

/-! ### Words and what divides them -/

def isDivider (c : Char) : Bool := c == '(' || c == ')' || c == ',' || c == ' '

/-- A text that can name a variable: a word that is not the name of a type. -/
structure IsLabel (s : String) : Prop where
  ne_empty : s ≠ ""
  undivided : ∀ c ∈ s.toList, isDivider c = false
  ne_int : s ≠ "int"
  ne_bool : s ≠ "bool"

theorem isLabel_of_toList {s : String} {c : Char} {cs : List Char} (h : s.toList = c :: cs)
    (hc : isDivider c = false) (hcs : ∀ d ∈ cs, isDivider d = false) (hi : c ≠ 'i') (hb : c ≠ 'b') :
    IsLabel s := by
  constructor
  · rintro rfl
    cases h
  · rw [h]
    exact List.forall_mem_cons.2 ⟨hc, hcs⟩
  · rintro rfl
    cases h
    exact hi rfl
  · rintro rfl
    cases h
    exact hb rfl

/-- What may follow a type in a text: nothing, or something that begins with a divider. -/
def Divided (rest : List Char) : Prop := ∀ c ∈ rest.head?, isDivider c = true

theorem divided_nil : Divided [] := by simp [Divided]

theorem divided_cons {c : Char} (h : isDivider c = true) (rest : List Char) :
    Divided (c :: rest) := by
  simp [Divided, h]

theorem Divided.takeWhile_append {rest : List Char} (h : Divided rest) {w : List Char}
    (hw : ∀ c ∈ w, isDivider c = false) : (w ++ rest).takeWhile (fun c => !isDivider c) = w := by
  rw [List.takeWhile_append_of_pos fun c hc => by simp [hw c hc]]
  cases rest with
  | nil => simp
  | cons c rest => simp [h c rfl]

/-- A word ends where a divider begins. -/
theorem word_append_inj {w w' r r' : List Char} (hw : ∀ c ∈ w, isDivider c = false)
    (hw' : ∀ c ∈ w', isDivider c = false) (hr : Divided r) (hr' : Divided r')
    (h : w ++ r = w' ++ r') : w = w' ∧ r = r' := by
  have hword : w = w' := by
    rw [← hr.takeWhile_append hw, h, hr'.takeWhile_append hw']
  exact ⟨hword, List.append_cancel_left (hword ▸ h)⟩

/-! ### Sequences -/

/-- What stands between the arguments of a type. -/
inductive Separator where
  | arrow
  | comma

def Separator.chars : Separator → List Char
  | .arrow => [' ', '→', ' ']
  | .comma => [',', ' ']

theorem Separator.divided (d : Separator) (rest : List Char) : Divided (d.chars ++ rest) := by
  cases d <;> exact divided_cons rfl _

theorem Separator.append_inj {d d' : Separator} {r r' : List Char}
    (h : d.chars ++ r = d'.chars ++ r') : d = d' ∧ r = r' := by
  cases d <;> cases d' <;> simp_all [chars]

theorem Separator.append_ne_close (d : Separator) (r r' : List Char) :
    d.chars ++ r ≠ ')' :: r' := by
  cases d <;> simp [chars]

theorem intercalate_cons (d x : List Char) (xs : List (List Char)) :
    d.intercalate (x :: xs) = x ++ xs.flatMap (d ++ ·) := by
  induction xs generalizing x with
  | nil => simp
  | cons y ys ih => simp only [List.intercalate_cons_cons, ih, List.flatMap_cons, List.append_assoc]

section Sequence

variable {p q : Ty → List Char} {R : Ty → Ty → Prop} {d d' : Separator} {r r' : List Char}

theorem divided_separated (d : Separator) (p : Ty → List Char) (xs : List Ty) (r : List Char) :
    Divided ((xs.flatMap fun x => d.chars ++ p x) ++ ')' :: r) := by
  cases xs with
  | nil => exact divided_cons rfl r
  | cons x xs => simpa using d.divided _

/-- Where each item is read in one way only, so are items that each follow a separator, up to the
closing parenthesis. -/
theorem forall₂_of_separated {xs ys : List Ty}
    (hitem : ∀ x ∈ xs, ∀ y r r', Divided r → Divided r' → p x ++ r = q y ++ r' → R x y ∧ r = r')
    (h : (xs.flatMap fun x => d.chars ++ p x) ++ ')' :: r =
      (ys.flatMap fun y => d'.chars ++ q y) ++ ')' :: r') :
    List.Forall₂ R xs ys ∧ r = r' ∧ (xs ≠ [] → d = d') := by
  induction xs generalizing ys with
  | nil =>
    cases ys with
    | nil => simpa using h
    | cons y ys => exact absurd h.symm (by simpa using d'.append_ne_close _ _)
  | cons x xs ih =>
    cases ys with
    | nil => exact absurd h (by simpa using d.append_ne_close _ _)
    | cons y ys =>
      simp only [List.flatMap_cons, List.append_assoc] at h
      obtain ⟨rfl, h⟩ := Separator.append_inj h
      obtain ⟨hxy, h⟩ := hitem x (by simp) y _ _ (divided_separated d p xs r)
        (divided_separated d q ys r') h
      obtain ⟨hrest, hr, -⟩ := ih (fun x' hx' => hitem x' (by simp [hx'])) h
      exact ⟨.cons hxy hrest, hr, fun _ => rfl⟩

/-- The same of items between parentheses. An item must not begin with the closing one. -/
theorem forall₂_of_intercalate {xs ys : List Ty}
    (hitem : ∀ x ∈ xs, ∀ y r r', Divided r → Divided r' → p x ++ r = q y ++ r' → R x y ∧ r = r')
    (hp : ∀ x r r', p x ++ r ≠ ')' :: r') (hq : ∀ y r r', q y ++ r ≠ ')' :: r')
    (h : d.chars.intercalate (xs.map p) ++ ')' :: r =
      d'.chars.intercalate (ys.map q) ++ ')' :: r') :
    List.Forall₂ R xs ys ∧ r = r' ∧ (1 < xs.length → d = d') := by
  cases xs with
  | nil =>
    cases ys with
    | nil => simpa using h
    | cons y ys =>
      rw [List.map_cons, intercalate_cons, List.append_assoc] at h
      exact absurd h.symm (hq y _ _)
  | cons x xs =>
    cases ys with
    | nil =>
      rw [List.map_cons, intercalate_cons, List.append_assoc] at h
      exact absurd h (hp x _ _)
    | cons y ys =>
      simp only [List.map_cons, intercalate_cons, List.append_assoc, List.flatMap_map] at h
      obtain ⟨hxy, h⟩ := hitem x (by simp) y _ _ (divided_separated d p xs r)
        (divided_separated d' q ys r') h
      obtain ⟨hrest, hr, hd⟩ := forall₂_of_separated (fun x' hx' => hitem x' (by simp [hx'])) h
      refine ⟨.cons hxy hrest, hr, fun hlen => hd ?_⟩
      rintro rfl
      simp at hlen

end Sequence

/-! ### Rendered types -/

/-- Whether a type is written between parentheses. -/
def isCompound : Ty → Bool
  | .fn _ _ | .tuple _ => true
  | _ => false

def separator : Ty → Separator
  | .fn _ _ => .arrow
  | _ => .comma

theorem toList_render_compound {t : Ty} (h : t.isCompound = true) (f : Int → String) :
    (t.render f).toList = '(' :: (t.separator.chars.intercalate
      (t.args.map fun x => (x.render f).toList) ++ [')']) := by
  cases t with
  | fn a b => simp [render, args, separator, Separator.chars, List.intercalate_cons_cons]
  | tuple ts =>
    simp [render, args, separator, Separator.chars, String.toList_intercalate, renderAll_eq,
      Function.comp_def]
  | _ => cases h

/-- Parentheses and separators tell the constructors apart: a function type has two arguments. -/
theorem subst_eq_of_args_alike {a b : Ty} {s s' : Int → Ty} (ha : a.isCompound = true)
    (hb : b.isCompound = true)
    (hargs : List.Forall₂ (fun x y => x.subst s = y.subst s') a.args b.args)
    (hsep : 1 < a.args.length → a.separator = b.separator) : a.subst s = b.subst s' := by
  have hlen := hargs.length_eq
  have hmap : a.args.map (subst s) = b.args.map (subst s') := by
    rw [← List.forall₂_eq_eq_eq]
    simpa using hargs
  cases a with
  | fn x y =>
    cases b with
    | fn x' y' => simpa [subst, args] using hmap
    | tuple ts => cases hsep (by simp [args])
    | _ => cases hb
  | tuple ts =>
    cases b with
    | fn x y => cases hsep (by rw [hlen]; simp [args])
    | tuple ts' => simpa [subst, substAll_eq, args] using hmap
    | _ => cases hb
  | _ => cases ha

section Render

variable {f g : Int → String} (hf : ∀ v, IsLabel (f v)) (hg : ∀ v, IsLabel (g v))
include hf

theorem undivided_render {t : Ty} (h : t.isCompound = false) :
    (t.render f).toList ≠ [] ∧ ∀ c ∈ (t.render f).toList, isDivider c = false := by
  cases t with
  | var v => exact ⟨by simpa [render] using (hf v).ne_empty, (hf v).undivided⟩
  | int => simp [render, isDivider]
  | bool => simp [render, isDivider]
  | _ => cases h

theorem render_append_ne_divider {t : Ty} (h : t.isCompound = false) {c : Char}
    (hc : isDivider c = true) (r r' : List Char) : (t.render f).toList ++ r ≠ c :: r' := by
  obtain ⟨hne, hundivided⟩ := undivided_render hf h
  obtain ⟨d, ds, hds⟩ := List.exists_cons_of_ne_nil hne
  have hd := hundivided d (by simp [hds])
  rw [hds, List.cons_append]
  rintro ⟨⟩
  rw [hc] at hd
  cases hd

theorem render_append_ne_close (t : Ty) (r r' : List Char) :
    (t.render f).toList ++ r ≠ ')' :: r' := by
  cases ht : t.isCompound with
  | true => simp [toList_render_compound ht]
  | false => exact render_append_ne_divider hf ht rfl r r'

include hg

theorem subst_eq_of_word_eq (κ : String → Ty) {a b : Ty} (ha : a.isCompound = false)
    (hb : b.isCompound = false) (h : a.render f = b.render g) :
    (a.subst fun v => κ (f v)) = (b.subst fun v => κ (g v)) := by
  cases a <;> cases b <;> simp only [render, isCompound, reduceCtorEq] at h ha hb <;>
    simp only [subst]
  case var.var v w => rw [h]
  case var.int v => exact absurd h (hf v).ne_int
  case var.bool v => exact absurd h (hf v).ne_bool
  case int.var w => exact absurd h.symm (hg w).ne_int
  case bool.var w => exact absurd h.symm (hg w).ne_bool
  case int.bool => exact absurd h (by decide)
  case bool.int => exact absurd h (by decide)

/-- Types that are written alike have the same instance under any reading `κ` of the names, and what
follows them is the same too. The induction is on the first type through its arguments. -/
theorem subst_eq_of_render_append_eq (κ : String → Ty) {a b : Ty} {r r' : List Char}
    (hr : Divided r) (hr' : Divided r')
    (h : (a.render f).toList ++ r = (b.render g).toList ++ r') :
    (a.subst fun v => κ (f v)) = (b.subst fun v => κ (g v)) ∧ r = r' := by
  induction a using argsInduction generalizing b r r' with
  | step a ih =>
    cases ha : a.isCompound with
    | false =>
      cases hb : b.isCompound with
      | true =>
        rw [toList_render_compound hb, List.cons_append] at h
        exact absurd h (render_append_ne_divider hf ha rfl _ _)
      | false =>
        obtain ⟨hword, hrest⟩ := word_append_inj (undivided_render hf ha).2
          (undivided_render hg hb).2 hr hr' h
        exact ⟨subst_eq_of_word_eq hf hg κ ha hb (String.toList_inj.1 hword), hrest⟩
    | true =>
      cases hb : b.isCompound with
      | false =>
        rw [toList_render_compound ha, List.cons_append] at h
        exact absurd h.symm (render_append_ne_divider hg hb rfl _ _)
      | true =>
        simp only [toList_render_compound ha, toList_render_compound hb, List.cons_append,
          List.append_assoc, List.nil_append, List.cons.injEq, true_and] at h
        obtain ⟨hargs, hrest, hsep⟩ := forall₂_of_intercalate
          (fun x hx y r r' hr hr' => ih x hx hr hr') (fun x => render_append_ne_close hf x)
          (fun y => render_append_ne_close hg y) h
        exact ⟨subst_eq_of_args_alike ha hb hargs hsep, hrest⟩

theorem subst_eq_of_render_eq (κ : String → Ty) {a b : Ty} (h : a.render f = b.render g) :
    (a.subst fun v => κ (f v)) = (b.subst fun v => κ (g v)) :=
  (subst_eq_of_render_append_eq hf hg κ divided_nil divided_nil (by rw [h])).1

end Render

/-! ### Plain texts -/

theorem isDivider_eq_false_of_isDigit {c : Char} (h : c.isDigit = true) : isDivider c = false := by
  rw [Bool.eq_false_iff]
  intro hc
  simp only [isDivider, Bool.or_eq_true, beq_iff_eq] at hc
  rcases hc with ((rfl | rfl) | rfl) | rfl <;> cases h

theorem undivided_repr (n : Nat) : ∀ c ∈ n.repr.toList, isDivider c = false := by
  intro c hc
  rw [Nat.toList_repr] at hc
  exact isDivider_eq_false_of_isDigit (Nat.isDigit_of_mem_toDigits (by decide) (by decide) hc)

theorem undivided_repr_int (v : Int) : ∀ c ∈ v.repr.toList, isDivider c = false := by
  cases v with
  | ofNat n => exact undivided_repr n
  | negSucc n =>
    rw [Int.repr, String.toList_append]
    intro c hc
    rcases List.mem_append.1 hc with hc | hc
    · obtain rfl : c = '-' := by simpa using hc
      rfl
    · exact undivided_repr _ c hc

theorem isLabel_plainName (v : Int) : IsLabel (plainName v) := by
  have hchars : (plainName v).toList = 't' :: v.repr.toList := by
    rw [plainName, String.toList_append]
    rfl
  exact isLabel_of_toList hchars rfl (undivided_repr_int v) (by decide) (by decide)

theorem plainName_injective : Function.Injective plainName := by
  intro v w h
  exact Text.intRepr_injective (by simpa [plainName] using h)

theorem spelling_append_inj {a b : Ty} {r r' : List Char} (hr : Divided r) (hr' : Divided r')
    (h : a.spelling.toList ++ r = b.spelling.toList ++ r') : a = b ∧ r = r' := by
  obtain ⟨hsubst, hrest⟩ := subst_eq_of_render_append_eq isLabel_plainName isLabel_plainName
    (fun s => .var (Function.invFun plainName s)) hr hr' h
  refine ⟨?_, hrest⟩
  simp only [Function.leftInverse_invFun plainName_injective _] at hsubst
  rwa [subst_var_eq_self, subst_var_eq_self] at hsubst

theorem spelling_injective : Function.Injective spelling := by
  intro a b h
  exact (spelling_append_inj divided_nil divided_nil (by rw [h])).1

/-! ### Names in order -/

/-- The number of a round through the letters, which the first round goes without. -/
def roundMark (k : Nat) : List Char := if k = 0 then [] else k.repr.toList

theorem roundMark_injective : Function.Injective roundMark := by
  have hne : ∀ k : Nat, k.repr.toList ≠ [] := by simp
  intro k l h
  unfold roundMark at h
  split_ifs at h with hk hl hl
  · rw [hk, hl]
  · exact absurd h.symm (hne l)
  · exact absurd h (hne k)
  · exact Text.natRepr_injective (String.toList_inj.1 h)

theorem undivided_roundMark (k : Nat) : ∀ c ∈ roundMark k, isDivider c = false := by
  unfold roundMark
  split_ifs
  · simp
  · exact undivided_repr k

/-- A name is a letter and the mark of its round. -/
theorem toList_greekName (n : Nat) :
    ∃ c, greekLetters[n % greekLetters.length]? = some c ∧
      (greekName n).toList = c :: roundMark (n / greekLetters.length) := by
  have hlt : n % greekLetters.length < greekLetters.length := Nat.mod_lt n (by decide)
  refine ⟨greekLetters[n % greekLetters.length], List.getElem?_eq_getElem hlt, ?_⟩
  have hletter : greekLetters.getD (n % greekLetters.length) 'α' =
      greekLetters[n % greekLetters.length] := by
    simp [hlt]
  have hround : n < greekLetters.length ↔ n / greekLetters.length = 0 :=
    (Nat.div_eq_zero_iff_lt (by decide)).symm
  simp only [greekName, roundMark, hletter, hround]
  split_ifs <;> simp

theorem greekName_injective : Function.Injective greekName := by
  intro m n h
  obtain ⟨c, hc, hm⟩ := toList_greekName m
  obtain ⟨d, hd, hn⟩ := toList_greekName n
  rw [h, hn] at hm
  obtain ⟨rfl, hround⟩ := List.cons.inj hm
  have hmod : m % greekLetters.length = n % greekLetters.length := by
    have hnodup : greekLetters.Nodup := by decide
    exact (List.getElem?_inj (Nat.mod_lt m (by decide)) hnodup).1 (hc.trans hd.symm)
  have hdiv : n / greekLetters.length = m / greekLetters.length := roundMark_injective hround
  rw [← Nat.div_add_mod m greekLetters.length, ← hdiv, hmod, Nat.div_add_mod]

theorem isLabel_greekName (n : Nat) : IsLabel (greekName n) := by
  obtain ⟨c, hc, hchars⟩ := toList_greekName n
  have hletters : greekLetters.all (fun c => !isDivider c && c != 'i' && c != 'b') = true := rfl
  have hletter := List.all_eq_true.1 hletters c (List.mem_of_getElem? hc)
  simp only [Bool.and_eq_true, Bool.not_eq_true', bne_iff_ne] at hletter
  exact isLabel_of_toList hchars hletter.1.1 (undivided_roundMark _) hletter.1.2 hletter.2

/-! ### Readable texts -/

theorem prettyName_injOn (t : Ty) :
    Set.InjOn (fun v => greekName (t.distinctVars.idxOf v)) {v | v ∈ t.vars} := by
  intro v hv w hw h
  have hmem : ∀ v ∈ t.vars, v ∈ t.distinctVars := fun v hv => List.mem_eraseDups.2 hv
  exact (List.idxOf_inj (hmem v hv)).1 (greekName_injective h)

/-- A type that reads like another is an instance of it: each name stands for the variable that has
it in the other type. -/
theorem exists_subst_of_pretty_eq {a b : Ty} (h : a.pretty = b.pretty) : ∃ s, a.subst s = b := by
  refine ⟨_, (subst_eq_of_render_eq (fun _ => isLabel_greekName _) (fun _ => isLabel_greekName _)
    (fun name => .var (Function.invFunOn (fun v => greekName (b.distinctVars.idxOf v))
      {v | v ∈ b.vars} name)) h).trans ?_⟩
  refine subst_eq_self fun v hv => congrArg Ty.var ?_
  exact (prettyName_injOn b).leftInvOn_invFunOn hv

theorem variants_of_pretty_eq {a b : Ty} (h : a.pretty = b.pretty) : Variants a b :=
  ⟨exists_subst_of_pretty_eq h, exists_subst_of_pretty_eq h.symm⟩

/-- A renaming that keeps the variables of a type apart acts on it as a bijection of all variables
does. -/
theorem exists_perm_rename {f : Int → Int} {t : Ty}
    (h : ∀ v ∈ t.vars, ∀ w ∈ t.vars, f v = f w → v = w) :
    ∃ σ : Equiv.Perm Int, t.rename σ = t.rename f := by
  classical
  let e : {v // v ∈ t.vars} ≃ {w // w ∈ Set.image f {v | v ∈ t.vars}} :=
    Equiv.Set.imageOfInjOn f {v | v ∈ t.vars} fun v hv w hw => h v hv w hw
  have : Finite {v | v ∈ t.vars} := List.finite_toSet t.vars
  refine ⟨e.extendSubtype, subst_congr fun v hv => congrArg Ty.var ?_⟩
  exact e.extendSubtype_apply_of_mem v hv

/-- Two types have the same readable text exactly when some bijection of variables turns one into
the other, and no two names of the sequence of names are the same. -/
theorem pretty_canonical :
    (∀ a b : Ty, a.pretty = b.pretty ↔ ∃ σ : Equiv.Perm Int, a.rename σ = b) ∧
      Function.Injective greekName ∧ ∀ start stop, (greekNames start stop).Nodup := by
  refine ⟨fun a b => ⟨fun h => ?_, ?_⟩, greekName_injective, fun start stop => ?_⟩
  · obtain ⟨f, rfl, hf⟩ := (variants_of_pretty_eq h).exists_rename
    exact exists_perm_rename hf
  · rintro ⟨σ, rfl⟩
    exact (pretty_rename fun v _ w _ h => σ.injective h).symm
  · refine List.nodup_range.map fun i j h => ?_
    have := greekName_injective h
    omega

end Monotype.Ty
