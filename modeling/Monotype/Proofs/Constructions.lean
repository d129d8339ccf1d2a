import Monotype.Proofs.Rendering

/-! The text that spells out the constructors of a type can be read in one way only. It begins with
the name of the outermost constructor, a word that tells the constructors apart. What follows is
divided from the name: nothing, the number of a variable, or the texts of the arguments. So this
text determines the type, as the plain one does. Both are refused where the number of a variable has
too many digits, and only there. -/
namespace Monotype.Ty

theorem constructorsAll_eq (ts : List Ty) : constructorsAll ts = ts.map constructors := by
  induction ts with
  | nil => rfl
  | cons t ts ih => rw [constructorsAll, ih, List.map_cons]

/-- The name of the outermost constructor. -/
def constructorName : Ty → String
  | .var _ => "Var"
  | .int => "Int"
  | .bool => "Bool"
  | .fn _ _ => "Fn"
  | .tuple _ => "Poly"

/-- What stands in parentheses after the name, where there are parentheses. -/
def operands? : Ty → Option (List Char)
  | .var v => some v.repr.toList
  | .int | .bool => none
  | t => some (Separator.comma.chars.intercalate (t.args.map fun x => x.constructors.toList))

/-- Puts the operands, if there are any, into parentheses. -/
def enclosed : Option (List Char) → List Char
  | some text => '(' :: (text ++ [')'])
  | none => []

theorem toList_constructors (t : Ty) :
    t.constructors.toList = t.constructorName.toList ++ enclosed t.operands? := by
  cases t with
  | fn a b =>
    simp [constructors, constructorName, operands?, enclosed, args, Separator.chars,
      List.intercalate_cons_cons]
  | tuple ts =>
    simp [constructors, constructorName, operands?, enclosed, args, Separator.chars,
      String.toList_intercalate, constructorsAll_eq, Function.comp_def]
  | _ => simp [constructors, constructorName, operands?, enclosed]

theorem undivided_constructorName (t : Ty) :
    ∀ c ∈ t.constructorName.toList, isDivider c = false := by
  cases t <;> simp [constructorName, isDivider]

theorem divided_enclosed (o : Option (List Char)) {r : List Char} (hr : Divided r) :
    Divided (enclosed o ++ r) := by
  cases o with
  | none => exact hr
  | some text => exact divided_cons rfl _

theorem constructors_append_ne_close (t : Ty) (r r' : List Char) :
    t.constructors.toList ++ r ≠ ')' :: r' := by
  rw [toList_constructors]
  cases t <;> simp [constructorName]

/-- Two texts of constructors that agree agree in the name and in what is enclosed. -/
theorem constructorName_eq_of_append_eq {a b : Ty} {r r' : List Char} (hr : Divided r)
    (hr' : Divided r') (h : a.constructors.toList ++ r = b.constructors.toList ++ r') :
    a.constructorName = b.constructorName ∧
      enclosed a.operands? ++ r = enclosed b.operands? ++ r' := by
  simp only [toList_constructors, List.append_assoc] at h
  obtain ⟨hname, hrest⟩ := word_append_inj (undivided_constructorName a)
    (undivided_constructorName b) (divided_enclosed _ hr) (divided_enclosed _ hr') h
  exact ⟨String.toList_inj.1 hname, hrest⟩

theorem var_eq_of_enclosed {v w : Int} {r r' : List Char}
    (h : enclosed (Ty.var v).operands? ++ r = enclosed (Ty.var w).operands? ++ r') :
    v = w ∧ r = r' := by
  simp only [operands?, enclosed, List.cons_append, List.append_assoc, List.cons.injEq,
    true_and, List.nil_append] at h
  obtain ⟨hnumber, hrest⟩ := word_append_inj (undivided_repr_int v) (undivided_repr_int w)
    (divided_cons rfl r) (divided_cons rfl r') h
  exact ⟨Text.intRepr_injective (String.toList_inj.1 hnumber), (List.cons.inj hrest).2⟩

/-- Arguments in parentheses are read one by one. -/
theorem args_eq_of_enclosed {a b : Ty} {r r' : List Char} (ha : a.isCompound = true)
    (hb : b.isCompound = true)
    (hitem : ∀ x ∈ a.args, ∀ y r r', Divided r → Divided r' →
      x.constructors.toList ++ r = y.constructors.toList ++ r' → x = y ∧ r = r')
    (h : enclosed a.operands? ++ r = enclosed b.operands? ++ r') : a.args = b.args ∧ r = r' := by
  have henclosed : ∀ {t : Ty} (r : List Char), t.isCompound = true → enclosed t.operands? ++ r =
      '(' :: (Separator.comma.chars.intercalate (t.args.map fun x => x.constructors.toList) ++
        ')' :: r) := by
    intro t r ht
    cases t <;> simp_all [isCompound, operands?, enclosed]
  rw [henclosed r ha, henclosed r' hb] at h
  obtain ⟨hargs, hrest, -⟩ := forall₂_of_intercalate hitem constructors_append_ne_close
    constructors_append_ne_close (List.cons.inj h).2
  exact ⟨List.forall₂_eq_eq_eq ▸ hargs, hrest⟩

/-- The text of the constructors, with any rest that does not go on with a word, determines the type
and the rest. The induction is on the first type through its arguments. -/
theorem constructors_append_inj {a b : Ty} {r r' : List Char} (hr : Divided r) (hr' : Divided r')
    (h : a.constructors.toList ++ r = b.constructors.toList ++ r') : a = b ∧ r = r' := by
  induction a using argsInduction generalizing b r r' with
  | step a ih =>
    obtain ⟨hname, hrest⟩ := constructorName_eq_of_append_eq hr hr' h
    have hargs : a.isCompound = true → b.isCompound = true → a.args = b.args ∧ r = r' :=
      fun ha hb => args_eq_of_enclosed ha hb (fun x hx y r r' hr hr' => ih x hx hr hr') hrest
    cases a <;> cases b <;> simp only [constructorName, String.reduceEq] at hname
    case var.var v w =>
      obtain ⟨rfl, hr⟩ := var_eq_of_enclosed hrest
      exact ⟨rfl, hr⟩
    case int.int => exact ⟨rfl, hrest⟩
    case bool.bool => exact ⟨rfl, hrest⟩
    case fn.fn x y x' y' => simpa [args] using hargs rfl rfl
    case tuple.tuple ts ts' => simpa [args] using hargs rfl rfl

theorem constructors_injective : Function.Injective constructors := by
  intro a b h
  exact (constructors_append_inj divided_nil divided_nil (by rw [h])).1

/-! ### Texts that are given -/

/-- The numbers of all variables have few enough digits to be written. -/
def Short (t : Ty) : Prop := ∀ v ∈ t.vars, v.natAbs < 10 ^ Text.maxDigits

/-- Both types have the text, and the texts are the same exactly when the types are. -/
def ToldApart (text : Ty → Except Text.TooLong String) (a b : Ty) : Prop :=
  ∃ s s', text a = .ok s ∧ text b = .ok s' ∧ (s = s' ↔ a = b)

theorem toldApart_iff {spell : Ty → String} (hspell : Function.Injective spell) (a b : Ty) :
    ToldApart (fun t => Text.ifWritable t.vars (spell t)) a b ↔ a.Short ∧ b.Short := by
  constructor
  · rintro ⟨s, s', hs, hs', -⟩
    exact ⟨(Text.ifWritable_eq_ok_iff.1 hs).1, (Text.ifWritable_eq_ok_iff.1 hs').1⟩
  · rintro ⟨ha, hb⟩
    exact ⟨spell a, spell b, Text.ifWritable_eq_ok_iff.2 ⟨ha, rfl⟩,
      Text.ifWritable_eq_ok_iff.2 ⟨hb, rfl⟩, hspell.eq_iff⟩

/-- Both texts of a type determine it, where they are given: two types have texts that tell them
apart exactly when the numbers of all their variables have at most 4300 digits. -/
theorem texts_determine (a b : Ty) :
    Text.maxDigits = 4300 ∧ (ToldApart text a b ↔ a.Short ∧ b.Short) ∧
      (ToldApart construction a b ↔ a.Short ∧ b.Short) :=
  ⟨rfl, toldApart_iff spelling_injective a b, toldApart_iff constructors_injective a b⟩

/-- A variable whose number has one digit too many has neither text, so not all types are told apart
by their texts. -/
theorem not_forall_toldApart :
    (var (10 ^ Text.maxDigits)).text = .error ⟨⟩ ∧
      (var (10 ^ Text.maxDigits)).construction = .error ⟨⟩ ∧
      ¬∀ a b : Ty, ToldApart text a b ∧ ToldApart construction a b := by
  have hlong : ¬(var (10 ^ Text.maxDigits)).Short := by
    intro h
    have hlt := h (10 ^ Text.maxDigits) (by rw [vars_var]; exact List.mem_singleton_self _)
    simp [Int.natAbs_pow] at hlt
  refine ⟨Text.ifWritable_eq_error_iff.2 hlong, Text.ifWritable_eq_error_iff.2 hlong, fun h => ?_⟩
  obtain ⟨s, s', hs, -⟩ := (h (var (10 ^ Text.maxDigits)) (var (10 ^ Text.maxDigits))).1
  exact hlong (Text.ifWritable_eq_ok_iff.1 hs).1

example : (fn (var (-1)) (tuple [tuple [], int])).text = .ok "(t-1 → ((), int))" := by rfl

end Monotype.Ty
