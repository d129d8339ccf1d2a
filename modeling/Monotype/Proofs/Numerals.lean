import Monotype.Text.Numeral
import Mathlib.Algebra.GroupWithZero.Nat
import Mathlib.Data.List.Basic

/-! Numbers in decimal digits. What a number is written as is read as that number again, so
different numbers are written differently. How many digits it takes says how large the number can
be: those that can be written are those below a power of ten. -/
namespace Monotype.Text

/-! ### Digits -/

/-- Below the digits of other scripts, the digits are those from `0` to `9`. -/
theorem digitValue?_of_lt {c : Char} (h : c.toNat < 1632) :
    digitValue? c =
      if 48 ≤ c.toNat ∧ c.toNat < 48 + 10 then some (c.toNat - 48) else none := by
  have hzeros : zeros = 48 :: zeros.tail := rfl
  have hother : ∀ z ∈ zeros.tail, 1632 ≤ z := by decide
  have htail : (zeros.tail.findSome? fun z =>
      if z ≤ c.toNat ∧ c.toNat < z + 10 then some (c.toNat - z) else none) = none := by
    rw [List.findSome?_eq_none_iff]
    intro z hz
    have := hother z hz
    rw [if_neg (by omega)]
  rw [digitValue?, hzeros, List.findSome?_cons, htail]
  by_cases hd : 48 ≤ c.toNat ∧ c.toNat < 48 + 10
  · simp only [if_pos hd]
  · simp only [if_neg hd]

theorem isDigit_iff_of_lt {c : Char} (h : c.toNat < 1632) :
    isDigit c = true ↔ 48 ≤ c.toNat ∧ c.toNat < 58 := by
  rw [isDigit, digitValue?_of_lt h]
  split <;> simp <;> omega

theorem toNat_of_isDigit {c : Char} (h : c.isDigit = true) : 48 ≤ c.toNat ∧ c.toNat < 58 := by
  simp only [Char.isDigit, Bool.and_eq_true, decide_eq_true_eq, ge_iff_le,
    UInt32.le_iff_toNat_le] at h
  exact ⟨h.1, Nat.lt_succ_of_le h.2⟩

theorem isDigit_of_isDigit {c : Char} (h : c.isDigit = true) : isDigit c = true :=
  (isDigit_iff_of_lt (by have := toNat_of_isDigit h; omega)).2 (toNat_of_isDigit h)

/-! ### Written numbers -/

theorem numeral_repr (n : Nat) : numeral n.repr.toList = n := by
  have hvalue : ∀ c ∈ Nat.toDigits 10 n, (digitValue? c).getD 0 = c.toNat - '0'.toNat := by
    intro c hc
    have := toNat_of_isDigit (Nat.isDigit_of_mem_toDigits (by decide) (by decide) hc)
    rw [digitValue?_of_lt (by omega), if_pos (by omega)]
    rfl
  calc numeral n.repr.toList
      = Nat.ofDigitChars 10 (Nat.toDigits 10 n) 0 := by
        rw [Nat.toList_repr, numeral, Nat.ofDigitChars_eq_foldl]
        exact List.foldl_ext _ _ _ fun m c hc => by rw [hvalue c hc]
    _ = n := Nat.ofDigitChars_ten_toDigits

theorem natRepr_injective {m n : Nat} (h : m.repr = n.repr) : m = n := by
  rw [← numeral_repr m, h, numeral_repr]

theorem repr_ne_minus_append (m n : Nat) : m.repr ≠ "-" ++ n.repr := by
  intro h
  have hmem : '-' ∈ Nat.toDigits 10 m := by
    rw [← Nat.toList_repr, h, String.toList_append]
    exact List.mem_append_left _ (by decide)
  have hdigit := Nat.isDigit_of_mem_toDigits (by decide) (by decide) hmem
  exact absurd hdigit (by decide)

theorem intRepr_injective {v w : Int} (h : v.repr = w.repr) : v = w := by
  cases v with
  | ofNat m =>
    cases w with
    | ofNat n => rw [natRepr_injective (m := m) (n := n) h]
    | negSucc n => exact absurd h (repr_ne_minus_append m (n + 1))
  | negSucc m =>
    cases w with
    | ofNat n => exact absurd h.symm (repr_ne_minus_append n (m + 1))
    | negSucc n =>
      have hchars := congrArg String.toList h
      rw [Int.repr, Int.repr, String.toList_append, String.toList_append] at hchars
      have hdigits : (m + 1).repr = (n + 1).repr :=
        String.toList_inj.1 (List.append_cancel_left hchars)
      rw [Nat.succ.inj (natRepr_injective hdigits)]

/-! ### How many digits there are -/

theorem length_repr_le_iff (n : Nat) : n.repr.length ≤ maxDigits ↔ n < 10 ^ maxDigits := by
  rw [← String.length_toList, Nat.toList_repr]
  exact Nat.length_toDigits_le_iff (by decide) (by decide)

theorem isWritable_iff (n : Int) : isWritable n = true ↔ n.natAbs < 10 ^ maxDigits := by
  rw [isWritable, decide_eq_true_iff]
  exact length_repr_le_iff n.natAbs

theorem all_isWritable_iff (ns : List Int) :
    ns.all isWritable = true ↔ ∀ n ∈ ns, n.natAbs < 10 ^ maxDigits := by
  rw [List.all_eq_true]
  exact forall₂_congr fun n _ => isWritable_iff n

theorem ifWritable_eq_ok_iff {ns : List Int} {s s' : String} :
    ifWritable ns s = .ok s' ↔ (∀ n ∈ ns, n.natAbs < 10 ^ maxDigits) ∧ s = s' := by
  rw [ifWritable, ← all_isWritable_iff]
  cases ns.all isWritable <;> simp

theorem ifWritable_eq_error_iff {ns : List Int} {s : String} {e : TooLong} :
    ifWritable ns s = .error e ↔ ¬∀ n ∈ ns, n.natAbs < 10 ^ maxDigits := by
  rw [ifWritable, ← all_isWritable_iff]
  cases ns.all isWritable <;> simp

end Monotype.Text
