/-! Numbers in decimal digits. The digits of all scripts are read; each script's digits are ten code
points in a row, from zero to nine. A number of too many digits is neither read nor written. -/
namespace Monotype.Text

/-! ### Reading -/

/-- The code points of the zeros. -/
def zeros : List Nat :=
  [48, 1632, 1776, 1984, 2406, 2534, 2662, 2790, 2918, 3046, 3174, 3302, 3430, 3558, 3664, 3792,
    3872, 4160, 4240, 6112, 6160, 6470, 6608, 6784, 6800, 6992, 7088, 7232, 7248, 42528, 43216,
    43264, 43472, 43504, 43600, 44016, 65296, 66720, 68912, 69734, 69872, 69942, 70096, 70384,
    70736, 70864, 71248, 71360, 71472, 71904, 72016, 72784, 73040, 73120, 92768, 92864, 93008,
    120782, 120792, 120802, 120812, 120822, 123200, 123632, 125264, 130032]

/-- The value of a decimal digit. -/
def digitValue? (c : Char) : Option Nat :=
  zeros.findSome? fun z => if z ≤ c.toNat ∧ c.toNat < z + 10 then some (c.toNat - z) else none

def isDigit (c : Char) : Bool := (digitValue? c).isSome

/-- The number that digits write, the most significant first; scripts may be mixed. -/
def numeral (digits : List Char) : Nat :=
  digits.foldl (fun n c => 10 * n + (digitValue? c).getD 0) 0

/-- The most digits that a number may have, where it is read and where it is written. -/
def maxDigits : Nat := 4300

/-- What is said of a number that has more digits, with their number where it is known. -/
def tooManyDigits (digits : Option Nat) : String :=
  let count := match digits with
    | some n => ": value has " ++ toString n ++ " digits"
    | none => ""
  "Exceeds the limit (" ++ toString maxDigits ++ " digits) for integer string conversion" ++ count
    ++ "; use sys.set_int_max_str_digits() to increase the limit"

/-! ### Writing -/

/-- A number has too many digits to be written. -/
structure TooLong where
  deriving DecidableEq

def TooLong.message (_ : TooLong) : String := tooManyDigits none

/-- Whether a number has few enough digits to be written. The sign does not count. -/
def isWritable (n : Int) : Bool := (toString n.natAbs).length ≤ maxDigits

/-- Gives a text in which the numbers stand, unless one of them has too many digits. -/
def ifWritable (numbers : List Int) (s : String) : Except TooLong String :=
  if numbers.all isWritable then .ok s else .error ⟨⟩

/-- A number in digits, after a minus sign if it is negative. -/
def decimal (n : Int) : Except TooLong String := ifWritable [n] (toString n)

end Monotype.Text
