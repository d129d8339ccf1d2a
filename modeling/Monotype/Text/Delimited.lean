import Monotype.Text.Classes

/-! Texts between delimiters. A quoted text has single quotes unless it has a single quote and no
double one; the quote, the backslash and characters that cannot be printed are escaped. A set of
texts stands in braces, smallest text first. -/
namespace Monotype.Text

/-! ### Quotes -/

/-- The last `width` hexadecimal digits of `n`. -/
def hex : (width n : Nat) → List Char
  | 0, _ => []
  | width + 1, n => hex width (n / 16) ++ [Nat.digitChar (n % 16)]

/-- One character between quotes. -/
def escape (quote c : Char) : List Char :=
  let n := c.toNat
  if c == quote || c == '\\' then ['\\', c]
  else if c == '\t' then ['\\', 't']
  else if c == '\n' then ['\\', 'n']
  else if c == '\r' then ['\\', 'r']
  else if isPrintable c then [c]
  else if n < 0x100 then '\\' :: 'x' :: hex 2 n
  else if n < 0x10000 then '\\' :: 'u' :: hex 4 n
  else '\\' :: 'U' :: hex 8 n

def singleQuote : Char := Char.ofNat 39

def quoteFor (cs : List Char) : Char :=
  if cs.contains singleQuote && !cs.contains '"' then '"' else singleQuote

def quoted (s : String) : String :=
  let cs := s.toList
  let quote := quoteFor cs
  String.ofList (quote :: cs.flatMap (escape quote) ++ [quote])

/-! ### Braces -/

/-- Texts in ascending order of their code points. -/
def ascending (items : List String) : List String := items.mergeSort fun a b => decide (a ≤ b)

/-- The texts in ascending order, between braces. -/
def braced (items : List String) : String :=
  "\x7b" ++ ", ".intercalate (ascending items) ++ "\x7d"

end Monotype.Text
