import Monotype.Text.Classes
import Monotype.Text.Numeral

/-! Tokens of the language, and the rules by which a text starts with one. The rules are tried in
the order of `rules`, and the first that applies decides, even where a later one would take more. -/
namespace Monotype.Source

/-- A place in a text. Lines and columns count from one, and only a line feed ends a line. -/
structure Position where
  index : Nat
  line : Nat
  column : Nat
  deriving DecidableEq

def Position.start : Position := ⟨0, 1, 1⟩

/-- The place after one more character. -/
def Position.next (p : Position) (c : Char) : Position :=
  if c = '\n' then ⟨p.index + 1, p.line + 1, 1⟩ else ⟨p.index + 1, p.line, p.column + 1⟩

def Position.advance (p : Position) (cs : List Char) : Position := cs.foldl Position.next p

theorem Position.advance_append (p : Position) (as bs : List Char) :
    p.advance (as ++ bs) = (p.advance as).advance bs :=
  List.foldl_append

theorem Position.index_advance (p : Position) (cs : List Char) :
    (p.advance cs).index = p.index + cs.length := by
  induction cs generalizing p with
  | nil => rfl
  | cons c cs ih =>
    have h : (p.next c).index = p.index + 1 := by unfold next; split <;> rfl
    have hc : p.advance (c :: cs) = (p.next c).advance cs := rfl
    rw [hc, ih, h, List.length_cons]
    omega

/-- The binary operators. -/
inductive Op where
  | eq
  | plus
  | minus
  | star
  | slash
  deriving DecidableEq

def Op.symbol : Op → String
  | .eq => "="
  | .plus => "+"
  | .minus => "-"
  | .star => "*"
  | .slash => "/"

/-- Operators of a higher level bind more tightly. -/
def Op.level : Op → Nat
  | .eq => 1
  | .plus => 2
  | .minus => 2
  | .star => 3
  | .slash => 3

inductive Keyword where
  | let_
  | val
  | in_
  | end_
  | if_
  | then_
  | else_
  | fn
  deriving DecidableEq

def Keyword.word : Keyword → String
  | .let_ => "let"
  | .val => "val"
  | .in_ => "in"
  | .end_ => "end"
  | .if_ => "if"
  | .then_ => "then"
  | .else_ => "else"
  | .fn => "fn"

/-- What a token is, apart from its text. -/
inductive Kind where
  | arrow
  | keyword (k : Keyword)
  | openParen
  | closeParen
  | number
  | name
  | op (o : Op)
  deriving DecidableEq

structure Token where
  kind : Kind
  text : String
  position : Position
  deriving DecidableEq

/-! ### The rules -/

def isNameStart (c : Char) : Bool := c.isAlpha || c == '_'

def isNamePart (c : Char) : Bool := c.isAlphanum || c == '_' || c == Char.ofNat 39

/-- What a token may look like. -/
inductive Pattern where
  /-- Exactly these characters. -/
  | exactly (s : String)
  /-- These characters, and no word character after them. -/
  | word (s : String)
  | digits
  | name

/-- Takes the token off the front of the characters. -/
def Pattern.take? : Pattern → List Char → Option (List Char × List Char)
  | .exactly s, cs => if s.toList.isPrefixOf cs then some (s.toList, cs.drop s.length) else none
  | .word s, cs =>
    if s.toList.isPrefixOf cs && !(cs.drop s.length).head?.any Text.isWord
    then some (s.toList, cs.drop s.length) else none
  | .digits, cs =>
    if cs.head?.any Text.isDigit then some (cs.takeWhile Text.isDigit, cs.dropWhile Text.isDigit)
    else none
  | .name, cs =>
    if cs.head?.any isNameStart then some (cs.takeWhile isNamePart, cs.dropWhile isNamePart)
    else none

def Kind.pattern : Kind → Pattern
  | .arrow => .exactly "=>"
  | .keyword k => .word k.word
  | .openParen => .exactly "("
  | .closeParen => .exactly ")"
  | .number => .digits
  | .name => .name
  | .op o => .exactly o.symbol

/-- The kinds of tokens in the order in which they are tried. -/
def rules : List Kind :=
  [.arrow, .keyword .let_, .keyword .val, .keyword .in_, .keyword .end_, .keyword .if_,
    .keyword .then_, .keyword .else_, .keyword .fn, .openParen, .closeParen, .number, .name,
    .op .eq, .op .plus, .op .minus, .op .star, .op .slash]

/-- The token that the characters start with: its kind, its text, and what follows it. -/
def first? (cs : List Char) : Option (Kind × List Char × List Char) :=
  rules.findSome? fun k => (k.pattern.take? cs).map (k, ·)

end Monotype.Source
