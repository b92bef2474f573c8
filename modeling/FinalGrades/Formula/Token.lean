import FinalGrades.Formula.Error
import FinalGrades.Number.Notation
import FinalGrades.Text.Blank
import FinalGrades.Text.Case

/-!
The tokens of a formula: decimal literals, names in upper case and six symbols, with blanks
between them. Each is kept with the characters it was read from and their position.
-/

namespace FinalGrades

inductive Token where
  | number (value : Binary64)
  | name (text : String)
  | plus
  | minus
  | times
  | over
  | openParen
  | closeParen
deriving DecidableEq

namespace Token

def symbol? : Char → Option Token
  | '+' => some .plus
  | '-' => some .minus
  | '*' => some .times
  | '/' => some .over
  | '(' => some .openParen
  | ')' => some .closeParen
  | _ => none

/-- How a token is named in a message. -/
def describe : Token → String
  | .number value => value.plain
  | .name text => text
  | .plus => "+"
  | .minus => "-"
  | .times => "*"
  | .over => "/"
  | .openParen => "("
  | .closeParen => ")"

end Token

/-- A character of a decimal literal. -/
def isLiteralChar (c : Char) : Bool := isDigit c || c = '.'

def isNameStart (c : Char) : Bool := c.isAlpha || c = '_'

def isNameChar (c : Char) : Bool := c.isAlphanum || c = '_'

/-- A token, the characters it was read from, and the position of the first of them. -/
structure Lexeme where
  token : Token
  text : List Char
  position : Nat
deriving DecidableEq

namespace Lexeme

theorem length_dropWhile_lt (p : Char → Bool) (c : Char) (rest : List Char) :
    (rest.dropWhile p).length < (c :: rest).length :=
  Nat.lt_succ_of_le (List.dropWhile_suffix p).sublist.length_le

/-- Splits text into lexemes; `position` counts the characters before it. -/
def scan (position : Nat) (text : List Char) : Except FormulaError (List Lexeme) :=
  match text with
  | [] => .ok []
  | c :: rest =>
    if Text.isBlank c then scan (position + 1) rest
    else if let some symbol := Token.symbol? c then do
      return ⟨symbol, [c], position⟩ :: (← scan (position + 1) rest)
    else if isLiteralChar c then
      let literal := c :: rest.takeWhile isLiteralChar
      match Binary64.readUnsigned false literal with
      | none => .error (.invalidNumber (String.ofList literal))
      | some value => do
        return ⟨.number value, literal, position⟩ ::
          (← scan (position + literal.length) (rest.dropWhile isLiteralChar))
    else if isNameStart c then
      let name := c :: rest.takeWhile isNameChar
      do
        return ⟨.name (Text.upper (String.ofList name)), name, position⟩ ::
          (← scan (position + name.length) (rest.dropWhile isNameChar))
    else .error (.unexpectedChar c position)
termination_by text.length
decreasing_by all_goals first | exact Nat.lt_succ_self _ | exact length_dropWhile_lt _ _ _

end Lexeme

end FinalGrades
