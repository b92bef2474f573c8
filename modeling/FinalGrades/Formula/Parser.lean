import FinalGrades.Formula.Token
import FinalGrades.Formula.Tree

/-!
Reading a formula: sums of products of signed operands, an operand being a number, a name or a
formula in parentheses. Signs and parentheses that enclose a token count as its depth.
-/

namespace FinalGrades

/-- How long and how deeply nested a formula may be. -/
structure Limits where
  maxLength : Nat := 4096
  maxDepth : Nat := 64
deriving DecidableEq

namespace Formula

/-- A tree read from the front of `before`, and what follows it. -/
structure Reading (before : List Lexeme) where
  tree : Formula
  after : List Lexeme
  shorter : after.length < before.length

/-- Steps read from the front of `before`, possibly none, and what follows them. -/
structure StepsReading (before : List Lexeme) where
  steps : Steps
  after : List Lexeme
  shorter : after.length ≤ before.length

/-- The error for a lexeme that nothing can continue with. -/
def unexpected : List Lexeme → FormulaError
  | [] => .unexpectedEnd
  | lexeme :: _ => .unexpectedToken lexeme.token.describe lexeme.position

def additive? : Token → Option Operator
  | .plus => some .plus
  | .minus => some .minus
  | _ => none

def multiplicative? : Token → Option Operator
  | .times => some .times
  | .over => some .over
  | _ => none

mutual

/-- Products joined by additive operators. -/
def readSum (maxDepth depth : Nat) (lexemes : List Lexeme) :
    Except FormulaError (Reading lexemes) := do
  let first ← readProduct maxDepth depth lexemes
  let tail ← readTerms maxDepth depth first.after
  return ⟨chained first.tree tail.steps, tail.after,
    Nat.lt_of_le_of_lt tail.shorter first.shorter⟩
termination_by (lexemes.length, 4)
decreasing_by
  · exact Prod.Lex.right _ (by decide)
  · exact Prod.Lex.left _ _ first.shorter

def readTerms (maxDepth depth : Nat) (lexemes : List Lexeme) :
    Except FormulaError (StepsReading lexemes) :=
  match lexemes with
  | [] => .ok ⟨.done, [], Nat.le_refl _⟩
  | lexeme :: rest =>
    match additive? lexeme.token with
    | none => .ok ⟨.done, lexeme :: rest, Nat.le_refl _⟩
    | some operator => do
      let operand ← readProduct maxDepth depth rest
      let tail ← readTerms maxDepth depth operand.after
      return ⟨.step operator operand.tree tail.steps, tail.after,
        Nat.le_of_lt (Nat.lt_succ_of_lt (Nat.lt_of_le_of_lt tail.shorter operand.shorter))⟩
termination_by (lexemes.length, 4)
decreasing_by
  · exact Prod.Lex.left _ _ (Nat.lt_succ_self _)
  · exact Prod.Lex.left _ _ (Nat.lt_succ_of_lt operand.shorter)

/-- Signed operands joined by multiplicative operators. -/
def readProduct (maxDepth depth : Nat) (lexemes : List Lexeme) :
    Except FormulaError (Reading lexemes) := do
  let first ← readSigned maxDepth depth lexemes
  let tail ← readFactors maxDepth depth first.after
  return ⟨chained first.tree tail.steps, tail.after,
    Nat.lt_of_le_of_lt tail.shorter first.shorter⟩
termination_by (lexemes.length, 3)
decreasing_by
  · exact Prod.Lex.right _ (by decide)
  · exact Prod.Lex.left _ _ first.shorter

def readFactors (maxDepth depth : Nat) (lexemes : List Lexeme) :
    Except FormulaError (StepsReading lexemes) :=
  match lexemes with
  | [] => .ok ⟨.done, [], Nat.le_refl _⟩
  | lexeme :: rest =>
    match multiplicative? lexeme.token with
    | none => .ok ⟨.done, lexeme :: rest, Nat.le_refl _⟩
    | some operator => do
      let operand ← readSigned maxDepth depth rest
      let tail ← readFactors maxDepth depth operand.after
      return ⟨.step operator operand.tree tail.steps, tail.after,
        Nat.le_of_lt (Nat.lt_succ_of_lt (Nat.lt_of_le_of_lt tail.shorter operand.shorter))⟩
termination_by (lexemes.length, 3)
decreasing_by
  · exact Prod.Lex.left _ _ (Nat.lt_succ_self _)
  · exact Prod.Lex.left _ _ (Nat.lt_succ_of_lt operand.shorter)

/-- Any number of signs before an operand; only the minus leaves a mark in the tree. -/
def readSigned (maxDepth depth : Nat) (lexemes : List Lexeme) :
    Except FormulaError (Reading lexemes) :=
  match lexemes with
  | [] => .error .unexpectedEnd
  | lexeme :: rest =>
    match additive? lexeme.token with
    | none => readOperand maxDepth depth (lexeme :: rest)
    | some sign =>
      if maxDepth ≤ depth then .error (.tooDeep maxDepth)
      else do
        let inner ← readSigned maxDepth (depth + 1) rest
        return ⟨if sign = .minus then .negation inner.tree else inner.tree, inner.after,
          Nat.lt_succ_of_lt inner.shorter⟩
termination_by (lexemes.length, 2)
decreasing_by
  · exact Prod.Lex.right _ (by decide)
  · exact Prod.Lex.left _ _ (Nat.lt_succ_self _)

/-- A number, a name, or a formula in parentheses. -/
def readOperand (maxDepth depth : Nat) (lexemes : List Lexeme) :
    Except FormulaError (Reading lexemes) :=
  match lexemes with
  | [] => .error .unexpectedEnd
  | lexeme :: rest =>
    match lexeme.token with
    | .number value => .ok ⟨.number value, rest, Nat.lt_succ_self _⟩
    | .name text => .ok ⟨.variable text, rest, Nat.lt_succ_self _⟩
    | .openParen =>
      if maxDepth ≤ depth then .error (.tooDeep maxDepth)
      else do
        let inner ← readSum maxDepth (depth + 1) rest
        match h : inner.after with
        | ⟨.closeParen, _, _⟩ :: after =>
          return ⟨inner.tree, after, by
            have hs := inner.shorter
            rw [h] at hs
            exact Nat.lt_succ_of_lt (Nat.lt_of_succ_lt hs)⟩
        | other => .error (unexpected other)
    | _ => .error (unexpected (lexeme :: rest))
termination_by (lexemes.length, 1)
decreasing_by exact Prod.Lex.left _ _ (Nat.lt_succ_self _)

end

/-- Reads a formula that takes up the whole text. -/
def parse (text : String) (limits : Limits) : Except FormulaError Formula :=
  if limits.maxLength < text.length then .error (.tooLong text.length limits.maxLength)
  else do
    let lexemes ← Lexeme.scan 0 text.toList
    let whole ← readSum limits.maxDepth 0 lexemes
    match whole.after with
    | [] => return whole.tree
    | other => .error (unexpected other)

end Formula

end FinalGrades
