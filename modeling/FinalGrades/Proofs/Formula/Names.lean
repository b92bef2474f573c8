import FinalGrades.Proofs.Formula.Grammar
import Mathlib.Data.List.Chain

/-!
What the grammar says about names: those of the tree are those of the tokens, in the same order,
and no name follows a number.
-/

namespace FinalGrades

/-- The name that a token is. -/
def Token.name? : Token → Option String
  | .name text => some text
  | _ => none

def Token.isNumber : Token → Bool
  | .number _ => true
  | _ => false

theorem Token.plain_of_symbol? {c : Char} {token : Token} (h : symbol? c = some token) :
    token.name? = none ∧ token.isNumber = false := by
  unfold symbol? at h
  split at h
  all_goals first | cases h; exact ⟨rfl, rfl⟩ | cases h

/-- Two tokens that can be neighbours: not a number and then a name. -/
def Token.Parted (a b : Token) : Prop := a.isNumber = true → b.name? = none

theorem Operator.name?_token (operator : Operator) : operator.token.name? = none := by
  cases operator <;> rfl

theorem Operator.parted_token (operator : Operator) (token : Token) :
    Token.Parted operator.token token := by
  intro h
  cases operator <;> cases h

def Kind.occurrences : (kind : Kind) → kind.Value → List String
  | .one _, formula => Formula.occurrences formula
  | .steps _, rest => Steps.occurrences rest

namespace Phrase

theorem occurrences_chained (first : Formula) (steps : Steps) :
    (Formula.chained first steps).occurrences = first.occurrences ++ steps.occurrences := by
  cases steps with
  | done => simp [Formula.chained, Steps.occurrences]
  | step operator operand more =>
    show (Formula.chain first (.step operator operand more)).occurrences = _
    rw [Formula.occurrences]

/-- The names in the tree are those among the tokens, in the same order. -/
theorem occurrences_tree {kind : Kind} (phrase : Phrase kind) :
    kind.occurrences phrase.tree = phrase.tokens.filterMap Token.name? := by
  induction phrase with
  | @chain level first rest ihFirst ihRest =>
    rw [tokens_chain, List.filterMap_append, ← ihFirst, ← ihRest]
    exact occurrences_chained _ _
  | done => rfl
  | step operator fits operand more ihOperand ihMore =>
    rw [tokens_step, List.filterMap_cons_none operator.name?_token, List.filterMap_append,
      ← ihOperand, ← ihMore]
    simp only [Kind.occurrences, tree, Steps.occurrences]
  | signed sign fits inner ih =>
    rw [tokens_signed, List.filterMap_cons_none sign.name?_token, ← ih, tree]
    split <;> simp only [Kind.occurrences, Formula.occurrences]
  | bare operand ih => exact ih
  | number value => simp [tree, Kind.occurrences, Formula.occurrences, Token.name?]
  | name text => simp [tree, Kind.occurrences, Formula.occurrences, Token.name?]
  | parens inner ih =>
    rw [tokens_parens, List.filterMap_cons_none rfl, List.filterMap_append, ← ih]
    simp [tree, Kind.occurrences, Token.name?]

theorem name?_head_steps {level : Precedence} (rest : Phrase (.steps level)) :
    ∀ token ∈ rest.tokens.head?, token.name? = none := by
  intro token htoken
  cases rest with
  | done => cases htoken
  | step operator fits operand more =>
    cases htoken
    exact operator.name?_token

/-- Between a number and a name there is an operator or a parenthesis. -/
theorem isChain_parted {kind : Kind} (phrase : Phrase kind) :
    phrase.tokens.IsChain Token.Parted := by
  induction phrase with
  | chain first rest ihFirst ihRest =>
    rw [tokens_chain, List.isChain_append]
    exact ⟨ihFirst, ihRest, fun _ _ token htoken _ => name?_head_steps rest token htoken⟩
  | done => exact List.isChain_nil
  | step operator fits operand more ihOperand ihMore =>
    rw [tokens_step, List.isChain_cons, List.isChain_append]
    exact ⟨fun token _ => operator.parted_token token, ihOperand, ihMore,
      fun _ _ token htoken _ => name?_head_steps more token htoken⟩
  | signed sign fits inner ih =>
    rw [tokens_signed, List.isChain_cons]
    exact ⟨fun token _ => sign.parted_token token, ih⟩
  | bare operand ih => exact ih
  | number value => exact List.isChain_singleton _
  | name text => exact List.isChain_singleton _
  | parens inner ih =>
    rw [tokens_parens, List.isChain_cons, List.isChain_append]
    refine ⟨fun token _ hopen => (by cases hopen), ih, List.isChain_singleton _, ?_⟩
    intro _ _ token htoken _
    cases htoken
    rfl

end Phrase

end FinalGrades
