import FinalGrades.Formula.Parser
import FinalGrades.Proofs.Formula.Lexing

/-!
The grammar of formulas, said without the reader: derivations, the tokens they derive and how
deep each of them lies, and the tree that a derivation denotes. No two derivations derive the same
tokens.
-/

namespace FinalGrades

/-- Additive operators bind less tightly than multiplicative ones. -/
inductive Precedence where
  | additive
  | multiplicative
deriving DecidableEq

namespace Operator

def token : Operator → Token
  | .plus => .plus
  | .minus => .minus
  | .times => .times
  | .over => .over

def level : Operator → Precedence
  | .plus | .minus => .additive
  | .times | .over => .multiplicative

theorem token_injective {a b : Operator} (h : a.token = b.token) : a = b := by
  cases a <;> cases b <;> first | rfl | cases h

end Operator

/-- A chain of additive operators is a sum, one of multiplicative operators a product. -/
inductive Nonterminal where
  | chain (level : Precedence)
  | signed
  | operand
deriving DecidableEq

namespace Precedence

/-- What stands on both sides of an operator. -/
def operand : Precedence → Nonterminal
  | .additive => .chain .multiplicative
  | .multiplicative => .signed

def operator? : Precedence → Token → Option Operator
  | .additive => Formula.additive?
  | .multiplicative => Formula.multiplicative?

theorem operator?_eq_some_iff {level : Precedence} {token : Token} {operator : Operator} :
    level.operator? token = some operator ↔ operator.level = level ∧ operator.token = token := by
  cases level <;> cases token <;> cases operator <;>
    simp [operator?, Formula.additive?, Formula.multiplicative?, Operator.level, Operator.token]

end Precedence

/-- A nonterminal on its own, or the steps that repeat in a chain. -/
inductive Kind where
  | one (nonterminal : Nonterminal)
  | steps (level : Precedence)
deriving DecidableEq

/-- Derivations, with a constructor for each rule of the grammar. -/
inductive Phrase : Kind → Type where
  | chain {level : Precedence} (first : Phrase (.one level.operand))
      (rest : Phrase (.steps level)) : Phrase (.one (.chain level))
  | done {level : Precedence} : Phrase (.steps level)
  | step {level : Precedence} (operator : Operator) (fits : operator.level = level)
      (operand : Phrase (.one level.operand)) (more : Phrase (.steps level)) :
      Phrase (.steps level)
  | signed (sign : Operator) (fits : sign.level = .additive) (inner : Phrase (.one .signed)) :
      Phrase (.one .signed)
  | bare (operand : Phrase (.one .operand)) : Phrase (.one .signed)
  | number (value : Binary64) : Phrase (.one .operand)
  | name (text : String) : Phrase (.one .operand)
  | parens (inner : Phrase (.one (.chain .additive))) : Phrase (.one .operand)

/-- Derivations of whole formulas. -/
abbrev Derivation := Phrase (.one (.chain .additive))

/-- The tokens that make a phrase of the kind longer when they follow it. -/
def Kind.continuedBy : Kind → Token → Bool
  | .one (.chain .additive), token | .steps .additive, token =>
    (Precedence.additive.operator? token).isSome ||
      (Precedence.multiplicative.operator? token).isSome
  | .one (.chain .multiplicative), token | .steps .multiplicative, token =>
    (Precedence.multiplicative.operator? token).isSome
  | _, _ => false

/-- What a phrase stands for. -/
abbrev Kind.Value : Kind → Type
  | .one _ => Formula
  | .steps _ => Steps

namespace Phrase

/-- The tokens of a phrase, each with the number of parentheses and signs that enclose it. -/
def leaves {kind : Kind} (depth : Nat) : Phrase kind → List (Token × Nat)
  | .chain first rest => first.leaves depth ++ rest.leaves depth
  | .done => []
  | .step operator _ operand more =>
    (operator.token, depth) :: (operand.leaves depth ++ more.leaves depth)
  | .signed sign _ inner => (sign.token, depth) :: inner.leaves (depth + 1)
  | .bare operand => operand.leaves depth
  | .number value => [(.number value, depth)]
  | .name text => [(.name text, depth)]
  | .parens inner => (.openParen, depth) :: (inner.leaves (depth + 1) ++ [(.closeParen, depth)])

def tokens {kind : Kind} (phrase : Phrase kind) : List Token := (phrase.leaves 0).map (·.1)

/-- Parentheses and the sign plus leave no mark; a chain with steps is one flat node. -/
def tree {kind : Kind} : Phrase kind → kind.Value
  | .chain first rest => Formula.chained first.tree rest.tree
  | .done => Steps.done
  | .step operator _ operand more => Steps.step operator operand.tree more.tree
  | .signed sign _ inner => if sign = .minus then Formula.negation inner.tree else inner.tree
  | .bare operand => operand.tree
  | .number value => Formula.number value
  | .name text => Formula.variable text
  | .parens inner => inner.tree

theorem map_leaves {kind : Kind} (phrase : Phrase kind) (depth : Nat) :
    (phrase.leaves depth).map (·.1) = phrase.tokens := by
  suffices h : ∀ d, (phrase.leaves depth).map (·.1) = (phrase.leaves d).map (·.1) from h 0
  induction phrase generalizing depth with
  | chain first rest ihFirst ihRest =>
    intro d
    simp only [leaves, List.map_append, ihFirst depth d, ihRest depth d]
  | done => simp [leaves]
  | step operator fits operand more ihOperand ihMore =>
    intro d
    simp only [leaves, List.map_cons, List.map_append, ihOperand depth d, ihMore depth d]
  | signed sign fits inner ih =>
    intro d
    simp only [leaves, List.map_cons, ih (depth + 1) (d + 1)]
  | bare operand ih => exact ih depth
  | number value => simp [leaves]
  | name text => simp [leaves]
  | parens inner ih =>
    intro d
    simp only [leaves, List.map_cons, List.map_append, List.map_nil, ih (depth + 1) (d + 1)]

section Tokens

variable {level : Precedence}

@[simp] theorem tokens_chain (first : Phrase (.one level.operand)) (rest : Phrase (.steps level)) :
    (chain first rest).tokens = first.tokens ++ rest.tokens := by
  simp [tokens, leaves]

@[simp] theorem tokens_done : (done : Phrase (.steps level)).tokens = [] := rfl

@[simp] theorem tokens_step (operator : Operator) (fits : operator.level = level)
    (operand : Phrase (.one level.operand)) (more : Phrase (.steps level)) :
    (step operator fits operand more).tokens =
      operator.token :: (operand.tokens ++ more.tokens) := by
  simp [tokens, leaves]

@[simp] theorem tokens_signed (sign : Operator) (fits : sign.level = .additive)
    (inner : Phrase (.one .signed)) :
    (signed sign fits inner).tokens = sign.token :: inner.tokens := by
  simp [tokens, leaves, map_leaves inner 1]

@[simp] theorem tokens_bare (operand : Phrase (.one .operand)) :
    (bare operand).tokens = operand.tokens := rfl

@[simp] theorem tokens_number (value : Binary64) : (number value).tokens = [.number value] := rfl

@[simp] theorem tokens_name (text : String) : (name text).tokens = [.name text] := rfl

@[simp] theorem tokens_parens (inner : Phrase (.one (.chain .additive))) :
    (parens inner).tokens = .openParen :: (inner.tokens ++ [.closeParen]) := by
  simp [tokens, leaves, map_leaves inner 1]

end Tokens

/-- A phrase other than steps has a token, at the depth of the phrase or below. -/
theorem exists_leaf {n : Nonterminal} (depth : Nat) :
    (phrase : Phrase (.one n)) → ∃ leaf ∈ phrase.leaves depth, depth ≤ leaf.2
  | .chain first rest => by
    obtain ⟨leaf, hleaf, hdepth⟩ := exists_leaf depth first
    exact ⟨leaf, by simp [leaves, hleaf], hdepth⟩
  | .bare operand => exists_leaf depth operand
  | .signed sign fits inner => ⟨(sign.token, depth), by simp [leaves], Nat.le_refl _⟩
  | .number value => ⟨(.number value, depth), by simp [leaves], Nat.le_refl _⟩
  | .name text => ⟨(.name text, depth), by simp [leaves], Nat.le_refl _⟩
  | .parens inner => ⟨(.openParen, depth), by simp [leaves], Nat.le_refl _⟩

/-- No token lies deeper than the limit. -/
def Within {kind : Kind} (limit depth : Nat) (phrase : Phrase kind) : Prop :=
  ∀ leaf ∈ phrase.leaves depth, leaf.2 ≤ limit

section Within

variable {level : Precedence} {limit depth : Nat}

theorem Within.depth_le {n : Nonterminal} {phrase : Phrase (.one n)}
    (h : phrase.Within limit depth) : depth ≤ limit := by
  obtain ⟨leaf, hleaf, hdepth⟩ := phrase.exists_leaf depth
  exact Nat.le_trans hdepth (h leaf hleaf)

@[simp] theorem within_chain {first : Phrase (.one level.operand)}
    {rest : Phrase (.steps level)} : (chain first rest).Within limit depth ↔
      first.Within limit depth ∧ rest.Within limit depth := by
  simp [Within, leaves, or_imp, forall_and]

@[simp] theorem within_done : (done : Phrase (.steps level)).Within limit depth := by
  simp [Within, leaves]

@[simp] theorem within_step {operator : Operator} {fits : operator.level = level}
    {operand : Phrase (.one level.operand)} {more : Phrase (.steps level)} :
    (step operator fits operand more).Within limit depth ↔
      operand.Within limit depth ∧ more.Within limit depth := by
  constructor
  · intro h
    exact ⟨fun leaf hleaf => h leaf (by simp [leaves, hleaf]),
      fun leaf hleaf => h leaf (by simp [leaves, hleaf])⟩
  · rintro ⟨hoperand, hmore⟩ leaf hleaf
    rcases List.mem_cons.mp hleaf with rfl | hleaf
    · exact hoperand.depth_le
    · exact (List.mem_append.mp hleaf).elim (hoperand leaf) (hmore leaf)

@[simp] theorem within_signed {sign : Operator} {fits : sign.level = .additive}
    {inner : Phrase (.one .signed)} : (signed sign fits inner).Within limit depth ↔
      depth < limit ∧ inner.Within limit (depth + 1) := by
  constructor
  · intro h
    have hinner : inner.Within limit (depth + 1) := fun leaf hleaf =>
      h leaf (by simp [leaves, hleaf])
    exact ⟨hinner.depth_le, hinner⟩
  · rintro ⟨hdepth, hinner⟩ leaf hleaf
    rcases List.mem_cons.mp hleaf with rfl | hleaf
    · exact Nat.le_of_lt hdepth
    · exact hinner leaf hleaf

@[simp] theorem within_bare {operand : Phrase (.one .operand)} :
    (bare operand).Within limit depth ↔ operand.Within limit depth := Iff.rfl

@[simp] theorem within_number {value : Binary64} :
    (number value).Within limit depth ↔ depth ≤ limit := by
  simp [Within, leaves]

@[simp] theorem within_name {text : String} :
    (name text).Within limit depth ↔ depth ≤ limit := by
  simp [Within, leaves]

@[simp] theorem within_parens {inner : Phrase (.one (.chain .additive))} :
    (parens inner).Within limit depth ↔ depth < limit ∧ inner.Within limit (depth + 1) := by
  constructor
  · intro h
    have hinner : inner.Within limit (depth + 1) := fun leaf hleaf =>
      h leaf (by simp [leaves, hleaf])
    exact ⟨hinner.depth_le, hinner⟩
  · rintro ⟨hdepth, hinner⟩ leaf hleaf
    simp only [leaves, List.mem_cons, List.mem_append, List.not_mem_nil, or_false] at hleaf
    rcases hleaf with rfl | hleaf | rfl
    · exact Nat.le_of_lt hdepth
    · exact hinner leaf hleaf
    · exact Nat.le_of_lt hdepth

end Within

/-- What follows an operand of a chain, a step or what follows the chain, does not continue it. -/
theorem ends_operand {level : Precedence} {after : List Token} (rest : Phrase (.steps level))
    (h : Ends (Kind.steps level).continuedBy after) :
    Ends (Kind.one level.operand).continuedBy (rest.tokens ++ after) := by
  intro token htoken
  cases rest with
  | done =>
    have := h token htoken
    cases level with
    | additive => exact (Bool.or_eq_false_iff.mp this).2
    | multiplicative => rfl
  | step operator fits operand more =>
    cases htoken
    subst fits
    cases operator <;> rfl

theorem continuedBy_operator {level : Precedence} {operator : Operator}
    (fits : operator.level = level) :
    (Kind.steps level).continuedBy operator.token = true := by
  subst fits
  cases operator <;> rfl

theorem operator?_eq_none {level : Precedence} {token : Token}
    (h : (Kind.steps level).continuedBy token = false) : level.operator? token = none := by
  have hfalse : (level.operator? token).isSome = false := by
    cases level with
    | additive => exact (Bool.or_eq_false_iff.mp h).1
    | multiplicative => exact h
  simpa using hfalse

theorem ends_closeParen {kind : Kind} (after : List Token) :
    Ends kind.continuedBy (.closeParen :: after) := by
  apply ends_cons
  cases kind with
  | one n =>
    cases n with
    | chain level => cases level <;> rfl
    | signed => rfl
    | operand => rfl
  | steps level => cases level <;> rfl

/-- An operand does not begin with an operator. -/
theorem head_operand_ne (operand : Phrase (.one .operand)) (sign : Operator)
    (after rest : List Token) : operand.tokens ++ after ≠ sign.token :: rest := by
  cases operand <;> cases sign <;> simp [Operator.token]

/-- Two phrases that begin the same tokens, and that nothing after them continues, are one. -/
theorem unique {kind : Kind} (phrase other : Phrase kind) {after after' : List Token}
    (h : phrase.tokens ++ after = other.tokens ++ after') (ends : Ends kind.continuedBy after)
    (ends' : Ends kind.continuedBy after') : phrase = other ∧ after = after' := by
  induction phrase generalizing after after' with
  | @chain level first rest ihFirst ihRest =>
    cases other with
    | chain first' rest' =>
      simp only [tokens_chain, List.append_assoc] at h
      have hends : Ends (Kind.steps level).continuedBy after := by
        cases level <;> exact ends
      have hends' : Ends (Kind.steps level).continuedBy after' := by
        cases level <;> exact ends'
      obtain ⟨rfl, hrest⟩ :=
        ihFirst first' h (ends_operand rest hends) (ends_operand rest' hends')
      obtain ⟨rfl, hafter⟩ := ihRest rest' hrest hends hends'
      exact ⟨rfl, hafter⟩
  | done =>
    cases other with
    | done => exact ⟨rfl, h⟩
    | step operator fits operand more =>
      rw [tokens_done, List.nil_append, tokens_step, List.cons_append] at h
      subst h
      have hfalse := ends operator.token rfl
      simp [continuedBy_operator fits] at hfalse
  | @step level operator fits operand more ihOperand ihMore =>
    cases other with
    | done =>
      rw [tokens_done, List.nil_append, tokens_step, List.cons_append] at h
      subst h
      have hfalse := ends' operator.token rfl
      simp [continuedBy_operator fits] at hfalse
    | step operator' fits' operand' more' =>
      simp only [tokens_step, List.cons_append, List.append_assoc, List.cons.injEq] at h
      obtain ⟨htoken, h⟩ := h
      obtain rfl := Operator.token_injective htoken
      obtain ⟨rfl, hmore⟩ :=
        ihOperand operand' h (ends_operand more ends) (ends_operand more' ends')
      obtain ⟨rfl, hafter⟩ := ihMore more' hmore ends ends'
      exact ⟨rfl, hafter⟩
  | signed sign fits inner ih =>
    cases other with
    | signed sign' fits' inner' =>
      simp only [tokens_signed, List.cons_append, List.cons.injEq] at h
      obtain ⟨htoken, h⟩ := h
      obtain rfl := Operator.token_injective htoken
      obtain ⟨rfl, hafter⟩ := ih inner' h ends ends'
      exact ⟨rfl, hafter⟩
    | bare operand' => exact absurd h.symm (head_operand_ne operand' sign after' _)
  | bare operand ih =>
    cases other with
    | signed sign' fits' inner' => exact absurd h (head_operand_ne operand sign' after _)
    | bare operand' =>
      obtain ⟨rfl, hafter⟩ := ih operand' h ends ends'
      exact ⟨rfl, hafter⟩
  | number value => cases other <;> simp_all
  | name text => cases other <;> simp_all
  | parens inner ih =>
    cases other with
    | number value' => simp at h
    | name text' => simp at h
    | parens inner' =>
      simp only [tokens_parens, List.cons_append, List.append_assoc, List.cons.injEq,
        List.nil_append, true_and] at h
      obtain ⟨rfl, hafter⟩ := ih inner' h (ends_closeParen _) (ends_closeParen _)
      exact ⟨rfl, by simpa using hafter⟩

end Phrase

end FinalGrades
