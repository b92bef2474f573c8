import FinalGrades.Proofs.Formula.Names
import FinalGrades.Proofs.Formula.Parsing
import FinalGrades.Proofs.Formula.Value

/-!
The ordinary reading of a formula, with binary operators that nest to the left. It has the tokens
and the value of the flat reading, and each formula has exactly one.
-/

namespace FinalGrades

open Attempt

/--
Derivations of the left-recursive grammar: a chain is an operand, or a chain, an operator of its
level and an operand.
-/
inductive Nested : Nonterminal → Type where
  | single {level : Precedence} (operand : Nested level.operand) : Nested (.chain level)
  | apply {level : Precedence} (left : Nested (.chain level)) (operator : Operator)
      (fits : operator.level = level) (right : Nested level.operand) : Nested (.chain level)
  | signed (sign : Operator) (fits : sign.level = .additive) (inner : Nested .signed) :
      Nested .signed
  | number (value : Binary64) : Nested .signed
  | name (text : String) : Nested .signed
  | parens (inner : Nested (.chain .additive)) : Nested .signed

namespace Nested

def tokens {n : Nonterminal} : Nested n → List Token
  | .single operand => operand.tokens
  | .apply left operator _ right => left.tokens ++ operator.token :: right.tokens
  | .signed sign _ inner => sign.token :: inner.tokens
  | .number value => [.number value]
  | .name text => [.name text]
  | .parens inner => .openParen :: (inner.tokens ++ [.closeParen])

/-- Each operator is applied once, to the results of its two sides, the left one first. -/
def value {n : Nonterminal} (bindings : Bindings) : Nested n → Except FormulaError Binary64
  | .single operand => operand.value bindings
  | .apply left operator _ right => do
    let x ← left.value bindings
    let y ← right.value bindings
    return operator.apply x y
  | .signed sign _ inner => do
    let x ← inner.value bindings
    return if sign = .minus then -x else x
  | .number value => .ok value
  | .name text =>
    match bindings.lookup text with
    | some value => .ok value
    | none => .error (.unboundVariable text)
  | .parens inner => inner.value bindings

end Nested

namespace Phrase

variable {level : Precedence} {bindings : Bindings}

def append : Phrase (.steps level) → Phrase (.steps level) → Phrase (.steps level)
  | .done, more => more
  | .step operator fits operand rest, more => .step operator fits operand (rest.append more)

/-- A chain with more steps at its end. -/
def extend : Phrase (.one (.chain level)) → Phrase (.steps level) → Phrase (.one (.chain level))
  | .chain first rest, more => .chain first (rest.append more)

theorem append_done : (rest : Phrase (.steps level)) → rest.append .done = rest
  | .done => by rw [append]
  | .step operator fits operand rest => by rw [append, append_done rest]

theorem append_assoc : (a b c : Phrase (.steps level)) →
    (a.append b).append c = a.append (b.append c)
  | .done, b, c => by rw [append, append]
  | .step operator fits operand rest, b, c => by rw [append, append, append, append_assoc rest b c]

theorem tokens_append : (rest more : Phrase (.steps level)) →
    (rest.append more).tokens = rest.tokens ++ more.tokens
  | .done, more => by rw [append, tokens_done, List.nil_append]
  | .step operator fits operand rest, more => by simp [append, tokens_append rest more]

theorem tokens_extend (chain : Phrase (.one (.chain level))) (more : Phrase (.steps level)) :
    (chain.extend more).tokens = chain.tokens ++ more.tokens := by
  cases chain with
  | chain first rest => simp [extend, tokens_append]

theorem extend_extend (chain : Phrase (.one (.chain level))) (a b : Phrase (.steps level)) :
    (chain.extend a).extend b = chain.extend (a.append b) := by
  cases chain with
  | chain first rest => simp only [extend, append_assoc]

theorem value_append (total : Binary64) : (rest more : Phrase (.steps level)) →
    Steps.value bindings total (rest.append more).tree =
      Steps.value bindings total rest.tree >>= fun result => Steps.value bindings result more.tree
  | .done, more => by rw [append, tree, Steps.value, ok_bind]
  | .step operator fits operand rest, more => by
    simp only [append, tree, Steps.value, bind_assoc]
    congr 1
    funext x
    exact value_append _ rest more

theorem value_chained (first : Formula) (steps : Steps) :
    (Formula.chained first steps).value bindings =
      first.value bindings >>= fun total => steps.value bindings total := by
  cases steps with
  | done =>
    cases h : first.value bindings <;> simp [Formula.chained, Steps.value, h]
  | step operator operand more =>
    show (Formula.chain first (.step operator operand more)).value bindings = _
    rw [Formula.value]

theorem value_extend (chain : Phrase (.one (.chain level))) (more : Phrase (.steps level)) :
    Formula.value bindings (chain.extend more).tree =
      Formula.value bindings chain.tree >>= fun total => Steps.value bindings total more.tree := by
  cases chain with
  | chain first rest =>
    simp only [extend, tree, value_chained, bind_assoc]
    congr 1
    funext total
    exact value_append total rest more

theorem append_step_ne_done {operator : Operator} {fits : operator.level = level}
    {operand : Phrase (.one level.operand)} {more : Phrase (.steps level)}
    (rest : Phrase (.steps level)) : rest.append (.step operator fits operand more) ≠ .done := by
  cases rest <;> simp [append]

theorem append_step_injective {operator operator' : Operator} {fits : operator.level = level}
    {fits' : operator'.level = level} {right right' : Phrase (.one level.operand)} :
    (rest rest' : Phrase (.steps level)) →
    rest.append (.step operator fits right .done) =
      rest'.append (.step operator' fits' right' .done) →
    rest = rest' ∧ operator = operator' ∧ right = right'
  | .done, .done, h => by
    rw [append, append, step.injEq] at h
    exact ⟨rfl, h.1, h.2.1⟩
  | .done, .step _ _ _ rest', h => by
    rw [append, append, step.injEq] at h
    exact absurd h.2.2.symm (append_step_ne_done rest')
  | .step _ _ _ rest, .done, h => by
    rw [append, append, step.injEq] at h
    exact absurd h.2.2 (append_step_ne_done rest)
  | .step _ _ _ rest, .step _ _ _ rest', h => by
    rw [append, append, step.injEq] at h
    obtain ⟨rfl, rfl, h⟩ := h
    obtain ⟨rfl, hstep⟩ := append_step_injective rest rest' h
    exact ⟨rfl, hstep⟩

theorem extend_step_ne {operator : Operator} {fits : operator.level = level}
    {first operand : Phrase (.one level.operand)} (chain : Phrase (.one (.chain level))) :
    chain.extend (.step operator fits operand .done) ≠ .chain first .done := by
  cases chain with
  | chain front rest =>
    rw [extend]
    intro h
    exact append_step_ne_done rest (chain.inj h).2

theorem extend_step_injective {operator operator' : Operator} {fits : operator.level = level}
    {fits' : operator'.level = level} {right right' : Phrase (.one level.operand)}
    {left left' : Phrase (.one (.chain level))}
    (h : left.extend (.step operator fits right .done) =
      left'.extend (.step operator' fits' right' .done)) :
    left = left' ∧ operator = operator' ∧ right = right' := by
  cases left with
  | chain first rest =>
    cases left' with
    | chain first' rest' =>
      obtain ⟨rfl, hrest⟩ := chain.inj h
      obtain ⟨rfl, hstep⟩ := append_step_injective rest rest' hrest
      exact ⟨rfl, hstep⟩

end Phrase

namespace Nested

variable {bindings : Bindings}

/-- The flat derivation with the same tokens. -/
def phrase {n : Nonterminal} : Nested n → Phrase (.one n)
  | .single operand => .chain operand.phrase .done
  | .apply left operator fits right => left.phrase.extend (.step operator fits right.phrase .done)
  | .signed sign fits inner => .signed sign fits inner.phrase
  | .number value => .bare (.number value)
  | .name text => .bare (.name text)
  | .parens inner => .bare (.parens inner.phrase)

theorem tokens_phrase {n : Nonterminal} (nested : Nested n) :
    nested.phrase.tokens = nested.tokens := by
  induction nested with
  | single operand ih => simp [phrase, tokens, ih]
  | apply left operator fits right ihLeft ihRight =>
    simp [phrase, tokens, Phrase.tokens_extend, ihLeft, ihRight]
  | signed sign fits inner ih => simp [phrase, tokens, ih]
  | number value => rfl
  | name text => rfl
  | parens inner ih => simp [phrase, tokens, ih]

theorem value_phrase {n : Nonterminal} (nested : Nested n) :
    Formula.value bindings nested.phrase.tree = nested.value bindings := by
  induction nested with
  | single operand ih =>
    rw [phrase, Phrase.tree, Phrase.tree, Formula.chained, ih, value]
  | apply left operator fits right ihLeft ihRight =>
    rw [phrase, Phrase.value_extend, ihLeft, value]
    simp only [Phrase.tree, Steps.value, ihRight]
    rfl
  | signed sign fits inner ih =>
    cases sign with
    | minus => simp [phrase, Phrase.tree, Formula.value, value, ih]
    | _ => simp [phrase, Phrase.tree, value, ih]
  | number value => rfl
  | name text => rfl
  | parens inner ih => exact ih

theorem phrase_injective {n : Nonterminal} {a b : Nested n} (h : a.phrase = b.phrase) : a = b := by
  induction a with
  | single operand ih =>
    cases b with
    | single operand' =>
      rw [phrase, phrase, Phrase.chain.injEq] at h
      rw [ih h.1]
    | apply left operator fits right => exact absurd h.symm (Phrase.extend_step_ne left.phrase)
  | apply left operator fits right ihLeft ihRight =>
    cases b with
    | single operand' => exact absurd h (Phrase.extend_step_ne left.phrase)
    | apply left' operator' fits' right' =>
      obtain ⟨hleft, rfl, hright⟩ := Phrase.extend_step_injective h
      rw [ihLeft hleft, ihRight hright]
  | signed sign fits inner ih =>
    cases b with
    | signed sign' fits' inner' =>
      simp only [phrase, Phrase.signed.injEq] at h
      obtain ⟨rfl, hinner⟩ := h
      rw [ih hinner]
    | _ => cases h
  | number value => cases b <;> cases h; rfl
  | name text => cases b <;> cases h; rfl
  | parens inner ih =>
    cases b with
    | parens inner' =>
      simp only [phrase, Phrase.bare.injEq, Phrase.parens.injEq] at h
      rw [ih h]
    | _ => cases h

/-- A nested derivation can be found for a phrase, and extended by steps. -/
def Covers : {kind : Kind} → Phrase kind → Prop
  | .one (.chain _), phrase => ∃ nested, Nested.phrase nested = phrase
  | .one .signed, phrase => ∃ nested, Nested.phrase nested = phrase
  | .one .operand, phrase => ∃ nested, Nested.phrase nested = .bare phrase
  | .steps _, steps => ∀ left, ∃ nested, Nested.phrase nested = (Nested.phrase left).extend steps

theorem covers {kind : Kind} (phrase : Phrase kind) : Covers phrase := by
  induction phrase with
  | @chain level first rest ihFirst ihRest =>
    have hfirst : ∃ nested : Nested level.operand, nested.phrase = first := by
      cases level <;> exact ihFirst
    obtain ⟨nested, rfl⟩ := hfirst
    obtain ⟨whole, hwhole⟩ := ihRest (.single nested)
    refine ⟨whole, hwhole.trans ?_⟩
    rw [Nested.phrase, Phrase.extend, Phrase.append]
  | done =>
    intro left
    refine ⟨left, ?_⟩
    cases left.phrase with
    | chain first rest => rw [Phrase.extend, Phrase.append_done]
  | @step level operator fits operand more ihOperand ihMore =>
    intro left
    have hoperand : ∃ nested : Nested level.operand, nested.phrase = operand := by
      cases level <;> exact ihOperand
    obtain ⟨right, rfl⟩ := hoperand
    obtain ⟨whole, hwhole⟩ := ihMore (.apply left operator fits right)
    refine ⟨whole, hwhole.trans ?_⟩
    rw [Nested.phrase, Phrase.extend_extend, Phrase.append, Phrase.append]
  | signed sign fits inner ih =>
    obtain ⟨nested, rfl⟩ := ih
    exact ⟨.signed sign fits nested, rfl⟩
  | bare operand ih => exact ih
  | number value => exact ⟨.number value, rfl⟩
  | name text => exact ⟨.name text, rfl⟩
  | parens inner ih =>
    obtain ⟨nested, rfl⟩ := ih
    exact ⟨.parens nested, rfl⟩

theorem exists_of_derivation (derivation : Derivation) :
    ∃ nested : Nested (.chain .additive), nested.phrase = derivation :=
  covers derivation

theorem tokens_injective {a b : Nested (.chain .additive)} (h : a.tokens = b.tokens) : a = b := by
  apply phrase_injective
  apply Formula.derivation_unique
  rw [tokens_phrase, tokens_phrase, h]

end Nested

namespace Formula

/--
The tree of a text has the value of the ordinary reading of its tokens, whatever the bindings. If
a name has no binding, the leftmost such name of the text is reported.
-/
theorem value_eq_nested {text : String} {limits : Limits} {tree : Formula}
    (h : parse text limits = .ok tree) :
    ∃ lexemes, Lexeme.Lexed 0 text.toList lexemes ∧ ∃ reading : Nested (.chain .additive),
      reading.tokens = lexemes.map (·.token) ∧
        (∀ other : Nested (.chain .additive),
          other.tokens = lexemes.map (·.token) → other = reading) ∧
        ∀ bindings : Bindings, tree.value bindings = reading.value bindings ∧
          Settles bindings ((lexemes.map (·.token)).filterMap Token.name?)
            (tree.value bindings) := by
  obtain ⟨lexemes, hlexed, derivation, htokens, _, rfl⟩ := exists_derivation h
  obtain ⟨reading, rfl⟩ := Nested.exists_of_derivation derivation
  have hreading : reading.tokens = lexemes.map (·.token) := by
    rw [← Nested.tokens_phrase, htokens]
  refine ⟨lexemes, hlexed, reading, hreading,
    fun other hother => Nested.tokens_injective (hother.trans hreading.symm), fun bindings => ?_⟩
  refine ⟨Nested.value_phrase reading, ?_⟩
  rw [← htokens, ← Phrase.occurrences_tree]
  exact Formula.settles bindings _

/-- The sign goes to the first name alone, and the steps are taken from the left. -/
theorem value_eq_nested_signs :
    ∃ tree, parse "-a/b-c" {} = .ok tree ∧
      tree.value [("A", 6), ("B", 3), ("C", 1)] = .ok (-3) ∧
      tree.value [("A", 6)] = .error (.unboundVariable "B") ∧
      ∃ lexemes, Lexeme.Lexed 0 "-a/b-c".toList lexemes ∧
        ∃ reading : Nested (.chain .additive), reading.tokens = lexemes.map (·.token) ∧
          (∀ other : Nested (.chain .additive),
            other.tokens = lexemes.map (·.token) → other = reading) ∧
          ∀ bindings : Bindings, tree.value bindings = reading.value bindings ∧
            Settles bindings ((lexemes.map (·.token)).filterMap Token.name?)
              (tree.value bindings) := by
  have hscan : (Lexeme.scan 0 "-a/b-c".toList).toOption =
      some [⟨.minus, ['-'], 0⟩, ⟨.name "A", ['a'], 1⟩, ⟨.over, ['/'], 2⟩, ⟨.name "B", ['b'], 3⟩,
        ⟨.minus, ['-'], 4⟩, ⟨.name "C", ['c'], 5⟩] := by
    decide +kernel
  have h : parse "-a/b-c" {} = .ok _ :=
    parse_of_derivation (by decide) (Lexeme.lexed_of_scan (eq_ok_of_toOption hscan))
      (.chain (.chain (.signed .minus rfl (.bare (.name "A")))
          (.step .over rfl (.bare (.name "B")) .done))
        (.step .minus rfl (.chain (.bare (.name "C")) .done) .done)) rfl
      (by simp [Phrase.Within, Phrase.leaves])
  exact ⟨_, h, by decide +kernel, by decide +kernel, value_eq_nested h⟩

end Formula

end FinalGrades
