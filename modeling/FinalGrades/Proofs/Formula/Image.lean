import FinalGrades.Proofs.Formula.Height
import FinalGrades.Proofs.Formula.Names
import FinalGrades.Proofs.Formula.Spelling
import FinalGrades.Proofs.Number.Notation

/-!
The trees that formulas are read as. They are those in which every chain has steps and operators of
one level, names are in upper case, and numbers are neither undefined nor signed. Written with every
child in parentheses, each of them is read as itself.
-/

namespace FinalGrades

/-- Neither undefined nor with a sign. -/
inductive Binary64.IsUnsigned : Binary64 → Prop
  | infinite : IsUnsigned (.infinite false)
  | finite {units hunits} : IsUnsigned (.finite false units hunits)

/-- An upper case letter or the underscore, then such letters, digits and underscores. -/
structure IsUpperName (name : List Char) : Prop where
  chars : ∀ c ∈ name, (c.isUpper || isDigit c || c = '_') = true
  start : ∃ c ∈ name.head?, (c.isUpper || c = '_') = true

mutual

/-- Chains are not empty, and numbers and names are as formulas can have them. -/
def Formula.WellFormed : Formula → Prop
  | .number value => value.IsUnsigned
  | .variable name => IsUpperName name.toList
  | .negation inner => inner.WellFormed
  | .chain first steps =>
    first.WellFormed ∧ steps ≠ .done ∧ ∃ level, steps.WellFormed level

/-- All operators are of one level. -/
def Steps.WellFormed (level : Precedence) : Steps → Prop
  | .done => True
  | .step operator operand more =>
    operator.level = level ∧ operand.WellFormed ∧ more.WellFormed level

end

mutual

/-- Every number, from the left. -/
def Formula.numbers : Formula → List Binary64
  | .number value => [value]
  | .variable _ => []
  | .negation inner => inner.numbers
  | .chain first steps => first.numbers ++ steps.numbers

def Steps.numbers : Steps → List Binary64
  | .done => []
  | .step _ operand more => operand.numbers ++ more.numbers

end

mutual

/--
The text of a tree with every child in parentheses. How numbers are written is left open, since an
infinite one is not read from the text that it has in messages.
-/
def Formula.written (literal : Binary64 → String) : Formula → String
  | .number value => literal value
  | .variable name => name
  | .negation inner => "-(" ++ inner.written literal ++ ")"
  | .chain first steps => "(" ++ first.written literal ++ ")" ++ steps.written literal

def Steps.written (literal : Binary64 → String) : Steps → String
  | .done => ""
  | .step operator operand more =>
    operator.symbol ++ "(" ++ operand.written literal ++ ")" ++ more.written literal

end

/-! ### Trees that are read -/

namespace Binary64

theorem isUnsigned_ofRatio (num den : Nat) : (ofRatio false num den).IsUnsigned := by
  unfold ofRatio
  split
  · exact .finite
  · exact .infinite

theorem isUnsigned_ofNat (n : Nat) : (ofNat n).IsUnsigned := by
  unfold ofNat
  exact isUnsigned_ofRatio _ _

theorem isUnsigned_ofDecimal (digits : Nat) (exponent : Int) :
    (ofDecimal false digits exponent).IsUnsigned :=
  ofDecimal_eq false digits exponent ▸ isUnsigned_ofRatio _ _

end Binary64

/-- What the tree of a token has to be for the tree of a formula to be well-formed. -/
def Token.WellFormed : Token → Prop
  | .number value => value.IsUnsigned
  | .name text => IsUpperName text.toList
  | _ => True

theorem Token.wellFormed_of_symbol? {c : Char} {token : Token} (h : symbol? c = some token) :
    token.WellFormed := by
  obtain ⟨hname, hnumber⟩ := plain_of_symbol? h
  cases token with
  | number value => cases hnumber
  | name text => cases hname
  | _ => exact trivial

namespace Lexeme

variable {span text : List Char} {position : Nat} {lexeme : Lexeme} {lexemes : List Lexeme}

theorem IsName.map_toUpper (h : IsName span) : IsUpperName (span.map Char.toUpper) := by
  constructor
  · intro c hc
    obtain ⟨d, hd, rfl⟩ := List.mem_map.mp hc
    exact isUpper_toUpper (h.chars d hd)
  · obtain ⟨c, hc, hstart⟩ := h.start
    have hupper := isUpper_toUpper (isNameChar_of_isNameStart hstart)
    rw [isDigit_toUpper hstart, Bool.or_false] at hupper
    exact ⟨c.toUpper, by rw [List.head?_map, Option.mem_def.mp hc]; rfl, hupper⟩

theorem Lexed.wellFormed (h : Lexed position text lexemes) (hmem : lexeme ∈ lexemes) :
    lexeme.token.WellFormed := by
  rcases h.shape hmem with ⟨c, hsymbol, _⟩ | ⟨_, htoken⟩ | ⟨hname, htoken⟩
  · exact Token.wellFormed_of_symbol? hsymbol
  · rw [htoken]
    exact Binary64.isUnsigned_ofDecimal _ _
  · rw [htoken, Token.WellFormed, String.toList_ofList]
    exact hname.map_toUpper

end Lexeme

def Kind.WellFormed : (kind : Kind) → kind.Value → Prop
  | .one _, formula => Formula.WellFormed formula
  | .steps level, rest => Steps.WellFormed level rest

namespace Phrase

theorem wellFormed_chained {level : Precedence} {first : Formula} {steps : Steps}
    (hfirst : first.WellFormed) (hsteps : steps.WellFormed level) :
    (Formula.chained first steps).WellFormed := by
  cases steps with
  | done => exact hfirst
  | step operator operand more => exact ⟨hfirst, nofun, level, hsteps⟩

/-- A tree has nothing but well-formed tokens to be made of, and only chains with steps. -/
theorem wellFormed_tree {kind : Kind} (phrase : Phrase kind)
    (h : ∀ token ∈ phrase.tokens, token.WellFormed) : kind.WellFormed phrase.tree := by
  induction phrase with
  | chain first rest ihFirst ihRest =>
    rw [tokens_chain, List.forall_mem_append] at h
    exact wellFormed_chained (ihFirst h.1) (ihRest h.2)
  | done => exact trivial
  | step operator fits operand more ihOperand ihMore =>
    rw [tokens_step, List.forall_mem_cons, List.forall_mem_append] at h
    exact ⟨fits, ihOperand h.2.1, ihMore h.2.2⟩
  | signed sign fits inner ih =>
    rw [tokens_signed, List.forall_mem_cons] at h
    rw [tree]
    split <;> exact ih h.2
  | bare operand ih => exact ih h
  | number value => exact h _ List.mem_cons_self
  | name text => exact h _ List.mem_cons_self
  | parens inner ih =>
    rw [tokens_parens, List.forall_mem_cons, List.forall_mem_append] at h
    exact ih h.2.1

end Phrase

theorem Formula.wellFormed_of_parse {text : String} {limits : Limits} {tree : Formula}
    (h : parse text limits = .ok tree) : tree.WellFormed := by
  obtain ⟨lexemes, hlexed, derivation, htokens, _, rfl⟩ := exists_derivation h
  refine derivation.wellFormed_tree fun token htoken => ?_
  rw [htokens] at htoken
  obtain ⟨lexeme, hmem, rfl⟩ := List.mem_map.mp htoken
  exact hlexed.wellFormed hmem

mutual

theorem Formula.isUnsigned_of_mem : (tree : Formula) → tree.WellFormed →
    ∀ value ∈ tree.numbers, value.IsUnsigned
  | .number _, h => by
    rw [Formula.numbers]
    exact List.forall_mem_singleton.mpr h
  | .variable _, _ => by simp [Formula.numbers]
  | .negation inner, h => inner.isUnsigned_of_mem h
  | .chain first steps, ⟨hfirst, _, level, hsteps⟩ => by
    rw [Formula.numbers, List.forall_mem_append]
    exact ⟨first.isUnsigned_of_mem hfirst, steps.isUnsigned_of_mem level hsteps⟩

theorem Steps.isUnsigned_of_mem : (steps : Steps) → (level : Precedence) →
    steps.WellFormed level → ∀ value ∈ steps.numbers, value.IsUnsigned
  | .done, _, _ => by simp [Steps.numbers]
  | .step _ operand more, level, ⟨_, hoperand, hmore⟩ => by
    rw [Steps.numbers, List.forall_mem_append]
    exact ⟨operand.isUnsigned_of_mem hoperand, more.isUnsigned_of_mem level hmore⟩

end

/-! ### Trees that are written -/

namespace IsUpperName

variable {name : List Char}

theorem isName (h : IsUpperName name) : Lexeme.IsName name := by
  obtain ⟨c, hc, hstart⟩ := h.start
  exact ⟨fun d hd => (isNameChar_of_isUpper (h.chars d hd)).1, c, hc, isNameStart_of_isUpper hstart⟩

theorem map_toUpper (h : IsUpperName name) : name.map Char.toUpper = name :=
  (List.map_congr_left fun c hc => (isNameChar_of_isUpper (h.chars c hc)).2).trans (List.map_id _)

end IsUpperName

/-- The text is a literal, and is read as the number. -/
def Binary64.HasLiteral (value : Binary64) (text : String) : Prop :=
  Lexeme.IsLiteral text.toList ∧ Lexeme.literalValue text.toList = value

namespace Phrase

section Enclosed

variable {limit depth : Nat} {inner : Derivation}

/-- A formula in parentheses as an operand of a chain. -/
def enclosed (inner : Derivation) : (level : Precedence) → Phrase (.one level.operand)
  | .additive => product (.bare (.parens inner)) .done
  | .multiplicative => .bare (.parens inner)

@[simp] theorem tokens_enclosed (level : Precedence) :
    (enclosed inner level).tokens = .openParen :: (inner.tokens ++ [.closeParen]) := by
  cases level with
  | additive => simp [enclosed]
  | multiplicative => exact tokens_parens inner

@[simp] theorem tree_enclosed (level : Precedence) : (enclosed inner level).tree = inner.tree := by
  cases level <;> rfl

@[simp] theorem within_enclosed (level : Precedence) :
    (enclosed inner level).Within limit depth ↔
      depth < limit ∧ inner.Within limit (depth + 1) := by
  cases level with
  | additive => simp [enclosed]
  | multiplicative => exact within_parens

variable {level : Precedence} {chain : Phrase (.one (.chain level))}

/-- A chain of either level as a formula. -/
def asSum : {level : Precedence} → Phrase (.one (.chain level)) → Derivation
  | .additive, chain => chain
  | .multiplicative, chain => sum chain .done

@[simp] theorem tokens_asSum : chain.asSum.tokens = chain.tokens := by
  cases level with
  | additive => rfl
  | multiplicative => exact tokens_sum.trans (List.append_nil _)

@[simp] theorem tree_asSum : chain.asSum.tree = chain.tree := by
  cases level <;> rfl

@[simp] theorem within_asSum : chain.asSum.Within limit depth ↔ chain.Within limit depth := by
  cases level with
  | additive => rfl
  | multiplicative => exact within_sum.trans (and_iff_left within_done)

end Enclosed

end Phrase

section Written

open Lexeme Phrase

variable {literal : Binary64 → String}

theorem Operator.spells_symbol (operator : Operator) {text : List Char} {tokens : List Token}
    (h : Spells text tokens) :
    Spells (operator.symbol.toList ++ text) (operator.token :: tokens) := by
  cases operator <;> exact h.symbol rfl

mutual

/-- The text with every child in parentheses spells a derivation of the tree. -/
theorem Formula.exists_written : (tree : Formula) → tree.WellFormed →
    (∀ value ∈ tree.numbers, value.HasLiteral (literal value)) →
    ∃ derivation : Derivation, Spells (tree.written literal).toList derivation.tokens ∧
      derivation.tree = tree ∧ derivation.Within (2 * tree.height) 0
  | .number value, _, hnumbers => by
    obtain ⟨hliteral, hvalue⟩ := hnumbers value List.mem_cons_self
    refine ⟨single (.bare (.number value)), ?_, rfl, by simp⟩
    have hspells := spells_nil.number hliteral (ends_nil _)
    rw [hvalue, List.append_nil] at hspells
    simpa [Formula.written] using hspells
  | .variable text, hname, _ => by
    refine ⟨single (.bare (.name text)), ?_, rfl, by simp⟩
    have hspells := spells_nil.name hname.isName (ends_nil _)
    rw [hname.map_toUpper, String.ofList_toList, List.append_nil] at hspells
    simpa [Formula.written] using hspells
  | .negation inner, hinner, hnumbers => by
    obtain ⟨derivation, hspells, htree, hwithin⟩ := inner.exists_written hinner hnumbers
    refine ⟨single (.signed .minus Operator.level_minus (.bare (.parens derivation))), ?_, ?_, ?_⟩
    · have hminus := (hspells.enclosed spells_nil).symbol (c := '-') rfl
      simpa [Formula.written, Operator.token] using hminus
    · rw [← htree]
      rfl
    · have hdeeper : derivation.Within (2 * inner.height + 1 + 1) 2 :=
        within_succ.mpr (within_succ.mpr hwithin)
      simpa [Formula.height, Nat.mul_add] using hdeeper
  | .chain first steps, ⟨hfirst, hne, level, hsteps⟩, hnumbers => by
    rw [Formula.numbers, List.forall_mem_append] at hnumbers
    obtain ⟨derivation, hspells, htree, hwithin⟩ := first.exists_written hfirst hnumbers.1
    obtain ⟨rest, hrest, hrestTree, hrestWithin⟩ := steps.exists_written level hsteps hnumbers.2
    refine ⟨(Phrase.chain (enclosed derivation level) rest).asSum, ?_, ?_, ?_⟩
    · simpa [Formula.written] using hspells.enclosed hrest
    · rw [tree_asSum, tree, tree_enclosed, htree, hrestTree]
      cases steps with
      | done => exact absurd rfl hne
      | step operator operand more => rfl
    · have hdeeper : derivation.Within (2 * first.height + 1) 1 := within_succ.mpr hwithin
      rw [within_asSum, within_chain, within_enclosed, Formula.height]
      exact ⟨⟨by omega, hdeeper.mono (by omega)⟩, hrestWithin.mono (by omega)⟩

theorem Steps.exists_written : (steps : Steps) → (level : Precedence) → steps.WellFormed level →
    (∀ value ∈ steps.numbers, value.HasLiteral (literal value)) →
    ∃ rest : Phrase (.steps level), Spells (steps.written literal).toList rest.tokens ∧
      rest.tree = steps ∧ rest.Within (2 * steps.height + 1) 0
  | .done, level, _, _ => ⟨.done, spells_nil, rfl, within_done⟩
  | .step operator operand more, level, ⟨fits, hoperand, hmore⟩, hnumbers => by
    rw [Steps.numbers, List.forall_mem_append] at hnumbers
    obtain ⟨derivation, hspells, htree, hwithin⟩ := operand.exists_written hoperand hnumbers.1
    obtain ⟨rest, hrest, hrestTree, hrestWithin⟩ := more.exists_written level hmore hnumbers.2
    refine ⟨.step operator fits (enclosed derivation level) rest, ?_, ?_, ?_⟩
    · simpa [Steps.written] using operator.spells_symbol (hspells.enclosed hrest)
    · rw [tree, tree_enclosed, htree, hrestTree]
    · have hdeeper : derivation.Within (2 * operand.height + 1) 1 := within_succ.mpr hwithin
      rw [within_step, within_enclosed, Steps.height]
      exact ⟨⟨by omega, hdeeper.mono (by omega)⟩, hrestWithin.mono (by omega)⟩

end

theorem Formula.parse_written {tree : Formula} (h : tree.WellFormed)
    (hnumbers : ∀ value ∈ tree.numbers, value.HasLiteral (literal value)) {limits : Limits}
    (hlength : (tree.written literal).length ≤ limits.maxLength)
    (hdepth : 2 * tree.height ≤ limits.maxDepth) :
    parse (tree.written literal) limits = .ok tree := by
  obtain ⟨derivation, hspells, htree, hwithin⟩ := tree.exists_written h hnumbers
  rw [parse_of_spells hspells hlength (hwithin.mono hdepth), htree]

end Written

namespace Binary64

/-- A literal of a number without a sign: its digits, or those of one too large for a double. -/
def literal : Binary64 → String
  | .infinite _ => String.ofList (digitsOf (10 ^ 309))
  | value => value.plain

theorem hasLiteral_plain {value : Binary64} (h : value.IsUnsigned)
    (hfinite : value.isFinite = true) : value.HasLiteral value.plain := by
  cases h with
  | infinite => cases hfinite
  | @finite units hunits =>
    obtain ⟨span, htext, hliteral, hvalue⟩ := plain_finite false hunits
    have hplain : (finite false units hunits).plain.toList = span := by
      rw [htext, signText, String.toList_append, String.toList_ofList]
      rfl
    rw [HasLiteral, hplain]
    exact ⟨hliteral, hvalue⟩

theorem hasLiteral_literal {value : Binary64} (h : value.IsUnsigned) :
    value.HasLiteral value.literal := by
  cases h with
  | infinite =>
    obtain ⟨hliteral, hvalue⟩ := Lexeme.isLiteral_digitsOf (10 ^ 309)
    rw [HasLiteral, literal, String.toList_ofList]
    refine ⟨hliteral, hvalue.trans ?_⟩
    exact ofRatio_eq_infinite (by decide +kernel)
  | finite => exact hasLiteral_plain .finite rfl

end Binary64

namespace Formula

/--
A tree is that of some formula exactly if it is well-formed. If its numbers are finite, the text of
the tree with every child in parentheses is such a formula, under all limits that are wide enough.
-/
theorem exists_parse_iff_wellFormed (tree : Formula) :
    ((∃ text limits, parse text limits = .ok tree) ↔ tree.WellFormed) ∧
      (tree.WellFormed → (∀ value ∈ tree.numbers, value.isFinite = true) → ∀ limits : Limits,
        (tree.written Binary64.plain).length ≤ limits.maxLength →
        2 * tree.height ≤ limits.maxDepth →
        parse (tree.written Binary64.plain) limits = .ok tree) := by
  refine ⟨⟨fun ⟨_, _, h⟩ => wellFormed_of_parse h, fun h => ?_⟩, fun h hfinite limits => ?_⟩
  · -- under the limits that the text itself needs
    have hnumbers : ∀ value ∈ tree.numbers, value.HasLiteral value.literal := fun value hvalue =>
      Binary64.hasLiteral_literal (tree.isUnsigned_of_mem h value hvalue)
    exact ⟨tree.written Binary64.literal, ⟨_, _⟩,
      parse_written h hnumbers (Nat.le_refl _) (Nat.le_refl _)⟩
  · exact parse_written h fun value hvalue =>
      Binary64.hasLiteral_plain (tree.isUnsigned_of_mem h value hvalue) (hfinite value hvalue)

/-- A quotient below a sign, with a name and a number for operands. -/
theorem exists_parse_iff_wellFormed_quotient :
    parse "-((P1)/(2))" ⟨11, 6⟩ =
      .ok (.negation (.chain (.variable "P1") (.step .over (.number 2) .done))) := by
  have hfinite : (2 : Binary64).isFinite = true := by decide +kernel
  have hunsigned : (2 : Binary64).IsUnsigned := Binary64.isUnsigned_ofNat 2
  have hname : IsUpperName "P1".toList :=
    ⟨List.forall_mem_cons.mpr ⟨rfl, List.forall_mem_singleton.mpr rfl⟩, 'P', rfl, rfl⟩
  have hplain : (2 : Binary64).plain = "2" := by decide +kernel
  have hwritten : written Binary64.plain
      (.negation (.chain (.variable "P1") (.step .over (.number 2) .done))) = "-((P1)/(2))" := by
    rw [written, written, written, Steps.written, Steps.written, written, hplain]
    rfl
  have hwellFormed : WellFormed
      (.negation (.chain (.variable "P1") (.step .over (.number 2) .done))) :=
    ⟨hname, by simp, .multiplicative, rfl, hunsigned, trivial⟩
  rw [← hwritten]
  refine (exists_parse_iff_wellFormed _).2 hwellFormed ?_ ⟨11, 6⟩ ?_ (by decide)
  · simpa [numbers, Steps.numbers] using hfinite
  · rw [hwritten]
    decide

end Formula

end FinalGrades
