import FinalGrades.Proofs.Formula.Parsing

/-!
Formulas that are put together from the texts of their parts: operands with an operator between
them, and a text that spells the tokens of a derivation is read as its tree.
-/

namespace FinalGrades

namespace Lexeme

variable {text span rest : List Char} {tokens more : List Token} {token : Token} {c : Char}

/-- The text is cut into lexemes with these tokens, wherever it stands. -/
def Spells (text : List Char) (tokens : List Token) : Prop :=
  ∀ position, ∃ lexemes, Lexed position text lexemes ∧ lexemes.map (·.token) = tokens

theorem spells_nil : Spells [] [] := fun _ => ⟨[], .done, rfl⟩

theorem Spells.prepend_blanks {blanks : List Char} (h : Spells text tokens)
    (hblanks : ∀ c ∈ blanks, Text.isBlank c = true) : Spells (blanks ++ text) tokens := by
  induction blanks with
  | nil => exact h
  | cons c blanks ih =>
    obtain ⟨hc, hrest⟩ := List.forall_mem_cons.mp hblanks
    intro position
    obtain ⟨lexemes, hlexed, htokens⟩ := ih hrest (position + 1)
    exact ⟨lexemes, .blank hc hlexed, htokens⟩

theorem Spells.blank (h : Spells text tokens) : Spells (' ' :: text) tokens :=
  h.prepend_blanks (List.forall_mem_singleton.mpr (rfl : Text.isBlank ' ' = true))

theorem Spells.symbol (h : Spells text tokens) (hc : Token.symbol? c = some token) :
    Spells (c :: text) (token :: tokens) := by
  intro position
  obtain ⟨lexemes, hlexed, htokens⟩ := h (position + 1)
  exact ⟨_, .symbol hc hlexed, congrArg (token :: ·) htokens⟩

theorem Spells.number (h : Spells rest tokens) (hspan : IsLiteral span)
    (ends : Ends isLiteralChar rest) :
    Spells (span ++ rest) (.number (literalValue span) :: tokens) := by
  intro position
  obtain ⟨lexemes, hlexed, htokens⟩ := h (position + span.length)
  exact ⟨_, .number hspan ends hlexed, congrArg (_ :: ·) htokens⟩

theorem Spells.name (h : Spells rest tokens) (hspan : IsName span)
    (ends : Ends isNameChar rest) :
    Spells (span ++ rest) (.name (String.ofList (span.map Char.toUpper)) :: tokens) := by
  intro position
  obtain ⟨lexemes, hlexed, htokens⟩ := h (position + span.length)
  exact ⟨_, .name hspan ends hlexed, congrArg (_ :: ·) htokens⟩

/-- The text spells the tokens before anything that does not lengthen a name. -/
def Writes (text : List Char) (tokens : List Token) : Prop :=
  ∀ rest more, Ends isNameChar rest → Spells rest more → Spells (text ++ rest) (tokens ++ more)

end Lexeme

namespace Operator

theorem level_plus : plus.level = .additive := rfl

theorem level_minus : minus.level = .additive := rfl

theorem level_times : times.level = .multiplicative := rfl

theorem level_over : over.level = .multiplicative := rfl

end Operator

namespace Steps

/-- The same operator before each of the operands. -/
def all (operator : Operator) : List Formula → Steps
  | [] => .done
  | operand :: more => .step operator operand (all operator more)

end Steps

/-- The operands with a plus between them. -/
def Formula.sum : List Formula → Formula
  | [] => .number 0
  | first :: rest => chained first (Steps.all .plus rest)

namespace Phrase

open Lexeme

/-- Derivations of the operands of a sum. -/
abbrev Term := Phrase (.one Precedence.additive.operand)

/-- Operands that a plus stands before. -/
def terms : List Term → Phrase (.steps .additive)
  | [] => .done
  | operand :: more => .step .plus Operator.level_plus operand (terms more)

/-- Chains of either level, with their operands said to be what they are. -/
def sum (first : Term) (rest : Phrase (.steps .additive)) : Derivation := .chain first rest

def product (first : Phrase (.one .signed)) (rest : Phrase (.steps .multiplicative)) : Term :=
  @chain .multiplicative first rest

def factor (operator : Operator) (fits : operator.level = .multiplicative)
    (operand : Phrase (.one .signed)) (more : Phrase (.steps .multiplicative)) :
    Phrase (.steps .multiplicative) :=
  .step operator fits operand more

section Chains

variable {limit depth : Nat} {first : Term} {rest : Phrase (.steps .additive)}
  {operator : Operator} {fits : operator.level = .multiplicative}
  {operand : Phrase (.one .signed)} {more : Phrase (.steps .multiplicative)}

@[simp] theorem tokens_sum : (sum first rest).tokens = first.tokens ++ rest.tokens :=
  tokens_chain first rest

@[simp] theorem tokens_product : (product operand more).tokens = operand.tokens ++ more.tokens :=
  @tokens_chain .multiplicative operand more

@[simp] theorem tokens_factor : (factor operator fits operand more).tokens =
    operator.token :: (operand.tokens ++ more.tokens) :=
  tokens_step operator fits operand more

@[simp] theorem within_sum : (sum first rest).Within limit depth ↔
    first.Within limit depth ∧ rest.Within limit depth :=
  within_chain

@[simp] theorem within_product : (product operand more).Within limit depth ↔
    operand.Within limit depth ∧ more.Within limit depth :=
  @within_chain .multiplicative limit depth operand more

@[simp] theorem within_factor : (factor operator fits operand more).Within limit depth ↔
    operand.Within limit depth ∧ more.Within limit depth :=
  within_step

end Chains

variable {α : Type} {limit depth : Nat}

theorem tree_terms (operands : List Term) :
    (terms operands).tree = Steps.all .plus (operands.map tree) := by
  induction operands with
  | nil => rfl
  | cons operand more ih =>
    simp only [terms, tree, ih, List.map_cons, Steps.all]

theorem tree_sum (first : Term) (rest : List Term) :
    (sum first (terms rest)).tree = Formula.sum ((first :: rest).map tree) := by
  rw [List.map_cons, Formula.sum, ← tree_terms]
  rfl

theorem within_terms {operands : List Term} :
    (terms operands).Within limit depth ↔ ∀ operand ∈ operands, operand.Within limit depth := by
  induction operands with
  | nil => simp [terms]
  | cons operand more ih => rw [terms, within_step, ih, List.forall_mem_cons]

theorem mem_tokens_terms {operands : List Term} {token : Token}
    (h : token ∈ (terms operands).tokens) :
    token = .plus ∨ ∃ operand ∈ operands, token ∈ operand.tokens := by
  induction operands with
  | nil => cases h
  | cons operand more ih =>
    rw [terms, tokens_step, List.mem_cons, List.mem_append] at h
    rcases h with rfl | h | h
    · exact .inl rfl
    · exact .inr ⟨operand, List.mem_cons_self, h⟩
    · rcases ih h with hplus | ⟨next, hnext, htoken⟩
      · exact .inl hplus
      · exact .inr ⟨next, List.mem_cons_of_mem _ hnext, htoken⟩

/-- Texts of products with a plus between them are the text of their sum. -/
theorem writes_sum (write : α → List Char) (phrase : α → Term) (first : α) (rest : List α)
    (h : ∀ a ∈ first :: rest, Writes (write a) (phrase a).tokens) :
    Writes ([' ', '+', ' '].intercalate ((first :: rest).map write))
      (sum (phrase first) (terms (rest.map phrase))).tokens := by
  induction rest generalizing first with
  | nil =>
    have hfirst := h first List.mem_cons_self
    simpa [terms] using hfirst
  | cons next rest ih =>
    obtain ⟨hfirst, hmore⟩ := List.forall_mem_cons.mp h
    intro after more ends hspells
    have htail := ih next hmore after more ends hspells
    have hplus : Spells (' ' :: '+' :: ' ' ::
        ([' ', '+', ' '].intercalate ((next :: rest).map write) ++ after)) _ :=
      (htail.blank.symbol (c := '+') rfl).blank
    have hall := hfirst _ _ (ends_cons _ (by decide)) hplus
    simpa [terms, Operator.token, List.intercalate_cons_cons] using hall

end Phrase

namespace Formula

/-- A text that spells a derivation is read as its tree. -/
theorem parse_of_spells {text : String} {limits : Limits} {derivation : Derivation}
    (hspells : Lexeme.Spells text.toList derivation.tokens)
    (hlength : text.length ≤ limits.maxLength)
    (hwithin : derivation.Within limits.maxDepth 0) :
    parse text limits = .ok derivation.tree := by
  obtain ⟨lexemes, hlexed, htokens⟩ := hspells 0
  exact parse_of_derivation hlength hlexed derivation htokens.symm hwithin

/-- Whatever is read of the text, it is no deeper than the limits allow. -/
theorem within_of_parse {text : String} {limits : Limits} {derivation : Derivation} {tree : Formula}
    (hspells : Lexeme.Spells text.toList derivation.tokens) (h : parse text limits = .ok tree) :
    derivation.Within limits.maxDepth 0 := by
  obtain ⟨lexemes, hlexed, htokens⟩ := hspells 0
  obtain ⟨others, hothers, other, hother, hwithin, _⟩ := exists_derivation h
  rw [← hlexed.unique hothers, htokens] at hother
  rwa [derivation_unique hother.symm]

end Formula

end FinalGrades
