import FinalGrades.Proofs.Formula.Grammar

/-!
The reader against the grammar: it accepts exactly the texts whose lexemes have a derivation that
is nowhere too deep, and returns the tree which that derivation denotes.
-/

namespace FinalGrades

open Attempt

namespace Kind

/-- The readers as one function of the kind of phrase; a result is a value and what follows it. -/
def read (limit depth : Nat) (lexemes : List Lexeme) :
    (kind : Kind) → Except FormulaError (kind.Value × List Lexeme)
  | .one (.chain .additive) =>
    (Formula.readSum limit depth lexemes).map fun reading => (reading.tree, reading.after)
  | .one (.chain .multiplicative) =>
    (Formula.readProduct limit depth lexemes).map fun reading => (reading.tree, reading.after)
  | .one .signed =>
    (Formula.readSigned limit depth lexemes).map fun reading => (reading.tree, reading.after)
  | .one .operand =>
    (Formula.readOperand limit depth lexemes).map fun reading => (reading.tree, reading.after)
  | .steps .additive =>
    (Formula.readTerms limit depth lexemes).map fun reading => (reading.steps, reading.after)
  | .steps .multiplicative =>
    (Formula.readFactors limit depth lexemes).map fun reading => (reading.steps, reading.after)

variable {limit depth : Nat} {level : Precedence} {lexeme : Lexeme} {lexemes rest : List Lexeme}

theorem read_chain : (Kind.one (.chain level)).read limit depth lexemes = do
    let first ← (Kind.one level.operand).read limit depth lexemes
    let tail ← (Kind.steps level).read limit depth first.2
    return (Formula.chained first.1 tail.1, tail.2) := by
  cases level with
  | additive =>
    simp only [read, Precedence.operand]
    rw [Formula.readSum]
    cases Formula.readProduct limit depth lexemes with
    | error e => rfl
    | ok first =>
      simp only [ok_bind, Except.map]
      cases Formula.readTerms limit depth first.after <;> rfl
  | multiplicative =>
    simp only [read, Precedence.operand]
    rw [Formula.readProduct]
    cases Formula.readSigned limit depth lexemes with
    | error e => rfl
    | ok first =>
      simp only [ok_bind, Except.map]
      cases Formula.readFactors limit depth first.after <;> rfl

theorem read_steps_nil : (Kind.steps level).read limit depth [] = .ok (Steps.done, []) := by
  cases level with
  | additive => simp only [read, Formula.readTerms, Except.map]
  | multiplicative => simp only [read, Formula.readFactors, Except.map]

theorem read_steps_done (h : level.operator? lexeme.token = none) :
    (Kind.steps level).read limit depth (lexeme :: rest) = .ok (Steps.done, lexeme :: rest) := by
  cases level with
  | additive =>
    have hnone : Formula.additive? lexeme.token = none := h
    simp only [read, Formula.readTerms, hnone, Except.map]
  | multiplicative =>
    have hnone : Formula.multiplicative? lexeme.token = none := h
    simp only [read, Formula.readFactors, hnone, Except.map]

theorem read_steps_step {operator : Operator} (h : level.operator? lexeme.token = some operator) :
    (Kind.steps level).read limit depth (lexeme :: rest) = do
      let operand ← (Kind.one level.operand).read limit depth rest
      let tail ← (Kind.steps level).read limit depth operand.2
      return (Steps.step operator operand.1 tail.1, tail.2) := by
  cases level with
  | additive =>
    have hsome : Formula.additive? lexeme.token = some operator := h
    simp only [read, Precedence.operand]
    rw [Formula.readTerms]
    simp only [hsome]
    cases Formula.readProduct limit depth rest with
    | error e => rfl
    | ok operand =>
      simp only [ok_bind, Except.map]
      cases Formula.readTerms limit depth operand.after <;> rfl
  | multiplicative =>
    have hsome : Formula.multiplicative? lexeme.token = some operator := h
    simp only [read, Precedence.operand]
    rw [Formula.readFactors]
    simp only [hsome]
    cases Formula.readSigned limit depth rest with
    | error e => rfl
    | ok operand =>
      simp only [ok_bind, Except.map]
      cases Formula.readFactors limit depth operand.after <;> rfl

theorem read_signed_nil : (Kind.one .signed).read limit depth [] = .error .unexpectedEnd := by
  simp only [read, Formula.readSigned, Except.map]

theorem read_signed_bare (h : Formula.additive? lexeme.token = none) :
    (Kind.one .signed).read limit depth (lexeme :: rest) =
      (Kind.one .operand).read limit depth (lexeme :: rest) := by
  simp only [read]
  rw [Formula.readSigned]
  simp only [h]

theorem read_signed_sign {sign : Operator} (h : Formula.additive? lexeme.token = some sign) :
    (Kind.one .signed).read limit depth (lexeme :: rest) =
      if limit ≤ depth then .error (.tooDeep limit)
      else do
        let inner ← (Kind.one .signed).read limit (depth + 1) rest
        return (if sign = .minus then Formula.negation inner.1 else inner.1, inner.2) := by
  simp only [read]
  rw [Formula.readSigned]
  simp only [h]
  split
  · rfl
  · cases Formula.readSigned limit (depth + 1) rest <;> rfl

theorem read_operand_nil : (Kind.one .operand).read limit depth [] = .error .unexpectedEnd := by
  simp only [read, Formula.readOperand, Except.map]

theorem read_operand_number {value : Binary64} (h : lexeme.token = .number value) :
    (Kind.one .operand).read limit depth (lexeme :: rest) = .ok (Formula.number value, rest) := by
  simp only [read, Formula.readOperand, h, Except.map]

theorem read_operand_name {text : String} (h : lexeme.token = .name text) :
    (Kind.one .operand).read limit depth (lexeme :: rest) = .ok (Formula.variable text, rest) := by
  simp only [read, Formula.readOperand, h, Except.map]

/-- What is returned after the inside of parentheses: the closing one has to follow. -/
def closed (inner : Formula × List Lexeme) : Except FormulaError (Formula × List Lexeme) :=
  match inner.2 with
  | ⟨.closeParen, _, _⟩ :: after => .ok (inner.1, after)
  | other => .error (Formula.unexpected other)

theorem closed_eq_ok {inner : Formula × List Lexeme} {value : Formula} {after : List Lexeme}
    (h : closed inner = .ok (value, after)) :
    ∃ text position, inner.2 = ⟨.closeParen, text, position⟩ :: after ∧ inner.1 = value := by
  obtain ⟨tree, middle⟩ := inner
  simp only [closed] at h
  split at h
  next text position rest =>
    cases h
    exact ⟨text, position, rfl, rfl⟩
  next => cases h

theorem read_operand_parens (h : lexeme.token = .openParen) :
    (Kind.one .operand).read limit depth (lexeme :: rest) =
      if limit ≤ depth then .error (.tooDeep limit)
      else (Kind.one (.chain .additive)).read limit (depth + 1) rest >>= closed := by
  simp only [read]
  rw [Formula.readOperand]
  simp only [h]
  split
  · rfl
  · cases Formula.readSum limit (depth + 1) rest with
    | error e => rfl
    | ok inner =>
      obtain ⟨tree, after, shorter⟩ := inner
      cases after with
      | nil => rfl
      | cons next after =>
        obtain ⟨token, text, position⟩ := next
        cases token <;> rfl

theorem read_operand_other (hnumber : ∀ value, lexeme.token ≠ .number value)
    (hname : ∀ text, lexeme.token ≠ .name text) (hparen : lexeme.token ≠ .openParen) :
    (Kind.one .operand).read limit depth (lexeme :: rest) =
      .error (Formula.unexpected (lexeme :: rest)) := by
  simp only [read]
  rw [Formula.readOperand]
  split
  next h => exact absurd h (hnumber _)
  next h => exact absurd h (hname _)
  next h => exact absurd h hparen
  next => rfl

theorem length_lt_of_map {result : Except FormulaError (Formula.Reading lexemes)}
    {value : Formula} {after : List Lexeme}
    (h : result.map (fun reading => (reading.tree, reading.after)) = .ok (value, after)) :
    after.length < lexemes.length := by
  obtain ⟨reading, _, hreading⟩ := map_eq_ok_iff.mp h
  cases hreading
  exact reading.shorter

theorem length_lt_of_read {n : Nonterminal} {value : Formula} {after : List Lexeme}
    (h : (Kind.one n).read limit depth lexemes = .ok (value, after)) :
    after.length < lexemes.length := by
  cases n with
  | chain level => cases level <;> exact length_lt_of_map h
  | signed => exact length_lt_of_map h
  | operand => exact length_lt_of_map h

/-- Each reader calls others on fewer lexemes, or one that stands lower in the grammar. -/
def rank : Kind → Nat
  | .one (.chain .additive) => 3
  | .one (.chain .multiplicative) => 2
  | .one .signed => 1
  | _ => 0

/-- A reader only calls readers on fewer lexemes, or one that stands lower in the grammar. -/
theorem call_induct {motive : Kind → Nat → List Lexeme → Prop}
    (chain : ∀ level depth lexemes, motive (.one level.operand) depth lexemes →
      (∀ middle : List Lexeme, middle.length < lexemes.length →
        motive (.steps level) depth middle) →
      motive (.one (.chain level)) depth lexemes)
    (steps : ∀ level depth lexemes,
      (∀ lexeme rest, lexemes = lexeme :: rest → motive (.one level.operand) depth rest) →
      (∀ middle : List Lexeme, middle.length < lexemes.length →
        motive (.steps level) depth middle) →
      motive (.steps level) depth lexemes)
    (signed : ∀ depth lexemes,
      (∀ lexeme rest, lexemes = lexeme :: rest → motive (.one .signed) (depth + 1) rest) →
      motive (.one .operand) depth lexemes → motive (.one .signed) depth lexemes)
    (operand : ∀ depth lexemes,
      (∀ lexeme rest, lexemes = lexeme :: rest →
        motive (.one (.chain .additive)) (depth + 1) rest) →
      motive (.one .operand) depth lexemes)
    (kind : Kind) (depth : Nat) (lexemes : List Lexeme) : motive kind depth lexemes :=
  match kind with
  | .one (.chain level) =>
    chain level depth lexemes (call_induct chain steps signed operand _ _ _)
      fun _ _h => call_induct chain steps signed operand _ _ _
  | .steps level =>
    steps level depth lexemes (fun _ _ _h => call_induct chain steps signed operand _ _ _)
      fun _ _h => call_induct chain steps signed operand _ _ _
  | .one .signed =>
    signed depth lexemes (fun _ _ _h => call_induct chain steps signed operand _ _ _)
      (call_induct chain steps signed operand _ _ _)
  | .one .operand =>
    operand depth lexemes fun _ _ _h => call_induct chain steps signed operand _ _ _
termination_by (lexemes.length, kind.rank)
decreasing_by
  · exact Prod.Lex.right _ (by cases level <;> decide)
  · exact Prod.Lex.left _ _ _h
  · exact Prod.Lex.left _ _ (_h ▸ Nat.lt_succ_self _)
  · exact Prod.Lex.left _ _ _h
  · exact Prod.Lex.left _ _ (_h ▸ Nat.lt_succ_self _)
  · exact Prod.Lex.right _ (by decide)
  · exact Prod.Lex.left _ _ (_h ▸ Nat.lt_succ_self _)

section Branches

variable {motive : Kind → Nat → List Lexeme → Prop}

/-- Induction along the calls of the readers, with a case for each of their branches. -/
theorem read_induct
    (chain : ∀ level depth lexemes, motive (.one level.operand) depth lexemes →
      (∀ middle : List Lexeme, middle.length < lexemes.length →
        motive (.steps level) depth middle) →
      motive (.one (.chain level)) depth lexemes)
    (stepsNil : ∀ level depth, motive (.steps level) depth [])
    (stepsDone : ∀ level depth lexeme rest, level.operator? lexeme.token = none →
      motive (.steps level) depth (lexeme :: rest))
    (stepsStep : ∀ level depth lexeme rest operator,
      level.operator? lexeme.token = some operator → motive (.one level.operand) depth rest →
      (∀ middle : List Lexeme, middle.length < rest.length → motive (.steps level) depth middle) →
      motive (.steps level) depth (lexeme :: rest))
    (signedNil : ∀ depth, motive (.one .signed) depth [])
    (signedBare : ∀ depth lexeme rest, Formula.additive? lexeme.token = none →
      motive (.one .operand) depth (lexeme :: rest) → motive (.one .signed) depth (lexeme :: rest))
    (signedSign : ∀ depth lexeme rest sign, Formula.additive? lexeme.token = some sign →
      motive (.one .signed) (depth + 1) rest → motive (.one .signed) depth (lexeme :: rest))
    (operandNil : ∀ depth, motive (.one .operand) depth [])
    (operandNumber : ∀ depth lexeme rest value, lexeme.token = .number value →
      motive (.one .operand) depth (lexeme :: rest))
    (operandName : ∀ depth lexeme rest text, lexeme.token = .name text →
      motive (.one .operand) depth (lexeme :: rest))
    (operandParens : ∀ depth lexeme rest, lexeme.token = .openParen →
      motive (.one (.chain .additive)) (depth + 1) rest →
      motive (.one .operand) depth (lexeme :: rest))
    (operandOther : ∀ depth lexeme rest, (∀ value, lexeme.token ≠ .number value) →
      (∀ text, lexeme.token ≠ .name text) → lexeme.token ≠ .openParen →
      motive (.one .operand) depth (lexeme :: rest))
    (kind : Kind) (depth : Nat) (lexemes : List Lexeme) : motive kind depth lexemes := by
  induction kind, depth, lexemes using call_induct with
  | chain level depth lexemes ihFirst ihRest => exact chain level depth lexemes ihFirst ihRest
  | steps level depth lexemes ihOperand ihMore =>
    cases lexemes with
    | nil => exact stepsNil level depth
    | cons lexeme rest =>
      cases hop : level.operator? lexeme.token with
      | none => exact stepsDone level depth lexeme rest hop
      | some operator =>
        exact stepsStep level depth lexeme rest operator hop (ihOperand lexeme rest rfl)
          fun middle hlt => ihMore middle (Nat.lt_succ_of_lt hlt)
  | signed depth lexemes ihSigned ihOperand =>
    cases lexemes with
    | nil => exact signedNil depth
    | cons lexeme rest =>
      cases hsign : Formula.additive? lexeme.token with
      | none => exact signedBare depth lexeme rest hsign ihOperand
      | some sign => exact signedSign depth lexeme rest sign hsign (ihSigned lexeme rest rfl)
  | operand depth lexemes ih =>
    cases lexemes with
    | nil => exact operandNil depth
    | cons lexeme rest =>
      cases htoken : lexeme.token with
      | number value => exact operandNumber depth lexeme rest value htoken
      | name text => exact operandName depth lexeme rest text htoken
      | openParen => exact operandParens depth lexeme rest htoken (ih lexeme rest rfl)
      | _ =>
        exact operandOther depth lexeme rest (by simp [htoken]) (by simp [htoken])
          (by simp [htoken])

end Branches

end Kind

namespace Phrase

/-- What a reader accepts has a derivation that is nowhere too deep. -/
theorem exists_of_read {limit depth : Nat} {kind : Kind} {lexemes after : List Lexeme}
    {value : kind.Value} (hdepth : depth ≤ limit)
    (h : kind.read limit depth lexemes = .ok (value, after)) :
    ∃ (phrase : Phrase kind) (used : List Lexeme), lexemes = used ++ after ∧
      phrase.tokens = used.map (·.token) ∧ phrase.Within limit depth ∧ phrase.tree = value := by
  induction kind, depth, lexemes using Kind.read_induct generalizing after with
  | chain level depth lexemes ihFirst ihRest =>
    rw [Kind.read_chain] at h
    obtain ⟨⟨first, middle⟩, hfirst, h⟩ := bind_eq_ok_iff.mp h
    obtain ⟨⟨steps, last⟩, hsteps, h⟩ := bind_eq_ok_iff.mp h
    cases h
    obtain ⟨p, used, rfl, hp, hpin, rfl⟩ := ihFirst hdepth hfirst
    obtain ⟨q, more, rfl, hq, hqin, rfl⟩ := ihRest _ (Kind.length_lt_of_read hfirst) hdepth hsteps
    exact ⟨.chain p q, used ++ more, by simp, by simp [hp, hq], by simp [hpin, hqin], rfl⟩
  | stepsNil level depth =>
    rw [Kind.read_steps_nil] at h
    cases h
    exact ⟨.done, [], rfl, rfl, by simp, rfl⟩
  | stepsDone level depth lexeme rest hop =>
    rw [Kind.read_steps_done hop] at h
    cases h
    exact ⟨.done, [], rfl, rfl, by simp, rfl⟩
  | stepsStep level depth lexeme rest operator hop ihOperand ihMore =>
    rw [Kind.read_steps_step hop] at h
    obtain ⟨⟨operand, middle⟩, hoperand, h⟩ := bind_eq_ok_iff.mp h
    obtain ⟨⟨steps, last⟩, hsteps, h⟩ := bind_eq_ok_iff.mp h
    cases h
    obtain ⟨fits, htoken⟩ := Precedence.operator?_eq_some_iff.mp hop
    obtain ⟨p, used, rfl, hp, hpin, rfl⟩ := ihOperand hdepth hoperand
    obtain ⟨q, more, rfl, hq, hqin, rfl⟩ :=
      ihMore middle (Kind.length_lt_of_read hoperand) hdepth hsteps
    exact ⟨.step operator fits p q, lexeme :: (used ++ more), by simp, by simp [hp, hq, htoken],
      by simp [hpin, hqin], rfl⟩
  | signedNil depth => simp [Kind.read_signed_nil] at h
  | signedBare depth lexeme rest hsign ih =>
    rw [Kind.read_signed_bare hsign] at h
    obtain ⟨p, used, hused, hp, hpin, htree⟩ := ih hdepth h
    exact ⟨.bare p, used, hused, hp, hpin, htree⟩
  | signedSign depth lexeme rest sign hsign ih =>
    rw [Kind.read_signed_sign hsign] at h
    split at h
    · cases h
    next hroom =>
      obtain ⟨⟨inner, last⟩, hinner, h⟩ := bind_eq_ok_iff.mp h
      cases h
      obtain ⟨fits, htoken⟩ := Precedence.operator?_eq_some_iff.mp
        (show Precedence.additive.operator? lexeme.token = some sign from hsign)
      obtain ⟨p, used, rfl, hp, hpin, rfl⟩ := ih (by omega) hinner
      exact ⟨.signed sign fits p, lexeme :: used, rfl, by simp [hp, htoken],
        by simp [hpin]; omega, rfl⟩
  | operandNil depth => simp [Kind.read_operand_nil] at h
  | operandNumber depth lexeme rest value htoken =>
    rw [Kind.read_operand_number htoken] at h
    cases h
    exact ⟨.number value, [lexeme], rfl, by simp [htoken], by simpa, rfl⟩
  | operandName depth lexeme rest text htoken =>
    rw [Kind.read_operand_name htoken] at h
    cases h
    exact ⟨.name text, [lexeme], rfl, by simp [htoken], by simpa, rfl⟩
  | operandParens depth lexeme rest htoken ih =>
    rw [Kind.read_operand_parens htoken] at h
    split at h
    · cases h
    next hroom =>
      obtain ⟨⟨inner, middle⟩, hinner, h⟩ := bind_eq_ok_iff.mp h
      obtain ⟨text, position, rfl, rfl⟩ := Kind.closed_eq_ok h
      obtain ⟨p, used, rfl, hp, hpin, rfl⟩ := ih (by omega) hinner
      exact ⟨.parens p, lexeme :: (used ++ [⟨.closeParen, text, position⟩]), by simp,
        by simp [hp, htoken], by simp [hpin]; omega, rfl⟩
  | operandOther depth lexeme rest hnumber hname hopen =>
    rw [Kind.read_operand_other hnumber hname hopen] at h
    cases h

/-- A derivation that is nowhere too deep is found, if nothing that follows continues it. -/
theorem read_eq_ok {limit depth : Nat} {kind : Kind} (phrase : Phrase kind)
    {used after : List Lexeme} (htokens : phrase.tokens = used.map (·.token))
    (hwithin : phrase.Within limit depth)
    (ends : Ends kind.continuedBy (after.map (·.token))) :
    kind.read limit depth (used ++ after) = .ok (phrase.tree, after) := by
  induction phrase generalizing depth used after with
  | @chain level first rest ihFirst ihRest =>
    rw [tokens_chain] at htokens
    obtain ⟨hfirst, hrest⟩ := within_chain.mp hwithin
    obtain ⟨front, back, rfl, hfront, hback⟩ := List.map_eq_append_iff.mp htokens.symm
    have hends : Ends (Kind.steps level).continuedBy (after.map (·.token)) := by
      cases level <;> exact ends
    have hoperand := ends_operand rest hends
    rw [← hback, ← List.map_append] at hoperand
    rw [Kind.read_chain, List.append_assoc, ihFirst hfront.symm hfirst hoperand, ok_bind,
      ihRest hback.symm hrest hends]
    rfl
  | @done level =>
    have hused : used = [] := by simpa using htokens.symm
    subst hused
    cases after with
    | nil => rw [List.append_nil, Kind.read_steps_nil]; rfl
    | cons lexeme after =>
      have hnone := operator?_eq_none (ends lexeme.token rfl)
      rw [List.nil_append, Kind.read_steps_done hnone]
      rfl
  | @step level operator fits operand more ihOperand ihMore =>
    rw [tokens_step] at htokens
    obtain ⟨hoperand, hmore⟩ := within_step.mp hwithin
    obtain ⟨lexeme, used, rfl, htoken, htokens⟩ := List.map_eq_cons_iff.mp htokens.symm
    obtain ⟨front, back, rfl, hfront, hback⟩ := List.map_eq_append_iff.mp htokens
    have hends := ends_operand more ends
    rw [← hback, ← List.map_append] at hends
    have hsome := Precedence.operator?_eq_some_iff.mpr ⟨fits, htoken.symm⟩
    rw [List.cons_append, Kind.read_steps_step hsome, List.append_assoc,
      ihOperand hfront.symm hoperand hends, ok_bind, ihMore hback.symm hmore ends]
    rfl
  | signed sign fits inner ih =>
    rw [tokens_signed] at htokens
    obtain ⟨hdepth, hinner⟩ := within_signed.mp hwithin
    obtain ⟨lexeme, used, rfl, htoken, htokens⟩ := List.map_eq_cons_iff.mp htokens.symm
    have hsome : Formula.additive? lexeme.token = some sign :=
      Precedence.operator?_eq_some_iff.mpr ⟨fits, htoken.symm⟩
    rw [List.cons_append, Kind.read_signed_sign hsome, if_neg (by omega),
      ih htokens.symm hinner ends, ok_bind]
    rfl
  | bare operand ih =>
    rw [tokens_bare] at htokens
    cases used with
    | nil => cases operand <;> simp at htokens
    | cons lexeme used =>
      have hnone : Formula.additive? lexeme.token = none := by
        cases hsign : Formula.additive? lexeme.token with
        | none => rfl
        | some sign =>
          obtain ⟨_, htoken⟩ := Precedence.operator?_eq_some_iff.mp
            (show Precedence.additive.operator? lexeme.token = some sign from hsign)
          have hhead := head_operand_ne operand sign [] (used.map (·.token))
          rw [List.append_nil, htokens, htoken] at hhead
          exact absurd rfl hhead
      rw [List.cons_append, Kind.read_signed_bare hnone]
      exact ih htokens (within_bare.mp hwithin) fun _ _ => rfl
  | number value =>
    obtain ⟨lexeme, rest, rfl, htoken, hrest⟩ := List.map_eq_cons_iff.mp htokens.symm
    obtain rfl := List.map_eq_nil_iff.mp hrest
    exact Kind.read_operand_number htoken
  | name text =>
    obtain ⟨lexeme, rest, rfl, htoken, hrest⟩ := List.map_eq_cons_iff.mp htokens.symm
    obtain rfl := List.map_eq_nil_iff.mp hrest
    exact Kind.read_operand_name htoken
  | parens inner ih =>
    rw [tokens_parens] at htokens
    obtain ⟨hdepth, hinner⟩ := within_parens.mp hwithin
    obtain ⟨lexeme, used, rfl, htoken, htokens⟩ := List.map_eq_cons_iff.mp htokens.symm
    obtain ⟨front, back, rfl, hfront, hback⟩ := List.map_eq_append_iff.mp htokens
    obtain ⟨close, rest, rfl, hclose, hrest⟩ := List.map_eq_cons_iff.mp hback
    obtain rfl := List.map_eq_nil_iff.mp hrest
    obtain ⟨token, text, position⟩ := close
    cases hclose
    rw [List.cons_append, Kind.read_operand_parens htoken, if_neg (by omega), List.append_assoc,
      ih hfront.symm hinner (ends_closeParen _)]
    rfl

end Phrase

namespace Formula

/-- What is returned after the sum that a text begins with: nothing may follow it. -/
def whole (result : Formula × List Lexeme) : Except FormulaError Formula :=
  match result.2 with
  | [] => .ok result.1
  | other => .error (unexpected other)

theorem whole_eq_ok {result : Formula × List Lexeme} {tree : Formula} :
    whole result = .ok tree ↔ result = (tree, []) := by
  obtain ⟨value, _ | ⟨lexeme, after⟩⟩ := result <;> simp [whole]

section Parse

variable {text : String} {limits : Limits}

theorem parse_of_long (h : limits.maxLength < text.length) :
    parse text limits = .error (.tooLong text.length limits.maxLength) := if_pos h

/-- A text that is not too long is cut into lexemes, and these are read as one sum. -/
theorem parse_eq_read (h : text.length ≤ limits.maxLength) :
    parse text limits = Lexeme.scan 0 text.toList >>= fun lexemes =>
      (Kind.one (.chain .additive)).read limits.maxDepth 0 lexemes >>= whole := by
  unfold parse
  rw [if_neg (Nat.not_lt.mpr h)]
  cases Lexeme.scan 0 text.toList with
  | error e => rfl
  | ok lexemes =>
    simp only [ok_bind, Kind.read]
    cases readSum limits.maxDepth 0 lexemes <;> rfl

theorem parse_eq_ok {tree : Formula} :
    parse text limits = .ok tree ↔ text.length ≤ limits.maxLength ∧
      ∃ lexemes, Lexeme.scan 0 text.toList = .ok lexemes ∧
        (Kind.one (.chain .additive)).read limits.maxDepth 0 lexemes = .ok (tree, []) := by
  by_cases hlength : text.length ≤ limits.maxLength
  · rw [parse_eq_read hlength, bind_eq_ok_iff, and_iff_right hlength]
    refine exists_congr fun lexemes => and_congr_right fun _ => ?_
    simp [bind_eq_ok_iff, whole_eq_ok]
  · rw [parse_of_long (Nat.lt_of_not_le hlength)]
    simp [hlength]

end Parse

theorem exists_derivation {text : String} {limits : Limits} {tree : Formula}
    (h : parse text limits = .ok tree) :
    ∃ lexemes, Lexeme.Lexed 0 text.toList lexemes ∧ ∃ derivation : Derivation,
      derivation.tokens = lexemes.map (·.token) ∧
        derivation.Within limits.maxDepth 0 ∧ derivation.tree = tree := by
  obtain ⟨_, lexemes, hscan, hread⟩ := parse_eq_ok.mp h
  obtain ⟨derivation, used, rfl, htokens, hwithin, htree⟩ :=
    Phrase.exists_of_read (Nat.zero_le _) hread
  rw [List.append_nil] at hscan
  exact ⟨used, Lexeme.lexed_of_scan hscan, derivation, htokens, hwithin, htree⟩

theorem parse_of_derivation {text : String} {limits : Limits} {lexemes : List Lexeme}
    (hlength : text.length ≤ limits.maxLength) (hlexed : Lexeme.Lexed 0 text.toList lexemes)
    (derivation : Derivation) (htokens : derivation.tokens = lexemes.map (·.token))
    (hwithin : derivation.Within limits.maxDepth 0) :
    parse text limits = .ok derivation.tree := by
  have hread : (Kind.one (.chain .additive)).read limits.maxDepth 0 (lexemes ++ []) = _ :=
    derivation.read_eq_ok htokens hwithin (ends_nil _)
  rw [List.append_nil] at hread
  exact parse_eq_ok.mpr ⟨hlength, lexemes, Lexeme.scan_of_lexed hlexed, hread⟩

theorem derivation_unique {derivation other : Derivation}
    (h : derivation.tokens = other.tokens) : derivation = other :=
  (derivation.unique other (congrArg (· ++ []) h) (ends_nil _) (ends_nil _)).1

/--
A text is read exactly if it is not too long, can be cut into lexemes, and these have a derivation
in which no token is enclosed by too many parentheses and signs. There is at most one derivation,
and the tree is the one that it denotes.
-/
theorem parse_eq_ok_iff_derivation (text : String) (limits : Limits) (tree : Formula) :
    parse text limits = .ok tree ↔
      text.length ≤ limits.maxLength ∧
        ∃ lexemes, Lexeme.Lexed 0 text.toList lexemes ∧ ∃ derivation : Derivation,
          derivation.tokens = lexemes.map (·.token) ∧
            (∀ other : Derivation, other.tokens = lexemes.map (·.token) → other = derivation) ∧
            (∀ leaf ∈ derivation.leaves 0, leaf.2 ≤ limits.maxDepth) ∧
            derivation.tree = tree := by
  constructor
  · intro h
    obtain ⟨lexemes, hlexed, derivation, htokens, hwithin, htree⟩ := exists_derivation h
    exact ⟨(parse_eq_ok.mp h).1, lexemes, hlexed, derivation, htokens,
      fun other hother => derivation_unique (hother.trans htokens.symm), hwithin, htree⟩
  · rintro ⟨hlength, lexemes, hlexed, derivation, htokens, _, hwithin, rfl⟩
    exact parse_of_derivation hlength hlexed derivation htokens hwithin

end Formula

end FinalGrades
