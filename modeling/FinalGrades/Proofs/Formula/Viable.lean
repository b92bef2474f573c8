import FinalGrades.Proofs.Formula.Parsing

/-!
Where the reader stops: what it has read can be completed by numbers and closing parentheses, and
what it stops at is refused whatever comes after it. More depth does not help, unless the depth was
the reason.
-/

namespace FinalGrades

open Attempt

namespace Phrase

variable {limit other depth : Nat} {level : Precedence} {kind : Kind} {tokens : List Token}

theorem Within.mono {phrase : Phrase kind} (h : phrase.Within limit depth) (hle : limit ≤ other) :
    phrase.Within other depth := fun leaf hleaf => Nat.le_trans (h leaf hleaf) hle

theorem exists_within (phrase : Phrase kind) : ∃ bound, phrase.Within bound 0 :=
  ⟨((phrase.leaves 0).map (·.2)).max?.getD 0, fun _ hleaf =>
    List.le_max?_getD_of_mem (List.mem_map_of_mem hleaf)⟩

/-- Numbers and closing parentheses complete the tokens to those of a phrase. -/
def Viable (limit depth : Nat) (kind : Kind) (tokens : List Token) : Prop :=
  ∃ (phrase : Phrase kind) (more : List Token), phrase.tokens = tokens ++ more ∧
    phrase.Within limit depth ∧ ∀ token ∈ more, token = .number 0 ∨ token = .closeParen

namespace Viable

theorem first (h : Viable limit depth (.one level.operand) tokens) :
    Viable limit depth (.one (.chain level)) tokens := by
  obtain ⟨phrase, more, htokens, hwithin, hmore⟩ := h
  exact ⟨.chain phrase .done, more, by simp [htokens], by simp [hwithin], hmore⟩

theorem rest {operand : Phrase (.one level.operand)} (hoperand : operand.Within limit depth)
    (h : Viable limit depth (.steps level) tokens) :
    Viable limit depth (.one (.chain level)) (operand.tokens ++ tokens) := by
  obtain ⟨phrase, more, htokens, hwithin, hmore⟩ := h
  exact ⟨.chain operand phrase, more, by simp [htokens], by simp [hoperand, hwithin], hmore⟩

theorem step {operator : Operator} (fits : operator.level = level)
    (h : Viable limit depth (.one level.operand) tokens) :
    Viable limit depth (.steps level) (operator.token :: tokens) := by
  obtain ⟨phrase, more, htokens, hwithin, hmore⟩ := h
  exact ⟨.step operator fits phrase .done, more, by simp [htokens], by simp [hwithin], hmore⟩

theorem more {operator : Operator} (fits : operator.level = level)
    {operand : Phrase (.one level.operand)} (hoperand : operand.Within limit depth)
    (h : Viable limit depth (.steps level) tokens) :
    Viable limit depth (.steps level) (operator.token :: (operand.tokens ++ tokens)) := by
  obtain ⟨phrase, more, htokens, hwithin, hmore⟩ := h
  exact ⟨.step operator fits operand phrase, more, by simp [htokens], by simp [hoperand, hwithin],
    hmore⟩

theorem signed {sign : Operator} (fits : sign.level = .additive) (hdepth : depth < limit)
    (h : Viable limit (depth + 1) (.one .signed) tokens) :
    Viable limit depth (.one .signed) (sign.token :: tokens) := by
  obtain ⟨phrase, more, htokens, hwithin, hmore⟩ := h
  exact ⟨.signed sign fits phrase, more, by simp [htokens], by simp [hdepth, hwithin], hmore⟩

theorem bare (h : Viable limit depth (.one .operand) tokens) :
    Viable limit depth (.one .signed) tokens := by
  obtain ⟨phrase, more, htokens, hwithin, hmore⟩ := h
  exact ⟨.bare phrase, more, htokens, hwithin, hmore⟩

theorem parens (hdepth : depth < limit)
    (h : Viable limit (depth + 1) (.one (.chain .additive)) tokens) :
    Viable limit depth (.one .operand) (.openParen :: tokens) := by
  obtain ⟨phrase, more, htokens, hwithin, hmore⟩ := h
  refine ⟨.parens phrase, more ++ [.closeParen], by simp [htokens], by simp [hdepth, hwithin], ?_⟩
  intro token htoken
  rcases List.mem_append.mp htoken with htoken | htoken
  · exact hmore token htoken
  · exact .inr (List.mem_singleton.mp htoken)

theorem of_phrase {phrase : Phrase kind} (h : phrase.Within limit depth) :
    Viable limit depth kind phrase.tokens :=
  ⟨phrase, [], (List.append_nil _).symm, h, fun _ hmem => nomatch hmem⟩

theorem nil (n : Nonterminal) (hdepth : depth ≤ limit) : Viable limit depth (.one n) [] := by
  have hoperand : Viable limit depth (.one .operand) [] :=
    ⟨.number 0, [.number 0], rfl, within_number.mpr hdepth, by simp⟩
  have hproduct : Viable limit depth (.one (.chain .multiplicative)) [] :=
    @first _ _ .multiplicative _ hoperand.bare
  cases n with
  | operand => exact hoperand
  | signed => exact hoperand.bare
  | chain level =>
    cases level with
    | multiplicative => exact hproduct
    | additive => exact @first _ _ .additive _ hproduct

end Viable

end Phrase

namespace Kind

variable {limit depth : Nat} {kind : Kind} {lexemes after used bad : List Lexeme}
  {error : FormulaError}

theorem continuedBy_steps {level : Precedence} {token : Token}
    (hop : level.operator? token = none)
    (hoperand : (Kind.one level.operand).continuedBy token = false) :
    (Kind.steps level).continuedBy token = false := by
  cases level with
  | additive =>
    have hfalse : (Precedence.additive.operator? token).isSome = false := by simp [hop]
    exact Bool.or_eq_false_iff.mpr ⟨hfalse, hoperand⟩
  | multiplicative =>
    have hfalse : (Precedence.multiplicative.operator? token).isSome = false := by simp [hop]
    exact hfalse

/-- A reader takes all it can; steps are read where their first operand has ended. -/
theorem ends_of_read {value : kind.Value} (h : kind.read limit depth lexemes = .ok (value, after))
    (begins : ∀ level, kind = .steps level →
      Ends (Kind.one level.operand).continuedBy (lexemes.map (·.token))) :
    Ends kind.continuedBy (after.map (·.token)) := by
  induction kind, depth, lexemes using read_induct generalizing after with
  | chain level depth lexemes ihFirst ihRest =>
    rw [read_chain] at h
    obtain ⟨⟨first, middle⟩, hfirst, h⟩ := bind_eq_ok_iff.mp h
    obtain ⟨⟨steps, last⟩, hsteps, h⟩ := bind_eq_ok_iff.mp h
    cases h
    have hmiddle := ihFirst hfirst fun _ hkind => nomatch hkind
    have hlast := ihRest middle (length_lt_of_read hfirst) hsteps fun _ hkind => by
      cases hkind
      exact hmiddle
    cases level <;> exact hlast
  | stepsNil level depth =>
    rw [read_steps_nil] at h
    cases h
    exact ends_nil _
  | stepsDone level depth lexeme rest hop =>
    rw [read_steps_done hop] at h
    cases h
    exact ends_cons _ (continuedBy_steps hop (begins level rfl _ rfl))
  | stepsStep level depth lexeme rest operator hop ihOperand ihMore =>
    rw [read_steps_step hop] at h
    obtain ⟨⟨operand, middle⟩, hoperand, h⟩ := bind_eq_ok_iff.mp h
    obtain ⟨⟨steps, last⟩, hsteps, h⟩ := bind_eq_ok_iff.mp h
    cases h
    have hmiddle := ihOperand hoperand fun _ hkind => nomatch hkind
    exact ihMore middle (length_lt_of_read hoperand) hsteps fun _ hkind => by
      cases hkind
      exact hmiddle
  | _ => exact fun _ _ => rfl

/-- A phrase is read alike before everything that begins the same, and with more depth. -/
theorem read_eq_ok_of_head {n : Nonterminal} {value : Formula} (hdepth : depth ≤ limit)
    (h : (Kind.one n).read limit depth lexemes = .ok (value, after)) :
    ∃ (phrase : Phrase (.one n)) (used : List Lexeme), lexemes = used ++ after ∧
      phrase.tokens = used.map (·.token) ∧ phrase.Within limit depth ∧
      ∀ other, limit ≤ other → ∀ rest, rest.head? = after.head? →
        (Kind.one n).read other depth (used ++ rest) = .ok (value, rest) := by
  obtain ⟨phrase, used, hlexemes, htokens, hwithin, rfl⟩ := Phrase.exists_of_read hdepth h
  have hends := ends_of_read h fun _ hkind => nomatch hkind
  refine ⟨phrase, used, hlexemes, htokens, hwithin, fun other hother rest hrest => ?_⟩
  refine phrase.read_eq_ok htokens (hwithin.mono hother) fun token htoken => hends token ?_
  rwa [List.head?_map, ← hrest, ← List.head?_map]

/--
What was used can be completed, and the reading fails on what comes next, whatever follows that
and however deep it may go.
-/
structure Stops (limit depth : Nat) (kind : Kind) (error : FormulaError)
    (used bad : List Lexeme) : Prop where
  viable : Phrase.Viable limit depth kind (used.map (·.token))
  cause : error = Formula.unexpected bad
  refused : ∀ other, limit ≤ other → ∀ rest, rest.head? = bad.head? →
    kind.read other depth (used ++ rest) = .error error

theorem Stops.lift {outer : Kind} {depth' : Nat} (h : Stops limit depth kind error used bad)
    (front : List Lexeme)
    (viable : Phrase.Viable limit depth kind (used.map (·.token)) →
      Phrase.Viable limit depth' outer ((front ++ used).map (·.token)))
    (refused : ∀ other, limit ≤ other → ∀ text, text.head? = (used ++ bad).head? →
      kind.read other depth text = .error error →
      outer.read other depth' (front ++ text) = .error error) :
    Stops limit depth' outer error (front ++ used) bad where
  viable := viable h.viable
  cause := h.cause
  refused other hother rest hrest := by
    rw [List.append_assoc]
    refine refused other hother _ ?_ (h.refused other hother rest hrest)
    rw [List.head?_append, List.head?_append, hrest]

theorem unexpected_eq_of_head {rest : List Lexeme} (h : rest.head? = bad.head?) :
    Formula.unexpected rest = Formula.unexpected bad := by
  cases rest <;> cases bad <;> simp_all [Formula.unexpected]

theorem closed_eq_error {inner : Formula × List Lexeme} (h : closed inner = .error error) :
    error = Formula.unexpected inner.2 ∧
      ∀ rest, rest.head? = inner.2.head? → closed (inner.1, rest) = .error error := by
  obtain ⟨tree, middle⟩ := inner
  simp only [closed] at h
  split at h
  next => cases h
  next hother =>
    cases h
    refine ⟨rfl, fun rest hrest => ?_⟩
    simp only [closed]
    split
    next text position after =>
      obtain ⟨tail, htail⟩ := List.head?_eq_some_iff.mp hrest.symm
      exact absurd htail (hother text position tail)
    next => rw [unexpected_eq_of_head hrest]

/-- Where a reader fails for another reason than the depth, it stops. -/
theorem stops_of_read (hdepth : depth ≤ limit) (h : kind.read limit depth lexemes = .error error)
    (hdeep : error ≠ .tooDeep limit) :
    ∃ used bad, lexemes = used ++ bad ∧ Stops limit depth kind error used bad := by
  induction kind, depth, lexemes using read_induct with
  | chain level depth lexemes ihFirst ihRest =>
    rw [read_chain] at h
    rcases bind_eq_error_iff.mp h with hfirst | ⟨⟨first, middle⟩, hfirst, h⟩
    · obtain ⟨used, bad, rfl, hstops⟩ := ihFirst hdepth hfirst
      exact ⟨used, bad, rfl, hstops.lift [] .first fun other _ text _ hread => by
        rw [List.nil_append, read_chain, hread]; rfl⟩
    · rcases bind_eq_error_iff.mp h with hsteps | ⟨_, _, h⟩
      · obtain ⟨used, bad, rfl, hstops⟩ := ihRest middle (length_lt_of_read hfirst) hdepth hsteps
        obtain ⟨phrase, front, rfl, htokens, hwithin, hfront⟩ := read_eq_ok_of_head hdepth hfirst
        refine ⟨front ++ used, bad, (List.append_assoc _ _ _).symm, hstops.lift front ?_ ?_⟩
        · intro hviable
          rw [List.map_append, ← htokens]
          exact hviable.rest hwithin
        · intro other hother text htext hread
          rw [read_chain, hfront other hother text htext, ok_bind, hread]
          rfl
      · cases h
  | stepsNil level depth => simp [read_steps_nil] at h
  | stepsDone level depth lexeme rest hop => simp [read_steps_done hop] at h
  | stepsStep level depth lexeme rest operator hop ihOperand ihMore =>
    obtain ⟨fits, htoken⟩ := Precedence.operator?_eq_some_iff.mp hop
    rw [read_steps_step hop] at h
    rcases bind_eq_error_iff.mp h with hoperand | ⟨⟨operand, middle⟩, hoperand, h⟩
    · obtain ⟨used, bad, rfl, hstops⟩ := ihOperand hdepth hoperand
      refine ⟨lexeme :: used, bad, rfl, hstops.lift [lexeme] ?_ ?_⟩
      · intro hviable
        rw [List.singleton_append, List.map_cons, ← htoken]
        exact hviable.step fits
      · intro other _ text _ hread
        rw [List.singleton_append, read_steps_step hop, hread]
        rfl
    · rcases bind_eq_error_iff.mp h with hsteps | ⟨_, _, h⟩
      · obtain ⟨used, bad, rfl, hstops⟩ :=
          ihMore middle (length_lt_of_read hoperand) hdepth hsteps
        obtain ⟨phrase, front, rfl, htokens, hwithin, hfront⟩ :=
          read_eq_ok_of_head hdepth hoperand
        refine ⟨lexeme :: (front ++ used), bad, by simp, hstops.lift (lexeme :: front) ?_ ?_⟩
        · intro hviable
          rw [List.cons_append, List.map_cons, List.map_append, ← htokens, ← htoken]
          exact hviable.more fits hwithin
        · intro other hother text htext hread
          rw [List.cons_append, read_steps_step hop, hfront other hother text htext, ok_bind,
            hread]
          rfl
      · cases h
  | signedNil depth =>
    rw [read_signed_nil] at h
    cases h
    refine ⟨[], [], rfl, .nil _ hdepth, rfl, fun other _ rest hrest => ?_⟩
    obtain rfl := List.head?_eq_none_iff.mp hrest
    exact read_signed_nil
  | signedBare depth lexeme rest hsign ih =>
    rw [read_signed_bare hsign] at h
    obtain ⟨used, bad, hlexemes, hstops⟩ := ih hdepth h
    refine ⟨used, bad, hlexemes, hstops.lift [] .bare fun other _ text htext hread => ?_⟩
    rw [← hlexemes] at htext
    obtain ⟨tail, rfl⟩ := List.head?_eq_some_iff.mp htext
    rw [List.nil_append, read_signed_bare hsign]
    exact hread
  | signedSign depth lexeme rest sign hsign ih =>
    rw [read_signed_sign hsign] at h
    split at h
    · cases h
      exact absurd rfl hdeep
    next hroom =>
      obtain ⟨fits, htoken⟩ := Precedence.operator?_eq_some_iff.mp
        (show Precedence.additive.operator? lexeme.token = some sign from hsign)
      rcases bind_eq_error_iff.mp h with hinner | ⟨_, _, h⟩
      · obtain ⟨used, bad, rfl, hstops⟩ := ih (by omega) hinner
        refine ⟨lexeme :: used, bad, rfl, hstops.lift [lexeme] ?_ ?_⟩
        · intro hviable
          rw [List.singleton_append, List.map_cons, ← htoken]
          exact hviable.signed fits (by omega)
        · intro other hother text _ hread
          rw [List.singleton_append, read_signed_sign hsign, if_neg (by omega), hread]
          rfl
      · cases h
  | operandNil depth =>
    rw [read_operand_nil] at h
    cases h
    refine ⟨[], [], rfl, .nil _ hdepth, rfl, fun other _ rest hrest => ?_⟩
    obtain rfl := List.head?_eq_none_iff.mp hrest
    exact read_operand_nil
  | operandNumber depth lexeme rest value htoken => simp [read_operand_number htoken] at h
  | operandName depth lexeme rest text htoken => simp [read_operand_name htoken] at h
  | operandParens depth lexeme rest htoken ih =>
    rw [read_operand_parens htoken] at h
    split at h
    · cases h
      exact absurd rfl hdeep
    next hroom =>
      rcases bind_eq_error_iff.mp h with hinner | ⟨⟨inner, middle⟩, hinner, h⟩
      · obtain ⟨used, bad, rfl, hstops⟩ := ih (by omega) hinner
        refine ⟨lexeme :: used, bad, rfl, hstops.lift [lexeme] ?_ ?_⟩
        · intro hviable
          rw [List.singleton_append, List.map_cons, htoken]
          exact hviable.parens (by omega)
        · intro other hother text _ hread
          rw [List.singleton_append, read_operand_parens htoken, if_neg (by omega), hread]
          rfl
      · obtain ⟨hcause, hclosed⟩ := closed_eq_error h
        obtain ⟨phrase, used, rfl, htokens, hwithin, hused⟩ :=
          read_eq_ok_of_head (by omega) hinner
        refine ⟨lexeme :: used, middle, rfl, ?_, hcause, fun other hother rest hrest => ?_⟩
        · rw [List.map_cons, ← htokens, htoken]
          exact Phrase.Viable.parens (by omega) (.of_phrase hwithin)
        · rw [List.cons_append, read_operand_parens htoken, if_neg (by omega),
            hused other hother rest hrest]
          exact hclosed rest hrest
  | operandOther depth lexeme rest hnumber hname hopen =>
    rw [read_operand_other hnumber hname hopen] at h
    cases h
    refine ⟨[], lexeme :: rest, rfl, .nil _ hdepth, rfl, fun other _ rest' hrest => ?_⟩
    obtain ⟨tail, rfl⟩ := List.head?_eq_some_iff.mp hrest
    exact read_operand_other hnumber hname hopen

end Kind

namespace Formula

variable {limit : Nat} {lexemes : List Lexeme} {error : FormulaError}

/-- What the reader does not take up at any greater depth has no derivation. -/
theorem tokens_ne_of_read (limit : Nat) (h : ∀ other, limit ≤ other → ∀ tree,
    (Kind.one (.chain .additive)).read other 0 lexemes ≠ .ok (tree, []))
    (derivation : Derivation) : derivation.tokens ≠ lexemes.map (·.token) := by
  intro htokens
  obtain ⟨bound, hwithin⟩ := derivation.exists_within
  have hends : Ends (Kind.one (.chain .additive)).continuedBy (([] : List Lexeme).map (·.token)) :=
    ends_nil _
  have hread := derivation.read_eq_ok htokens (hwithin.mono (Nat.le_max_right limit bound)) hends
  rw [List.append_nil] at hread
  exact h _ (Nat.le_max_left _ _) _ hread

/-- What was used is the front of a formula, and not together with what comes next. -/
structure StopsAt (limit : Nat) (error : FormulaError) (used bad : List Lexeme) : Prop where
  viable : Phrase.Viable limit 0 (.one (.chain .additive)) (used.map (·.token))
  cause : error = unexpected bad
  refused : ∀ rest, rest.head? = bad.head? → ∀ derivation : Derivation,
    derivation.tokens ≠ (used ++ rest).map (·.token)

theorem stopsAt_of_error (hdeep : error ≠ .tooDeep limit)
    (h : (Kind.one (.chain .additive)).read limit 0 lexemes = .error error) :
    ∃ used bad, lexemes = used ++ bad ∧ StopsAt limit error used bad := by
  obtain ⟨used, bad, rfl, hstops⟩ := Kind.stops_of_read (Nat.zero_le _) h hdeep
  refine ⟨used, bad, rfl, hstops.viable, hstops.cause, fun rest hrest => tokens_ne_of_read limit ?_⟩
  intro other hother tree hread
  rw [hstops.refused other hother rest hrest] at hread
  cases hread

theorem stopsAt_of_rest {tree : Formula} {lexeme : Lexeme} {after : List Lexeme}
    (h : (Kind.one (.chain .additive)).read limit 0 lexemes = .ok (tree, lexeme :: after)) :
    ∃ used bad, lexemes = used ++ bad ∧
      StopsAt limit (unexpected (lexeme :: after)) used bad := by
  obtain ⟨phrase, used, rfl, htokens, hwithin, hread⟩ :=
    Kind.read_eq_ok_of_head (Nat.zero_le _) h
  refine ⟨used, lexeme :: after, rfl, ?_, rfl, fun rest hrest => tokens_ne_of_read limit ?_⟩
  · rw [← htokens]
    exact .of_phrase hwithin
  · intro other hother tree' hread'
    obtain ⟨tail, rfl⟩ := List.head?_eq_some_iff.mp hrest
    rw [hread other hother _ hrest] at hread'
    cases hread'

end Formula

end FinalGrades
