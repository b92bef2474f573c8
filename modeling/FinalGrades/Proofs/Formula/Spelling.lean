import FinalGrades.Proofs.Formula.Limits
import FinalGrades.Proofs.Formula.Pieces
import FinalGrades.Proofs.Formula.Viable

/-!
Spellings of a formula that are read alike: the case of letters, blanks between lexemes, parentheses
around the whole and a plus in front of it make no difference to the tree.
-/

namespace FinalGrades

open Attempt

namespace Lexeme

/-- The lexeme without the characters it was read from, which no reader looks at. -/
def unspelled (lexeme : Lexeme) : Lexeme := { lexeme with text := [] }

theorem map_unspelled_cons {first other : Except FormulaError (List Lexeme)}
    {lexeme lexeme' : Lexeme} (hlexeme : lexeme.unspelled = lexeme'.unspelled)
    (h : first.map (List.map unspelled) = other.map (List.map unspelled)) :
    (first >>= fun lexemes => pure (lexeme :: lexemes)).map (List.map unspelled) =
      (other >>= fun lexemes => pure (lexeme' :: lexemes)).map (List.map unspelled) := by
  cases first <;> cases other <;> simp_all [Except.map]

theorem takeWhile_map_toUpper {p : Char → Bool} (hp : ∀ c : Char, p c.toUpper = p c)
    (text : List Char) :
    (text.map Char.toUpper).takeWhile p = (text.takeWhile p).map Char.toUpper ∧
      (text.map Char.toUpper).dropWhile p = (text.dropWhile p).map Char.toUpper := by
  have hcomp : p ∘ Char.toUpper = p := funext hp
  rw [List.takeWhile_map, List.dropWhile_map, hcomp]
  exact ⟨rfl, rfl⟩

/-- In upper case a text has the same tokens at the same places, or the same fault. -/
theorem scan_toUpper (position : Nat) (text : List Char) :
    (scan position (text.map Char.toUpper)).map (List.map unspelled) =
      (scan position text).map (List.map unspelled) := by
  fun_induction scan position text with
  | case1 position => rw [List.map_nil, scan]
  | case2 position c rest hblank ih =>
    rw [List.map_cons, scan, isBlank_toUpper, if_pos hblank]
    exact ih
  | case3 position c rest hblank symbol hsymbol ih =>
    rw [List.map_cons, scan]
    simp only [isBlank_toUpper, hblank, symbol?_toUpper, hsymbol]
    exact map_unspelled_cons rfl ih
  | case4 position c rest hblank hc literal hnone hsymbol =>
    have hplain : Token.symbol? c = none := Option.eq_none_iff_forall_ne_some.mpr hsymbol
    have hliteral : c.toUpper :: (rest.takeWhile isLiteralChar).map Char.toUpper = literal :=
      map_toUpper_of_isLiteralChar (all_cons_takeWhile hc)
    obtain ⟨htake, _⟩ := takeWhile_map_toUpper isLiteralChar_toUpper rest
    rw [List.map_cons, scan]
    simp only [isBlank_toUpper, hblank, symbol?_toUpper, hplain, isLiteralChar_toUpper, hc, htake,
      hliteral, hnone, Bool.false_eq_true, ↓reduceIte]
  | case5 position c rest hblank hc literal value hvalue hsymbol ih =>
    have hplain : Token.symbol? c = none := Option.eq_none_iff_forall_ne_some.mpr hsymbol
    have hliteral : c.toUpper :: (rest.takeWhile isLiteralChar).map Char.toUpper = literal :=
      map_toUpper_of_isLiteralChar (all_cons_takeWhile hc)
    obtain ⟨htake, hdrop⟩ := takeWhile_map_toUpper isLiteralChar_toUpper rest
    rw [List.map_cons, scan]
    simp only [isBlank_toUpper, hblank, symbol?_toUpper, hplain, isLiteralChar_toUpper, hc, htake,
      hdrop, hliteral, hvalue, Bool.false_eq_true, ↓reduceIte]
    exact map_unspelled_cons rfl ih
  | case6 position c rest hblank hliteral hc name hsymbol ih =>
    have hplain : Token.symbol? c = none := Option.eq_none_iff_forall_ne_some.mpr hsymbol
    have hname : c.toUpper :: (rest.takeWhile isNameChar).map Char.toUpper =
        name.map Char.toUpper := rfl
    have hchars : ∀ d ∈ name, isNameChar d = true :=
      all_cons_takeWhile (isNameChar_of_isNameStart hc)
    have hupper : Text.upper (String.ofList (name.map Char.toUpper)) =
        Text.upper (String.ofList name) := by
      rw [upper_of_isNameChar hchars, upper_of_isNameChar, List.map_map]
      · exact congrArg String.ofList (List.map_congr_left fun d _ => toUpper_toUpper d)
      · intro d hd
        obtain ⟨d, hmem, rfl⟩ := List.mem_map.mp hd
        rw [isNameChar_toUpper, hchars d hmem]
    obtain ⟨htake, hdrop⟩ := takeWhile_map_toUpper isNameChar_toUpper rest
    rw [List.map_cons, scan]
    simp only [isBlank_toUpper, hblank, symbol?_toUpper, hplain, isLiteralChar_toUpper, hliteral,
      isNameStart_toUpper, hc, htake, hdrop, hname, hupper, List.length_map, Bool.false_eq_true,
      ↓reduceIte]
    exact map_unspelled_cons rfl ih
  | case7 position c rest hblank hliteral hc hsymbol =>
    have hplain : Token.symbol? c = none := Option.eq_none_iff_forall_ne_some.mpr hsymbol
    rw [List.map_cons, toUpper_of_not_isNameStart (by simpa using hc), scan]
    simp only [hblank, hplain, hliteral, hc, Bool.false_eq_true, ↓reduceIte]

end Lexeme

open Lexeme

namespace Kind

/-- What a reader returns, with nothing kept of the characters behind it. -/
def unspelled {kind : Kind} (result : kind.Value × List Lexeme) : kind.Value × List Lexeme :=
  (result.1, result.2.map Lexeme.unspelled)

theorem closed_unspelled (inner : Formula × List Lexeme) :
    closed (inner.1, inner.2.map Lexeme.unspelled) =
      (closed inner).map fun result => (result.1, result.2.map Lexeme.unspelled) := by
  obtain ⟨tree, _ | ⟨⟨token, text, position⟩, after⟩⟩ := inner
  · rfl
  · cases token <;> rfl

/-- The readers look at the tokens and the positions alone. -/
theorem read_unspelled (limit : Nat) (kind : Kind) (depth : Nat) (lexemes : List Lexeme) :
    kind.read limit depth (lexemes.map Lexeme.unspelled) =
      (kind.read limit depth lexemes).map unspelled := by
  induction kind, depth, lexemes using Kind.read_induct with
  | chain level depth lexemes ihFirst ihRest =>
    rw [read_chain, read_chain, ihFirst]
    cases hfirst : (Kind.one level.operand).read limit depth lexemes with
    | error e => rfl
    | ok first =>
      have hrest := ihRest first.2 (length_lt_of_read hfirst)
      simp only [Except.map, ok_bind, unspelled, hrest]
      cases (Kind.steps level).read limit depth first.2 <;> rfl
  | stepsNil level depth =>
    rw [List.map_nil, read_steps_nil]
    rfl
  | stepsDone level depth lexeme rest hop =>
    have hop' : level.operator? lexeme.unspelled.token = none := hop
    rw [List.map_cons, read_steps_done hop, read_steps_done hop']
    rfl
  | stepsStep level depth lexeme rest operator hop ihOperand ihMore =>
    have hop' : level.operator? lexeme.unspelled.token = some operator := hop
    rw [List.map_cons, read_steps_step hop, read_steps_step hop', ihOperand]
    cases hoperand : (Kind.one level.operand).read limit depth rest with
    | error e => rfl
    | ok operand =>
      have hmore := ihMore operand.2 (length_lt_of_read hoperand)
      simp only [Except.map, ok_bind, unspelled, hmore]
      cases (Kind.steps level).read limit depth operand.2 <;> rfl
  | signedNil depth =>
    rw [List.map_nil, read_signed_nil]
    rfl
  | signedBare depth lexeme rest hsign ih =>
    have hsign' : Formula.additive? lexeme.unspelled.token = none := hsign
    rw [List.map_cons] at *
    rw [read_signed_bare hsign, read_signed_bare hsign']
    exact ih
  | signedSign depth lexeme rest sign hsign ih =>
    have hsign' : Formula.additive? lexeme.unspelled.token = some sign := hsign
    rw [List.map_cons, read_signed_sign hsign, read_signed_sign hsign']
    split
    · rfl
    · rw [ih]
      cases (Kind.one .signed).read limit (depth + 1) rest <;> rfl
  | operandNil depth =>
    rw [List.map_nil, read_operand_nil]
    rfl
  | operandNumber depth lexeme rest value htoken =>
    have htoken' : lexeme.unspelled.token = .number value := htoken
    rw [List.map_cons, read_operand_number htoken, read_operand_number htoken']
    rfl
  | operandName depth lexeme rest text htoken =>
    have htoken' : lexeme.unspelled.token = .name text := htoken
    rw [List.map_cons, read_operand_name htoken, read_operand_name htoken']
    rfl
  | operandParens depth lexeme rest htoken ih =>
    have htoken' : lexeme.unspelled.token = .openParen := htoken
    rw [List.map_cons, read_operand_parens htoken, read_operand_parens htoken']
    split
    · rfl
    · rw [ih]
      cases (Kind.one (.chain .additive)).read limit (depth + 1) rest with
      | error e => rfl
      | ok inner => exact closed_unspelled inner
  | operandOther depth lexeme rest hnumber hname hopen =>
    have hsame : lexeme.unspelled.token = lexeme.token := rfl
    rw [List.map_cons, read_operand_other hnumber hname hopen,
      read_operand_other (hsame ▸ hnumber) (hsame ▸ hname) (hsame ▸ hopen)]
    rfl

end Kind

namespace Formula

variable {text other : String} {limits : Limits}

theorem whole_unspelled (result : Formula × List Lexeme) :
    whole (result.1, result.2.map Lexeme.unspelled) = whole result := by
  obtain ⟨tree, _ | ⟨lexeme, after⟩⟩ := result <;> rfl

/-- Texts that are alike in upper case are read alike, down to the errors and their positions. -/
theorem parse_eq_of_toUpper
    (h : other.toList.map Char.toUpper = text.toList.map Char.toUpper) (limits : Limits) :
    parse other limits = parse text limits := by
  have hlength : other.length = text.length := by
    rw [← String.length_toList, ← String.length_toList, ← List.length_map Char.toUpper, h,
      List.length_map]
  by_cases hlong : limits.maxLength < text.length
  · rw [parse_of_long hlong, parse_of_long (hlength ▸ hlong), hlength]
  · have hread : ∀ scanned : Except FormulaError (List Lexeme),
        (scanned >>= fun lexemes =>
          (Kind.one (.chain .additive)).read limits.maxDepth 0 lexemes >>= whole) =
        (scanned.map (List.map Lexeme.unspelled) >>= fun lexemes =>
          (Kind.one (.chain .additive)).read limits.maxDepth 0 lexemes >>= whole) := by
      intro scanned
      cases scanned with
      | error e => rfl
      | ok lexemes =>
        simp only [Except.map, ok_bind, Kind.read_unspelled]
        cases (Kind.one (.chain .additive)).read limits.maxDepth 0 lexemes with
        | error e => rfl
        | ok result => exact (whole_unspelled result).symm
    rw [parse_eq_read (by omega), parse_eq_read (by omega), hread,
      hread (Lexeme.scan 0 text.toList), ← Lexeme.scan_toUpper, h, Lexeme.scan_toUpper]

end Formula

/--
Changes to the blanks of a text: more of them where no lexeme is cut, which the ends of the text
are, too, or some in place of others.
-/
inductive Respaced : List Char → List Char → Prop
  | insert {front blanks back : List Char} {lexemes : List Lexeme} :
      Lexed 0 (front ++ back) lexemes → Uncut front.length lexemes →
      (∀ c ∈ blanks, Text.isBlank c = true) →
      Respaced (front ++ back) (front ++ (blanks ++ back))
  | replace {front blanks others back : List Char} : blanks ≠ [] → others ≠ [] →
      (∀ c ∈ blanks, Text.isBlank c = true) → (∀ c ∈ others, Text.isBlank c = true) →
      Respaced (front ++ (blanks ++ back)) (front ++ (others ++ back))
  | trans {text middle other : List Char} : Respaced text middle → Respaced middle other →
      Respaced text other

namespace Respaced

variable {text other : List Char}

/-- Blanks are in no token, and none of these changes puts two tokens together. -/
theorem spells (h : Respaced text other) {tokens : List Token} (htext : Spells text tokens) :
    Spells other tokens := by
  induction h with
  | @insert front blanks back lexemes hlexed uncut hblanks =>
    obtain ⟨others, hothers, rfl⟩ := htext 0
    obtain rfl := hlexed.unique hothers
    rw [← Nat.zero_add front.length] at uncut
    obtain ⟨used, more, rfl, hfront, hback⟩ := hlexed.parts uncut
    by_cases hne : blanks = []
    · subst hne
      exact hlexed.spells
    · rw [List.map_append]
      exact hfront.spells.append_blanks hback.spells hne hblanks
  | @replace front blanks others back hne hne' hblanks hothers =>
    obtain ⟨lexemes, hlexed, rfl⟩ := htext 0
    obtain ⟨c, tail, rfl⟩ := List.exists_cons_of_ne_nil hne
    have uncut := hlexed.uncut_of_blank (hblanks c List.mem_cons_self)
    obtain ⟨used, more, rfl, hfront, hback⟩ := hlexed.parts uncut
    rw [List.map_append]
    exact hfront.spells.append_blanks (hback.of_blanks hblanks).spells hne' hothers
  | trans _ _ ih ih' => exact ih' (ih htext)

end Respaced

namespace Phrase

/-- A phrase fits one level deeper if the limit is raised by one. -/
theorem within_succ {limit depth : Nat} {kind : Kind} {phrase : Phrase kind} :
    phrase.Within (limit + 1) (depth + 1) ↔ phrase.Within limit depth := by
  induction phrase generalizing depth with
  | chain first rest ihFirst ihRest => rw [within_chain, within_chain, ihFirst, ihRest]
  | done => simp
  | step operator fits operand more ihOperand ihMore =>
    rw [within_step, within_step, ihOperand, ihMore]
  | signed sign fits inner ih => rw [within_signed, within_signed, ih, Nat.add_lt_add_iff_right]
  | bare operand ih => exact ih
  | number value => rw [within_number, within_number, Nat.add_le_add_iff_right]
  | name text => rw [within_name, within_name, Nat.add_le_add_iff_right]
  | parens inner ih => rw [within_parens, within_parens, ih, Nat.add_lt_add_iff_right]

/-- A signed operand as a whole formula. -/
def single (signed : Phrase (.one .signed)) : Derivation := sum (product signed .done) .done

section Single

variable {signed : Phrase (.one .signed)} {limit depth : Nat}

@[simp] theorem tokens_single : (single signed).tokens = signed.tokens := by
  simp [single]

@[simp] theorem tree_single : (single signed).tree = signed.tree := rfl

@[simp] theorem within_single : (single signed).Within limit depth ↔ signed.Within limit depth := by
  simp [single]

end Single

/-- Parentheses around a formula leave no mark in the tree. -/
theorem exists_enclosed (derivation : Derivation) :
    ∃ enclosed : Derivation, enclosed.tokens = .openParen :: (derivation.tokens ++ [.closeParen]) ∧
      enclosed.tree = derivation.tree ∧
      ∀ limit, derivation.Within limit 0 → enclosed.Within (limit + 1) 0 := by
  refine ⟨single (.bare (.parens derivation)), by simp, rfl, fun limit h => ?_⟩
  have hinner : derivation.Within (limit + 1) 1 := within_succ.mpr h
  simpa using hinner

theorem exists_eq_sum (derivation : Derivation) :
    ∃ operand factors terms, derivation = sum (product operand factors) terms := by
  cases derivation with
  | chain first terms =>
    change Term at first
    cases first with
    | chain operand factors => exact ⟨operand, factors, terms, rfl⟩

/-- A plus before a formula binds to its first operand, and leaves no mark in the tree. -/
theorem exists_plus (derivation : Derivation) :
    ∃ signed : Derivation, signed.tokens = .plus :: derivation.tokens ∧
      signed.tree = derivation.tree ∧
      ∀ limit, derivation.Within limit 0 → signed.Within (limit + 1) 0 := by
  obtain ⟨operand, factors, terms, rfl⟩ := derivation.exists_eq_sum
  refine ⟨sum (product (.signed .plus Operator.level_plus operand) factors) terms,
    by simp [Operator.token], rfl, fun limit h => ?_⟩
  obtain ⟨⟨hoperand, hfactors⟩, hterms⟩ := within_sum.mp h |>.imp_left within_product.mp
  have hle := Nat.le_succ limit
  have hsigned : operand.Within (limit + 1) 1 := within_succ.mpr hoperand
  simpa using ⟨⟨hsigned, hfactors.mono hle⟩, hterms.mono hle⟩

end Phrase

namespace Formula

variable {text : String} {limits wide : Limits} {tree : Formula}

/-- Another text is read alike if its tokens have a derivation of the same tree. -/
theorem parse_of_rewritten (h : parse text limits = .ok tree) {other : String}
    (hlength : other.length ≤ wide.maxLength)
    (rewrite : ∀ derivation : Derivation, Spells text.toList derivation.tokens →
      derivation.Within limits.maxDepth 0 → ∃ rewritten : Derivation,
        Spells other.toList rewritten.tokens ∧ rewritten.tree = derivation.tree ∧
          rewritten.Within wide.maxDepth 0) :
    parse other wide = .ok tree := by
  obtain ⟨lexemes, hlexed, derivation, htokens, hwithin, rfl⟩ := exists_derivation h
  have hspells := hlexed.spells
  rw [← htokens] at hspells
  obtain ⟨rewritten, hother, htree, hrewritten⟩ := rewrite derivation hspells hwithin
  rw [← htree]
  exact parse_of_spells hother hlength hrewritten

theorem parse_respaced (h : parse text limits = .ok tree) {other : String}
    (hother : Respaced text.toList other.toList) (hlength : other.length ≤ wide.maxLength)
    (hdepth : limits.maxDepth ≤ wide.maxDepth) : parse other wide = .ok tree :=
  parse_of_rewritten h hlength fun derivation hspells hwithin =>
    ⟨derivation, hother.spells hspells, rfl, hwithin.mono hdepth⟩

theorem parse_enclosed (h : parse text limits = .ok tree)
    (hlength : text.length + 2 ≤ wide.maxLength) (hdepth : limits.maxDepth + 1 ≤ wide.maxDepth) :
    parse ("(" ++ text ++ ")") wide = .ok tree := by
  have hother : ("(" ++ text ++ ")").length = 1 + text.length + 1 := by
    rw [String.length_append, String.length_append]
    rfl
  refine parse_of_rewritten h (by omega) fun derivation hspells hwithin => ?_
  obtain ⟨enclosed, htokens, htree, henclosed⟩ := derivation.exists_enclosed
  refine ⟨enclosed, ?_, htree, (henclosed _ hwithin).mono hdepth⟩
  rw [htokens]
  simpa using hspells.enclosed spells_nil

theorem parse_plus (h : parse text limits = .ok tree)
    (hlength : text.length + 1 ≤ wide.maxLength) (hdepth : limits.maxDepth + 1 ≤ wide.maxDepth) :
    parse ("+" ++ text) wide = .ok tree := by
  have hother : ("+" ++ text).length = 1 + text.length := String.length_append _ _
  refine parse_of_rewritten h (by omega) fun derivation hspells hwithin => ?_
  obtain ⟨signed, htokens, htree, hsigned⟩ := derivation.exists_plus
  refine ⟨signed, ?_, htree, (hsigned _ hwithin).mono hdepth⟩
  rw [htokens]
  simpa using hspells.symbol (c := '+') rfl

/--
How a formula is spelled makes no difference to its tree. The case of letters changes nothing at
all, not even an error. Blanks can be put where no lexeme is cut, or in place of other blanks, and
one more level of depth is enough for parentheses around the formula or a plus before it.
-/
theorem parse_respelled (text : String) (limits : Limits) :
    (∀ other : String, other.toList.map Char.toUpper = text.toList.map Char.toUpper →
      parse other limits = parse text limits) ∧
    ∀ tree, parse text limits = .ok tree → ∀ wide : Limits,
      (∀ other : String, Respaced text.toList other.toList → other.length ≤ wide.maxLength →
        limits.maxDepth ≤ wide.maxDepth → parse other wide = .ok tree) ∧
      (limits.maxDepth + 1 ≤ wide.maxDepth →
        (text.length + 2 ≤ wide.maxLength → parse ("(" ++ text ++ ")") wide = .ok tree) ∧
        (text.length + 1 ≤ wide.maxLength → parse ("+" ++ text) wide = .ok tree)) :=
  ⟨fun _ hother => parse_eq_of_toUpper hother limits, fun _ htree _ =>
    ⟨fun _ hother hlength hdepth => parse_respaced htree hother hlength hdepth, fun hdepth =>
      ⟨fun hlength => parse_enclosed htree hlength hdepth,
        fun hlength => parse_plus htree hlength hdepth⟩⟩⟩

/-- A blank can be put before a plus, and a tabulator in place of the blank behind it. -/
theorem parse_respelled_sum :
    parse "p1+ B" ⟨5, 0⟩ = .ok (.chain (.variable "P1") (.step .plus (.variable "B") .done)) ∧
      parse "P1+ b" ⟨5, 0⟩ = parse "p1+ B" ⟨5, 0⟩ ∧
      ∀ text ∈ ["p1 +\tB", "(p1+ B)", "+p1+ B"],
        parse text ⟨7, 1⟩ = .ok (.chain (.variable "P1") (.step .plus (.variable "B") .done)) := by
  have hscan : (Lexeme.scan 0 (['p', '1'] ++ ['+', ' ', 'B'])).toOption =
      some [⟨.name "P1", ['p', '1'], 0⟩, ⟨.plus, ['+'], 2⟩, ⟨.name "B", ['B'], 4⟩] := by
    decide +kernel
  have hlexed := lexed_of_scan (eq_ok_of_toOption hscan)
  have hparse : parse "p1+ B" ⟨5, 0⟩ =
      .ok (.chain (.variable "P1") (.step .plus (.variable "B") .done)) :=
    @parse_of_derivation "p1+ B" ⟨5, 0⟩ _ (by decide) hlexed
      (.chain (.chain (.bare (.name "P1")) .done)
        (.step .plus rfl (.chain (.bare (.name "B")) .done) .done)) rfl
      (by simp [Phrase.Within, Phrase.leaves])
  have hinsert : Respaced "p1+ B".toList "p1 + B".toList :=
    .insert hlexed (by decide)
      (List.forall_mem_singleton.mpr (rfl : Text.isBlank ' ' = true))
  have hreplace : Respaced "p1 + B".toList "p1 +\tB".toList :=
    @Respaced.replace ['p', '1', ' ', '+'] [' '] ['\t'] ['B'] (List.cons_ne_nil _ _)
      (List.cons_ne_nil _ _) (List.forall_mem_singleton.mpr rfl)
      (List.forall_mem_singleton.mpr rfl)
  obtain ⟨hcase, hspelled⟩ := parse_respelled "p1+ B" ⟨5, 0⟩
  obtain ⟨hblanks, hdeeper⟩ := hspelled _ hparse ⟨7, 1⟩
  obtain ⟨hparens, hplus⟩ := hdeeper (Nat.le_refl 1)
  refine ⟨hparse, hcase "P1+ b" (by decide), ?_⟩
  simp only [List.forall_mem_cons]
  exact ⟨hblanks _ (hinsert.trans hreplace) (by decide) (Nat.zero_le 1), hparens (by decide),
    hplus (by decide), List.forall_mem_nil _⟩

end Formula

end FinalGrades
