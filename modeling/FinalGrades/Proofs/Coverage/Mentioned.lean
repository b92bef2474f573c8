import FinalGrades.Proofs.Coverage.Words
import FinalGrades.Proofs.Formula.Names
import FinalGrades.Proofs.Formula.Parsing
import FinalGrades.Proofs.Keyed

/-!
The words of a formula's text in upper case are what its lexemes mention, names and the digits of
numbers. The findings about a formula that can be read are therefore those about the names in its
tree.
-/

namespace FinalGrades

namespace Lexeme

variable {position : Nat} {text : List Char} {lexemes : List Lexeme}

/-- The words that a lexeme adds to those of the text. -/
def mentioned (lexeme : Lexeme) : List String :=
  match lexeme.token with
  | .name text => [text]
  | .number _ => Coverage.words lexeme.text
  | _ => []

/-- Where no name goes on, no word goes on in the upper case. -/
theorem Lexed.ends_upperChars (h : Lexed position text lexemes) (ends : Ends isNameChar text) :
    Ends isSiglaChar (Text.upperChars text) := by
  cases h with
  | done => exact ends_nil _
  | blank hblank _ =>
    obtain ⟨hupper, hsigla⟩ := Text.upperChar_of_isBlank hblank
    rw [Text.upperChars_cons, hupper]
    exact ends_cons _ hsigla
  | symbol hsymbol _ =>
    obtain ⟨_, hsigla, hupper⟩ := symbol?_alone hsymbol
    rw [Text.upperChars_cons, hupper]
    exact ends_cons _ hsigla
  | @number _ span rest lexemes hspan _ _ =>
    rw [Text.upperChars_append, Text.upperChars_of_isLiteralChar hspan.chars]
    cases span with
    | nil => simpa using hspan.digit
    | cons c span => exact ends_cons _ (ends c rfl)
  | name hspan _ _ =>
    obtain ⟨c, hc, hstart⟩ := hspan.start
    have hfalse := (ends_append.mp ends).1 c hc
    rw [isNameChar_of_isNameStart hstart] at hfalse
    cases hfalse

/-- A number that no name follows does not touch a name either. -/
theorem Lexed.ends_isNameChar (h : Lexed position text lexemes) (ends : Ends isLiteralChar text)
    (hname : ∀ token ∈ (lexemes.map (·.token)).head?, token.name? = none) :
    Ends isNameChar text := by
  cases h with
  | done => exact ends_nil _
  | blank hblank _ => exact ends_cons _ (Text.upperChar_of_isBlank hblank).2
  | symbol hsymbol _ => exact ends_cons _ (symbol?_alone hsymbol).2.1
  | @number _ span rest lexemes hspan _ _ =>
    obtain ⟨d, hd⟩ : ∃ d, d ∈ span.head? := by
      cases span with
      | nil => simpa using hspan.digit
      | cons d span => exact ⟨d, rfl⟩
    have hfalse := (ends_append.mp ends).1 d hd
    rw [hspan.chars d (List.mem_of_mem_head? hd)] at hfalse
    cases hfalse
  | name hspan _ _ => exact absurd (hname _ rfl) (by simp [Token.name?])

theorem mentioned_of_plain {lexeme : Lexeme}
    (h : lexeme.token.name? = none ∧ lexeme.token.isNumber = false) : lexeme.mentioned = [] := by
  obtain ⟨hname, hnumber⟩ := h
  unfold mentioned
  split
  next htoken => simp [htoken, Token.name?] at hname
  next htoken => simp [htoken, Token.isNumber] at hnumber
  next => rfl

/-- The words of a text are those that its lexemes mention, if no number has a name after it. -/
theorem Lexed.words_upperChars (h : Lexed position text lexemes)
    (hparted : (lexemes.map (·.token)).IsChain Token.Parted) :
    Coverage.words (Text.upperChars text) = lexemes.flatMap mentioned := by
  induction h with
  | done => exact Coverage.words_nil
  | blank hblank _ ih =>
    obtain ⟨hupper, hsigla⟩ := Text.upperChar_of_isBlank hblank
    rw [Text.upperChars_cons, hupper, List.singleton_append, Coverage.words_cons hsigla,
      ih hparted]
  | symbol hsymbol _ ih =>
    obtain ⟨_, hsigla, hupper⟩ := symbol?_alone hsymbol
    rw [List.map_cons, List.isChain_cons] at hparted
    rw [Text.upperChars_cons, hupper, List.singleton_append, Coverage.words_cons hsigla,
      ih hparted.2, List.flatMap_cons, mentioned_of_plain (Token.plain_of_symbol? hsymbol),
      List.nil_append]
  | number hspan ends hlexed ih =>
    rw [List.map_cons, List.isChain_cons] at hparted
    have hname := hlexed.ends_isNameChar ends fun token htoken => hparted.1 token htoken rfl
    rw [Text.upperChars_append, Text.upperChars_of_isLiteralChar hspan.chars,
      Coverage.words_append _ (hlexed.ends_upperChars hname), ih hparted.2, List.flatMap_cons]
    rfl
  | @name position span rest lexemes hspan ends hlexed ih =>
    rw [List.map_cons, List.isChain_cons] at hparted
    have hword := Coverage.upperWords_name_append hspan (hlexed.ends_upperChars ends)
    rw [Coverage.upperWords, Coverage.upperWords, ih hparted.2,
      upper_of_isNameChar hspan.chars] at hword
    exact hword

/-- A lexeme mentions its name, or the runs of digits of its number. -/
theorem Lexed.mem_mentioned_iff (h : Lexed position text lexemes) {lexeme : Lexeme} {word : String}
    (hmem : lexeme ∈ lexemes) : word ∈ lexeme.mentioned ↔
      lexeme.token.name? = some word ∨
        (lexeme.token.isNumber = true ∧ IsRun isDigit word.toList lexeme.text) := by
  rcases h.shape hmem with ⟨c, hsymbol, _⟩ | ⟨hspan, htoken⟩ | ⟨_, htoken⟩
  · have hplain := Token.plain_of_symbol? hsymbol
    simp [mentioned_of_plain hplain, hplain]
  · have hchars : ∀ c ∈ lexeme.text, isSiglaChar c = isDigit c := fun c hc =>
      isSiglaChar_of_isLiteralChar (hspan.chars c hc)
    have hruns : IsRun isSiglaChar word.toList lexeme.text ↔
        IsRun isDigit word.toList lexeme.text :=
      ⟨IsRun.of_eq_on hchars, IsRun.of_eq_on fun c hc => (hchars c hc).symm⟩
    simp [mentioned, htoken, Token.name?, Token.isNumber, Coverage.mem_words_iff, hruns]
  · simp [mentioned, htoken, Token.name?, Token.isNumber, eq_comm]

/-- A name does not begin with a digit. -/
theorem isNumeral_of_isName {span : List Char} (h : IsName span) :
    Coverage.isNumeral (String.ofList (span.map Char.toUpper)) = false := by
  obtain ⟨c, hc, hstart⟩ := h.start
  have hfalse : c.toUpper.isDigit = false := isDigit_toUpper hstart
  simp only [Coverage.isNumeral, String.toList_ofList, List.all_map, List.all_eq_false]
  exact ⟨c, List.mem_of_mem_head? hc, by simp [hfalse]⟩

theorem Lexed.isNumeral_name (h : Lexed position text lexemes) {lexeme : Lexeme} {word : String}
    (hmem : lexeme ∈ lexemes) (hword : lexeme.token.name? = some word) :
    Coverage.isNumeral word = false := by
  rcases h.shape hmem with ⟨c, hsymbol, _⟩ | ⟨_, htoken⟩ | ⟨hspan, htoken⟩
  · rw [(Token.plain_of_symbol? hsymbol).1] at hword
    cases hword
  · rw [htoken] at hword
    cases hword
  · rw [htoken] at hword
    cases hword
    exact isNumeral_of_isName hspan

end Lexeme

namespace Coverage

theorem isNumeral_of_isRun {word : String} {text : List Char}
    (h : IsRun isDigit word.toList text) : isNumeral word = true :=
  List.all_eq_true.mpr h.2.1

theorem mem_keys_setOf {name : String} {names : List String} :
    name ∈ (setOf names).keys ↔ name ∈ names := by
  simp [setOf, Keyed.mem_keys_ofList]

/-- What a formula mentions: the names of its tree, and the runs of digits of its numbers. -/
theorem mem_words_of_parse {formula : String} {limits : Limits} {tree : Formula}
    (h : Formula.parse formula limits = .ok tree) :
    ∃ lexemes, Lexeme.Lexed 0 formula.toList lexemes ∧ ∀ word,
      (word ∈ words (Text.upperChars formula.toList) ↔ word ∈ tree.names ∨
        ∃ lexeme ∈ lexemes, lexeme.token.isNumber = true ∧
          IsRun isDigit word.toList lexeme.text) ∧
      (word ∈ tree.names → isNumeral word = false) := by
  obtain ⟨lexemes, hlexed, derivation, htokens, _, rfl⟩ := Formula.exists_derivation h
  have hnames : ∀ word, word ∈ Formula.names derivation.tree ↔
      ∃ lexeme ∈ lexemes, lexeme.token.name? = some word := by
    intro word
    rw [Formula.names, List.mem_eraseDups]
    have hoccurrences : Formula.occurrences derivation.tree = _ := derivation.occurrences_tree
    rw [hoccurrences, htokens]
    simp
  have hparted := derivation.isChain_parted
  rw [htokens] at hparted
  refine ⟨lexemes, hlexed, fun word => ⟨?_, fun hword => ?_⟩⟩
  · rw [hlexed.words_upperChars hparted, List.mem_flatMap, hnames]
    constructor
    · rintro ⟨lexeme, hmem, hword⟩
      rcases (hlexed.mem_mentioned_iff hmem).mp hword with hname | hnumber
      · exact .inl ⟨lexeme, hmem, hname⟩
      · exact .inr ⟨lexeme, hmem, hnumber⟩
    · rintro (⟨lexeme, hmem, hname⟩ | ⟨lexeme, hmem, hnumber⟩)
      · exact ⟨lexeme, hmem, (hlexed.mem_mentioned_iff hmem).mpr (.inl hname)⟩
      · exact ⟨lexeme, hmem, (hlexed.mem_mentioned_iff hmem).mpr (.inr hnumber)⟩
  · obtain ⟨lexeme, hmem, hname⟩ := (hnames word).mp hword
    exact hlexed.isNumeral_name hmem hname

section Findings

variable {formula : String} {limits : Limits} {tree : Formula} {siglas : List String}

/-- The unknown words of a formula are names of its tree. -/
theorem mem_unknown_of_parse (h : Formula.parse formula limits = .ok tree) {word : String} :
    word ∈ (ofFormula formula siglas).unknown.keys ↔
      word ∈ tree.names ∧ ∀ sigla ∈ siglas, Text.upper sigla ≠ word := by
  obtain ⟨_, _, hwords⟩ := mem_words_of_parse h
  obtain ⟨hmentioned, hname⟩ := hwords word
  simp only [ofFormula, mem_keys_setOf, List.mem_filter, hmentioned, Bool.and_eq_true,
    Bool.not_eq_true', List.contains_eq_mem, decide_eq_false_iff_not, List.mem_map, not_exists,
    not_and]
  constructor
  · rintro ⟨hword | ⟨_, _, _, hrun⟩, hnumeral, hregistered⟩
    · exact ⟨hword, hregistered⟩
    · rw [isNumeral_of_isRun hrun] at hnumeral
      cases hnumeral
  · rintro ⟨hword, hregistered⟩
    exact ⟨.inl hword, hname hword, hregistered⟩

/-- Siglas other than numerals are unused if they are no names of the tree. -/
theorem mem_unused_of_parse (h : Formula.parse formula limits = .ok tree)
    (hsiglas : ∀ sigla ∈ siglas, isNumeral (Text.upper sigla) = false) {sigla : String} :
    sigla ∈ (ofFormula formula siglas).unused.keys ↔
      sigla ∈ siglas ∧ Text.upper sigla ∉ tree.names := by
  obtain ⟨_, _, hwords⟩ := mem_words_of_parse h
  simp only [ofFormula, mem_keys_setOf, List.mem_filter, Bool.not_eq_true', List.contains_eq_mem,
    decide_eq_false_iff_not, (hwords _).1, not_or]
  refine and_congr_right fun hsigla => and_iff_left ?_
  rintro ⟨_, _, _, hrun⟩
  have hnumeral := hsiglas sigla hsigla
  rw [isNumeral_of_isRun hrun] at hnumeral
  cases hnumeral

end Findings

/--
The findings about a formula that can be read are about its names: the unknown words are those
that are no registered sigla, and a sigla is unused if it is no name and no run of digits of a
number.
-/
theorem findings_of_parse {formula : String} {limits : Limits} {tree : Formula}
    (siglas : List String) (h : Formula.parse formula limits = .ok tree) :
    ∃ lexemes, Lexeme.Lexed 0 formula.toList lexemes ∧
      (∀ word, word ∈ (ofFormula formula siglas).unknown.keys ↔
        word ∈ tree.names ∧ ∀ sigla ∈ siglas, Text.upper sigla ≠ word) ∧
      ∀ sigla, sigla ∈ (ofFormula formula siglas).unused.keys ↔
        sigla ∈ siglas ∧ Text.upper sigla ∉ tree.names ∧
          ¬∃ lexeme ∈ lexemes, lexeme.token.isNumber = true ∧
            IsRun isDigit (Text.upper sigla).toList lexeme.text := by
  obtain ⟨lexemes, hlexed, hwords⟩ := mem_words_of_parse h
  refine ⟨lexemes, hlexed, fun word => ?_, fun sigla => ?_⟩
  · obtain ⟨hmentioned, hname⟩ := hwords word
    simp only [ofFormula, mem_keys_setOf, List.mem_filter, hmentioned, Bool.and_eq_true,
      Bool.not_eq_true', List.contains_eq_mem, decide_eq_false_iff_not, List.mem_map, not_exists,
      not_and]
    constructor
    · rintro ⟨hword | ⟨lexeme, _, _, hrun⟩, hnumeral, hregistered⟩
      · exact ⟨hword, hregistered⟩
      · rw [isNumeral_of_isRun hrun] at hnumeral
        cases hnumeral
    · rintro ⟨hword, hregistered⟩
      exact ⟨.inl hword, hname hword, hregistered⟩
  · simp only [ofFormula, mem_keys_setOf, List.mem_filter, Bool.not_eq_true', List.contains_eq_mem,
      decide_eq_false_iff_not, (hwords _).1, not_or]

theorem findings_of_parse_decimal :
    ∃ tree, Formula.parse "2.5*a" {} = .ok tree ∧
      ∃ lexemes, Lexeme.Lexed 0 "2.5*a".toList lexemes ∧
        (∀ word, word ∈ (ofFormula "2.5*a" ["5", "b"]).unknown.keys ↔
          word ∈ tree.names ∧ ∀ sigla ∈ ["5", "b"], Text.upper sigla ≠ word) ∧
        ∀ sigla, sigla ∈ (ofFormula "2.5*a" ["5", "b"]).unused.keys ↔
          sigla ∈ ["5", "b"] ∧ Text.upper sigla ∉ tree.names ∧
            ¬∃ lexeme ∈ lexemes, lexeme.token.isNumber = true ∧
              IsRun isDigit (Text.upper sigla).toList lexeme.text := by
  have hscan : (Lexeme.scan 0 "2.5*a".toList).toOption =
      some [⟨.number (Lexeme.literalValue ['2', '.', '5']), ['2', '.', '5'], 0⟩,
        ⟨.times, ['*'], 3⟩, ⟨.name "A", ['a'], 4⟩] := by
    decide +kernel
  have h : Formula.parse "2.5*a" {} = .ok _ :=
    Formula.parse_of_derivation (by decide)
      (Lexeme.lexed_of_scan (Attempt.eq_ok_of_toOption hscan))
      (.chain (.chain (.bare (.number (Lexeme.literalValue ['2', '.', '5'])))
        (.step .times rfl (.bare (.name "A")) .done)) .done) rfl
      (by simp [Phrase.Within, Phrase.leaves])
  exact ⟨_, h, findings_of_parse ["5", "b"] h⟩

end Coverage

end FinalGrades
