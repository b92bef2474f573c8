import FinalGrades.Proofs.Coverage.Mentioned
import FinalGrades.Proofs.Scheme

/-!
The formula of a scheme against the siglas it was made for: it mentions every one of them, and has
no other word but numbers, as long as no weight is infinite after it was rounded.
-/

namespace FinalGrades

open Lexeme

namespace Scheme

open Binary64 Coverage

variable {siglas : List String} {sigla text word : String} {total weight : Binary64}
  {weights : List Binary64}

/-- The factors that the formula of the scheme gives to the siglas, none in a plain mean. -/
def factors (scheme : Scheme) : List Binary64 :=
  match scheme.averaging with
  | .simple => []
  | .weighted =>
    let weights := scheme.weights.getD []
    weights.map fun weight => roundWeight (weight / Binary64.sum weights)

theorem thousand_eq : ∃ n, ∃ hn : Representable n, n ≠ 0 ∧ (1000 : Binary64) = finite false n hn :=
  ⟨_, _, Nat.mul_ne_zero (by decide) (Nat.ne_of_gt unit_pos), ofNat_eq (n := 1000) (by decide)⟩

theorem isNaN_roundWeight (h : weight.isNaN = false) : (roundWeight weight).isNaN = false := by
  obtain ⟨n, hn, hne, hthousand⟩ := thousand_eq
  unfold roundWeight
  rw [hthousand]
  dsimp only
  split
  · rw [zero_eq]
    rfl
  · exact isNaN_div (isNaN_round (isNaN_mul h hne)) hne

/-- A total that weights are divided by. -/
theorem exists_eq_positive (htotal : total.isFinite = true) (hpos : ¬total ≤ 0) :
    ∃ n, ∃ hn, 0 < n ∧ total = finite false n hn := by
  cases total with
  | nan => cases htotal
  | infinite s => cases htotal
  | finite s n hn =>
    rw [zero_eq, finite_le_iff] at hpos
    simp only [signed] at hpos
    cases s with
    | true =>
      simp only [if_true, Bool.false_eq_true, if_false] at hpos
      omega
    | false =>
      refine ⟨n, hn, Nat.pos_of_ne_zero fun hzero => hpos ?_, rfl⟩
      simp [hzero]

/-- The part of a positive total is a number, though it may be infinite. -/
theorem isNaN_part (hweight : weight.isFinite = true) (htotal : total.isFinite = true)
    (hpos : ¬total ≤ 0) : (weight / total).isNaN = false := by
  have hnumber : weight.isNaN = false := by
    cases weight with
    | nan => cases hweight
    | infinite s => rfl
    | finite s m hm => rfl
  obtain ⟨n, hn, hn0, rfl⟩ := exists_eq_positive htotal hpos
  exact isNaN_div hnumber (Nat.ne_of_gt hn0)

theorem isNumeral_of_mem_plain (h : weight.isFinite = true)
    (hword : word ∈ upperWords weight.plain.toList) : isNumeral word = true := by
  cases weight with
  | nan => cases h
  | infinite s => cases h
  | finite s n hn =>
    obtain ⟨span, htext, hliteral, _⟩ := plain_finite s hn
    rw [htext, String.toList_append, String.toList_ofList] at hword
    cases s with
    | false => exact isNumeral_of_literal hliteral.chars hword
    | true =>
      have hsign : upperWords ('-' :: span) = upperWords span := upperWords_cons rfl rfl
      exact isNumeral_of_literal hliteral.chars (hsign ▸ hword)

/-- An infinite number is written as a word. -/
theorem upperWords_infinite (s : Bool) : upperWords (infinite s).plain.toList = ["INF"] := by
  have hname : IsName ['i', 'n', 'f'] := ⟨List.all_eq_true.mp rfl, 'i', rfl, rfl⟩
  have hword : upperWords ['i', 'n', 'f'] = ["INF"] := (upperWords_name hname).trans rfl
  cases s with
  | false => exact hword
  | true => exact (upperWords_cons (c := '-') rfl rfl).trans hword

/-- A number is written with digits only, or it is infinite and written as a word. -/
theorem mem_upperWords_plain (h : weight.isNaN = false) (hnumeral : isNumeral word = false) :
    word ∈ upperWords weight.plain.toList ↔ weight.isFinite = false ∧ word = "INF" := by
  cases weight with
  | nan => cases h
  | infinite s =>
    rw [upperWords_infinite, List.mem_singleton]
    exact (and_iff_right rfl).symm
  | finite s n hn =>
    refine ⟨fun hword => ?_, fun ⟨hinfinite, _⟩ => nomatch hinfinite⟩
    rw [isNumeral_of_mem_plain rfl hword] at hnumeral
    cases hnumeral

theorem upperWords_weightedTerm (h : IsName sigla.toList) :
    upperWords (weightedTerm total sigla weight).toList =
      Text.upper sigla :: upperWords (roundWeight (weight / total)).plain.toList := by
  rw [toList_weightedTerm, upperWords_cons rfl rfl, upperWords_append_cons _ rfl rfl,
    upperWords_cons rfl rfl, upperWords_cons rfl rfl, upperWords_append_cons _ rfl rfl,
    upperWords_nil, List.append_nil, upperWords_name h, String.ofList_toList]
  rfl

theorem upperWords_simpleFormula (hnames : ∀ sigla ∈ siglas, IsName sigla.toList) :
    upperWords (simpleFormula siglas).toList =
      siglas.map Text.upper ++ upperWords (digitsOf siglas.length) := by
  have hsiglas : (siglas.map String.toList).flatMap upperWords = siglas.map Text.upper := by
    have hword : ∀ sigla ∈ siglas, upperWords sigla.toList = [Text.upper sigla] := by
      intro sigla hsigla
      rw [upperWords_name (hnames sigla hsigla), String.ofList_toList]
    rw [List.flatMap_map, List.flatMap_def, List.map_congr_left hword, ← List.flatMap_def,
      List.map_eq_flatMap]
  rw [toList_simpleFormula, upperWords_cons rfl rfl, upperWords_append_cons _ rfl rfl,
    upperWords_cons rfl rfl, upperWords_cons rfl rfl, upperWords_cons rfl rfl,
    upperWords_intercalate, hsiglas]

/-- The words of a weighted formula are the siglas, and those of the factors. -/
theorem mem_upperWords_weighted (hnames : ∀ sigla ∈ siglas, IsName sigla.toList)
    (hlength : weights.length = siglas.length) :
    word ∈ upperWords (String.intercalate " + "
        (siglas.zipWith (weightedTerm total) weights)).toList ↔
      word ∈ siglas.map Text.upper ∨
        ∃ weight ∈ weights, word ∈ upperWords (roundWeight (weight / total)).plain.toList := by
  have hsiglas : siglas = (siglas.zip weights).map Prod.fst :=
    (List.map_fst_zip (Nat.le_of_eq hlength.symm)).symm
  have hweights : weights = (siglas.zip weights).map Prod.snd :=
    (List.map_snd_zip (Nat.le_of_eq hlength)).symm
  have hplus : " + ".toList = [' ', '+', ' '] := rfl
  rw [String.toList_intercalate, hplus, upperWords_intercalate, ← List.map_uncurry_zip_eq_zipWith,
    List.mem_flatMap]
  constructor
  · rintro ⟨piece, hpiece, hword⟩
    obtain ⟨term, hterm, rfl⟩ := List.mem_map.mp hpiece
    obtain ⟨⟨sigla, weight⟩, hpair, rfl⟩ := List.mem_map.mp hterm
    obtain ⟨hsigla, hweight⟩ := List.of_mem_zip hpair
    rw [Function.uncurry_apply_pair, upperWords_weightedTerm (hnames sigla hsigla)] at hword
    rcases List.mem_cons.mp hword with rfl | hword
    · exact .inl (List.mem_map_of_mem hsigla)
    · exact .inr ⟨weight, hweight, hword⟩
  · intro hword
    obtain ⟨⟨sigla, weight⟩, hpair, hmem⟩ : ∃ pair ∈ siglas.zip weights,
        word ∈ upperWords ((weightedTerm total).uncurry pair).toList := by
      rcases hword with hword | ⟨weight, hweight, hword⟩
      · rw [hsiglas, List.map_map] at hword
        obtain ⟨⟨sigla, weight⟩, hpair, rfl⟩ := List.mem_map.mp hword
        refine ⟨_, hpair, ?_⟩
        rw [Function.uncurry_apply_pair,
          upperWords_weightedTerm (hnames sigla (List.of_mem_zip hpair).1)]
        exact List.mem_cons_self
      · rw [hweights] at hweight
        obtain ⟨⟨sigla, weight⟩, hpair, rfl⟩ := List.mem_map.mp hweight
        refine ⟨_, hpair, ?_⟩
        rw [Function.uncurry_apply_pair,
          upperWords_weightedTerm (hnames sigla (List.of_mem_zip hpair).1)]
        exact List.mem_cons_of_mem _ hword
    exact ⟨_, List.mem_map_of_mem (List.mem_map_of_mem hpair), hmem⟩

theorem formula_weighted_eq_ok {given : Option (List Binary64)} (hne : siglas ≠ [])
    (h : formula siglas ⟨.weighted, given⟩ = .ok text) :
    weightedFormula siglas (given.getD []) = .ok text := by
  rwa [formula, if_neg (by simpa using hne)] at h

theorem formula_simple_eq_ok {given : Option (List Binary64)} (hne : siglas ≠ [])
    (h : formula siglas ⟨.simple, given⟩ = .ok text) : text = simpleFormula siglas := by
  rw [formula, if_neg (by simpa using hne)] at h
  exact (Except.ok.inj h).symm

/-- Weights are finite, and so is their sum, which is positive. -/
theorem usable_of_weightedFormula (h : weightedFormula siglas weights = .ok text) :
    (∀ weight ∈ weights, weight.isFinite = true) ∧ (Binary64.sum weights).isFinite = true ∧
      ¬Binary64.sum weights ≤ 0 := by
  unfold weightedFormula at h
  dsimp only at h
  split at h
  next => cases h
  next husable =>
    split at h
    next => cases h
    next hpos =>
      simp only [not_or, Decidable.not_not, List.all_eq_true] at husable
      exact ⟨husable.2.1, husable.2.2, hpos⟩

/-- Beside the siglas a formula has no word but numbers, and one for infinite factors. -/
theorem mem_upperWords_formula {scheme : Scheme} (hne : siglas ≠ [])
    (hnames : ∀ sigla ∈ siglas, IsName sigla.toList) (h : formula siglas scheme = .ok text) :
    (∀ sigla ∈ siglas, Text.upper sigla ∈ upperWords text.toList) ∧
      ∀ word, isNumeral word = false → (word ∈ upperWords text.toList ↔
        word ∈ siglas.map Text.upper ∨
          ((∃ factor ∈ scheme.factors, factor.isFinite = false) ∧ word = "INF")) := by
  obtain ⟨averaging, given⟩ := scheme
  cases averaging with
  | simple =>
    obtain rfl := formula_simple_eq_ok hne h
    rw [upperWords_simpleFormula hnames]
    refine ⟨fun sigla hsigla => List.mem_append_left _ (List.mem_map_of_mem hsigla),
      fun word hword => ?_⟩
    have hdigits : word ∉ upperWords (digitsOf siglas.length) := fun hmem => by
      rw [isNumeral_of_literal (isLiteral_digitsOf siglas.length).1.chars hmem] at hword
      cases hword
    simp [factors, hdigits]
  | weighted =>
    have htext := formula_weighted_eq_ok hne h
    obtain ⟨hlength, rfl⟩ := weightedFormula_eq_ok htext
    obtain ⟨hfinite, htotal, hpos⟩ := usable_of_weightedFormula htext
    simp only [mem_upperWords_weighted hnames hlength]
    refine ⟨fun sigla hsigla => .inl (List.mem_map_of_mem hsigla), fun word hword => ?_⟩
    refine or_congr_right ⟨fun ⟨weight, hweight, hmem⟩ => ?_,
      fun ⟨⟨factor, hfactor, hinf⟩, hw⟩ => ?_⟩
    · have hnumber := isNaN_roundWeight (isNaN_part (hfinite weight hweight) htotal hpos)
      obtain ⟨hinf, hw⟩ := (mem_upperWords_plain hnumber hword).mp hmem
      exact ⟨⟨_, List.mem_map_of_mem hweight, hinf⟩, hw⟩
    · obtain ⟨weight, hweight, rfl⟩ := List.mem_map.mp hfactor
      have hnumber := isNaN_roundWeight (isNaN_part (hfinite weight hweight) htotal hpos)
      exact ⟨weight, hweight, (mem_upperWords_plain hnumber hword).mpr ⟨hinf, hw⟩⟩

section Coverage

variable {scheme : Scheme}

theorem not_mem_unused (hne : siglas ≠ []) (hnames : ∀ sigla ∈ siglas, IsName sigla.toList)
    (h : formula siglas scheme = .ok text) (sigla : String) :
    sigla ∉ (Coverage.ofFormula text siglas).unused.keys := by
  have hmentioned := (mem_upperWords_formula hne hnames h).1 sigla
  rw [Coverage.ofFormula, mem_keys_setOf, List.mem_filter]
  rintro ⟨hsigla, hnot⟩
  rw [Bool.not_eq_true', List.contains_eq_mem, decide_eq_false_iff_not] at hnot
  exact hnot (hmentioned hsigla)

theorem mem_unknown_iff (hne : siglas ≠ []) (hnames : ∀ sigla ∈ siglas, IsName sigla.toList)
    (h : formula siglas scheme = .ok text) (word : String) :
    word ∈ (Coverage.ofFormula text siglas).unknown.keys ↔
      word = "INF" ∧ "INF" ∉ siglas.map Text.upper ∧
        ∃ factor ∈ scheme.factors, factor.isFinite = false := by
  have hwords := (mem_upperWords_formula hne hnames h).2 word
  rw [Coverage.ofFormula, mem_keys_setOf, List.mem_filter, Bool.and_eq_true, Bool.not_eq_true',
    Bool.not_eq_true', List.contains_eq_mem, decide_eq_false_iff_not]
  constructor
  · rintro ⟨hword, hnumeral, hunknown⟩
    obtain ⟨hinfinite, rfl⟩ := ((hwords hnumeral).mp hword).resolve_left hunknown
    exact ⟨rfl, hunknown, hinfinite⟩
  · rintro ⟨rfl, hunknown, hinfinite⟩
    exact ⟨(hwords rfl).mpr (.inr ⟨hinfinite, rfl⟩), rfl, hunknown⟩

theorem isClean_iff {coverage : Coverage} : coverage.isClean = true ↔
    (∀ sigla, sigla ∉ coverage.unused.keys) ∧ ∀ word, word ∉ coverage.unknown.keys := by
  rw [Coverage.isClean, Bool.and_eq_true, List.isEmpty_iff, List.isEmpty_iff,
    ← List.eq_nil_iff_forall_not_mem, ← List.eq_nil_iff_forall_not_mem, Keyed.keys, Keyed.keys,
    List.map_eq_nil_iff, List.map_eq_nil_iff]

theorem isClean_formula_iff (hne : siglas ≠ []) (hnames : ∀ sigla ∈ siglas, IsName sigla.toList)
    (h : formula siglas scheme = .ok text) :
    (Coverage.ofFormula text siglas).isClean = true ↔
      (∀ factor ∈ scheme.factors, factor.isFinite = true) ∨ "INF" ∈ siglas.map Text.upper := by
  simp only [isClean_iff, not_mem_unused hne hnames h, mem_unknown_iff hne hnames h,
    not_false_eq_true, forall_true_iff, true_and]
  constructor
  · intro hclean
    by_cases hknown : "INF" ∈ siglas.map Text.upper
    · exact .inr hknown
    · refine .inl fun factor hfactor => ?_
      by_contra hinfinite
      exact hclean "INF" ⟨rfl, hknown, factor, hfactor, by simpa using hinfinite⟩
  · rintro (hfinite | hknown) word ⟨_, hunknown, factor, hfactor, hinfinite⟩
    · rw [hfinite factor hfactor] at hinfinite
      cases hinfinite
    · exact hunknown hknown

end Coverage

section Tokens

/-- A token of a formula over the siglas: a symbol, a sigla, a finite number, or their count. -/
inductive Expects (siglas : List String) : Token → Prop where
  | symbol {c : Char} {token : Token} (h : Token.symbol? c = some token) : Expects siglas token
  | sigla {sigla : String} (h : sigla ∈ siglas) : Expects siglas (.name (Text.upper sigla))
  | number {value : Binary64} (h : value.isFinite = true) : Expects siglas (.number value)
  | count : Expects siglas (.number (Binary64.ofNat siglas.length))

variable {token : Token}

theorem expects_of_mem_siglaPhrase (hsigla : sigla ∈ siglas)
    (h : token ∈ (siglaPhrase sigla).tokens) : Expects siglas token := by
  have hname : token = .name (Text.upper sigla) := by simpa [siglaPhrase] using h
  exact hname ▸ .sigla hsigla

theorem expects_of_mem_signedPhrase {value : Binary64} (hfinite : value.isFinite = true)
    (h : token ∈ (signedPhrase value).tokens) : Expects siglas token := by
  unfold signedPhrase at h
  split at h
  next =>
    rw [Phrase.tokens_signed, Phrase.tokens_bare, Phrase.tokens_number, List.mem_cons,
      List.mem_singleton] at h
    rcases h with rfl | rfl
    · exact .symbol (c := '-') rfl
    · refine .number ?_
      cases value with
      | nan => cases hfinite
      | infinite s => cases hfinite
      | finite s n hn => rfl
  next =>
    rw [Phrase.tokens_bare, Phrase.tokens_number, List.mem_singleton] at h
    exact h ▸ .number hfinite

theorem expects_of_mem_weightedPhrase (hsigla : sigla ∈ siglas)
    (hfinite : (roundWeight (weight / total)).isFinite = true)
    (h : token ∈ (weightedPhrase total sigla weight).tokens) : Expects siglas token := by
  have hweight : token ∈ (signedPhrase (roundWeight (weight / total))).tokens →
      Expects siglas token := expects_of_mem_signedPhrase hfinite
  rw [weightedPhrase] at h
  generalize signedPhrase (roundWeight (weight / total)) = phrase at *
  have hcases : token = .openParen ∨ token = .name (Text.upper sigla) ∨ token = .times ∨
      token ∈ phrase.tokens ∨ token = .closeParen := by
    simpa [Operator.token, or_assoc] using h
  rcases hcases with rfl | rfl | rfl | hmem | rfl
  · exact .symbol (c := '(') rfl
  · exact .sigla hsigla
  · exact .symbol (c := '*') rfl
  · exact hweight hmem
  · exact .symbol (c := ')') rfl

theorem expects_of_mem_sum {α : Type} {phrase : α → Phrase.Term} {first : α} {rest : List α}
    (hall : ∀ a ∈ first :: rest, ∀ token ∈ (phrase a).tokens, Expects siglas token)
    (h : token ∈ (Phrase.sum (phrase first) (.terms (rest.map phrase))).tokens) :
    Expects siglas token := by
  rw [Phrase.tokens_sum, List.mem_append] at h
  rcases h with h | h
  · exact hall first List.mem_cons_self token h
  · rcases Phrase.mem_tokens_terms h with rfl | ⟨operand, hoperand, htoken⟩
    · exact .symbol (c := '+') rfl
    · obtain ⟨a, ha, rfl⟩ := List.mem_map.mp hoperand
      exact hall a (List.mem_cons_of_mem _ ha) token htoken

theorem expects_of_mem_simplePhrase {first : String} {rest : List String}
    (h : token ∈ (simplePhrase first rest).tokens) : Expects (first :: rest) token := by
  have hsum : token ∈ (Phrase.sum (siglaPhrase first) (.terms (rest.map siglaPhrase))).tokens →
      Expects (first :: rest) token :=
    expects_of_mem_sum fun _ hsigla _ => expects_of_mem_siglaPhrase hsigla
  rw [simplePhrase] at h
  generalize Phrase.sum (siglaPhrase first) (.terms (rest.map siglaPhrase)) = phrase at *
  have hcases : token = .openParen ∨ token ∈ phrase.tokens ∨ token = .closeParen ∨
      token = .over ∨ token = .number (Binary64.ofNat (first :: rest).length) := by
    simpa [Operator.token, or_assoc] using h
  rcases hcases with rfl | hmem | rfl | rfl | rfl
  · exact .symbol (c := '(') rfl
  · exact hsum hmem
  · exact .symbol (c := ')') rfl
  · exact .symbol (c := '/') rfl
  · exact .count

/-- A formula with finite factors is cut into the tokens that a reader expects of it. -/
theorem exists_lexed_formula {scheme : Scheme} (hne : siglas ≠ [])
    (hnames : ∀ sigla ∈ siglas, IsName sigla.toList) (h : formula siglas scheme = .ok text)
    (hfinite : ∀ factor ∈ scheme.factors, factor.isFinite = true) :
    ∃ lexemes, Lexed 0 text.toList lexemes ∧ ∀ lexeme ∈ lexemes, Expects siglas lexeme.token := by
  obtain ⟨averaging, given⟩ := scheme
  obtain ⟨tokens, hspells, htokens⟩ : ∃ tokens, Spells text.toList tokens ∧
      ∀ token ∈ tokens, Expects siglas token := by
    cases averaging with
    | simple =>
      obtain rfl := formula_simple_eq_ok hne h
      obtain ⟨first, rest, rfl⟩ := List.exists_cons_of_ne_nil hne
      exact ⟨_, spells_simpleFormula first rest hnames, fun _ => expects_of_mem_simplePhrase⟩
    | weighted =>
      have hrounded : ∀ weight ∈ given.getD [],
          (roundWeight (weight / Binary64.sum (given.getD []))).isFinite = true :=
        fun weight hweight => hfinite _ (List.mem_map_of_mem hweight)
      obtain ⟨first, rest, hpairs, hspells⟩ :=
        spells_weightedFormula hne hnames (formula_weighted_eq_ok hne h) hrounded
      refine ⟨_, hspells, fun token => expects_of_mem_sum fun pair hpair _ => ?_⟩
      rw [← hpairs] at hpair
      obtain ⟨hsigla, hweight⟩ := List.of_mem_zip hpair
      exact expects_of_mem_weightedPhrase hsigla (hrounded _ hweight)
  obtain ⟨lexemes, hlexed, rfl⟩ := hspells 0
  exact ⟨lexemes, hlexed, fun lexeme hlexeme => htokens _ (List.mem_map_of_mem hlexeme)⟩

end Tokens

/--
A formula that a scheme makes from names leaves no sigla out, and it holds nothing but siglas,
finite numbers and symbols as long as the factors are finite. A factor can be infinite, since
weights of both signs may have a small sum and the rounding multiplies by a thousand: it is written
as `INF`, which the formula then mentions beyond the siglas, unless one of them has that name.
-/
theorem covers_formula (siglas : List String) (hne : siglas ≠ [])
    (hnames : ∀ sigla ∈ siglas, IsName sigla.toList) (scheme : Scheme) (text : String)
    (h : formula siglas scheme = .ok text) :
    (∀ sigla, sigla ∉ (Coverage.ofFormula text siglas).unused.keys) ∧
      (∀ word, word ∈ (Coverage.ofFormula text siglas).unknown.keys ↔
        word = "INF" ∧ "INF" ∉ siglas.map Text.upper ∧
          ∃ factor ∈ scheme.factors, factor.isFinite = false) ∧
      ((Coverage.ofFormula text siglas).isClean = true ↔
        (∀ factor ∈ scheme.factors, factor.isFinite = true) ∨ "INF" ∈ siglas.map Text.upper) ∧
      ((∀ factor ∈ scheme.factors, factor.isFinite = true) → ∃ lexemes,
        Lexed 0 text.toList lexemes ∧ ∀ lexeme ∈ lexemes, Expects siglas lexeme.token) :=
  ⟨not_mem_unused hne hnames h, mem_unknown_iff hne hnames h, isClean_formula_iff hne hnames h,
    exists_lexed_formula hne hnames h⟩

/-- Two weights that cancel out leave a small sum, of which they are infinite parts. -/
def cancelling : Scheme :=
  ⟨.weighted, some [Binary64.ofNat (10 ^ 308), -Binary64.ofNat (10 ^ 308), 1]⟩

/-- The infinite factors pass for a sigla of that name. -/
theorem covers_formula_named :
    ∃ text, formula ["a", "Inf", "c"] cancelling = .ok text ∧
      (Coverage.ofFormula text ["a", "Inf", "c"]).isClean = true := by
  have hnames : ∀ sigla ∈ ["a", "Inf", "c"], IsName sigla.toList := by
    simp only [List.forall_mem_cons]
    exact ⟨⟨List.all_eq_true.mp (by decide), 'a', rfl, rfl⟩,
      ⟨List.all_eq_true.mp (by decide), 'I', rfl, rfl⟩,
      ⟨List.all_eq_true.mp (by decide), 'c', rfl, rfl⟩, fun _ h => nomatch h⟩
  have htext : (formula ["a", "Inf", "c"] cancelling).toOption =
      some "(a * inf) + (Inf * -inf) + (c * 1)" := by
    decide +kernel
  have h := Attempt.eq_ok_of_toOption htext
  have hcovers := covers_formula ["a", "Inf", "c"] (by decide) hnames cancelling _ h
  exact ⟨_, h, hcovers.2.2.1.mpr (.inr (by decide +kernel))⟩

/-- With siglas of other names the formula mentions what is no sigla and no number. -/
theorem formula_cancelling_uncovered :
    (∀ sigla ∈ ["A", "B", "C"], IsName sigla.toList) ∧
      ∃ text, formula ["A", "B", "C"] cancelling = .ok text ∧
        (Coverage.ofFormula text ["A", "B", "C"]).isClean = false := by
  have hnames : ∀ sigla ∈ ["A", "B", "C"], IsName sigla.toList := by
    simp only [List.forall_mem_cons]
    exact ⟨⟨List.all_eq_true.mp (by decide), 'A', rfl, rfl⟩,
      ⟨List.all_eq_true.mp (by decide), 'B', rfl, rfl⟩,
      ⟨List.all_eq_true.mp (by decide), 'C', rfl, rfl⟩, fun _ h => nomatch h⟩
  have htext : (formula ["A", "B", "C"] cancelling).toOption =
      some "(A * inf) + (B * -inf) + (C * 1)" := by
    decide +kernel
  have h := Attempt.eq_ok_of_toOption htext
  refine ⟨hnames, _, h, ?_⟩
  rw [Bool.eq_false_iff, ne_eq, isClean_formula_iff (by decide) hnames h, not_or]
  exact ⟨by decide +kernel, by decide +kernel⟩

end Scheme

end FinalGrades
