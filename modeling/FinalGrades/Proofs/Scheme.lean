import FinalGrades.Proofs.Formula.Writing
import FinalGrades.Proofs.Number.Arithmetic
import FinalGrades.Proofs.Number.Notation
import FinalGrades.Scheme

/-!
The formula of an averaging scheme, read again: the tree is the one that the scheme means, with
every weight the very double that was rounded.
-/

namespace FinalGrades

open Lexeme

namespace Binary64

theorem zero_eq : (0 : Binary64) = finite false 0 representable_zero := by
  have hzero := ofNat_eq (n := 0) (by decide)
  simp only [Nat.zero_mul] at hzero
  exact hzero

theorem not_lt_zero {n : Nat} {hn : Representable n} : ¬finite false n hn < 0 := by
  rw [zero_eq, finite_lt_iff]
  simp [signed]

theorem lt_zero {n : Nat} {hn : Representable n} (h : n ≠ 0) : finite true n hn < 0 := by
  rw [zero_eq, finite_lt_iff]
  simp only [signed, if_true, Bool.false_eq_true, if_false]
  omega

end Binary64

/-- A number as a signed operand. -/
def Formula.signedNumber (value : Binary64) : Formula :=
  if value < 0 then .negation (.number (-value)) else .number value

namespace Scheme

/-- The tree of a simple average. -/
def simpleTree (siglas : List String) : Formula :=
  .chain (.sum (siglas.map fun sigla => .variable (Text.upper sigla)))
    (.step .over (.number (Binary64.ofNat siglas.length)) .done)

/-- The tree of one term of a weighted average. -/
def weightedTermTree (total : Binary64) (sigla : String) (weight : Binary64) : Formula :=
  .chain (.variable (Text.upper sigla))
    (.step .times (.signedNumber (roundWeight (weight / total))) .done)

def weightedTree (siglas : List String) (weights : List Binary64) : Formula :=
  .sum (siglas.zipWith (weightedTermTree (Binary64.sum weights)) weights)

section Weights

open Binary64

variable {weight : Binary64} {rest : List Char} {more : List Token}

/-- A rounded weight that is finite has no sign, or it has one and is below zero. -/
theorem roundWeight_cases (h : (roundWeight weight).isFinite = true) :
    (∃ n hn, roundWeight weight = finite false n hn) ∨
      ∃ n hn, roundWeight weight = finite true n hn ∧ n ≠ 0 := by
  unfold roundWeight at *
  generalize (weight * 1000).round / 1000 = rounded at *
  by_cases hzero : 0 ≤ rounded ∧ rounded ≤ 0
  · exact .inl ⟨0, representable_zero, (if_pos hzero).trans zero_eq⟩
  · simp only [if_neg hzero] at h ⊢
    cases rounded with
    | nan => cases h
    | infinite s => cases h
    | finite s n hn =>
      cases s with
      | false => exact .inl ⟨n, hn, rfl⟩
      | true =>
        refine .inr ⟨n, hn, rfl, fun h0 => hzero ?_⟩
        subst h0
        rw [zero_eq, finite_le_iff, finite_le_iff]
        exact ⟨Int.le_refl 0, Int.le_refl 0⟩

/-- The derivation of a number with its sign. -/
def signedPhrase (value : Binary64) : Phrase (.one .signed) :=
  if value < 0 then
    .signed .minus Operator.level_minus (.bare (.number (-value)))
  else .bare (.number value)

theorem tree_signedPhrase (value : Binary64) :
    (signedPhrase value).tree = Formula.signedNumber value := by
  unfold signedPhrase Formula.signedNumber
  split <;> rfl

theorem within_signedPhrase {value : Binary64} {limit depth : Nat} (hdepth : depth ≤ limit)
    (hsign : value < 0 → depth < limit) : (signedPhrase value).Within limit depth := by
  unfold signedPhrase
  split
  next hneg =>
    have hlt := hsign hneg
    rw [Phrase.within_signed, Phrase.within_bare, Phrase.within_number]
    exact ⟨hlt, hlt⟩
  next => simpa using hdepth

theorem spells_roundWeight (h : (roundWeight weight).isFinite = true)
    (ends : Ends isLiteralChar rest) (hrest : Spells rest more) :
    Spells ((roundWeight weight).plain.toList ++ rest)
      ((signedPhrase (roundWeight weight)).tokens ++ more) := by
  rcases roundWeight_cases h with ⟨n, hn, heq⟩ | ⟨n, hn, heq, hzero⟩
  · obtain ⟨span, htext, hliteral, hvalue⟩ := plain_finite false hn
    have hspells := hrest.number hliteral ends
    rw [hvalue] at hspells
    rw [heq, signedPhrase, if_neg not_lt_zero, htext]
    simpa [signText] using hspells
  · obtain ⟨span, htext, hliteral, hvalue⟩ := plain_finite true hn
    have hspells := (hrest.number hliteral ends).symbol (c := '-') rfl
    have hneg : -finite true n hn = finite false n hn := rfl
    rw [hvalue] at hspells
    rw [heq, signedPhrase, if_pos (lt_zero hzero), htext, hneg]
    simpa [signText, Operator.token] using hspells

end Weights

section Terms

variable {siglas : List String} {sigla : String} {total weight : Binary64}

/-- The derivation of a sigla alone, as an operand of a sum. -/
def siglaPhrase (sigla : String) : Phrase.Term := .product (.bare (.name (Text.upper sigla))) .done

theorem writes_sigla (h : IsName sigla.toList) :
    Writes sigla.toList (siglaPhrase sigla).tokens := by
  intro rest more ends hrest
  have hspells := hrest.name h ends
  rw [← upper_of_isNameChar h.chars, String.ofList_toList] at hspells
  simpa [siglaPhrase] using hspells

/-- The derivation of a sigla with its weight, as an operand of a sum. -/
def weightedPhrase (total : Binary64) (sigla : String) (weight : Binary64) : Phrase.Term :=
  .product (.bare (.parens (.sum (.product (.bare (.name (Text.upper sigla)))
    (.factor .times Operator.level_times (signedPhrase (roundWeight (weight / total)))
      .done)) .done))) .done

theorem tree_weightedPhrase :
    (weightedPhrase total sigla weight).tree = weightedTermTree total sigla weight := by
  have hweight := tree_signedPhrase (roundWeight (weight / total))
  rw [weightedTermTree, ← hweight]
  rfl

theorem toList_weightedTerm : (weightedTerm total sigla weight).toList =
    '(' :: (sigla.toList ++ ' ' :: '*' :: ' ' ::
      ((roundWeight (weight / total)).plain.toList ++ [')'])) := by
  unfold weightedTerm
  generalize (roundWeight (weight / total)).plain = text
  show ("(" ++ sigla ++ " * " ++ text ++ ")").toList = _
  simp

theorem writes_weightedTerm (h : IsName sigla.toList)
    (hfinite : (roundWeight (weight / total)).isFinite = true) :
    Writes (weightedTerm total sigla weight).toList (weightedPhrase total sigla weight).tokens := by
  intro rest more ends hrest
  have hclose := hrest.symbol (c := ')') rfl
  have hweight := spells_roundWeight hfinite (ends_cons _ rfl) hclose
  have htimes := hweight.blank.symbol (c := '*') rfl
  have hname := htimes.blank.name h (ends_cons _ rfl)
  rw [← upper_of_isNameChar h.chars, String.ofList_toList] at hname
  have hopen := hname.symbol (c := '(') rfl
  rw [toList_weightedTerm, weightedPhrase]
  generalize signedPhrase (roundWeight (weight / total)) = phrase at *
  generalize (roundWeight (weight / total)).plain = text at *
  simpa [Operator.token] using hopen

theorem within_weightedPhrase {limit : Nat} (hdepth : 1 ≤ limit)
    (hsign : roundWeight (weight / total) < 0 → 2 ≤ limit) :
    (weightedPhrase total sigla weight).Within limit 0 := by
  have hweight := within_signedPhrase hdepth hsign
  rw [weightedPhrase]
  generalize signedPhrase (roundWeight (weight / total)) = phrase at *
  simpa using ⟨hdepth, ⟨hdepth, hweight⟩⟩

/-- A term is a parenthesis. -/
theorem one_le_of_within_weightedPhrase {limit : Nat}
    (h : (weightedPhrase total sigla weight).Within limit 0) : 1 ≤ limit := by
  obtain ⟨hoperand, _⟩ := Phrase.within_product.mp h
  exact (Phrase.within_parens.mp (Phrase.within_bare.mp hoperand)).1

/-- The derivation of a simple average. -/
def simplePhrase (first : String) (rest : List String) : Derivation :=
  .sum (.product
    (.bare (.parens (.sum (siglaPhrase first) (.terms (rest.map siglaPhrase)))))
    (.factor .over Operator.level_over
      (.bare (.number (Binary64.ofNat (first :: rest).length))) .done)) .done

theorem tree_simplePhrase (first : String) (rest : List String) :
    (simplePhrase first rest).tree = simpleTree (first :: rest) := by
  have hsum := Phrase.tree_sum (siglaPhrase first) (rest.map siglaPhrase)
  rw [← List.map_cons (f := siglaPhrase), List.map_map] at hsum
  have htree : (simplePhrase first rest).tree =
      .chain (Phrase.sum (siglaPhrase first) (.terms (rest.map siglaPhrase))).tree
        (.step .over (.number (Binary64.ofNat (first :: rest).length)) .done) := rfl
  rw [htree, hsum]
  rfl

theorem toList_simpleFormula (siglas : List String) : (simpleFormula siglas).toList =
    '(' :: ([' ', '+', ' '].intercalate (siglas.map String.toList) ++
      ')' :: ' ' :: '/' :: ' ' :: digitsOf siglas.length) := by
  rw [simpleFormula, digitsOf]
  generalize siglas.length = count
  have hdigits : toString count = String.ofList (Nat.toDigits 10 count) :=
    Nat.toString_eq_ofList_toDigits
  have hmark : toString ") / " = ") / " := rfl
  rw [hdigits, hmark]
  simp [String.toList_intercalate]

theorem spells_simpleFormula (first : String) (rest : List String)
    (hnames : ∀ sigla ∈ first :: rest, IsName sigla.toList) :
    Spells (simpleFormula (first :: rest)).toList (simplePhrase first rest).tokens := by
  obtain ⟨hliteral, hvalue⟩ := isLiteral_digitsOf (first :: rest).length
  have hcount := spells_nil.number hliteral (ends_nil _)
  have hover := hcount.blank.symbol (c := '/') rfl
  have hclose := hover.blank.symbol (c := ')') rfl
  have hsum := Phrase.writes_sum String.toList siglaPhrase first rest
    (fun sigla hsigla => writes_sigla (hnames sigla hsigla)) _ _ (ends_cons _ rfl) hclose
  have hopen := hsum.symbol (c := '(') rfl
  rw [hvalue] at hopen
  rw [toList_simpleFormula, simplePhrase]
  simpa [Operator.token] using hopen

theorem within_simplePhrase (first : String) (rest : List String) {limit : Nat} (h : 1 ≤ limit) :
    (simplePhrase first rest).Within limit 0 := by
  have hsigla : ∀ sigla, (siglaPhrase sigla).Within limit 1 := fun sigla => by
    simpa [siglaPhrase] using h
  have hterms : (Phrase.terms (rest.map siglaPhrase)).Within limit 1 := by
    rw [Phrase.within_terms]
    intro operand hoperand
    obtain ⟨sigla, _, rfl⟩ := List.mem_map.mp hoperand
    exact hsigla sigla
  simpa [simplePhrase, hsigla, hterms] using Nat.lt_of_succ_le h

/-- The text of a simple average is read as its tree. -/
theorem parse_simpleFormula {siglas : List String} {limits : Limits} (hne : siglas ≠ [])
    (hnames : ∀ sigla ∈ siglas, IsName sigla.toList)
    (hlength : (simpleFormula siglas).length ≤ limits.maxLength) (hdepth : 1 ≤ limits.maxDepth) :
    Formula.parse (simpleFormula siglas) limits = .ok (simpleTree siglas) := by
  obtain ⟨first, rest, rfl⟩ := List.exists_cons_of_ne_nil hne
  rw [← tree_simplePhrase]
  exact Formula.parse_of_spells (spells_simpleFormula first rest hnames) hlength
    (within_simplePhrase first rest hdepth)

theorem weightedFormula_eq_ok {weights : List Binary64} {text : String}
    (h : weightedFormula siglas weights = .ok text) : weights.length = siglas.length ∧
      text = String.intercalate " + "
        (siglas.zipWith (weightedTerm (Binary64.sum weights)) weights) := by
  unfold weightedFormula at h
  simp only at h
  split at h
  next => cases h
  next husable =>
    split at h
    next => cases h
    next =>
      cases h
      exact ⟨by simpa using fun hlength => husable (.inl hlength), rfl⟩

/-- Siglas with their weights, with a plus between the terms, spell the sum of the terms. -/
theorem spells_weightedTerms {text : String} (first : String × Binary64)
    (rest : List (String × Binary64))
    (htext : text = String.intercalate " + " ((first :: rest).map (weightedTerm total).uncurry))
    (hnames : ∀ pair ∈ first :: rest, IsName pair.1.toList)
    (hfinite : ∀ pair ∈ first :: rest, (roundWeight (pair.2 / total)).isFinite = true) :
    Spells text.toList (Phrase.sum ((weightedPhrase total).uncurry first)
      (.terms (rest.map (weightedPhrase total).uncurry))).tokens := by
  let phrase := (weightedPhrase total).uncurry
  have hwrites : ∀ pair ∈ first :: rest,
      Writes ((weightedTerm total).uncurry pair).toList (phrase pair).tokens :=
    fun pair hpair => writes_weightedTerm (hnames pair hpair) (hfinite pair hpair)
  show Spells text.toList (Phrase.sum (phrase first) (.terms (rest.map phrase))).tokens
  -- From here on it does not matter what the terms are.
  clear_value phrase
  have hplus : " + ".toList = [' ', '+', ' '] := rfl
  have hspells := Phrase.writes_sum _ _ first rest hwrites [] [] (ends_nil _) spells_nil
  rw [htext, String.toList_intercalate, List.map_map, hplus, Function.comp_def]
  simpa using hspells

theorem spells_weightedFormula {weights : List Binary64} {text : String} (hne : siglas ≠ [])
    (hnames : ∀ sigla ∈ siglas, IsName sigla.toList)
    (h : weightedFormula siglas weights = .ok text)
    (hfinite : ∀ weight ∈ weights,
      (roundWeight (weight / Binary64.sum weights)).isFinite = true) :
    ∃ first rest, siglas.zip weights = first :: rest ∧ Spells text.toList
      (Phrase.sum ((weightedPhrase (Binary64.sum weights)).uncurry first)
        (.terms (rest.map (weightedPhrase (Binary64.sum weights)).uncurry))).tokens := by
  obtain ⟨hlength, htext⟩ := weightedFormula_eq_ok h
  have hpairs : siglas.zip weights ≠ [] := by
    rw [← List.length_pos_iff, List.length_zip, hlength, Nat.min_self]
    exact List.length_pos_iff.mpr hne
  have hmem : ∀ pair ∈ siglas.zip weights, pair.1 ∈ siglas ∧ pair.2 ∈ weights :=
    fun pair hpair => List.of_mem_zip hpair
  rw [← List.map_uncurry_zip_eq_zipWith] at htext
  obtain ⟨first, rest, hfirst⟩ := List.exists_cons_of_ne_nil hpairs
  rw [hfirst] at htext hmem
  exact ⟨first, rest, hfirst, spells_weightedTerms first rest htext
    (fun pair hpair => hnames _ (hmem pair hpair).1)
    fun pair hpair => hfinite _ (hmem pair hpair).2⟩

/-- Siglas with their weights, with a plus between the terms, are read as the sum of the terms. -/
theorem parse_weightedTerms {pairs : List (String × Binary64)} {limits : Limits} {text : String}
    (hne : pairs ≠ [])
    (htext : text = String.intercalate " + " (pairs.map (weightedTerm total).uncurry))
    (hnames : ∀ pair ∈ pairs, IsName pair.1.toList)
    (hfinite : ∀ pair ∈ pairs, (roundWeight (pair.2 / total)).isFinite = true)
    (hlength : text.length ≤ limits.maxLength) (hdepth : 1 ≤ limits.maxDepth)
    (hsign : ∀ pair ∈ pairs, roundWeight (pair.2 / total) < 0 → 2 ≤ limits.maxDepth) :
    Formula.parse text limits = .ok (.sum (pairs.map (weightedTermTree total).uncurry)) := by
  obtain ⟨first, rest, rfl⟩ := List.exists_cons_of_ne_nil hne
  have hspells := spells_weightedTerms first rest htext hnames hfinite
  let phrase := (weightedPhrase total).uncurry
  have hwithin : ∀ pair ∈ first :: rest, (phrase pair).Within limits.maxDepth 0 :=
    fun pair hpair => within_weightedPhrase hdepth (hsign pair hpair)
  have htrees : Phrase.tree ∘ phrase = (weightedTermTree total).uncurry :=
    funext fun pair => tree_weightedPhrase
  change Spells _ (Phrase.sum (phrase first) (.terms (rest.map phrase))).tokens at hspells
  clear_value phrase
  have hsum : (Phrase.sum (phrase first) (.terms (rest.map phrase))).Within limits.maxDepth 0 := by
    obtain ⟨hfirst, hrest⟩ := List.forall_mem_cons.mp hwithin
    rw [Phrase.within_sum, Phrase.within_terms, List.forall_mem_map]
    exact ⟨hfirst, hrest⟩
  have htree := Phrase.tree_sum (phrase first) (rest.map phrase)
  rw [← List.map_cons (f := phrase), List.map_map, htrees] at htree
  rw [← htree]
  exact Formula.parse_of_spells hspells hlength hsum

/-- The text of a weighted average is read as its tree, whatever finite weights it has. -/
theorem parse_weightedFormula {weights : List Binary64} {limits : Limits} {text : String}
    (hne : siglas ≠ []) (hnames : ∀ sigla ∈ siglas, IsName sigla.toList)
    (h : weightedFormula siglas weights = .ok text)
    (hfinite : ∀ weight ∈ weights, (roundWeight (weight / Binary64.sum weights)).isFinite = true)
    (hlength : text.length ≤ limits.maxLength) (hdepth : 1 ≤ limits.maxDepth)
    (hsign : ∀ weight ∈ weights,
      roundWeight (weight / Binary64.sum weights) < 0 → 2 ≤ limits.maxDepth) :
    Formula.parse text limits = .ok (weightedTree siglas weights) := by
  obtain ⟨hweights, htext⟩ := weightedFormula_eq_ok h
  have hpairs : siglas.zip weights ≠ [] := by
    rw [← List.length_pos_iff, List.length_zip, hweights, Nat.min_self]
    exact List.length_pos_iff.mpr hne
  rw [← List.map_uncurry_zip_eq_zipWith] at htext
  rw [weightedTree, ← List.map_uncurry_zip_eq_zipWith]
  exact parse_weightedTerms hpairs htext (fun pair hpair => hnames _ (List.of_mem_zip hpair).1)
    (fun pair hpair => hfinite _ (List.of_mem_zip hpair).2) hlength hdepth
    fun pair hpair => hsign _ (List.of_mem_zip hpair).2

end Terms

/--
The formula of a scheme over siglas that are names of formulas is read as the scheme means it:
the mean of the siglas, or their sum with each times the double that its weight was rounded to. One
parenthesis is deep enough, and one more level if a rounded weight is negative.
-/
theorem parse_formula (siglas : List String) (hne : siglas ≠ [])
    (hnames : ∀ sigla ∈ siglas, IsName sigla.toList) (limits : Limits) :
    (∀ weights, ∃ text, formula siglas ⟨.simple, weights⟩ = .ok text ∧
      (text.length ≤ limits.maxLength → 1 ≤ limits.maxDepth →
        Formula.parse text limits = .ok (simpleTree siglas))) ∧
    (∀ weights text, formula siglas ⟨.weighted, some weights⟩ = .ok text →
      (∀ weight ∈ weights, (roundWeight (weight / Binary64.sum weights)).isFinite = true) →
      text.length ≤ limits.maxLength → 1 ≤ limits.maxDepth →
      ((∃ weight ∈ weights, roundWeight (weight / Binary64.sum weights) < 0) →
        2 ≤ limits.maxDepth) →
      Formula.parse text limits = .ok (weightedTree siglas weights)) := by
  have hempty : siglas.isEmpty = false := by simpa using hne
  unfold formula
  simp only [hempty, Bool.false_eq_true, if_false, Option.getD_some]
  constructor
  · intro weights
    exact ⟨_, rfl, parse_simpleFormula hne hnames⟩
  · intro weights text htext hfinite hlength hdepth hsign
    exact parse_weightedFormula hne hnames htext hfinite hlength hdepth
      fun weight hweight hnegative => hsign ⟨weight, hweight, hnegative⟩

/-- With one weight negative, two levels are deep enough. -/
theorem parse_formula_negative :
    ∃ text, formula ["P1", "p_2"] ⟨.weighted, some [3, -1]⟩ = .ok text ∧
      Formula.parse text ⟨text.length, 2⟩ =
        .ok (.chain (.chain (.variable "P1") (.step .times (.number (3 / 2)) .done))
          (.step .plus (.chain (.variable "P_2")
            (.step .times (.negation (.number (1 / 2))) .done)) .done)) := by
  have hnames : ∀ sigla ∈ ["P1", "p_2"], IsName sigla.toList := by
    simp only [List.forall_mem_cons]
    exact ⟨⟨List.all_eq_true.mp (by decide), 'P', rfl, rfl⟩,
      ⟨List.all_eq_true.mp (by decide), 'p', rfl, rfl⟩, fun _ h => nomatch h⟩
  have haccepted : ∃ text, formula ["P1", "p_2"] ⟨.weighted, some [3, -1]⟩ = .ok text := by
    rw [formula, if_neg (by decide)]
    show ∃ text, weightedFormula ["P1", "p_2"] [3, -1] = .ok text
    rw [weightedFormula, if_neg (by decide +kernel), if_neg (by decide +kernel)]
    exact ⟨_, rfl⟩
  obtain ⟨text, htext⟩ := haccepted
  have hparse := (parse_formula ["P1", "p_2"] (by decide) hnames ⟨text.length, 2⟩).2 [3, -1] text
    htext (by decide +kernel) (Nat.le_refl _) (show 1 ≤ 2 by decide) fun _ => Nat.le_refl 2
  have htree : weightedTree ["P1", "p_2"] [3, -1] =
      .chain (.chain (.variable "P1") (.step .times (.number (3 / 2)) .done))
        (.step .plus (.chain (.variable "P_2")
          (.step .times (.negation (.number (1 / 2))) .done)) .done) := by
    decide +kernel
  exact ⟨text, htext, hparse.trans (congrArg Except.ok htree)⟩

end Scheme

end FinalGrades
