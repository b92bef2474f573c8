import FinalGrades.Proofs.Number.Monotone
import FinalGrades.Proofs.Scheme.Covered

/-!
The factors of a weighted average keep the order of the weights: dividing by the total, scaling,
rounding to a whole number and scaling back all do. The total of weights from zero on is not below
any of them, so their factors lie between zero and one and are written without a sign.
-/

namespace FinalGrades

open Binary64 Lexeme

namespace Scheme

variable {siglas : List String} {weights : List Binary64} {x y total weight : Binary64}

/-- What the sigla of a weight is multiplied by. -/
def factorOf (weights : List Binary64) (weight : Binary64) : Binary64 :=
  roundWeight (weight / Binary64.sum weights)

section Rounding

/-- The sign of zero makes no difference to the order. -/
theorem position_unsigned (h : x.isNaN = false) :
    (if 0 ≤ x ∧ x ≤ 0 then 0 else x : Binary64).isNaN = false ∧
      (if 0 ≤ x ∧ x ≤ 0 then 0 else x : Binary64).position = x.position := by
  split
  next hzero =>
    have hposition : (0 : Binary64).position = 0 := by decide +kernel
    have hnumber : (0 : Binary64).isNaN = false := by decide +kernel
    have hlow := (le_iff hnumber h).mp hzero.1
    have hhigh := (le_iff h hnumber).mp hzero.2
    exact ⟨hnumber, Int.le_antisymm hlow hhigh⟩
  next => exact ⟨h, rfl⟩

theorem roundWeight_le_roundWeight (h : x ≤ y) : roundWeight x ≤ roundWeight y := by
  obtain ⟨n, hn, hne, hthousand⟩ := thousand_eq
  have hpos : 0 < n := Nat.pos_of_ne_zero hne
  have hrounded : (x * 1000).round / 1000 ≤ (y * 1000).round / 1000 := by
    rw [hthousand]
    exact div_le_div_right hpos (round_le_round (mul_le_mul_right hpos h))
  unfold roundWeight
  generalize (x * 1000).round / 1000 = a at *
  generalize (y * 1000).round / 1000 = b at *
  obtain ⟨ha, hb⟩ := isNaN_of_le hrounded
  obtain ⟨hnumber, hposition⟩ := position_unsigned ha
  obtain ⟨hnumber', hposition'⟩ := position_unsigned hb
  refine (le_iff hnumber hnumber').mpr ?_
  rw [hposition, hposition']
  exact (le_iff ha hb).mp hrounded

theorem roundWeight_zero : roundWeight 0 = 0 := by
  decide +kernel

theorem roundWeight_one : roundWeight 1 = 1 := by
  decide +kernel

end Rounding

section Parts

theorem part_le_part (htotal : total.isFinite = true) (hpos : ¬total ≤ 0) (h : x ≤ y) :
    x / total ≤ y / total := by
  obtain ⟨n, hn, hn0, rfl⟩ := exists_eq_positive htotal hpos
  exact div_le_div_right hn0 h

theorem zero_part (htotal : total.isFinite = true) (hpos : ¬total ≤ 0) : 0 / total = 0 := by
  obtain ⟨n, hn, hn0, rfl⟩ := exists_eq_positive htotal hpos
  rw [zero_eq, div_finite (Nat.ne_of_gt hn0), Nat.zero_mul, Bool.bne_false]
  exact ofRatio_eq_finite representable_zero (roundUnits_zero n)

theorem whole_part (htotal : total.isFinite = true) (hpos : ¬total ≤ 0) : total / total = 1 := by
  obtain ⟨n, hn, hn0, rfl⟩ := exists_eq_positive htotal hpos
  have hone : (1 : Binary64) = ofNat 1 := rfl
  rw [hone, ofNat, div_finite (Nat.ne_of_gt hn0), Bool.bne_false]
  refine ofRatio_congr hn0 Nat.one_pos ?_
  rw [Nat.one_mul, Nat.mul_one, Nat.mul_comm]

/-- A weight that is not negative and not above the total has a factor on the unit interval. -/
theorem roundWeight_part (htotal : total.isFinite = true) (hpos : ¬total ≤ 0) (hweight : 0 ≤ weight)
    (hle : weight ≤ total) :
    0 ≤ roundWeight (weight / total) ∧ roundWeight (weight / total) ≤ 1 := by
  have hlow := roundWeight_le_roundWeight (part_le_part htotal hpos hweight)
  have hhigh := roundWeight_le_roundWeight (part_le_part htotal hpos hle)
  rw [zero_part htotal hpos, roundWeight_zero] at hlow
  rw [whole_part htotal hpos, roundWeight_one] at hhigh
  exact ⟨hlow, hhigh⟩

end Parts

section Text

variable {text : String}

theorem weightedTree_of_nonneg (h : ∀ weight ∈ weights, 0 ≤ factorOf weights weight) :
    weightedTree siglas weights = .sum (siglas.zipWith (fun sigla weight =>
      .chain (.variable (Text.upper sigla))
        (.step .times (.number (factorOf weights weight)) .done)) weights) := by
  rw [weightedTree, ← List.map_uncurry_zip_eq_zipWith, ← List.map_uncurry_zip_eq_zipWith]
  refine congrArg Formula.sum (List.map_congr_left ?_)
  rintro ⟨sigla, weight⟩ hpair
  have hnumber : Formula.signedNumber (factorOf weights weight) =
      .number (factorOf weights weight) :=
    if_neg (not_lt_of_le (h weight (List.of_mem_zip hpair).2))
  rw [Function.uncurry_apply_pair, Function.uncurry_apply_pair, ← hnumber]
  rfl

/-- A number from zero to one is written with digits and at most a point. -/
theorem isLiteralChar_of_mem_plain (h : 0 ≤ roundWeight x) (hle : roundWeight x ≤ 1) {c : Char}
    (hc : c ∈ (roundWeight x).plain.toList) : isLiteralChar c = true := by
  have hfinite : (roundWeight x).isFinite = true :=
    isFinite_of_between h hle (by decide +kernel) (by decide +kernel)
  rcases roundWeight_cases hfinite with ⟨n, hn, heq⟩ | ⟨n, hn, heq, hne⟩
  · obtain ⟨span, htext, hliteral, _⟩ := plain_finite false hn
    rw [heq, htext] at hc
    exact hliteral.chars c (by simpa [signText] using hc)
  · rw [heq, zero_eq, finite_le_iff] at h
    simp only [signed, if_true, Bool.false_eq_true, if_false] at h
    omega

theorem mem_intercalate {α : Type} {separator : List α} {parts : List (List α)} {c : α}
    (h : c ∈ separator.intercalate parts) : c ∈ separator ∨ ∃ part ∈ parts, c ∈ part := by
  induction parts with
  | nil => cases h
  | cons part parts ih =>
    cases parts with
    | nil => exact .inr ⟨part, List.mem_singleton_self part, by simpa using h⟩
    | cons next more =>
      rw [List.intercalate_cons_cons, List.mem_append, List.mem_append] at h
      rcases h with (hpart | hseparator) | hrest
      · exact .inr ⟨part, List.mem_cons_self, hpart⟩
      · exact .inl hseparator
      · exact (ih hrest).imp_right fun ⟨other, hother, hc⟩ =>
          ⟨other, List.mem_cons_of_mem _ hother, hc⟩

/-- The characters of a weighted formula beside those of its siglas and factors. -/
theorem mem_weightedFormula {c : Char} (h : weightedFormula siglas weights = .ok text)
    (hc : c ∈ text.toList) : c ∈ [' ', '+', '(', '*', ')'] ∨ (∃ sigla ∈ siglas, c ∈ sigla.toList) ∨
      ∃ weight ∈ weights, c ∈ (factorOf weights weight).plain.toList := by
  obtain ⟨_, rfl⟩ := weightedFormula_eq_ok h
  rw [String.toList_intercalate, ← List.map_uncurry_zip_eq_zipWith] at hc
  rcases mem_intercalate hc with hplus | ⟨part, hpart, hc⟩
  · have hsymbols : [' ', '+', ' '] ⊆ [' ', '+', '(', '*', ')'] := by decide
    exact .inl (hsymbols hplus)
  · obtain ⟨term, hterm, rfl⟩ := List.mem_map.mp hpart
    obtain ⟨⟨sigla, weight⟩, hpair, rfl⟩ := List.mem_map.mp hterm
    obtain ⟨hsigla, hweight⟩ := List.of_mem_zip hpair
    have hplain : c ∈ (factorOf weights weight).plain.toList → ∃ weight ∈ weights,
        c ∈ (factorOf weights weight).plain.toList := fun hmem => ⟨weight, hweight, hmem⟩
    rw [Function.uncurry_apply_pair, toList_weightedTerm] at hc
    change c ∈ '(' :: (_ ++ ' ' :: '*' :: ' ' :: ((factorOf weights weight).plain.toList ++ [')']))
      at hc
    generalize (factorOf weights weight).plain.toList = factor at hc hplain
    simp only [List.mem_cons, List.mem_append, List.not_mem_nil, or_false] at hc ⊢
    rcases hc with hopen | hname | hblank | htimes | hblank | hfactor | hclose
    · exact .inl (.inr (.inr (.inl hopen)))
    · exact .inr (.inl ⟨sigla, hsigla, hname⟩)
    · exact .inl (.inl hblank)
    · exact .inl (.inr (.inr (.inr (.inl htimes))))
    · exact .inl (.inl hblank)
    · exact .inr (.inr (hplain hfactor))
    · exact .inl (.inr (.inr (.inr (.inr hclose))))

/-- Every term is in parentheses, so without any depth nothing is read. -/
theorem one_le_maxDepth {limits : Limits} {tree : Formula} (hne : siglas ≠ [])
    (hnames : ∀ sigla ∈ siglas, IsName sigla.toList)
    (h : weightedFormula siglas weights = .ok text)
    (hfinite : ∀ weight ∈ weights, (factorOf weights weight).isFinite = true)
    (hparse : Formula.parse text limits = .ok tree) : 1 ≤ limits.maxDepth := by
  obtain ⟨first, rest, _, hspells⟩ := spells_weightedFormula hne hnames h hfinite
  obtain ⟨hfirst, _⟩ := Phrase.within_sum.mp (Formula.within_of_parse hspells hparse)
  exact one_le_of_within_weightedPhrase hfirst

end Text

/--
The factors of a weighted average come in the order of the weights, and each is a number. Where no
weight is negative they lie between zero and one, and the formula has no sign: one parenthesis is
all the depth it needs.
-/
theorem factors_keep_order (siglas : List String) (hne : siglas ≠ []) (weights : List Binary64)
    (text : String) (h : formula siglas ⟨.weighted, some weights⟩ = .ok text) :
    text = String.intercalate " + " (siglas.zipWith (fun sigla weight =>
      "(" ++ sigla ++ " * " ++ (factorOf weights weight).plain ++ ")") weights) ∧
    (∀ weight ∈ weights, (factorOf weights weight).isNaN = false) ∧
    (∀ weight ∈ weights, ∀ other ∈ weights, weight ≤ other →
      factorOf weights weight ≤ factorOf weights other) ∧
    ((∀ weight ∈ weights, 0 ≤ weight) →
      (∀ weight ∈ weights, 0 ≤ factorOf weights weight ∧ factorOf weights weight ≤ 1 ∧
        ∀ c ∈ (factorOf weights weight).plain.toList, isLiteralChar c = true) ∧
      ((∀ sigla ∈ siglas, IsName sigla.toList) → '-' ∉ text.toList ∧
        ∀ limits : Limits, text.length ≤ limits.maxLength →
          (Formula.parse text limits = .ok (.sum (siglas.zipWith (fun sigla weight =>
            .chain (.variable (Text.upper sigla))
              (.step .times (.number (factorOf weights weight)) .done)) weights)) ↔
            1 ≤ limits.maxDepth))) := by
  have hweighted : weightedFormula siglas weights = .ok text := formula_weighted_eq_ok hne h
  obtain ⟨hfinite, htotal, hpos⟩ := usable_of_weightedFormula hweighted
  obtain ⟨_, htext⟩ := weightedFormula_eq_ok hweighted
  refine ⟨htext, fun weight hweight => ?_, fun weight _ other _ hle => ?_, fun hnonneg => ?_⟩
  · exact isNaN_roundWeight (isNaN_part (hfinite weight hweight) htotal hpos)
  · exact roundWeight_le_roundWeight (part_le_part htotal hpos hle)
  have hunit : ∀ weight ∈ weights,
      0 ≤ factorOf weights weight ∧ factorOf weights weight ≤ 1 := fun weight hweight =>
    roundWeight_part htotal hpos (hnonneg weight hweight) (le_sum hnonneg htotal weight hweight)
  have hchars : ∀ weight ∈ weights, ∀ c ∈ (factorOf weights weight).plain.toList,
      isLiteralChar c = true := fun weight hweight c hc =>
    isLiteralChar_of_mem_plain (hunit weight hweight).1 (hunit weight hweight).2 hc
  refine ⟨fun weight hweight => ⟨(hunit weight hweight).1, (hunit weight hweight).2,
    hchars weight hweight⟩, fun hnames => ⟨fun hminus => ?_, fun limits hlength => ?_⟩⟩
  · rcases mem_weightedFormula hweighted hminus with hsymbol | ⟨sigla, hsigla, hc⟩ |
      ⟨weight, hweight, hc⟩
    · exact absurd hsymbol (by decide)
    · exact absurd ((hnames sigla hsigla).chars '-' hc) (by decide)
    · exact absurd (hchars weight hweight '-' hc) (by decide)
  · have hfactors : ∀ weight ∈ weights, (factorOf weights weight).isFinite = true :=
      fun weight hweight => isFinite_of_between (hunit weight hweight).1 (hunit weight hweight).2
        (by decide +kernel) (by decide +kernel)
    refine ⟨one_le_maxDepth hne hnames hweighted hfactors, fun hdepth => ?_⟩
    rw [← weightedTree_of_nonneg fun weight hweight => (hunit weight hweight).1]
    exact parse_weightedFormula hne hnames hweighted hfactors hlength hdepth
      fun weight hweight hnegative =>
        absurd hnegative (not_lt_of_le (hunit weight hweight).1)

/-- A weight of zero, and a name in lower case. -/
theorem factors_keep_order_of_zero :
    ∃ text, formula ["P1", "p_2"] ⟨.weighted, some [3, 0]⟩ = .ok text ∧
      factorOf [3, 0] 0 ≤ factorOf [3, 0] 3 ∧ '-' ∉ text.toList ∧
      Formula.parse text ⟨text.length, 1⟩ =
        .ok (.chain (.chain (.variable "P1") (.step .times (.number 1) .done))
          (.step .plus (.chain (.variable "P_2") (.step .times (.number 0) .done)) .done)) := by
  have hnames : ∀ sigla ∈ ["P1", "p_2"], IsName sigla.toList := by
    simp only [List.forall_mem_cons]
    exact ⟨⟨List.all_eq_true.mp (by decide), 'P', rfl, rfl⟩,
      ⟨List.all_eq_true.mp (by decide), 'p', rfl, rfl⟩, fun _ h => nomatch h⟩
  have htext : formula ["P1", "p_2"] ⟨.weighted, some [3, 0]⟩ = .ok "(P1 * 1) + (p_2 * 0)" :=
    Attempt.eq_ok_of_toOption (by decide +kernel)
  obtain ⟨_, _, horder, hnonneg⟩ := factors_keep_order _ (by decide) [3, 0] _ htext
  obtain ⟨_, hsign⟩ := hnonneg (by decide +kernel)
  obtain ⟨hminus, hparse⟩ := hsign hnames
  have htree := (hparse ⟨20, 1⟩ (by decide)).mpr (by decide)
  have hle := horder 0 (List.mem_cons_of_mem _ (List.mem_singleton_self 0)) 3 List.mem_cons_self
    (by decide +kernel)
  refine ⟨_, htext, hle, hminus, htree.trans (congrArg Except.ok ?_)⟩
  decide +kernel

end Scheme

end FinalGrades
