import FinalGrades.Display
import FinalGrades.Proofs.Number.Error
import FinalGrades.Proofs.Number.Monotone
import FinalGrades.Proofs.Number.Notation
import FinalGrades.Proofs.Outcome.Hundredths

/-!
Grades as they are shown, with two places. The places are those of the nearest whole number of
cents, and a grade is itself the double nearest to a number of hundredths. While the doubles are
close enough these are the same number, so what is shown is read back as the grade.
-/

namespace FinalGrades

open Binary64

/-- Only capital letters have another lower case. -/
theorem toLower_of_isDigit {c : Char} (h : isDigit c = true) : c.toLower = c := by
  unfold Char.toLower
  refine dif_neg fun hupper => ?_
  simp only [isDigit, Bool.and_eq_true, decide_eq_true_eq] at h
  have hle := UInt32.le_trans hupper.1 (Char.le_def.mp h.2)
  exact absurd hle (by decide)

namespace Binary64

section Reading

variable {negative : Bool} {whole places : List Char}

theorem splitSign_digits {rest : List Char} (h : IsDigits whole) (negative : Bool) :
    splitSign ((signText negative).toList ++ (whole ++ rest)) = (negative, whole ++ rest) := by
  cases negative with
  | true => rfl
  | false =>
    obtain ⟨c, more, rfl, hc⟩ := h.head
    show splitSign (c :: (more ++ rest)) = (false, c :: (more ++ rest))
    unfold splitSign
    split
    next heq =>
      obtain ⟨rfl, _⟩ := List.cons.inj heq
      cases hc
    next heq =>
      obtain ⟨rfl, _⟩ := List.cons.inj heq
      cases hc
    next => rfl

/-- A text that begins with a digit is no word. -/
theorem read?_of_digits {rest : List Char} (h : IsDigits whole) (negative : Bool) :
    read? ((signText negative).toList ++ (whole ++ rest)) =
      readUnsigned negative (whole ++ rest) := by
  obtain ⟨c, more, rfl, hc⟩ := h.head
  have hword : ∀ first word, isDigit first = false →
      String.ofList (((c :: more) ++ rest).map Char.toLower) ≠ String.ofList (first :: word) := by
    intro first word hfirst heq
    have hchars := congrArg String.toList heq
    rw [String.toList_ofList, String.toList_ofList] at hchars
    have hhead : c.toLower = first := (List.cons.inj hchars).1
    rw [toLower_of_isDigit hc] at hhead
    rw [hhead, hfirst] at hc
    cases hc
  unfold read?
  rw [splitSign_digits h]
  dsimp only
  split
  next heq => exact absurd heq (hword 'i' ['n', 'f'] rfl)
  next heq => exact absurd heq (hword 'i' ['n', 'f', 'i', 'n', 'i', 't', 'y'] rfl)
  next heq => exact absurd heq (hword 'n' ['a', 'n'] rfl)
  next => rfl

/-- A sign, digits, a point and places are read as the decimal that they spell. -/
theorem read?_point (negative : Bool) (hwhole : IsDigits whole)
    (hplaces : ∀ c ∈ places, isDigit c = true) :
    read? ((signText negative).toList ++ (whole ++ '.' :: places)) = some (ofDecimal negative
      (digitsValue 0 (whole ++ places)) (-(places.length : Int))) := by
  rw [read?_of_digits hwhole, Lexeme.readUnsigned_point negative hwhole.2 hplaces
    (List.append_ne_nil_of_left_ne_nil hwhole.1 places)]

end Reading

section Text

variable {s : Bool} {n : Nat} {hn : Representable n}

/-- Two digits for a number below a hundred. -/
theorem padded_digitsOf : ∀ cents < 100,
    (if (digitsOf cents).length < 2 then '0' :: digitsOf cents else digitsOf cents) =
      [Nat.digitChar (cents / 10), Nat.digitChar (cents % 10)] := by
  decide +kernel

theorem digitValue_digitChar : ∀ digit < 10,
    isDigit (Nat.digitChar digit) = true ∧ digitValue (Nat.digitChar digit) = digit := by
  decide

/-- The text of two places: digits, a point and two more, which spell the nearest cents. -/
theorem twoPlaces_eq (s : Bool) (n : Nat) (hn : Representable n) : ∃ whole places,
    (twoPlaces (finite s n hn)).toList = (signText s).toList ++ (whole ++ '.' :: places) ∧
      IsDigits whole ∧ (∀ c ∈ places, isDigit c = true) ∧ places.length = 2 ∧
      digitsValue 0 (whole ++ places) = nearestEven (n * 100) unit := by
  have hlow := Nat.mod_lt (nearestEven (n * 100) unit) (show 0 < 100 by decide)
  have hsplit := Nat.div_add_mod (nearestEven (n * 100) unit) 100
  have hpadded := padded_digitsOf _ hlow
  rw [twoPlaces, hpadded, String.toList_append, String.toList_ofList]
  generalize nearestEven (n * 100) unit = cents at *
  obtain ⟨htens, htens'⟩ := digitValue_digitChar (cents % 100 / 10) (by omega)
  obtain ⟨hones, hones'⟩ := digitValue_digitChar (cents % 100 % 10) (by omega)
  refine ⟨_, _, rfl, isDigits_digitsOf _, ?_, rfl, ?_⟩
  · rw [List.forall_mem_cons, List.forall_mem_singleton]
    exact ⟨htens, hones⟩
  · rw [digitsValue_append, digitsValue_digitsOf]
    show 10 * (10 * (cents / 100) + digitValue _) + digitValue _ = cents
    rw [htens', hones']
    omega

/-- What is shown of a number is read as its nearest cents. -/
theorem read?_twoPlaces (s : Bool) (n : Nat) (hn : Representable n) :
    read? (twoPlaces (finite s n hn)).toList =
      some (ofRatio s (nearestEven (n * 100) unit * unit) 100) := by
  obtain ⟨whole, places, htext, hwhole, hplaces, hlength, hvalue⟩ := twoPlaces_eq s n hn
  rw [htext, read?_point s hwhole hplaces, hlength, hvalue, ofDecimal_eq]
  have hup : (-((2 : Nat) : Int)).toNat = 0 := rfl
  have hdown : (- -((2 : Nat) : Int)).toNat = 2 := rfl
  have hhundred : 10 ^ 2 = 100 := rfl
  rw [hup, hdown, hhundred, Nat.pow_zero, Nat.mul_one]

/-- Neither the slash of a missing grade nor a comma. -/
def isShown (c : Char) : Bool := c != '/' && c != ','

theorem isShown_of_isDigit {c : Char} (h : isDigit c = true) : isShown c = true := by
  rw [isShown, Bool.and_eq_true, bne_iff_ne, bne_iff_ne]
  constructor
  all_goals
    rintro rfl
    cases h

theorem isShown_of_mem_twoPlaces {x : Binary64} :
    ∀ c ∈ x.twoPlaces.toList, isShown c = true := by
  have hsign : ∀ s, ∀ c ∈ (signText s).toList, isShown c = true := fun s => by
    cases s <;> exact List.all_eq_true.mp (by decide)
  cases x with
  | nan => exact List.all_eq_true.mp (show "NaN".toList.all isShown = true by decide)
  | infinite s =>
    cases s
    · exact List.all_eq_true.mp (show "inf".toList.all isShown = true by decide)
    · exact List.all_eq_true.mp (show "-inf".toList.all isShown = true by decide)
  | finite s n hn =>
    obtain ⟨whole, places, htext, hwhole, hplaces, _⟩ := twoPlaces_eq s n hn
    intro c hc
    rw [htext, List.mem_append, List.mem_append, List.mem_cons] at hc
    rcases hc with hc | hc | rfl | hc
    · exact hsign s c hc
    · exact isShown_of_isDigit (hwhole.2 c hc)
    · rfl
    · exact isShown_of_isDigit (hplaces c hc)

end Text

end Binary64

namespace Display

variable {x : Binary64} {separator : Separator}

/-- Reads a number that is shown with the separator. -/
def read? (separator : Separator) (text : String) : Option Binary64 :=
  match separator with
  | .dot => Binary64.read? text.toList
  | .comma => Binary64.read? (text.toList.map fun c => if c = ',' then '.' else c)

/-- Reads a final grade of an export, which may be missing. -/
def final? (separator : Separator) (text : String) : Option (Option Binary64) :=
  if text = "N/A" then some none else (read? separator text).map some

theorem read?_number (x : Binary64) (separator : Separator) :
    read? separator (number x separator) = Binary64.read? x.twoPlaces.toList := by
  cases separator with
  | dot => rfl
  | comma =>
    have hchars : (number x .comma).toList.map (fun c => if c = ',' then '.' else c) =
        x.twoPlaces.toList := by
      rw [number, String.toList_ofList, List.map_map]
      refine (List.map_congr_left fun c hc => ?_).trans (List.map_id _)
      -- A shown number has no comma of its own.
      have hcomma : c ≠ ',' := by
        rintro rfl
        cases isShown_of_mem_twoPlaces _ hc
      by_cases hpoint : c = '.'
      · simp [hpoint]
      · simp [hpoint, hcomma]
    simp only [read?, hchars]

theorem number_ne (x : Binary64) (separator : Separator) : number x separator ≠ "N/A" := by
  intro h
  have hslash : '/' ∈ (number x separator).toList := by
    rw [h]
    decide
  cases separator with
  | dot => cases isShown_of_mem_twoPlaces _ hslash
  | comma =>
    rw [number, String.toList_ofList] at hslash
    obtain ⟨c, hc, heq⟩ := List.mem_map.mp hslash
    split at heq
    · cases heq
    · subst heq
      cases isShown_of_mem_twoPlaces _ hc

/-- No graded final is shown as one that is missing. -/
theorem grade_eq_missing_iff {value : Option Binary64} :
    grade value separator = "N/A" ↔ value = none := by
  cases value with
  | none => exact iff_of_true rfl rfl
  | some x => exact iff_of_false (number_ne x separator) (Option.some_ne_none x)

theorem final?_grade {value : Option Binary64}
    (h : ∀ x ∈ value, Binary64.read? x.twoPlaces.toList = some x) :
    final? separator (grade value separator) = some value := by
  cases value with
  | none => rfl
  | some x =>
    have hread : read? separator (number x separator) = some x :=
      (read?_number x separator).trans (h x rfl)
    have hshown : final? separator (number x separator) = _ := if_neg (number_ne x separator)
    exact hshown.trans (congrArg (Option.map some) hread)

end Display

namespace Grade

variable {k : Int}

/-- So small grades, in hundredths, are further from each other than any is from its double. -/
theorem nearestEven_roundUnits {cents : Nat} (h : cents ≤ 10 ^ 14) :
    nearestEven (roundUnits (cents * unit) 100 * 100) unit = cents := by
  obtain ⟨hhigh, hlow⟩ := roundUnits_relative_error (cents * unit) (show 0 < 100 by decide)
  have hhundred : 2 ^ 52 * 100 ≤ unit := by decide +kernel
  have hpos := unit_pos
  have hle : cents * unit ≤ 10 ^ 14 * unit := Nat.mul_le_mul_right unit h
  refine nearestEven_eq ?_ ?_
  · rw [Nat.add_mul, Nat.mul_assoc 2 cents]
    omega
  · rw [Nat.mul_assoc 2 cents]
    omega

theorem isFinite_ofHundredths (h : k.natAbs ≤ 10 ^ 14) : (ofHundredths k).isFinite = true := by
  refine isFinite_ofRatio_of_le (representable_mul_unit (n := 10 ^ 14) (by decide)) (by decide) ?_
  exact Nat.le_trans (Nat.mul_le_mul_right unit h) (Nat.le_mul_of_pos_right _ (by decide))

/-- What is shown of a number of hundredths is read as the double that was shown. -/
theorem read?_ofHundredths (h : k.natAbs ≤ 10 ^ 14) :
    read? (ofHundredths k).twoPlaces.toList = some (ofHundredths k) := by
  obtain ⟨hn, hfinite⟩ := ofRatio_eq_of_isFinite (isFinite_ofHundredths h)
  rw [ofHundredths, hfinite, read?_twoPlaces, nearestEven_roundUnits h, hfinite]

/-- A negative number of hundredths is shown with some cents. -/
theorem read?_ofHundredths_ne (h : (ofHundredths k).isFinite = true) :
    read? (ofHundredths k).twoPlaces.toList ≠ some (zero true) := by
  obtain ⟨hn, hfinite⟩ := ofRatio_eq_of_isFinite h
  rw [ofHundredths, hfinite, read?_twoPlaces]
  intro hread
  have hzero := Option.some.inj hread
  by_cases hneg : k < 0
  · have hcent : 0 < roundUnits unit 100 ∧ nearestEven (roundUnits unit 100 * 100) unit = 1 := by
      decide +kernel
    have hunits : roundUnits unit 100 ≤ roundUnits (k.natAbs * unit) 100 :=
      roundUnits_mono_left _ (Nat.le_mul_of_pos_left _ (by omega))
    have hcents : 1 ≤ nearestEven (roundUnits (k.natAbs * unit) 100 * 100) unit := by
      rw [← hcent.2]
      exact nearestEven_mono (Nat.mul_le_mul_right _ hunits)
    have hback := congrArg isFinite hzero
    obtain ⟨hn', hshown⟩ := ofRatio_eq_of_isFinite hback
    have hcount := (finite.inj (hshown.symm.trans hzero)).2
    have hle := roundUnits_mono_left 100 (Nat.le_mul_of_pos_left unit hcents)
    omega
  · rw [decide_eq_false hneg] at hzero
    exact ofRatio_ne_negativeZero _ _ hzero

/-- A grade from minus a million millions on is no more hundredths than that. -/
theorem natAbs_le_of_le (hhigh : k ≤ 1000) (h : -ofNat (10 ^ 12) ≤ ofHundredths k) :
    k.natAbs ≤ 10 ^ 14 := by
  by_contra hlarge
  have hbelow : (ofHundredths (-10 ^ 14 - 1)).position < (-ofNat (10 ^ 12)).position := by
    decide +kernel
  have hplace := position_ofHundredths_mono (show k ≤ -10 ^ 14 - 1 by omega)
  obtain ⟨hnumber, hnumber'⟩ := isNaN_of_le h
  have hle := (le_iff hnumber hnumber').mp h
  omega

end Grade

end FinalGrades
