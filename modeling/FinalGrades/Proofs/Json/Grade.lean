import FinalGrades.Json.Fields
import FinalGrades.Proofs.Display
import FinalGrades.Proofs.Json.Number

/-!
Grades as JSON documents hold them. A grade has at most two places there, since two places already
read back, and so few digits that the loader, which rounds more than once, reads it exactly.
-/

namespace FinalGrades

open Binary64

theorem pow_length_digitsOf_le {n : Nat} (h : 0 < n) : 10 ^ ((digitsOf n).length - 1) ≤ n := by
  by_contra hlarge
  have hlength : 0 < (digitsOf n).length - 1 := by
    refine Nat.pos_of_ne_zero fun hzero => ?_
    rw [hzero, Nat.pow_zero] at hlarge
    omega
  have hle : (digitsOf n).length ≤ _ :=
    Nat.toDigits_length 10 n _ hlength (Nat.lt_of_not_le hlarge)
  omega

namespace Binary64

section Digits

variable {n digits cents : Nat} {hn : Representable n} {exponent : Int}

/-- The same digits with a sign. -/
theorem ofDecimal_signed (h : ofDecimal false digits exponent = finite false n hn)
    (negative : Bool) : ofDecimal negative digits exponent = finite negative n hn := by
  rw [ofDecimal_eq] at h ⊢
  obtain ⟨_, hfinite⟩ := ofRatio_eq_of_isFinite (congrArg isFinite h)
  exact ofRatio_eq_finite hn (finite.inj (hfinite.symm.trans h)).2

/-- A decimal is below a whole number if it is read as a double below it. -/
theorem digits_lt_of_read {limit : Nat} (h : ofDecimal false digits exponent = finite false n hn)
    (hlimit : limit < 2 ^ 53) (hlt : n < limit * unit) :
    digits * 10 ^ exponent.toNat < limit * 10 ^ (-exponent).toNat := by
  rw [ofDecimal_eq] at h
  obtain ⟨_, hfinite⟩ := ofRatio_eq_of_isFinite (congrArg isFinite h)
  have hcount := (finite.inj (hfinite.symm.trans h)).2
  by_contra hlarge
  have hle : limit * unit * 10 ^ (-exponent).toNat ≤ digits * 10 ^ exponent.toNat * unit * 1 := by
    rw [Nat.mul_one, Nat.mul_right_comm]
    exact Nat.mul_le_mul_right _ (Nat.le_of_not_lt hlarge)
  have hround := roundUnits_mono Nat.one_pos (Nat.pow_pos (by decide)) hle
  rw [roundUnits_one (representable_mul_unit hlimit), hcount] at hround
  omega

/-- Two places are enough for the double nearest to so few cents. -/
theorem le_exponent_of_cents {tie : Tie} (hcents : 0 < cents) (h : cents ≤ 10 ^ 14)
    (hn : Representable (roundUnits (cents * unit) 100)) :
    -2 ≤ (shortest tie (roundUnits (cents * unit) 100)).exponent := by
  have hread : (Decimal.mk cents (-2)).toBinary64 = finite false _ hn := by
    rw [Decimal.toBinary64, ofDecimal_eq]
    have hup : (-2 : Int).toNat = 0 := rfl
    have hdown : (- -2 : Int).toNat = 2 := rfl
    rw [hup, hdown, Nat.pow_zero, Nat.mul_one]
    exact ofRatio_eq_finite hn rfl
  have hnearest := Grade.nearestEven_roundUnits h
  have hcent : unit ≤ roundUnits unit 100 * 100 := by decide +kernel
  have hleast : roundUnits unit 100 ≤ roundUnits (cents * unit) 100 :=
    roundUnits_mono_left _ (Nat.le_mul_of_pos_left _ hcents)
  generalize roundUnits (cents * unit) 100 = n at *
  have hlow := le_nearestEven (n * 100) unit
  have hhigh := nearestEven_le (n * 100) unit
  rw [hnearest] at hlow hhigh
  have hscaled : scaled n (-2) = (n * 100, unit) := by
    rw [scaled_eq]
    generalize unit = u
    show (n * 10 ^ 2, u * 10 ^ 0) = (n * 10 ^ 2, u)
    rw [Nat.pow_zero, Nat.mul_one]
  have hside : cents = n * 100 / unit ∨ cents = n * 100 / unit + 1 := by omega
  have hfound : neighbour? tie n (-2) ≠ none := by
    refine neighbour?_ne_none hread ?_
    rw [hscaled]
    dsimp only
    generalize n * 100 / unit = below at hside
    rcases hside with rfl | rfl
    · exact .inl rfl
    · exact .inr rfl
  exact le_exponent_shortest hfound (Nat.le_trans hcent (Nat.mul_le_mul_right 100 hleast))

end Digits

section Text

variable {n : Nat} {hn : Representable n} {whole places : List Char}

/-- Digits that spell a number, so few that the loader makes no error with them. -/
structure Short (n : Nat) (hn : Representable n) (whole places : List Char) : Prop where
  isDigits : IsDigits whole
  isDigits_places : IsDigits places
  few_places : places.length ≤ 2
  value : ofDecimal false (digitsValue 0 (whole ++ places)) (-(places.length : Int)) =
    finite false n hn
  digits_lt : digitsValue 0 (whole ++ places) < 2 ^ 53

theorem short_of_value (hlt : n < (10 ^ 12 + 1) * unit) (hwhole : IsDigits whole)
    (hplaces : IsDigits places) (hfew : places.length ≤ 2)
    (hvalue : ofDecimal false (digitsValue 0 (whole ++ places)) (-(places.length : Int)) =
      finite false n hn) : Short n hn whole places := by
  refine ⟨hwhole, hplaces, hfew, hvalue, ?_⟩
  have hdigits := digits_lt_of_read hvalue (by decide) hlt
  have hup : (-(places.length : Int)).toNat = 0 := by omega
  have hdown : (- -(places.length : Int)).toNat = places.length := by omega
  rw [hup, hdown, Nat.pow_zero, Nat.mul_one] at hdigits
  have hpow : (10 ^ 12 + 1) * 10 ^ places.length ≤ (10 ^ 12 + 1) * 10 ^ 2 :=
    Nat.mul_le_mul_left _ (Nat.pow_le_pow_right (by decide) hfew)
  omega

/-- A number in the range of grades is far from needing an exponent. -/
theorem pointAt_of_read {d : Decimal} (hread : d.toBinary64 = finite false n hn)
    (hdigits : 0 < d.digits) (hexponent : -2 ≤ d.exponent) (hlt : n < (10 ^ 12 + 1) * unit) :
    -5 < d.pointAt ∧ d.pointAt ≤ 16 := by
  have hpoint : d.pointAt = (digitsOf d.digits).length + d.exponent := rfl
  have hlength := length_digitsOf_pos d.digits
  refine ⟨by omega, ?_⟩
  have hbound := digits_lt_of_read hread (by decide) hlt
  have hpow : 10 ^ ((digitsOf d.digits).length - 1 + d.exponent.toNat) <
      10 ^ (13 + (-d.exponent).toNat) := by
    rw [Nat.pow_add, Nat.pow_add]
    calc _ ≤ d.digits * 10 ^ d.exponent.toNat :=
          Nat.mul_le_mul_right _ (pow_length_digitsOf_le hdigits)
      _ < (10 ^ 12 + 1) * 10 ^ (-d.exponent).toNat := hbound
      _ ≤ 10 ^ 13 * 10 ^ (-d.exponent).toNat := Nat.mul_le_mul_right _ (by decide)
  have hpowers := (Nat.pow_lt_pow_iff_right (by decide)).mp hpow
  omega

/-- A number with at most two places and not too many digits before them is written so. -/
theorem exists_json_eq (hn : Representable n) (negative : Bool) (hpos : 0 < n)
    (hlt : n < (10 ^ 12 + 1) * unit) (hexponent : -2 ≤ (shortest .even n).exponent) :
    ∃ whole places, (finite negative n hn).json.toList =
      (signText negative).toList ++ (whole ++ '.' :: places) ∧ Short n hn whole places := by
  have hread := toBinary64_shortest .even hn hpos
  have hdigits := digits_shortest_pos .even hn hpos
  rw [json, if_neg (Nat.ne_of_gt hpos)]
  dsimp only
  generalize shortest .even n = d at *
  obtain ⟨hlow, hhigh⟩ := pointAt_of_read hread hdigits hexponent hlt
  rw [if_neg (by simp [hlow, hhigh]), String.toList_append, String.toList_ofList]
  obtain ⟨whole, fraction, h⟩ := d.exists_written
  rw [h.pointed]
  refine ⟨whole, _, rfl, short_of_value hlt ⟨h.nonempty, h.digits⟩ h.isDigits_shown ?_
    (h.value_shown.trans hread)⟩
  have hcount := h.count
  unfold Decimal.shownPlaces
  split
  next => decide
  next => omega

end Text

end Binary64

namespace Json

section Gathering

variable {high : Nat} {digits : List Char}

theorem le_digitsValue (high : Nat) (digits : List Char) : high ≤ digitsValue high digits := by
  induction digits generalizing high with
  | nil => exact Nat.le_refl _
  | cons c digits ih =>
    have hnext : 10 * high + digitValue c ≤ digitsValue high (c :: digits) := ih _
    omega

theorem gatherWhole_eq (h : digitsValue high digits < wordLimit) :
    gatherWhole high digits = (digitsValue high digits, 0) := by
  induction digits generalizing high with
  | nil => rfl
  | cons c digits ih =>
    have hnext := le_digitsValue (10 * high + digitValue c) digits
    have hrest : digitsValue (10 * high + digitValue c) digits < wordLimit := h
    rw [gatherWhole, if_pos (Nat.lt_of_le_of_lt hnext hrest), ih hrest]
    rfl

theorem gatherFraction_eq (h : digitsValue high digits < wordLimit) :
    gatherFraction high digits = (digitsValue high digits, digits.length) := by
  induction digits generalizing high with
  | nil => rfl
  | cons c digits ih =>
    have hnext := le_digitsValue (10 * high + digitValue c) digits
    have hrest : digitsValue (10 * high + digitValue c) digits < wordLimit := h
    rw [gatherFraction, if_pos (Nat.lt_of_le_of_lt hnext hrest), ih hrest]
    rfl

end Gathering

section Reading

variable {n digits power : Nat} {hn : Representable n} {whole places : List Char}

/-- The quotient by a small power of ten is rounded only once. -/
theorem shrink_ofNat (hdigits : digits < 2 ^ 53) (hpower : power ≤ 2) :
    shrink (Binary64.ofNat digits) power = ofDecimal false digits (-(power : Int)) := by
  have hten : 10 ^ power ≤ 10 ^ 2 := Nat.pow_le_pow_right (by decide) hpower
  have hpos : 0 < 10 ^ power := Nat.pow_pos (by decide)
  have hup : (power : Int).toNat = power := rfl
  have hdown : (-(power : Int)).toNat = 0 := by omega
  have hback : (- -(power : Int)).toNat = power := by omega
  have hfactor : ofDecimal false 1 power = Binary64.ofNat (10 ^ power) := by
    rw [ofDecimal_eq, hup, hdown, Nat.pow_zero, Nat.one_mul, Binary64.ofNat]
  rw [shrink, if_pos (by omega), hfactor, ofNat_eq hdigits,
    ofNat_eq (Nat.lt_of_le_of_lt hten (by decide)),
    div_finite (Nat.mul_ne_zero (Nat.ne_of_gt hpos) (Nat.ne_of_gt unit_pos)), ofDecimal_eq, hback,
    hdown, Nat.pow_zero, Nat.mul_one]
  exact ofRatio_congr (Nat.mul_pos hpos unit_pos) hpos (by
    generalize unit = u
    ring)

theorem splitNumber_point (hwhole : IsDigits whole) (hplaces : IsDigits places) :
    splitNumber (whole ++ '.' :: places) = (whole, places, []) := by
  obtain ⟨htake, hdrop⟩ := split_of_ends hwhole.2 (ends_cons (x := '.') places rfl)
  obtain ⟨htake', hdrop'⟩ := split_of_ends hplaces.2 (ends_nil _)
  rw [List.append_nil] at htake' hdrop'
  simp [splitNumber, htake, htake', hdrop']

theorem scale?_of_short (h : Short n hn whole places) :
    scale? (Binary64.ofNat (digitsValue (digitsValue 0 whole) places))
      ((0 : Nat) - (places.length : Int)) = some (finite false n hn) := by
  obtain ⟨more, hmore⟩ := Nat.exists_eq_succ_of_ne_zero (mt List.length_eq_zero_iff.mp
    h.isDigits_places.1)
  have hstart : ((0 : Nat) : Int) - (places.length : Int) = .negSucc more := by omega
  have hshrink := shrink_ofNat h.digits_lt h.few_places
  rw [h.value, hmore] at hshrink
  rw [hstart, scale?, ← digitsValue_append, hshrink]

theorem number?_of_short (h : Short n hn whole places) (negative : Bool) :
    number? (.number ((signText negative).toList ++ (whole ++ '.' :: places))) =
      some (finite negative n hn) := by
  have hlimit : digitsValue 0 (whole ++ places) < wordLimit :=
    Nat.lt_trans h.digits_lt (by decide)
  rw [digitsValue_append] at hlimit
  have hwhole := gatherWhole_eq (Nat.lt_of_le_of_lt (le_digitsValue _ places) hlimit)
  have hplaces := gatherFraction_eq hlimit
  unfold number?
  split
  next written htext =>
    obtain rfl := Json.number.inj htext
    split
    next minus body hpair =>
      obtain ⟨rfl, rfl⟩ : minus = negative ∧ body = whole ++ '.' :: places := by
        cases negative with
        | true =>
          cases hpair
          exact ⟨rfl, rfl⟩
        | false =>
          obtain ⟨c, more, rfl, hc⟩ := h.isDigits.head
          split at hpair
          next heq =>
            obtain ⟨rfl, _⟩ := List.cons.inj heq
            cases hc
          next =>
            cases hpair
            exact ⟨rfl, rfl⟩
      rw [splitNumber_point h.isDigits h.isDigits_places]
      dsimp only
      rw [hwhole]
      dsimp only
      rw [hplaces]
      dsimp only
      rw [scale?_of_short h]
      cases minus <;> rfl
  next hother => exact absurd rfl (hother _)

end Reading

end Json

namespace Grade

variable {k : Int}

/-- A number of hundredths is written with at most two places. -/
theorem exists_json_ofHundredths (h : k.natAbs ≤ 10 ^ 14) : ∃ s n hn whole places,
    ofHundredths k = finite s n hn ∧
      (ofHundredths k).json.toList = (signText s).toList ++ (whole ++ '.' :: places) ∧
      Short n hn whole places := by
  obtain ⟨hn, hfinite⟩ := ofRatio_eq_of_isFinite (isFinite_ofHundredths h)
  rw [ofHundredths, hfinite]
  by_cases hzero : k.natAbs = 0
  · have hsign : decide (k < 0) = false := decide_eq_false (by omega)
    have hunits : roundUnits (k.natAbs * unit) 100 = 0 := by
      rw [hzero, Nat.zero_mul, roundUnits_zero]
    generalize roundUnits (k.natAbs * unit) 100 = n at *
    subst hunits
    refine ⟨_, 0, hn, ['0'], ['0'], rfl, ?_, ?_⟩
    · rw [json, if_pos rfl, String.toList_append]
      rfl
    · exact short_of_value (Nat.mul_pos (by decide) unit_pos) isDigits_zero isDigits_zero
        (by decide) rfl
  · have hpos : 0 < k.natAbs := Nat.pos_of_ne_zero hzero
    have hleast : roundUnits unit 100 ≤ roundUnits (k.natAbs * unit) 100 :=
      roundUnits_mono_left _ (Nat.le_mul_of_pos_left _ hpos)
    have hcent : 0 < roundUnits unit 100 := by decide +kernel
    have hmost : roundUnits (k.natAbs * unit) 100 ≤ 10 ^ 12 * unit := by
      rw [← roundUnits_one (representable_mul_unit (n := 10 ^ 12) (by decide))]
      refine roundUnits_mono (by decide) Nat.one_pos ?_
      have hle := Nat.mul_le_mul_right unit h
      omega
    have hunit := unit_pos
    obtain ⟨whole, places, htext, hshort⟩ := exists_json_eq hn (decide (k < 0))
      (by omega) (by rw [Nat.succ_mul]; omega) (le_exponent_of_cents hpos h hn)
    exact ⟨_, _, hn, whole, places, rfl, htext, hshort⟩

/-- The text is read as the grade, by an exact reader and by the loader. -/
theorem read?_json_ofHundredths (h : k.natAbs ≤ 10 ^ 14) :
    read? (ofHundredths k).json.toList = some (ofHundredths k) ∧
      Json.number? (Json.ofNumber (ofHundredths k)) = some (ofHundredths k) := by
  obtain ⟨s, n, hn, whole, places, hfinite, htext, hshort⟩ := exists_json_ofHundredths h
  have hnumber : Json.ofNumber (ofHundredths k) = .number (ofHundredths k).json.toList :=
    if_pos (isFinite_ofHundredths h)
  rw [hnumber, htext, read?_point s hshort.isDigits hshort.isDigits_places.2,
    ofDecimal_signed hshort.value, Json.number?_of_short hshort, hfinite]
  exact ⟨rfl, rfl⟩

end Grade

end FinalGrades
