import FinalGrades.Json.Reader
import FinalGrades.Proofs.Number.Notation

/-!
Numbers as they are written in JSON: the text of every finite number is one, and the reader takes
it whole, whatever follows it.
-/

namespace FinalGrades.Json

variable {rest : List Char}

/-- The characters that can lengthen a number. -/
def continuesNumber (c : Char) : Bool := isDigit c || c = '.' || c = 'e' || c = 'E'

/-- A number as it is written: no zero before other whole digits, and a sign in the exponent. -/
def IsNumber (written : List Char) : Prop :=
  ∃ sign whole fraction exponent, written = sign ++ (whole ++ (fraction ++ exponent)) ∧
    (sign = [] ∨ sign = ['-']) ∧ IsDigits whole ∧ (whole = ['0'] ∨ whole.head? ≠ some '0') ∧
    (fraction = [] ∨ ∃ digits, fraction = '.' :: digits ∧ IsDigits digits) ∧
    (exponent = [] ∨ ∃ mark digits, exponent = 'e' :: mark :: digits ∧ (mark = '+' ∨ mark = '-') ∧
      IsDigits digits)

section Numbers

variable {written : List Char}

theorem continuesNumber_eq_false {c : Char} (h : continuesNumber c = false) :
    isDigit c = false ∧ c ≠ '.' ∧ c ≠ 'e' ∧ c ≠ 'E' := by
  simpa [continuesNumber, and_assoc] using h

theorem ends_isDigit (ends : Ends continuesNumber rest) : Ends isDigit rest :=
  fun c hc => (continuesNumber_eq_false (ends c hc)).1

/-- A written number is taken whole from the front of a text. -/
theorem numberLength?_append (h : IsNumber written) (ends : Ends continuesNumber rest) :
    numberLength? (written ++ rest) = some written.length := by
  obtain ⟨sign, whole, fraction, exponent, rfl, hsign, hwhole, hlead, hfraction, hexponent⟩ := h
  have hvalid : (whole.isEmpty || (whole.head? = some '0' && whole.length != 1)) = false := by
    rcases hlead with rfl | hlead
    · rfl
    · simp [hwhole.1, hlead]
  have hsigned : (if (sign ++ (whole ++ (fraction ++ exponent)) ++ rest).head? = some '-' then 1
      else 0) = sign.length := by
    rcases hsign with rfl | rfl
    · rw [List.nil_append, List.append_assoc, if_neg (hwhole.head?_ne rfl)]
      rfl
    · rfl
  have hbody : (sign ++ (whole ++ (fraction ++ exponent)) ++ rest).drop sign.length =
      whole ++ (fraction ++ (exponent ++ rest)) := by simp
  have hafter : (sign ++ (whole ++ (fraction ++ exponent)) ++ rest).drop
      (sign.length + whole.length) = fraction ++ (exponent ++ rest) := by
    rw [← List.drop_drop, hbody, List.drop_left]
  have hdigits := ends_isDigit ends
  have hendsExponent : Ends isDigit (exponent ++ rest) := by
    rcases hexponent with rfl | ⟨mark, digits, rfl, _, _⟩
    · exact hdigits
    · exact ends_cons _ rfl
  have hendsFraction : Ends isDigit (fraction ++ (exponent ++ rest)) := by
    rcases hfraction with rfl | ⟨digits, rfl, _⟩
    · exact hendsExponent
    · exact ends_cons _ rfl
  unfold numberLength?
  simp only [hsigned, hbody, hwhole.takeWhile hendsFraction, hafter, hvalid]
  -- What is left are the places and the exponent, each of which may be missing.
  rcases hfraction with rfl | ⟨places, rfl, hplaces⟩ <;>
    rcases hexponent with rfl | ⟨mark, power, rfl, hmark, hpower⟩
  · cases rest with
    | nil => simp
    | cons c rest =>
      obtain ⟨_, hpoint, hlower, hupper⟩ := continuesNumber_eq_false (ends c rfl)
      simp [hpoint, hlower, hupper]
  · have htake := hpower.takeWhile hdigits
    rcases hmark with rfl | rfl <;>
      simp [-List.takeWhile_eq_nil_iff, htake, hpower.1, Nat.add_assoc]
  · have htake := hplaces.takeWhile hdigits
    cases rest with
    | nil =>
      rw [List.append_nil] at htake
      simp [-List.takeWhile_eq_nil_iff, -List.takeWhile_eq_self_iff, htake, hplaces.1,
        Nat.add_assoc]
    | cons c rest =>
      obtain ⟨_, hpoint, hlower, hupper⟩ := continuesNumber_eq_false (ends c rfl)
      simp [-List.takeWhile_eq_nil_iff, htake, hplaces.1, hlower, hupper, Nat.add_assoc]
  · have htake := hplaces.takeWhile hendsExponent
    have htake' := hpower.takeWhile hdigits
    rw [List.cons_append, List.cons_append] at htake
    rcases hmark with rfl | rfl
    all_goals
      simp [-List.takeWhile_eq_nil_iff, htake, htake', hplaces.1, hpower.1]
      omega

theorem IsNumber.head (h : IsNumber written) :
    ∃ c more, written = c :: more ∧ (c = '-' ∨ isDigit c = true) := by
  obtain ⟨sign, whole, fraction, exponent, rfl, hsign, hwhole, _⟩ := h
  rcases hsign with rfl | rfl
  · obtain ⟨c, more, rfl, hc⟩ := hwhole.head
    exact ⟨c, _, rfl, .inr hc⟩
  · exact ⟨'-', _, rfl, .inl rfl⟩

end Numbers

theorem isNumber_digitsOf (n : Nat) : IsNumber (digitsOf n) := by
  refine ⟨[], digitsOf n, [], [], by simp, .inl rfl, isDigits_digitsOf n, ?_, .inl rfl, .inl rfl⟩
  rcases Nat.eq_zero_or_pos n with rfl | hpos
  · exact .inl rfl
  · exact .inr (head?_digitsOf_ne hpos)

section Doubles

variable {sign : List Char} {d : Decimal}

/-- One digit, a point and places if there are more digits, and an exponent. -/
theorem scientific_eq (d : Decimal) :
    ∃ first fraction mark, d.scientific =
        first :: (fraction ++ 'e' :: mark :: digitsOf (d.pointAt - 1).natAbs) ∧
      (mark = '+' ∨ mark = '-') ∧ (digitsOf d.digits).head? = some first ∧
      (fraction = [] ∨ ∃ digits, fraction = '.' :: digits ∧ IsDigits digits) := by
  have hdigits := isDigits_digitsOf d.digits
  have hmark : (if d.pointAt - 1 < 0 then '-' else '+') = '+' ∨
      (if d.pointAt - 1 < 0 then '-' else '+') = '-' := by
    split
    · exact .inr rfl
    · exact .inl rfl
  unfold Decimal.scientific
  dsimp only
  split
  next digit next more hall =>
    rw [hall] at hdigits ⊢
    refine ⟨digit, '.' :: next :: more, _, rfl, hmark, rfl, .inr ⟨_, rfl, ?_, ?_⟩⟩
    · exact List.cons_ne_nil next more
    · exact fun c hc => hdigits.2 c (List.mem_cons_of_mem digit hc)
  next hshort =>
    obtain ⟨first, more, hall, _⟩ := hdigits.head
    obtain rfl : more = [] := by
      cases more with
      | nil => rfl
      | cons next more => exact absurd hall (hshort first next more)
    rw [hall]
    exact ⟨first, [], _, rfl, hmark, rfl, .inl rfl⟩

theorem isNumber_scientific (hsign : sign = [] ∨ sign = ['-']) (hpos : 0 < d.digits) :
    IsNumber (sign ++ d.scientific) := by
  obtain ⟨first, fraction, mark, htext, hmark, hfirst, hfraction⟩ := scientific_eq d
  have hhead := head?_digitsOf_ne hpos
  rw [hfirst] at hhead
  have hwhole : IsDigits [first] :=
    ⟨List.cons_ne_nil _ _, List.forall_mem_singleton.mpr
      ((isDigits_digitsOf d.digits).2 first (List.mem_of_head? hfirst))⟩
  rw [htext]
  exact ⟨sign, [first], fraction, _, rfl, hsign, hwhole, .inr hhead, hfraction,
    .inr ⟨mark, _, rfl, hmark, isDigits_digitsOf _⟩⟩

theorem isNumber_positional (hsign : sign = [] ∨ sign = ['-']) (hpos : 0 < d.digits) :
    IsNumber (sign ++ if d.positional.contains '.' then d.positional
      else d.positional ++ ['.', '0']) := by
  obtain ⟨whole, fraction, h⟩ := d.exists_written
  rw [h.pointed]
  exact ⟨sign, whole, _, [], by rw [List.append_nil], hsign, ⟨h.nonempty, h.digits⟩,
    h.leading hpos, .inr ⟨_, rfl, h.isDigits_shown⟩, .inl rfl⟩

theorem toList_signText (negative : Bool) :
    (Binary64.signText negative).toList = [] ∨ (Binary64.signText negative).toList = ['-'] := by
  cases negative
  · exact .inl rfl
  · exact .inr rfl

/-- The text of a finite double is a number. -/
theorem isNumber_json {value : Binary64} (h : value.isFinite = true) :
    IsNumber value.json.toList := by
  match value with
  | .nan | .infinite _ => cases h
  | .finite negative n hn =>
    have hsign := toList_signText negative
    by_cases hzero : n = 0
    · rw [Binary64.json, if_pos hzero, String.toList_append]
      exact ⟨_, ['0'], ['.', '0'], [], rfl, hsign, isDigits_zero, .inl rfl,
        .inr ⟨['0'], rfl, isDigits_zero⟩, .inl rfl⟩
    · have hpos := Binary64.digits_shortest_pos .even hn (Nat.pos_of_ne_zero hzero)
      rw [Binary64.json, if_neg hzero, String.toList_append]
      dsimp only
      split
      · rw [String.toList_ofList]
        exact isNumber_scientific hsign hpos
      · rw [String.toList_ofList]
        exact isNumber_positional hsign hpos

end Doubles

end FinalGrades.Json
