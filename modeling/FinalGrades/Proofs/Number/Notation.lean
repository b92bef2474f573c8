import FinalGrades.Proofs.Formula.Lexing
import FinalGrades.Proofs.Number.Shortest

/-!
Numbers written without an exponent are literals of formulas, and are read as the numbers that were
written. The point only moves: digits and places together are those of the decimal.
-/

namespace FinalGrades

theorem digitsValue_eq (high : Nat) (digits : List Char) :
    digitsValue high digits = Nat.ofDigitChars 10 digits high :=
  Nat.ofDigitChars_eq_foldl.symm

theorem digitsValue_append (high : Nat) (front rest : List Char) :
    digitsValue high (front ++ rest) = digitsValue (digitsValue high front) rest :=
  List.foldl_append

theorem digitsValue_zeros (high zeros : Nat) :
    digitsValue high (List.replicate zeros '0') = high * 10 ^ zeros := by
  rw [digitsValue_eq, Nat.ofDigitChars_replicate_zero, Nat.mul_comm]

theorem digitsValue_digitsOf (n : Nat) : digitsValue 0 (digitsOf n) = n := by
  rw [digitsValue_eq]
  exact Nat.ofDigitChars_ten_toDigits

theorem isDigit_of_mem_digitsOf {n : Nat} {c : Char} (h : c ∈ digitsOf n) : isDigit c = true :=
  Nat.isDigit_of_mem_toDigits (by decide) (by decide) h

theorem isDigit_of_mem_zeros {zeros : Nat} {c : Char} (h : c ∈ List.replicate zeros '0') :
    isDigit c = true := by
  rw [List.eq_of_mem_replicate h]
  rfl

theorem length_digitsOf_pos (n : Nat) : 0 < (digitsOf n).length := Nat.length_toDigits_pos

theorem head?_digitsOf_ne {n : Nat} (h : 0 < n) : (digitsOf n).head? ≠ some '0' := by
  induction n using Nat.strongRecOn with
  | ind n ih =>
    rw [digitsOf, Nat.toDigits_eq_if (by decide)]
    split
    next hlt =>
      have hdigit : Nat.digitChar n ≠ '0' := by
        intro hc
        have hcode := Nat.toNat_digitChar_of_lt_ten hlt
        rw [hc] at hcode
        exact Nat.ne_of_gt h (Nat.add_left_cancel (hcode.symm.trans (Nat.add_zero 48).symm))
      simpa using hdigit
    next hge =>
      rw [List.head?_append_of_ne_nil _ Nat.toDigits_ne_nil]
      exact ih (n / 10) (by omega) (by omega)

section Digits

variable {digits rest : List Char}

/-- Some digits, at least one. -/
def IsDigits (digits : List Char) : Prop := digits ≠ [] ∧ ∀ c ∈ digits, isDigit c = true

theorem IsDigits.isEmpty (h : IsDigits digits) : digits.isEmpty = false := by
  rw [List.isEmpty_eq_false_iff]
  exact h.1

theorem IsDigits.takeWhile (h : IsDigits digits) (ends : Ends isDigit rest) :
    (digits ++ rest).takeWhile isDigit = digits :=
  (split_of_ends h.2 ends).1

theorem IsDigits.head (h : IsDigits digits) :
    ∃ c more, digits = c :: more ∧ isDigit c = true := by
  obtain ⟨c, more, rfl⟩ := List.exists_cons_of_ne_nil h.1
  exact ⟨c, more, rfl, h.2 c List.mem_cons_self⟩

theorem IsDigits.head?_ne (h : IsDigits digits) {c : Char} (hc : isDigit c = false) :
    (digits ++ rest).head? ≠ some c := by
  obtain ⟨d, more, rfl, hd⟩ := h.head
  intro heq
  obtain rfl := Option.some.inj heq
  rw [hd] at hc
  cases hc

theorem isDigits_zero : IsDigits ['0'] :=
  ⟨List.cons_ne_nil _ _, List.forall_mem_singleton.mpr rfl⟩

theorem isDigits_digitsOf (n : Nat) : IsDigits (digitsOf n) :=
  ⟨List.ne_nil_of_length_pos (length_digitsOf_pos n), fun _ => isDigit_of_mem_digitsOf⟩

end Digits

namespace Lexeme

variable {whole fraction : List Char}

theorem isLiteral_digits (h : ∀ c ∈ whole, isDigit c = true) (hne : whole ≠ []) :
    IsLiteral whole ∧ literalValue whole = .ofDecimal false (digitsValue 0 whole) 0 := by
  obtain ⟨c, hc⟩ := List.exists_mem_of_ne_nil whole hne
  refine ⟨⟨fun d hd => ?_, ⟨c, hc, h c hc⟩, ?_⟩, ?_⟩
  · exact isLiteralChar_iff.mpr (.inl (h d hd))
  · rw [count_point_of_digits h]
    omega
  · rw [literalValue, List.filter_eq_self.mpr h, List.dropWhile_eq_nil_iff.mpr h]
    rfl

theorem isLiteral_point (hw : ∀ c ∈ whole, isDigit c = true)
    (hf : ∀ c ∈ fraction, isDigit c = true) (hne : whole ≠ []) :
    IsLiteral (whole ++ '.' :: fraction) ∧ literalValue (whole ++ '.' :: fraction) =
      .ofDecimal false (digitsValue 0 (whole ++ fraction)) (-(fraction.length : Int)) := by
  obtain ⟨c, hc⟩ := List.exists_mem_of_ne_nil whole hne
  refine ⟨⟨fun d hd => ?_, ⟨c, List.mem_append_left _ hc, hw c hc⟩, ?_⟩, literalValue_point hw hf⟩
  · rw [isLiteralChar_iff]
    rcases List.mem_append.mp hd with hd | hd
    · exact .inl (hw d hd)
    · rcases List.mem_cons.mp hd with rfl | hd
      · exact .inr rfl
      · exact .inl (hf d hd)
  · rw [List.count_append, List.count_cons_self, count_point_of_digits hw,
      count_point_of_digits hf]

theorem isLiteral_digitsOf (n : Nat) :
    IsLiteral (digitsOf n) ∧ literalValue (digitsOf n) = Binary64.ofNat n := by
  obtain ⟨hliteral, hvalue⟩ := isLiteral_digits (isDigits_digitsOf n).2 (isDigits_digitsOf n).1
  refine ⟨hliteral, hvalue.trans ?_⟩
  rw [digitsValue_digitsOf, Binary64.ofDecimal_eq]
  simp only [Int.toNat_zero, Int.neg_zero, Nat.pow_zero, Nat.mul_one]
  rfl

end Lexeme

namespace Decimal

open Lexeme

/--
How a decimal is written without an exponent: whole digits, and after a point the places, if there
are any. Zeros are put before the digits only to have a whole digit.
-/
structure Written (d : Decimal) (whole fraction : List Char) : Prop where
  text : d.positional = if fraction = [] then whole else whole ++ '.' :: fraction
  digits : ∀ c ∈ whole, isDigit c = true
  places : ∀ c ∈ fraction, isDigit c = true
  nonempty : whole ≠ []
  count : fraction.length = (-d.exponent).toNat
  leading : 0 < d.digits → whole = ['0'] ∨ whole.head? ≠ some '0'
  value : Binary64.ofDecimal false (digitsValue 0 (whole ++ fraction)) (-(fraction.length : Int)) =
    d.toBinary64

variable {d : Decimal}

theorem written_below (h : d.pointAt ≤ 0) :
    d.Written ['0'] (List.replicate (-d.pointAt).toNat '0' ++ digitsOf d.digits) := by
  have hpoint : d.pointAt = (digitsOf d.digits).length + d.exponent := rfl
  have hlength := length_digitsOf_pos d.digits
  refine ⟨?_, isDigits_zero.2, fun c hc => ?_, isDigits_zero.1, ?_, fun _ => .inl rfl, ?_⟩
  · rw [positional, if_pos h, if_neg (by simp [List.ne_nil_of_length_pos hlength])]
    rfl
  · exact (List.mem_append.mp hc).elim isDigit_of_mem_zeros isDigit_of_mem_digitsOf
  · rw [List.length_append, List.length_replicate]
    omega
  · have hvalue : digitsValue 0 (['0'] ++
        (List.replicate (-d.pointAt).toNat '0' ++ digitsOf d.digits)) = d.digits := by
      have hzero : digitsValue 0 ['0'] = 0 := rfl
      rw [digitsValue_append, digitsValue_append, hzero, digitsValue_zeros, Nat.zero_mul,
        digitsValue_digitsOf]
    have hplaces : -(((List.replicate (-d.pointAt).toNat '0' ++ digitsOf d.digits).length : Nat) :
        Int) = d.exponent := by
      rw [List.length_append, List.length_replicate]
      omega
    rw [hvalue, hplaces]
    rfl

theorem written_above (h : ((digitsOf d.digits).length : Int) ≤ d.pointAt) :
    d.Written (digitsOf d.digits ++
      List.replicate (d.pointAt - (digitsOf d.digits).length).toNat '0') [] := by
  have hpoint : d.pointAt = (digitsOf d.digits).length + d.exponent := rfl
  have hlength := length_digitsOf_pos d.digits
  have hne := List.ne_nil_of_length_pos hlength
  refine ⟨?_, fun c hc => ?_, by simp, by simp [hne], ?_, fun hpos => .inr ?_, ?_⟩
  · rw [positional, if_neg (by omega), if_pos h, if_pos rfl]
  · exact (List.mem_append.mp hc).elim isDigit_of_mem_digitsOf isDigit_of_mem_zeros
  · rw [List.length_nil]
    omega
  · rw [List.head?_append_of_ne_nil _ hne]
    exact head?_digitsOf_ne hpos
  · rw [List.append_nil, digitsValue_append, digitsValue_digitsOf, digitsValue_zeros,
      Binary64.ofDecimal_mul_pow]
    have hexponent : -((([] : List Char).length : Nat) : Int) +
        ((d.pointAt - (digitsOf d.digits).length).toNat : Int) = d.exponent := by
      rw [List.length_nil]
      omega
    rw [hexponent]
    rfl

theorem written_within (hlow : 0 < d.pointAt) (hhigh : d.pointAt < (digitsOf d.digits).length) :
    d.Written ((digitsOf d.digits).take d.pointAt.toNat)
      ((digitsOf d.digits).drop d.pointAt.toNat) := by
  have hpoint : d.pointAt = (digitsOf d.digits).length + d.exponent := rfl
  have hne : (digitsOf d.digits).take d.pointAt.toNat ≠ [] :=
    List.ne_nil_of_length_pos (by rw [List.length_take]; omega)
  have hmore : (digitsOf d.digits).drop d.pointAt.toNat ≠ [] :=
    List.ne_nil_of_length_pos (by rw [List.length_drop]; omega)
  refine ⟨?_, fun c hc => isDigit_of_mem_digitsOf (List.mem_of_mem_take hc),
    fun c hc => isDigit_of_mem_digitsOf (List.mem_of_mem_drop hc), hne, ?_, fun hpos => .inr ?_, ?_⟩
  · rw [positional, if_neg (by omega), if_neg (by omega), if_neg hmore]
  · rw [List.length_drop]
    omega
  · rw [List.head?_take, if_neg (by omega)]
    exact head?_digitsOf_ne hpos
  · rw [List.take_append_drop, digitsValue_digitsOf, List.length_drop]
    have hexponent : -((((digitsOf d.digits).length - d.pointAt.toNat : Nat)) : Int) =
        d.exponent := by omega
    rw [hexponent]
    rfl

theorem exists_written (d : Decimal) : ∃ whole fraction, d.Written whole fraction := by
  by_cases hbelow : d.pointAt ≤ 0
  · exact ⟨_, _, written_below hbelow⟩
  · by_cases habove : ((digitsOf d.digits).length : Int) ≤ d.pointAt
    · exact ⟨_, _, written_above habove⟩
    · exact ⟨_, _, written_within (by omega) (by omega)⟩

section Pointed

variable {whole fraction : List Char}

/-- The places where there has to be one. -/
def shownPlaces (fraction : List Char) : List Char := if fraction = [] then ['0'] else fraction

theorem Written.pointed (h : d.Written whole fraction) :
    (if d.positional.contains '.' then d.positional else d.positional ++ ['.', '0']) =
      whole ++ '.' :: shownPlaces fraction := by
  rw [h.text, shownPlaces]
  by_cases hnone : fraction = []
  · have hpoint : whole.contains '.' = false := by
      simp only [List.contains_eq_mem, decide_eq_false_iff_not]
      intro hmem
      cases h.digits _ hmem
    rw [if_pos hnone, if_pos hnone, hpoint, if_neg Bool.false_ne_true]
  · have hpoint : (whole ++ '.' :: fraction).contains '.' = true := by simp
    rw [if_neg hnone, if_neg hnone, hpoint, if_pos rfl]

theorem Written.isDigits_shown (h : d.Written whole fraction) :
    IsDigits (shownPlaces fraction) := by
  unfold shownPlaces
  split
  next => exact isDigits_zero
  next hsome => exact ⟨hsome, h.places⟩

theorem Written.value_shown (h : d.Written whole fraction) :
    Binary64.ofDecimal false (digitsValue 0 (whole ++ shownPlaces fraction))
      (-((shownPlaces fraction).length : Int)) = d.toBinary64 := by
  rw [← h.value, shownPlaces]
  split
  next hnone =>
    have hzero : digitsValue 0 (whole ++ ['0']) = digitsValue 0 whole * 10 ^ 1 := by
      rw [digitsValue_append]
      exact digitsValue_zeros _ 1
    rw [hnone, List.append_nil, hzero, Binary64.ofDecimal_mul_pow]
    rfl
  next => rfl

end Pointed

/-- A decimal without an exponent is a literal, and is read as the decimal. -/
theorem isLiteral_positional (d : Decimal) :
    IsLiteral d.positional ∧ literalValue d.positional = d.toBinary64 := by
  obtain ⟨whole, fraction, h⟩ := d.exists_written
  rw [h.text]
  split
  next hnone =>
    subst hnone
    obtain ⟨hliteral, hvalue⟩ := isLiteral_digits h.digits h.nonempty
    have hread := h.value
    rw [List.append_nil] at hread
    exact ⟨hliteral, hvalue.trans hread⟩
  next =>
    obtain ⟨hliteral, hvalue⟩ := isLiteral_point h.digits h.places h.nonempty
    exact ⟨hliteral, hvalue.trans h.value⟩

end Decimal

namespace Binary64

/-- A double is written as a literal, which is read as the double without its sign. -/
theorem plain_finite (s : Bool) {n : Nat} (hn : Representable n) :
    ∃ span, plain (finite s n hn) = signText s ++ String.ofList span ∧
      Lexeme.IsLiteral span ∧ Lexeme.literalValue span = finite false n hn := by
  by_cases hzero : n = 0
  · subst hzero
    refine ⟨['0'], by rw [plain, if_pos rfl], ?_⟩
    exact Lexeme.isLiteral_digits isDigits_zero.2 isDigits_zero.1
  · obtain ⟨hliteral, hvalue⟩ := (shortest .up n).isLiteral_positional
    refine ⟨_, by rw [plain, if_neg hzero], hliteral, hvalue.trans ?_⟩
    exact toBinary64_shortest .up hn (Nat.pos_of_ne_zero hzero)

end Binary64

end FinalGrades
