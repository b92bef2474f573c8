import FinalGrades.Proofs.Formula.Pieces
import FinalGrades.Proofs.Number.Notation
import FinalGrades.Proofs.Number.Overflow
import Mathlib

/-!
The lexemes of a text as parts of it: each stands where its position says and ends where it cannot
go on, together they are all that is not blank, and a number is the rounded value of its digits.
Two texts with a blank between them have the lexemes of each.
-/

namespace FinalGrades

/-- What digits behind a point add to a number. -/
def fractionOf (digits : List Char) : ℚ :=
  digits.foldr (fun c rest => (digitValue c + rest) / 10) 0

theorem digitsValue_eq_mul (high : Nat) (digits : List Char) :
    (digitsValue high digits : ℚ) = (high + fractionOf digits) * 10 ^ digits.length := by
  induction digits generalizing high with
  | nil => simp [digitsValue, fractionOf]
  | cons c rest ih =>
    have hnext : digitsValue high (c :: rest) = digitsValue (10 * high + digitValue c) rest := rfl
    have hfraction : fractionOf (c :: rest) = (digitValue c + fractionOf rest) / 10 := rfl
    rw [hnext, ih, hfraction, List.length_cons, pow_succ']
    push_cast
    ring

namespace Lexeme

variable {position : Nat} {text span after : List Char} {lexemes : List Lexeme} {lexeme : Lexeme}

/-- The number that a literal denotes, exactly. -/
def literalNumber (span : List Char) : ℚ :=
  digitsValue 0 (span.takeWhile isDigit) + fractionOf (span.dropWhile isDigit).tail

theorem isRounded_literalValue (h : IsLiteral span) :
    (literalValue span).IsRounded (literalNumber span) := by
  rcases digits_or_point h.chars with hdigits | ⟨whole, rest, rfl, hwhole⟩
  · obtain ⟨htake, hdrop⟩ := split_of_ends hdigits (ends_nil _)
    rw [List.append_nil] at htake hdrop
    have hrounded := Binary64.isRounded_ofDecimal (digitsValue 0 span) 0
    rw [literalValue, literalNumber, htake, hdrop, List.filter_eq_self.mpr hdigits]
    simpa [fractionOf] using hrounded
  · obtain ⟨htake, hdrop⟩ := split_of_ends hwhole (ends_cons (x := '.') rest rfl)
    have hrest : ∀ c ∈ rest, isDigit c = true := by
      intro c hc
      refine (isLiteralChar_iff.mp (h.chars c (by simp [hc]))).resolve_right ?_
      rintro rfl
      have hpoint := h.point
      rw [List.count_append, List.count_cons_self] at hpoint
      have hmore := List.count_pos_iff.mpr hc
      omega
    have hrounded := Binary64.isRounded_ofDecimal (digitsValue 0 (whole ++ rest)) (-rest.length)
    have hnumber : (digitsValue 0 (whole ++ rest) : ℚ) * 10 ^ (-(rest.length : Int)) =
        digitsValue 0 whole + fractionOf rest := by
      rw [digitsValue_append, digitsValue_eq_mul, zpow_neg, zpow_natCast,
        mul_inv_cancel_right₀ (pow_ne_zero _ (by norm_num))]
    rw [literalValue_point hwhole hrest, literalNumber, htake, hdrop, List.tail_cons, ← hnumber]
    exact hrounded

/-- What a lexeme is that other text follows. -/
inductive Reads (after : List Char) : Lexeme → Prop
  | symbol {place : Nat} {c : Char} {token : Token} : Token.symbol? c = some token →
      Reads after ⟨token, [c], place⟩
  | number {place : Nat} {digits : List Char} {value : Binary64} : IsLiteral digits →
      value.IsRounded (literalNumber digits) → Ends isLiteralChar after →
      Reads after ⟨.number value, digits, place⟩
  | name {place : Nat} {letters : List Char} : IsName letters → Ends isNameChar after →
      Reads after ⟨.name (Text.upper (String.ofList letters)), letters, place⟩

theorem IsLiteral.ne_nil (h : IsLiteral span) : span ≠ [] := by
  obtain ⟨c, hc, _⟩ := h.digit
  exact List.ne_nil_of_mem hc

theorem IsName.ne_nil (h : IsName span) : span ≠ [] := by
  obtain ⟨c, hc, _⟩ := h.start
  exact List.ne_nil_of_mem (List.mem_of_mem_head? hc)

theorem Reads.text_ne_nil (h : Reads after lexeme) : lexeme.text ≠ [] := by
  cases h with
  | symbol _ => exact List.cons_ne_nil _ _
  | number hspan _ _ => exact hspan.ne_nil
  | name hspan _ => exact hspan.ne_nil

/-- Where one lexeme ends, before another one begins. -/
def Precedes (first second : Lexeme) : Prop :=
  first.position < second.position ∧ first.position + first.text.length ≤ second.position

/-- The lexeme covers the place. -/
def Covers (lexeme : Lexeme) (place : Nat) : Prop :=
  lexeme.position ≤ place ∧ place < lexeme.position + lexeme.text.length

/-- The lexemes are the parts of the text between its blanks. -/
structure Cuts (text : List Char) (lexemes : List Lexeme) : Prop where
  spans : ∀ lexeme ∈ lexemes, lexeme.text ≠ [] ∧ ∃ before after,
    text = before ++ (lexeme.text ++ after) ∧ lexeme.position = before.length ∧ Reads after lexeme
  ordered : lexemes.Pairwise Precedes
  covered : ∀ place c, text[place]? = some c →
    (Text.isBlank c = false ↔ ∃ lexeme ∈ lexemes, lexeme.Covers place)

/-- Where a lexeme stands, and what follows it there. -/
theorem Lexed.exists_reads (h : Lexed position text lexemes) (hmem : lexeme ∈ lexemes) :
    ∃ before after, text = before ++ (lexeme.text ++ after) ∧
      lexeme.position = position + before.length ∧ Reads after lexeme := by
  induction h with
  | done => cases hmem
  | @blank position c rest lexemes hblank _ ih =>
    obtain ⟨before, after, rfl, hposition, hreads⟩ := ih hmem
    exact ⟨c :: before, after, rfl, by simp [hposition]; omega, hreads⟩
  | @symbol position c token rest lexemes hsymbol _ ih =>
    rcases List.mem_cons.mp hmem with rfl | hmem
    · exact ⟨[], rest, rfl, rfl, .symbol hsymbol⟩
    · obtain ⟨before, after, rfl, hposition, hreads⟩ := ih hmem
      exact ⟨c :: before, after, rfl, by simp [hposition]; omega, hreads⟩
  | @number position span rest lexemes hspan ends _ ih =>
    rcases List.mem_cons.mp hmem with rfl | hmem
    · exact ⟨[], rest, rfl, rfl, .number hspan (isRounded_literalValue hspan) ends⟩
    · obtain ⟨before, after, rfl, hposition, hreads⟩ := ih hmem
      exact ⟨span ++ before, after, (List.append_assoc _ _ _).symm, by simp [hposition]; omega,
        hreads⟩
  | @name position span rest lexemes hspan ends _ ih =>
    rcases List.mem_cons.mp hmem with rfl | hmem
    · rw [← upper_of_isNameChar hspan.chars]
      exact ⟨[], rest, rfl, rfl, .name hspan ends⟩
    · obtain ⟨before, after, rfl, hposition, hreads⟩ := ih hmem
      exact ⟨span ++ before, after, (List.append_assoc _ _ _).symm, by simp [hposition]; omega,
        hreads⟩

theorem Lexed.le_position (h : Lexed position text lexemes) (hmem : lexeme ∈ lexemes) :
    position ≤ lexeme.position := by
  obtain ⟨before, after, _, hposition, _⟩ := h.exists_reads hmem
  omega

theorem Lexed.pairwise_precedes (h : Lexed position text lexemes) :
    lexemes.Pairwise Precedes := by
  induction h with
  | done => exact .nil
  | blank _ _ ih => exact ih
  | symbol _ hrest ih =>
    refine .cons (fun other hmem => ?_) ih
    have hplace := hrest.le_position hmem
    exact ⟨hplace, hplace⟩
  | @number position span _ _ hspan _ hrest ih =>
    refine .cons (fun other hmem => ?_) ih
    have hplace := hrest.le_position hmem
    have hlength := List.length_pos_iff.mpr hspan.ne_nil
    exact ⟨by simp only; omega, hplace⟩
  | @name position span _ _ hspan _ hrest ih =>
    refine .cons (fun other hmem => ?_) ih
    have hplace := hrest.le_position hmem
    have hlength := List.length_pos_iff.mpr hspan.ne_nil
    exact ⟨by simp only; omega, hplace⟩

/-- A place in the text is covered by the first lexeme, or lies behind it. -/
theorem exists_covers_cons {rest : List Char} {place : Nat} {c : Char} (token : Token)
    (hc : (span ++ rest)[place]? = some c)
    (hrest : ∀ next, rest[next]? = some c →
      ∃ lexeme ∈ lexemes, lexeme.Covers (position + span.length + next)) :
    ∃ lexeme ∈ ⟨token, span, position⟩ :: lexemes, lexeme.Covers (position + place) := by
  by_cases hinside : place < span.length
  · exact ⟨_, List.mem_cons_self, Nat.le_add_right _ _, Nat.add_lt_add_left hinside _⟩
  · have hle := Nat.not_lt.mp hinside
    rw [List.getElem?_append_right hle] at hc
    obtain ⟨lexeme, hmem, hcovers⟩ := hrest _ hc
    rw [Nat.add_assoc, Nat.add_sub_cancel' hle] at hcovers
    exact ⟨lexeme, List.mem_cons_of_mem _ hmem, hcovers⟩

/-- A character that is no blank belongs to a lexeme. -/
theorem Lexed.exists_covers (h : Lexed position text lexemes) {place : Nat} {c : Char}
    (hc : text[place]? = some c) (hblank : Text.isBlank c = false) :
    ∃ lexeme ∈ lexemes, lexeme.Covers (position + place) := by
  induction h generalizing place with
  | done => cases hc
  | @blank position d rest lexemes hd _ ih =>
    cases place with
    | zero =>
      cases hc
      rw [hd] at hblank
      cases hblank
    | succ place =>
      obtain ⟨lexeme, hmem, hcovers⟩ := ih hc
      exact ⟨lexeme, hmem, by rwa [Nat.add_succ, ← Nat.succ_add]⟩
  | @symbol position d token rest lexemes _ _ ih =>
    have hplace : ([d] ++ rest)[place]? = some c := hc
    exact exists_covers_cons token hplace fun next hnext => ih hnext
  | number _ _ _ ih => exact exists_covers_cons _ hc fun next hnext => ih hnext
  | name _ _ _ ih => exact exists_covers_cons _ hc fun next hnext => ih hnext

theorem Lexed.cuts (h : Lexed 0 text lexemes) : Cuts text lexemes where
  spans lexeme hmem := by
    obtain ⟨before, after, htext, hposition, hreads⟩ := h.exists_reads hmem
    rw [Nat.zero_add] at hposition
    exact ⟨hreads.text_ne_nil, before, after, htext, hposition, hreads⟩
  ordered := h.pairwise_precedes
  covered place c hc := by
    constructor
    · intro hblank
      have hcovers := h.exists_covers hc hblank
      rwa [Nat.zero_add] at hcovers
    · rintro ⟨lexeme, hmem, hle, hlt⟩
      obtain ⟨before, after, rfl, hposition, _⟩ := h.exists_reads hmem
      rw [List.getElem?_append_right (by omega), List.getElem?_append_left (by omega)] at hc
      exact h.not_blank hmem c (List.mem_of_getElem? hc)

/-- The lexeme in a text with more characters before it. -/
def shift (distance : Nat) (lexeme : Lexeme) : Lexeme :=
  { lexeme with position := lexeme.position + distance }

theorem Lexed.shift (h : Lexed position text lexemes) (distance : Nat) :
    Lexed (position + distance) text (lexemes.map (Lexeme.shift distance)) := by
  induction h with
  | done => exact .done
  | blank hblank _ ih =>
    rw [Nat.add_right_comm] at ih
    exact .blank hblank ih
  | symbol hsymbol _ ih =>
    rw [Nat.add_right_comm] at ih
    exact .symbol hsymbol ih
  | number hspan ends _ ih =>
    rw [Nat.add_right_comm] at ih
    exact .number hspan ends ih
  | name hspan ends _ ih =>
    rw [Nat.add_right_comm] at ih
    exact .name hspan ends ih

/--
The lexemes that a text is scanned into are exactly its parts between the blanks, each as long as it
can be. Behind a blank, the lexemes of another text follow at their places there.
-/
theorem scan_cuts (h : scan 0 text = .ok lexemes) : Cuts text lexemes ∧
    ∀ blank more others, Text.isBlank blank = true → scan 0 more = .ok others →
      scan 0 (text ++ blank :: more) =
        .ok (lexemes ++ others.map (shift (text.length + 1))) := by
  have hlexed := lexed_of_scan h
  refine ⟨hlexed.cuts, fun blank more others hblank hmore => scan_of_lexed ?_⟩
  have hshifted := (lexed_of_scan hmore).shift (text.length + 1)
  rw [← Nat.add_assoc] at hshifted
  exact hlexed.append (.blank hblank hshifted) (ends_cons _ (isLiteralChar_of_isBlank hblank))
    (ends_cons _ (isNameChar_of_isBlank hblank))

theorem scan_cuts_half : ∃ lexemes others, scan 0 "p1*.5".toList = .ok lexemes ∧
    scan 0 "2)".toList = .ok others ∧ Cuts "p1*.5".toList lexemes ∧
    scan 0 ("p1*.5".toList ++ ' ' :: "2)".toList) =
      .ok (lexemes ++ others.map (shift ("p1*.5".toList.length + 1))) := by
  have hscan : (scan 0 "p1*.5".toList).toOption =
      some [⟨.name "P1", ['p', '1'], 0⟩, ⟨.times, ['*'], 2⟩,
        ⟨.number (literalValue ['.', '5']), ['.', '5'], 3⟩] := by
    decide +kernel
  have hmore : (scan 0 "2)".toList).toOption =
      some [⟨.number 2, ['2'], 0⟩, ⟨.closeParen, [')'], 1⟩] := by
    decide +kernel
  have h := Attempt.eq_ok_of_toOption hscan
  have hothers := Attempt.eq_ok_of_toOption hmore
  obtain ⟨hcuts, happend⟩ := scan_cuts h
  exact ⟨_, _, h, hothers, hcuts, happend ' ' _ _ (by decide) hothers⟩

end Lexeme

end FinalGrades
