import FinalGrades.Formula.Token
import FinalGrades.Sigla
import Mathlib.Data.List.Basic

/-!
The classes of characters a formula is made of: they lie in ASCII, blanks apart, no character is
in two of them, and only letters change when a text is put in upper case.
-/

namespace FinalGrades

theorem ascii_cases {p : Char → Prop} (h : ∀ n < 128, p (Char.ofNat n)) {c : Char}
    (hc : c.toNat < 128) : p c := by
  have := h c.toNat hc
  rwa [Char.ofNat_toNat] at this

theorem toNat_lt_of_isNameChar {c : Char} (h : isNameChar c = true) : c.toNat < 128 := by
  have below : ∀ d : Char, d.toNat < 128 → c.val ≤ d.val → c.toNat < 128 := fun d hd hcd =>
    Nat.lt_of_le_of_lt (UInt32.le_iff_toNat_le.mp hcd) hd
  rcases Bool.or_eq_true_iff.mp h with halphanum | hline
  · rcases Bool.or_eq_true_iff.mp halphanum with halpha | hdigit
    · rcases Bool.or_eq_true_iff.mp halpha with hupper | hlower
      · exact below 'Z' (by decide) (of_decide_eq_true hupper).2
      · exact below 'z' (by decide) (of_decide_eq_true (Bool.and_eq_true_iff.mp hlower).2)
    · exact below '9' (by decide) (of_decide_eq_true (Bool.and_eq_true_iff.mp hdigit).2)
  · exact of_decide_eq_true hline ▸ (by decide)

theorem isNameChar_of_isDigit {c : Char} (h : isDigit c = true) : isNameChar c = true := by
  have hd : c.isDigit = true := h
  simp [isNameChar, Char.isAlphanum, hd]

theorem isNameChar_of_isNameStart {c : Char} (h : isNameStart c = true) : isNameChar c = true := by
  rcases Bool.or_eq_true_iff.mp h with h | h
  · simp [isNameChar, Char.isAlphanum, h]
  · simp [isNameChar, h]

theorem isLiteralChar_iff {c : Char} : isLiteralChar c = true ↔ isDigit c = true ∨ c = '.' := by
  simp [isLiteralChar]

theorem toNat_lt_of_isLiteralChar {c : Char} (h : isLiteralChar c = true) : c.toNat < 128 := by
  rcases isLiteralChar_iff.mp h with h | rfl
  · exact toNat_lt_of_isNameChar (isNameChar_of_isDigit h)
  · decide

/-- A character that begins a number is no blank and no symbol. -/
theorem isLiteralChar_alone {c : Char} (h : isLiteralChar c = true) :
    Text.isBlank c = false ∧ Token.symbol? c = none := by
  have hc := toNat_lt_of_isLiteralChar h
  revert h
  exact ascii_cases (p := fun c => isLiteralChar c = true →
    Text.isBlank c = false ∧ Token.symbol? c = none) (by decide +kernel) hc

/-- A character that begins a name is no blank, no symbol and in no number. -/
theorem isNameStart_alone {c : Char} (h : isNameStart c = true) :
    Text.isBlank c = false ∧ Token.symbol? c = none ∧ isLiteralChar c = false := by
  have hc := toNat_lt_of_isNameChar (isNameChar_of_isNameStart h)
  revert h
  exact ascii_cases (p := fun c => isNameStart c = true → Text.isBlank c = false ∧
    Token.symbol? c = none ∧ isLiteralChar c = false) (by decide +kernel) hc

/-- A symbol is no blank, in no sigla, and stands for itself in upper case. -/
theorem symbol?_alone {c : Char} {token : Token} (h : Token.symbol? c = some token) :
    Text.isBlank c = false ∧ isSiglaChar c = false ∧ Text.upperChar c = [c] := by
  unfold Token.symbol? at h
  split at h
  all_goals first | exact ⟨rfl, rfl, rfl⟩ | cases h

/-- Of the characters of a literal the digits can stand in siglas. -/
theorem isSiglaChar_of_isLiteralChar {c : Char} (h : isLiteralChar c = true) :
    isSiglaChar c = isDigit c := by
  rcases isLiteralChar_iff.mp h with hdigit | rfl
  · rw [hdigit]
    exact isNameChar_of_isDigit hdigit
  · rfl

theorem isNameChar_of_isLower {c : Char} (h : c.isLower = true) : isNameChar c = true := by
  have halpha : c.isAlpha = true := Bool.or_eq_true_iff.mpr (.inr h)
  exact isNameChar_of_isNameStart (Bool.or_eq_true_iff.mpr (.inl halpha))

/-- Only lower case letters change in upper case. -/
theorem toUpper_of_not_isLower {c : Char} (h : c.isLower = false) : c.toUpper = c := by
  have hlower : ¬(c.val ≥ 'a'.val ∧ c.val ≤ 'z'.val) := fun hc => by
    have htrue : c.isLower = true :=
      Bool.and_eq_true_iff.mpr ⟨decide_eq_true hc.1, decide_eq_true hc.2⟩
    rw [h] at htrue
    cases htrue
  exact dif_neg hlower

theorem toUpper_of_not_isNameStart {c : Char} (h : isNameStart c = false) : c.toUpper = c := by
  apply toUpper_of_not_isLower
  have halpha : c.isAlpha = false := (Bool.or_eq_false_iff.mp h).1
  exact (Bool.or_eq_false_iff.mp halpha).2

theorem toUpper_of_isLiteralChar {c : Char} (h : isLiteralChar c = true) : c.toUpper = c := by
  apply toUpper_of_not_isNameStart
  by_contra hstart
  rw [(isNameStart_alone (by simpa using hstart)).2.2] at h
  cases h

theorem map_toUpper_of_isLiteralChar {span : List Char} (h : ∀ c ∈ span, isLiteralChar c = true) :
    span.map Char.toUpper = span :=
  (List.map_congr_left fun c hc => toUpper_of_isLiteralChar (h c hc)).trans (List.map_id _)

/-- What is the same for the letters of ASCII in either case is the same for every character. -/
theorem apply_toUpper {α : Type} {f : Char → α}
    (h : ∀ n < 128, f (Char.ofNat n).toUpper = f (Char.ofNat n)) (c : Char) :
    f c.toUpper = f c := by
  cases hlower : c.isLower with
  | false => rw [toUpper_of_not_isLower hlower]
  | true =>
    have hc := toNat_lt_of_isNameChar (isNameChar_of_isLower hlower)
    exact ascii_cases (p := fun c => f c.toUpper = f c) h hc

/-- Characters with the same upper case have the same lower case. -/
theorem toLower_toUpper : ∀ c : Char, c.toUpper.toLower = c.toLower :=
  apply_toUpper (by decide +kernel)

theorem isLower_toUpper (c : Char) : c.toUpper.isLower = false := by
  cases hlower : c.isLower with
  | false => rw [toUpper_of_not_isLower hlower, hlower]
  | true =>
    have hc := toNat_lt_of_isNameChar (isNameChar_of_isLower hlower)
    exact ascii_cases (p := fun c => c.toUpper.isLower = false) (by decide +kernel) hc

theorem toUpper_toUpper (c : Char) : c.toUpper.toUpper = c.toUpper :=
  toUpper_of_not_isLower (isLower_toUpper c)

section Classes

/-- All that the scanner asks about a character. -/
def charClasses (c : Char) : Bool × Option Token × Bool × Bool × Bool :=
  (Text.isBlank c, Token.symbol? c, isLiteralChar c, isNameStart c, isNameChar c)

/-- The scanner does not tell the cases of a letter apart. -/
theorem charClasses_toUpper : ∀ c : Char, charClasses c.toUpper = charClasses c :=
  apply_toUpper (by decide +kernel)

variable (c : Char)

theorem isBlank_toUpper : Text.isBlank c.toUpper = Text.isBlank c :=
  congrArg (·.1) (charClasses_toUpper c)

theorem symbol?_toUpper : Token.symbol? c.toUpper = Token.symbol? c :=
  congrArg (·.2.1) (charClasses_toUpper c)

theorem isLiteralChar_toUpper : isLiteralChar c.toUpper = isLiteralChar c :=
  congrArg (·.2.2.1) (charClasses_toUpper c)

theorem isNameStart_toUpper : isNameStart c.toUpper = isNameStart c :=
  congrArg (·.2.2.2.1) (charClasses_toUpper c)

theorem isNameChar_toUpper : isNameChar c.toUpper = isNameChar c :=
  congrArg (·.2.2.2.2) (charClasses_toUpper c)

end Classes

theorem isSiglaChar_toUpper {c : Char} (h : isNameChar c = true) :
    isSiglaChar c.toUpper = true :=
  (isNameChar_toUpper c).trans h

theorem isDigit_toUpper {c : Char} (h : isNameStart c = true) : isDigit c.toUpper = false := by
  have hliteral := (isNameStart_alone h).2.2
  rw [← isLiteralChar_toUpper] at hliteral
  exact (Bool.or_eq_false_iff.mp hliteral).1

/-- In upper case a character of a name is an upper case letter, a digit or the underscore. -/
theorem isUpper_toUpper {c : Char} (h : isNameChar c = true) :
    (c.toUpper.isUpper || isDigit c.toUpper || c.toUpper = '_') = true := by
  have hupper : (((c.toUpper.isUpper || c.toUpper.isLower) || isDigit c.toUpper) ||
      c.toUpper = '_') = true := (isNameChar_toUpper c).trans h
  rwa [isLower_toUpper, Bool.or_false] at hupper

theorem isNameStart_of_isUpper {c : Char} (h : (c.isUpper || c = '_') = true) :
    isNameStart c = true := by
  rcases Bool.or_eq_true_iff.mp h with h | h
  · have halpha : c.isAlpha = true := Bool.or_eq_true_iff.mpr (.inl h)
    exact Bool.or_eq_true_iff.mpr (.inl halpha)
  · exact Bool.or_eq_true_iff.mpr (.inr h)

/-- Upper case letters, digits and the underscore are characters of names in upper case. -/
theorem isNameChar_of_isUpper {c : Char} (h : (c.isUpper || isDigit c || c = '_') = true) :
    isNameChar c = true ∧ c.toUpper = c := by
  simp only [Bool.or_eq_true] at h
  rcases h with (h | h) | h
  · have hlower : c.isLower = false := by
      by_contra hlower
      have hle : c.val ≤ 'Z'.val := (of_decide_eq_true h).2
      have hge : 'a'.val ≤ c.val := of_decide_eq_true
        (Bool.and_eq_true_iff.mp ((Bool.not_eq_false _).mp hlower)).1
      exact absurd (UInt32.le_trans hge hle) (by decide)
    exact ⟨isNameChar_of_isNameStart (isNameStart_of_isUpper (by simp [h])),
      toUpper_of_not_isLower hlower⟩
  · exact ⟨isNameChar_of_isDigit h, toUpper_of_isLiteralChar (isLiteralChar_iff.mpr (.inl h))⟩
  · rw [of_decide_eq_true h]
    exact ⟨rfl, rfl⟩

namespace Text

theorem upperChar_of_ascii {c : Char} (h : c.toNat < 128) : upperChar c = [c.toUpper] := by
  rw [upperChar, if_pos h]

theorem upperChars_of_ascii {span : List Char} (h : ∀ c ∈ span, c.toNat < 128) :
    upperChars span = span.map Char.toUpper := by
  induction span with
  | nil => rfl
  | cons c span ih =>
    rw [upperChars, List.flatMap_cons, upperChar_of_ascii (h c List.mem_cons_self)]
    exact congrArg (c.toUpper :: ·) (ih fun d hd => h d (List.mem_cons_of_mem _ hd))

theorem toList_upper_of_ascii {text : String} (h : ∀ c ∈ text.toList, c.toNat < 128) :
    (upper text).toList = text.toList.map Char.toUpper := by
  rw [upper, String.toList_ofList, upperChars_of_ascii h]

theorem upperChars_append (front rest : List Char) :
    upperChars (front ++ rest) = upperChars front ++ upperChars rest := List.flatMap_append

theorem upperChars_cons (c : Char) (rest : List Char) :
    upperChars (c :: rest) = upperChar c ++ upperChars rest := List.flatMap_cons

theorem upperChar_toUpper : ∀ c : Char, upperChar c.toUpper = upperChar c :=
  apply_toUpper (by decide +kernel)

theorem upperChars_map_toUpper (text : List Char) :
    upperChars (text.map Char.toUpper) = upperChars text := by
  rw [upperChars, upperChars, List.flatMap_map]
  exact List.flatMap_congr fun c _ => upperChar_toUpper c

/-- Texts that differ only in the case of letters of ASCII are the same in upper case. -/
theorem upper_eq_of_toUpper {text other : String}
    (h : text.toList.map Char.toUpper = other.toList.map Char.toUpper) :
    upper text = upper other := by
  have hchars : upperChars text.toList = upperChars other.toList := by
    rw [← upperChars_map_toUpper, h, upperChars_map_toUpper]
  rw [upper, upper, hchars]

theorem upperChars_of_isLiteralChar {span : List Char}
    (h : ∀ c ∈ span, isLiteralChar c = true) : upperChars span = span := by
  rw [upperChars_of_ascii fun c hc => toNat_lt_of_isLiteralChar (h c hc),
    map_toUpper_of_isLiteralChar h]

theorem isBlank_cases {p : Char → Prop} (h : ∀ n ∈ [9, 10, 11, 12, 13, 0x20, 0x85, 0xA0, 0x1680,
    0x2000, 0x2001, 0x2002, 0x2003, 0x2004, 0x2005, 0x2006, 0x2007, 0x2008, 0x2009, 0x200A, 0x2028,
    0x2029, 0x202F, 0x205F, 0x3000], p (Char.ofNat n)) {c : Char} (hc : isBlank c = true) :
    p c := by
  have hmem := h c.toNat
  rw [Char.ofNat_toNat] at hmem
  apply hmem
  simp only [isBlank, Bool.or_eq_true, Bool.and_eq_true, decide_eq_true_eq] at hc
  simp only [List.mem_cons, List.not_mem_nil, or_false]
  rcases hc with (((((((((⟨_, _⟩ | hc) | hc) | hc) | hc) | ⟨_, _⟩) | hc) | hc) | hc) | hc) | hc
  all_goals omega

/-- Blanks stand for themselves in upper case, and in no sigla. -/
theorem upperChar_of_isBlank {c : Char} (h : isBlank c = true) :
    upperChar c = [c] ∧ isSiglaChar c = false :=
  isBlank_cases (p := fun c => upperChar c = [c] ∧ isSiglaChar c = false) (by decide +kernel) h

end Text

end FinalGrades
