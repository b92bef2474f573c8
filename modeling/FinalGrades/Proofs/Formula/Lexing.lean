import FinalGrades.Proofs.Attempt
import FinalGrades.Proofs.Text.Classes
import Mathlib.Data.List.TakeWhile

/-!
How a text is cut into lexemes, said without the scanner: each lexeme is a symbol, a decimal
literal or a name that cannot be extended, and blanks stand between them. The scanner succeeds
exactly on the texts that can be cut so, and the cut is unique.
-/

namespace FinalGrades

/-- No member of the class stands at the front. -/
def Ends {α : Type} (p : α → Bool) (rest : List α) : Prop := ∀ x ∈ rest.head?, p x = false

theorem ends_nil {α : Type} (p : α → Bool) : Ends p [] := by
  intro x hx
  cases hx

theorem ends_cons {α : Type} {p : α → Bool} {x : α} (rest : List α) (h : p x = false) :
    Ends p (x :: rest) := by
  intro y hy
  cases hy
  exact h

theorem ends_append {p : Char → Bool} {front rest : List Char} :
    Ends p (front ++ rest) ↔ Ends p front ∧ (front = [] → Ends p rest) := by
  cases front <;> simp [Ends]

theorem ends_dropWhile (p : Char → Bool) (text : List Char) : Ends p (text.dropWhile p) := by
  intro c hc
  have := List.head?_dropWhile_not p text
  rw [Option.mem_def.mp hc] at this
  simpa using this

/-- A run that cannot be extended is what is taken from the front. -/
theorem split_of_ends {p : Char → Bool} {span rest : List Char}
    (inside : ∀ c ∈ span, p c = true) (ends : Ends p rest) :
    (span ++ rest).takeWhile p = span ∧ (span ++ rest).dropWhile p = rest := by
  induction span with
  | nil =>
    cases rest with
    | nil => exact ⟨rfl, rfl⟩
    | cons c rest =>
      have hc := ends c rfl
      simp [hc]
  | cons c span ih =>
    have hc := inside c List.mem_cons_self
    simpa [hc] using ih fun d hd => inside d (List.mem_cons_of_mem _ hd)

theorem all_cons_takeWhile {p : Char → Bool} {c : Char} {rest : List Char} (hc : p c = true) :
    ∀ d ∈ c :: rest.takeWhile p, p d = true := by
  intro d hd
  rcases List.mem_cons.mp hd with rfl | hd
  · exact hc
  · exact List.mem_takeWhile_imp hd

namespace Lexeme

open Attempt

/-- Digits with at most one point before, among or after them. -/
structure IsLiteral (span : List Char) : Prop where
  chars : ∀ c ∈ span, isLiteralChar c = true
  digit : ∃ c ∈ span, isDigit c = true
  point : span.count '.' ≤ 1

/-- A letter or the underscore, then letters, digits and underscores. -/
structure IsName (span : List Char) : Prop where
  chars : ∀ c ∈ span, isNameChar c = true
  start : ∃ c ∈ span.head?, isNameStart c = true

/-- All digits make up the significand, and those after the point are decimal places. -/
def literalValue (span : List Char) : Binary64 :=
  .ofDecimal false (digitsValue 0 (span.filter isDigit))
    (-((span.dropWhile isDigit).tail.length : Int))

/-- Lexemes that a text is cut into, `position` counting the characters before it. -/
inductive Lexed : Nat → List Char → List Lexeme → Prop
  | done {position} : Lexed position [] []
  | blank {position c rest lexemes} : Text.isBlank c = true →
      Lexed (position + 1) rest lexemes → Lexed position (c :: rest) lexemes
  | symbol {position c token rest lexemes} : Token.symbol? c = some token →
      Lexed (position + 1) rest lexemes →
      Lexed position (c :: rest) (⟨token, [c], position⟩ :: lexemes)
  | number {position span rest lexemes} : IsLiteral span → Ends isLiteralChar rest →
      Lexed (position + span.length) rest lexemes →
      Lexed position (span ++ rest) (⟨.number (literalValue span), span, position⟩ :: lexemes)
  | name {position span rest lexemes} : IsName span → Ends isNameChar rest →
      Lexed (position + span.length) rest lexemes →
      Lexed position (span ++ rest)
        (⟨.name (String.ofList (span.map Char.toUpper)), span, position⟩ :: lexemes)

theorem upper_of_isNameChar {span : List Char} (h : ∀ c ∈ span, isNameChar c = true) :
    Text.upper (String.ofList span) = String.ofList (span.map Char.toUpper) := by
  rw [Text.upper, String.toList_ofList,
    Text.upperChars_of_ascii fun c hc => toNat_lt_of_isNameChar (h c hc)]

theorem count_point_of_digits {span : List Char} (h : ∀ c ∈ span, isDigit c = true) :
    span.count '.' = 0 :=
  List.count_eq_zero.mpr fun hmem => absurd (h '.' hmem) (by decide)

/-- Literal characters are all digits, or digits up to a first point. -/
theorem digits_or_point {span : List Char} (h : ∀ c ∈ span, isLiteralChar c = true) :
    (∀ c ∈ span, isDigit c = true) ∨ ∃ whole rest, span = whole ++ '.' :: rest ∧
      ∀ c ∈ whole, isDigit c = true := by
  cases hd : span.dropWhile isDigit with
  | nil => exact .inl (by simpa [List.dropWhile_eq_nil_iff] using hd)
  | cons c rest =>
    right
    have hspan : span = span.takeWhile isDigit ++ c :: rest := by
      rw [← hd, List.takeWhile_append_dropWhile]
    have hend : isDigit c = false := ends_dropWhile isDigit span c (by rw [hd]; rfl)
    have hc : isLiteralChar c = true := h c (by rw [hspan]; simp)
    have hpoint : c = '.' := (isLiteralChar_iff.mp hc).resolve_left (by simp [hend])
    subst hpoint
    exact ⟨_, rest, hspan, fun d hmem => List.mem_takeWhile_imp hmem⟩

theorem readUnsigned_digits {span : List Char} (h : ∀ c ∈ span, isDigit c = true)
    (hne : span ≠ []) : Binary64.readUnsigned false span = some (literalValue span) := by
  obtain ⟨htake, hdrop⟩ := split_of_ends h (ends_nil _)
  rw [List.append_nil] at htake hdrop
  have hfilter : span.filter isDigit = span := List.filter_eq_self.mpr h
  have hempty : span.isEmpty = false := by simpa using hne
  simp [Binary64.readUnsigned, literalValue, htake, hdrop, hfilter, hempty, digitsValue]

theorem readUnsigned_point (negative : Bool) {whole rest : List Char}
    (hw : ∀ c ∈ whole, isDigit c = true) (hr : ∀ c ∈ rest, isDigit c = true)
    (hne : whole ++ rest ≠ []) :
    Binary64.readUnsigned negative (whole ++ '.' :: rest) =
      some (.ofDecimal negative (digitsValue 0 (whole ++ rest)) (-(rest.length : Int))) := by
  obtain ⟨htake, hdrop⟩ := split_of_ends hw (ends_cons (x := '.') rest rfl)
  obtain ⟨hrtake, hrdrop⟩ := split_of_ends hr (ends_nil _)
  rw [List.append_nil] at hrtake hrdrop
  have hempty : (whole.isEmpty && rest.isEmpty) = false := by
    simpa [List.isEmpty_iff] using hne
  simp [Binary64.readUnsigned, htake, hdrop, hrtake, hrdrop, hempty, digitsValue]

theorem literalValue_point {whole rest : List Char} (hw : ∀ c ∈ whole, isDigit c = true)
    (hr : ∀ c ∈ rest, isDigit c = true) : literalValue (whole ++ '.' :: rest) =
      .ofDecimal false (digitsValue 0 (whole ++ rest)) (-(rest.length : Int)) := by
  obtain ⟨_, hdrop⟩ := split_of_ends hw (ends_cons (x := '.') rest rfl)
  have hfilter : (whole ++ '.' :: rest).filter isDigit = whole ++ rest := by
    rw [List.filter_append, List.filter_eq_self.mpr hw, List.filter_cons_of_neg (by decide),
      List.filter_eq_self.mpr hr]
  rw [literalValue, hfilter, hdrop, List.tail_cons]

theorem readUnsigned_two_points {whole rest : List Char} (hw : ∀ c ∈ whole, isDigit c = true)
    (h : ∀ c ∈ rest, isLiteralChar c = true) (hr : ¬∀ c ∈ rest, isDigit c = true) :
    Binary64.readUnsigned false (whole ++ '.' :: rest) = none := by
  obtain ⟨htake, hdrop⟩ := split_of_ends hw (ends_cons (x := '.') rest rfl)
  obtain ⟨fraction, more, rfl, hf⟩ := (digits_or_point h).resolve_left hr
  obtain ⟨hrtake, hrdrop⟩ := split_of_ends hf (ends_cons (x := '.') more rfl)
  simp [Binary64.readUnsigned, htake, hdrop, hrtake, hrdrop]

/-- A run of digits and points is read exactly if it is a literal, and then to its value. -/
theorem readUnsigned_eq_some_iff {span : List Char} {value : Binary64}
    (h : ∀ c ∈ span, isLiteralChar c = true) :
    Binary64.readUnsigned false span = some value ↔
      IsLiteral span ∧ literalValue span = value := by
  rcases digits_or_point h with hdigits | ⟨whole, rest, rfl, hw⟩
  · by_cases hne : span = []
    · subst hne
      have hnot : ¬IsLiteral [] := fun hl => by simpa using hl.digit
      simp [hnot, Binary64.readUnsigned]
    · obtain ⟨c, hc⟩ := List.exists_mem_of_ne_nil span hne
      have hl : IsLiteral span :=
        ⟨h, ⟨c, hc, hdigits c hc⟩, by rw [count_point_of_digits hdigits]; omega⟩
      simp [readUnsigned_digits hdigits hne, hl]
  · have hrest : ∀ c ∈ rest, isLiteralChar c = true := fun c hc => h c (by simp [hc])
    have hcount : (whole ++ '.' :: rest).count '.' = 1 + rest.count '.' := by
      rw [List.count_append, count_point_of_digits hw, List.count_cons_self]
      omega
    by_cases hr : ∀ c ∈ rest, isDigit c = true
    · by_cases hne : whole ++ rest = []
      · obtain ⟨rfl, rfl⟩ := List.append_eq_nil_iff.mp hne
        have hnot : ¬IsLiteral ['.'] := fun hl => by
          obtain ⟨c, hc, hd⟩ := hl.digit
          rw [List.mem_singleton.mp hc] at hd
          exact absurd hd (by decide)
        simp [hnot, Binary64.readUnsigned, isDigit]
      · obtain ⟨c, hc⟩ := List.exists_mem_of_ne_nil _ hne
        have hd : isDigit c = true := (List.mem_append.mp hc).elim (hw c) (hr c)
        have hl : IsLiteral (whole ++ '.' :: rest) :=
          ⟨h, ⟨c, by rcases List.mem_append.mp hc with hc | hc <;> simp [hc], hd⟩, by
            rw [hcount, count_point_of_digits hr]⟩
        simp [readUnsigned_point false hw hr hne, literalValue_point hw hr, hl]
    · obtain ⟨fraction, more, hsplit, _⟩ := (digits_or_point hrest).resolve_left hr
      have hnot : ¬IsLiteral (whole ++ '.' :: rest) := fun hl => by
        have hpoint := hl.point
        rw [hcount, hsplit, List.count_append, List.count_cons_self] at hpoint
        omega
      simp [readUnsigned_two_points hw hrest hr, hnot]

theorem lexed_of_scan {position : Nat} {text : List Char} {lexemes : List Lexeme}
    (h : scan position text = .ok lexemes) : Lexed position text lexemes := by
  fun_induction scan position text generalizing lexemes with
  | case1 position => cases h; exact .done
  | case2 position c rest hblank ih => exact .blank hblank (ih h)
  | case3 position c rest hblank symbol hsymbol ih =>
    obtain ⟨more, hmore, h⟩ := bind_eq_ok_iff.mp h
    cases h
    exact .symbol hsymbol (ih hmore)
  | case4 => cases h
  | case5 position c rest hblank hc literal value hvalue _ =>
    rename_i ih
    obtain ⟨more, hmore, h⟩ := bind_eq_ok_iff.mp h
    cases h
    obtain ⟨hliteral, rfl⟩ := (readUnsigned_eq_some_iff (all_cons_takeWhile hc)).mp hvalue
    have hlexed := Lexed.number hliteral (ends_dropWhile _ rest) (ih hmore)
    rwa [List.cons_append, List.takeWhile_append_dropWhile] at hlexed
  | case6 position c rest hblank hliteral hc name _ =>
    rename_i ih
    obtain ⟨more, hmore, h⟩ := bind_eq_ok_iff.mp h
    cases h
    have hname : IsName name :=
      ⟨all_cons_takeWhile (isNameChar_of_isNameStart hc), c, rfl, hc⟩
    have hlexed := Lexed.name hname (ends_dropWhile _ rest) (ih hmore)
    rwa [List.cons_append, List.takeWhile_append_dropWhile, ← upper_of_isNameChar hname.chars]
      at hlexed
  | case7 => cases h

theorem scan_of_lexed {position : Nat} {text : List Char} {lexemes : List Lexeme}
    (h : Lexed position text lexemes) : scan position text = .ok lexemes := by
  induction h with
  | done => simp [scan]
  | blank hblank _ ih => rw [scan, if_pos hblank, ih]
  | symbol hsymbol _ ih =>
    have hblank := (symbol?_alone hsymbol).1
    rw [scan]
    simp [hblank, hsymbol, ih]
  | @number position span rest lexemes hspan ends _ ih =>
    cases span with
    | nil => simpa using hspan.digit
    | cons c span =>
      have hc := hspan.chars c List.mem_cons_self
      obtain ⟨hblank, hsymbol⟩ := isLiteralChar_alone hc
      obtain ⟨htake, hdrop⟩ :=
        split_of_ends (fun d hd => hspan.chars d (List.mem_cons_of_mem _ hd)) ends
      have hread := (readUnsigned_eq_some_iff hspan.chars).mpr ⟨hspan, rfl⟩
      rw [List.cons_append, scan]
      simp only [hblank, hsymbol, hc, htake, hdrop, hread, ih, Bool.false_eq_true, ↓reduceIte,
        ok_bind, pure_eq_ok]
  | @name position span rest lexemes hspan ends _ ih =>
    obtain ⟨c, hhead, hstart⟩ := hspan.start
    cases span with
    | nil => cases hhead
    | cons d span =>
      cases hhead
      obtain ⟨hblank, hsymbol, hliteral⟩ := isNameStart_alone hstart
      obtain ⟨htake, hdrop⟩ :=
        split_of_ends (fun d hd => hspan.chars d (List.mem_cons_of_mem _ hd)) ends
      have hupper := upper_of_isNameChar hspan.chars
      rw [List.cons_append, scan]
      simp only [hblank, hsymbol, hliteral, hstart, htake, hdrop, hupper, ih, Bool.false_eq_true,
        ↓reduceIte, ok_bind, pure_eq_ok]

/-- Every lexeme is a symbol, a literal or a name, and its token is that of its characters. -/
theorem Lexed.shape {position : Nat} {text : List Char} {lexemes : List Lexeme}
    (h : Lexed position text lexemes) {lexeme : Lexeme} (hmem : lexeme ∈ lexemes) :
    (∃ c, Token.symbol? c = some lexeme.token ∧ lexeme.text = [c]) ∨
      (IsLiteral lexeme.text ∧ lexeme.token = .number (literalValue lexeme.text)) ∨
      (IsName lexeme.text ∧
        lexeme.token = .name (String.ofList (lexeme.text.map Char.toUpper))) := by
  induction h with
  | done => cases hmem
  | blank _ _ ih => exact ih hmem
  | symbol hsymbol _ ih =>
    rcases List.mem_cons.mp hmem with rfl | hmem
    · exact .inl ⟨_, hsymbol, rfl⟩
    · exact ih hmem
  | number hspan _ _ ih =>
    rcases List.mem_cons.mp hmem with rfl | hmem
    · exact .inr (.inl ⟨hspan, rfl⟩)
    · exact ih hmem
  | name hspan _ _ ih =>
    rcases List.mem_cons.mp hmem with rfl | hmem
    · exact .inr (.inr ⟨hspan, rfl⟩)
    · exact ih hmem

theorem Lexed.unique {position : Nat} {text : List Char} {lexemes others : List Lexeme}
    (h : Lexed position text lexemes) (h' : Lexed position text others) : lexemes = others :=
  Except.ok.inj ((scan_of_lexed h).symm.trans (scan_of_lexed h'))

end Lexeme

end FinalGrades
