import FinalGrades.Proofs.Formula.Writing

/-!
The lexemes of a text that is put together from pieces, and of the pieces that a text is taken
apart into: a place where no lexeme is cut, such as one at a blank, separates the lexemes before it
from those behind it, and blanks in between change nothing but positions.
-/

namespace FinalGrades

theorem isNameChar_of_isBlank {c : Char} (h : Text.isBlank c = true) : isNameChar c = false :=
  (Text.upperChar_of_isBlank h).2

theorem isLiteralChar_of_isBlank {c : Char} (h : Text.isBlank c = true) :
    isLiteralChar c = false := by
  by_contra hc
  rw [(isLiteralChar_alone (by simpa using hc)).1] at h
  cases h

namespace Lexeme

variable {position place : Nat} {text front back rest blanks : List Char}
  {lexemes used more : List Lexeme} {lexeme : Lexeme}

/-- A text can be cut in front of what continues neither a number nor a name. -/
theorem Lexed.append (h : Lexed position front lexemes)
    (hrest : Lexed (position + front.length) rest more) (literal : Ends isLiteralChar rest)
    (name : Ends isNameChar rest) : Lexed position (front ++ rest) (lexemes ++ more) := by
  induction h with
  | done => simpa using hrest
  | blank hblank _ ih =>
    rw [List.length_cons, ← Nat.add_assoc, Nat.add_right_comm] at hrest
    exact .blank hblank (ih hrest)
  | symbol hsymbol _ ih =>
    rw [List.length_cons, ← Nat.add_assoc, Nat.add_right_comm] at hrest
    exact .symbol hsymbol (ih hrest)
  | number hspan ends _ ih =>
    rw [List.append_assoc]
    refine .number hspan (ends_append.mpr ⟨ends, fun _ => literal⟩) (ih ?_)
    rwa [List.length_append, ← Nat.add_assoc] at hrest
  | name hspan ends _ ih =>
    rw [List.append_assoc]
    refine .name hspan (ends_append.mpr ⟨ends, fun _ => name⟩) (ih ?_)
    rwa [List.length_append, ← Nat.add_assoc] at hrest

/-- Each lexeme stands where its position says, and what precedes it is cut alike on its own. -/
theorem Lexed.split (h : Lexed position text (used ++ lexeme :: more)) :
    ∃ before after, text = before ++ (lexeme.text ++ after) ∧
      lexeme.position = position + before.length ∧ Lexed position before used := by
  generalize hall : used ++ lexeme :: more = all at h
  induction h generalizing used with
  | done => simp at hall
  | @blank position c rest lexemes hblank _ ih =>
    obtain ⟨before, after, rfl, hposition, hbefore⟩ := ih hall
    exact ⟨c :: before, after, rfl, by simp [hposition]; omega, .blank hblank hbefore⟩
  | @symbol position c token rest lexemes hsymbol _ ih =>
    cases used with
    | nil =>
      cases hall
      exact ⟨[], rest, rfl, rfl, .done⟩
    | cons first used =>
      cases hall
      obtain ⟨before, after, rfl, hposition, hbefore⟩ := ih rfl
      exact ⟨c :: before, after, rfl, by simp [hposition]; omega, .symbol hsymbol hbefore⟩
  | @number position span rest lexemes hspan ends _ ih =>
    cases used with
    | nil =>
      cases hall
      exact ⟨[], rest, rfl, rfl, .done⟩
    | cons first used =>
      cases hall
      obtain ⟨before, after, rfl, hposition, hbefore⟩ := ih rfl
      exact ⟨span ++ before, after, (List.append_assoc _ _ _).symm, by simp [hposition]; omega,
        .number hspan (ends_append.mp ends).1 hbefore⟩
  | @name position span rest lexemes hspan ends _ ih =>
    cases used with
    | nil =>
      cases hall
      exact ⟨[], rest, rfl, rfl, .done⟩
    | cons first used =>
      cases hall
      obtain ⟨before, after, rfl, hposition, hbefore⟩ := ih rfl
      exact ⟨span ++ before, after, (List.append_assoc _ _ _).symm, by simp [hposition]; omega,
        .name hspan (ends_append.mp ends).1 hbefore⟩

/-- No lexeme goes over the place. -/
def Uncut (place : Nat) (lexemes : List Lexeme) : Prop :=
  ∀ lexeme ∈ lexemes, place ≤ lexeme.position ∨ lexeme.position + lexeme.text.length ≤ place

instance (place : Nat) (lexemes : List Lexeme) : Decidable (Uncut place lexemes) :=
  inferInstanceAs (Decidable (∀ lexeme ∈ lexemes, _))

theorem Uncut.tail (uncut : Uncut place (lexeme :: lexemes)) : Uncut place lexemes :=
  fun other hmem => uncut other (List.mem_cons_of_mem _ hmem)

/-- A part of the text that is not empty goes at least to the end of the first lexeme. -/
theorem Uncut.exists_front {span : List Char} {token : Token}
    (uncut : Uncut (position + front.length) (⟨token, span, position⟩ :: lexemes))
    (hne : front ≠ []) (htext : front ++ back = span ++ rest) :
    ∃ after, front = span ++ after ∧ after ++ back = rest := by
  have hfront := List.length_pos_iff.mpr hne
  have hlength : span.length ≤ front.length := by
    rcases uncut _ List.mem_cons_self with hstart | hend <;> simp only at * <;> omega
  rcases List.append_eq_append_iff.mp htext with ⟨more, rfl, rfl⟩ | ⟨more, rfl, rfl⟩
  · rw [List.length_append] at hlength
    obtain rfl : more = [] := List.length_eq_zero_iff.mp (by omega)
    exact ⟨[], by simp, by simp⟩
  · exact ⟨more, rfl, rfl⟩

/-- Before and behind a place where no lexeme is cut, the text is cut on its own. -/
theorem Lexed.parts (h : Lexed position (front ++ back) lexemes)
    (uncut : Uncut (position + front.length) lexemes) :
    ∃ used more, lexemes = used ++ more ∧ Lexed position front used ∧
      Lexed (position + front.length) back more := by
  generalize htext : front ++ back = text at h
  induction h generalizing front with
  | done =>
    obtain ⟨rfl, rfl⟩ := List.append_eq_nil_iff.mp htext
    exact ⟨[], [], rfl, .done, .done⟩
  | @blank position c rest lexemes hblank hrest ih =>
    cases front with
    | nil =>
      obtain rfl : back = c :: rest := htext
      exact ⟨[], lexemes, rfl, .done, .blank hblank hrest⟩
    | cons d front =>
      cases htext
      rw [List.length_cons, Nat.add_comm front.length 1, ← Nat.add_assoc] at uncut ⊢
      obtain ⟨used, more, rfl, hused, hmore⟩ := ih uncut rfl
      exact ⟨used, more, rfl, .blank hblank hused, hmore⟩
  | @symbol position c token rest lexemes hsymbol hrest ih =>
    cases front with
    | nil =>
      obtain rfl : back = c :: rest := htext
      exact ⟨[], _, rfl, .done, .symbol hsymbol hrest⟩
    | cons d front =>
      cases htext
      rw [List.length_cons, Nat.add_comm front.length 1, ← Nat.add_assoc] at uncut ⊢
      obtain ⟨used, more, rfl, hused, hmore⟩ := ih uncut.tail rfl
      exact ⟨_ :: used, more, rfl, .symbol hsymbol hused, hmore⟩
  | @number position span rest lexemes hspan ends hrest ih =>
    by_cases hne : front = []
    · subst hne
      obtain rfl : back = span ++ rest := htext
      exact ⟨[], _, rfl, .done, .number hspan ends hrest⟩
    · obtain ⟨front, rfl, rfl⟩ := uncut.exists_front hne htext
      rw [List.length_append, ← Nat.add_assoc] at uncut ⊢
      obtain ⟨used, more, rfl, hused, hmore⟩ := ih uncut.tail rfl
      exact ⟨_ :: used, more, rfl, .number hspan (ends_append.mp ends).1 hused, hmore⟩
  | @name position span rest lexemes hspan ends hrest ih =>
    by_cases hne : front = []
    · subst hne
      obtain rfl : back = span ++ rest := htext
      exact ⟨[], _, rfl, .done, .name hspan ends hrest⟩
    · obtain ⟨front, rfl, rfl⟩ := uncut.exists_front hne htext
      rw [List.length_append, ← Nat.add_assoc] at uncut ⊢
      obtain ⟨used, more, rfl, hused, hmore⟩ := ih uncut.tail rfl
      exact ⟨_ :: used, more, rfl, .name hspan (ends_append.mp ends).1 hused, hmore⟩

theorem Lexed.not_blank (h : Lexed position text lexemes) (hmem : lexeme ∈ lexemes) :
    ∀ c ∈ lexeme.text, Text.isBlank c = false := by
  intro c hc
  rcases h.shape hmem with ⟨d, hsymbol, htext⟩ | ⟨hspan, _⟩ | ⟨hspan, _⟩
  · rw [htext, List.mem_singleton] at hc
    rw [hc]
    exact (symbol?_alone hsymbol).1
  · exact (isLiteralChar_alone (hspan.chars c hc)).1
  · by_contra hblank
    have hname := isNameChar_of_isBlank (by simpa using hblank)
    rw [hspan.chars c hc] at hname
    cases hname

/-- No lexeme goes over a blank. -/
theorem Lexed.uncut_of_blank {c : Char} (h : Lexed position (front ++ c :: back) lexemes)
    (hc : Text.isBlank c = true) : Uncut (position + front.length) lexemes := by
  intro lexeme hmem
  by_contra hcut
  obtain ⟨used, more, rfl⟩ := List.append_of_mem hmem
  obtain ⟨before, after, htext, hposition, _⟩ := h.split
  have hat : (front ++ c :: back)[front.length]? = some c := by simp
  rw [htext, List.getElem?_append_right (by omega), List.getElem?_append_left (by omega)] at hat
  rw [h.not_blank hmem c (List.mem_of_getElem? hat)] at hc
  cases hc

theorem Lexed.of_blanks (h : Lexed position (blanks ++ text) lexemes)
    (hblanks : ∀ c ∈ blanks, Text.isBlank c = true) :
    Lexed (position + blanks.length) text lexemes := by
  induction blanks generalizing position with
  | nil => exact h
  | cons c blanks ih =>
    obtain ⟨hc, hrest⟩ := List.forall_mem_cons.mp hblanks
    have hscan := scan_of_lexed h
    rw [List.cons_append, scan, if_pos hc] at hscan
    rw [List.length_cons, Nat.add_comm blanks.length 1, ← Nat.add_assoc]
    exact ih (lexed_of_scan hscan) hrest

section Spells

variable {tokens others : List Token}

/-- Wherever a text stands, it has the same tokens. -/
theorem Lexed.spells (h : Lexed position text lexemes) : Spells text (lexemes.map (·.token)) := by
  induction h with
  | done => exact spells_nil
  | blank hblank _ ih => exact ih.prepend_blanks (List.forall_mem_singleton.mpr hblank)
  | symbol hsymbol _ ih => exact ih.symbol hsymbol
  | number hspan ends _ ih => exact ih.number hspan ends
  | name hspan ends _ ih => exact ih.name hspan ends

theorem Spells.append (h : Spells front tokens) (hrest : Spells rest others)
    (literal : Ends isLiteralChar rest) (name : Ends isNameChar rest) :
    Spells (front ++ rest) (tokens ++ others) := by
  intro position
  obtain ⟨lexemes, hfront, rfl⟩ := h position
  obtain ⟨more, hmore, rfl⟩ := hrest (position + front.length)
  exact ⟨lexemes ++ more, hfront.append hmore literal name, List.map_append⟩

/-- Behind a text in parentheses anything can follow. -/
theorem Spells.enclosed (h : Spells front tokens) (hrest : Spells rest others) :
    Spells ('(' :: (front ++ ')' :: rest)) (.openParen :: (tokens ++ .closeParen :: others)) :=
  (h.append (hrest.symbol (c := ')') rfl) (ends_cons _ rfl) (ends_cons _ rfl)).symbol rfl

/-- Blanks between two texts keep their tokens apart. -/
theorem Spells.append_blanks (h : Spells front tokens) (hrest : Spells rest others)
    (hne : blanks ≠ []) (hblanks : ∀ c ∈ blanks, Text.isBlank c = true) :
    Spells (front ++ (blanks ++ rest)) (tokens ++ others) := by
  obtain ⟨c, tail, rfl⟩ := List.exists_cons_of_ne_nil hne
  have hc := hblanks c List.mem_cons_self
  exact h.append (hrest.prepend_blanks hblanks) (ends_cons _ (isLiteralChar_of_isBlank hc))
    (ends_cons _ (isNameChar_of_isBlank hc))

end Spells

end Lexeme

end FinalGrades
