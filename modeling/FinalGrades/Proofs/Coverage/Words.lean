import FinalGrades.Coverage
import FinalGrades.Proofs.Formula.Lexing

/-!
The words of a text are its longest runs of sigla characters. In upper case, a name is one word, and
the words of a number are made of digits.
-/

namespace FinalGrades

/-- A text goes on with a character outside of the class, or with a longest run inside of it. -/
theorem runs_induct {p : Char → Bool} {motive : List Char → Prop} (nil : motive [])
    (cons : ∀ c rest, p c = false → motive rest → motive (c :: rest))
    (run : ∀ span rest, span ≠ [] → (∀ d ∈ span, p d = true) → Ends p rest → motive rest →
      motive (span ++ rest)) (text : List Char) : motive text := by
  induction hlength : text.length using Nat.strong_induction_on generalizing text with
  | _ length ih =>
    subst hlength
    cases text with
    | nil => exact nil
    | cons c rest =>
      cases hc : p c with
      | false => exact cons c rest hc (ih rest.length (Nat.lt_succ_self _) rest rfl)
      | true =>
        have hrest := ih _ (Lexeme.length_dropWhile_lt p c rest) (rest.dropWhile p) rfl
        have hrun := run (c :: rest.takeWhile p) _ (List.cons_ne_nil _ _) (all_cons_takeWhile hc)
          (ends_dropWhile p rest) hrest
        rwa [List.cons_append, List.takeWhile_append_dropWhile] at hrun

/-- A part of the text made of characters of the class, with none of them on either side. -/
def IsRun (p : Char → Bool) (run text : List Char) : Prop :=
  run ≠ [] ∧ (∀ c ∈ run, p c = true) ∧
    ∃ before after, text = before ++ (run ++ after) ∧ Ends p before.reverse ∧ Ends p after

namespace IsRun

variable {p q : Char → Bool} {c : Char} {run span text rest : List Char}

theorem not_nil : ¬IsRun p run [] := by
  rintro ⟨hne, _, before, after, heq, _⟩
  simp only [List.nil_eq, List.append_eq_nil_iff] at heq
  exact hne heq.2.1

/-- A run cannot begin inside of another one, as this would extend it. -/
theorem append_iff (hne : span ≠ []) (hspan : ∀ d ∈ span, p d = true) (ends : Ends p rest) :
    IsRun p run (span ++ rest) ↔ run = span ∨ IsRun p run rest := by
  constructor
  · rintro ⟨hrun, hall, before, after, heq, hbefore, hafter⟩
    rcases List.append_eq_append_iff.mp heq with ⟨more, rfl, hrest⟩ | ⟨more, hmore, hrun'⟩
    · rw [List.reverse_append, ends_append] at hbefore
      exact .inr ⟨hrun, hall, more, after, hrest, hbefore.1, hafter⟩
    · left
      have hnil : before = [] := by
        rcases List.eq_nil_or_concat before with hnil | ⟨front, d, rfl⟩
        · exact hnil
        · have hd := hbefore d (by simp)
          rw [hspan d (by simp [hmore])] at hd
          cases hd
      subst hnil
      rw [List.nil_append] at hmore heq
      rw [← (split_of_ends hall hafter).1, ← heq, (split_of_ends hspan ends).1]
  · rintro (rfl | ⟨hrun, hall, before, after, rfl, hbefore, hafter⟩)
    · exact ⟨hne, hspan, [], rest, rfl, ends_nil _, ends⟩
    · refine ⟨hrun, hall, span ++ before, after, by simp, ?_, hafter⟩
      rw [List.reverse_append, ends_append]
      refine ⟨hbefore, fun hnil => ?_⟩
      obtain rfl := List.reverse_eq_nil_iff.mp hnil
      obtain ⟨d, tail, rfl⟩ := List.exists_cons_of_ne_nil hrun
      have hd := ends d rfl
      rw [hall d (by simp)] at hd
      cases hd

theorem cons_iff (hc : p c = false) : IsRun p run (c :: text) ↔ IsRun p run text := by
  constructor
  · rintro ⟨hrun, hall, before, after, heq, hbefore, hafter⟩
    cases before with
    | nil =>
      obtain ⟨d, tail, rfl⟩ := List.exists_cons_of_ne_nil hrun
      cases heq
      rw [hall c (by simp)] at hc
      cases hc
    | cons d before =>
      cases heq
      rw [List.reverse_cons, ends_append] at hbefore
      exact ⟨hrun, hall, before, after, rfl, hbefore.1, hafter⟩
  · rintro ⟨hrun, hall, before, after, rfl, hbefore, hafter⟩
    refine ⟨hrun, hall, c :: before, after, rfl, ?_, hafter⟩
    rw [List.reverse_cons, ends_append]
    refine ⟨hbefore, fun _ d hd => ?_⟩
    cases hd
    exact hc

theorem of_eq_on (h : ∀ d ∈ text, p d = q d) (hrun : IsRun p run text) : IsRun q run text := by
  obtain ⟨hne, hall, before, after, rfl, hbefore, hafter⟩ := hrun
  refine ⟨hne, fun d hd => ?_, before, after, rfl, fun d hd => ?_, fun d hd => ?_⟩
  · rw [← h d (by simp [hd]), hall d hd]
  · have hmem := List.mem_reverse.mp (List.mem_of_mem_head? hd)
    rw [← h d (by simp [hmem]), hbefore d hd]
  · have hmem := List.mem_of_mem_head? hd
    rw [← h d (by simp [hmem]), hafter d hd]

end IsRun

namespace Coverage

variable {c : Char} {span text rest : List Char}

theorem words_nil : words [] = [] := by
  rw [words]
  rfl

theorem words_cons (hc : isSiglaChar c = false) : words (c :: text) = words text := by
  have hdrop : (c :: text).dropWhile (!isSiglaChar ·) = text.dropWhile (!isSiglaChar ·) := by
    simp [hc]
  rw [words, words, hdrop]

theorem words_run (hne : span ≠ []) (hspan : ∀ d ∈ span, isSiglaChar d = true)
    (ends : Ends isSiglaChar rest) :
    words (span ++ rest) = String.ofList span :: words rest := by
  obtain ⟨c, tail, rfl⟩ := List.exists_cons_of_ne_nil hne
  have hdrop : (c :: (tail ++ rest)).dropWhile (!isSiglaChar ·) = c :: (tail ++ rest) := by
    simp [hspan c (by simp)]
  obtain ⟨htake, hrest⟩ := split_of_ends (fun d hd => hspan d (List.mem_cons_of_mem _ hd)) ends
  rw [List.cons_append, words, hdrop]
  simp only [htake, hrest]

/-- The words are the longest runs of sigla characters, and nothing else. -/
theorem mem_words_iff {word : String} : word ∈ words text ↔ IsRun isSiglaChar word.toList text := by
  induction text using runs_induct (p := isSiglaChar) with
  | nil => simp [words_nil, IsRun.not_nil]
  | cons c rest hc ih => rw [words_cons hc, IsRun.cons_iff hc, ih]
  | run span rest hne hspan ends ih =>
    rw [words_run hne hspan ends, IsRun.append_iff hne hspan ends, List.mem_cons, ih,
      ← String.toList_inj, String.toList_ofList]

/-- No word goes over a place where no sigla character follows. -/
theorem words_append (front : List Char) (ends : Ends isSiglaChar rest) :
    words (front ++ rest) = words front ++ words rest := by
  induction front using runs_induct (p := isSiglaChar) with
  | nil => rw [words_nil, List.nil_append, List.nil_append]
  | cons c front hc ih => rw [List.cons_append, words_cons hc, words_cons hc, ih]
  | run span more hne hspan hmore ih =>
    have hends : Ends isSiglaChar (more ++ rest) := ends_append.mpr ⟨hmore, fun _ => ends⟩
    rw [List.append_assoc, words_run hne hspan hends, words_run hne hspan hmore, ih,
      List.cons_append]

section Upper

open Lexeme

variable {word : String}

/-- The words of a text in upper case. -/
def upperWords (text : List Char) : List String := words (Text.upperChars text)

theorem upperWords_nil : upperWords [] = [] := words_nil

theorem upperWords_cons (hupper : Text.upperChar c = [c]) (hc : isSiglaChar c = false) :
    upperWords (c :: rest) = upperWords rest := by
  rw [upperWords, Text.upperChars_cons, hupper, List.singleton_append, words_cons hc, upperWords]

/-- A character that is in no sigla ends the words before it. -/
theorem upperWords_append_cons (front : List Char) (hupper : Text.upperChar c = [c])
    (hc : isSiglaChar c = false) :
    upperWords (front ++ c :: rest) = upperWords front ++ upperWords rest := by
  have hends : Ends isSiglaChar (Text.upperChars (c :: rest)) := by
    rw [Text.upperChars_cons, hupper]
    exact ends_cons _ hc
  have hrest : upperWords (c :: rest) = upperWords rest := upperWords_cons hupper hc
  rw [← hrest, upperWords, Text.upperChars_append, words_append _ hends]
  rfl

theorem upperWords_name_append (h : IsName span)
    (ends : Ends isSiglaChar (Text.upperChars rest)) :
    upperWords (span ++ rest) = Text.upper (String.ofList span) :: upperWords rest := by
  have hne : span.map Char.toUpper ≠ [] := by
    obtain ⟨c, hc, _⟩ := h.start
    intro hnil
    rw [List.map_eq_nil_iff.mp hnil] at hc
    cases hc
  have hsigla : ∀ d ∈ span.map Char.toUpper, isSiglaChar d = true := by
    intro d hd
    obtain ⟨c, hc, rfl⟩ := List.mem_map.mp hd
    exact isSiglaChar_toUpper (h.chars c hc)
  rw [upperWords, Text.upperChars_append,
    Text.upperChars_of_ascii fun c hc => toNat_lt_of_isNameChar (h.chars c hc),
    words_run hne hsigla ends, upper_of_isNameChar h.chars, upperWords]

theorem upperWords_name (h : IsName span) :
    upperWords span = [Text.upper (String.ofList span)] := by
  have hends : Ends isSiglaChar (Text.upperChars []) := ends_nil _
  have hword := upperWords_name_append h hends
  rwa [List.append_nil, upperWords_nil] at hword

/-- The words of a literal are made of digits. -/
theorem isNumeral_of_literal (h : ∀ c ∈ span, isLiteralChar c = true)
    (hword : word ∈ upperWords span) : isNumeral word = true := by
  rw [upperWords, Text.upperChars_of_isLiteralChar h, mem_words_iff] at hword
  obtain ⟨_, hchars, before, after, rfl, _⟩ := hword
  refine List.all_eq_true.mpr fun c hc => ?_
  have hsigla := isSiglaChar_of_isLiteralChar (h c (by simp [hc]))
  rw [hchars c hc] at hsigla
  exact hsigla.symm

/-- Texts with a plus between them have the words of each. -/
theorem upperWords_intercalate (pieces : List (List Char)) :
    upperWords ([' ', '+', ' '].intercalate pieces) = pieces.flatMap upperWords := by
  induction pieces with
  | nil => exact upperWords_nil
  | cons first rest ih =>
    cases rest with
    | nil => simp
    | cons next rest =>
      have hplus : upperWords (first ++ ' ' :: ('+' :: ' ' ::
          [' ', '+', ' '].intercalate (next :: rest))) =
          upperWords first ++ upperWords ([' ', '+', ' '].intercalate (next :: rest)) := by
        rw [upperWords_append_cons first rfl rfl, upperWords_cons rfl rfl, upperWords_cons rfl rfl]
      have hall : [' ', '+', ' '].intercalate (first :: next :: rest) =
          first ++ ' ' :: ('+' :: ' ' :: [' ', '+', ' '].intercalate (next :: rest)) := by
        simp [List.intercalate_cons_cons]
      rw [hall, hplus, ih, List.flatMap_cons (x := first)]

end Upper

end Coverage

end FinalGrades
