import FinalGrades.Proofs.Text.Classes
import FinalGrades.Text.Case
import Mathlib

/-!
Keywords as a user may write them, with blanks around them and in either case. No character beyond
ASCII has a lower case that stands in a keyword, except for the Kelvin sign, whose lower case is
the letter k: a word without that letter is spelled in the letters of ASCII alone.
-/

namespace FinalGrades.Text

/-- The text is the word with blanks around it, each of its letters in either case. -/
def Spells (word text : String) : Prop :=
  ∃ before middle after, text.toList = before ++ middle ++ after ∧
    (∀ c ∈ before, isBlank c = true) ∧ (∀ c ∈ after, isBlank c = true) ∧
    middle.map Char.toLower = word.toList

/-- The text spells one of the words. -/
def SpellsOneOf (words : List String) (text : String) : Prop := ∃ word ∈ words, Spells word text

section Trim

variable {before middle after : List Char}

/-- What trimming takes away is blank. -/
theorem exists_append_trimChars (text : List Char) :
    ∃ before after, text = before ++ trimChars text ++ after ∧
      (∀ c ∈ before, isBlank c = true) ∧ (∀ c ∈ after, isBlank c = true) := by
  have hfront := List.takeWhile_append_dropWhile (p := isBlank) (l := text)
  have hback := List.rdropWhile_append_rtakeWhile (p := isBlank) (l := text.dropWhile isBlank)
  refine ⟨text.takeWhile isBlank, (text.dropWhile isBlank).rtakeWhile isBlank, ?_,
    fun c hc => List.mem_takeWhile_imp hc, fun c hc => List.mem_rtakeWhile_imp hc⟩
  calc text = text.takeWhile isBlank ++ text.dropWhile isBlank := hfront.symm
    _ = text.takeWhile isBlank ++ ((text.dropWhile isBlank).rdropWhile isBlank ++
        (text.dropWhile isBlank).rtakeWhile isBlank) := by rw [hback]
    _ = _ := (List.append_assoc _ _ _).symm

theorem dropWhile_isBlank (h : ∀ c ∈ middle, isBlank c = false) :
    middle.dropWhile isBlank = middle := by
  cases middle with
  | nil => rfl
  | cons c rest => exact List.dropWhile_cons_of_neg (by simp [h c List.mem_cons_self])

/-- Trimming takes all blanks away around characters that are none. -/
theorem trimChars_append (hbefore : ∀ c ∈ before, isBlank c = true)
    (hmiddle : ∀ c ∈ middle, isBlank c = false) (hafter : ∀ c ∈ after, isBlank c = true) :
    trimChars (before ++ middle ++ after) = middle := by
  have hreverse : ∀ c ∈ after.reverse, isBlank c = true :=
    fun c hc => hafter c (List.mem_reverse.mp hc)
  have hmiddle' : ∀ c ∈ middle.reverse, isBlank c = false :=
    fun c hc => hmiddle c (List.mem_reverse.mp hc)
  rw [trimChars, List.append_assoc, List.dropWhile_append_of_pos hbefore]
  cases middle with
  | nil =>
    have hblank : after.dropWhile isBlank = [] := List.dropWhile_eq_nil_iff.mpr hafter
    rw [List.nil_append, hblank]
    rfl
  | cons c rest =>
    rw [List.cons_append, List.dropWhile_cons_of_neg (by simp [hmiddle c List.mem_cons_self]),
      ← List.cons_append, List.reverse_append, List.dropWhile_append_of_pos hreverse,
      dropWhile_isBlank hmiddle', List.reverse_reverse]

end Trim

section Lower

/-- The run leads to no character of ASCII, or from the Kelvin sign to its letter. -/
def CaseRun.isDistant (run : CaseRun) : Bool :=
  let start := ((run.first : Int) + run.shift).toNat
  let stop := ((run.last : Int) + run.shift).toNat
  (128 ≤ start && (stop < 0xD800 || (0xE000 ≤ start && stop < 0x110000))) ||
    (start = 0x6B && stop = 0x6B)

theorem lowerRuns_distant : lowerRuns.all CaseRun.isDistant = true := by decide +kernel

theorem lowerSequences_distant : ∀ entry ∈ lowerSequences,
    ∃ d ∈ entry.2.map Char.ofNat, d = 'k' ∨ 128 ≤ d.toNat :=
  List.forall_mem_singleton.mpr
    ⟨Char.ofNat 0x307, List.mem_cons_of_mem _ List.mem_cons_self, .inr (by decide)⟩

theorem CaseRun.image_of_isDistant {run : CaseRun} {n image : Nat} (h : run.isDistant = true)
    (himage : run.image? n = some image) :
    Char.ofNat image = 'k' ∨ 128 ≤ (Char.ofNat image).toNat := by
  unfold CaseRun.image? at himage
  split at himage
  next hin =>
    cases himage
    simp only [isDistant, Bool.or_eq_true, Bool.and_eq_true, decide_eq_true_eq] at h
    rcases h with ⟨hfar, hvalid⟩ | ⟨hstart, hstop⟩
    · right
      have hchar : ((n : Int) + run.shift).toNat.isValidChar := by
        unfold Nat.isValidChar
        omega
      rw [Char.toNat_ofNat, if_pos hchar]
      omega
    · left
      have hkelvin : ((n : Int) + run.shift).toNat = 0x6B := by omega
      rw [hkelvin]
  next => cases himage

/-- The lower case of a character beyond ASCII has another one there, or is the letter k. -/
theorem exists_mem_lowerChar {c : Char} (h : ¬c.toNat < 128) :
    ∃ d ∈ lowerChar c, d = 'k' ∨ 128 ≤ d.toNat := by
  rw [lowerChar, if_neg h, caseImage]
  split
  next images himages =>
    obtain ⟨front, back, hsequences, _⟩ := List.lookup_eq_some_iff.mp himages
    have hmem : (c.toNat, images) ∈ lowerSequences := by simp [hsequences]
    exact lowerSequences_distant _ hmem
  next =>
    split
    next image himage =>
      obtain ⟨run, hrun, himage⟩ := List.exists_of_findSome?_eq_some himage
      exact ⟨_, List.mem_singleton_self _, run.image_of_isDistant
        (List.all_eq_true.mp lowerRuns_distant run hrun) himage⟩
    next => exact ⟨c, List.mem_singleton_self c, .inr (by omega)⟩

theorem exists_mem_image (before rest : List Char) {c : Char} (h : ¬c.toNat < 128) :
    ∃ d ∈ (if c = 'Σ' then (if meetsCased before && !meetsCased rest then ['ς'] else ['σ'])
      else lowerChar c), d = 'k' ∨ 128 ≤ d.toNat := by
  split
  next =>
    split
    next => exact ⟨'ς', List.mem_singleton_self _, by decide⟩
    next => exact ⟨'σ', List.mem_singleton_self _, by decide⟩
  next => exact exists_mem_lowerChar h

/-- Characters of ASCII other than the letter k. -/
def IsPlain (word : List Char) : Prop := ∀ c ∈ word, c.toNat < 128 ∧ c ≠ 'k'

theorem IsPlain.tail {c : Char} {word : List Char} (h : IsPlain (c :: word)) : IsPlain word :=
  fun d hd => h d (List.mem_cons_of_mem c hd)

theorem toLower_of_not_ascii {c : Char} (h : ¬c.toNat < 128) : c.toLower = c := by
  apply Char.toLower_eq_of_not_isUpper
  intro hupper
  have hle : c.toNat ≤ 'Z'.toNat := UInt32.le_iff_toNat_le.mp (of_decide_eq_true hupper).2
  have hletter : 'Z'.toNat = 90 := rfl
  omega

theorem isBlank_toLower (c : Char) : isBlank c.toLower = isBlank c := by
  by_cases h : c.toNat < 128
  · exact ascii_cases (p := fun c => isBlank c.toLower = isBlank c) (by decide +kernel) h
  · rw [toLower_of_not_ascii h]

/-- In a plain word only the letters of ASCII have been put in lower case. -/
theorem lowerFrom_eq_iff {text word : List Char} (h : IsPlain word) (before : List Char) :
    lowerFrom before text = word ↔ text.map Char.toLower = word := by
  induction text generalizing before word with
  | nil => rfl
  | cons c text ih =>
    rw [lowerFrom, List.map_cons]
    by_cases hc : c.toNat < 128
    · have hsigma : c ≠ 'Σ' := by
        rintro rfl
        exact absurd hc (by decide)
      rw [if_neg hsigma, lowerChar, if_pos hc, List.singleton_append]
      cases word with
      | nil => simp
      | cons d word => rw [List.cons.injEq, List.cons.injEq, ih h.tail]
    · -- Neither side can hold: the first character is not from ASCII, and its image is not plain.
      constructor
      · intro hword
        obtain ⟨d, hd, hfar⟩ := exists_mem_image before text hc
        obtain ⟨hascii, hk⟩ := h d (hword ▸ List.mem_append_left _ hd)
        rcases hfar with hfar | hfar
        · exact absurd hfar hk
        · omega
      · rintro rfl
        have hascii := (h c.toLower List.mem_cons_self).1
        rw [toLower_of_not_ascii hc] at hascii
        exact absurd hascii hc

end Lower

/-- A word of such characters, none of them blank. -/
def IsKeyword (word : String) : Prop :=
  ∀ c ∈ word.toList, (c.toNat < 128 ∧ c ≠ 'k') ∧ isBlank c = false

/-- A text that has been trimmed and put in lower case is a keyword just if it spelled it. -/
theorem lower_trim_eq_iff {word text : String} (h : IsKeyword word) :
    lower (trim text) = word ↔ Spells word text := by
  have hword : lower (trim text) = word ↔
      (trimChars text.toList).map Char.toLower = word.toList := by
    rw [lower, trim, String.toList_ofList, ← String.toList_inj, String.toList_ofList]
    exact lowerFrom_eq_iff (fun c hc => (h c hc).1) []
  rw [hword]
  constructor
  · intro hmiddle
    obtain ⟨before, after, htext, hbefore, hafter⟩ := exists_append_trimChars text.toList
    exact ⟨before, _, after, htext, hbefore, hafter, hmiddle⟩
  · rintro ⟨before, middle, after, htext, hbefore, hafter, hmiddle⟩
    have hblank : ∀ c ∈ middle, isBlank c = false := by
      intro c hc
      rw [← isBlank_toLower]
      exact (h _ (hmiddle ▸ List.mem_map_of_mem hc)).2
    rw [htext, trimChars_append hbefore hblank hafter, hmiddle]

theorem spellsOneOf_iff {words : List String} {text : String}
    (h : ∀ word ∈ words, IsKeyword word) :
    SpellsOneOf words text ↔ lower (trim text) ∈ words := by
  constructor
  · rintro ⟨word, hword, hspells⟩
    rwa [(lower_trim_eq_iff (h word hword)).mpr hspells]
  · intro hword
    exact ⟨_, hword, (lower_trim_eq_iff (h _ hword)).mp rfl⟩

end FinalGrades.Text
