import FinalGrades.Proofs.Attempt
import FinalGrades.Toml.Fields
import Mathlib

/-!
Which values the typed fields of a TOML table take: what an item has to be for each reader, and a
field that may be left out as a relation between the item there and the value.
-/

namespace FinalGrades.Toml

open Attempt

/-- An item that gives a word: as a string, or as the only key of a table with an empty value. -/
inductive IsWord : Item → String → Prop
  | text (word : String) : IsWord (.text word) word
  | key {item inside : Item} {word : String} : item.entries? = some [(word, inside)] →
      inside.entries? = some [] ∨ inside.elements? = some [] → IsWord item word

variable {α : Type} {item : Item}

theorem count_eq_ok_iff {n : Nat} : count item = .ok n ↔ item = .integer n := by
  unfold count
  cases item with
  | integer value =>
    dsimp only
    split
    next hneg =>
      simp only [reduceCtorEq, Item.integer.injEq, false_iff]
      omega
    next hpos =>
      rw [Except.ok.injEq, Item.integer.injEq]
      omega
  | _ => simp

theorem boolean_eq_ok_iff {value : Bool} : boolean item = .ok value ↔ item = .boolean value := by
  cases item <;> simp [boolean]

theorem text_eq_ok_iff {value : String} : text item = .ok value ↔ item = .text value := by
  cases item <;> simp [text]

theorem character_eq_ok_iff {c : Char} :
    character item = .ok c ↔ item = .text (String.singleton c) := by
  unfold character
  rw [bind_eq_ok_iff]
  constructor
  · rintro ⟨value, hvalue, h⟩
    rw [text_eq_ok_iff.mp hvalue, Item.text.injEq, ← String.toList_inj, String.toList_singleton]
    split at h
    next d hlist =>
      cases h
      exact hlist
    next => cases h
  · rintro rfl
    exact ⟨_, rfl, by rw [String.toList_singleton]; rfl⟩

/-- The value of a word among those that may be chosen. -/
def valueOf (words : List (String × α)) (word : String) : Except FieldError α :=
  match words.lookup word with
  | some value => .ok value
  | none => .error .unfitValue

theorem valueOf_eq_ok_iff {words : List (String × α)} {word : String} {value : α} :
    valueOf words word = .ok value ↔ words.lookup word = some value := by
  unfold valueOf
  cases words.lookup word <;> simp

theorem choice_of_isWord {words : List (String × α)} {word : String} (h : IsWord item word) :
    choice words item = valueOf words word := by
  cases h with
  | text => rfl
  | @key _ inside _ hentries hinside =>
    have htable : choice words (.braces [(word, inside)]) = valueOf words word := by
      unfold choice
      dsimp only [Item.entries?]
      split
      next => rfl
      next => rfl
      next hentries helements => exact absurd hinside (not_or.mpr ⟨hentries, helements⟩)
    cases item with
    | braces entries =>
      cases hentries
      exact htable
    | table origin entries =>
      cases hentries
      exact htable
    | _ => cases hentries

theorem choice_eq_ok_iff {words : List (String × α)} {value : α} :
    choice words item = .ok value ↔
      ∃ word, IsWord item word ∧ words.lookup word = some value := by
  constructor
  · intro h
    have hword : ∃ word, IsWord item word := by
      unfold choice at h
      dsimp only at h
      split at h
      next word => exact ⟨word, .text word⟩
      next word inside _ hentries =>
        split at h
        next hinside => exact ⟨word, .key hentries (.inl hinside)⟩
        next hinside _ => exact ⟨word, .key hentries (.inr hinside)⟩
        next => cases h
      next => cases h
    obtain ⟨word, hword⟩ := hword
    exact ⟨word, hword, valueOf_eq_ok_iff.mp ((choice_of_isWord hword).symm.trans h)⟩
  · rintro ⟨word, hword, hvalue⟩
    rw [choice_of_isWord hword, valueOf_eq_ok_iff, hvalue]

theorem Fields.ofText_eq_ok_iff {text : String} {fields : Fields} :
    ofText text = .ok fields ↔ read? text = some fields.entries := by
  unfold ofText
  cases read? text with
  | none => simp
  | some entries =>
    constructor
    · rintro ⟨⟩
      rfl
    · rintro ⟨⟩
      rfl

theorem Fields.optional_eq_ok_iff {fields : Fields} {name : String}
    {read : Item → Except FieldError α} {found : Option α} :
    fields.optional name read = .ok found ↔
      Option.Rel (fun item value => read item = .ok value) (fields.entries.lookup name) found := by
  unfold optional
  cases fields.entries.lookup name with
  | none =>
    constructor
    · rintro ⟨⟩
      exact .none
    · rintro ⟨⟩
      rfl
  | some item =>
    dsimp only
    constructor
    · intro h
      split at h
      next value hvalue =>
        cases h
        exact .some hvalue
      all_goals cases h
    · rintro (hvalue | _)
      rw [hvalue]

end FinalGrades.Toml
