import FinalGrades.Proofs.Toml.Fields
import FinalGrades.Settings
import Mathlib

/-!
What a settings file sets. A text is a well-formed settings file if it is a document whose fields,
where they are there, have their types, and leaves room for a formula; it is read just then.
-/

namespace FinalGrades

open Attempt

/-- What a settings file sets; it may leave out any field. -/
structure Layer where
  maxFormulaLength : Option Nat := none
  maxNestingDepth : Option Nat := none
  separator : Option Separator := none
  delimiter : Option Char := none
  requireComplete : Option Bool := none

namespace Layer

/-- The settings of a file, the default ones where it sets none. -/
def settings (layer : Layer) : Settings where
  maxFormulaLength := layer.maxFormulaLength.getD 4096
  maxNestingDepth := layer.maxNestingDepth.getD 64
  separator := layer.separator.getD .dot
  delimiter := layer.delimiter
  requireComplete := layer.requireComplete.getD true

/--
The fields that a document holds: whole numbers that are not negative, the name of a separator, a
text of one character and a truth value. A field that it does not hold is not set.
-/
structure Typed (entries : Toml.Entries) (layer : Layer) : Prop where
  maxFormulaLength : Option.Rel (fun item (limit : Nat) => item = .integer limit)
    (entries.lookup "max_formula_length") layer.maxFormulaLength
  maxNestingDepth : Option.Rel (fun item (limit : Nat) => item = .integer limit)
    (entries.lookup "max_nesting_depth") layer.maxNestingDepth
  separator : Option.Rel (fun item separator => Toml.IsWord item separator.name)
    (entries.lookup "decimal_separator") layer.separator
  delimiter : Option.Rel (fun item delimiter => item = .text (String.singleton delimiter))
    (entries.lookup "csv_delimiter") layer.delimiter
  requireComplete : Option.Rel (fun item flag => item = .boolean flag)
    (entries.lookup "require_complete") layer.requireComplete

/-- Limits leave room for a formula, and a delimiter is one byte. -/
structure Fits (layer : Layer) : Prop where
  maxFormulaLength : ∀ limit ∈ layer.maxFormulaLength, 1 ≤ limit
  maxNestingDepth : ∀ limit ∈ layer.maxNestingDepth, 1 ≤ limit
  delimiter : ∀ delimiter ∈ layer.delimiter, delimiter.toNat < 128

/-- A text is a well-formed settings file that sets the fields. -/
def ReadFrom (text : String) (layer : Layer) : Prop :=
  layer.Fits ∧ ∃ entries, Toml.read? text = some entries ∧ layer.Typed entries

section Read

variable {layer : Layer} {text : String} {settings : Settings}

theorem choice_separator_iff {item : Toml.Item} {separator : Separator} :
    Toml.choice [("dot", .dot), ("comma", .comma)] item = .ok separator ↔
      Toml.IsWord item separator.name := by
  have hlookup (word : String) :
      [("dot", Separator.dot), ("comma", .comma)].lookup word = some separator ↔
        word = separator.name := by
    simp only [List.lookup_cons, List.lookup_nil]
    split
    next => cases separator <;> simp_all [Separator.name]
    next => split <;> cases separator <;> simp_all [Separator.name]
  simp only [Toml.choice_eq_ok_iff, hlookup, exists_eq_right]

theorem typed_iff {fields : Toml.Fields} : Typed fields.entries layer ↔
    fields.optional "max_formula_length" Toml.count = .ok layer.maxFormulaLength ∧
    fields.optional "max_nesting_depth" Toml.count = .ok layer.maxNestingDepth ∧
    fields.optional "decimal_separator" (Toml.choice [("dot", .dot), ("comma", .comma)]) =
      .ok layer.separator ∧
    fields.optional "csv_delimiter" Toml.character = .ok layer.delimiter ∧
    fields.optional "require_complete" Toml.boolean = .ok layer.requireComplete := by
  simp only [Toml.Fields.optional_eq_ok_iff, Toml.count_eq_ok_iff, choice_separator_iff,
    Toml.character_eq_ok_iff, Toml.boolean_eq_ok_iff]
  exact ⟨fun h => ⟨h.1, h.2, h.3, h.4, h.5⟩, fun h => ⟨h.1, h.2.1, h.2.2.1, h.2.2.2.1, h.2.2.2.2⟩⟩

theorem readFields_eq_ok_iff : Settings.readFields text = .ok settings ↔
    ∃ entries layer, Toml.read? text = some entries ∧ Typed entries layer ∧
      layer.settings = settings := by
  constructor
  · intro h
    obtain ⟨fields, hfields, h⟩ := bind_eq_ok_iff.mp h
    obtain ⟨length, hlength, h⟩ := bind_eq_ok_iff.mp h
    obtain ⟨depth, hdepth, h⟩ := bind_eq_ok_iff.mp h
    obtain ⟨separator, hseparator, h⟩ := bind_eq_ok_iff.mp h
    obtain ⟨delimiter, hdelimiter, h⟩ := bind_eq_ok_iff.mp h
    obtain ⟨complete, hcomplete, h⟩ := bind_eq_ok_iff.mp h
    cases h
    exact ⟨fields.entries, ⟨length, depth, separator, delimiter, complete⟩,
      Toml.Fields.ofText_eq_ok_iff.mp hfields,
      typed_iff.mpr ⟨hlength, hdepth, hseparator, hdelimiter, hcomplete⟩, rfl⟩
  · rintro ⟨entries, layer, hentries, htyped, rfl⟩
    have hfields : Toml.Fields.ofText text = .ok ⟨entries⟩ :=
      Toml.Fields.ofText_eq_ok_iff.mpr hentries
    rw [Settings.readFields, hfields, ok_bind]
    dsimp only
    obtain ⟨hlength, hdepth, hseparator, hdelimiter, hcomplete⟩ := typed_iff.mp htyped
    rw [hlength, ok_bind, hdepth, ok_bind, hseparator, ok_bind, hdelimiter, ok_bind, hcomplete,
      ok_bind]
    rfl

theorem fits_iff : layer.Fits ↔ 1 ≤ layer.settings.maxFormulaLength ∧
    1 ≤ layer.settings.maxNestingDepth ∧
    ∀ delimiter ∈ layer.settings.delimiter, delimiter.toNat < 128 := by
  have hlimit (limit : Option Nat) (default : Nat) (hdefault : 1 ≤ default) :
      1 ≤ limit.getD default ↔ ∀ n ∈ limit, 1 ≤ n := by
    cases limit <;> simp [hdefault]
  rw [settings, hlimit _ 4096 (by decide), hlimit _ 64 (by decide)]
  exact ⟨fun h => ⟨h.1, h.2, h.3⟩, fun h => ⟨h.1, h.2.1, h.2.2⟩⟩

theorem read_eq_ok_iff_readFields : Settings.read text = .ok settings ↔
    Settings.readFields text = .ok settings ∧ 1 ≤ settings.maxFormulaLength ∧
      1 ≤ settings.maxNestingDepth ∧
      ∀ delimiter ∈ settings.delimiter, delimiter.toNat < 128 := by
  unfold Settings.read
  cases Settings.readFields text with
  | error error => simp
  | ok found =>
    dsimp only
    constructor
    · intro h
      split at h
      next => cases h
      next hlength =>
        split at h
        next => cases h
        next hdepth =>
          split at h
          next delimiter hdelimiter =>
            split at h
            next hascii =>
              cases h
              exact ⟨rfl, by omega, by omega, by simpa [hdelimiter] using hascii⟩
            next => cases h
          next hdelimiter =>
            cases h
            exact ⟨rfl, by omega, by omega, by simp [hdelimiter]⟩
    · rintro ⟨h, hlength, hdepth, hdelimiter⟩
      cases h
      rw [if_neg (by omega), if_neg (by omega)]
      split
      next delimiter hsome => exact if_pos (hdelimiter delimiter hsome)
      next => rfl

theorem read_eq_ok_iff : Settings.read text = .ok settings ↔
    ∃ layer, ReadFrom text layer ∧ layer.settings = settings := by
  rw [read_eq_ok_iff_readFields, readFields_eq_ok_iff]
  constructor
  · rintro ⟨⟨entries, layer, hentries, htyped, rfl⟩, hfits⟩
    exact ⟨layer, ⟨fits_iff.mpr hfits, entries, hentries, htyped⟩, rfl⟩
  · rintro ⟨layer, ⟨hfits, entries, hentries, htyped⟩, rfl⟩
    exact ⟨⟨entries, layer, hentries, htyped, rfl⟩, fits_iff.mp hfits⟩

end Read

/-- Where a file is chosen, it can be read and sets the fields; without one nothing is set. -/
def InFile (files : FileTree) : Option String → Layer → Prop
  | none, layer => layer = {}
  | some path, layer => ∃ text, files.readText path = .ok text ∧ ReadFrom text layer

theorem InFile.fits {files : FileTree} {chosen : Option String} {layer : Layer}
    (h : layer.InFile files chosen) : layer.Fits := by
  cases chosen with
  | none =>
    cases h
    exact ⟨by simp, by simp, by simp⟩
  | some path =>
    obtain ⟨_, _, hfits, _⟩ := h
    exact hfits

end Layer

end FinalGrades
