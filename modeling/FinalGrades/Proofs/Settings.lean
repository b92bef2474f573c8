import FinalGrades.Command.Run
import FinalGrades.Proofs.Settings.Layer
import FinalGrades.Proofs.Text.Spelled
import Mathlib

/-!
The options of an export, from the layers that set them: a settings file, the environment and the
command line. Every layer has to be well formed, also where a stronger one hides it, and otherwise
the run fails whatever its course.
-/

namespace FinalGrades

open Attempt

namespace Separator

/-- The words for a separator. -/
def words : Separator → List String
  | .dot => ["dot", "."]
  | .comma => ["comma", ","]

theorem isKeyword_of_mem_words (separator : Separator) :
    ∀ word ∈ separator.words, Text.IsKeyword word := by
  cases separator <;> simp [words, Text.IsKeyword, Text.isBlank]

theorem read_eq_ok_iff {text : String} {separator : Separator} :
    read text = .ok separator ↔ Text.SpellsOneOf separator.words text := by
  rw [Text.spellsOneOf_iff (isKeyword_of_mem_words separator), read]
  split <;> cases separator <;> simp_all [words]

end Separator

namespace Settings

/-- The words for a flag that is set or not. -/
def flagWords : Bool → List String
  | true => ["1", "true", "yes", "on"]
  | false => ["0", "false", "no", "off"]

theorem isKeyword_of_mem_flagWords (flag : Bool) :
    ∀ word ∈ flagWords flag, Text.IsKeyword word := by
  cases flag <;> simp [flagWords, Text.IsKeyword, Text.isBlank]

theorem readFlag?_eq_some_iff {text : String} {flag : Bool} :
    readFlag? text = some flag ↔ Text.SpellsOneOf (flagWords flag) text := by
  rw [Text.spellsOneOf_iff (isKeyword_of_mem_flagWords flag), readFlag?]
  split <;> cases flag <;> simp_all [flagWords]

end Settings

namespace Settings

variable {files : FileTree} {environment : Environment} {asked chosen : Option String}
  {settings : Settings}

/-- The settings file below a home directory. -/
def homeFile (home : String) : String :=
  joinPath (joinPath (joinPath home ".config") "gradebook") "config.toml"

/-- The settings file that a run uses, given the one that is asked for. -/
inductive Chosen (files : FileTree) (environment : Environment) :
    Option String → Option String → Prop
  | asked {path} : files.exists? path = true → Chosen files environment (some path) (some path)
  | here : files.exists? "gradebook.toml" = true →
      Chosen files environment none (some "gradebook.toml")
  | home {home} : files.exists? "gradebook.toml" = false → environment.home = some home →
      files.exists? (homeFile home) = true →
      Chosen files environment none (some (homeFile home))
  | none : files.exists? "gradebook.toml" = false →
      (∀ home, environment.home = some home → files.exists? (homeFile home) = false) →
      Chosen files environment none none

theorem chosen_find? :
    Chosen files environment none ((places environment).find? files.exists?) := by
  cases hhere : files.exists? fileName with
  | true =>
    rw [places, List.find?_cons_of_pos hhere]
    exact .here hhere
  | false =>
    rw [places, List.find?_cons_of_neg (by simp [hhere])]
    cases hhome : environment.home with
    | none => exact .none hhere (by simp [hhome])
    | some home =>
      have hplaces : ((some home).map homeFile).toList = [homeFile home] := rfl
      show Chosen files environment none (((some home).map homeFile).toList.find? files.exists?)
      rw [hplaces]
      cases hfound : files.exists? (homeFile home) with
      | true =>
        rw [List.find?_cons_of_pos hfound]
        exact .home hhere hhome hfound
      | false =>
        rw [List.find?_cons_of_neg (by simp [hfound])]
        refine .none hhere fun other hother => ?_
        cases hhome.symm.trans hother
        exact hfound

theorem Chosen.unique {other : Option String} (h : Chosen files environment asked chosen)
    (h' : Chosen files environment asked other) : chosen = other := by
  cases h <;> cases h' <;> simp_all

theorem file?_eq_ok_iff :
    file? files environment asked = .ok chosen ↔ Chosen files environment asked chosen := by
  cases asked with
  | some path =>
    constructor
    · intro h
      rw [file?] at h
      split at h
      next hpath =>
        cases h
        exact .asked hpath
      next => cases h
    · rintro ⟨hpath⟩
      exact if_pos hpath
  | none =>
    refine ⟨fun h => ?_, fun h => congrArg Except.ok (chosen_find?.unique h)⟩
    cases h
    exact chosen_find?

theorem readFile_eq_ok_iff {path : String} : readFile files path = .ok settings ↔
    ∃ layer : Layer, layer.InFile files (some path) ∧ layer.settings = settings := by
  constructor
  · intro h
    unfold readFile at h
    split at h
    next => cases h
    next text htext =>
      split at h
      next found hfound =>
        cases h
        obtain ⟨layer, hlayer, hsettings⟩ := Layer.read_eq_ok_iff.mp hfound
        exact ⟨layer, ⟨text, htext, hlayer⟩, hsettings⟩
      next => cases h
  · rintro ⟨layer, ⟨text, htext, hlayer⟩, hsettings⟩
    rw [readFile, htext]
    dsimp only
    rw [Layer.read_eq_ok_iff.mpr ⟨layer, hlayer, hsettings⟩]

/-- What a text sets, or the old value where there is no text. -/
def overlay {α ε : Type} (read : String → Except ε α) (given : Option String) (old : α) :
    Except ε α :=
  match given with
  | none => .ok old
  | some text => read text

theorem overlay_eq_ok_iff {α ε : Type} {old value : α} {read : String → Except ε α}
    {given : Option String} : overlay read given old = .ok value ↔
    ∃ set, Option.Rel (fun text found => read text = .ok found) given set ∧
      set.getD old = value := by
  cases given with
  | none =>
    constructor
    · intro h
      cases h
      exact ⟨none, .none, rfl⟩
    · rintro ⟨set, hset, rfl⟩
      cases hset
      rfl
  | some text =>
    constructor
    · intro h
      exact ⟨some value, .some h, rfl⟩
    · rintro ⟨set, hset, rfl⟩
      cases hset with
      | some h => exact h

def readComplete (text : String) : Except SettingsError Bool :=
  match readFlag? text with
  | some flag => .ok flag
  | none => .error (.completeVariable text)

theorem readComplete_eq_ok_iff {text : String} {flag : Bool} :
    readComplete text = .ok flag ↔ Text.SpellsOneOf (flagWords flag) text := by
  rw [← readFlag?_eq_some_iff, readComplete]
  cases readFlag? text <;> simp

theorem override_eq : settings.override environment = do
    let separator ← overlay (fun text => (Separator.read text).mapError .separatorVariable)
      environment.separator settings.separator
    let requireComplete ← overlay readComplete environment.requireComplete
      settings.requireComplete
    return { settings with separator, requireComplete } := by
  obtain ⟨separator, complete, home⟩ := environment
  unfold override overlay readComplete
  cases separator with
  | none =>
    cases complete with
    | none => rfl
    | some complete => dsimp only; cases readFlag? complete <;> rfl
  | some separator =>
    cases complete with
    | none => dsimp only; cases Separator.read separator <;> rfl
    | some complete =>
      dsimp only
      cases Separator.read separator <;> cases readFlag? complete <;> rfl

theorem override_eq_ok_iff {final : Settings} : settings.override environment = .ok final ↔
    ∃ separator complete,
      Option.Rel (fun text found => Text.SpellsOneOf found.words text) environment.separator
        separator ∧
      Option.Rel (fun text found => Text.SpellsOneOf (flagWords found) text)
        environment.requireComplete complete ∧
      { settings with
        separator := separator.getD settings.separator
        requireComplete := complete.getD settings.requireComplete } = final := by
  simp only [override_eq, bind_eq_ok_iff, overlay_eq_ok_iff, mapError_eq_ok_iff,
    readComplete_eq_ok_iff, Separator.read_eq_ok_iff, pure_eq_ok, Except.ok.injEq]
  constructor
  · rintro ⟨_, ⟨separator, hseparator, rfl⟩, _, ⟨complete, hcomplete, rfl⟩, rfl⟩
    exact ⟨separator, complete, hseparator, hcomplete, rfl⟩
  · rintro ⟨separator, complete, hseparator, hcomplete, rfl⟩
    exact ⟨_, ⟨separator, hseparator, rfl⟩, _, ⟨complete, hcomplete, rfl⟩, rfl⟩

/-- The settings before the environment goes over them. -/
def base (files : FileTree) : Option String → Except SettingsError Settings
  | some path => readFile files path
  | none => .ok {}

theorem base_eq_ok_iff : base files chosen = .ok settings ↔
    ∃ layer : Layer, layer.InFile files chosen ∧ layer.settings = settings := by
  cases chosen with
  | some path => exact readFile_eq_ok_iff
  | none =>
    constructor
    · intro h
      cases h
      exact ⟨{}, rfl, rfl⟩
    · rintro ⟨layer, rfl, rfl⟩
      rfl

theorem load_eq : load files environment asked = file? files environment asked >>= fun chosen =>
    base files chosen >>= fun settings => settings.override environment := by
  unfold load
  cases file? files environment asked with
  | error error => rfl
  | ok chosen => cases chosen <;> rfl

end Settings

/-- What the layers of a run set, from the file to the options on the command line. -/
structure Layers where
  file : Layer
  separator : Option Separator
  requireComplete : Option Bool
  decimal : Option Separator

namespace Layers

/-- Every layer of a run is well formed, and this is what they set. -/
structure Found (situation : Situation) (asked decimal : Option String) (layers : Layers) :
    Prop where
  file : ∃ chosen, Settings.Chosen situation.files situation.environment asked chosen ∧
    layers.file.InFile situation.files chosen
  separator : Option.Rel (fun text found => Text.SpellsOneOf found.words text)
    situation.environment.separator layers.separator
  requireComplete : Option.Rel (fun text found => Text.SpellsOneOf (Settings.flagWords found) text)
    situation.environment.requireComplete layers.requireComplete
  decimal : Option.Rel (fun text found => Text.SpellsOneOf found.words text) decimal layers.decimal

/-- The decimal separator of the strongest layer that sets one. -/
def finalSeparator (layers : Layers) : Separator :=
  (layers.decimal <|> layers.separator <|> layers.file.separator).getD .dot

/-- The delimiter of the file, or one that is not taken for the decimal separator. -/
def finalDelimiter (layers : Layers) : Char :=
  layers.file.delimiter.getD
    (match layers.finalSeparator with
      | .comma => ';'
      | .dot => ',')

/-- What the file and the environment set. -/
def loaded (layers : Layers) : Settings :=
  { layers.file.settings with
    separator := layers.separator.getD layers.file.settings.separator
    requireComplete := layers.requireComplete.getD layers.file.settings.requireComplete }

/-- The settings that the layers make up, as a file could set them. -/
def settings (layers : Layers) (allowIncomplete : Bool) : Settings where
  maxFormulaLength := layers.file.maxFormulaLength.getD 4096
  maxNestingDepth := layers.file.maxNestingDepth.getD 64
  separator := layers.finalSeparator
  delimiter := layers.file.delimiter
  requireComplete :=
    (layers.requireComplete <|> layers.file.requireComplete).getD true && !allowIncomplete

/-- The options that the layers make up. -/
def options (layers : Layers) (allowIncomplete : Bool) (format : String) : ExportOptions where
  separator := layers.finalSeparator
  delimiter := layers.finalDelimiter
  requireComplete :=
    if allowIncomplete = true ∨ format = "table" then false
    else (layers.requireComplete <|> layers.file.requireComplete).getD true
  limits := ⟨layers.file.maxFormulaLength.getD 4096, layers.file.maxNestingDepth.getD 64⟩

variable {situation : Situation} {asked decimal : Option String} {allowIncomplete : Bool}
  {format : String} {layers : Layers} {settings : Settings} {options : ExportOptions}

theorem load_eq_ok_iff :
    Settings.load situation.files situation.environment asked = .ok settings ↔
      ∃ layers : Layers, layers.Found situation asked none ∧ layers.loaded = settings := by
  simp only [Settings.load_eq, bind_eq_ok_iff, Settings.file?_eq_ok_iff, Settings.base_eq_ok_iff,
    Settings.override_eq_ok_iff]
  constructor
  · rintro ⟨chosen, hchosen, _, ⟨file, hfile, rfl⟩, separator, complete, hseparator, hcomplete,
      rfl⟩
    exact ⟨⟨file, separator, complete, none⟩, ⟨⟨chosen, hchosen, hfile⟩, hseparator, hcomplete,
      .none⟩, rfl⟩
  · rintro ⟨layers, ⟨⟨chosen, hchosen, hfile⟩, hseparator, hcomplete, _⟩, rfl⟩
    exact ⟨chosen, hchosen, _, ⟨layers.file, hfile, rfl⟩, layers.separator,
      layers.requireComplete, hseparator, hcomplete, rfl⟩

theorem settings_eq (layers : Layers) (allowIncomplete : Bool) :
    { layers.loaded with
      separator := layers.decimal.getD layers.loaded.separator
      requireComplete := layers.loaded.requireComplete && !allowIncomplete } =
      layers.settings allowIncomplete := by
  obtain ⟨file, separator, complete, decimal⟩ := layers
  cases decimal <;> cases separator <;> cases complete <;> rfl

theorem rosterSettings_eq_ok_iff :
    Run.rosterSettings situation asked decimal allowIncomplete = .ok settings ↔
      ∃ layers : Layers, layers.Found situation asked decimal ∧
        layers.settings allowIncomplete = settings := by
  have heq : Run.rosterSettings situation asked decimal allowIncomplete =
      (Settings.load situation.files situation.environment asked).mapError (·.message) >>=
        fun loaded => Settings.overlay (fun text => (Separator.read text).mapError
          fun misfit => s!"--decimal: {Separator.misfitMessage misfit}") decimal
          loaded.separator >>= fun separator => pure { loaded with
            separator
            requireComplete := loaded.requireComplete && !allowIncomplete } := by
    unfold Run.rosterSettings Settings.overlay
    cases (Settings.load situation.files situation.environment asked).mapError (·.message) with
    | error error => rfl
    | ok loaded =>
      rw [ok_bind, ok_bind]
      cases decimal <;> rfl
  simp only [heq, bind_eq_ok_iff, mapError_eq_ok_iff, load_eq_ok_iff, Settings.overlay_eq_ok_iff,
    Separator.read_eq_ok_iff, pure_eq_ok, Except.ok.injEq]
  constructor
  · rintro ⟨_, ⟨layers, hlayers, rfl⟩, _, ⟨found, hfound, rfl⟩, rfl⟩
    exact ⟨{ layers with decimal := found },
      ⟨hlayers.file, hlayers.separator, hlayers.requireComplete, hfound⟩, (settings_eq _ _).symm⟩
  · rintro ⟨layers, hlayers, rfl⟩
    have hloaded : ({ layers with decimal := none } : Layers).Found situation asked none :=
      ⟨hlayers.file, hlayers.separator, hlayers.requireComplete, .none⟩
    exact ⟨_, ⟨_, hloaded, rfl⟩, _, ⟨_, hlayers.decimal, rfl⟩, settings_eq layers _⟩

theorem Found.fits (h : layers.Found situation asked decimal) : layers.file.Fits := by
  obtain ⟨chosen, _, hfile⟩ := h.file
  exact hfile.fits

/-- A variable that is no flag leaves nothing to be found, whatever else is set. -/
theorem not_found_of_readFlag? {text : String}
    (hset : situation.environment.requireComplete = some text)
    (h : Settings.readFlag? text = none) :
    ¬∃ layers : Layers, layers.Found situation asked decimal := by
  rintro ⟨⟨file, separator, requireComplete, option⟩, hlayers⟩
  have hrel := hlayers.requireComplete
  rw [hset] at hrel
  cases hrel with
  | some hflag =>
    rw [Settings.readFlag?_eq_some_iff.mpr hflag] at h
    cases h

theorem finalDelimiter_lt (h : layers.file.Fits) : layers.finalDelimiter.toNat < 128 := by
  unfold finalDelimiter
  cases hdelimiter : layers.file.delimiter with
  | some delimiter => exact h.delimiter delimiter hdelimiter
  | none =>
    rw [Option.getD_none]
    split <;> decide

theorem finalDelimiter_ne (h : layers.file.delimiter = none) :
    layers.finalDelimiter ≠ layers.finalSeparator.char := by
  unfold finalDelimiter
  rw [h, Option.getD_none]
  cases layers.finalSeparator <;> decide

theorem options_of_settings (h : layers.file.Fits) :
    (if format = "table" then
      { ExportOptions.ofSettings (layers.settings allowIncomplete) with requireComplete := false }
    else ExportOptions.ofSettings (layers.settings allowIncomplete)) =
      layers.options allowIncomplete format := by
  have heffective : (layers.settings allowIncomplete).effectiveDelimiter =
      layers.finalDelimiter := rfl
  unfold ExportOptions.ofSettings
  rw [heffective, if_pos (finalDelimiter_lt h)]
  split
  next htable =>
    unfold options
    rw [if_pos (.inr htable)]
    rfl
  next htable =>
    unfold options
    cases allowIncomplete with
    | true => simp [settings, Settings.limits]
    | false => simp [settings, Settings.limits, htable]

theorem rosterOptions_eq_ok_iff :
    Run.rosterOptions situation asked decimal allowIncomplete format = .ok options ↔
      ∃ layers : Layers, layers.Found situation asked decimal ∧
        layers.options allowIncomplete format = options := by
  simp only [Run.rosterOptions, bind_eq_ok_iff, rosterSettings_eq_ok_iff, pure_eq_ok,
    Except.ok.injEq]
  constructor
  · rintro ⟨_, ⟨layers, hlayers, rfl⟩, rfl⟩
    exact ⟨layers, hlayers, (options_of_settings hlayers.fits).symm⟩
  · rintro ⟨layers, hlayers, rfl⟩
    exact ⟨_, ⟨layers, hlayers, rfl⟩, options_of_settings hlayers.fits⟩

end Layers

theorem ExportOptions.delimiter_lt (settings : Settings) :
    (ofSettings settings).delimiter.toNat < 128 := by
  unfold ofSettings
  dsimp only
  split
  next hascii => exact hascii
  next =>
    unfold Settings.defaultDelimiter
    split <;> decide

namespace Run

/--
Where every layer is well formed, a roster is put out under the options that the layers make up,
whose limits leave room for a formula and whose delimiter is one byte; if the file sets none, it is
not the decimal separator. Where one is not, the run fails in the same way for every course. The
options for any settings have a delimiter of one byte, the default one in place of a larger one.
-/
theorem roster_eq_of_layers (situation : Situation) (asked decimal : Option String)
    (allowIncomplete : Bool) :
    (∀ layers : Layers, layers.Found situation asked decimal → ∀ path format output,
      let options := layers.options allowIncomplete format
      roster situation path format output decimal allowIncomplete asked =
          rosterUnder situation options path format output ∧
        1 ≤ options.limits.maxLength ∧ 1 ≤ options.limits.maxDepth ∧
        options.delimiter.toNat < 128 ∧
        (layers.file.delimiter = none → options.delimiter ≠ options.separator.char)) ∧
    ((¬∃ layers : Layers, layers.Found situation asked decimal) → ∃ error,
      ∀ path format output, roster situation path format output decimal allowIncomplete asked =
        failed situation.files error) ∧
    ∀ settings : Settings, (ExportOptions.ofSettings settings).delimiter.toNat < 128 ∧
      (ExportOptions.ofSettings settings).delimiter =
        if settings.effectiveDelimiter.toNat < 128 then settings.effectiveDelimiter
        else Settings.defaultDelimiter settings.separator := by
  refine ⟨fun layers hlayers path format output => ⟨?_, ?_⟩, fun hnone => ?_,
    fun settings => ⟨ExportOptions.delimiter_lt settings, rfl⟩⟩
  · have hoptions : rosterOptions situation asked decimal allowIncomplete format =
        .ok (layers.options allowIncomplete format) :=
      Layers.rosterOptions_eq_ok_iff.mpr ⟨layers, hlayers, rfl⟩
    rw [roster, hoptions]
  · obtain ⟨hlength, hdepth, _⟩ := Layer.fits_iff.mp hlayers.fits
    exact ⟨hlength, hdepth, Layers.finalDelimiter_lt hlayers.fits, Layers.finalDelimiter_ne⟩
  · cases hsettings : rosterSettings situation asked decimal allowIncomplete with
    | ok settings =>
      obtain ⟨layers, hlayers, _⟩ := Layers.rosterSettings_eq_ok_iff.mp hsettings
      exact absurd ⟨layers, hlayers⟩ hnone
    | error error =>
      refine ⟨error, fun path format output => ?_⟩
      rw [roster, rosterOptions, hsettings]
      rfl

/--
An environment variable over the file, the option on the command line over both, and a variable
that is no flag, which counts although the command line would have gone over it.
-/
theorem roster_eq_of_layers_comma :
    ∃ situation : Situation,
      situation.files.readText "gradebook.toml" =
        .ok "decimal_separator = 'comma'\nrequire_complete = false" ∧
      situation.environment.separator = some " DOT\t" ∧
      situation.environment.requireComplete = some "Yes" ∧
      roster situation "course.toml" "csv" none none false none =
        rosterUnder situation ⟨.dot, ',', true, ⟨4096, 64⟩⟩ "course.toml" "csv" none ∧
      roster situation "course.toml" "csv" none (some ",") true none =
        rosterUnder situation ⟨.comma, ';', false, ⟨4096, 64⟩⟩ "course.toml" "csv" none ∧
      ∃ error, ∀ path format output,
        roster { situation with environment := { requireComplete := some "maybe" } } path format
          output (some ",") true none = failed situation.files error := by
  let text := "decimal_separator = 'comma'\nrequire_complete = false"
  let files : FileTree := ⟨.entry "gradebook.toml" (.file (.text text)) .empty, []⟩
  let environment : Environment := { separator := some " DOT\t", requireComplete := some "Yes" }
  let situation : Situation := ⟨files, environment, ⟨⟨2025, 1, 1⟩, 0, 0⟩⟩
  let file : Layer := { separator := some .comma, requireComplete := some false }
  have hread : (files.readText "gradebook.toml").toOption = some text := by decide +kernel
  have htext := eq_ok_of_toOption hread
  have hfile : file.InFile files (some "gradebook.toml") := by
    have htoml : Toml.read? text = some [("decimal_separator", .text "comma"),
        ("require_complete", .boolean false)] := by cbv
    refine ⟨text, htext, ⟨by simp [file], by simp [file], by simp [file]⟩, _, htoml, ?_⟩
    exact ⟨.none, .none, .some (.text _), .none, .some rfl⟩
  have hchosen : Settings.Chosen files environment none (some "gradebook.toml") :=
    .here (by decide +kernel)
  have hdot : Text.SpellsOneOf (Separator.words .dot) " DOT\t" :=
    ⟨"dot", by simp [Separator.words], [' '], ['D', 'O', 'T'], ['\t'], by decide +kernel,
      by simp [Text.isBlank], by simp [Text.isBlank], by decide +kernel⟩
  have hyes : Text.SpellsOneOf (Settings.flagWords true) "Yes" :=
    ⟨"yes", by simp [Settings.flagWords], [], ['Y', 'e', 's'], [], by decide +kernel, by simp,
      by simp, by decide +kernel⟩
  have hcomma : Text.SpellsOneOf (Separator.words .comma) "," :=
    ⟨",", by simp [Separator.words], [], [','], [], by decide +kernel, by simp, by simp,
      by decide +kernel⟩
  have hset : (⟨file, some .dot, some true, none⟩ : Layers).Found situation none none :=
    ⟨⟨_, hchosen, hfile⟩, .some hdot, .some hyes, .none⟩
  have hasked : (⟨file, some .dot, some true, some .comma⟩ : Layers).Found situation none
      (some ",") := ⟨⟨_, hchosen, hfile⟩, .some hdot, .some hyes, .some hcomma⟩
  have hmaybe : Settings.readFlag? "maybe" = none := by cbv
  exact ⟨situation, htext, rfl, rfl,
    ((roster_eq_of_layers situation none none false).1 _ hset _ _ _).1,
    ((roster_eq_of_layers situation none (some ",") true).1 _ hasked _ _ _).1,
    (roster_eq_of_layers { situation with environment := { requireComplete := some "maybe" } } none
      (some ",") true).2.1 (Layers.not_found_of_readFlag? rfl hmaybe)⟩

end Run

end FinalGrades
