import FinalGrades.Event
import FinalGrades.Files
import FinalGrades.Formula.Parser
import FinalGrades.Separator
import FinalGrades.Text.Printable
import FinalGrades.Toml.Fields

/-!
The program's settings: from a file, in the working directory or the home directory, over which
environment variables go.
-/

namespace FinalGrades

structure Settings where
  maxFormulaLength : Nat := 4096
  maxNestingDepth : Nat := 64
  separator : Separator := .dot
  delimiter : Option Char := none
  requireComplete : Bool := true
deriving DecidableEq

/-- Why there are no settings to work with. -/
inductive SettingsError where
  | malformed (error : Toml.FieldError)
  | noFormulaLength
  | noNestingDepth
  | delimiterNotAscii (delimiter : Char)
  | fileNotFound (path : String)
  | unreadable (path : String) (error : FileError)
  | unusable (path : String) (error : SettingsError)
  | separatorVariable (text : String)
  | completeVariable (text : String)
deriving DecidableEq

namespace SettingsError

def message : SettingsError → String
  | .malformed error => error.message
  | .noFormulaLength => "max_formula_length must be at least 1"
  | .noNestingDepth => "max_nesting_depth must be at least 1"
  | .delimiterNotAscii delimiter =>
    s!"csv_delimiter must be a single ASCII character (got '{delimiter}')"
  | .fileNotFound path => s!"config file not found: {path}"
  | .unreadable path error => s!"failed to read config: {path}: {error.message}"
  | .unusable path error => s!"failed to parse config: {path}: {error.message}"
  | .separatorVariable text =>
    s!"GRADEBOOK_DECIMAL_SEPARATOR: {Separator.misfitMessage text}"
  | .completeVariable text => s!"GRADEBOOK_REQUIRE_COMPLETE: invalid value '{text}'"

end SettingsError

/-- The environment variables that matter. -/
structure Environment where
  separator : Option String := none
  requireComplete : Option String := none
  home : Option String := none

namespace Settings

def limits (settings : Settings) : Limits :=
  ⟨settings.maxFormulaLength, settings.maxNestingDepth⟩

/-- The delimiter that cannot be taken for the decimal separator. -/
def defaultDelimiter (separator : Separator) : Char :=
  match separator with
  | .comma => ';'
  | .dot => ','

def effectiveDelimiter (settings : Settings) : Char :=
  settings.delimiter.getD (defaultDelimiter settings.separator)

def readFields (text : String) : Except Toml.FieldError Settings := do
  let fields ← Toml.Fields.ofText text
  let base : Settings := {}
  return {
    maxFormulaLength :=
      (← fields.optional "max_formula_length" Toml.count).getD base.maxFormulaLength
    maxNestingDepth :=
      (← fields.optional "max_nesting_depth" Toml.count).getD base.maxNestingDepth
    separator := (← fields.optional "decimal_separator"
      (Toml.choice [("dot", .dot), ("comma", .comma)])).getD base.separator
    delimiter := ← fields.optional "csv_delimiter" Toml.character
    requireComplete :=
      (← fields.optional "require_complete" Toml.boolean).getD base.requireComplete }

/-- Settings from the text of a file, which must leave room for a formula. -/
def read (text : String) : Except SettingsError Settings :=
  match readFields text with
  | .error error => .error (.malformed error)
  | .ok settings =>
    if settings.maxFormulaLength < 1 then .error .noFormulaLength
    else if settings.maxNestingDepth < 1 then .error .noNestingDepth
    else match settings.delimiter with
      | some delimiter =>
        if delimiter.toNat < 128 then .ok settings else .error (.delimiterNotAscii delimiter)
      | none => .ok settings

def fileName : String := "gradebook.toml"

/-- Where settings are looked for, the first place first: here, and at home. -/
def places (environment : Environment) : List String :=
  fileName :: (environment.home.map fun home =>
    joinPath (joinPath (joinPath home ".config") "gradebook") "config.toml").toList

/-- The settings file: the one that is asked for, else the first one there is. -/
def file? (files : FileTree) (environment : Environment) (asked : Option String) :
    Except SettingsError (Option String) :=
  match asked with
  | some path => if files.exists? path then .ok (some path) else .error (.fileNotFound path)
  | none => .ok ((places environment).find? files.exists?)

def readFile (files : FileTree) (path : String) : Except SettingsError Settings :=
  match files.readText path with
  | .error error => .error (.unreadable path error)
  | .ok text =>
    match read text with
    | .ok settings => .ok settings
    | .error error => .error (.unusable path error)

def readFlag? (text : String) : Option Bool :=
  match Text.lower (Text.trim text) with
  | "1" | "true" | "yes" | "on" => some true
  | "0" | "false" | "no" | "off" => some false
  | _ => none

/-- Puts the environment variables that are set over the settings. -/
def override (settings : Settings) (environment : Environment) : Except SettingsError Settings := do
  let separator ← match environment.separator with
    | none => pure settings.separator
    | some text =>
      match Separator.read text with
      | .ok separator => pure separator
      | .error misfit => throw (.separatorVariable misfit)
  let requireComplete ← match environment.requireComplete with
    | none => pure settings.requireComplete
    | some text =>
      match readFlag? text with
      | some flag => pure flag
      | none => throw (.completeVariable text)
  return { settings with separator, requireComplete }

/-- The settings in force, without a file the default ones. -/
def load (files : FileTree) (environment : Environment) (asked : Option String) :
    Except SettingsError Settings := do
  let settings ← match ← file? files environment asked with
    | some path => readFile files path
    | none => pure {}
  settings.override environment

end Settings

/-- What an export depends on. -/
structure ExportOptions where
  separator : Separator
  delimiter : Char
  requireComplete : Bool
  limits : Limits
deriving DecidableEq

namespace ExportOptions

/-- The options for settings; in place of a delimiter beyond ASCII stands the default one. -/
def ofSettings (settings : Settings) : ExportOptions :=
  { separator := settings.separator
    delimiter :=
      if settings.effectiveDelimiter.toNat < 128 then settings.effectiveDelimiter
      else Settings.defaultDelimiter settings.separator
    requireComplete := settings.requireComplete
    limits := settings.limits }

/-- A warning for a delimiter that is not used. -/
def events (settings : Settings) : List Event :=
  match settings.delimiter with
  | some delimiter =>
    if delimiter.toNat < 128 then []
    else
      [⟨.warn, s!"csv_delimiter Some({Text.quoted delimiter}) is not ASCII, using " ++
        s!"'{Settings.defaultDelimiter settings.separator}'"⟩]
  | none => []

end ExportOptions

end FinalGrades
