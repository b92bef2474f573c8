/-!
What the words of a command line ask for. Options are given by their long names, each at most once
unless it may be repeated; anything else on the line is refused.
-/

namespace FinalGrades

inductive Command where
  | build (components mode : String) (weights : Option String)
  | check (course : String)
  | preview (formula : String) (grades : List String)
  | roster (course format : String) (output decimal : Option String) (allowIncomplete : Bool)
      (settings : Option String)
  | init
deriving DecidableEq

inductive Request where
  | perform (command : Command)
  | showVersion
  | showHelp
  | refuse
deriving DecidableEq

/-- What an option takes: nothing, a text, or a path, which may not be empty. -/
inductive OptionKind where
  | flag
  | text
  | path
deriving DecidableEq

structure OptionRule where
  name : String
  kind : OptionKind
  repeatable : Bool := false

namespace Request

/-- The options of a command line so far, with their values, or the help that was asked for. -/
inductive Scan where
  | options (given : List (String × String))
  | help
  | misfit
deriving DecidableEq

/-- Splits `--name=value` after its two dashes. -/
def splitOption (text : List Char) : String × Option String :=
  match text.dropWhile (· != '=') with
  | [] => (String.ofList text, none)
  | _ :: value => (String.ofList (text.takeWhile (· != '=')), some (String.ofList value))

/-- A word after an option that cannot be its value, since it looks like an option. -/
def looksLikeOption (word : String) : Bool :=
  match word.toList with
  | '-' :: _ :: _ => true
  | _ => false

def acceptable (rule : OptionRule) (given : List (String × String)) (value : String) : Bool :=
  (rule.kind != .path || !value.isEmpty) &&
    (rule.repeatable || !(given.any fun option => option.1 == rule.name))

/-- Reads options from the left, after those that are given already. -/
def scan (rules : List OptionRule) (given : List (String × String)) : List String → Scan
  | [] => .options given
  | ["--"] => .options given
  | word :: rest =>
    match word.toList with
    | '-' :: '-' :: name =>
      let (name, attached) := splitOption name
      if name = "help" ∧ attached.isNone then .help
      else match rules.find? (·.name == name) with
        | none => .misfit
        | some rule =>
          if rule.kind = .flag then
            if attached.isNone ∧ acceptable rule given "" then
              scan rules (given ++ [(name, "")]) rest
            else .misfit
          else match attached, rest with
            | some value, rest =>
              if acceptable rule given value then scan rules (given ++ [(name, value)]) rest
              else .misfit
            | none, value :: rest =>
              if !looksLikeOption value ∧ acceptable rule given value then
                scan rules (given ++ [(name, value)]) rest
              else .misfit
            | none, [] => .misfit
    | '-' :: 'h' :: _ => .help
    | _ => .misfit

def value? (given : List (String × String)) (name : String) : Option String := given.lookup name

def values (given : List (String × String)) (name : String) : List String :=
  given.filterMap fun option => if option.1 = name then some option.2 else none

/-- The command that the options make up, if those that it needs are there. -/
def complete (rules : List OptionRule) (words : List String)
    (make : List (String × String) → Option Command) : Request :=
  match scan rules [] words with
  | .help => .showHelp
  | .misfit => .refuse
  | .options given =>
    match make given with
    | some command => .perform command
    | none => .refuse

/-- What help can be asked for by name. -/
def topics : List String := ["build", "check", "preview", "roster", "init", "help"]

def ofWords : List String → Request
  | [] => .refuse
  | "build" :: words =>
    complete [⟨"components", .text, false⟩, ⟨"mode", .text, false⟩, ⟨"weights", .text, false⟩] words
      fun given => do
        return .build (← value? given "components") ((value? given "mode").getD "simple")
          (value? given "weights")
  | "check" :: words =>
    complete [⟨"course", .path, false⟩] words fun given => do
      return .check (← value? given "course")
  | "preview" :: words =>
    complete [⟨"formula", .text, false⟩, ⟨"grade", .text, true⟩] words fun given => do
      return .preview (← value? given "formula") (values given "grade")
  | "roster" :: words =>
    complete [⟨"course", .path, false⟩, ⟨"format", .text, false⟩, ⟨"output", .path, false⟩,
        ⟨"decimal", .text, false⟩, ⟨"allow-incomplete", .flag, false⟩, ⟨"config", .path, false⟩]
      words fun given => do
        return .roster (← value? given "course") ((value? given "format").getD "table")
          (value? given "output") (value? given "decimal")
          (value? given "allow-incomplete").isSome (value? given "config")
  | "init" :: words => complete [] words fun _ => some .init
  | ["help"] => .showHelp
  | ["help", topic] => if topics.contains topic then .showHelp else .refuse
  | "help" :: _ => .refuse
  | word :: _ =>
    if word = "--help" then .showHelp
    else if word = "--version" then .showVersion
    else match word.toList with
      | '-' :: 'h' :: _ => .showHelp
      | '-' :: 'V' :: _ => .showVersion
      | _ => .refuse

end Request

end FinalGrades
