import FinalGrades.Number.Arithmetic

/-!
TOML values and tables. A table remembers how it came about, which decides what may be added to
it later; an array or a table written in braces is closed.
-/

namespace FinalGrades.Toml

/-- A table may be opened by its own header, by the header of a table in it, or by a dotted key. -/
inductive Origin where
  | header
  | inner
  | dotted
deriving DecidableEq

inductive Item where
  | text (value : String)
  | integer (value : Int)
  | float (value : Binary64)
  | boolean (value : Bool)
  | dateTime
  | array (items : List Item)
  | braces (entries : List (String × Item))
  | table (origin : Origin) (entries : List (String × Item))
  | tables (elements : List (List (String × Item)))

abbrev Entries := List (String × Item)

namespace Item

/-- The entries of a table of either form. -/
def entries? : Item → Option Entries
  | .braces entries | .table _ entries => some entries
  | _ => none

/-- The elements of an array, be it of values or of tables. -/
def elements? : Item → Option (List Item)
  | .array items => some items
  | .tables elements => some (elements.map (.table .header))
  | _ => none

end Item

namespace Entries

/-- Replaces the value of a key, or adds the key at the end. -/
def put (key : String) (item : Item) : Entries → Entries
  | [] => [(key, item)]
  | (name, old) :: rest =>
    if name = key then (name, item) :: rest else (name, old) :: put key item rest

/--
Applies `change` to the table at a path of headers: missing tables are added, and of an array of
tables the last is meant.
-/
def atHeader (change : Entries → Option Entries) (entries : Entries) :
    List String → Option Entries
  | [] => change entries
  | key :: path =>
    match entries.lookup key with
    | none => do return put key (.table .inner (← atHeader change [] path)) entries
    | some (.table origin inside) => do
      return put key (.table origin (← atHeader change inside path)) entries
    | some (.tables elements) =>
      match elements.getLast? with
      | none => none
      | some last => do
        return put key (.tables (elements.dropLast ++ [← atHeader change last path])) entries
    | some _ => none

/--
Puts a new value at a dotted key. Only a table that dotted keys have made may be extended so; on
the way to it there may be tables without a header of their own and arrays of tables.
-/
def assign (key : String) (path : List String) (item : Item) (entries : Entries) :
    Option Entries :=
  match path with
  | [] => if (entries.lookup key).isSome then none else some (entries ++ [(key, item)])
  | next :: path =>
    match entries.lookup key with
    | none => do return put key (.table .dotted (← assign next path item [])) entries
    | some (.table origin inside) =>
      if origin = .dotted ∨ (origin = .inner ∧ !path.isEmpty) then do
        return put key (.table origin (← assign next path item inside)) entries
      else none
    | some (.tables elements) =>
      match path, elements.getLast? with
      | [], _ | _, none => none
      | further :: path, some last => do
        let extended ← assign next (further :: path) item last
        return put key (.tables (elements.dropLast ++ [extended])) entries
    | some _ => none
termination_by path.length

/-- Opens a table by its header, which may be done once and not after a dotted key did. -/
def openTable (key : String) (entries : Entries) : Option Entries :=
  match entries.lookup key with
  | none => some (entries ++ [(key, .table .header [])])
  | some (.table .inner inside) => some (put key (.table .header inside) entries)
  | some _ => none

/-- Adds an empty table to an array of tables. -/
def openElement (key : String) (entries : Entries) : Option Entries :=
  match entries.lookup key with
  | none => some (entries ++ [(key, .tables [[]])])
  | some (.tables elements) => some (put key (.tables (elements ++ [[]])) entries)
  | some _ => none

end Entries

end FinalGrades.Toml
