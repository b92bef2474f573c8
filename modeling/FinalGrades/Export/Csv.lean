import FinalGrades.Display
import FinalGrades.Export

/-!
Exports as delimited text: a header and a line for every row. A field that holds the delimiter,
a quote or a line end is quoted, and quotes in it are doubled.
-/

namespace FinalGrades.Csv

def needsQuotes (delimiter : Char) (field : List Char) : Bool :=
  field.any fun c => c = delimiter || c = '"' || c = '\r' || c = '\n'

def doubleQuotes (field : List Char) : List Char :=
  field.flatMap fun c => if c = '"' then ['"', '"'] else [c]

def writeField (delimiter : Char) (field : String) : List Char :=
  if needsQuotes delimiter field.toList then '"' :: doubleQuotes field.toList ++ ['"']
  else field.toList

/-- Fields with a delimiter between them and a line feed at the end. -/
def writeRecord (delimiter : Char) (fields : List String) : List Char :=
  [delimiter].intercalate (fields.map (writeField delimiter)) ++ ['\n']

/-- Records that all have as many fields as the first. -/
def writeRecords (delimiter : Char) (width : Nat) :
    List (List String) → Except ExportError (List Char)
  | [] => .ok []
  | fields :: rest =>
    if fields.length = width then do
      return writeRecord delimiter fields ++ (← writeRecords delimiter width rest)
    else .error (.unevenRecord fields.length width)

def header (course : CourseSummary) : List String :=
  "student_id" :: "name" :: course.components ++ ["final"]

def fields (separator : Separator) (row : Row) : List String :=
  row.studentId :: row.name.getD "" :: row.components.map (Display.component · separator) ++
    [Display.grade row.finalGrade separator]

/-- The header and the rows of an export. -/
def records (data : RosterExport) (separator : Separator) : List (List String) :=
  header data.course :: data.rows.map (fields separator)

/-- Hands an export, in one piece, to a writer that may refuse it. -/
def writeTo {ω : Type} (writer : String → Except String ω) (data : RosterExport)
    (options : ExportOptions) : Except ExportError ω := do
  let text ← writeRecords options.delimiter (header data.course).length
    (records data options.separator)
  (writer (String.ofList text)).mapError .notWritten

/-- The text of an export, whose writer takes everything. -/
def write (data : RosterExport) (options : ExportOptions) : Except ExportError String :=
  writeTo .ok data options

/-- Writes an export to a place with room for so many bytes. -/
def writeWithin (room : Nat) (data : RosterExport) (options : ExportOptions) :
    Except ExportError Unit :=
  writeTo (fun text => if room < text.utf8ByteSize then .error "disk full" else .ok ()) data options

/-- A field up to its end; the closing quote comes with what follows the field. -/
def openField (delimiter : Char) (field : String) : List Char :=
  if needsQuotes delimiter field.toList then '"' :: doubleQuotes field.toList else field.toList

/-- A record up to the end of its last field. -/
def openRecord (delimiter : Char) : List String → List Char
  | [] => []
  | [field] => openField delimiter field
  | field :: rest => writeField delimiter field ++ delimiter :: openRecord delimiter rest

/-- What is written of records: the first one of another length is the last, and is left open. -/
def writtenRecords (delimiter : Char) (width : Nat) : List (List String) → List Char
  | [] => []
  | fields :: rest =>
    if fields.length = width then
      writeRecord delimiter fields ++ writtenRecords delimiter width rest
    else openRecord delimiter fields

/-- What is written of an export, whether or not a record of it is refused. -/
def written (data : RosterExport) (options : ExportOptions) : String :=
  String.ofList (writtenRecords options.delimiter (header data.course).length
    (records data options.separator))

end FinalGrades.Csv
