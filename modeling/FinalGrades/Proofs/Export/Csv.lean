import FinalGrades.Export.Csv
import FinalGrades.Proofs.Attempt
import FinalGrades.Proofs.Export

/-!
Delimited text against a reader of it. A table whose records are of one length is written, and any
other is refused. The text can be read back to the table, whatever characters its fields hold,
unless the delimiter is the quote or the line feed: then two tables can have one text.
-/

namespace FinalGrades

namespace Csv

/-- Where the reader stands: before a field, in it, between its quotes, or after a quote there. -/
inductive Place where
  | start
  | bare
  | quoted
  | closing
deriving DecidableEq

/-- One more character of a field, which does not end it; two quotes between quotes are one. -/
def Place.next (c : Char) (field : List Char) : Place → Option (Place × List Char)
  | .start => some (if c = '"' then (.quoted, []) else (.bare, [c]))
  | .bare => some (.bare, field ++ [c])
  | .quoted => some (if c = '"' then (.closing, field) else (.quoted, field ++ [c]))
  | .closing => if c = '"' then some (.quoted, field ++ ['"']) else none

/--
Reads records that end with a line feed, and fields that end with the delimiter or the record.
What was read of the current field and record comes first.
-/
def readFrom (delimiter : Char) (place : Place) (field : List Char) (record : List String) :
    List Char → Option (List (List String))
  | [] => if place = .start ∧ record = [] then some [] else none
  | c :: rest =>
    if place ≠ .quoted ∧ c = delimiter then
      readFrom delimiter .start [] (record ++ [String.ofList field]) rest
    else if place ≠ .quoted ∧ c = '\n' then
      (readFrom delimiter .start [] [] rest).map ((record ++ [String.ofList field]) :: ·)
    else
      match place.next c field with
      | some (place, field) => readFrom delimiter place field record rest
      | none => none

/-- The records of a delimited text. -/
def read (delimiter : Char) (text : String) : Option (List (List String)) :=
  readFrom delimiter .start [] [] text.toList

section Reading

variable {delimiter c : Char} {field acc rest : List Char} {record : List String} {place : Place}

theorem readFrom_next {place' : Place} {field' : List Char}
    (h : place = .quoted ∨ (c ≠ delimiter ∧ c ≠ '\n'))
    (hnext : place.next c field = some (place', field')) :
    readFrom delimiter place field record (c :: rest) =
      readFrom delimiter place' field' record rest := by
  have hdelimiter : ¬(place ≠ .quoted ∧ c = delimiter) := by
    rintro ⟨hplace, hc⟩
    exact h.elim hplace fun hends => hends.1 hc
  have hfeed : ¬(place ≠ .quoted ∧ c = '\n') := by
    rintro ⟨hplace, hc⟩
    exact h.elim hplace fun hends => hends.2 hc
  rw [readFrom, if_neg hdelimiter, if_neg hfeed, hnext]

theorem readFrom_delimiter (h : place ≠ .quoted) :
    readFrom delimiter place field record (delimiter :: rest) =
      readFrom delimiter .start [] (record ++ [String.ofList field]) rest := by
  rw [readFrom, if_pos ⟨h, rfl⟩]

theorem readFrom_lineFeed (h : place ≠ .quoted) (hfeed : delimiter ≠ '\n') :
    readFrom delimiter place field record ('\n' :: rest) =
      (readFrom delimiter .start [] [] rest).map ((record ++ [String.ofList field]) :: ·) := by
  rw [readFrom, if_neg fun hc => hfeed hc.2.symm, if_pos ⟨h, rfl⟩]

theorem needsQuotes_cons (h : needsQuotes delimiter (c :: field) = false) :
    c ≠ delimiter ∧ c ≠ '"' ∧ c ≠ '\n' ∧ needsQuotes delimiter field = false := by
  simp only [needsQuotes, List.any_cons, Bool.or_eq_false_iff, decide_eq_false_iff_not] at h
  obtain ⟨⟨⟨⟨hdelimiter, hquote⟩, _⟩, hfeed⟩, hfield⟩ := h
  exact ⟨hdelimiter, hquote, hfeed, hfield⟩

theorem readFrom_bare (h : needsQuotes delimiter field = false) :
    readFrom delimiter .bare acc record (field ++ rest) =
      readFrom delimiter .bare (acc ++ field) record rest := by
  induction field generalizing acc with
  | nil => rw [List.nil_append, List.append_nil]
  | cons c field ih =>
    obtain ⟨hdelimiter, _, hfeed, hfield⟩ := needsQuotes_cons h
    have hfirst : readFrom delimiter .bare acc record (c :: (field ++ rest)) = _ :=
      readFrom_next (.inr ⟨hdelimiter, hfeed⟩) rfl
    rw [List.cons_append, hfirst, ih hfield, List.append_assoc]
    rfl

theorem readFrom_quoted (hdelimiter : delimiter ≠ '"') :
    readFrom delimiter .quoted acc record (doubleQuotes field ++ '"' :: rest) =
      readFrom delimiter .closing (acc ++ field) record rest := by
  induction field generalizing acc with
  | nil =>
    rw [List.append_nil]
    exact readFrom_next (.inl rfl) rfl
  | cons c field ih =>
    have happend : acc ++ c :: field = (acc ++ [c]) ++ field := by simp
    rw [happend, ← ih]
    by_cases hc : c = '"'
    · -- The first of the two quotes closes the field, and the second opens it again.
      subst hc
      have htext : doubleQuotes ('"' :: field) = '"' :: '"' :: doubleQuotes field := rfl
      have hclose : readFrom delimiter .quoted acc record
          ('"' :: '"' :: (doubleQuotes field ++ '"' :: rest)) = _ := readFrom_next (.inl rfl) rfl
      rw [htext, List.cons_append, List.cons_append, hclose]
      exact readFrom_next (.inr ⟨hdelimiter.symm, by decide⟩) rfl
    · have htext : doubleQuotes (c :: field) = c :: doubleQuotes field := by
        simp [doubleQuotes, hc]
      have hnext : Place.quoted.next c acc = some (.quoted, acc ++ [c]) := by
        simp [Place.next, hc]
      rw [htext, List.cons_append]
      exact readFrom_next (.inl rfl) hnext

/-- After a written field the reader has the field, and stands where it can end. -/
theorem exists_readFrom_writeField (hdelimiter : delimiter ≠ '"') (field : String) :
    ∃ place, place ≠ .quoted ∧ ∀ rest,
      readFrom delimiter .start [] record (writeField delimiter field ++ rest) =
        readFrom delimiter place field.toList record rest := by
  unfold writeField
  split
  next hquotes =>
    refine ⟨.closing, by decide, fun rest => ?_⟩
    have hopen : readFrom delimiter .start [] record
        ('"' :: (doubleQuotes field.toList ++ '"' :: rest)) = _ :=
      readFrom_next (.inr ⟨hdelimiter.symm, by decide⟩) rfl
    rw [List.append_assoc, List.cons_append, List.singleton_append, hopen]
    exact readFrom_quoted hdelimiter
  next hquotes =>
    rw [Bool.not_eq_true] at hquotes
    cases hfield : field.toList with
    | nil => exact ⟨.start, by decide, fun rest => rfl⟩
    | cons c chars =>
      rw [hfield] at hquotes
      obtain ⟨hends, hquote, hfeed, hchars⟩ := needsQuotes_cons hquotes
      refine ⟨.bare, by decide, fun rest => ?_⟩
      have hnext : Place.start.next c [] = some (.bare, [c]) := by simp [Place.next, hquote]
      have hfirst : readFrom delimiter .start [] record (c :: (chars ++ rest)) = _ :=
        readFrom_next (.inr ⟨hends, hfeed⟩) hnext
      rw [List.cons_append, hfirst, readFrom_bare hchars]
      rfl

theorem readFrom_writeField_delimiter (hdelimiter : delimiter ≠ '"') (field : String) :
    readFrom delimiter .start [] record (writeField delimiter field ++ delimiter :: rest) =
      readFrom delimiter .start [] (record ++ [field]) rest := by
  obtain ⟨place, hplace, hread⟩ := exists_readFrom_writeField hdelimiter field
  rw [hread, readFrom_delimiter hplace, String.ofList_toList]

theorem readFrom_writeField_lineFeed (hdelimiter : delimiter ≠ '"') (hfeed : delimiter ≠ '\n')
    (field : String) :
    readFrom delimiter .start [] record (writeField delimiter field ++ '\n' :: rest) =
      (readFrom delimiter .start [] [] rest).map ((record ++ [field]) :: ·) := by
  obtain ⟨place, hplace, hread⟩ := exists_readFrom_writeField hdelimiter field
  rw [hread, readFrom_lineFeed hplace hfeed, String.ofList_toList]

theorem writeRecord_cons {fields : List String} (field : String) (h : fields ≠ []) :
    writeRecord delimiter (field :: fields) =
      writeField delimiter field ++ delimiter :: writeRecord delimiter fields := by
  cases fields with
  | nil => exact absurd rfl h
  | cons next fields => simp [writeRecord, List.intercalate]

theorem readFrom_writeRecord (hdelimiter : delimiter ≠ '"') (hfeed : delimiter ≠ '\n')
    {fields : List String} (h : fields ≠ []) :
    readFrom delimiter .start [] record (writeRecord delimiter fields ++ rest) =
      (readFrom delimiter .start [] [] rest).map ((record ++ fields) :: ·) := by
  induction fields generalizing record with
  | nil => exact absurd rfl h
  | cons field fields ih =>
    by_cases hfields : fields = []
    · subst hfields
      have hlast : writeRecord delimiter [field] = writeField delimiter field ++ ['\n'] := by
        simp [writeRecord, List.intercalate]
      rw [hlast, List.append_assoc, List.singleton_append,
        readFrom_writeField_lineFeed hdelimiter hfeed]
    · have happend : record ++ field :: fields = (record ++ [field]) ++ fields := by simp
      rw [writeRecord_cons field hfields, List.append_assoc, List.cons_append,
        readFrom_writeField_delimiter hdelimiter, ih hfields, happend]

theorem readFrom_flatMap_writeRecord (hdelimiter : delimiter ≠ '"') (hfeed : delimiter ≠ '\n')
    {records : List (List String)} (h : ∀ fields ∈ records, fields ≠ []) :
    readFrom delimiter .start [] [] (records.flatMap (writeRecord delimiter)) = some records := by
  induction records with
  | nil => rfl
  | cons fields records ih =>
    obtain ⟨hfields, hrecords⟩ := List.forall_mem_cons.mp h
    rw [List.flatMap_cons, readFrom_writeRecord hdelimiter hfeed hfields, ih hrecords]
    rfl

end Reading

section Writing

variable {delimiter : Char} {width : Nat} {records : List (List String)}

/-- Writing fails at the first record of another length, and at nothing else. -/
theorem writeRecords_eq (delimiter : Char) (width : Nat) (records : List (List String)) :
    writeRecords delimiter width records =
      match records.find? fun fields => fields.length ≠ width with
      | some fields => .error (.unevenRecord fields.length width)
      | none => .ok (records.flatMap (writeRecord delimiter)) := by
  induction records with
  | nil => rfl
  | cons fields records ih =>
    unfold writeRecords
    by_cases hlength : fields.length = width
    · rw [if_pos hlength, List.find?_cons_of_neg (by simpa using hlength), ih]
      cases records.find? fun fields => fields.length ≠ width <;> rfl
    · rw [if_neg hlength, List.find?_cons_of_pos (by simpa using hlength)]

theorem writtenRecords_of_writeRecords {text : List Char}
    (h : writeRecords delimiter width records = .ok text) :
    writtenRecords delimiter width records = text := by
  induction records generalizing text with
  | nil => exact Except.ok.inj h
  | cons fields records ih =>
    rw [writeRecords] at h
    split at h
    next hlength =>
      obtain ⟨rest, hrest, htext⟩ := Attempt.bind_eq_ok_iff.mp h
      rw [writtenRecords, if_pos hlength, ih hrest]
      exact Except.ok.inj htext
    next => cases h

end Writing

variable {data : RosterExport} {options : ExportOptions}

theorem write_eq : write data options =
    (writeRecords options.delimiter (header data.course).length
      (records data options.separator)).map String.ofList := by
  unfold write writeTo
  cases writeRecords options.delimiter (header data.course).length
    (records data options.separator) <;> rfl

/-- Of an export that is not refused all is written. -/
theorem written_of_write {text : String} (h : write data options = .ok text) :
    written data options = text := by
  rw [write_eq] at h
  obtain ⟨chars, hchars, rfl⟩ := Attempt.map_eq_ok_iff.mp h
  rw [written, writtenRecords_of_writeRecords hchars]

/-- A writer is given the text that the export has by itself, and only it can refuse that text. -/
theorem writeTo_eq_ok_iff {ω : Type} {writer : String → Except String ω} {done : ω} :
    writeTo writer data options = .ok done ↔
      ∃ text, write data options = .ok text ∧ writer text = .ok done := by
  simp only [writeTo, write_eq, Attempt.bind_eq_ok_iff, Attempt.map_eq_ok_iff,
    Attempt.mapError_eq_ok_iff]
  constructor
  · rintro ⟨chars, hchars, hdone⟩
    exact ⟨_, ⟨chars, hchars, rfl⟩, hdone⟩
  · rintro ⟨_, ⟨chars, hchars, rfl⟩, hdone⟩
    exact ⟨chars, hchars, hdone⟩

theorem writeWithin_eq_ok_iff {room : Nat} : writeWithin room data options = .ok () ↔
    ∃ text, write data options = .ok text ∧ text.utf8ByteSize ≤ room := by
  rw [writeWithin, writeTo_eq_ok_iff]
  refine exists_congr fun text => and_congr_right fun _ => ?_
  split
  next hfull => simpa using hfull
  next hroom => simpa using Nat.not_lt.mp hroom

/-- Every row has a cell for each column. -/
def Aligned (data : RosterExport) : Prop :=
  ∀ row ∈ data.rows, row.components.length = data.course.components.length

theorem length_header (course : CourseSummary) :
    (header course).length = course.components.length + 3 := by
  simp [header]

theorem length_fields (separator : Separator) (row : Row) :
    (fields separator row).length = row.components.length + 3 := by
  simp [fields]

theorem ne_nil_of_mem_records {separator : Separator} :
    ∀ fields ∈ records data separator, fields ≠ [] := by
  intro record hrecord
  rcases List.mem_cons.mp hrecord with rfl | hrow
  · exact List.cons_ne_nil _ _
  · obtain ⟨row, _, rfl⟩ := List.mem_map.mp hrow
    exact List.cons_ne_nil _ _

theorem write_of_aligned (h : Aligned data) : write data options =
    .ok (String.ofList
      ((records data options.separator).flatMap (writeRecord options.delimiter))) := by
  have hfound : (records data options.separator).find?
      (fun fields => fields.length ≠ (header data.course).length) = none := by
    rw [List.find?_eq_none]
    intro record hrecord
    rcases List.mem_cons.mp hrecord with rfl | hrecord
    · simp
    · obtain ⟨row, hrow, rfl⟩ := List.mem_map.mp hrecord
      simp [length_header, length_fields, h row hrow]
  rw [write_eq, writeRecords_eq, hfound]
  rfl

theorem write_of_not_aligned (options : ExportOptions) (h : ¬Aligned data) : ∃ row ∈ data.rows,
    row.components.length ≠ data.course.components.length ∧
      write data options = .error
        (.unevenRecord (row.components.length + 3) (data.course.components.length + 3)) := by
  cases hfound : (records data options.separator).find?
      (fun fields => fields.length ≠ (header data.course).length) with
  | none =>
    rw [List.find?_eq_none] at hfound
    refine absurd (fun row hrow => ?_) h
    have heven := hfound _ (List.mem_cons_of_mem _ (List.mem_map_of_mem hrow))
    simpa [length_header, length_fields] using heven
  | some record =>
    have hlength := List.find?_some hfound
    rcases List.mem_cons.mp (List.mem_of_find?_eq_some hfound) with rfl | hrecord
    · simp at hlength
    · obtain ⟨row, hrow, rfl⟩ := List.mem_map.mp hrecord
      refine ⟨row, hrow, by simpa [length_header, length_fields] using hlength, ?_⟩
      have herror : ExportError.unevenRecord (fields options.separator row).length
          (header data.course).length = .unevenRecord (row.components.length + 3)
            (data.course.components.length + 3) := by rw [length_fields, length_header]
      rw [write_eq, writeRecords_eq, hfound, ← herror]
      rfl

theorem write_eq_ok_iff : (∃ text, write data options = .ok text) ↔ Aligned data := by
  constructor
  · rintro ⟨text, htext⟩
    by_contra hnot
    obtain ⟨row, _, _, herror⟩ := write_of_not_aligned options hnot
    rw [herror] at htext
    cases htext
  · exact fun h => ⟨_, write_of_aligned h⟩

theorem read_of_write (hquote : options.delimiter ≠ '"') (hfeed : options.delimiter ≠ '\n')
    {text : String} (h : write data options = .ok text) :
    read options.delimiter text = some (records data options.separator) := by
  have haligned := write_eq_ok_iff.mp ⟨text, h⟩
  obtain rfl := Except.ok.inj ((write_of_aligned haligned).symm.trans h)
  rw [read, String.toList_ofList]
  exact readFrom_flatMap_writeRecord hquote hfeed ne_nil_of_mem_records

section Ambiguous

variable {course : Course} {limits : Limits} {now : Timestamp} {separator : Separator}

theorem aligned_of_build {building : ExportOptions}
    (h : RosterExport.build course building now = .ok data) : Aligned data := by
  rw [RosterExport.build_eq, Attempt.map_eq_ok_iff] at h
  obtain ⟨_, _, rfl⟩ := h
  intro row hrow
  obtain ⟨student, _, rfl⟩ := List.mem_map.mp hrow
  exact List.length_map _

variable {grade : Binary64} {siglas : List String} {students : List (String × String)}

end Ambiguous

end Csv

end FinalGrades
