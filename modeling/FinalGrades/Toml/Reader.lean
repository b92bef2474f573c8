import FinalGrades.Text.Taken
import FinalGrades.Toml.Scalar

/-!
Reading a TOML document, version 1.0: its lines become statements, and the statements in order
build up the table of the whole document.
-/

namespace FinalGrades.Toml

open Text (Taken length_dropWhile_le length_drop_le length_lt_of_eq)

/-- Values may nest to this depth, and dotted keys have fewer parts than this. -/
def depthLimit : Nat := 80

def isSpace (c : Char) : Bool := c = ' ' || c = '\t'

/-- Everything but control characters other than the tab. -/
def isTextChar (c : Char) : Bool := c = '\t' || (0x20 ≤ c.toNat && c.toNat ≠ 0x7F)

def isBareKeyChar (c : Char) : Bool := c.isAlphanum || c = '_' || c = '-'

def isScalarChar (c : Char) : Bool :=
  c.isAlphanum || c = '_' || c = '-' || c = '+' || c = '.' || c = ':'

def skipSpaces (text : List Char) : List Char := text.dropWhile isSpace

theorem length_skipSpaces_le (text : List Char) : (skipSpaces text).length ≤ text.length :=
  length_dropWhile_le _ _

theorem length_lt_of_skipSpaces {text rest : List Char} {c : Char}
    (h : skipSpaces text = c :: rest) : rest.length < text.length :=
  Nat.lt_of_lt_of_le (length_lt_of_eq h) (length_skipSpaces_le text)

/-- A line feed, with or without a carriage return before it. -/
def newline (text : List Char) : Option (Taken Unit text) :=
  match text with
  | '\n' :: _ => some (.one ())
  | '\r' :: '\n' :: _ => some (.after (.one ()))
  | _ => none

/-- The characters with an escape of one letter or sign. -/
def escapeImage? : Char → Option Char
  | 'b' => some '\x08'
  | 't' => some '\t'
  | 'n' => some '\n'
  | 'f' => some '\x0c'
  | 'r' => some '\r'
  | '"' => some '"'
  | '\\' => some '\\'
  | _ => none

/-- The character that an escape stands for, after its backslash. -/
def escape (text : List Char) : Option (Taken Char text) :=
  match text with
  | [] => none
  | c :: rest =>
    if c = 'u' ∨ c = 'U' then
      let digits := rest.take (if c = 'u' then 4 else 8)
      let code := valueIn 16 digits
      if digits.length = (if c = 'u' then 4 else 8) ∧ digits.all isHexDigit ∧ code.isValidChar then
        some (.upTo (Char.ofNat code) (rest.drop digits.length) (length_drop_le _ _))
      else none
    else (escapeImage? c).map .one

/-- The rest of a string in double quotes. -/
def basicString (text : List Char) : Option (Taken (List Char) text) :=
  match text with
  | [] => none
  | '"' :: _ => some (.one [])
  | '\\' :: rest => do
    let c ← escape rest
    let more ← basicString c.rest
    some (c.andThen (more.map (c.value :: ·))).after
  | c :: rest => do
    if isTextChar c then
      let more ← basicString rest
      some (more.map (c :: ·)).after
    else none
termination_by text.length
decreasing_by
  · exact Nat.lt_succ_of_lt c.shorter
  · exact Nat.lt_succ_self _

/-- The rest of a string in single quotes, which has no escapes. -/
def literalString (text : List Char) : Option (Taken (List Char) text) :=
  match text with
  | [] => none
  | '\'' :: _ => some (.one [])
  | c :: rest => do
    if isTextChar c then
      let more ← literalString rest
      some (more.map (c :: ·)).after
    else none

/-- A backslash at the end of a line passes over all blanks and line ends up to the next text. -/
def skipLineEnds (text : List Char) : List Char :=
  match text with
  | [] => []
  | '\r' :: '\n' :: rest => skipLineEnds rest
  | c :: rest => if isSpace c || c = '\n' then skipLineEnds rest else c :: rest

theorem length_skipLineEnds_le (text : List Char) : (skipLineEnds text).length ≤ text.length := by
  fun_induction skipLineEnds text <;> grind

/--
The rest of a string over several lines. Three quotes end it, and up to two more before them
belong to it; every line end counts as a line feed.
-/
def multilineString (quote : Char) (escapes : Bool) (text : List Char) :
    Option (Taken (List Char) text) :=
  match text with
  | [] => none
  | c :: rest =>
    if c = quote then
      match rest with
      | b :: a :: rest' =>
        if b = quote ∧ a = quote then
          let kept := (rest'.take 2).takeWhile (· = quote)
          some (.after (.after (.upTo kept (rest'.drop kept.length) (length_drop_le _ _))))
        else do
          let more ← multilineString quote escapes (b :: a :: rest')
          some (more.map (c :: ·)).after
      | _ => none
    else if c = '\\' ∧ escapes then
      let line := skipSpaces rest
      match newline line with
      | some ended => do
        let more ← multilineString quote escapes (skipLineEnds ended.rest)
        some (Taken.after ((ended.andThen (more.widen (length_skipLineEnds_le _))).widen
          (length_skipSpaces_le rest)))
      | none => do
        let image ← escape rest
        let more ← multilineString quote escapes image.rest
        some (image.andThen (more.map (image.value :: ·))).after
    else match newline (c :: rest) with
      | some ended => do
        let more ← multilineString quote escapes ended.rest
        some (ended.andThen (more.map ('\n' :: ·)))
      | none => do
        if isTextChar c then
          let more ← multilineString quote escapes rest
          some (more.map (c :: ·)).after
        else none
termination_by text.length
decreasing_by
  · exact Nat.lt_succ_self _
  · exact Nat.lt_succ_of_lt (Nat.lt_of_lt_of_le
      (Nat.lt_of_le_of_lt (length_skipLineEnds_le _) ended.shorter) (length_skipSpaces_le rest))
  · exact Nat.lt_succ_of_lt image.shorter
  · exact ended.shorter
  · exact Nat.lt_succ_self _

/-- A line end right after the opening quotes does not belong to the string. -/
def dropFirstNewline (text : List Char) : List Char :=
  match text with
  | '\n' :: rest => rest
  | '\r' :: '\n' :: rest => rest
  | _ => text

theorem length_dropFirstNewline_le (text : List Char) :
    (dropFirstNewline text).length ≤ text.length := by
  unfold dropFirstNewline
  split
  · exact Nat.le_succ _
  · exact Nat.le_add_right _ 2
  · exact Nat.le_refl _

/-- A string of any of the four forms. -/
def string (text : List Char) : Option (Taken (List Char) text) :=
  match text with
  | '"' :: '"' :: '"' :: rest =>
    (multilineString '"' true (dropFirstNewline rest)).map fun taken =>
      (taken.widen (length_dropFirstNewline_le rest)).after.after.after
  | '\'' :: '\'' :: '\'' :: rest =>
    (multilineString '\'' false (dropFirstNewline rest)).map fun taken =>
      (taken.widen (length_dropFirstNewline_le rest)).after.after.after
  | '"' :: rest => (basicString rest).map .after
  | '\'' :: rest => (literalString rest).map .after
  | _ => none

/-- One part of a dotted key: bare, or a string on one line. -/
def simpleKey (text : List Char) : Option (Taken String text) :=
  match text with
  | '"' :: rest => (basicString rest).map fun taken => (taken.map String.ofList).after
  | '\'' :: rest => (literalString rest).map fun taken => (taken.map String.ofList).after
  | c :: rest =>
    if isBareKeyChar c then
      some (.upTo (String.ofList (c :: rest.takeWhile isBareKeyChar))
        (rest.dropWhile isBareKeyChar) (length_dropWhile_le _ _))
    else none
  | [] => none

/-- A key of parts joined by points, with spaces around any of them. -/
def dottedKey (text : List Char) : Option (Taken (List String) text) := do
  let part ← simpleKey (skipSpaces text)
  match _h : skipSpaces part.rest with
  | '.' :: rest => do
    let more ← dottedKey rest
    some (((part.andThen (more.widen (Nat.le_of_lt (length_lt_of_skipSpaces _h)))).map
      (part.value :: ·)).widen (length_skipSpaces_le text))
  | _ =>
    some (Taken.widen ⟨[part.value], skipSpaces part.rest,
      Nat.lt_of_le_of_lt (length_skipSpaces_le _) part.shorter⟩ (length_skipSpaces_le text))
termination_by text.length
decreasing_by
  exact Nat.lt_of_lt_of_le (Nat.lt_trans (length_lt_of_skipSpaces _h) part.shorter)
    (length_skipSpaces_le text)

/-- A key whose parts are fewer than the limit. -/
def key (text : List Char) : Option (Taken (List String) text) := do
  let path ← dottedKey text
  if path.value.length < depthLimit then some path else none

theorem length_lt_of_comment {text rest : List Char} {c : Char}
    (h : text.dropWhile isTextChar = c :: rest) : rest.length < text.length :=
  Nat.lt_of_lt_of_le (length_lt_of_eq h) (length_dropWhile_le isTextChar text)

/-- Spaces, line ends and comments between the elements of an array. -/
def skipTrivia (text : List Char) : Option (List Char) :=
  match text with
  | [] => some []
  | '\n' :: rest => skipTrivia rest
  | '\r' :: '\n' :: rest => skipTrivia rest
  | '\r' :: _ => none
  | '#' :: rest =>
    match _h : rest.dropWhile isTextChar with
    | '\n' :: after => skipTrivia after
    | '\r' :: '\n' :: after => skipTrivia after
    | _ => none
  | c :: rest => if isSpace c then skipTrivia rest else some (c :: rest)
termination_by text.length
decreasing_by
  · exact Nat.lt_succ_self _
  · exact Nat.lt_succ_of_lt (Nat.lt_succ_self _)
  · exact Nat.lt_succ_of_lt (length_lt_of_comment _h)
  · exact Nat.lt_succ_of_lt (Nat.lt_of_succ_lt (length_lt_of_comment _h))
  · exact Nat.lt_succ_self _

theorem length_skipTrivia_le {text rest : List Char} (h : skipTrivia text = some rest) :
    rest.length ≤ text.length := by
  fun_induction skipTrivia text with
  | case1 => cases h; exact Nat.le_refl _
  | case2 rest' ih => exact Nat.le_succ_of_le (ih h)
  | case3 rest' ih => exact Nat.le_succ_of_le (Nat.le_succ_of_le (ih h))
  | case4 => cases h
  | case5 rest' after hd ih =>
    exact Nat.le_succ_of_le (Nat.le_trans (ih h) (Nat.le_of_lt (length_lt_of_comment hd)))
  | case6 rest' after hd ih =>
    have hlt := Nat.lt_of_succ_lt (length_lt_of_comment hd)
    exact Nat.le_succ_of_le (Nat.le_trans (ih h) (Nat.le_of_lt hlt))
  | case7 => cases h
  | case8 c rest' _ _ _ _ _ ih => exact Nat.le_succ_of_le (ih h)
  | case9 => cases h; exact Nat.le_refl _

theorem length_lt_of_skipTrivia {text rest : List Char} {c : Char}
    (h : skipTrivia text = some (c :: rest)) : rest.length < text.length :=
  length_skipTrivia_le h

/-- A scalar: its run of characters, or a date and a time with one space between them. -/
def scalar (text : List Char) : Option (Taken Item text) :=
  match text with
  | [] => none
  | c :: rest =>
    if isScalarChar c then
      let run := c :: rest.takeWhile isScalarChar
      let after := rest.dropWhile isScalarChar
      let alone := (scalar? run).map fun item => Taken.upTo item after (length_dropWhile_le _ _)
      match _h : after with
      | ' ' :: d :: more =>
        if skipDate run = some [] ∧ isDigit d then
          let time := d :: more.takeWhile isScalarChar
          (scalar? (run ++ ' ' :: time)).map fun item =>
            .upTo item (more.dropWhile isScalarChar) (Nat.le_trans (length_dropWhile_le _ _)
              (Nat.le_of_lt (Nat.lt_of_succ_lt
                (Nat.lt_of_lt_of_le (length_lt_of_eq _h) (length_dropWhile_le _ _)))))
        else alone
      | _ => alone
    else none

theorem length_value_le {text rest : List Char} {c : Char} (h : text = c :: rest) :
    (skipSpaces rest).length ≤ text.length :=
  Nat.le_trans (length_skipSpaces_le rest) (Nat.le_of_lt (length_lt_of_eq h))

mutual

/-- A value of any kind; `depth` counts the brackets and braces around it. -/
def value (depth : Nat) (text : List Char) : Option (Taken Item text) :=
  match text with
  | [] => none
  | '[' :: rest =>
    if depthLimit ≤ depth + 1 then none
    else (arrayItems (depth + 1) rest).map fun taken => (taken.map .array).after
  | '\x7b' :: rest =>
    if depthLimit ≤ depth + 1 then none
    else match _h : skipSpaces rest with
      | '\x7d' :: after =>
        some (.upTo (.braces []) after (Nat.le_of_lt (length_lt_of_skipSpaces _h)))
      | _ => (pairs (depth + 1) [] rest).map fun taken => (taken.map .braces).after
  | c :: rest =>
    if c = '"' ∨ c = '\'' then
      (string (c :: rest)).map (·.map fun chars => .text (String.ofList chars))
    else scalar (c :: rest)
termination_by (text.length, 1)
decreasing_by all_goals exact Prod.Lex.left _ _ (Nat.lt_succ_self _)

/-- The elements of an array up to its closing bracket; a comma may follow the last. -/
def arrayItems (depth : Nat) (text : List Char) : Option (Taken (List Item) text) :=
  match _h : skipTrivia text with
  | none => none
  | some [] => none
  | some (']' :: rest) => some ⟨[], rest, length_lt_of_skipTrivia _h⟩
  | some (c :: rest) => do
    let item ← value depth (c :: rest)
    match _ha : skipTrivia item.rest with
    | some (',' :: after) => do
      let more ← arrayItems depth after
      some (((item.andThen (more.widen (Nat.le_of_lt (length_lt_of_skipTrivia _ha)))).map
        (item.value :: ·)).widen (length_skipTrivia_le _h))
    | some (']' :: after) =>
      some (Taken.widen ⟨[item.value], after,
        Nat.lt_trans (length_lt_of_skipTrivia _ha) item.shorter⟩ (length_skipTrivia_le _h))
    | _ => none
termination_by (text.length, 2)
decreasing_by
  · have := length_skipTrivia_le _h
    rcases Nat.lt_or_eq_of_le this with hlt | heq
    · exact Prod.Lex.left _ _ hlt
    · rw [heq]; exact Prod.Lex.right _ (by decide)
  · exact Prod.Lex.left _ _ (Nat.lt_of_lt_of_le
      (Nat.lt_trans (length_lt_of_skipTrivia _ha) item.shorter) (length_skipTrivia_le _h))

/-- The pairs of a table in braces, all on one line and without a comma after the last. -/
def pairs (depth : Nat) (entries : Entries) (text : List Char) : Option (Taken Entries text) := do
  let path ← key text
  match path.value, _h : path.rest with
  | first :: inner, '=' :: rest => do
    let item ← value depth (skipSpaces rest)
    let extended ← Entries.assign first inner item.value entries
    match _ha : skipSpaces item.rest with
    | ',' :: after => do
      let more ← pairs depth extended after
      some (path.andThen ((item.andThen
        (more.widen (Nat.le_of_lt (length_lt_of_skipSpaces _ha)))).widen (length_value_le _h)))
    | '\x7d' :: after =>
      some (path.andThen (Taken.widen ⟨extended, after,
        Nat.lt_trans (length_lt_of_skipSpaces _ha) item.shorter⟩ (length_value_le _h)))
    | _ => none
  | _, _ => none
termination_by (text.length, 3)
decreasing_by
  · exact Prod.Lex.left _ _ (Nat.lt_of_le_of_lt (length_value_le _h) path.shorter)
  · have hitem := Nat.lt_trans (length_lt_of_skipSpaces _ha) item.shorter
    exact Prod.Lex.left _ _
      (Nat.lt_trans (Nat.lt_of_lt_of_le hitem (length_value_le _h)) path.shorter)

end

/-- A line of a document that says something. -/
inductive Statement where
  | openTable (path : List String)
  | openElement (path : List String)
  | assign (path : List String) (item : Item)

def skipComment (text : List Char) : List Char :=
  match text with
  | '#' :: rest => rest.dropWhile isTextChar
  | _ => text

/-- The end of a line, after spaces and perhaps a comment; the end of the text counts. -/
def lineEnd (text : List Char) : Option (List Char) :=
  match skipComment (skipSpaces text) with
  | [] => some []
  | _ => (newline (skipComment (skipSpaces text))).map (·.rest)

theorem length_skipComment_le (text : List Char) : (skipComment text).length ≤ text.length := by
  unfold skipComment
  split
  next rest => exact Nat.le_succ_of_le (length_dropWhile_le isTextChar rest)
  next => exact Nat.le_refl _

theorem length_lineEnd_le {text rest : List Char} (h : lineEnd text = some rest) :
    rest.length ≤ text.length := by
  have hs := length_skipSpaces_le text
  have hc := length_skipComment_le (skipSpaces text)
  unfold lineEnd at h
  split at h
  next => cases h; exact Nat.zero_le _
  next =>
    obtain ⟨taken, _, rfl⟩ := Option.map_eq_some_iff.mp h
    have := taken.shorter
    omega

/-- A statement from the front of a line. -/
def statement (text : List Char) : Option (Taken Statement text) :=
  match text with
  | '[' :: '[' :: rest => do
    let path ← key rest
    match _h : path.rest with
    | ']' :: ']' :: after =>
      some (Taken.after (.upTo (.openElement path.value) after
        (Nat.le_of_lt (Nat.lt_trans (Nat.lt_of_succ_lt (length_lt_of_eq _h)) path.shorter))))
    | _ => none
  | '[' :: rest => do
    let path ← key rest
    match _h : path.rest with
    | ']' :: after =>
      some (.upTo (.openTable path.value) after
        (Nat.le_of_lt (Nat.lt_trans (length_lt_of_eq _h) path.shorter)))
    | _ => none
  | c :: line => do
    let path ← key (c :: line)
    match _h : path.rest with
    | '=' :: rest => do
      let item ← value 0 (skipSpaces rest)
      some (path.andThen ((item.map (.assign path.value)).widen (length_value_le _h)))
    | _ => none
  | [] => none

/-- The statements of a document. -/
def statements (text : List Char) : Option (List Statement) :=
  match _h : skipSpaces text with
  | [] => some []
  | '#' :: rest =>
    if (rest.dropWhile isTextChar).isEmpty then some []
    else match newline (rest.dropWhile isTextChar) with
      | none => none
      | some ended => statements ended.rest
  | c :: rest =>
    match newline (c :: rest) with
    | some ended => statements ended.rest
    | none => do
      let first ← statement (c :: rest)
      match _hr : lineEnd first.rest with
      | none => none
      | some after => return first.value :: (← statements after)
termination_by text.length
decreasing_by
  · have hs := length_skipSpaces_le text
    have := length_dropWhile_le isTextChar rest
    have := ended.shorter
    rw [_h] at hs
    simp only [List.length_cons] at hs
    omega
  · have := length_skipSpaces_le text
    have := ended.shorter
    rw [_h] at *
    omega
  · have := length_skipSpaces_le text
    have := first.shorter
    have := length_lineEnd_le _hr
    rw [_h] at *
    omega

/-- The table built so far, and the path of the table that assignments go to. -/
structure Draft where
  entries : Entries := []
  path : List String := []

namespace Draft

def add (draft : Draft) : Statement → Option Draft
  | .openTable path => do
    let last ← path.getLast?
    return ⟨← Entries.atHeader (Entries.openTable last) draft.entries path.dropLast, path⟩
  | .openElement path => do
    let last ← path.getLast?
    return ⟨← Entries.atHeader (Entries.openElement last) draft.entries path.dropLast, path⟩
  | .assign [] _ => none
  | .assign (first :: inner) item => do
    return ⟨← Entries.atHeader (Entries.assign first inner item) draft.entries draft.path,
      draft.path⟩

end Draft

/-- The table of a whole document; a byte order mark before it is passed over. -/
def read? (text : String) : Option Entries := do
  let chars := match text.toList with
    | '\uFEFF' :: rest => rest
    | chars => chars
  let draft ← (← statements chars).foldlM Draft.add {}
  return draft.entries

end FinalGrades.Toml
