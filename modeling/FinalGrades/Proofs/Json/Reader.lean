import FinalGrades.Proofs.Json.Number
import FinalGrades.Proofs.Json.Text

/-!
What the reader takes from the front of a text, by the first character of it. Each reading is
stated with the value it gives and the rest it leaves, so that readings follow each other.
-/

namespace FinalGrades.Json

open Text (Taken)

variable {input rest after : List Char}

/-- What stands between quotes: the text ends at the first quote that follows it. -/
def IsText (written : List Char) : Prop :=
  ∀ rest, scan (written ++ '"' :: rest) = (written, '"' :: rest)

theorem isText_encode (text : List Char) : IsText (encode text) := scan_encode text

/-- The reading takes the value from the front of a text and leaves the rest. -/
def Takes {α : Type} (reading : Option (Taken α input)) (value : α) (rest : List Char) : Prop :=
  ∃ taken, reading = some taken ∧ taken.value = value ∧ taken.rest = rest

section Values

variable {value : Json} {body written : List Char}

theorem takes_readText (h : IsText written) :
    Takes (readText (written ++ '"' :: rest)) written rest := by
  have hscan := h rest
  unfold readText
  split
  next written' rest' hscan' =>
    rw [hscan] at hscan'
    cases hscan'
    exact ⟨_, rfl, rfl, rfl⟩
  next hnone => exact absurd hscan (hnone _ _)

theorem takes_readNumber (h : IsNumber written) (ends : Ends continuesNumber rest) :
    Takes (readNumber (written ++ rest)) (.number written) rest := by
  obtain ⟨c, more, hhead, _⟩ := h.head
  have hshorter : ((written ++ rest).drop written.length).length < (written ++ rest).length := by
    rw [List.drop_left, List.length_append, hhead, List.length_cons]
    omega
  have hread : readNumber (written ++ rest) = some ⟨.number ((written ++ rest).take written.length),
      (written ++ rest).drop written.length, hshorter⟩ := by
    unfold readNumber
    rw [numberLength?_append h ends]
    exact dif_pos hshorter
  exact ⟨_, hread, by rw [List.take_left], List.drop_left⟩

theorem after?_append (lead : List Char) : Text.after? lead (lead ++ rest) = some rest := by
  induction lead with
  | nil => rfl
  | cons c lead ih =>
    rw [List.cons_append, Text.after?, if_pos rfl]
    exact ih

theorem takes_readWord (written : List Char) {spelling : String}
    (h : spelling.toList = written) (hne : written ≠ []) :
    Takes (readWord spelling value (written ++ rest)) value rest := by
  have hshorter : rest.length < (written ++ rest).length := by
    rw [List.length_append]
    exact Nat.lt_add_of_pos_left (List.length_pos_iff.mpr hne)
  have hread : readWord spelling value (written ++ rest) = some ⟨value, rest, hshorter⟩ := by
    unfold readWord
    rw [h, after?_append]
    exact dif_pos hshorter
  exact ⟨_, hread, rfl, rfl⟩

theorem Takes.map {α β : Type} {text : List Char} {reading : Option (Taken α text)} {a : α}
    {f : α → β} {change : Taken α text → Taken β input} (h : Takes reading a rest)
    (hvalue : ∀ taken, (change taken).value = f taken.value)
    (hrest : ∀ taken, (change taken).rest = taken.rest) :
    Takes (reading.map change) (f a) rest := by
  obtain ⟨taken, rfl, rfl, rfl⟩ := h
  exact ⟨_, rfl, hvalue taken, hrest taken⟩

theorem takes_text (h : skipSpaces input = '"' :: body)
    (hbody : Takes (readText body) written rest) :
    Takes (readValue input) (.text written) rest := by
  unfold readValue
  split
  all_goals rename_i heq
  all_goals rw [h] at heq
  all_goals cases heq
  next => exact hbody.map (fun _ => rfl) fun _ => rfl
  next hquote _ _ => exact absurd rfl hquote

theorem takes_nothing_array (h : skipSpaces input = '[' :: ']' :: rest) :
    Takes (readValue input) (.array []) rest := by
  have hclose : skipSpaces (']' :: rest) = ']' :: rest := rfl
  unfold readValue
  split
  all_goals rename_i heq
  all_goals rw [h] at heq
  all_goals cases heq
  next =>
    split
    next after hafter =>
      rw [hclose] at hafter
      cases hafter
      exact ⟨_, rfl, rfl, rfl⟩
    next hnone => exact absurd hclose (hnone _)
  next hbracket _ => exact absurd rfl hbracket

theorem takes_array {items : List Json} (h : skipSpaces input = '[' :: body)
    (hfirst : ∀ after, skipSpaces body ≠ ']' :: after) (hbody : Takes (readItems body) items rest) :
    Takes (readValue input) (.array items) rest := by
  unfold readValue
  split
  all_goals rename_i heq
  all_goals rw [h] at heq
  all_goals cases heq
  next =>
    split
    next after hafter => exact absurd hafter (hfirst after)
    next => exact hbody.map (fun _ => rfl) fun _ => rfl
  next hbracket _ => exact absurd rfl hbracket

theorem takes_nothing_object (h : skipSpaces input = '\x7b' :: '\x7d' :: rest) :
    Takes (readValue input) (.object []) rest := by
  have hclose : skipSpaces ('\x7d' :: rest) = '\x7d' :: rest := rfl
  unfold readValue
  split
  all_goals rename_i heq
  all_goals rw [h] at heq
  all_goals cases heq
  next =>
    split
    next after hafter =>
      rw [hclose] at hafter
      cases hafter
      exact ⟨_, rfl, rfl, rfl⟩
    next hnone => exact absurd hclose (hnone _)
  next hbrace => exact absurd rfl hbrace

theorem takes_object {fields : List (List Char × Json)} (h : skipSpaces input = '\x7b' :: body)
    (hfirst : ∀ after, skipSpaces body ≠ '\x7d' :: after)
    (hbody : Takes (readFields body) fields rest) :
    Takes (readValue input) (.object fields) rest := by
  unfold readValue
  split
  all_goals rename_i heq
  all_goals rw [h] at heq
  all_goals cases heq
  next =>
    split
    next after hafter => exact absurd hafter (hfirst after)
    next => exact hbody.map (fun _ => rfl) fun _ => rfl
  next hbrace => exact absurd rfl hbrace

/-- A word or a number, told by its first character. -/
theorem takes_other {c : Char} {more : List Char} (h : skipSpaces input = c :: more)
    (hquote : c ≠ '"') (hbracket : c ≠ '[') (hbrace : c ≠ '\x7b')
    (hother : Takes (if c = 'n' then readWord "null" .null (c :: more)
      else if c = 't' then readWord "true" (.boolean true) (c :: more)
      else if c = 'f' then readWord "false" (.boolean false) (c :: more)
      else readNumber (c :: more)) value rest) :
    Takes (readValue input) value rest := by
  unfold readValue
  split
  all_goals rename_i heq
  all_goals rw [h] at heq
  all_goals cases heq
  next => exact absurd rfl hquote
  next => exact absurd rfl hbracket
  next => exact absurd rfl hbrace
  next => exact hother.map (f := id) (fun _ => rfl) fun _ => rfl

theorem takes_word {c : Char} {more : List Char} {spelling : String}
    (hspelling : spelling.toList = c :: more) (hquote : c ≠ '"') (hbracket : c ≠ '[')
    (hbrace : c ≠ '\x7b')
    (hselect : ∀ text, (if c = 'n' then readWord "null" .null (c :: text)
      else if c = 't' then readWord "true" (.boolean true) (c :: text)
      else if c = 'f' then readWord "false" (.boolean false) (c :: text)
      else readNumber (c :: text)) = readWord spelling value (c :: text))
    (h : skipSpaces input = word spelling ++ rest) : Takes (readValue input) value rest := by
  have hword : skipSpaces input = c :: (more ++ rest) := by
    rw [h, word, hspelling, List.cons_append]
  have hread : Takes (readWord spelling value (c :: (more ++ rest))) value rest :=
    takes_readWord (c :: more) hspelling (List.cons_ne_nil c more)
  refine takes_other hword hquote hbracket hbrace ?_
  rw [hselect]
  exact hread

theorem takes_null (h : skipSpaces input = word "null" ++ rest) :
    Takes (readValue input) .null rest := by
  have hspelling : "null".toList = 'n' :: ['u', 'l', 'l'] := rfl
  exact takes_word hspelling (by decide) (by decide) (by decide) (fun _ => if_pos rfl) h

theorem takes_true (h : skipSpaces input = word "true" ++ rest) :
    Takes (readValue input) (.boolean true) rest := by
  have hspelling : "true".toList = 't' :: ['r', 'u', 'e'] := rfl
  refine takes_word hspelling (by decide) (by decide) (by decide) (fun _ => ?_) h
  rw [if_neg (by decide), if_pos rfl]

theorem takes_false (h : skipSpaces input = word "false" ++ rest) :
    Takes (readValue input) (.boolean false) rest := by
  have hspelling : "false".toList = 'f' :: ['a', 'l', 's', 'e'] := rfl
  refine takes_word hspelling (by decide) (by decide) (by decide) (fun _ => ?_) h
  rw [if_neg (by decide), if_neg (by decide), if_pos rfl]

theorem takes_number (h : skipSpaces input = written ++ rest) (hwritten : IsNumber written)
    (ends : Ends continuesNumber rest) : Takes (readValue input) (.number written) rest := by
  obtain ⟨c, more, rfl, hc⟩ := hwritten.head
  have hne : ∀ d, ¬(d = '-' ∨ isDigit d = true) → c ≠ d := by
    rintro d hd rfl
    exact hd hc
  refine takes_other h (hne _ (by decide)) (hne _ (by decide)) (hne _ (by decide)) ?_
  rw [if_neg (hne _ (by decide)), if_neg (hne _ (by decide)), if_neg (hne _ (by decide))]
  exact takes_readNumber hwritten ends

theorem takes_last {item : Json} (hitem : Takes (readValue input) item body)
    (hclose : skipSpaces body = ']' :: rest) : Takes (readItems input) [item] rest := by
  obtain ⟨taken, htaken, rfl, rfl⟩ := hitem
  rw [readItems, htaken]
  simp only [Option.bind_eq_bind, Option.bind_some]
  split
  next heq =>
    rw [hclose] at heq
    cases heq
  next heq =>
    rw [hclose] at heq
    cases heq
    exact ⟨_, rfl, rfl, rfl⟩
  next hnone => exact absurd hclose (hnone _)

theorem takes_more {item : Json} {items : List Json} (hitem : Takes (readValue input) item body)
    (hcomma : skipSpaces body = ',' :: after) (hmore : Takes (readItems after) items rest) :
    Takes (readItems input) (item :: items) rest := by
  obtain ⟨taken, htaken, rfl, rfl⟩ := hitem
  obtain ⟨more, hmore, rfl, rfl⟩ := hmore
  rw [readItems, htaken]
  simp only [Option.bind_eq_bind, Option.bind_some]
  split
  next heq =>
    rw [hcomma] at heq
    cases heq
    rw [hmore]
    exact ⟨_, rfl, rfl, rfl⟩
  next heq =>
    rw [hcomma] at heq
    cases heq
  next hnone _ => exact absurd hcomma (hnone _)

section Fields

variable {name inside between : List Char}

theorem takes_last_field (hopen : skipSpaces input = '"' :: inside)
    (hname : Takes (readText inside) name (':' :: between))
    (hvalue : Takes (readValue between) value body) (hclose : skipSpaces body = '\x7d' :: rest) :
    Takes (readFields input) [(name, value)] rest := by
  obtain ⟨text, htext, rfl, hbetween⟩ := hname
  obtain ⟨taken, htaken, rfl, rfl⟩ := hvalue
  have hcolon : skipSpaces text.rest = ':' :: between := by
    rw [hbetween]
    rfl
  unfold readFields
  split
  next heq =>
    rw [hopen] at heq
    cases heq
    rw [htext]
    simp only [Option.bind_eq_bind, Option.bind_some]
    split
    next heq =>
      rw [hcolon] at heq
      cases heq
      rw [htaken]
      simp only [Option.bind_some]
      split
      next heq =>
        rw [hclose] at heq
        cases heq
      next heq =>
        rw [hclose] at heq
        cases heq
        exact ⟨_, rfl, rfl, rfl⟩
      next hnone => exact absurd hclose (hnone _)
    next hnone => exact absurd hcolon (hnone _)
  next hnone => exact absurd hopen (hnone _)

theorem takes_more_field {fields : List (List Char × Json)}
    (hopen : skipSpaces input = '"' :: inside)
    (hname : Takes (readText inside) name (':' :: between))
    (hvalue : Takes (readValue between) value body) (hcomma : skipSpaces body = ',' :: after)
    (hmore : Takes (readFields after) fields rest) :
    Takes (readFields input) ((name, value) :: fields) rest := by
  obtain ⟨text, htext, rfl, hbetween⟩ := hname
  obtain ⟨taken, htaken, rfl, rfl⟩ := hvalue
  obtain ⟨more, hmore, rfl, rfl⟩ := hmore
  have hcolon : skipSpaces text.rest = ':' :: between := by
    rw [hbetween]
    rfl
  unfold readFields
  split
  next heq =>
    rw [hopen] at heq
    cases heq
    rw [htext]
    simp only [Option.bind_eq_bind, Option.bind_some]
    split
    next heq =>
      rw [hcolon] at heq
      cases heq
      rw [htaken]
      simp only [Option.bind_some]
      split
      next heq =>
        rw [hcomma] at heq
        cases heq
        rw [hmore]
        exact ⟨_, rfl, rfl, rfl⟩
      next heq =>
        rw [hcomma] at heq
        cases heq
      next hnone _ => exact absurd hcomma (hnone _)
    next hnone => exact absurd hcolon (hnone _)
  next hnone => exact absurd hopen (hnone _)

end Fields

end Values

end FinalGrades.Json
