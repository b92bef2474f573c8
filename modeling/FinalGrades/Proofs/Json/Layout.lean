import FinalGrades.Proofs.Json.Reader

/-!
The layout with one element to a line is read again: a value whose texts and numbers are written as
JSON has them is taken from the front of its layout, whatever follows it.
-/

namespace FinalGrades.Json

variable {rest after : List Char}

mutual

/-- Texts and numbers in the value are written as JSON has them. -/
def Legible : Json → Prop
  | .null | .boolean _ => True
  | .number written => IsNumber written
  | .text written => IsText written
  | .array items => LegibleItems items
  | .object fields => LegibleFields fields
termination_by structural value => value

def LegibleItems : List Json → Prop
  | [] => True
  | item :: rest => item.Legible ∧ LegibleItems rest
termination_by structural items => items

def LegibleFields : List (List Char × Json) → Prop
  | [] => True
  | field :: rest => LegibleField field ∧ LegibleFields rest
termination_by structural fields => fields

def LegibleField : List Char × Json → Prop
  | (name, value) => IsText name ∧ value.Legible
termination_by structural field => field

end

section Layout

variable {value : Json} {lead tail : List Char} {level : Nat}

theorem skipSpaces_append (h : ∀ c ∈ lead, isSpace c = true) :
    skipSpaces (lead ++ rest) = skipSpaces rest :=
  List.dropWhile_append_of_pos h

theorem isSpace_of_isDigit {c : Char} (h : isDigit c = true) : isSpace c = false := by
  by_contra hspace
  simp only [isSpace, Bool.not_eq_false, Bool.or_eq_true, decide_eq_true_eq] at hspace
  rcases hspace with ((rfl | rfl) | rfl) | rfl <;> cases h

theorem isSpace_of_mem_lineBreak (level : Nat) : ∀ c ∈ lineBreak level, isSpace c = true := by
  intro c hc
  rcases List.mem_cons.mp hc with rfl | hc
  · rfl
  · rw [List.eq_of_mem_replicate hc]
    rfl

theorem ends_lineBreak : Ends continuesNumber (lineBreak level ++ rest) := ends_cons _ rfl

theorem pretty_array {items : List Json} (h : items ≠ []) :
    (array items).pretty level ++ rest =
      '[' :: (prettyItems (level + 1) items ++ (lineBreak level ++ ']' :: rest)) := by
  obtain ⟨item, more, rfl⟩ := List.exists_cons_of_ne_nil h
  simp [pretty]

theorem pretty_object {fields : List (List Char × Json)} (h : fields ≠ []) :
    (object fields).pretty level ++ rest =
      '\x7b' :: (prettyFields (level + 1) fields ++ (lineBreak level ++ '\x7d' :: rest)) := by
  obtain ⟨field, more, rfl⟩ := List.exists_cons_of_ne_nil h
  simp [pretty]

theorem pretty_head (h : value.Legible) (level : Nat) :
    ∃ c more, value.pretty level = c :: more ∧ isSpace c = false ∧ c ≠ ']' := by
  cases value with
  | null => exact ⟨'n', _, rfl, rfl, by decide⟩
  | boolean b => cases b <;> exact ⟨_, _, rfl, rfl, by decide⟩
  | number written =>
    obtain ⟨c, more, hwritten, hc⟩ := IsNumber.head h
    refine ⟨c, more, hwritten, ?_⟩
    rcases hc with rfl | hc
    · decide
    · refine ⟨isSpace_of_isDigit hc, ?_⟩
      rintro rfl
      cases hc
  | text written => exact ⟨'"', _, rfl, rfl, by decide⟩
  | array items => cases items <;> exact ⟨'[', _, rfl, rfl, by decide⟩
  | object fields => cases fields <;> exact ⟨'\x7b', _, rfl, rfl, by decide⟩

theorem skipSpaces_pretty (h : value.Legible) (hlead : ∀ c ∈ lead, isSpace c = true) :
    skipSpaces (lead ++ (value.pretty level ++ rest)) = value.pretty level ++ rest := by
  obtain ⟨c, more, hpretty, hc, _⟩ := pretty_head h level
  rw [skipSpaces_append hlead, hpretty, List.cons_append, skipSpaces,
    List.dropWhile_cons_of_neg (by rw [hc]; decide)]

theorem skipSpaces_break (level : Nat) (closing : Char) (h : isSpace closing = false) :
    skipSpaces (lineBreak level ++ closing :: rest) = closing :: rest := by
  rw [skipSpaces_append (isSpace_of_mem_lineBreak level), skipSpaces,
    List.dropWhile_cons_of_neg (by rw [h]; decide)]

theorem prettyItems_one (item : Json) :
    prettyItems level [item] ++ tail = lineBreak level ++ (item.pretty level ++ tail) := by
  simp [prettyItems]

theorem prettyItems_more (item next : Json) (more : List Json) :
    prettyItems level (item :: next :: more) ++ tail =
      lineBreak level ++ (item.pretty level ++
        ',' :: (prettyItems level (next :: more) ++ tail)) := by
  simp [prettyItems]

theorem prettyFields_one (field : List Char × Json) :
    prettyFields level [field] ++ tail = lineBreak level ++ (prettyField level field ++ tail) := by
  simp [prettyFields]

theorem prettyFields_more (field next : List Char × Json) (more : List (List Char × Json)) :
    prettyFields level (field :: next :: more) ++ tail =
      lineBreak level ++ (prettyField level field ++
        ',' :: (prettyFields level (next :: more) ++ tail)) := by
  simp [prettyFields]

theorem skipSpaces_prettyItems {item : Json} (items : List Json) (h : item.Legible) :
    skipSpaces (prettyItems level (item :: items) ++ tail) ≠ ']' :: after := by
  obtain ⟨more, hmore⟩ : ∃ more, prettyItems level (item :: items) ++ tail =
      lineBreak level ++ (item.pretty level ++ more) := by
    cases items with
    | nil => exact ⟨_, prettyItems_one item⟩
    | cons next more => exact ⟨_, prettyItems_more item next more⟩
  obtain ⟨c, _, hpretty, _, hc⟩ := pretty_head h level
  rw [hmore, skipSpaces_pretty h (isSpace_of_mem_lineBreak level), hpretty, List.cons_append]
  intro heq
  exact hc (List.cons.inj heq).1

theorem skipSpaces_field (name : List Char) (value : Json) (level : Nat) (tail : List Char) :
    skipSpaces (lineBreak level ++ (prettyField level (name, value) ++ tail)) =
      '"' :: (name ++ '"' :: ':' :: ' ' :: (value.pretty level ++ tail)) := by
  rw [skipSpaces_append (isSpace_of_mem_lineBreak level)]
  simp [prettyField, quote, skipSpaces, isSpace]

theorem skipSpaces_prettyFields (field : List Char × Json) (fields : List (List Char × Json)) :
    skipSpaces (prettyFields level (field :: fields) ++ tail) ≠ '\x7d' :: after := by
  obtain ⟨more, hmore⟩ : ∃ more, prettyFields level (field :: fields) ++ tail =
      lineBreak level ++ (prettyField level field ++ more) := by
    cases fields with
    | nil => exact ⟨_, prettyFields_one field⟩
    | cons next more => exact ⟨_, prettyFields_more field next more⟩
  rw [hmore, skipSpaces_field]
  intro heq
  cases heq

end Layout

mutual

/-- A legible value is taken from the front of its layout. -/
theorem takes_pretty (value : Json) (h : value.Legible) (level : Nat) {input rest : List Char}
    (hinput : skipSpaces input = value.pretty level ++ rest) (ends : Ends continuesNumber rest) :
    Takes (readValue input) value rest := by
  match value with
  | .null => exact takes_null hinput
  | .boolean true => exact takes_true hinput
  | .boolean false => exact takes_false hinput
  | .number written => exact takes_number hinput h ends
  | .text written =>
    have hquote : skipSpaces input = '"' :: (written ++ '"' :: rest) := by
      rw [hinput]
      simp [pretty, quote]
    exact takes_text hquote (takes_readText h)
  | .array [] => exact takes_nothing_array hinput
  | .object [] => exact takes_nothing_object hinput
  | .array (item :: items) =>
    rw [pretty_array (List.cons_ne_nil _ _)] at hinput
    exact takes_array hinput (fun _ => skipSpaces_prettyItems items h.1)
      (takes_prettyItems (item :: items) (List.cons_ne_nil _ _) h (level + 1)
        (skipSpaces_break level ']' rfl) ends_lineBreak)
  | .object (field :: fields) =>
    rw [pretty_object (List.cons_ne_nil _ _)] at hinput
    exact takes_object hinput (fun _ => skipSpaces_prettyFields field fields)
      (takes_prettyFields (field :: fields) (List.cons_ne_nil _ _) h (level + 1)
        (skipSpaces_break level '\x7d' rfl) ends_lineBreak)
termination_by structural value

/-- The items of a legible array, up to the bracket that closes it. -/
theorem takes_prettyItems (items : List Json) (hne : items ≠ []) (h : LegibleItems items)
    (level : Nat) {tail rest : List Char} (hclose : skipSpaces tail = ']' :: rest)
    (ends : Ends continuesNumber tail) :
    Takes (readItems (prettyItems level items ++ tail)) items rest := by
  match items with
  | [] => exact absurd rfl hne
  | [item] =>
    have hitem : skipSpaces (prettyItems level [item] ++ tail) = item.pretty level ++ tail := by
      rw [prettyItems_one]
      exact skipSpaces_pretty h.1 (isSpace_of_mem_lineBreak level)
    exact takes_last (takes_pretty item h.1 level hitem ends) hclose
  | item :: next :: more =>
    have hitem : skipSpaces (prettyItems level (item :: next :: more) ++ tail) =
        item.pretty level ++ ',' :: (prettyItems level (next :: more) ++ tail) := by
      rw [prettyItems_more]
      exact skipSpaces_pretty h.1 (isSpace_of_mem_lineBreak level)
    exact takes_more (takes_pretty item h.1 level hitem (ends_cons _ rfl)) rfl
      (takes_prettyItems (next :: more) (List.cons_ne_nil _ _) h.2 level hclose ends)
termination_by structural items

/-- The fields of a legible object, up to the brace that closes it. -/
theorem takes_prettyFields (fields : List (List Char × Json)) (hne : fields ≠ [])
    (h : LegibleFields fields) (level : Nat) {tail rest : List Char}
    (hclose : skipSpaces tail = '\x7d' :: rest) (ends : Ends continuesNumber tail) :
    Takes (readFields (prettyFields level fields ++ tail)) fields rest := by
  match fields with
  | [] => exact absurd rfl hne
  | [(name, value)] =>
    have hopen := skipSpaces_field name value level tail
    rw [← prettyFields_one] at hopen
    have hspace : ∀ c ∈ [' '], isSpace c = true := List.forall_mem_singleton.mpr rfl
    have hvalue : skipSpaces (' ' :: (value.pretty level ++ tail)) = value.pretty level ++ tail :=
      skipSpaces_pretty h.1.2 hspace
    exact takes_last_field hopen (takes_readText h.1.1) (takes_pretty value h.1.2 level hvalue ends)
      hclose
  | (name, value) :: next :: more =>
    have hopen := skipSpaces_field name value level
      (',' :: (prettyFields level (next :: more) ++ tail))
    rw [← prettyFields_more] at hopen
    have hspace : ∀ c ∈ [' '], isSpace c = true := List.forall_mem_singleton.mpr rfl
    have hvalue : skipSpaces (' ' :: (value.pretty level ++
        ',' :: (prettyFields level (next :: more) ++ tail))) =
          value.pretty level ++ ',' :: (prettyFields level (next :: more) ++ tail) :=
      skipSpaces_pretty h.1.2 hspace
    exact takes_more_field hopen (takes_readText h.1.1)
      (takes_pretty value h.1.2 level hvalue (ends_cons _ rfl)) rfl
      (takes_prettyFields (next :: more) (List.cons_ne_nil _ _) h.2 level hclose ends)
termination_by structural fields

end

/-- A legible value is read again from its layout. -/
theorem read?_pretty {value : Json} (h : value.Legible) :
    read? (String.ofList (value.pretty 0)) = some value := by
  have hinput : skipSpaces (value.pretty 0) = value.pretty 0 ++ [] := by
    have hskip : skipSpaces ([] ++ (value.pretty 0 ++ [])) = value.pretty 0 ++ [] :=
      skipSpaces_pretty h (List.forall_mem_nil _)
    rw [List.nil_append] at hskip
    rw [← hskip, List.append_nil]
  obtain ⟨taken, htaken, hvalue, hrest⟩ := takes_pretty value h 0 hinput (ends_nil _)
  rw [read?, String.toList_ofList, htaken, Option.bind_eq_bind, Option.bind_some, hrest, hvalue]
  exact if_pos rfl

end FinalGrades.Json
