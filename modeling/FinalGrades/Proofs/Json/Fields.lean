import FinalGrades.Json.Fields
import FinalGrades.Proofs.Json.Layout

/-!
Typed values written as JSON and taken out of it again. Each way to write a value is stated with
the way it is read, so that the fields of a record follow from those of their types.
-/

namespace FinalGrades.Json

/-- The JSON is read again from its layout, and the value is what is taken out of it. -/
structure Carries {α : Type} (json : Json) (read : Json → Option α) (value : α) : Prop where
  legible : json.Legible
  reads : read json = some value

section Values

variable {α β : Type} {json : Json} {read : Json → Option α} {value : α}

theorem carries_ofString (text : String) : Carries (ofString text) text? text := by
  refine ⟨isText_encode text.toList, ?_⟩
  rw [ofString, text?, decode?_encode, Option.map_some, String.ofList_toList]

theorem legible_ofNat (n : Nat) : (ofNat n).Legible := isNumber_digitsOf n

theorem carries_ofNat {n : Nat} (h : n < wordLimit) : Carries (ofNat n) count? n := by
  refine ⟨legible_ofNat n, ?_⟩
  have hdigits : (digitsOf n).all isDigit = true := by
    rw [List.all_eq_true]
    exact fun _ => isDigit_of_mem_digitsOf
  rw [ofNat, count?, if_pos hdigits, digitsValue_digitsOf]
  exact if_pos h

theorem carries_null : Carries .null (nullable? read) none := ⟨trivial, rfl⟩

theorem Carries.nullable (h : Carries json read value) (hne : json ≠ .null) :
    Carries json (nullable? read) (some value) := by
  refine ⟨h.legible, ?_⟩
  rw [nullable?, h.reads, Option.map_some]
  exact hne

theorem carries_ofOption (text : Option String) :
    Carries (ofOption ofString text) (nullable? text?) text := by
  cases text with
  | none => exact carries_null
  | some text => exact (carries_ofString text).nullable (by simp [ofString])

theorem legible_ofNumber (number : Option Binary64) : (ofOption ofNumber number).Legible := by
  cases number with
  | none => trivial
  | some x =>
    rw [ofOption, ofNumber]
    split
    next hfinite => exact isNumber_json hfinite
    next => trivial

/-- A finite number is kept; what JSON has no number for is read as nothing. -/
theorem carries_ofNumber (number : Option Binary64)
    (h : ∀ x ∈ number, x.isFinite = true → number? (ofNumber x) = some x) :
    Carries (ofOption ofNumber number) (nullable? number?) (number.filter Binary64.isFinite) := by
  cases number with
  | none => exact carries_null
  | some x =>
    rw [ofOption]
    by_cases hfinite : x.isFinite = true
    · rw [Option.filter_some_pos hfinite]
      have hread := h x rfl hfinite
      rw [ofNumber, if_pos hfinite] at hread ⊢
      exact Carries.nullable ⟨isNumber_json hfinite, hread⟩ (by simp)
    · rw [Option.filter_some_neg (Bool.eq_false_of_not_eq_true hfinite), ofNumber, if_neg hfinite]
      exact carries_null

theorem legibleItems_map {write : α → Json} {values : List α}
    (h : ∀ value ∈ values, (write value).Legible) : LegibleItems (values.map write) := by
  induction values with
  | nil => trivial
  | cons value rest ih =>
    exact ⟨h value List.mem_cons_self,
      ih fun other hother => h other (List.mem_cons_of_mem _ hother)⟩

theorem mapM_map_eq_some {γ : Type} {step : β → Option γ} {write : α → β} {change : α → γ}
    {values : List α} (h : ∀ value ∈ values, step (write value) = some (change value)) :
    (values.map write).mapM step = some (values.map change) := by
  induction values with
  | nil => rfl
  | cons value rest ih =>
    rw [List.map_cons, List.mapM_cons, h value List.mem_cons_self,
      ih fun other hother => h other (List.mem_cons_of_mem _ hother)]
    rfl

theorem carries_ofList {write : β → Json} (change : β → α) (values : List β)
    (h : ∀ value ∈ values, Carries (write value) read (change value)) :
    Carries (ofList write values) (list? read) (values.map change) := by
  refine ⟨legibleItems_map fun value hvalue => (h value hvalue).legible, ?_⟩
  exact mapM_map_eq_some fun value hvalue => (h value hvalue).reads

end Values

section Records

variable {fields : List (String × Json)}

theorem legible_ofFields (h : ∀ field ∈ fields, field.2.Legible) : (ofFields fields).Legible := by
  induction fields with
  | nil => trivial
  | cons field rest ih =>
    exact ⟨⟨isText_encode _, h field List.mem_cons_self⟩,
      ih fun other hother => h other (List.mem_cons_of_mem _ hother)⟩

theorem eraseDups_of_nodup {names : List String} (h : names.Nodup) : names.eraseDups = names := by
  induction names with
  | nil => rfl
  | cons name rest ih =>
    rw [List.nodup_cons] at h
    have hkept : ∀ other ∈ rest, (!other == name) = true := by
      intro other hother
      have hne : other ≠ name := fun heq => h.1 (heq ▸ hother)
      simpa using hne
    rw [List.eraseDups_cons, List.filter_eq_self.mpr hkept, ih h.2]

/-- The fields of an object that has those of the order and no others. -/
theorem of?_ofFields (h : (fields.map (·.1)).Nodup) :
    Fields.of? (fields.map (·.1)) (ofFields fields) = some ⟨fields, false⟩ := by
  have hnamed : (fields.map fun field => (encode field.1.toList, field.2)).mapM (fun field =>
      (decode? field.1).bind fun name => some (String.ofList name, field.2)) = some fields := by
    refine (mapM_map_eq_some fun field _ => ?_).trans (congrArg some (List.map_id' fields))
    rw [decode?_encode, Option.bind_some, String.ofList_toList]
  have hknown : fields.filter (fun field => (fields.map (·.1)).contains field.1) = fields := by
    rw [List.filter_eq_self]
    intro field hfield
    rw [List.contains_iff_mem]
    exact List.mem_map_of_mem hfield
  unfold Fields.of? ofFields
  dsimp only [Option.bind_eq_bind, Option.pure_def] at hnamed ⊢
  rw [hnamed, Option.bind_some, hknown, eraseDups_of_nodup h, List.length_map, if_pos rfl]

/-- A record is carried by the object of its fields. -/
theorem carries_ofFields {α : Type} {take : Fields → Option α} {value : α}
    (hlegible : ∀ field ∈ fields, field.2.Legible) (hnames : (fields.map (·.1)).Nodup)
    (htake : take ⟨fields, false⟩ = some value) :
    Carries (ofFields fields) (fun json => (Fields.of? (fields.map (·.1)) json).bind take)
      value := by
  refine ⟨legible_ofFields hlegible, ?_⟩
  rw [of?_ofFields hnames, Option.bind_some, htake]

end Records

end FinalGrades.Json
