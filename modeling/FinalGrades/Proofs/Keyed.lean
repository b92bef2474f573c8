import FinalGrades.Keyed

/-!
What is in a keyed collection: the names that were put in, whatever came before, and under each of
them one value, which is the one that is found.
-/

namespace FinalGrades.Keyed

variable {α : Type} {name key : String} {value : α}

theorem mem_map_place {entries : List (String × α)} :
    key ∈ (place name value entries).map (·.1) ↔ key = name ∨ key ∈ entries.map (·.1) := by
  induction entries with
  | nil => simp [place]
  | cons head rest ih =>
    unfold place
    split
    next => simp
    next =>
      split
      next hname =>
        subst hname
        simp
      next =>
        rw [List.map_cons, List.mem_cons, ih, List.map_cons, List.mem_cons]
        exact or_left_comm

@[simp] theorem mem_keys_insert {map : Keyed α} :
    key ∈ (map.insert name value).keys ↔ key = name ∨ key ∈ map.keys :=
  mem_map_place

theorem mem_keys_foldl_insert (entries : List (String × α)) (map : Keyed α) :
    key ∈ (entries.foldl (fun map entry => map.insert entry.1 entry.2) map).keys ↔
      key ∈ map.keys ∨ key ∈ entries.map (·.1) := by
  induction entries generalizing map with
  | nil => simp
  | cons entry rest ih =>
    rw [List.foldl_cons, ih, mem_keys_insert, List.map_cons, List.mem_cons, or_assoc]
    exact or_left_comm

theorem mem_keys_ofList {entries : List (String × α)} :
    key ∈ (ofList entries).keys ↔ key ∈ entries.map (·.1) := by
  have hempty : key ∉ (empty : Keyed α).keys := List.not_mem_nil
  simp [ofList, mem_keys_foldl_insert, hempty]

theorem mem_of_mem_foldl_insert {entries : List (String × α)} {map : Keyed α} {entry : String × α}
    (h : entry ∈ (entries.foldl (fun map entry => map.insert entry.1 entry.2) map).entries) :
    entry ∈ map.entries ∨ entry ∈ entries := by
  induction entries generalizing map with
  | nil => exact .inl h
  | cons first rest ih =>
    rcases ih h with hmem | hmem
    · rcases mem_place hmem with rfl | hmem
      · exact .inr List.mem_cons_self
      · exact .inl hmem
    · exact .inr (List.mem_cons_of_mem _ hmem)

/-- Where each name always comes with the same value, it does not matter how often. -/
theorem mem_ofList_map_iff {names : List String} {f : String → α} :
    (key, value) ∈ (ofList (names.map fun name => (name, f name))).entries ↔
      key ∈ names ∧ f key = value := by
  have hpair : ∀ {key value},
      (key, value) ∈ (ofList (names.map fun name => (name, f name))).entries →
        key ∈ names ∧ f key = value := by
    intro key value hmem
    have hlist := (mem_of_mem_foldl_insert hmem).resolve_left List.not_mem_nil
    obtain ⟨name, hname, heq⟩ := List.mem_map.mp hlist
    cases heq
    exact ⟨hname, rfl⟩
  refine ⟨hpair, ?_⟩
  rintro ⟨hkey, rfl⟩
  have hkeys : key ∈ (ofList (names.map fun name => (name, f name))).keys := by
    rw [mem_keys_ofList, List.map_map]
    exact List.mem_map.mpr ⟨key, hkey, rfl⟩
  obtain ⟨⟨name, value⟩, hmem, rfl⟩ := List.mem_map.mp hkeys
  obtain ⟨_, rfl⟩ := hpair hmem
  exact hmem

theorem get?_eq_some_iff {map : Keyed α} :
    map.get? key = some value ↔ (key, value) ∈ map.entries := by
  rw [get?, List.lookup_eq_some_iff]
  constructor
  · rintro ⟨before, after, heq, _⟩
    simp [heq]
  · intro hmem
    obtain ⟨before, after, heq⟩ := List.append_of_mem hmem
    have hsorted := map.sorted
    rw [heq, List.pairwise_append] at hsorted
    refine ⟨before, after, heq, fun entry hentry => ?_⟩
    have hlt := hsorted.2.2 entry hentry _ List.mem_cons_self
    simpa using (Std.ne_of_lt hlt).symm

theorem get?_eq_none_iff {map : Keyed α} : map.get? key = none ↔ key ∉ map.keys := by
  rw [Option.eq_none_iff_forall_ne_some, keys, List.mem_map]
  constructor
  · rintro h ⟨⟨name, value⟩, hmem, rfl⟩
    exact h value (get?_eq_some_iff.mpr hmem)
  · intro h value hvalue
    exact h ⟨(key, value), get?_eq_some_iff.mp hvalue, rfl⟩

/-- The first entry of some class has the least name of that class. -/
theorem find?_eq_some_iff {map : Keyed α} {p : String × α → Bool} {entry : String × α} :
    map.entries.find? p = some entry ↔ entry ∈ map.entries ∧ p entry = true ∧
      ∀ other ∈ map.entries, p other = true → entry.1 ≤ other.1 := by
  rw [List.find?_eq_some_iff_append]
  have hsorted := map.sorted
  constructor
  · rintro ⟨hp, before, after, heq, hbefore⟩
    rw [heq, List.pairwise_append, List.pairwise_cons] at hsorted
    refine ⟨by simp [heq], hp, fun other hother hpother => ?_⟩
    rw [heq, List.mem_append, List.mem_cons] at hother
    rcases hother with hother | rfl | hother
    · exact absurd hpother (by simpa using hbefore other hother)
    · exact String.le_refl _
    · exact Std.le_of_lt (hsorted.2.1.1 other hother)
  · rintro ⟨hmem, hp, hleast⟩
    obtain ⟨before, after, heq⟩ := List.append_of_mem hmem
    rw [heq, List.pairwise_append] at hsorted
    refine ⟨hp, before, after, heq, fun first hfirst => ?_⟩
    have hlt := hsorted.2.2 first hfirst entry List.mem_cons_self
    simpa using fun hpfirst => String.not_le.mpr hlt (hleast first (by simp [heq, hfirst]) hpfirst)

end FinalGrades.Keyed
