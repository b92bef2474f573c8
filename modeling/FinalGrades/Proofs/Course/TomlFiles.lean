import FinalGrades.Course.Folder
import FinalGrades.Proofs.Files.Listing
import Mathlib.Data.List.TakeWhile

/-!
The TOML files of a directory tree: of all files that are listed, those whose names end in a point
and `toml`, with something before the point.
-/

namespace FinalGrades

variable {content : Content} {path name extension : String} {names : List String}

theorem fileExtension?_of_append {stem : String} (hstem : stem ≠ "")
    (hplain : '.' ∉ extension.toList) :
    fileExtension? (stem ++ "." ++ extension) = some extension := by
  have hreversed : (stem ++ "." ++ extension).toList.reverse =
      extension.toList.reverse ++ '.' :: stem.toList.reverse := by simp
  have hkeep : ∀ c ∈ extension.toList.reverse, (c != '.') = true := fun c hc => by
    refine bne_iff_ne.mpr fun hpoint => hplain ?_
    exact hpoint ▸ List.mem_reverse.mp hc
  have hne : stem.toList.reverse ≠ [] := by simpa using hstem
  obtain ⟨c, rest, hcons⟩ := List.exists_cons_of_ne_nil hne
  rw [fileExtension?, hreversed, List.takeWhile_append_of_pos hkeep,
    List.dropWhile_append_of_pos hkeep, hcons]
  simp

theorem exists_stem_of_fileExtension? (h : fileExtension? name = some extension) :
    '.' ∉ extension.toList ∧ ∃ stem, stem ≠ "" ∧ name = stem ++ "." ++ extension := by
  have hsplit := List.takeWhile_append_dropWhile (p := (· != '.')) (l := name.toList.reverse)
  have hplain := List.mem_takeWhile_imp (p := (· != '.')) (l := name.toList.reverse) (x := '.')
  have hhead := List.head?_dropWhile_not (· != '.') name.toList.reverse
  rw [fileExtension?] at h
  split at h
  next => cases h
  next => cases h
  next hnil hone =>
    cases h
    refine ⟨by simpa using hplain, ?_⟩
    cases hdrop : name.toList.reverse.dropWhile (· != '.') with
    | nil => exact absurd hdrop hnil
    | cons point before =>
      rw [hdrop] at hhead hsplit
      obtain rfl : point = '.' := by simpa using hhead
      refine ⟨String.ofList before.reverse, ?_, ?_⟩
      · intro hempty
        have hnothing : before = [] := by simpa using hempty
        exact hone '.' (hnothing ▸ hdrop)
      · have hname := congrArg List.reverse hsplit
        rw [List.reverse_reverse] at hname
        exact String.toList_inj.mp (hname.symm.trans (by simp))

/-- An extension is what follows the last point, if something stands before that point. -/
theorem fileExtension?_eq_iff : fileExtension? name = some extension ↔
    '.' ∉ extension.toList ∧ ∃ stem, stem ≠ "" ∧ name = stem ++ "." ++ extension := by
  constructor
  · exact exists_stem_of_fileExtension?
  · rintro ⟨hplain, stem, hstem, rfl⟩
    exact fileExtension?_of_append hstem hplain

/-- The last of the names is one of a file whose extension is `toml`. -/
def IsToml (names : List String) : Prop :=
  ∃ stem, stem ≠ "" ∧ names.getLast? = some (stem ++ ".toml")

theorem isToml_iff : IsToml names ↔ names.getLast?.bind fileExtension? = some "toml" := by
  have hplain : '.' ∉ "toml".toList := by decide
  have hstem (stem : String) : stem ++ "." ++ "toml" = stem ++ ".toml" := String.append_assoc
  simp only [IsToml, Option.bind_eq_some_iff, fileExtension?_eq_iff, hplain, hstem]
  constructor
  · rintro ⟨stem, hne, hlast⟩
    exact ⟨_, hlast, not_false, stem, hne, rfl⟩
  · rintro ⟨_, hlast, _, stem, hne, rfl⟩
    exact ⟨stem, hne, hlast⟩

instance : DecidablePred IsToml := fun _ => decidable_of_iff _ isToml_iff.symm

/-- The text that is read at a path, if it can be looked up. -/
def Content.readAt (content : Content) (path : String) : Except FileError String :=
  match checkPath path, content with
  | .error error, _ => .error error
  | .ok (), .text value => .ok value
  | .ok (), .binary _ => .error .notText

theorem Node.tomlFiles_file (content : Content) (path name : String) :
    (Node.file content).tomlFiles path name =
      if fileExtension? name = some "toml" then [(path, content.readAt path)] else [] := by
  unfold Node.tomlFiles
  rfl

theorem isToml_singleton : IsToml [name] ↔ fileExtension? name = some "toml" := by
  rw [isToml_iff]
  rfl

theorem isToml_cons (h : names ≠ []) : IsToml (name :: names) ↔ IsToml names := by
  obtain ⟨next, more, rfl⟩ := List.exists_cons_of_ne_nil h
  rw [IsToml, List.getLast?_cons_cons, IsToml]

/-- What is read of a file that was found by its names. -/
def readFound (path : String) (found : List String × Content) : String × Except FileError String :=
  (below path found.1, found.2.readAt (below path found.1))

mutual

theorem Node.tomlFiles_eq (name : String) : (node : Node) → node.Proper → ∀ path,
    (∀ names inside, node.node? names = some (.directory inside) →
      checkPath (below path (name :: names)) = .ok ()) →
    node.tomlFiles (joinPath path name) name =
      ((node.listing name).filter fun found => IsToml found.1).map (readFound path)
  | .file content, _, path, _ => by
    rw [Node.tomlFiles_file, Node.listing]
    by_cases htoml : fileExtension? name = some "toml"
    · rw [if_pos htoml, List.filter_singleton, decide_eq_true (isToml_singleton.mpr htoml)]
      rfl
    · rw [if_neg htoml, List.filter_singleton, decide_eq_false (mt isToml_singleton.mp htoml)]
      rfl
  | .directory entries, h, path, hreadable => by
    rw [Node.Proper] at h
    have hcheck : checkPath (joinPath path name) = .ok () := hreadable [] entries rfl
    have hentries := entries.tomlFiles_eq h (joinPath path name) fun names inside _ hinside =>
      hreadable names inside hinside
    -- The name of the directory is not the last one of any file in it.
    have hfilter : (entries.listing.filter fun found => IsToml (name :: found.1)) =
        entries.listing.filter fun found => IsToml found.1 := by
      refine List.filter_congr fun found hfound => decide_eq_decide.mpr ?_
      obtain ⟨first, _, more, hnames⟩ := Directory.head_of_mem_listing h hfound
      rw [hnames]
      exact isToml_cons (List.cons_ne_nil _ _)
    rw [Node.tomlFiles, hcheck, Node.listing, List.filter_map, List.map_map]
    exact hentries.trans (congrArg _ hfilter.symm)

/-- Where all directories can be read, the TOML files are those among the files that are listed. -/
theorem Directory.tomlFiles_eq : (root : Directory) → root.Proper → ∀ path,
    (∀ names inside, names ≠ [] → root.node? names = some (.directory inside) →
      checkPath (below path names) = .ok ()) →
    root.tomlFiles path = (root.listing.filter fun found => IsToml found.1).map (readFound path)
  | .empty, _, path, _ => by
    rw [Directory.tomlFiles, Directory.listing]
    rfl
  | .entry name node rest, h, path, hreadable => by
    rw [Directory.Proper] at h
    obtain ⟨_, hnode, hless, hrest⟩ := h
    have hfirst := node.tomlFiles_eq name hnode path fun names inside hinside => by
      refine hreadable (name :: names) inside (List.cons_ne_nil _ _) ?_
      rw [Directory.node?_entry_self, hinside]
    have hmore := rest.tomlFiles_eq hrest path fun names inside hne hinside => by
      refine hreadable names inside hne ?_
      obtain ⟨other, more, rfl⟩ := List.exists_cons_of_ne_nil hne
      have hother := hless other (Directory.mem_names_of_node? hinside)
      rw [Directory.node?_entry_of_ne hother.ne, hinside]
    rw [Directory.tomlFiles, Directory.listing, List.filter_append, List.map_append, hfirst, hmore]

end

end FinalGrades
