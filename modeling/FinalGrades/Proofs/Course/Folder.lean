import FinalGrades.Proofs.Course.TomlFiles
import FinalGrades.Proofs.Text.Order
import Mathlib

/-!
The courses of a folder. They are those of the TOML files at any depth, in the order of the files'
names, and what is wrong with one file changes nothing about another.
-/

namespace FinalGrades

open Attempt

variable {files : FileTree} {folder : Directory} {content : Content} {path : String}
  {names : List String}

theorem Directory.standing_eq_file_iff :
    folder.standing names = .file content ↔ folder.node? names = some (.file content) := by
  unfold standing
  split
  next hnone => simp [hnone]
  next node hnode => cases node <;> simp [hnode, Node.standing]

namespace FileTree

/-- A directory that stands at a path and can be read with all directories in it. -/
structure Holds (files : FileTree) (path : String) (folder : Directory) : Prop where
  found : files.directory? path = some folder
  proper : folder.Proper
  readable : ∀ names inside, folder.node? names = some (.directory inside) →
    (files.directory? (below path names)).isSome = true

/-- A directory of a proper file tree, where its entries are found readable one by one. -/
theorem holds_of_readable (h : files.Proper) (hfound : files.directory? path = some folder)
    (hreadable : folder.readable files path = true) : files.Holds path folder where
  found := hfound
  proper := by
    obtain ⟨_, names, _, hnode⟩ := exists_locate hfound
    have hproper := (h.root.of_node? hnode).2
    rwa [Node.Proper] at hproper
  readable names inside hinside := by
    by_cases hne : names = []
    · rw [hne]
      exact Option.isSome_of_eq_some hfound
    · exact Directory.isSome_directory?_of_readable hreadable hne hinside

theorem checkPath_of_directory? (h : (files.directory? path).isSome = true) :
    checkPath path = .ok () := by
  rw [directory?, find] at h
  cases hcheck : checkPath path with
  | ok => rfl
  | error error =>
    rw [hcheck] at h
    cases h

theorem Holds.readText (h : files.Holds path folder)
    (hfile : folder.standing names = .file content) :
    files.readText (below path names) = content.readAt (below path names) := by
  have hnode := Directory.standing_eq_file_iff.mp hfile
  have hne : names ≠ [] := by
    rintro rfl
    cases hnode
  have hfind := find_below h.found (h.proper.of_node? hnode).1 hne hnode
  rw [FileTree.readText, hfind]
  unfold Content.readAt
  cases checkPath (below path names) with
  | error error => rfl
  | ok => cases content <;> rfl

end FileTree

namespace Course

/-- The names that lead to the TOML files below a directory. -/
def tomlPlaces (folder : Directory) : List (List String) :=
  (folder.listing.filter fun found => IsToml found.1).map Prod.fst

theorem mem_tomlPlaces (h : folder.Proper) :
    names ∈ tomlPlaces folder ↔
      IsToml names ∧ ∃ content, folder.standing names = .file content := by
  simp only [tomlPlaces, List.mem_map, List.mem_filter, decide_eq_true_eq,
    Directory.standing_eq_file_iff, ← folder.mem_listing h]
  constructor
  · rintro ⟨⟨_, content⟩, ⟨hmem, htoml⟩, rfl⟩
    exact ⟨htoml, content, hmem⟩
  · rintro ⟨htoml, content, hmem⟩
    exact ⟨(names, content), ⟨hmem, htoml⟩, rfl⟩

theorem tomlPlaces_ordered (h : folder.Proper) : (tomlPlaces folder).Pairwise (· < ·) :=
  List.pairwise_map.mpr ((folder.listing_ordered h).filter _)

/-- A folder with a directory that is named as a TOML file, and files that are not. -/
def nestedFolder (content : Content) : Directory :=
  .entry ".toml" (.file (.text "")) <|
  .entry "a.toml" (.file content) <|
  .entry "d.toml" (.directory (.entry "b.toml" (.file (.binary [255])) .empty)) <|
  .entry "x.TOML" (.file (.text "")) .empty

/-- The folder as the only directory there is. -/
def nestedFiles (content : Content) : FileTree where
  root := .entry "courses" (.directory (nestedFolder content)) .empty

example : tomlPlaces (nestedFolder (.text "")) = [["a.toml"], ["d.toml", "b.toml"]] := by
  decide +kernel

theorem holds_nestedFolder (content : Content) :
    (nestedFiles content).Holds "courses" (nestedFolder content) :=
  FileTree.holds_of_readable ⟨of_decide_eq_true rfl⟩ rfl rfl

/-- The text of a course. -/
def wholeText : Content := .text "[course]\nid = \"a\"\nname = \"A\"\n"

/-- A text that is no document. -/
def brokenText : Content := .text "not [toml"

theorem readFolder_eq (h : files.Holds path folder) :
    readFolder files path = .ok ((tomlPlaces folder).map fun names =>
      (below path names, load files (below path names))) := by
  have hfiles := folder.tomlFiles_eq h.proper path fun names inside _ hinside =>
    FileTree.checkPath_of_directory? (h.readable names inside hinside)
  rw [readFolder, h.found]
  dsimp only
  rw [hfiles, tomlPlaces, List.map_map, List.map_map]
  refine congrArg Except.ok (List.map_congr_left fun found hfound => ?_)
  have hfile := (folder.mem_listing h.proper _ _).mp (List.mem_filter.mp hfound).1
  have htext := h.readText (Directory.standing_eq_file_iff.mpr hfile)
  rw [Function.comp_apply, Function.comp_apply, readFound, load, htext]

/-- The course of the file at a place below a folder, if it has one. -/
def course? (files : FileTree) (path : String) (names : List String) : Option Course :=
  (load files (below path names)).toOption

/-- The warning about the file at a place below a folder, if it has no course. -/
def warning? (files : FileTree) (path : String) (names : List String) : Option Event :=
  match load files (below path names) with
  | .ok _ => none
  | .error error => some ⟨.warn, s!"skipping {below path names}: {error.message}"⟩

/--
The places of the TOML files below a folder, compared name by name as bytes. Each of these files
has its course among those of the folder or else a warning, and no other file has either.
-/
structure Listing (files : FileTree) (path : String) (folder : Directory)
    (places : List (List String)) : Prop where
  ordered : places.Pairwise fun first second => first.map Text.bytes < second.map Text.bytes
  mem_iff : ∀ names, names ∈ places ↔
    IsToml names ∧ ∃ content, folder.standing names = .file content
  courses : loadFolder files path = .ok (places.filterMap (course? files path))
  warnings : folderEvents files path = places.filterMap (warning? files path)

theorem listing_tomlPlaces (h : files.Holds path folder) :
    Listing files path folder (tomlPlaces folder) where
  ordered := (tomlPlaces_ordered h.proper).imp Text.map_bytes_lt
  mem_iff _ := mem_tomlPlaces h.proper
  courses := by
    rw [loadFolder, readFolder_eq h, ok_bind, List.filterMap_map]
    rfl
  warnings := by
    rw [folderEvents, readFolder_eq h]
    dsimp only
    rw [List.filterMap_map]
    refine List.filterMap_congr fun names _ => ?_
    cases hload : load files (below path names) <;>
      simp only [Function.comp_apply, warning?, hload]

/-- What is in order falls apart at a place into what stands before it, on it and behind it. -/
theorem eq_filter_append {places : List (List String)} (h : places.Pairwise (· < ·))
    (target : List String) : places =
      places.filter (· < target) ++ places.filter (· = target) ++ places.filter (target < ·) := by
  refine h.eq_of_mem_iff ?_ fun names => ?_
  · refine List.pairwise_append.mpr ⟨List.pairwise_append.mpr ⟨h.filter _, h.filter _, ?_⟩,
      h.filter _, ?_⟩
    · intro first hfirst second hsecond
      rw [of_decide_eq_true (List.mem_filter.mp hsecond).2]
      exact of_decide_eq_true (List.mem_filter.mp hfirst).2
    · intro first hfirst second hsecond
      have habove := of_decide_eq_true (List.mem_filter.mp hsecond).2
      rcases List.mem_append.mp hfirst with hbefore | hown
      · exact lt_trans (of_decide_eq_true (List.mem_filter.mp hbefore).2) habove
      · rwa [of_decide_eq_true (List.mem_filter.mp hown).2]
  · simp only [List.mem_append, List.mem_filter, decide_eq_true_eq, ← and_or_left]
    exact (and_iff_left ((or_assoc.mpr (lt_trichotomy names target)))).symm

theorem mem_filter_append_iff {places : List (List String)} {target : List String} :
    names ∈ places.filter (· < target) ++ places.filter (target < ·) ↔
      names ∈ places ∧ names ≠ target := by
  simp only [List.mem_append, List.mem_filter, decide_eq_true_eq, ← and_or_left, lt_or_lt_iff_ne]

theorem load_congr {files' : FileTree} {folder' : Directory} (h : files.Holds path folder)
    (h' : files'.Holds path folder') (hfile : folder.standing names = .file content)
    (hfile' : folder'.standing names = .file content) :
    load files' (below path names) = load files (below path names) := by
  rw [load, load, h.readText hfile, h'.readText hfile']

/--
A folder lists its TOML files. Where another file tree has the same folder but for one file, the
other entries are the same, in the same order.
-/
theorem loadFolder_listing (h : files.Holds path folder) :
    ∃ places, Listing files path folder places ∧
      ∀ files' folder' places' target, FileTree.Holds files' path folder' →
        (∀ names content, names ≠ target →
          (folder'.standing names = .file content ↔ folder.standing names = .file content)) →
        Listing files' path folder' places' →
        ∃ before after, places = before ++ places.filter (· = target) ++ after ∧
          places' = before ++ places'.filter (· = target) ++ after ∧
          ∀ names ∈ before ++ after,
            load files' (below path names) = load files (below path names) := by
  refine ⟨tomlPlaces folder, listing_tomlPlaces h, ?_⟩
  intro files' folder' places' target h' hsame hlisting
  have hordered := tomlPlaces_ordered h.proper
  have hordered' := hlisting.ordered.imp Text.map_bytes_lt_iff.mp
  have hfilter (p : List String → Bool) (hp : ∀ names, p names = true → names ≠ target) :
      places'.filter p = (tomlPlaces folder).filter p := by
    refine (hordered'.filter p).eq_of_mem_iff (hordered.filter p) fun names => ?_
    rw [List.mem_filter, List.mem_filter, hlisting.mem_iff, mem_tomlPlaces h.proper]
    refine and_congr_left fun hnames => and_congr_right fun _ => ?_
    exact exists_congr fun content => hsame names content (hp names hnames)
  have hbefore := hfilter (· < target) fun names hless => (of_decide_eq_true hless).ne
  have hafter := hfilter (target < ·) fun names hless => (of_decide_eq_true hless).ne'
  have hsplit := eq_filter_append hordered' target
  rw [hbefore, hafter] at hsplit
  refine ⟨_, _, eq_filter_append hordered target, hsplit, fun names hnames => ?_⟩
  obtain ⟨hmem, hne⟩ := mem_filter_append_iff.mp hnames
  obtain ⟨_, content, hfile⟩ := (mem_tomlPlaces h.proper).mp hmem
  exact load_congr h h' hfile ((hsame names content hne).mpr hfile)

theorem Listing.eq_tomlPlaces {places : List (List String)} (h : files.Holds path folder)
    (hlisting : Listing files path folder places) : places = tomlPlaces folder := by
  refine (hlisting.ordered.imp Text.map_bytes_lt_iff.mp).eq_of_mem_iff
    (tomlPlaces_ordered h.proper) fun names => ?_
  rw [hlisting.mem_iff, mem_tomlPlaces h.proper]

theorem load_wholeText : load (nestedFiles wholeText) "courses/a.toml" =
    .ok { id := "a", name := "A", formula := "", components := [], students := [] } := by
  have htoml : Toml.read? "[course]\nid = \"a\"\nname = \"A\"\n" =
      some [("course", .table .header [("id", .text "a"), ("name", .text "A")])] := by cbv
  have htext : (nestedFiles wholeText).readText "courses/a.toml" =
      .ok "[course]\nid = \"a\"\nname = \"A\"\n" := rfl
  rw [load, htext, ofContent, read, readDocument, Toml.Fields.ofText, htoml]
  rfl

theorem load_brokenText : load (nestedFiles brokenText) "courses/a.toml" =
    .error (.malformed "courses/a.toml" .notToml) := by
  have htoml : Toml.read? "not [toml" = none := by cbv
  have htext : (nestedFiles brokenText).readText "courses/a.toml" = .ok "not [toml" := rfl
  rw [load, htext, ofContent, read, readDocument, Toml.Fields.ofText, htoml]
  rfl

/-- The warning about a file that is skipped for an error. -/
def skipped (path : String) (error : CourseError) : Event :=
  ⟨.warn, s!"skipping {path}: {error.message}"⟩

/--
The course is loaded as long as its file is whole. The broken file has a warning of its own, before
the one for the file that is no text, and nothing else changes.
-/
theorem loadFolder_listing_nested :
    (nestedFiles wholeText).Holds "courses" (nestedFolder wholeText) ∧
    (nestedFiles brokenText).Holds "courses" (nestedFolder brokenText) ∧
    (∃ places places' before after,
      Listing (nestedFiles wholeText) "courses" (nestedFolder wholeText) places ∧
      Listing (nestedFiles brokenText) "courses" (nestedFolder brokenText) places' ∧
      places = before ++ places.filter (· = ["a.toml"]) ++ after ∧
      places' = before ++ places'.filter (· = ["a.toml"]) ++ after ∧
      ∀ names ∈ before ++ after, load (nestedFiles brokenText) (below "courses" names) =
        load (nestedFiles wholeText) (below "courses" names)) ∧
    loadFolder (nestedFiles wholeText) "courses" =
      .ok [{ id := "a", name := "A", formula := "", components := [], students := [] }] ∧
    folderEvents (nestedFiles wholeText) "courses" =
      [skipped "courses/d.toml/b.toml" (.unreadable "courses/d.toml/b.toml" .notText)] ∧
    loadFolder (nestedFiles brokenText) "courses" = .ok [] ∧
    folderEvents (nestedFiles brokenText) "courses" =
      [skipped "courses/a.toml" (.malformed "courses/a.toml" .notToml),
        skipped "courses/d.toml/b.toml" (.unreadable "courses/d.toml/b.toml" .notText)] := by
  have hput : nestedFolder brokenText =
      (nestedFolder wholeText).putAt (.file brokenText) ["a.toml"] := rfl
  have hbare : (Node.file brokenText).Bare := trivial
  have hfree : (nestedFolder wholeText).standing ["a.toml"] ≠ .directory := by decide
  have hsame (names : List String) (content : Content) (hne : names ≠ ["a.toml"]) :
      (nestedFolder brokenText).standing names = .file content ↔
        (nestedFolder wholeText).standing names = .file content := by
    rw [hput, Directory.standing_putAt_of_ne hbare hfree hne]
  have hwhole := holds_nestedFolder wholeText
  have hbroken := holds_nestedFolder brokenText
  obtain ⟨places, hlisting, hother⟩ := loadFolder_listing hwhole
  obtain ⟨places', hlisting', _⟩ := loadFolder_listing hbroken
  obtain ⟨before, after, hplaces, hplaces', hload⟩ :=
    hother _ _ places' ["a.toml"] hbroken hsame hlisting'
  have hlisted : places = [["a.toml"], ["d.toml", "b.toml"]] :=
    (hlisting.eq_tomlPlaces hwhole).trans (by decide +kernel)
  have hlisted' : places' = [["a.toml"], ["d.toml", "b.toml"]] :=
    (hlisting'.eq_tomlPlaces hbroken).trans (by decide +kernel)
  have hcourses := hlisting.courses
  have hwarnings := hlisting.warnings
  have hcourses' := hlisting'.courses
  have hwarnings' := hlisting'.warnings
  have hpath : below "courses" ["a.toml"] = "courses/a.toml" := by decide +kernel
  simp only [hlisted, List.filterMap_cons, List.filterMap_nil, course?, warning?, hpath,
    load_wholeText] at hcourses hwarnings
  simp only [hlisted', List.filterMap_cons, List.filterMap_nil, course?, warning?, hpath,
    load_brokenText] at hcourses' hwarnings'
  exact ⟨hwhole, hbroken,
    ⟨places, places', before, after, hlisting, hlisting', hplaces, hplaces', hload⟩,
    hcourses, hwarnings, hcourses', hwarnings'⟩

end Course

end FinalGrades
