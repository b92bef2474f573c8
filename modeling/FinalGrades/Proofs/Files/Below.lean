import FinalGrades.Proofs.Files.Standing
import Mathlib.Data.List.Basic

/-!
The paths of what lies below a directory: one name after the other behind the path of the directory.
They are followed from the directory on, wherever that is.
-/

namespace FinalGrades

open Attempt

variable {path name : String} {names : List String}

/-- A name that a file or a directory can have. -/
structure IsFileName (name : String) : Prop where
  ne_empty : name ≠ ""
  whole : '/' ∉ name.toList
  here : name ≠ "."
  above : name ≠ ".."
  limit : name.utf8ByteSize ≤ nameLimit

instance : DecidablePred IsFileName := fun name =>
  decidable_of_iff (name ≠ "" ∧ '/' ∉ name.toList ∧ name ≠ "." ∧ name ≠ ".." ∧
      name.utf8ByteSize ≤ nameLimit)
    ⟨fun ⟨hempty, hwhole, hhere, habove, hlimit⟩ => ⟨hempty, hwhole, hhere, habove, hlimit⟩,
      fun h => ⟨h.ne_empty, h.whole, h.here, h.above, h.limit⟩⟩

/-- The path of what lies below a directory at a path. -/
def below (path : String) (names : List String) : String := names.foldl joinPath path

theorem pathSegments_append (first second : String) :
    pathSegments (first ++ "/" ++ second) = pathSegments first ++ pathSegments second := by
  have hsplit : (first ++ "/" ++ second).toList = first.toList ++ '/' :: second.toList := by simp
  rw [pathSegments, hsplit, List.splitOn_append_cons_self, List.filterMap_append, pathSegments,
    pathSegments]

theorem exists_of_endsInSlash (h : endsInSlash path = true) : ∃ start, path = start ++ "/" := by
  obtain ⟨start, hstart⟩ := List.getLast?_eq_some_iff.mp (of_decide_eq_true h)
  refine ⟨String.ofList start, String.toList_inj.mp ?_⟩
  rw [hstart, String.toList_append, String.toList_ofList]
  rfl

namespace IsFileName

theorem toList_ne_nil (h : IsFileName name) : name.toList ≠ [] :=
  mt String.toList_eq_nil_iff.mp h.ne_empty

theorem pathSegments (h : IsFileName name) : pathSegments name = [name] := by
  rw [FinalGrades.pathSegments, List.splitOn_eq_singleton h.whole]
  simp [h.toList_ne_nil]

theorem isAbsolute (h : IsFileName name) : isAbsolute name = false :=
  decide_eq_false fun hhead => h.whole (List.mem_of_mem_head? hhead)

/-- A name is joined to a path by a slash, unless one is there or nothing is. -/
theorem joinPath_cases (h : IsFileName name) (path : String) :
    (path = "" ∧ joinPath path name = name) ∨
      ∃ start, (path = start ∨ path = start ++ "/") ∧
        joinPath path name = start ++ "/" ++ name := by
  rw [joinPath, h.isAbsolute, if_neg Bool.false_ne_true]
  split
  next hready =>
    rcases Bool.or_eq_true_iff.mp hready with hempty | hslash
    · obtain rfl : path = "" := String.isEmpty_iff.mp hempty
      exact .inl ⟨rfl, String.empty_append⟩
    · obtain ⟨start, rfl⟩ := exists_of_endsInSlash hslash
      exact .inr ⟨start, .inr rfl, rfl⟩
  next => exact .inr ⟨path, .inl rfl, rfl⟩

theorem pathSegments_joinPath (h : IsFileName name) (path : String) :
    FinalGrades.pathSegments (joinPath path name) = FinalGrades.pathSegments path ++ [name] := by
  rcases h.joinPath_cases path with ⟨rfl, hjoin⟩ | ⟨start, rfl | rfl, hjoin⟩
  · rw [hjoin, h.pathSegments]
    rfl
  · rw [hjoin, pathSegments_append, h.pathSegments]
  · have hstart := pathSegments_append start ""
    rw [String.append_empty] at hstart
    rw [hjoin, pathSegments_append, h.pathSegments, hstart]
    simp [FinalGrades.pathSegments]

theorem isAbsolute_joinPath (h : IsFileName name) (hne : path ≠ "") :
    FinalGrades.isAbsolute (joinPath path name) = FinalGrades.isAbsolute path := by
  have hhead (start : String) (rest : String) (hstart : start ≠ "") :
      (start ++ rest).toList.head? = start.toList.head? := by
    rw [String.toList_append, List.head?_append_of_ne_nil _ (mt String.toList_eq_nil_iff.mp hstart)]
  unfold FinalGrades.isAbsolute
  rcases h.joinPath_cases path with ⟨rfl, _⟩ | ⟨start, rfl | rfl, hjoin⟩
  · exact absurd rfl hne
  · rw [hjoin, String.append_assoc, hhead _ _ hne]
  · rw [hjoin, hhead _ _ hne]

theorem endsInSlash_joinPath (h : IsFileName name) (path : String) :
    endsInSlash (joinPath path name) = false := by
  have hlast (start : String) : (start ++ name).toList.getLast? = name.toList.getLast? := by
    rw [String.toList_append, List.getLast?_append_of_ne_nil _ h.toList_ne_nil]
  have hname : name.toList.getLast? ≠ some '/' := fun hslash =>
    h.whole (List.mem_of_getLast? hslash)
  refine decide_eq_false ?_
  rcases h.joinPath_cases path with ⟨_, hjoin⟩ | ⟨start, _, hjoin⟩
  · rwa [hjoin]
  · rwa [hjoin, hlast]

end IsFileName

/-- The path below a directory leads on by its names from where the path of the directory leads. -/
theorem below_spec (h : ∀ name ∈ names, IsFileName name) (hne : path ≠ "") :
    pathSegments (below path names) = pathSegments path ++ names ∧
      isAbsolute (below path names) = isAbsolute path := by
  induction names generalizing path with
  | nil => exact ⟨(List.append_nil _).symm, rfl⟩
  | cons name rest ih =>
    have hname := h name List.mem_cons_self
    have hjoin : joinPath path name ≠ "" := fun hempty => by
      have hsegments := hname.pathSegments_joinPath path
      rw [hempty] at hsegments
      exact List.append_ne_nil_of_right_ne_nil _ (List.cons_ne_nil _ _) hsegments.symm
    have hrest : ∀ name ∈ rest, IsFileName name := fun other hmem =>
      h other (List.mem_cons_of_mem _ hmem)
    obtain ⟨hsegments, habsolute⟩ := ih hrest hjoin
    have hbelow : below path (name :: rest) = below (joinPath path name) rest := rfl
    rw [hbelow, hsegments, habsolute, hname.pathSegments_joinPath, hname.isAbsolute_joinPath hne,
      List.append_assoc]
    exact ⟨rfl, rfl⟩

theorem endsInSlash_below (h : ∀ name ∈ names, IsFileName name) (hne : names ≠ []) :
    endsInSlash (below path names) = false := by
  obtain ⟨above, last, rfl⟩ := List.eq_nil_or_concat names |>.resolve_left hne
  rw [List.concat_eq_append] at h ⊢
  rw [below, List.foldl_append]
  exact (h last (by simp)).endsInSlash_joinPath _

namespace FileTree

variable {files : FileTree} {folder : Directory} {node : Node} {trail segments found : List String}

theorem Leads.eq_of_here {inside : Directory} {next : List String}
    (h : Leads inside trail "." next) : next = trail := by
  generalize hdot : "." = segment at h
  cases h with
  | here => rfl
  | above => exact absurd hdot (by decide)
  | below hhere => exact absurd hdot.symm hhere

theorem locate_of_here (h : files.locate trail (segments ++ ["."]) = .ok found) :
    files.locate trail segments = .ok found := by
  induction segments generalizing trail with
  | nil =>
    obtain ⟨_, next, _, hleads, hrest⟩ := exists_leads h
    exact hleads.eq_of_here ▸ hrest
  | cons segment rest ih =>
    obtain ⟨inside, next, hinside, hleads, hrest⟩ := exists_leads h
    rw [locate_of_leads hinside hleads]
    exact ih hrest

/-- Where the path of a directory leads. -/
theorem exists_locate (h : files.directory? path = some folder) :
    path ≠ "" ∧ ∃ found, files.locate (files.start path) (pathSegments path) = .ok found ∧
      files.root.node? found = some (.directory folder) := by
  rw [directory?] at h
  split at h
  next inside hfind =>
    cases h
    obtain ⟨_, hcheck, hfind⟩ := bind_eq_ok_iff.mp hfind
    obtain ⟨found, hlocate, hfind⟩ := bind_eq_ok_iff.mp hfind
    split at hfind
    next node hnode =>
      cases hfind
      refine ⟨?_, found, ?_, hnode⟩
      · rintro rfl
        have hempty : checkPath "" = .error .notFound := rfl
        rw [hempty] at hcheck
        cases hcheck
      · split at hlocate
        next => exact locate_of_here hlocate
        next => exact hlocate
    next => cases hfind
  next => cases h

/-- What lies below a directory is found at its path, if the path can be looked up at all. -/
theorem find_below (h : files.directory? path = some folder)
    (hnames : ∀ name ∈ names, IsFileName name) (hne : names ≠ [])
    (hnode : folder.node? names = some node) :
    files.find (below path names) = checkPath (below path names) >>= fun _ => .ok node := by
  obtain ⟨hpath, found, hlocate, hfound⟩ := exists_locate h
  obtain ⟨hsegments, habsolute⟩ := below_spec hnames hpath
  have hstart : files.start (below path names) = files.start path := by
    rw [start, start, habsolute]
  have hend : files.root.node? (found.reverse.reverse ++ names) = some node := by
    rw [List.reverse_reverse, Directory.node?_append hfound, hnode]
  have hdown : LeadDown names := fun name hmem =>
    ⟨(hnames name hmem).here, (hnames name hmem).above, (hnames name hmem).limit⟩
  rw [find, endsInSlash_below hnames hne, hsegments, hstart]
  dsimp only
  rw [if_neg Bool.false_ne_true, locate_append hlocate, hdown.locate hend, ok_bind, hend]
  rfl

end FileTree

end FinalGrades
