import FinalGrades.Proofs.Files.Below
import Mathlib.Data.String.Basic

/-!
Directories as they can be on a disk: each of their names can be given to a file, and stands there
once and in order. Making directories and writing files keeps them so.
-/

namespace FinalGrades

open Attempt

/-- The names in a directory, in its order. -/
def Directory.names : Directory → List String
  | .empty => []
  | .entry name _ rest => name :: rest.names

mutual

/-- Every directory has names that can be given, each once and in order. -/
def Node.Proper : Node → Prop
  | .file _ => True
  | .directory entries => entries.Proper

def Directory.Proper : Directory → Prop
  | .empty => True
  | .entry name node rest =>
    IsFileName name ∧ node.Proper ∧ (∀ other ∈ rest.names, name < other) ∧ rest.Proper

end

mutual

instance Node.decidableProper : (node : Node) → Decidable node.Proper
  | .file _ => .isTrue trivial
  | .directory entries => entries.decidableProper

instance Directory.decidableProper : (root : Directory) → Decidable root.Proper
  | .empty => .isTrue trivial
  | .entry name node rest =>
    have := node.decidableProper
    have := rest.decidableProper
    inferInstanceAs (Decidable (IsFileName name ∧ node.Proper ∧
      (∀ other ∈ rest.names, name < other) ∧ rest.Proper))

end

/-- The node at the end of a path of names from a node. -/
def Node.node? : Node → List String → Option Node
  | .file content, [] => some (.file content)
  | .file _, _ :: _ => none
  | .directory entries, path => entries.node? path

variable {name other : String} {names path : List String}

namespace Directory

variable {root rest : Directory} {node found : Node}

theorem find?_of_node? (h : root.node? (name :: path) = some found) :
    ∃ node, root.find? name = some node ∧ node.node? path = some found := by
  cases path with
  | nil =>
    refine ⟨found, h, ?_⟩
    cases found <;> rfl
  | cons next more =>
    rw [node?_cons_cons] at h
    split at h
    next inside hinside => exact ⟨.directory inside, hinside, h⟩
    next => cases h

theorem node?_of_find? (h : root.find? name = some node) :
    root.node? (name :: path) = node.node? path := by
  cases node with
  | directory inside => exact node?_cons_of_find? h
  | file content =>
    cases path with
    | nil => exact h
    | cons next more =>
      rw [node?_cons_cons, h]
      rfl

theorem node?_entry_self : (entry name node rest).node? (name :: path) = node.node? path :=
  node?_of_find? (if_pos rfl)

theorem node?_entry_of_ne (h : name ≠ other) :
    (entry name node rest).node? (other :: path) = rest.node? (other :: path) := by
  have hfind : (entry name node rest).find? other = rest.find? other := if_neg h
  cases path with
  | nil => exact hfind
  | cons next more => rw [node?_cons_cons, node?_cons_cons, hfind]

theorem mem_names_of_find? (h : root.find? name = some node) : name ∈ root.names := by
  fun_induction find? name root with
  | case1 => cases h
  | case2 => exact List.mem_cons_self
  | case3 other found rest hne ih => exact List.mem_cons_of_mem _ (ih h)

theorem mem_names_of_node? (h : root.node? (name :: path) = some found) : name ∈ root.names := by
  obtain ⟨node, hfind, _⟩ := find?_of_node? h
  exact mem_names_of_find? hfind

/-- What stands in a proper directory is proper, under a name that can be given. -/
theorem Proper.of_find? (h : root.Proper) (hfind : root.find? name = some node) :
    IsFileName name ∧ node.Proper := by
  fun_induction find? name root with
  | case1 => cases hfind
  | case2 found rest =>
    rw [Directory.Proper] at h
    cases hfind
    exact ⟨h.1, h.2.1⟩
  | case3 other found rest hne ih =>
    rw [Directory.Proper] at h
    exact ih h.2.2.2 hfind

theorem Proper.of_node? (h : root.Proper) (hnode : root.node? names = some found) :
    (∀ name ∈ names, IsFileName name) ∧ found.Proper := by
  induction names generalizing root with
  | nil =>
    cases hnode
    rw [Node.Proper]
    exact ⟨List.forall_mem_nil _, h⟩
  | cons name path ih =>
    obtain ⟨node, hfind, hnext⟩ := find?_of_node? hnode
    obtain ⟨hname, hproper⟩ := h.of_find? hfind
    cases node with
    | directory inside =>
      rw [Node.Proper] at hproper
      obtain ⟨hpath, hfound⟩ := ih hproper hnext
      exact ⟨List.forall_mem_cons.mpr ⟨hname, hpath⟩, hfound⟩
    | file content =>
      cases path with
      | nil =>
        cases hnext
        exact ⟨List.forall_mem_singleton.mpr hname, hproper⟩
      | cons next more => cases hnext

theorem mem_names_put (h : other ∈ (root.put name node).names) :
    other = name ∨ other ∈ root.names := by
  fun_induction put name node root with
  | case1 => exact .inl (List.mem_singleton.mp h)
  | case2 => exact List.mem_cons.mp h
  | case3 rest _ hless => exact (List.mem_cons.mp h).imp_right (List.mem_cons_of_mem _)
  | case4 first old rest _ hne ih =>
    rcases List.mem_cons.mp h with rfl | hrest
    · exact .inr List.mem_cons_self
    · exact (ih hrest).imp_right (List.mem_cons_of_mem _)

theorem Proper.put (h : root.Proper) (hname : IsFileName name) (hnode : node.Proper) :
    (root.put name node).Proper := by
  fun_induction Directory.put name node root with
  | case1 =>
    rw [Directory.Proper]
    exact ⟨hname, hnode, List.forall_mem_nil _, h⟩
  | case2 first old rest hless =>
    have hrest := h
    rw [Directory.Proper] at hrest
    rw [Directory.Proper]
    refine ⟨hname, hnode, fun other hother => ?_, h⟩
    rcases List.mem_cons.mp hother with rfl | hmore
    · exact hless
    · exact hless.trans (hrest.2.2.1 other hmore)
  | case3 old rest hless =>
    rw [Directory.Proper] at h ⊢
    exact ⟨hname, hnode, h.2.2⟩
  | case4 first old rest hless hne ih =>
    rw [Directory.Proper] at h ⊢
    refine ⟨h.1, h.2.1, fun other hother => ?_, ih h.2.2.2⟩
    rcases mem_names_put hother with rfl | hmore
    · exact lt_of_le_of_ne (not_lt.mp hless) (Ne.symm hne)
    · exact h.2.2.1 other hmore

theorem Proper.putAt (h : root.Proper) (hnames : ∀ name ∈ names, IsFileName name)
    (hnode : node.Proper) : (root.putAt node names).Proper := by
  induction names generalizing root with
  | nil => exact h
  | cons name rest ih =>
    obtain ⟨hname, hrest⟩ := List.forall_mem_cons.mp hnames
    rcases putAt_cases root node name rest with hput | ⟨_, hput⟩ | ⟨below, _, hbelow, hput⟩
    · rwa [hput]
    · rw [hput]
      exact h.put hname hnode
    · have hproper := (h.of_find? hbelow).2
      rw [Node.Proper] at hproper
      rw [hput]
      refine h.put hname ?_
      rw [Node.Proper]
      exact ih hproper hrest

end Directory

theorem not_mem_of_mem_splitOn {separator : Char} {text part : List Char}
    (h : part ∈ text.splitOn separator) : separator ∉ part := by
  induction text generalizing part with
  | nil =>
    rw [List.splitOn_nil, List.mem_singleton] at h
    rw [h]
    exact List.not_mem_nil
  | cons c rest ih =>
    rw [List.splitOn_cons_eq_if_modifyHead] at h
    split at h
    · rcases List.mem_cons.mp h with rfl | hrest
      · exact List.not_mem_nil
      · exact ih hrest
    next hc =>
      obtain ⟨first, more, hsplit⟩ :=
        List.exists_cons_of_ne_nil (List.splitOn_ne_nil separator rest)
      rw [hsplit, List.modifyHead_cons] at h
      rw [hsplit] at ih
      rcases List.mem_cons.mp h with rfl | hmore
      · intro hmem
        rcases List.mem_cons.mp hmem with rfl | hfirst
        · exact hc (beq_self_eq_true _)
        · exact ih List.mem_cons_self hfirst
      · exact ih (List.mem_cons_of_mem _ hmore)

theorem isFileName_of_mem_pathSegments {path segment : String} (h : segment ∈ pathSegments path)
    (hhere : segment ≠ ".") (habove : segment ≠ "..") (hlimit : segment.utf8ByteSize ≤ nameLimit) :
    IsFileName segment := by
  obtain ⟨part, hpart, hsegment⟩ := List.mem_filterMap.mp h
  split at hsegment
  · cases hsegment
  next hne =>
    cases hsegment
    refine ⟨?_, ?_, hhere, habove, hlimit⟩
    · simpa using hne
    · rw [String.toList_ofList]
      exact not_mem_of_mem_splitOn hpart

namespace FileTree

/-- All directories of a file tree are proper. -/
structure Proper (files : FileTree) : Prop where
  root : files.root.Proper

variable {files written : FileTree} {inside : Directory} {node : Node}
  {trail segments : List String} {path text segment : String}

theorem Proper.putAt (h : files.Proper)
    (hinside : files.root.node? names = some (.directory inside))
    (hname : IsFileName segment) (hnode : node.Proper) :
    (files.putAt (names ++ [segment]) node).Proper where
  root := h.root.putAt (List.forall_mem_append.mpr
    ⟨(h.root.of_node? hinside).1, List.forall_mem_singleton.mpr hname⟩) hnode

theorem Proper.writeText (h : files.Proper) (hwrite : files.writeText path text = .ok written) :
    written.Proper := by
  obtain ⟨last, names, inside, hwritable, rfl⟩ := exists_writable hwrite
  have hlast := isFileName_of_mem_pathSegments (List.mem_of_getLast? hwritable.ending)
    hwritable.named.1 hwritable.named.2.1 hwritable.limit
  exact h.putAt hwritable.directory hlast trivial

theorem Proper.makeWay (h : files.Proper) (hsegments : segments ⊆ pathSegments path) :
    (files.makeWay trail segments).files.Proper := by
  fun_induction FileTree.makeWay files trail segments with
  | case2 files trail rest inside hinside ih => exact ih h (List.subset_of_cons_subset hsegments)
  | case3 files trail rest inside hinside hhere ih =>
    exact ih h (List.subset_of_cons_subset hsegments)
  | case4 files trail segment rest inside hinside hhere habove below hbelow ih =>
    exact ih h (List.subset_of_cons_subset hsegments)
  | case7 files trail segment rest inside hinside hhere habove hnone hlimit ih =>
    obtain ⟨hsegment, hrest⟩ := List.cons_subset.mp hsegments
    have hname := isFileName_of_mem_pathSegments hsegment hhere habove (Nat.not_lt.mp hlimit)
    exact ih (h.putAt hinside hname trivial) hrest
  | _ => exact h

theorem Proper.makeParents (h : files.Proper) (path : String) :
    (files.makeParents path).files.Proper := by
  unfold FileTree.makeParents
  dsimp only
  split
  · exact h
  split
  · exact h
  split
  · exact h
  · exact h.makeWay (List.Subset.refl _)

end FileTree

end FinalGrades
