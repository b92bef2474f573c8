import FinalGrades.Proofs.Files.Proper

/-!
The files of a directory and of all directories in it. The names in each directory are in order, so
the files are listed in the order of the names that lead to them.
-/

namespace FinalGrades

mutual

/-- Every directory in a node is found at its path, which begins with the path of the node. -/
def Node.readable (files : FileTree) (path : String) : Node → Bool
  | .file _ => true
  | .directory entries => (files.directory? path).isSome && entries.readable files path

def Directory.readable (files : FileTree) (path : String) : Directory → Bool
  | .empty => true
  | .entry name node rest => node.readable files (joinPath path name) && rest.readable files path

end

mutual

/-- Every regular file below a node that has a name, with the names that lead to it. -/
def Node.listing (name : String) : Node → List (List String × Content)
  | .file content => [([name], content)]
  | .directory entries => entries.listing.map fun (names, content) => (name :: names, content)

def Directory.listing : Directory → List (List String × Content)
  | .empty => []
  | .entry name node rest => node.listing name ++ rest.listing

end

variable {name : String} {names path : List String} {content : Content}

namespace Directory

variable {root inside : Directory} {node : Node}

theorem readable_of_find? {files : FileTree} {start : String}
    (h : root.readable files start = true) (hfind : root.find? name = some node) :
    node.readable files (joinPath start name) = true := by
  fun_induction find? name root with
  | case1 => cases hfind
  | case2 found rest =>
    cases hfind
    rw [Directory.readable] at h
    exact (Bool.and_eq_true_iff.mp h).1
  | case3 other found rest hne ih =>
    rw [Directory.readable] at h
    exact ih (Bool.and_eq_true_iff.mp h).2 hfind

/-- What is found to be readable entry by entry is so wherever names lead to a directory. -/
theorem isSome_directory?_of_readable {files : FileTree} {start : String}
    (h : root.readable files start = true) (hne : path ≠ [])
    (hnode : root.node? path = some (.directory inside)) :
    (files.directory? (below start path)).isSome = true := by
  induction path generalizing root start with
  | nil => exact absurd rfl hne
  | cons name more ih =>
    obtain ⟨node, hfind, hnext⟩ := find?_of_node? hnode
    have hreadable := readable_of_find? h hfind
    cases node with
    | file content => cases more <;> cases hnext
    | directory first =>
      rw [Node.readable] at hreadable
      obtain ⟨hfound, hfirst⟩ := Bool.and_eq_true_iff.mp hreadable
      cases more with
      | nil => exact hfound
      | cons next rest => exact ih hfirst (List.cons_ne_nil _ _) hnext

end Directory

mutual

theorem Node.mem_listing (name : String) : (node : Node) → node.Proper → ∀ names content,
    (names, content) ∈ node.listing name ↔
      ∃ path, names = name :: path ∧ node.node? path = some (.file content)
  | .file found, _, names, content => by
    rw [Node.listing, List.mem_singleton]
    constructor
    · intro h
      cases h
      exact ⟨[], rfl, rfl⟩
    · rintro ⟨path, rfl, hnode⟩
      cases path with
      | nil => cases hnode; rfl
      | cons next more => cases hnode
  | .directory entries, h, names, content => by
    rw [Node.Proper] at h
    have hentries := entries.mem_listing h
    rw [Node.listing, List.mem_map]
    constructor
    · rintro ⟨⟨path, found⟩, hmem, heq⟩
      cases heq
      exact ⟨path, rfl, (hentries path content).mp hmem⟩
    · rintro ⟨path, rfl, hnode⟩
      exact ⟨(path, content), (hentries path content).mpr hnode, rfl⟩

/-- The files that are listed are those that names lead to. -/
theorem Directory.mem_listing : (root : Directory) → root.Proper → ∀ names content,
    (names, content) ∈ root.listing ↔ root.node? names = some (.file content)
  | .empty, _, names, content => by
    rw [Directory.listing]
    cases names with
    | nil => simp [Directory.node?]
    | cons name path => cases path <;> simp [Directory.node?, Directory.find?]
  | .entry first node rest, h, names, content => by
    rw [Directory.Proper] at h
    obtain ⟨_, hnode, hless, hrest⟩ := h
    rw [Directory.listing, List.mem_append, node.mem_listing first hnode, rest.mem_listing hrest]
    cases names with
    | nil => simp [Directory.node?]
    | cons name path =>
      by_cases hname : first = name
      · subst hname
        have hnone : rest.node? (first :: path) ≠ some (.file content) := fun hfound =>
          lt_irrefl _ (hless first (Directory.mem_names_of_node? hfound))
        simp [Directory.node?_entry_self, hnone]
      · simp [Directory.node?_entry_of_ne hname, Ne.symm hname]

end

theorem Directory.head_of_mem_listing {root : Directory} (h : root.Proper)
    (hmem : (names, content) ∈ root.listing) :
    ∃ name ∈ root.names, ∃ path, names = name :: path := by
  have hnode := (root.mem_listing h _ _).mp hmem
  cases names with
  | nil => cases hnode
  | cons name path => exact ⟨name, Directory.mem_names_of_node? hnode, path, rfl⟩

mutual

theorem Node.listing_ordered (name : String) : (node : Node) → node.Proper →
    (node.listing name).Pairwise fun first second => first.1 < second.1
  | .file content, _ => by
    rw [Node.listing]
    exact List.pairwise_singleton _ _
  | .directory entries, h => by
    rw [Node.Proper] at h
    rw [Node.listing, List.pairwise_map]
    exact (entries.listing_ordered h).imp fun hless => .cons hless

/-- The files are listed in the order of the names that lead to them, one name after the other. -/
theorem Directory.listing_ordered : (root : Directory) → root.Proper →
    root.listing.Pairwise fun first second => first.1 < second.1
  | .empty, _ => by
    rw [Directory.listing]
    exact .nil
  | .entry name node rest, h => by
    rw [Directory.Proper] at h
    obtain ⟨_, hnode, hless, hrest⟩ := h
    rw [Directory.listing]
    refine List.pairwise_append.mpr
      ⟨node.listing_ordered name hnode, rest.listing_ordered hrest, ?_⟩
    -- The first name decides between a file below this entry and one below a later entry.
    rintro ⟨first, content⟩ hfirst ⟨second, other⟩ hsecond
    obtain ⟨path, rfl, _⟩ := (node.mem_listing name hnode _ _).mp hfirst
    obtain ⟨next, hnext, more, rfl⟩ := Directory.head_of_mem_listing hrest hsecond
    exact .rel (hless next hnext)

end

end FinalGrades
