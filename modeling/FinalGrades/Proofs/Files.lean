import FinalGrades.Files
import FinalGrades.Proofs.Attempt
import Mathlib.Data.List.Basic

/-!
A file that was written is read again. The names of a path still lead where they led, for a file
takes the place of no directory, and at their end is the text.
-/

namespace FinalGrades

open Attempt

namespace Directory

variable {root inside : Directory} {node : Node} {name other : String} {names path : List String}

theorem find?_put_self (root : Directory) (name : String) (node : Node) :
    (root.put name node).find? name = some node := by
  fun_induction put name node root with
  | case1 => rw [find?, if_pos rfl]
  | case2 => rw [find?, if_pos rfl]
  | case3 => rw [find?, if_pos rfl]
  | case4 other old rest _ hne ih => rw [find?, if_neg (Ne.symm hne), ih]

theorem find?_put_of_ne (root : Directory) (node : Node) (h : other ≠ name) :
    (root.put name node).find? other = root.find? other := by
  fun_induction put name node root with
  | case1 => rw [find?, find?, if_neg (Ne.symm h), find?]
  | case2 => rw [find?, if_neg (Ne.symm h)]
  | case3 => rw [find?, find?, if_neg (Ne.symm h), if_neg (Ne.symm h)]
  | case4 first old rest _ hne ih => rw [find?, find?, ih]

/-- Every name of the one directory is a name of the other. -/
def Within (root larger : Directory) : Prop :=
  ∀ name, (root.find? name).isSome = true → (larger.find? name).isSome = true

theorem within_put (root : Directory) (name : String) (node : Node) :
    root.Within (root.put name node) := by
  intro other hother
  by_cases h : other = name
  · rw [h, find?_put_self]
    rfl
  · rw [find?_put_of_ne root node h]
    exact hother

theorem node?_cons_cons (root : Directory) (name next : String) (path : List String) :
    root.node? (name :: next :: path) = match root.find? name with
      | some (.directory inside) => inside.node? (next :: path)
      | _ => none := rfl

theorem putAt_cons_cons (root : Directory) (node : Node) (name next : String)
    (path : List String) : root.putAt node (name :: next :: path) = match root.find? name with
      | some (.directory inside) => root.put name (.directory (inside.putAt node (next :: path)))
      | _ => root := rfl

theorem node?_cons_of_find? (h : root.find? name = some (.directory inside)) :
    root.node? (name :: path) = inside.node? path := by
  cases path with
  | nil => exact h
  | cons next path => rw [node?_cons_cons, h]

/-- A directory below the first name of a path. -/
theorem find?_of_node?_cons (h : root.node? (name :: path) = some (.directory inside)) :
    ∃ first, root.find? name = some (.directory first) ∧
      first.node? path = some (.directory inside) := by
  cases path with
  | nil => exact ⟨inside, h, rfl⟩
  | cons next path =>
    rw [node?_cons_cons] at h
    split at h
    next first hfirst => exact ⟨first, hfirst, h⟩
    next => cases h

theorem node?_append (h : root.node? names = some (.directory inside)) :
    root.node? (names ++ path) = inside.node? path := by
  induction names generalizing root with
  | nil =>
    cases h
    rfl
  | cons name rest ih =>
    obtain ⟨first, hfirst, hrest⟩ := find?_of_node?_cons h
    rw [List.cons_append, node?_cons_of_find? hfirst]
    exact ih hrest

theorem putAt_cons (h : root.find? name = some (.directory inside)) (hne : path ≠ []) :
    root.putAt node (name :: path) = root.put name (.directory (inside.putAt node path)) := by
  obtain ⟨next, more, rfl⟩ := List.exists_cons_of_ne_nil hne
  rw [putAt_cons_cons, h]

/-- What stands at the end of a path after it was put there. -/
theorem node?_putAt (node : Node) (name : String)
    (h : root.node? names = some (.directory inside)) :
    (root.putAt node (names ++ [name])).node? names = some (.directory (inside.put name node)) := by
  induction names generalizing root with
  | nil =>
    cases h
    rfl
  | cons first rest ih =>
    obtain ⟨below, hbelow, hrest⟩ := find?_of_node?_cons h
    rw [List.cons_append, putAt_cons hbelow (by simp), node?_cons_of_find? (find?_put_self _ _ _)]
    exact ih hrest

theorem putAt_cases (root : Directory) (node : Node) (name : String) (rest : List String) :
    root.putAt node (name :: rest) = root ∨
      (rest = [] ∧ root.putAt node (name :: rest) = root.put name node) ∨
      ∃ below, rest ≠ [] ∧ root.find? name = some (.directory below) ∧
        root.putAt node (name :: rest) = root.put name (.directory (below.putAt node rest)) := by
  cases rest with
  | nil => exact .inr (.inl ⟨rfl, rfl⟩)
  | cons next rest =>
    rw [putAt_cons_cons]
    split
    next below hbelow => exact .inr (.inr ⟨below, List.cons_ne_nil _ _, hbelow, rfl⟩)
    next => exact .inl rfl

theorem Within.refl (root : Directory) : root.Within root := fun _ h => h

/-- A directory below another name than the one that is put. -/
theorem node?_put_of_ne (h : other ≠ name)
    (hpath : root.node? (other :: path) = some (.directory inside)) :
    (root.put name node).node? (other :: path) = some (.directory inside) := by
  obtain ⟨first, hfirst, hrest⟩ := find?_of_node?_cons hpath
  rw [← find?_put_of_ne root node h] at hfirst
  rw [node?_cons_of_find? hfirst, hrest]

/-- Where no directory is replaced, every directory stays one and loses no name. -/
theorem directory_putAt (node : Node)
    (hfree : ∀ inside, root.node? names ≠ some (.directory inside))
    (h : root.node? path = some (.directory inside)) :
    ∃ after, (root.putAt node names).node? path = some (.directory after) ∧
      inside.Within after := by
  induction names generalizing root path with
  | nil => exact absurd rfl (hfree root)
  | cons name rest ih =>
    rcases putAt_cases root node name rest with hput | ⟨rfl, hput⟩ | ⟨below, hne, hbelow, hput⟩
    · rw [hput]
      exact ⟨inside, h, .refl inside⟩
    · rw [hput]
      cases path with
      | nil =>
        cases h
        exact ⟨_, rfl, within_put _ name node⟩
      | cons other path =>
        have hother : other ≠ name := by
          rintro rfl
          obtain ⟨first, hfirst, _⟩ := find?_of_node?_cons h
          exact hfree first hfirst
        exact ⟨inside, node?_put_of_ne hother h, .refl inside⟩
    · rw [hput]
      cases path with
      | nil =>
        cases h
        exact ⟨_, rfl, within_put _ name _⟩
      | cons other path =>
        by_cases hother : other = name
        · subst hother
          rw [node?_cons_of_find? hbelow] at h
          rw [node?_cons_of_find? (find?_put_self root other _)]
          refine ih (fun inside hinside => hfree inside ?_) h
          rw [node?_cons_of_find? hbelow]
          exact hinside
        · exact ⟨inside, node?_put_of_ne hother h, .refl inside⟩

end Directory

namespace FileTree

variable {files : FileTree} {inside after : Directory} {node : Node}
  {trail next segments more names target : List String} {segment : String}

/-- Where a segment leads from a directory with these entries. -/
inductive Leads (inside : Directory) (trail : List String) : String → List String → Prop where
  | here : Leads inside trail "." trail
  | above : Leads inside trail ".." trail.tail
  | below {segment : String} (hhere : segment ≠ ".") (habove : segment ≠ "..")
      (hlimit : segment.utf8ByteSize ≤ nameLimit)
      (hfound : (inside.find? segment).isSome = true) :
      Leads inside trail segment (segment :: trail)

theorem Leads.within (h : Leads inside trail segment next) (hwithin : inside.Within after) :
    Leads after trail segment next := by
  cases h with
  | here => exact .here
  | above => exact .above
  | below hhere habove hlimit hfound => exact .below hhere habove hlimit (hwithin segment hfound)

theorem locate_of_leads (hinside : files.root.node? trail.reverse = some (.directory inside))
    (h : Leads inside trail segment next) :
    files.locate trail (segment :: more) = files.locate next more := by
  rw [locate, hinside]
  cases h with
  | here => exact if_pos rfl
  | above =>
    dsimp only
    rw [if_neg (by decide), if_pos rfl]
  | below hhere habove hlimit hfound =>
    dsimp only
    rw [if_neg hhere, if_neg habove, if_neg (Nat.not_lt.mpr hlimit), if_pos hfound]

theorem exists_leads (h : files.locate trail (segment :: more) = .ok names) :
    ∃ inside next, files.root.node? trail.reverse = some (.directory inside) ∧
      Leads inside trail segment next ∧ files.locate next more = .ok names := by
  rw [locate] at h
  split at h
  next inside hinside =>
    refine ⟨inside, ?_⟩
    split at h
    next hhere => exact ⟨trail, hinside, hhere ▸ .here, h⟩
    split at h
    next habove => exact ⟨trail.tail, hinside, habove ▸ .above, h⟩
    split at h
    next => cases h
    split at h
    next hhere habove hlimit hfound =>
      exact ⟨segment :: trail, hinside, .below hhere habove (Nat.not_lt.mp hlimit) hfound, h⟩
    next => cases h
  next => cases h
  next => cases h

theorem locate_append (h : files.locate trail segments = .ok names) :
    files.locate trail (segments ++ more) = files.locate names.reverse more := by
  induction segments generalizing trail with
  | nil =>
    cases h
    rw [List.reverse_reverse]
    rfl
  | cons segment rest ih =>
    obtain ⟨inside, next, hinside, hleads, hrest⟩ := exists_leads h
    rw [List.cons_append, locate_of_leads hinside hleads, ih hrest]

/-- The segments of a path lead where they led before. -/
theorem locate_putAt (node : Node)
    (hfree : ∀ inside, files.root.node? target ≠ some (.directory inside))
    (h : files.locate trail segments = .ok names) :
    (files.putAt target node).locate trail segments = .ok names := by
  induction segments generalizing trail with
  | nil => exact h
  | cons segment rest ih =>
    obtain ⟨inside, next, hinside, hleads, hrest⟩ := exists_leads h
    obtain ⟨after, hafter, hwithin⟩ := Directory.directory_putAt node hfree hinside
    have hstep : (files.putAt target node).locate trail (segment :: rest) =
        (files.putAt target node).locate next rest :=
      locate_of_leads hafter (hleads.within hwithin)
    rw [hstep]
    exact ih hrest

/-- The directory above a path stands, and the last name of the path can be a file in it. -/
structure Writable (files : FileTree) (path last : String) (names : List String)
    (inside : Directory) : Prop where
  checked : checkPath path = .ok ()
  ending : (pathSegments path).getLast? = some last
  above : files.locate (files.start path) (pathSegments path).dropLast = .ok names
  directory : files.root.node? names = some (.directory inside)
  named : last ≠ "." ∧ last ≠ ".." ∧ endsInSlash path = false
  limit : last.utf8ByteSize ≤ nameLimit
  free : ∀ below, inside.find? last ≠ some (.directory below)

variable {path text last : String} {written : FileTree}

theorem exists_writable (h : files.writeText path text = .ok written) :
    ∃ last names inside, files.Writable path last names inside ∧
      written = files.putAt (names ++ [last]) (.file (.text text)) := by
  rw [writeText] at h
  obtain ⟨_, hcheck, h⟩ := bind_eq_ok_iff.mp h
  dsimp only at h
  split at h
  next => cases h
  next last hlast =>
    obtain ⟨names, hnames, h⟩ := bind_eq_ok_iff.mp h
    split at h
    next inside hinside =>
      split at h
      next => cases h
      next hnamed =>
        split at h
        next => cases h
        next hlimit =>
          split at h
          next => cases h
          next hfree =>
            cases h
            refine ⟨last, names, inside, ⟨hcheck, hlast, hnames, hinside, ?_, Nat.not_lt.mp hlimit,
              hfree⟩, rfl⟩
            simpa [and_assoc] using hnamed
    next => cases h
    next => cases h

/-- What stands at the end of the path is found there. -/
theorem Writable.find (h : files.Writable path last names inside)
    (hnode : inside.find? last = some node) : files.find path = .ok node := by
  have hinside : files.root.node? names.reverse.reverse = some (.directory inside) := by
    rw [List.reverse_reverse]
    exact h.directory
  have hfound : (inside.find? last).isSome = true := by
    rw [hnode]
    rfl
  have hleads : Leads inside names.reverse last (last :: names.reverse) :=
    .below h.named.1 h.named.2.1 h.limit hfound
  have hlocate : files.locate (files.start path) (pathSegments path) = .ok (names ++ [last]) := by
    rw [← List.dropLast_append_getLast? last h.ending, locate_append h.above,
      locate_of_leads hinside hleads, FileTree.locate, List.reverse_cons, List.reverse_reverse]
  have hend : inside.node? [last] = some node := hnode
  rw [FileTree.find, h.checked, h.named.2.2, ok_bind]
  dsimp only
  rw [if_neg (by decide), hlocate, ok_bind, Directory.node?_append h.directory, hend]
  rfl

/-- The directory above the path stays one when the file is put there. -/
theorem Writable.putAt (h : files.Writable path last names inside) :
    (files.putAt (names ++ [last]) (.file (.text text))).Writable path last names
      (inside.put last (.file (.text text))) where
  checked := h.checked
  ending := h.ending
  above := by
    refine locate_putAt (.file (.text text)) (fun below => ?_) h.above
    rw [Directory.node?_append h.directory]
    exact h.free below
  directory := Directory.node?_putAt _ last h.directory
  named := h.named
  limit := h.limit
  free below hbelow := by
    rw [Directory.find?_put_self] at hbelow
    cases hbelow

/-- A file that was written is read again. -/
theorem readText_of_writeText (h : files.writeText path text = .ok written) :
    written.readText path = .ok text := by
  obtain ⟨last, names, inside, hwritable, rfl⟩ := exists_writable h
  rw [readText, hwritable.putAt.find (Directory.find?_put_self _ _ _)]
  rfl

end FileTree

end FinalGrades
