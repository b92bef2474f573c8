import FinalGrades.Proofs.Files

/-!
What making directories and writing a file change: at every other place stands what stood there.
Paths are followed by their names alone, since a directory that is made on the way leads nowhere
else.
-/

namespace FinalGrades

open Attempt

/-- What stands at a place, the inside of a directory apart. -/
inductive Standing where
  | nothing
  | file (content : Content)
  | directory
deriving DecidableEq

namespace Node

def standing : Node → Standing
  | .file content => .file content
  | .directory _ => .directory

theorem standing_ne_nothing (node : Node) : node.standing ≠ .nothing := by
  intro h
  cases node <;> cases h

/-- There is nothing in the node. -/
def Bare : Node → Prop
  | .file _ => True
  | .directory inside => inside = .empty

end Node

namespace Directory

variable {root inside : Directory} {node : Node} {name other : String}
  {names path target : List String}

/-- What stands at the end of a path of names. -/
def standing (root : Directory) (path : List String) : Standing :=
  match root.node? path with
  | none => .nothing
  | some node => node.standing

theorem standing_of_node? (h : root.node? path = some node) :
    root.standing path = node.standing := by
  rw [standing, h]

theorem standing_eq_directory_iff :
    root.standing path = .directory ↔ ∃ inside, root.node? path = some (.directory inside) := by
  unfold standing
  split
  next hnone => simp [hnone]
  next node hnode => cases node <;> simp [hnode, Node.standing]

theorem standing_of_directory (h : root.find? name = some (.directory inside)) :
    root.standing (name :: path) = inside.standing path := by
  rw [standing, node?_cons_of_find? h, standing]

theorem standing_below (h : ∀ inside, root.find? name ≠ some (.directory inside))
    (hne : path ≠ []) : root.standing (name :: path) = .nothing := by
  obtain ⟨next, more, rfl⟩ := List.exists_cons_of_ne_nil hne
  have hnone : root.node? (name :: next :: more) = none := by
    rw [node?_cons_cons]
    split
    next inside hinside => exact absurd hinside (h inside)
    next => rfl
  rw [standing, hnone]

theorem standing_congr {after : Directory} (h : root.find? name = after.find? name) :
    root.standing (name :: path) = after.standing (name :: path) := by
  cases path with
  | nil => simp only [standing, node?, h]
  | cons next more => simp only [standing, node?_cons_cons, h]

theorem standing_put_below (hbare : node.Bare) (hne : path ≠ []) :
    (root.put name node).standing (name :: path) = .nothing := by
  have hfind := find?_put_self root name node
  cases node with
  | file content => exact standing_below (fun _ h => by rw [hfind] at h; cases h) hne
  | directory inside =>
    cases hbare
    rw [standing_of_directory hfind]
    obtain ⟨next, more, rfl⟩ := List.exists_cons_of_ne_nil hne
    cases more <;> rfl

/-- Where a bare node is put, and takes the place of no directory, nothing else changes. -/
theorem standing_putAt_of_ne (hbare : node.Bare) (hfree : root.standing target ≠ .directory)
    (hne : path ≠ target) : (root.putAt node target).standing path = root.standing path := by
  induction target generalizing root path with
  | nil => rfl
  | cons name rest ih =>
    have hother {after : Node} {other : String} {more : List String} (h : other ≠ name) :
        (root.put name after).standing (other :: more) = root.standing (other :: more) :=
      standing_congr (find?_put_of_ne root after h)
    rcases putAt_cases root node name rest with hput | ⟨rfl, hput⟩ | ⟨below, hrest, hbelow, hput⟩
    · rw [hput]
    · rw [hput]
      cases path with
      | nil => rfl
      | cons other more =>
        by_cases h : other = name
        · subst h
          have hmore : more ≠ [] := fun hnil => hne (by rw [hnil])
          have hfile : ∀ inside, root.find? other ≠ some (.directory inside) :=
            fun inside hinside => hfree (standing_eq_directory_iff.mpr ⟨inside, hinside⟩)
          rw [standing_put_below hbare hmore, standing_below hfile hmore]
        · exact hother h
    · rw [hput]
      cases path with
      | nil => rfl
      | cons other more =>
        by_cases h : other = name
        · subst h
          rw [standing_of_directory hbelow] at hfree
          rw [standing_of_directory (find?_put_self root other _), standing_of_directory hbelow]
          exact ih hfree fun heq => hne (by rw [heq])
        · exact hother h

theorem standing_putAt_self (h : root.node? names = some (.directory inside)) :
    (root.putAt node (names ++ [name])).standing (names ++ [name]) = node.standing := by
  refine standing_of_node? ?_
  rw [node?_append (node?_putAt node name h)]
  exact find?_put_self _ _ _

theorem isSome_find? (h : root.node? (name :: path) = some node) :
    (root.find? name).isSome = true := by
  cases path with
  | nil =>
    rw [show root.find? name = some node from h]
    rfl
  | cons next more =>
    rw [node?_cons_cons] at h
    split at h
    next below hbelow => rw [hbelow]; rfl
    next => cases h

/-- What stands below a place makes it a directory. -/
theorem exists_of_node?_append (h : root.node? (names ++ name :: path) = some node) :
    ∃ inside, root.node? names = some (.directory inside) ∧
      inside.node? (name :: path) = some node := by
  induction names generalizing root with
  | nil => exact ⟨root, rfl, h⟩
  | cons first rest ih =>
    obtain ⟨next, more, hnext⟩ := List.exists_cons_of_ne_nil
      (List.append_ne_nil_of_right_ne_nil rest (List.cons_ne_nil name path))
    rw [List.cons_append, hnext, node?_cons_cons] at h
    split at h
    next below hbelow =>
      rw [← hnext] at h
      rw [node?_cons_of_find? hbelow]
      exact ih h
    next => cases h

theorem standing_of_append (h : root.standing (names ++ name :: path) ≠ .nothing) :
    root.standing names = .directory := by
  cases hnode : root.node? (names ++ name :: path) with
  | none => exact absurd (by rw [standing, hnode]) h
  | some node =>
    obtain ⟨inside, hinside, _⟩ := exists_of_node?_append hnode
    exact standing_of_node? hinside

end Directory

namespace FileTree

variable {files after written : FileTree} {inside : Directory} {node : Node} {segment last : String}
  {names trail segments target : List String} {path text : String}

/-- What stands at the end of a path of names from the root. -/
def standing (files : FileTree) (names : List String) : Standing := files.root.standing names

theorem standing_putAt_of_ne (hbare : node.Bare) (hfree : files.standing target ≠ .directory)
    (hne : names ≠ target) : (files.putAt target node).standing names = files.standing names :=
  Directory.standing_putAt_of_ne hbare hfree hne

/-- Where segments lead by their names alone, from the last name on. -/
def follow (trail : List String) : List String → List String
  | [] => trail
  | segment :: rest =>
    if segment = "." then follow trail rest
    else if segment = ".." then follow trail.tail rest
    else follow (segment :: trail) rest

/-- The places that segments lead through by their names alone. -/
def passed (trail : List String) : List String → List (List String)
  | [] => []
  | segment :: rest =>
    if segment = "." then passed trail rest
    else if segment = ".." then passed trail.tail rest
    else (segment :: trail).reverse :: passed (segment :: trail) rest

/-- The place of a file that is written. -/
def destination (files : FileTree) (path : String) : List String :=
  (follow (files.start path) (pathSegments path)).reverse

/-- The places of the directories above a file that is written. -/
def above (files : FileTree) (path : String) : List (List String) :=
  passed (files.start path) (pathSegments (parentPath path))

/-- Some of the things now stand where nothing stood, and nothing else has changed. -/
def Adds (files after : FileTree) (things : List (List String × Standing)) : Prop :=
  after.here = files.here ∧ ∀ names, after.standing names = files.standing names ∨
    files.standing names = .nothing ∧ (names, after.standing names) ∈ things

namespace Adds

variable {middle : FileTree} {things more : List (List String × Standing)}

theorem refl (files : FileTree) (things : List (List String × Standing)) :
    files.Adds files things :=
  ⟨rfl, fun _ => .inl rfl⟩

theorem trans (h : files.Adds middle things) (hafter : middle.Adds after more) :
    files.Adds after (things ++ more) := by
  refine ⟨hafter.1.trans h.1, fun names => ?_⟩
  rcases hafter.2 names with hsame | ⟨hnothing, hmem⟩
  · rw [hsame]
    exact (h.2 names).imp_right fun hnames => ⟨hnames.1, List.mem_append_left _ hnames.2⟩
  · right
    refine ⟨?_, List.mem_append_right _ hmem⟩
    rcases h.2 names with hsame | hnames
    · exact hsame ▸ hnothing
    · exact hnames.1

theorem mono (h : files.Adds after things) (hmore : things ⊆ more) : files.Adds after more :=
  ⟨h.1, fun names => (h.2 names).imp_right fun hnames => ⟨hnames.1, hmore hnames.2⟩⟩

/-- What stands somewhere stays there. -/
theorem standing_eq (h : files.Adds after things) (hne : files.standing names ≠ .nothing) :
    after.standing names = files.standing names :=
  (h.2 names).resolve_right fun hnames => hne hnames.1

end Adds

theorem adds_putAt (hbare : node.Bare)
    (hdirectory : files.root.node? names = some (.directory inside))
    (hnone : inside.find? last = none) :
    files.Adds (files.putAt (names ++ [last]) node) [(names ++ [last], node.standing)] := by
  have hnothing : files.standing (names ++ [last]) = .nothing := by
    rw [standing, Directory.standing, Directory.node?_append hdirectory,
      show inside.node? [last] = none from hnone]
  refine ⟨rfl, fun other => ?_⟩
  by_cases hother : other = names ++ [last]
  · subst hother
    exact .inr ⟨hnothing, by rw [standing, putAt, Directory.standing_putAt_self hdirectory]; simp⟩
  · exact .inl (standing_putAt_of_ne hbare (by rw [hnothing]; decide) hother)

/-- Directories at these places. -/
def directories (places : List (List String)) : List (List String × Standing) :=
  places.map fun names => (names, .directory)

theorem passed_below (hhere : segment ≠ ".") (habove : segment ≠ "..") :
    passed trail (segment :: segments) =
      (segment :: trail).reverse :: passed (segment :: trail) segments := by
  rw [passed, if_neg hhere, if_neg habove]

theorem adds_makeWay (files : FileTree) (trail segments : List String) :
    files.Adds (files.makeWay trail segments).files (directories (passed trail segments)) := by
  fun_induction makeWay files trail segments with
  | case2 files trail rest inside hinside ih => exact ih
  | case3 files trail rest inside hinside hhere ih => exact ih
  | case4 files trail segment rest inside hinside hhere habove below hbelow ih =>
    rw [passed_below hhere habove]
    exact ih.mono (List.subset_cons_self _ _)
  | case7 files trail segment rest inside hinside hhere habove hnone hlimit ih =>
    rw [passed_below hhere habove, List.reverse_cons]
    have hmade : files.Adds (files.putAt (trail.reverse ++ [segment]) (.directory .empty))
        [(trail.reverse ++ [segment], .directory)] := adds_putAt rfl hinside hnone
    exact hmade.trans ih
  | _ => exact .refl _ _

theorem adds_makeParents (files : FileTree) (path : String) :
    files.Adds (files.makeParents path).files (directories (files.above path)) := by
  unfold makeParents
  dsimp only
  split
  · exact .refl _ _
  split
  · exact .refl _ _
  split
  · exact .refl _ _
  · exact adds_makeWay _ _ _

theorem follow_append (trail segments more : List String) :
    follow trail (segments ++ more) = follow (follow trail segments) more := by
  fun_induction follow trail segments with
  | case1 => rfl
  | _ => simp_all [follow]

/-- Names that are found are those that the segments lead to by themselves. -/
theorem names_of_locate (h : files.locate trail segments = .ok names) :
    names = (follow trail segments).reverse := by
  induction segments generalizing trail with
  | nil =>
    cases h
    rfl
  | cons segment rest ih =>
    obtain ⟨inside, next, _, hleads, hrest⟩ := exists_leads h
    rw [ih hrest]
    cases hleads with
    | here => rfl
    | above => rfl
    | below hhere habove => rw [follow, if_neg hhere, if_neg habove]

theorem Writable.destination (h : files.Writable path last names inside) :
    files.destination path = names ++ [last] := by
  obtain ⟨hhere, habove, _⟩ := h.named
  rw [FileTree.destination, ← List.dropLast_append_getLast? last h.ending, follow_append, follow,
    if_neg hhere, if_neg habove, follow, List.reverse_cons, names_of_locate h.above]

theorem adds_writeText (h : files.writeText path text = .ok written)
    (hnew : files.exists? path = false) :
    files.Adds written [(files.destination path, .file (.text text))] := by
  obtain ⟨last, names, inside, hwritable, rfl⟩ := exists_writable h
  have hnone : inside.find? last = none := by
    cases hnode : inside.find? last with
    | none => rfl
    | some node =>
      rw [exists?, hwritable.find hnode] at hnew
      cases hnew
  rw [hwritable.destination]
  exact adds_putAt trivial hwritable.directory hnone

/-- The file stands at its destination, over no directory, and nothing else has changed. -/
structure Writes (files written : FileTree) (path text : String) : Prop where
  here : written.here = files.here
  free : files.standing (files.destination path) ≠ .directory
  text : written.standing (files.destination path) = .file (.text text)
  other : ∀ names ≠ files.destination path, written.standing names = files.standing names

theorem writes_of_writeText (h : files.writeText path text = .ok written) :
    files.Writes written path text := by
  obtain ⟨last, names, inside, hwritable, rfl⟩ := exists_writable h
  have hdestination := hwritable.destination
  have hfree : files.standing (names ++ [last]) ≠ .directory := fun hdirectory => by
    obtain ⟨below, hbelow⟩ := Directory.standing_eq_directory_iff.mp hdirectory
    rw [Directory.node?_append hwritable.directory] at hbelow
    exact hwritable.free below hbelow
  refine ⟨rfl, hdestination ▸ hfree, ?_, fun other hother => ?_⟩
  · rw [hdestination]
    exact Directory.standing_putAt_self hwritable.directory
  · exact standing_putAt_of_ne trivial hfree (hdestination ▸ hother)

/-- Segments that each lead one name down, none of them too long for a name. -/
def LeadDown (segments : List String) : Prop :=
  ∀ segment ∈ segments, segment ≠ "." ∧ segment ≠ ".." ∧ segment.utf8ByteSize ≤ nameLimit

instance : DecidablePred LeadDown := fun _ => inferInstanceAs (Decidable (∀ _ ∈ _, _))

/-- A path from the working directory that does not lead back. -/
structure Plain (path : String) : Prop where
  checked : checkPath path = .ok ()
  relative : isAbsolute path = false
  ending : endsInSlash path = false
  segments : LeadDown (pathSegments path)

theorem start_of_relative (h : isAbsolute path = false) :
    files.start path = files.here.reverse :=
  if_neg (by simp [h])

theorem LeadDown.tail (h : LeadDown (segment :: segments)) : LeadDown segments :=
  fun other hmem => h other (List.mem_cons_of_mem _ hmem)

theorem LeadDown.follow (h : LeadDown segments) :
    (follow trail segments).reverse = trail.reverse ++ segments := by
  induction segments generalizing trail with
  | nil => rw [FileTree.follow, List.append_nil]
  | cons segment rest ih =>
    obtain ⟨hhere, habove, _⟩ := h segment List.mem_cons_self
    rw [FileTree.follow, if_neg hhere, if_neg habove, ih h.tail, List.reverse_cons,
      List.append_assoc, List.singleton_append]

theorem LeadDown.locate (h : LeadDown segments)
    (hnode : files.root.node? (trail.reverse ++ segments) = some node) :
    files.locate trail segments = .ok (trail.reverse ++ segments) := by
  induction segments generalizing trail with
  | nil => rw [FileTree.locate, List.append_nil]
  | cons segment rest ih =>
    obtain ⟨hhere, habove, hlimit⟩ := h segment List.mem_cons_self
    obtain ⟨inside, hinside, hrest⟩ := Directory.exists_of_node?_append hnode
    have hnames : (segment :: trail).reverse ++ rest = trail.reverse ++ segment :: rest := by simp
    rw [locate_of_leads hinside (.below hhere habove hlimit (Directory.isSome_find? hrest)),
      ih h.tail (hnames ▸ hnode), hnames]

/-- Nothing has to be made on the way to a directory. -/
theorem LeadDown.makeWay (h : LeadDown segments)
    (hnode : files.root.node? (trail.reverse ++ segments) = some (.directory inside)) :
    files.makeWay trail segments = ⟨files, .ok ()⟩ := by
  induction segments generalizing trail with
  | nil => rw [FileTree.makeWay]
  | cons segment rest ih =>
    obtain ⟨hhere, habove, _⟩ := h segment List.mem_cons_self
    obtain ⟨first, hfirst, hrest⟩ := Directory.exists_of_node?_append hnode
    obtain ⟨below, hbelow, _⟩ := Directory.find?_of_node?_cons hrest
    have hnames : (segment :: trail).reverse ++ rest = trail.reverse ++ segment :: rest := by simp
    rw [FileTree.makeWay, hfirst]
    dsimp only
    rw [if_neg hhere, if_neg habove, hbelow]
    exact ih h.tail (hnames ▸ hnode)

/-- Above a file in a directory that is there, no directory is made. -/
theorem makeParents_of_standing (hchecked : checkPath (parentPath path) = .ok ())
    (hrelative : isAbsolute path = false) (hdown : LeadDown (pathSegments (parentPath path)))
    (h : files.standing (files.here ++ pathSegments (parentPath path)) = .directory) :
    files.makeParents path = ⟨files, .ok ()⟩ := by
  obtain ⟨inside, hinside⟩ := Directory.standing_eq_directory_iff.mp h
  rw [← List.reverse_reverse files.here] at hinside
  unfold makeParents
  dsimp only
  split
  · rfl
  · rw [hchecked, start_of_relative hrelative, hdown.locate hinside]
    exact hdown.makeWay hinside

/-- A path that is found has something at its end. -/
theorem standing_of_exists? (h : files.exists? path = true) (hending : endsInSlash path = false) :
    files.standing (files.destination path) ≠ .nothing := by
  cases hfind : files.find path with
  | error error =>
    rw [FileTree.exists?, hfind] at h
    cases h
  | ok node =>
    rw [find, hending] at hfind
    obtain ⟨_, _, hfind⟩ := bind_eq_ok_iff.mp hfind
    obtain ⟨names, hnames, hfind⟩ := bind_eq_ok_iff.mp hfind
    rw [if_neg (by decide)] at hnames
    rw [destination, ← names_of_locate hnames]
    cases hfound : files.root.node? names with
    | none =>
      rw [hfound] at hfind
      cases hfind
    | some found =>
      rw [standing, Directory.standing_of_node? hfound]
      exact found.standing_ne_nothing

theorem Plain.destination (h : Plain path) :
    files.destination path = files.here ++ pathSegments path := by
  rw [FileTree.destination, h.segments.follow, start_of_relative h.relative,
    List.reverse_reverse]

theorem Plain.exists? (h : Plain path)
    (hne : files.standing (files.destination path) ≠ .nothing) : files.exists? path = true := by
  rw [h.destination, standing, Directory.standing] at hne
  cases hnode : files.root.node? (files.here ++ pathSegments path) with
  | none => exact absurd (by rw [hnode]) hne
  | some node =>
    have htrail : files.root.node? (files.here.reverse.reverse ++ pathSegments path) =
        some node := by rwa [List.reverse_reverse]
    have hfind : files.find path = .ok node := by
      rw [find, h.checked, ok_bind, h.ending, start_of_relative h.relative]
      dsimp only
      rw [if_neg (by decide), h.segments.locate htrail, ok_bind, htrail]
      rfl
    rw [FileTree.exists?, hfind]
    rfl

end FileTree

end FinalGrades
