import FinalGrades.Proofs.Command.Changes
import FinalGrades.Proofs.Files.Proper

/-!
Every run works on the files in two kinds of steps: it makes the directories above a path, or it
writes a file. What each of these steps keeps is kept by the run.
-/

namespace FinalGrades

open Attempt

namespace FileTree

variable {files middle after : FileTree}

/-- The one file tree becomes the other by steps of the program. -/
inductive Reaches (files : FileTree) : FileTree → Prop
  | refl : Reaches files files
  | parents {made : FileTree} (path : String) : Reaches files made →
      Reaches files (made.makeParents path).files
  | write {made written : FileTree} {path text : String} : Reaches files made →
      made.writeText path text = .ok written → Reaches files written

theorem Reaches.of_eq (h : after = files) : files.Reaches after := by
  rw [h]
  exact .refl

theorem Reaches.trans (h : files.Reaches middle) (h' : middle.Reaches after) :
    files.Reaches after := by
  induction h' with
  | refl => exact h
  | parents path _ ih => exact .parents path ih
  | write _ hwrite ih => exact .write ih hwrite

/-- Directories stay proper along a run. -/
theorem Reaches.proper (h : files.Reaches after) (hproper : files.Proper) : after.Proper := by
  induction h with
  | refl => exact hproper
  | parents path _ ih => exact ih.makeParents path
  | write _ hwrite ih => exact ih.writeText hwrite

end FileTree

namespace RosterExport

theorem reaches_place (files : FileTree) (path text : String)
    (failure : FileError → DocumentError) :
    files.Reaches (place files path text failure).files := by
  have hmade : files.Reaches (files.makeParents path).files := .parents path .refl
  unfold place
  generalize files.makeParents path = making at hmade ⊢
  obtain ⟨made, result⟩ := making
  cases result with
  | error error => exact hmade
  | ok done =>
    dsimp only at hmade ⊢
    cases hwritten : made.writeText path text with
    | ok written => exact .write hmade hwritten
    | error error => exact hmade

theorem reaches_saveCsv (data : RosterExport) (options : ExportOptions) (files : FileTree)
    (path : String) : files.Reaches (data.saveCsv options files path).files := by
  rw [files_saveCsv]
  exact reaches_place _ _ _ _

end RosterExport

namespace Run

open FileTree

variable {files : FileTree}

theorem reaches_deliver (complaints : String) (output : Option String) {save : String → Saving}
    (text : Except ExportError String) (hsave : ∀ path, files.Reaches (save path).files) :
    files.Reaches (deliver files complaints output save text).files := by
  unfold deliver
  cases output with
  | none => cases text <;> exact .refl
  | some path =>
    dsimp only
    cases (save path).result <;> exact hsave path

theorem reaches_rosterOf (situation : Situation) (course : Course) (options : ExportOptions)
    (format : String) (output : Option String) (complaints : String) :
    situation.files.Reaches
      (rosterOf situation course options format output complaints).files := by
  unfold rosterOf
  dsimp only
  cases RosterExport.build course options situation.now with
  | error error => split <;> exact .refl
  | ok data =>
    split
    · exact .refl
    · exact reaches_deliver _ _ _ (data.reaches_saveCsv options situation.files)
    · exact reaches_deliver _ _ _ fun path => RosterExport.reaches_place _ path _ _
    · exact .refl

theorem reaches_roster (situation : Situation) (path format : String)
    (output decimal : Option String) (allowIncomplete : Bool) (settings : Option String) :
    situation.files.Reaches
      (roster situation path format output decimal allowIncomplete settings).files := by
  unfold roster rosterUnder
  cases rosterOptions situation settings decimal allowIncomplete format with
  | error error => exact .refl
  | ok options =>
    cases Course.load situation.files path with
    | error error => exact .refl
    | ok course => exact reaches_rosterOf _ _ _ _ _ _

theorem reaches_provide {after : FileTree} {path text message : String}
    (h : provide files path text = .ok (after, message)) : files.Reaches after := by
  unfold provide at h
  split at h
  · cases h
    exact .refl
  · obtain ⟨written, hwritten, h⟩ := bind_eq_ok_iff.mp h
    cases h
    exact .write .refl hwritten

theorem reaches_init (files : FileTree) : files.Reaches (init files).files := by
  rcases init_cases files with ⟨_, hfiles⟩ | ⟨one, first, hone, hmore⟩
  · exact .of_eq hfiles
  · have hmade := (reaches_provide hone).parents Sample.coursePath
    rcases hmore with ⟨_, hfiles⟩ | ⟨two, second, htwo, hfiles⟩
    · rwa [hfiles]
    · rw [hfiles]
      exact hmade.trans (reaches_provide htwo)

theorem reaches_ofWords (situation : Situation) (words : List String) :
    situation.files.Reaches (ofWords situation words).files := by
  unfold ofWords
  cases Request.ofWords words with
  | showVersion => exact .refl
  | showHelp => exact .refl
  | refuse => exact .refl
  | perform command =>
    cases command with
    | build components mode weights => exact .of_eq (files_build _ _ _ _)
    | check course => exact .of_eq (files_check _ _)
    | preview formula grades => exact .of_eq (files_preview _ _ _)
    | roster course format output decimal allowIncomplete settings =>
      exact reaches_roster _ _ _ _ _ _ _
    | init => exact reaches_init _

/-- Where a run starts from proper directories it leaves proper directories. -/
theorem proper_ofWords {situation : Situation} (h : situation.files.Proper)
    (words : List String) : (ofWords situation words).files.Proper :=
  (reaches_ofWords situation words).proper h

end Run

end FinalGrades
