import FinalGrades.Command.Run
import FinalGrades.Proofs.Files.Standing

/-!
What a run changes in the file tree. Only the samples and a saved roster do; the samples never take
the place of anything, and a roster that is refused is not saved in part either.
-/

namespace FinalGrades

open Attempt

namespace FileTree

variable {files after : FileTree} {path : String}

/-- A file was written at a path after the directories above it, as far as that went. -/
def Saves (files after : FileTree) (path : String) : Prop :=
  after.here = files.here ∧ ∀ names, after.standing names = files.standing names ∨
    (names ∈ files.above path ∧ files.standing names = .nothing ∧
      after.standing names = .directory) ∨
    (names = files.destination path ∧ files.standing names ≠ .directory ∧
      ∃ text, after.standing names = .file (.text text))

theorem Saves.refl (files : FileTree) (path : String) : files.Saves files path :=
  ⟨rfl, fun _ => .inl rfl⟩

theorem saves_of_adds (h : files.Adds after (directories (files.above path))) :
    files.Saves after path := by
  refine ⟨h.1, fun names => (h.2 names).imp_right fun ⟨hnothing, hmem⟩ => .inl ?_⟩
  obtain ⟨place, hplace, heq⟩ := List.mem_map.mp hmem
  obtain ⟨rfl, hdirectory⟩ := Prod.mk.inj heq
  exact ⟨hplace, hnothing, hdirectory.symm⟩

theorem saves_of_writes {made : FileTree} {text : String}
    (hmade : files.Adds made (directories (files.above path)))
    (h : made.Writes after path text) : files.Saves after path := by
  have hdestination : made.destination path = files.destination path := by
    rw [destination, destination, start, start, hmade.1]
  obtain ⟨hhere, hsaves⟩ := saves_of_adds hmade
  refine ⟨h.here.trans hhere, fun names => ?_⟩
  by_cases hnames : names = files.destination path
  · right; right
    subst hnames
    refine ⟨rfl, fun hdirectory => ?_, text, hdestination ▸ h.text⟩
    have hstays := hmade.standing_eq (by rw [hdirectory]; decide)
    exact h.free (hdestination ▸ hstays.trans hdirectory)
  · rw [h.other names (hdestination ▸ hnames)]
    exact hsaves names

end FileTree

namespace RosterExport

theorem saves_place (files : FileTree) (path text : String)
    (failure : FileError → DocumentError) :
    files.Saves (place files path text failure).files path := by
  have hmade := files.adds_makeParents path
  unfold place
  generalize files.makeParents path = making at hmade ⊢
  obtain ⟨made, result⟩ := making
  cases result with
  | error error => exact FileTree.saves_of_adds hmade
  | ok done =>
    dsimp only at hmade ⊢
    cases hwritten : made.writeText path text with
    | ok written => exact FileTree.saves_of_writes hmade (FileTree.writes_of_writeText hwritten)
    | error error => exact FileTree.saves_of_adds hmade

theorem saves_saveJson (data : RosterExport) (files : FileTree) (path : String) :
    files.Saves (data.saveJson files path).files path :=
  saves_place _ _ _ _

theorem saves_saveCsv (data : RosterExport) (options : ExportOptions) (files : FileTree)
    (path : String) : files.Saves (data.saveCsv options files path).files path := by
  rw [files_saveCsv]
  exact saves_place _ _ _ _

end RosterExport

namespace Run

open FileTree

variable {situation : Situation} {course : Course} {options : ExportOptions}
  {format complaints : String} {output : Option String} {files : FileTree}

/-- The files after a roster run: only a saved export changes them. -/
def Exports (files after : FileTree) (format : String) (output : Option String) : Prop :=
  match output with
  | some path => if format = "csv" ∨ format = "json" then files.Saves after path else after = files
  | none => after = files

theorem Exports.refl (files : FileTree) (format : String) (output : Option String) :
    Exports files files format output := by
  cases output with
  | none => rfl
  | some path =>
    unfold Exports
    dsimp only
    split
    · exact .refl _ _
    · rfl

theorem exports_deliver {save : String → Saving} {text : Except ExportError String}
    (hsave : ∀ path, files.Saves (save path).files path)
    (hformat : format = "csv" ∨ format = "json") :
    Exports files (deliver files complaints output save text).files format output := by
  unfold Exports deliver
  cases output with
  | none => cases text <;> rfl
  | some path =>
    dsimp only
    rw [if_pos hformat]
    cases (save path).result <;> exact hsave path

theorem exports_rosterOf (situation : Situation) (course : Course) (options : ExportOptions)
    (format : String) (output : Option String) (complaints : String) :
    Exports situation.files
      (rosterOf situation course options format output complaints).files format output := by
  unfold rosterOf
  dsimp only
  split
  next => cases RosterExport.build course options situation.now <;> exact .refl _ _ _
  next =>
    cases RosterExport.build course options situation.now with
    | error error => exact .refl _ _ _
    | ok data => exact exports_deliver (data.saves_saveCsv options situation.files) (.inl rfl)
  next =>
    cases RosterExport.build course options situation.now with
    | error error => exact .refl _ _ _
    | ok data => exact exports_deliver (data.saves_saveJson situation.files) (.inr rfl)
  next => exact .refl _ _ _

theorem exports_roster (situation : Situation) (path format : String)
    (output decimal : Option String) (allowIncomplete : Bool) (settings : Option String) :
    Exports situation.files
      (roster situation path format output decimal allowIncomplete settings).files format
      output := by
  unfold roster rosterUnder
  cases rosterOptions situation settings decimal allowIncomplete format with
  | error error => exact .refl _ _ _
  | ok options =>
    cases Course.load situation.files path with
    | error error => exact .refl _ _ _
    | ok course => exact exports_rosterOf _ _ _ _ _ _

/-- What ends a roster run before there is anything to save. -/
inductive Refused (situation : Situation) (path format : String) (decimal : Option String)
    (allowIncomplete : Bool) (settings : Option String) : Prop
  | settings {error} :
      rosterSettings situation settings decimal allowIncomplete = .error error →
      Refused situation path format decimal allowIncomplete settings
  | course {error} : Course.load situation.files path = .error error →
      Refused situation path format decimal allowIncomplete settings
  | format : format ∉ ["table", "csv", "json"] →
      Refused situation path format decimal allowIncomplete settings
  | incomplete {options course missing} :
      rosterOptions situation settings decimal allowIncomplete format = .ok options →
      Course.load situation.files path = .ok course →
      RosterExport.build course options situation.now = .error (.incomplete missing) →
      Refused situation path format decimal allowIncomplete settings

theorem rosterOf_of_error (h : format ∉ ["table", "csv", "json"] ∨
      ∃ error, RosterExport.build course options situation.now = .error error) :
    (rosterOf situation course options format output complaints).code = 1 ∧
      (rosterOf situation course options format output complaints).files = situation.files := by
  unfold rosterOf
  dsimp only
  rcases h with hformat | ⟨error, hbuild⟩
  · split
    next => exact absurd (by decide) hformat
    next => exact absurd (by decide) hformat
    next => exact absurd (by decide) hformat
    next => exact ⟨rfl, rfl⟩
  · rw [hbuild]
    split <;> exact ⟨rfl, rfl⟩

/-- A refused run fails and leaves the files alone, and so nothing of its output is made. -/
theorem Refused.files_eq {path : String} {decimal settings : Option String}
    {allowIncomplete : Bool}
    (h : Refused situation path format decimal allowIncomplete settings) :
    (roster situation path format output decimal allowIncomplete settings).code = 1 ∧
      (roster situation path format output decimal allowIncomplete settings).files =
        situation.files := by
  unfold roster rosterUnder
  cases hoptions : rosterOptions situation settings decimal allowIncomplete format with
  | error error => exact ⟨rfl, rfl⟩
  | ok options =>
    cases hcourse : Course.load situation.files path with
    | error error => exact ⟨rfl, rfl⟩
    | ok course =>
      cases h with
      | settings hsettings =>
        rw [rosterOptions, hsettings] at hoptions
        cases hoptions
      | course herror =>
        rw [hcourse] at herror
        cases herror
      | format hformat => exact rosterOf_of_error (.inl hformat)
      | incomplete hoptions' hcourse' hbuild =>
        cases hoptions.symm.trans hoptions'
        cases hcourse.symm.trans hcourse'
        exact rosterOf_of_error (.inr ⟨_, hbuild⟩)

section Init

variable {after : FileTree} {path text message : String}

/-- What is provided stands at its place afterwards, in place of nothing. -/
theorem adds_provide (h : provide files path text = .ok (after, message))
    (hending : endsInSlash path = false) :
    files.Adds after [(files.destination path, .file (.text text))] ∧
      after.standing (files.destination path) ≠ .nothing := by
  unfold provide at h
  split at h
  next hfound =>
    cases h
    exact ⟨.refl _ _, standing_of_exists? hfound hending⟩
  next hnew =>
    obtain ⟨written, hwritten, h⟩ := bind_eq_ok_iff.mp h
    cases h
    refine ⟨adds_writeText hwritten (by simpa using hnew), ?_⟩
    rw [(writes_of_writeText hwritten).text]
    exact Node.standing_ne_nothing (.file (.text text))

theorem provide_of_exists (h : files.exists? path = true) (text : String) :
    ∃ message, provide files path text = .ok (files, message) :=
  ⟨_, if_pos h⟩

theorem plain_settings : Plain Settings.fileName :=
  ⟨rfl, by decide, by decide, by decide⟩

theorem plain_course : Plain Sample.coursePath :=
  ⟨rfl, by decide, by decide, by decide⟩

/-- The things that are made for a new user. -/
def samples (files : FileTree) : List (List String × Standing) :=
  [(files.here ++ ["gradebook.toml"], .file (.text Sample.settings)),
    (files.here ++ ["courses"], .directory),
    (files.here ++ ["courses", "example.toml"], .file (.text Sample.course))]

/-- How far the samples are made. -/
theorem init_cases (files : FileTree) :
    ((init files).code = 1 ∧ (init files).files = files) ∨
      ∃ one first, provide files Settings.fileName Sample.settings = .ok (one, first) ∧
        ((init files).code = 1 ∧ (init files).files = (one.makeParents Sample.coursePath).files ∨
          ∃ two second, provide (one.makeParents Sample.coursePath).files Sample.coursePath
            Sample.course = .ok (two, second) ∧ (init files).files = two) := by
  unfold init
  cases provide files Settings.fileName Sample.settings with
  | error error => exact .inl ⟨rfl, rfl⟩
  | ok provided =>
    obtain ⟨one, first⟩ := provided
    refine .inr ⟨one, first, rfl, ?_⟩
    dsimp only
    generalize one.makeParents Sample.coursePath = making
    obtain ⟨made, result⟩ := making
    dsimp only
    cases result with
    | error error => exact .inl ⟨rfl, rfl⟩
    | ok done =>
      cases provide made Sample.coursePath Sample.course with
      | error error => exact .inl ⟨rfl, rfl⟩
      | ok provided =>
        obtain ⟨two, second⟩ := provided
        exact .inr ⟨two, second, rfl, rfl⟩

theorem destination_settings (files : FileTree) :
    files.destination Settings.fileName = files.here ++ ["gradebook.toml"] :=
  plain_settings.destination

theorem destination_course (files : FileTree) :
    files.destination Sample.coursePath = files.here ++ ["courses", "example.toml"] :=
  plain_course.destination

theorem above_course (files : FileTree) :
    files.above Sample.coursePath = [files.here ++ ["courses"]] := by
  have hsegments : pathSegments (parentPath Sample.coursePath) = ["courses"] := by decide
  rw [above, hsegments, start_of_relative rfl, passed_below (by decide) (by decide), passed,
    List.reverse_cons, List.reverse_reverse]

theorem adds_init (files : FileTree) : files.Adds (init files).files (samples files) := by
  rcases init_cases files with ⟨_, hfiles⟩ | ⟨one, first, hone, hmore⟩
  · rw [hfiles]
    exact .refl _ _
  · have hfirst := (adds_provide hone (by decide)).1
    have hmade := hfirst.trans (one.adds_makeParents Sample.coursePath)
    rw [destination_settings, above_course, hfirst.1] at hmade
    rcases hmore with ⟨_, hfiles⟩ | ⟨two, second, htwo, hfiles⟩
    · rw [hfiles]
      exact hmade.mono (by simp [samples, directories])
    · have hall := hmade.trans (adds_provide htwo (by decide)).1
      rw [destination_course, hmade.1] at hall
      rw [hfiles]
      exact hall

/-- Where both samples are, nothing is made. -/
theorem init_of_standing
    (hsettings : files.standing (files.here ++ ["gradebook.toml"]) ≠ .nothing)
    (hcourse : files.standing (files.here ++ ["courses", "example.toml"]) ≠ .nothing) :
    (init files).files = files := by
  rw [← destination_settings] at hsettings
  rw [← destination_course] at hcourse
  obtain ⟨_, hfirst⟩ := provide_of_exists (plain_settings.exists? hsettings) Sample.settings
  obtain ⟨_, hsecond⟩ := provide_of_exists (plain_course.exists? hcourse) Sample.course
  have habove : files.standing (files.here ++ pathSegments (parentPath Sample.coursePath)) =
      .directory := by
    rw [destination_course, show files.here ++ ["courses", "example.toml"] =
      (files.here ++ ["courses"]) ++ ["example.toml"] by simp] at hcourse
    exact Directory.standing_of_append hcourse
  have hmade : files.makeParents Sample.coursePath = ⟨files, .ok ()⟩ :=
    makeParents_of_standing (by decide) (by decide) (by decide) habove
  rcases init_cases files with ⟨_, hfiles⟩ | ⟨one, first, hone, hmore⟩
  · exact hfiles
  · obtain ⟨rfl, rfl⟩ := Prod.mk.inj (Except.ok.inj (hfirst.symm.trans hone))
    rw [hmade] at hmore
    rcases hmore with ⟨_, hfiles⟩ | ⟨two, second, htwo, hfiles⟩
    · exact hfiles
    · obtain ⟨rfl, rfl⟩ := Prod.mk.inj (Except.ok.inj (hsecond.symm.trans htwo))
      exact hfiles

theorem standing_of_init (h : (init files).code = 0) :
    (init files).files.standing (files.here ++ ["gradebook.toml"]) ≠ .nothing ∧
      (init files).files.standing (files.here ++ ["courses", "example.toml"]) ≠ .nothing := by
  rcases init_cases files with
    ⟨hcode, _⟩ | ⟨one, first, hone, ⟨hcode, _⟩ | ⟨two, second, htwo, hfiles⟩⟩
  · rw [hcode] at h
    cases h
  · rw [hcode] at h
    cases h
  · obtain ⟨hfirst, hsettings⟩ := adds_provide hone (by decide)
    have hmade := one.adds_makeParents Sample.coursePath
    obtain ⟨hsecond, hcourse⟩ := adds_provide htwo (by decide)
    rw [destination_settings] at hsettings
    rw [destination_course, hmade.1, hfirst.1] at hcourse
    rw [hfiles]
    refine ⟨?_, hcourse⟩
    rw [hsecond.standing_eq, hmade.standing_eq hsettings]
    · exact hsettings
    · rw [hmade.standing_eq hsettings]
      exact hsettings

end Init

section Reads

theorem files_build (files : FileTree) (components mode : String) (weights : Option String) :
    (build files components mode weights).files = files := by
  unfold build
  cases buildFormula components mode weights with
  | error error => rfl
  | ok formula => dsimp only; split <;> rfl

theorem files_check (files : FileTree) (path : String) : (check files path).files = files := by
  unfold check
  cases loadCourses files path <;> rfl

theorem files_preview (files : FileTree) (formula : String) (grades : List String) :
    (preview files formula grades).files = files := by
  unfold preview
  cases grades.mapM readGrade <;> rfl

end Reads

/-- What a run for a request leaves of the files it starts from. -/
def Leaves (situation : Situation) (run : Run) : Request → Prop
  | .perform .init => situation.files.Adds run.files (samples situation.files) ∧
      (run.code = 0 → ∀ again : Situation, again.files = run.files →
        (perform again .init).files = again.files)
  | .perform (.roster course format output decimal allowIncomplete settings) =>
    Exports situation.files run.files format output ∧
      (Refused situation course format decimal allowIncomplete settings →
        run.code = 1 ∧ run.files = situation.files)
  | .perform (.build ..) | .perform (.check _) | .perform (.preview ..)
  | .showVersion | .showHelp | .refuse => run.files = situation.files

/--
Whatever the command line asks for, nothing changes but what is made for a new user where nothing
stood, and the file that an export is saved in with the directories above it. An export that is
refused changes nothing, and what was made for a new user is not made again.
-/
theorem ofWords_leaves (situation : Situation) (words : List String) :
    Leaves situation (ofWords situation words) (Request.ofWords words) := by
  unfold ofWords
  cases Request.ofWords words with
  | showVersion => rfl
  | showHelp => rfl
  | refuse => rfl
  | perform command =>
    cases command with
    | build components mode weights => exact files_build _ _ _ _
    | check course => exact files_check _ _
    | preview formula grades => exact files_preview _ _ _
    | roster course format output decimal allowIncomplete settings =>
      exact ⟨exports_roster _ _ _ _ _ _ _, Refused.files_eq⟩
    | init =>
      refine ⟨adds_init _, fun hcode again hagain => ?_⟩
      obtain ⟨hsettings, hcourse⟩ := standing_of_init hcode
      have hhere : again.files.here = situation.files.here := hagain ▸ (adds_init _).1
      exact init_of_standing (by rw [hhere, hagain]; exact hsettings)
        (by rw [hhere, hagain]; exact hcourse)

end Run

end FinalGrades
