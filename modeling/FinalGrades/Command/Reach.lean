import FinalGrades.Command.Request
import FinalGrades.Command.Sample
import FinalGrades.Settings

/-!
The paths that a command has to do with. No other part of the file tree bears on its run.
-/

namespace FinalGrades.Command

/-- The files that are read or written. -/
def files (environment : Environment) : Command → List String
  | .roster course _ output _ _ settings =>
    course :: (output.toList ++ settings.toList ++ Settings.places environment)
  | .init => [Settings.fileName, Sample.coursePath]
  | .build .. | .check _ | .preview .. => []

/-- The files or directories that are read with everything in them. -/
def folders : Command → List String
  | .check course => [course]
  | .build .. | .preview .. | .roster .. | .init => []

/-- The files that may be written. -/
def targets : Command → List String
  | .roster _ _ output .. => output.toList
  | .init => [Settings.fileName, Sample.coursePath]
  | .build .. | .check _ | .preview .. => []

end FinalGrades.Command
