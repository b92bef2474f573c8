/-!
What the program notes while it works, for whoever runs it.
-/

namespace FinalGrades

inductive Level where
  | trace
  | debug
  | info
  | warn
deriving DecidableEq

structure Event where
  level : Level
  message : String
deriving DecidableEq

namespace Level

def name : Level → String
  | .trace => "TRACE"
  | .debug => "DEBUG"
  | .info => "INFO"
  | .warn => "WARN"

end Level

end FinalGrades
