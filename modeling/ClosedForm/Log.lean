/-!
# Log messages
-/

namespace ClosedForm.Log

inductive Level where
  | debug
  | trace
  deriving DecidableEq

def Level.name : Level → String
  | debug => "DEBUG"
  | trace => "TRACE"

structure Event where
  level : Level
  message : String
  deriving DecidableEq

abbrev debug (message : String) : Event :=
  ⟨.debug, message⟩

abbrev trace (message : String) : Event :=
  ⟨.trace, message⟩

end ClosedForm.Log
