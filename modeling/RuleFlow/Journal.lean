import RuleFlow.Json.Value
/-! # The journal

What the parts of the program report while they work.  An entry has a level, a message and named fields. -/
namespace RuleFlow

inductive Level | debug | info | warn | error
  deriving DecidableEq, Repr

def Level.name : Level → String
  | .debug => "DEBUG"
  | .info => "INFO"
  | .warn => "WARN"
  | .error => "ERROR"

def Level.rank : Level → Nat
  | .debug => 0
  | .info => 1
  | .warn => 2
  | .error => 3

namespace Journal

inductive Part
  | main | reader | consumer | engine | logNode | computed | alarms | executionLog | tasks
  deriving DecidableEq, Repr

/-- The path of a part, by which filters name it. -/
def Part.path : Part → String
  | .main => "assetrules"
  | .reader => "assetrules"
  | .consumer => "assetrules::consumer"
  | .engine => "assetrules::engine"
  | .logNode => "assetrules::engine::log"
  | .computed => "assetrules::computed"
  | .alarms => "assetrules::alarm"
  | .executionLog => "assetrules::storage::execution_log"
  | .tasks => "assetrules::tasks"

structure Entry where
  part : Part
  level : Level
  message : String
  fields : List (String × Json)

end Journal

end RuleFlow
