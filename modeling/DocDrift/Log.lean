/-!
Log records: a level and a message. Records are values; only the command line writes them.
-/

namespace DocDrift.Log

inductive Level where
  | debug
  | info
  | error
  | critical
  deriving DecidableEq, Repr

namespace Level

/-- Higher levels are more severe. -/
def severity : Level → Nat
  | debug => 10
  | info => 20
  | error => 40
  | critical => 50

def label : Level → String
  | debug => "DEBUG"
  | info => "INFO"
  | error => "ERROR"
  | critical => "CRITICAL"

end Level

structure Record where
  level : Level
  message : String
  deriving DecidableEq, Repr

def atLeast (level : Level) (records : List Record) : List Record :=
  records.filter fun record => level.severity ≤ record.level.severity

end DocDrift.Log
