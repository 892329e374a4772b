/-! Messages that the parts of the program leave for the user. -/

namespace PointerScript

/-- How much a message matters: the higher, the more. -/
structure Level where
  number : Int
  deriving DecidableEq, Inhabited

namespace Level

def debug : Level := ⟨10⟩
def info : Level := ⟨20⟩
def warning : Level := ⟨30⟩
def error : Level := ⟨40⟩
def critical : Level := ⟨50⟩

/-- The name of a level; levels between the named ones show their number. -/
def name (level : Level) : String :=
  match level.number with
  | 0 => "NOTSET"
  | 10 => "DEBUG"
  | 20 => "INFO"
  | 30 => "WARNING"
  | 40 => "ERROR"
  | 50 => "CRITICAL"
  | n => "Level " ++ toString n

end Level

/-- One message: which part of the program speaks, how much it matters, and the text. -/
structure LogRecord where
  source : String
  level : Level
  message : String
  deriving DecidableEq, Inhabited

namespace LogRecord

/-- The source of a message without the names of its parts, which follow after points. -/
def mainSource (r : LogRecord) : String :=
  String.ofList (r.source.toList.takeWhile (· != '.'))

def text (r : LogRecord) : String :=
  r.source ++ " [" ++ r.level.name ++ "] " ++ r.message

end LogRecord

abbrev Log := Array LogRecord

namespace Log

/-- The messages that matter at least as much as a level, one line each. -/
def texts (log : Log) (least : Level) : List String :=
  (log.toList.filter fun r => least.number ≤ r.level.number).map LogRecord.text

end Log

end PointerScript
