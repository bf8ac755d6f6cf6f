import HostTelemetry.Fault

/-!
# Log lines

Each line has a level, the name of its logger and a message. A level has a number and perhaps a
name; some names stand for the same number.
-/

set_option autoImplicit false

namespace HostTelemetry

inductive LevelName
  | critical
  | fatal
  | error
  | warn
  | warning
  | info
  | debug
  | notset
  deriving DecidableEq, Repr

namespace LevelName

def all : List LevelName := [.critical, .fatal, .error, .warn, .warning, .info, .debug, .notset]

def toText : LevelName → Text
  | .critical => lit "CRITICAL"
  | .fatal => lit "FATAL"
  | .error => lit "ERROR"
  | .warn => lit "WARN"
  | .warning => lit "WARNING"
  | .info => lit "INFO"
  | .debug => lit "DEBUG"
  | .notset => lit "NOTSET"

def number : LevelName → Int
  | .critical | .fatal => 50
  | .error => 40
  | .warn | .warning => 30
  | .info => 20
  | .debug => 10
  | .notset => 0

def ofText? (t : Text) : Option LevelName := all.find? fun n => n.toText == t

end LevelName

def levelText (n : Int) : Text :=
  match [LevelName.critical, .error, .warning, .info, .debug, .notset].find? fun l => l.number == n with
  | some l => l.toText
  | none => lit "Level " ++ Text.ofInt n

structure LogLine where
  level : Int
  logger : Text
  message : Text
  deriving DecidableEq, Repr

namespace LogLine

def render (time : Text) (l : LogLine) : Text :=
  time ++ lit " [" ++ levelText l.level ++ lit "] " ++ l.logger ++ lit ": " ++ l.message

end LogLine

end HostTelemetry
