import HostTelemetry.Log.Basic
import HostTelemetry.Value.Printer

/-!
# The root of all loggers

Every line goes to the root, which has a level and perhaps a handler. Lines below the level are
not shown. Without a handler only warnings and worse are, and of these only the message.
-/

set_option autoImplicit false

namespace HostTelemetry

structure RootLog where
  handled : Bool
  /-- A whole number or a truth value, as it was set. -/
  level : Number

namespace RootLog

def initial : RootLog := ⟨false, .int LevelName.warning.number⟩

def loggerName (t : Text) : Text := if t.isEmpty then lit "root" else t

/-- The level that a value stands for: a number, or a name in capitals. -/
def levelOf (v : Value) : Except Fault Number := do
  match v with
  | .bool b => pure (.bool b)
  | .int n => pure (.int n)
  | .text t =>
    match LevelName.ofText? t with
    | some l => pure (.int l.number)
    | none => .error (.unknownLevel t)
  | v => .error (.badLevel (← v.shown))

/-- Installs a handler, and then sets the level. -/
def setUp (level : Value) (r : RootLog) : Except Fault Unit × RootLog :=
  let r := { r with handled := true }
  match levelOf level with
  | .error f => (.error f, r)
  | .ok n => (.ok (), { r with level := n })

def shows (r : RootLog) (l : LogLine) : Bool :=
  0 < l.level && (r.level.whole?.getD 0) ≤ l.level &&
    (r.handled || LevelName.warning.number ≤ l.level)

def written (time : Text) (r : RootLog) (ls : List LogLine) : Text :=
  (ls.filter r.shows).flatMap fun l =>
    (if r.handled then l.render time else l.message) ++ [10]

end RootLog

end HostTelemetry
