import HostTelemetry.Json.Basic
import HostTelemetry.Value.Printer

/-!
# Values and JSON

Every JSON value is a value. The other way round, a value that JSON does not have becomes its
text, and a key that is not a text becomes one if it is a number, a truth value or nothing.
-/

set_option autoImplicit false

namespace HostTelemetry.Value

mutual

def ofJson : Json → Value
  | .null => .none
  | .bool b => .bool b
  | .int n => .int n
  | .double d => .double d
  | .text t => .text t
  | .array xs => .list (ofJsonAll xs)
  | .object kvs => .dict (ofJsonMembers kvs)

def ofJsonAll : List Json → List Value
  | [] => []
  | x :: xs => ofJson x :: ofJsonAll xs

def ofJsonMembers : List (Text × Json) → List (Value × Value)
  | [] => []
  | (k, v) :: kvs => (.text k, ofJson v) :: ofJsonMembers kvs

end

def memberKey (numberFormat : DoubleFormat) : Value → Except Fault Text
  | .text t => .ok t
  | .double d => .ok (d.render numberFormat)
  | .bool b => .ok (if b then lit "true" else lit "false")
  | .none => .ok (lit "null")
  | .int n => intText n
  | v => .error (.badKey v.typeName)

mutual

def toJson (f : DoubleFormat) : Value → Except Fault Json
  | .none => .ok .null
  | .bool b => .ok (.bool b)
  | .int n => do
    let _ ← intText n
    pure (.int n)
  | .double d => .ok (.double d)
  | .text t => .ok (.text t)
  | .list xs => do pure (.array (← toJsonAll f xs))
  | .tuple xs => do pure (.array (← toJsonAll f xs))
  | .dict kvs => do pure (.object (← toJsonMembers f kvs))
  | v => do pure (.text (← v.plain))

def toJsonAll (f : DoubleFormat) : List Value → Except Fault (List Json)
  | [] => .ok []
  | v :: vs => do
    let x ← toJson f v
    let xs ← toJsonAll f vs
    pure (x :: xs)

def toJsonMembers (f : DoubleFormat) : List (Value × Value) → Except Fault (List (Text × Json))
  | [] => .ok []
  | (k, v) :: kvs => do
    let key ← memberKey f k
    let x ← toJson f v
    let xs ← toJsonMembers f kvs
    pure ((key, x) :: xs)

end

end HostTelemetry.Value
