import HostTelemetry.Double.Printer
import HostTelemetry.Json.Basic

/-!
# Text of a JSON value

The text is ASCII: every other code point is an escape, above 0xFFFF a pair of escapes.
-/

set_option autoImplicit false

namespace HostTelemetry.Json

structure Layout where
  item : Text
  key : Text

def dense : Layout := ⟨lit ",", lit ":"⟩

def spaced : Layout := ⟨lit ", ", lit ": "⟩

/-- How doubles are written; the words for NaN and the infinities are not standard. -/
def numberFormat : DoubleFormat :=
  { DoubleFormat.usual with infinity := lit "Infinity", nan := lit "NaN" }

def unit (u : Nat) : Text := lit "\\u" ++ Text.hex 4 u

def escape (c : CodePoint) : Text :=
  if c = 34 then lit "\\\""
  else if c = 92 then lit "\\\\"
  else if c = 10 then lit "\\n"
  else if c = 13 then lit "\\r"
  else if c = 9 then lit "\\t"
  else if c = 12 then lit "\\f"
  else if c = 8 then lit "\\b"
  else if 32 ≤ c ∧ c < 127 then [c]
  else if c < 0x10000 then unit c
  else
    let v := c - 0x10000
    unit (0xD800 + v / 0x400) ++ unit (0xDC00 + v % 0x400)

def string (t : Text) : Text := 34 :: t.flatMap escape ++ [34]

mutual

def render (l : Layout) : Json → Text
  | .null => lit "null"
  | .bool b => if b then lit "true" else lit "false"
  | .int n => Text.ofInt n
  | .double d => d.render numberFormat
  | .text t => string t
  | .array xs => cp '[' :: Text.join l.item (renderAll l xs) ++ [cp ']']
  | .object kvs => 0x7B :: Text.join l.item (renderMembers l kvs) ++ [0x7D]

def renderAll (l : Layout) : List Json → List Text
  | [] => []
  | x :: xs => render l x :: renderAll l xs

def renderMembers (l : Layout) : List (Text × Json) → List Text
  | [] => []
  | (k, v) :: kvs => (string k ++ l.key ++ render l v) :: renderMembers l kvs

end

end HostTelemetry.Json
