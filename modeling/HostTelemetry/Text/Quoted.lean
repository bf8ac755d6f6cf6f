import HostTelemetry.Text.Printable

/-!
# Quoted text

A text in messages stands in single quotes, or in double quotes if it holds a single quote and
no double quote. The quote, the backslash and whatever is not printable are escaped.
-/

set_option autoImplicit false

namespace HostTelemetry.Text

def numberEscape (c : CodePoint) : Text :=
  if c < 0x100 then lit "\\x" ++ hex 2 c
  else if c < 0x10000 then lit "\\u" ++ hex 4 c
  else lit "\\U" ++ hex 8 c

def escape (mark c : CodePoint) : Text :=
  if c = mark ∨ c = 92 then [92, c]
  else if c = 9 then lit "\\t"
  else if c = 10 then lit "\\n"
  else if c = 13 then lit "\\r"
  else if isPrintable c then [c]
  else numberEscape c

/-- The quotation mark of a text: 39 is the single one, 34 the double one. -/
def mark (t : Text) : CodePoint := if 39 ∈ t ∧ 34 ∉ t then 34 else 39

def quoted (t : Text) : Text :=
  let m := mark t
  m :: t.flatMap (escape m) ++ [m]

end HostTelemetry.Text
