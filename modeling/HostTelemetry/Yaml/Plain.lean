import HostTelemetry.Yaml.Quoted

/-!
# Plain scalars

A scalar without quotes ends at a comment, at a colon in front of a gap, at an indicator of flow
collections inside one, at a tab, and at a line that is not indented enough.
-/

set_option autoImplicit false

namespace HostTelemetry.Yaml

def endsPlain (flow : Bool) (x next : CodePoint) : Bool :=
  isGap x || (x = cp ':' && (isGap next || (flow && isOneOf ",[]\x7B\x7D" next))) ||
    (flow && isOneOf ",?[]\x7B\x7D" x)

def plainLength (flow : Bool) : Text → Nat
  | [] => 0
  | x :: t => if endsPlain flow x (t.headD 0) then 0 else plainLength flow t + 1

def readPlainBreaks : (n : Nat) → Cursor → Option Text × Cursor
  | 0, c => (some [], c)
  | n + 1, c =>
    let c := c.skip (· = 32)
    if isBreak (c.peek 0) then
      let (b, c) := c.lineBreak
      if c.isMarker then (none, c)
      else
        let (bs, c) := readPlainBreaks n c
        (bs.map (b ++ ·), c)
    else (some [], c)

/-- What stands between two runs of a scalar, and whether a line ended; without it the scalar
ends. -/
def readPlainSpaces (c : Cursor) : Option Text × Bool × Cursor :=
  let (spaces, c) := c.run (· = 32)
  if isBreak (c.peek 0) then
    let (first, c) := c.lineBreak
    if c.isMarker then (none, true, c)
    else
      let (more, c) := readPlainBreaks (c.rest.length + 1) c
      (more.map (folded first), true, c)
  else (if spaces.isEmpty then none else some spaces, false, c)

def readPlainFrom (flow : Bool) (indent : Int) : (n : Nat) → (before : Text) → (ended : Bool) →
    Cursor → Text × Bool × Cursor
  | 0, _, ended, c => ([], ended, c)
  | n + 1, before, ended, c =>
    let k := if c.peek 0 = cp '#' then 0 else plainLength flow c.rest
    if k = 0 then ([], ended, c)
    else
      let word := c.rest.take k
      let (spaces, ended, c) := readPlainSpaces (c.advance k)
      match spaces with
      | none => (before ++ word, ended, c)
      | some s =>
        if c.peek 0 = cp '#' || (!flow && c.column < indent) then (before ++ word, ended, c)
        else
          let (more, ended, c) := readPlainFrom flow indent n s ended c
          (before ++ word ++ more, ended, c)

def readPlain (flow : Bool) (indent : Int) (c : Cursor) : Text × Bool × Cursor :=
  readPlainFrom flow indent (c.rest.length + 1) [] false c

end HostTelemetry.Yaml
