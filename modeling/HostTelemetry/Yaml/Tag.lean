import HostTelemetry.Yaml.Cursor
import HostTelemetry.Yaml.Token

/-!
# Anchors, tags and directives

Names of anchors are words; a tag is verbatim, a lone exclamation mark, or a handle and a suffix;
a directive names a version or the meaning of a handle.
-/

set_option autoImplicit false

namespace HostTelemetry.Yaml

def readAnchor (c : Cursor) : Except Fault (Text × Cursor) :=
  let (name, c) := c.next.run isWordPart
  let x := c.peek 0
  if name.isEmpty then .error (c.blame 0 .yaml)
  else if isGap x || isOneOf "?:,]\x7D%@\x60" x then .ok (name, c)
  else .error .yaml

/-- A handle: an exclamation mark alone or around a word. -/
def readHandle (c : Cursor) : Except Fault (Text × Cursor) :=
  if c.peek 0 ≠ cp '!' then .error (c.blame 0 .yaml)
  else if c.peek 1 = 32 then .ok (lit "!", c.next)
  else
    let (word, d) := c.next.run isWordPart
    if d.peek 0 = cp '!' then .ok (lit "!" ++ word ++ lit "!", d.next)
    else .error (d.blame 0 .yaml)

def isTagPart (c : CodePoint) : Bool :=
  isWordPart c || isOneOf ";/?:@&=+$,_.!~*'()[]" c

def readPercents : (n : Nat) → Cursor → Except Fault (Bytes × Cursor)
  | 0, c => .ok ([], c)
  | n + 1, c =>
    if c.peek 0 = cp '%' then
      match ((c.rest.drop 1).take 2).mapM CodePoint.hexValue? with
      | some [a, b] => do
        let (bs, c) ← readPercents n (c.advance 3)
        pure ((a * 16 + b).toUInt8 :: bs, c)
      | some _ => .error (c.blame 2 .yaml)
      | none => .error .yaml
    else .ok ([], c)

def readSuffixFrom : (n : Nat) → Cursor → Except Fault (Text × Cursor)
  | 0, c => .ok ([], c)
  | n + 1, c =>
    let (part, c) := c.run isTagPart
    if c.peek 0 = cp '%' then do
      let (bs, c) ← readPercents (c.rest.length + 1) c
      match Utf8.decode? bs with
      | none => .error .yaml
      | some t =>
        let (more, c) ← readSuffixFrom n c
        pure (part ++ t ++ more, c)
    else .ok (part, c)

def readSuffix (c : Cursor) : Except Fault (Text × Cursor) := do
  let (t, d) ← readSuffixFrom (c.rest.length + 1) c
  if d.index = c.index then .error (d.blame 0 .yaml) else pure (t, d)

def readTag (c : Cursor) : Except Fault (WrittenTag × Cursor) := do
  let x := c.peek 1
  let (t, c) ←
    if x = cp '<' then do
      let (s, c) ← readSuffix (c.advance 2)
      if c.peek 0 = cp '>' then pure (WrittenTag.mk none s, c.next)
      else .error (c.blame 0 .yaml)
    else if isGap x then pure (WrittenTag.mk none (lit "!"), c.next)
    else do
      let word := (c.rest.drop 1).takeWhile fun y => !isSpaceOrEnd y
      let (h, c) ← if cp '!' ∈ word then readHandle c else pure (lit "!", c.next)
      let (s, c) ← readSuffix c
      pure (WrittenTag.mk (some h) s, c)
  if isSpaceOrEnd (c.peek 0) then pure (t, c) else .error .yaml

def readVersionPart (c : Cursor) : Except Fault (Nat × Cursor) :=
  let (ds, c) := c.run CodePoint.isDigit
  if ds.isEmpty then .error (c.blame 0 .yaml)
  else if ds.length > 4300 then .error (c.blame 0 (.numeral ds.length))
  else .ok (Text.digitsValue ds, c)

def readVersion (c : Cursor) : Except Fault (Directive × Cursor) := do
  let (major, c) ← readVersionPart (c.skip (· = 32))
  if c.peek 0 ≠ cp '.' then .error (c.blame 0 .yaml)
  else
    let (minor, c) ← readVersionPart c.next
    if isSpaceOrEnd (c.peek 0) then pure (.version major minor, c) else .error .yaml

def readHandleMeaning (c : Cursor) : Except Fault (Directive × Cursor) := do
  let (h, c) ← readHandle (c.skip (· = 32))
  if c.peek 0 ≠ 32 then .error (c.blame 0 .yaml)
  else
    let (s, c) ← readSuffix (c.skip (· = 32))
    if isSpaceOrEnd (c.peek 0) then pure (.tag h s, c) else .error .yaml

def readDirective (c : Cursor) : Except Fault (Directive × Cursor) := do
  let (name, c) := c.next.run isWordPart
  if name.isEmpty || !isSpaceOrEnd (c.peek 0) then .error (c.blame 0 .yaml)
  else
    let (d, c) ←
      if name = lit "YAML" then readVersion c
      else if name = lit "TAG" then readHandleMeaning c
      else pure (Directive.other, c.skip fun x => !isBreakOrEnd x)
    let c ← c.restOfLine
    pure (d, c)

end HostTelemetry.Yaml
