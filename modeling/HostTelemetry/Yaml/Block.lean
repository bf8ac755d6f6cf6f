import HostTelemetry.Yaml.Cursor

/-!
# Block scalars

A header says whether lines are folded, what happens to line ends at the end, and perhaps the
indentation; then come all lines that are indented at least so much.
-/

set_option autoImplicit false

namespace HostTelemetry.Yaml

/-- What happens to the line ends at the end: the first is kept, all are, or none. -/
inductive Chomp
  | clip
  | keep
  | strip
  deriving DecidableEq, Repr

def chomp? (c : CodePoint) : Option Chomp :=
  if c = cp '+' then some .keep else if c = cp '-' then some .strip else none

def readIncrement (c : Cursor) : Except Fault (Option Nat × Cursor) :=
  let x := c.peek 0
  if CodePoint.isDigit x then
    (if x = cp '0' then .error .yaml else .ok (some (x - cp '0'), c.next))
  else .ok (none, c)

def readIndicators (c : Cursor) : Except Fault (Chomp × Option Nat × Cursor) := do
  let (chomp, increment, c) ← match chomp? (c.peek 0) with
    | some k => do
      let (i, c) ← readIncrement c.next
      pure (k, i, c)
    | none => do
      let (i, c) ← readIncrement c
      match i, chomp? (c.peek 0) with
      | some _, some k => pure (k, i, c.next)
      | _, _ => pure (Chomp.clip, i, c)
  if isSpaceOrEnd (c.peek 0) then pure (chomp, increment, c) else .error .yaml

def readIndentation : (n : Nat) → (widest : Nat) → Cursor → Text × Nat × Cursor
  | 0, widest, c => ([], widest, c)
  | n + 1, widest, c =>
    if c.peek 0 = 32 then
      let c := c.next
      readIndentation n (max widest c.column) c
    else if isBreak (c.peek 0) then
      let (b, c) := c.lineBreak
      let (bs, widest, c) := readIndentation n widest c
      (b ++ bs, widest, c)
    else ([], widest, c)

def indentTo (column : Nat) : (n : Nat) → Cursor → Cursor
  | 0, c => c
  | n + 1, c => if c.column < column ∧ c.peek 0 = 32 then indentTo column n c.next else c

def readEmptyLines (column : Nat) : (n : Nat) → Cursor → Text × Cursor
  | 0, c => ([], c)
  | n + 1, c =>
    let c := indentTo column column c
    if isBreak (c.peek 0) then
      let (b, c) := c.lineBreak
      let (bs, c) := readEmptyLines column n c
      (b ++ bs, c)
    else ([], c)

def isBlankStart (c : CodePoint) : Bool := c = 32 || c = 9

/-- The lines of a scalar from the first one on, its last line end, and the empty lines after
that. Between two lines that begin with text a folded line end becomes a space. -/
def readLines (fold : Bool) (column : Nat) : (n : Nat) → Cursor → Text × Text × Text × Cursor
  | 0, c => ([], [], [], c)
  | n + 1, c =>
    let startsBlank := isBlankStart (c.peek 0)
    let (line, c) := c.run fun x => !isBreakOrEnd x
    let (ending, c) := c.lineBreak
    let (empty, c) := readEmptyLines column (c.rest.length + 1) c
    if c.column = column ∧ c.peek 0 ≠ 0 then
      let joint :=
        if fold ∧ ending = [10] ∧ !startsBlank ∧ !isBlankStart (c.peek 0) then
          (if empty.isEmpty then [32] else [])
        else ending
      let (more, ending, after, c) := readLines fold column n c
      (line ++ joint ++ empty ++ more, ending, after, c)
    else (line, ending, empty, c)

def readBlock (indent : Int) (c : Cursor) : Except Fault (Text × Cursor) := do
  let fold := c.peek 0 = cp '>'
  let (chomp, increment, c) ← readIndicators c.next
  let c ← c.restOfLine
  let least := (max 1 (indent + 1)).toNat
  let n := c.rest.length + 1
  let (empty, column, c) := match increment with
    | none =>
      let (empty, widest, c) := readIndentation n 0 c
      (empty, max least widest, c)
    | some i =>
      let column := least + i - 1
      let (empty, c) := readEmptyLines column n c
      (empty, column, c)
  let (body, ending, after, c) :=
    if c.column = column ∧ c.peek 0 ≠ 0 then
      let (body, ending, after, c) := readLines fold column n c
      (empty ++ body, ending, after, c)
    else ([], [], empty, c)
  pure (body ++ (if chomp = .strip then [] else ending) ++ (if chomp = .keep then after else []), c)

end HostTelemetry.Yaml
