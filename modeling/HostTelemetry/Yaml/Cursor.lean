import HostTelemetry.Fault

/-!
# A place in a document

What is left of the text, with the index, line and column of the place. The end of the text reads
as the code point 0, which no document holds. Behind it there may be a fault, which keeps the text
from being read further: it is met by whoever looks there.
-/

set_option autoImplicit false

namespace HostTelemetry.Yaml

def isBreak (c : CodePoint) : Bool := c = 10 || c = 13 || c = 0x85 || c = 0x2028 || c = 0x2029

def isBreakOrEnd (c : CodePoint) : Bool := c = 0 || isBreak c

def isSpaceOrEnd (c : CodePoint) : Bool := c = 32 || isBreakOrEnd c

def isGap (c : CodePoint) : Bool := c = 9 || isSpaceOrEnd c

def isWordPart (c : CodePoint) : Bool :=
  c.isDigit || c.isLower || c.isUpper || c = cp '-' || c = cp '_'

def isOneOf (s : String) (c : CodePoint) : Bool := (lit s).contains c

structure Cursor where
  rest : Text
  index : Nat
  line : Nat
  column : Nat
  fault : Option Fault

namespace Cursor

def ofText (t : Text) (fault : Option Fault) : Cursor := ⟨t, 0, 0, 0, fault⟩

def blame (k : Nat) (f : Fault) (c : Cursor) : Fault :=
  if c.rest.length ≤ k then c.fault.getD f else f

def peek (c : Cursor) (k : Nat) : CodePoint := (c.rest.drop k).headD 0

/-- One code point further. A byte order mark has no width. -/
def next (c : Cursor) : Cursor :=
  match c.rest with
  | [] => c
  | x :: r =>
    if isBreak x && !(x = 13 && r.head? = some 10) then
      { c with rest := r, index := c.index + 1, line := c.line + 1, column := 0 }
    else
      { c with
        rest := r
        index := c.index + 1
        column := if x = 0xFEFF then c.column else c.column + 1 }

def advance : Nat → Cursor → Cursor
  | 0, c => c
  | n + 1, c => advance n c.next

def run (p : CodePoint → Bool) (c : Cursor) : Text × Cursor :=
  let t := c.rest.takeWhile p
  (t, c.advance t.length)

def skip (p : CodePoint → Bool) (c : Cursor) : Cursor := (c.run p).2

def lineBreak (c : Cursor) : Text × Cursor :=
  let x := c.peek 0
  if x = 13 ∧ c.peek 1 = 10 then ([10], c.advance 2)
  else if x = 10 ∨ x = 13 ∨ x = 0x85 then ([10], c.next)
  else if x = 0x2028 ∨ x = 0x2029 then ([x], c.next)
  else ([], c)

/-- Whether three hyphens or three points stand here by themselves. -/
def isMarker (c : Cursor) : Bool :=
  (c.rest.take 3 == lit "---" || c.rest.take 3 == lit "...") && isGap (c.peek 3)

def restOfLine (c : Cursor) : Except Fault Cursor :=
  let c := c.skip (· = 32)
  let c := if c.peek 0 = cp '#' then c.skip (fun x => !isBreakOrEnd x) else c
  if isBreakOrEnd (c.peek 0) then .ok c.lineBreak.2 else .error .yaml

end Cursor

end HostTelemetry.Yaml
