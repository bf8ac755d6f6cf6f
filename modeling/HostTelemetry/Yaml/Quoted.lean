import HostTelemetry.Yaml.Cursor

/-!
# Quoted scalars

Between single quotes a doubled quote stands for one; between double quotes a backslash begins an
escape. A line end becomes a space, and further line ends are kept; an escaped one vanishes.
-/

set_option autoImplicit false

namespace HostTelemetry.Yaml

def simpleEscapes : List (CodePoint × CodePoint) :=
  [(cp '0', 0), (cp 'a', 7), (cp 'b', 8), (cp 't', 9), (9, 9), (cp 'n', 10), (cp 'v', 11),
    (cp 'f', 12), (cp 'r', 13), (cp 'e', 27), (32, 32), (34, 34), (cp '/', cp '/'), (92, 92),
    (cp 'N', 0x85), (cp '_', 0xA0), (cp 'L', 0x2028), (cp 'P', 0x2029)]

def digitEscapes : List (CodePoint × Nat) := [(cp 'x', 2), (cp 'u', 4), (cp 'U', 8)]

def findEscape {α : Type} (c : CodePoint) (es : List (CodePoint × α)) : Option α :=
  (es.find? fun e => e.1 == c).map Prod.snd

def charOf (n : Nat) : Except Fault CodePoint :=
  if n < 0x110000 then .ok n
  else if n < Nat.pow 2 31 then .error .notACodePoint
  else .error .tooLargeForWord

def readBreaks : (n : Nat) → Cursor → Except Fault (Text × Cursor)
  | 0, c => .ok ([], c)
  | n + 1, c =>
    if c.isMarker then .error (c.blame 3 .yaml)
    else
      let c := c.skip fun x => x = 32 || x = 9
      if isBreak (c.peek 0) then do
        let (b, c) := c.lineBreak
        let (bs, c) ← readBreaks n c
        pure (b ++ bs, c)
      else .ok ([], c)

/-- What a backslash begins; the cursor stands after it. -/
def readEscape (c : Cursor) : Except Fault (Text × Cursor) :=
  let x := c.peek 0
  match findEscape x simpleEscapes, findEscape x digitEscapes with
  | some e, _ => .ok ([e], c.next)
  | none, some n =>
    let ds := (c.rest.drop 1).take n
    match ds.mapM CodePoint.hexValue? with
    | some vs =>
      if vs.length = n then do
        let e ← charOf (Digits.value 16 vs)
        pure ([e], c.advance (n + 1))
      else .error (c.blame n .yaml)
    | none => .error .yaml
  | none, none =>
    if isBreak x then readBreaks (c.rest.length + 1) c.lineBreak.2 else .error (c.blame 0 .yaml)

def isQuotedPart (c : CodePoint) : Bool := !(c = 39 || c = 34 || c = 92 || isGap c)

def readWords (double : Bool) : (n : Nat) → Cursor → Except Fault (Text × Cursor)
  | 0, c => .ok ([], c)
  | n + 1, c =>
    let (word, c) := c.run isQuotedPart
    let x := c.peek 0
    if !double && x = 39 && c.peek 1 = 39 then do
      let (more, c) ← readWords double n (c.advance 2)
      pure (word ++ 39 :: more, c)
    else if (double && x = 39) || (!double && (x = 34 || x = 92)) then do
      let (more, c) ← readWords double n c.next
      pure (word ++ x :: more, c)
    else if double && x = 92 then do
      let (e, c) ← readEscape c.next
      let (more, c) ← readWords double n c
      pure (word ++ e ++ more, c)
    else .ok (word, c)

def folded (first more : Text) : Text :=
  (if first ≠ [10] then first else if more.isEmpty then [32] else []) ++ more

def readSpaces (c : Cursor) : Except Fault (Text × Cursor) :=
  let (blanks, c) := c.run fun x => x = 32 || x = 9
  let x := c.peek 0
  if x = 0 then .error (c.blame 0 .yaml)
  else if isBreak x then do
    let (first, c) := c.lineBreak
    let (more, c) ← readBreaks (c.rest.length + 1) c
    pure (folded first more, c)
  else .ok (blanks, c)

def readQuotedRest (double : Bool) (quote : CodePoint) : (n : Nat) → Cursor →
    Except Fault (Text × Cursor)
  | 0, _ => .error .yaml
  | n + 1, c =>
    if c.peek 0 = quote then .ok ([], c.next)
    else do
      let (s, c) ← readSpaces c
      let (w, c) ← readWords double (c.rest.length + 1) c
      let (more, c) ← readQuotedRest double quote n c
      pure (s ++ w ++ more, c)

def readQuoted (c : Cursor) : Except Fault (Text × Cursor) := do
  let quote := c.peek 0
  let double := quote = 34
  let c := c.next
  let (w, c) ← readWords double (c.rest.length + 1) c
  let (more, c) ← readQuotedRest double quote (c.rest.length + 1) c
  pure (w ++ more, c)

end HostTelemetry.Yaml
