import HostTelemetry.Yaml.Block
import HostTelemetry.Yaml.Plain
import HostTelemetry.Yaml.Tag

/-!
# From text to tokens

Collections of block style begin and end with their indentation. A token that may turn out to be
a key without an indicator is remembered; when a colon follows on the same line, a key token, and
perhaps the beginning of a mapping, are put in front of it. So a token is not handed on while it may
still be a key. Scanning goes on to the end of the text or to a fault, which counts as soon as a
token is asked for that would not be handed on before it.
-/

set_option autoImplicit false

namespace HostTelemetry.Yaml

/-- A token that may be a key: its number and where it begins. It has to be one if a new entry of
a block mapping can only begin there. -/
structure MaybeKey where
  number : Nat
  required : Bool
  index : Nat
  line : Nat
  column : Nat

structure Lexer where
  cursor : Cursor
  /-- How many flow collections are open. -/
  flow : Nat
  /-- The column of the innermost block collection, -1 outside. -/
  indent : Int
  indents : List Int
  keyAllowed : Bool
  /-- What may be a key, with the number of flow collections around it. -/
  keys : List (Nat × MaybeKey)
  tokens : List Token

namespace Lexer

def ofText (t : Text) (fault : Option Fault) : Lexer :=
  ⟨.ofText t fault, 0, -1, [], true, [], []⟩

def add (t : Token) (l : Lexer) : Lexer := { l with tokens := l.tokens ++ [t] }

def maybeKey? (l : Lexer) : Option MaybeKey := (l.keys.find? fun k => k.1 == l.flow).map Prod.snd

def withoutKey (l : Lexer) : Lexer := { l with keys := l.keys.filter fun k => k.1 != l.flow }

def dropKey (l : Lexer) : Except Fault Lexer :=
  match l.maybeKey? with
  | some k => if k.required then .error .yaml else .ok l.withoutKey
  | none => .ok l

/-- A key stands on one line and within 1024 code points. -/
def isStale (l : Lexer) (k : MaybeKey) : Bool :=
  k.line != l.cursor.line || l.cursor.index - k.index > 1024

def dropStale (l : Lexer) : Except Fault Lexer :=
  if l.keys.any fun k => l.isStale k.2 && k.2.required then .error .yaml
  else .ok { l with keys := l.keys.filter fun k => !l.isStale k.2 }

def saveKey (l : Lexer) : Except Fault Lexer := do
  if l.keyAllowed then
    let required := l.flow = 0 ∧ l.indent = l.cursor.column
    let l ← l.dropKey
    let k : MaybeKey :=
      ⟨l.tokens.length, required, l.cursor.index, l.cursor.line, l.cursor.column⟩
    pure { l with keys := (l.flow, k) :: l.keys }
  else pure l

/-- Ends block collections that are indented more than a column; `n` bounds their number. -/
def unwind (column : Int) : (n : Nat) → Lexer → Lexer
  | 0, l => l
  | n + 1, l =>
    if l.flow = 0 ∧ column < l.indent then
      unwind column n
        ({ l with indent := l.indents.headD (-1), indents := l.indents.drop 1 }.add .blockEnd)
    else l

def unwindTo (column : Int) (l : Lexer) : Lexer := unwind column (l.indents.length + 1) l

def deepen (column : Nat) (l : Lexer) : Bool × Lexer :=
  if l.indent < column then
    (true, { l with indents := l.indent :: l.indents, indent := column })
  else (false, l)

def move (n : Nat) (l : Lexer) : Lexer := { l with cursor := l.cursor.advance n }

def skipGaps : (n : Nat) → Lexer → Lexer
  | 0, l => l
  | n + 1, l =>
    let c := l.cursor.skip (· = 32)
    let c := if c.peek 0 = cp '#' then c.skip (fun x => !isBreakOrEnd x) else c
    if isBreak (c.peek 0) then
      skipGaps n { l with cursor := c.lineBreak.2, keyAllowed := l.keyAllowed || l.flow = 0 }
    else { l with cursor := c }

def skipToToken (l : Lexer) : Lexer :=
  let l := if l.cursor.index = 0 ∧ l.cursor.peek 0 = 0xFEFF then l.move 1 else l
  l.skipGaps (l.cursor.rest.length + 1)

def reset (l : Lexer) : Except Fault Lexer := do
  let l ← (l.unwindTo (-1)).dropKey
  pure { l with keyAllowed := false }

def fetchEnd (l : Lexer) : Except Fault Lexer := do
  let l ← l.reset
  pure { l.add .streamEnd with keys := [] }

def fetchDirective (l : Lexer) : Except Fault Lexer := do
  let l ← l.reset
  let (d, c) ← readDirective l.cursor
  pure ({ l with cursor := c }.add (.directive d))

def fetchMarker (t : Token) (l : Lexer) : Except Fault Lexer := do
  let l ← l.reset
  pure ((l.move 3).add t)

def fetchFlowStart (t : Token) (l : Lexer) : Except Fault Lexer := do
  let l ← l.saveKey
  pure (({ l with flow := l.flow + 1, keyAllowed := true }.move 1).add t)

def fetchFlowEnd (t : Token) (l : Lexer) : Except Fault Lexer := do
  let l ← l.dropKey
  pure (({ l with flow := l.flow - 1, keyAllowed := false }.move 1).add t)

def fetchFlowEntry (l : Lexer) : Except Fault Lexer := do
  let l ← l.dropKey
  pure (({ l with keyAllowed := true }.move 1).add .flowEntry)

def beginHere (t : Token) (l : Lexer) : Except Fault Lexer :=
  if l.flow ≠ 0 then .ok l
  else if !l.keyAllowed then .error .yaml
  else match l.deepen l.cursor.column with
    | (true, l) => .ok (l.add t)
    | (false, l) => .ok l

def fetchBlockEntry (l : Lexer) : Except Fault Lexer := do
  let l ← l.beginHere .blockSequence
  let l ← { l with keyAllowed := true }.dropKey
  pure ((l.move 1).add .blockEntry)

def fetchKey (l : Lexer) : Except Fault Lexer := do
  let l ← l.beginHere .blockMapping
  let l ← { l with keyAllowed := l.flow = 0 }.dropKey
  pure ((l.move 1).add .key)

def insertKey (k : MaybeKey) (l : Lexer) : Lexer :=
  let l := l.withoutKey
  let (deeper, l) := if l.flow = 0 then l.deepen k.column else (false, l)
  let added := if deeper then [.blockMapping, .key] else [.key]
  { l with
    tokens := l.tokens.take k.number ++ added ++ l.tokens.drop k.number
    keyAllowed := false }

def fetchValue (l : Lexer) : Except Fault Lexer := do
  let l ← match l.maybeKey? with
    | some k => pure (l.insertKey k)
    | none => do
      let l ← l.beginHere .blockMapping
      { l with keyAllowed := l.flow = 0 }.dropKey
  pure ((l.move 1).add .value)

def fetchSimple (read : Cursor → Except Fault (Token × Cursor)) (l : Lexer) : Except Fault Lexer := do
  let l ← l.saveKey
  let (t, c) ← read l.cursor
  pure ({ l with cursor := c, keyAllowed := false }.add t)

def fetchPlain (l : Lexer) : Except Fault Lexer := do
  let l ← l.saveKey
  let (t, ended, c) := readPlain (l.flow ≠ 0) (l.indent + 1) l.cursor
  pure ({ l with cursor := c, keyAllowed := ended }.add (.scalar t true))

def fetchBlock (l : Lexer) : Except Fault Lexer := do
  let l ← { l with keyAllowed := true }.dropKey
  let (t, c) ← readBlock l.indent l.cursor
  pure ({ l with cursor := c }.add (.scalar t false))

def plainHere (l : Lexer) : Bool :=
  let x := l.cursor.peek 0
  (!isGap x && !isOneOf "-?:,[]\x7B\x7D#&*!|>'\"%@\x60" x) ||
    (!isGap (l.cursor.peek 1) && (x = cp '-' || (l.flow = 0 && isOneOf "?:" x)))

def markerHere (s : String) (l : Lexer) : Bool :=
  l.cursor.column = 0 && l.cursor.rest.take 3 == lit s && isGap (l.cursor.peek 3)

def wrap {α : Type} (f : α → Token) (r : Except Fault (α × Cursor)) : Except Fault (Token × Cursor) :=
  r.map fun p => (f p.1, p.2)

def fetchHere (l : Lexer) : Except Fault Lexer :=
  let x := l.cursor.peek 0
  let gapNext := isGap (l.cursor.peek 1)
  let inFlow := l.flow ≠ 0
  if x = cp '%' ∧ l.cursor.column = 0 then l.fetchDirective
  else if l.markerHere "---" then l.fetchMarker .documentStart
  else if l.markerHere "..." then l.fetchMarker .documentEnd
  else if x = cp '[' then l.fetchFlowStart .flowSequence
  else if x = 0x7B then l.fetchFlowStart .flowMapping
  else if x = cp ']' then l.fetchFlowEnd .flowSequenceEnd
  else if x = 0x7D then l.fetchFlowEnd .flowMappingEnd
  else if x = cp ',' then l.fetchFlowEntry
  else if x = cp '-' ∧ gapNext then l.fetchBlockEntry
  else if x = cp '?' ∧ (inFlow ∨ gapNext) then l.fetchKey
  else if x = cp ':' ∧ (inFlow ∨ gapNext) then l.fetchValue
  else if x = cp '*' then l.fetchSimple fun c => wrap .alias (readAnchor c)
  else if x = cp '&' then l.fetchSimple fun c => wrap .anchor (readAnchor c)
  else if x = cp '!' then l.fetchSimple fun c => wrap .tag (readTag c)
  else if (x = cp '|' ∨ x = cp '>') ∧ !inFlow then l.fetchBlock
  else if x = 39 ∨ x = 34 then l.fetchSimple fun c => wrap (fun t => .scalar t false) (readQuoted c)
  else if l.plainHere then l.fetchPlain
  else .error .yaml

/-- Meets the fault behind the text, if the text is used up. -/
def goOn (l : Lexer) : Except Fault Lexer :=
  match l.cursor.rest, l.cursor.fault with
  | [], some f => .error f
  | _, _ => .ok l

def toNext (l : Lexer) : Except Fault Lexer := do
  let l ← l.dropStale
  let l ← l.skipToToken.goOn
  let l ← l.dropStale
  pure (l.unwindTo l.cursor.column)

def fetch (l : Lexer) : Except Fault (Bool × Lexer) := do
  let l ← l.toNext
  if l.cursor.rest.isEmpty then pure (true, ← l.fetchEnd)
  else pure (false, ← (← l.fetchHere).goOn)

/-- The tokens that are handed on before more is scanned: those in front of all that may be keys. -/
def settled (l : Lexer) : List Token :=
  match ((l.keys.map Prod.snd).filter fun k => k.required || !l.isStale k).map MaybeKey.number with
  | [] => l.tokens
  | n :: ns => l.tokens.take (ns.foldl min n)

def scan : (n : Nat) → Lexer → List Token × Option Fault
  | 0, l => (l.settled, some .yaml)
  | n + 1, l =>
    match l.fetch with
    | .error f => (l.settled, some f)
    | .ok (true, l) => (l.tokens, none)
    | .ok (false, l) => scan n l

end Lexer

def tokens (t : Text) (fault : Option Fault) : List Token × Option Fault :=
  Lexer.scan (t.length + 2) (Lexer.ofText t fault)

end HostTelemetry.Yaml
