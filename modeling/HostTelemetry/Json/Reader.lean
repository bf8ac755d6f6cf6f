import HostTelemetry.Fault
import HostTelemetry.Json.Basic

/-!
# Reading JSON

A reader takes what is left of a text and gives a value and what is left after it. It stops with
a fault and the rest of the text at the place of the fault. Besides the standard, the words for
NaN and the infinities are numbers, and a lone surrogate may be written as an escape. Nesting and
the digits of a whole number are limited.
-/

set_option autoImplicit false

namespace HostTelemetry.Json

inductive Stop
  | at (f : JsonFault) (rest : Text)
  | fault (f : Fault)

abbrev Scan := Except Stop

def isSpace (c : CodePoint) : Bool := c = 32 || c = 9 || c = 10 || c = 13

def skipSpace (t : Text) : Text := t.dropWhile isSpace

def hex4? (t : Text) : Option CodePoint :=
  match (t.take 4).mapM CodePoint.hexValue? with
  | some [a, b, c, d] => some (Digits.value 16 [a, b, c, d])
  | _ => none

/-- A low surrogate escape after a high one makes one code point of both. -/
def joinPair (high : CodePoint) (t : Text) : Scan (CodePoint × Text) :=
  if high.IsHighSurrogate ∧ t.take 2 = lit "\\u" ∧ !(t.drop 6).isEmpty then
    match hex4? (t.drop 2) with
    | none => .error (.at .unicodeEscape (t.drop 1))
    | some low =>
      if low.IsLowSurrogate then
        .ok (0x10000 + (high - 0xD800) * 0x400 + (low - 0xDC00), t.drop 6)
      else .ok (high, t)
  else .ok (high, t)

def simpleEscape? (c : CodePoint) : Option CodePoint :=
  if c = 34 ∨ c = 92 ∨ c = cp '/' then some c
  else if c = cp 'b' then some 8
  else if c = cp 'f' then some 12
  else if c = cp 'n' then some 10
  else if c = cp 'r' then some 13
  else if c = cp 't' then some 9
  else none

/-- What a backslash begins; `start` is the text from the opening quote, `slash` from the
backslash. At least one code point must follow the four digits of a number. -/
def readEscape (start slash : Text) : Scan (CodePoint × Text) :=
  match slash.drop 1 with
  | [] => .error (.at .unterminated start)
  | c :: t =>
    if c = cp 'u' then
      if (t.drop 4).isEmpty then .error (.at .unicodeEscape (c :: t))
      else match hex4? t with
        | none => .error (.at .unicodeEscape (c :: t))
        | some u => joinPair u (t.drop 4)
    else match simpleEscape? c with
      | some e => .ok (e, t)
      | none => .error (.at .escape slash)

/-- The rest of a string; `n` bounds the number of its code points. -/
def readString (start : Text) : (n : Nat) → Text → Scan (Text × Text)
  | 0, _ => .error (.at .unterminated start)
  | _ + 1, [] => .error (.at .unterminated start)
  | n + 1, c :: t =>
    if c = 34 then .ok ([], t)
    else if c = 92 then do
      let (e, rest) ← readEscape start (c :: t)
      let (s, rest) ← readString start n rest
      pure (e :: s, rest)
    else if c < 32 then .error (.at .control (c :: t))
    else do
      let (s, rest) ← readString start n t
      pure (c :: s, rest)

def fractionOf (t : Text) : Text × Text :=
  match t with
  | c :: d :: r =>
    if c = cp '.' ∧ d.isDigit then
      ((d :: r).takeWhile CodePoint.isDigit, (d :: r).dropWhile CodePoint.isDigit)
    else ([], t)
  | _ => ([], t)

def exponentOf (t : Text) : Option Int × Text :=
  match t with
  | c :: r =>
    if c = cp 'e' ∨ c = cp 'E' then
      let (negative, ds) := Text.signed r
      let digits := ds.takeWhile CodePoint.isDigit
      if digits.isEmpty then (none, t)
      else
        let n : Int := Text.digitsValue digits
        (some (if negative then -n else n), ds.dropWhile CodePoint.isDigit)
    else (none, t)
  | [] => (none, [])

/-- Digits of a whole number: a zero in front stands alone. -/
def wholeOf (t : Text) : Text × Text :=
  match t with
  | c :: r =>
    if c = cp '0' then ([c], r)
    else (t.takeWhile CodePoint.isDigit, t.dropWhile CodePoint.isDigit)
  | [] => ([], [])

abbrev maxNumeral : Nat := 4300

def readNumber (t : Text) : Scan (Json × Text) :=
  let negative := t.head? = some (cp '-')
  let (whole, rest) := wholeOf (if negative then t.drop 1 else t)
  if whole.isEmpty then .error (.at .value t)
  else
    let (fraction, rest) := fractionOf rest
    let (exponent, rest) := exponentOf rest
    if fraction.isEmpty ∧ exponent.isNone then
      if whole.length > maxNumeral then .error (.fault (.numeral whole.length))
      else
        let n : Int := Text.digitsValue whole
        .ok (.int (if negative then -n else n), rest)
    else
      let digits := (whole ++ fraction).map (· - cp '0')
      .ok (.double (Double.ofDecimal negative ⟨digits, whole.length + exponent.getD 0⟩), rest)

def words : List (Text × Json) :=
  [(lit "null", .null), (lit "true", .bool true), (lit "false", .bool false),
    (lit "NaN", .double .nan), (lit "Infinity", .double (.infinite false)),
    (lit "-Infinity", .double (.infinite true))]

def readWord? (t : Text) : Option (Json × Text) :=
  (words.find? fun w => w.1.isPrefixOf t).map fun w => (w.2, t.drop w.1.length)

def readItems (item : Text → Scan (Json × Text)) : (n : Nat) → Text → Scan (List Json × Text)
  | 0, t => .error (.at .value t)
  | n + 1, t => do
    let (x, rest) ← item t
    match skipSpace rest with
    | [] => .error (.at .comma [])
    | c :: more =>
      if c = cp ']' then pure ([x], more)
      else if c = cp ',' then
        let (xs, rest) ← readItems item n (skipSpace more)
        pure (x :: xs, rest)
      else .error (.at .comma (c :: more))

def readKey (t : Text) : Scan (Text × Text) :=
  match t with
  | [] => .error (.at .propertyName [])
  | c :: r =>
    if c = 34 then do
      let (key, rest) ← readString t (r.length + 1) r
      match skipSpace rest with
      | [] => .error (.at .colon [])
      | d :: more => if d = cp ':' then pure (key, skipSpace more) else .error (.at .colon (d :: more))
    else .error (.at .propertyName t)

def readMembers (item : Text → Scan (Json × Text)) : (n : Nat) → Text → Scan (List (Text × Json) × Text)
  | 0, t => .error (.at .propertyName t)
  | n + 1, t => do
    let (key, rest) ← readKey t
    let (x, rest) ← item rest
    match skipSpace rest with
    | [] => .error (.at .comma [])
    | c :: more =>
      if c = 0x7D then pure ([(key, x)], more)
      else if c = cp ',' then
        let (kvs, rest) ← readMembers item n (skipSpace more)
        pure ((key, x) :: kvs, rest)
      else .error (.at .comma (c :: more))

def readArray (item : Text → Scan (Json × Text)) (t : Text) : Scan (Json × Text) :=
  match skipSpace t with
  | [] => .error (.at .value [])
  | c :: r =>
    if c = cp ']' then .ok (.array [], r)
    else do
      let (xs, rest) ← readItems item (r.length + 1) (c :: r)
      pure (.array xs, rest)

def readObject (item : Text → Scan (Json × Text)) (t : Text) : Scan (Json × Text) :=
  match skipSpace t with
  | [] => .error (.at .propertyName [])
  | c :: r =>
    if c = 0x7D then .ok (.object [], r)
    else do
      let (kvs, rest) ← readMembers item (r.length + 1) (c :: r)
      pure (objectOf kvs, rest)

/-- A value with at most `depth` containers inside each other. -/
def readValue : (depth : Nat) → Text → Scan (Json × Text)
  | _, [] => .error (.at .value [])
  | depth, c :: r =>
    if c = 34 then do
      let (s, rest) ← readString (c :: r) (r.length + 1) r
      pure (.text s, rest)
    else if c = 0x7B ∨ c = cp '[' then
      match depth with
      | 0 => .error (.fault .tooDeep)
      | d + 1 => if c = cp '[' then readArray (readValue d) r else readObject (readValue d) r
    else match readWord? (c :: r) with
      | some p => .ok p
      | none => readNumber (c :: r)

def placeOf (t rest : Text) : Place :=
  let n := t.length - rest.length
  let before := t.take n
  ⟨before.count 10 + 1, (before.reverse.takeWhile (· ≠ 10)).length + 1, n⟩

def read (depth : Nat) (t : Text) : Except Fault Json :=
  let stop : Stop → Fault
    | .at f rest => .json f (placeOf t rest)
    | .fault f => f
  if t.head? = some 0xFEFF then .error (.json .byteOrderMark ⟨1, 1, 0⟩)
  else match readValue depth (skipSpace t) with
    | .error s => .error (stop s)
    | .ok (v, rest) =>
      match skipSpace rest with
      | [] => .ok v
      | more => .error (stop (.at .extra more))

end HostTelemetry.Json
