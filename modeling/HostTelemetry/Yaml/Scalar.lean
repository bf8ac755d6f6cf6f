import HostTelemetry.Double.Reader
import HostTelemetry.Integer
import HostTelemetry.Text.Lower
import HostTelemetry.Value.Basic
import HostTelemetry.Yaml.Kind

/-!
# Values of scalars

Truth values, whole numbers in four bases and to the base sixty, doubles, bytes in base 64, dates
and stamps. A tag can ask for a kind that the text has no form of; then there is a fault.
-/

set_option autoImplicit false

namespace HostTelemetry.Yaml

def boolOf (t : Text) : Except Fault Value :=
  let w := Text.lowered t
  if w = lit "yes" ∨ w = lit "true" ∨ w = lit "on" then .ok (.bool true)
  else if w = lit "no" ∨ w = lit "false" ∨ w = lit "off" then .ok (.bool false)
  else .error (.notATruth w)

def signOf (t : Text) : Except Fault (Bool × Text) :=
  if t.isEmpty then .error .emptyNumber else .ok (Text.signed t)

def sixty (parts : List Int) : Int := parts.foldl (fun n p => n * 60 + p) 0

def intOf (t : Text) : Except Fault Value := do
  let (negative, body) ← signOf (t.filter (· ≠ cp '_'))
  let n ←
    if body = lit "0" then pure 0
    else if (lit "0b").isPrefixOf body then Integer.read 2 (body.drop 2)
    else if (lit "0x").isPrefixOf body then Integer.read 16 (body.drop 2)
    else match body with
      | [] => throw .emptyNumber
      | c :: _ =>
        if c = cp '0' then Integer.read 8 body
        else if cp ':' ∈ body then do
          let parts ← (Text.splitOn (cp ':') body).mapM (Integer.read 10)
          pure (sixty parts)
        else Integer.read 10 body
  pure (.int (if negative then -n else n))

def doubleOf (t : Text) : Except Fault Double :=
  match Double.read? t with
  | some d => .ok d
  | none => .error (.notADouble t)

/-- The sum of parts times powers of sixty, the last part first. -/
def sixtyDouble : (power : Int) → (sum : Double) → List Double → Except Fault Double
  | _, sum, [] => .ok sum
  | power, sum, p :: ps => do
    let x ← (Number.mul (.double p) (.int power)).bind Number.toDouble
    sixtyDouble (power * 60) (sum.add x) ps

def floatOf (t : Text) : Except Fault Value := do
  let (negative, body) ← signOf (Text.lowered (t.filter (· ≠ cp '_')))
  let x ←
    if body = lit ".inf" then pure (Double.infinite false)
    else if body = lit ".nan" then pure Double.nan
    else if cp ':' ∈ body then do
      let parts ← (Text.splitOn (cp ':') body).mapM doubleOf
      sixtyDouble 1 (Double.zero false) parts.reverse
    else doubleOf body
  pure (.double (if negative then x.neg else x))

def sixBits? (c : CodePoint) : Option Nat :=
  if c.isUpper then some (c - cp 'A')
  else if c.isLower then some (c - cp 'a' + 26)
  else if c.isDigit then some (c - cp '0' + 52)
  else if c = cp '+' then some 62
  else if c = cp '/' then some 63
  else none

/-- Where a run of base 64 stands: how many letters of the group are read, the bits left over,
and how many padding signs came in a row. -/
structure Base64 where
  place : Nat
  left : Nat
  pads : Nat
  bytes : Bytes

namespace Base64

/-- One more code point; others than letters and padding are skipped. The state is given back as
an error when padding ends the run. -/
def step (s : Base64) (c : CodePoint) : Except Base64 Base64 :=
  if c = cp '=' then
    if 2 ≤ s.place ∧ 4 ≤ s.place + s.pads + 1 then .error { s with place := 0 }
    else .ok { s with pads := if 2 ≤ s.place then s.pads + 1 else s.pads }
  else match sixBits? c with
    | none => .ok s
    | some b =>
      let s := { s with pads := 0 }
      .ok (if s.place = 0 then { s with place := 1, left := b }
        else if s.place = 1 then
          { s with place := 2, left := b % 16, bytes := s.bytes ++ [(s.left * 4 + b / 16).toUInt8] }
        else if s.place = 2 then
          { s with place := 3, left := b % 4, bytes := s.bytes ++ [(s.left * 16 + b / 4).toUInt8] }
        else { s with place := 0, left := 0, bytes := s.bytes ++ [(s.left * 64 + b).toUInt8] })

def run (s : Base64) : Text → Base64
  | [] => s
  | c :: t => match s.step c with
    | .ok s => run s t
    | .error s => s

end Base64

def binaryOf (t : Text) : Except Fault Value :=
  if t.any (128 ≤ ·) then .error .yaml
  else
    let s := Base64.run ⟨0, 0, 0, []⟩ t
    if s.place = 0 then .ok (.bytes s.bytes) else .error .yaml

def oneOrTwoDigits? (t : Text) : Option (Nat × Text) :=
  let ds := (t.take 2).takeWhile CodePoint.isDigit
  if ds.isEmpty then none else some (Text.digitsValue ds, t.drop ds.length)

def after? (c : CodePoint) (t : Text) : Option Text :=
  if t.head? = some c then some (t.drop 1) else none

def zoneOf (t : Text) : Except Fault Zone :=
  match t.dropWhile fun c => c = 32 || c = 9 with
  | [] => .ok .none
  | c :: rest =>
    if c = cp 'Z' then .ok (.fixed .utc)
    else
      let (hours, rest) := (oneOrTwoDigits? rest).getD (0, [])
      let minutes := Text.digitsValue (rest.drop 1)
      let n : Int := (hours * 60 + minutes) * 60000000
      match Offset.make? (if c = cp '-' then -n else n) with
      | .ok o => .ok (.fixed o)
      | .error f => .error (.calendar f)

def microsOf (ds : Text) : Nat :=
  let ds := ds.take 6
  Text.digitsValue ds * Nat.pow 10 (6 - ds.length)

def dateParts? (t : Text) : Option (Nat × Nat × Nat × Text) := do
  let year := t.take 4
  let rest ← after? (cp '-') (t.drop 4)
  let (month, rest) ← oneOrTwoDigits? rest
  let rest ← after? (cp '-') rest
  let (day, rest) ← oneOrTwoDigits? rest
  some (Text.digitsValue year, month, day, rest)

def askedStampForm : Pattern :=
  Pattern.alt timestampForm
    (Pattern.all [four, Pattern.word "-", oneOrTwo, Pattern.word "-", oneOrTwo])

def timeParts (t : Text) : Nat × Nat × Nat × Text :=
  let t := t.dropWhile fun c => c = 32 || c = 9 || c = cp 'T' || c = cp 't'
  let (hour, rest) := (oneOrTwoDigits? t).getD (0, [])
  (hour, Text.digitsValue ((rest.drop 1).take 2), Text.digitsValue ((rest.drop 4).take 2), rest.drop 6)

def timestampOf (t : Text) : Except Fault Value :=
  if !hasForm askedStampForm t then .error .notATimestamp
  else
    let t := if t.getLast? = some 10 then t.dropLast else t
    match dateParts? t with
    | none => .error .notATimestamp
    | some (year, month, day, rest) =>
      if rest.isEmpty then
        match Date.make? year month day with
        | .ok d => .ok (.date d)
        | .error f => .error (.calendar f)
      else do
        let (hour, minute, second, rest) := timeParts rest
        let (fraction, rest) := match rest with
          | c :: r =>
            if c = cp '.' then (r.takeWhile CodePoint.isDigit, r.dropWhile CodePoint.isDigit)
            else ([], rest)
          | [] => ([], [])
        let zone ← zoneOf rest
        match Stamp.make? year month day hour minute second (microsOf fraction) zone with
        | .ok s => .ok (.stamp s)
        | .error f => .error (.calendar f)

end HostTelemetry.Yaml
