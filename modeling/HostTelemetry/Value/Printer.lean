import HostTelemetry.Double.Printer
import HostTelemetry.Fault
import HostTelemetry.Stamp.Printer
import HostTelemetry.Value.Basic

/-!
# Text of a value

Two texts of a value: `shown` in messages, where texts stand in quotes and dates are spelled out
as they are built, and `plain`, where a text is itself. A whole number of more than 4300 digits
has neither.
-/

set_option autoImplicit false

namespace HostTelemetry

/-- Numbers of more digits have no text. -/
abbrev maxDigits : Nat := 4300

def intText (n : Int) : Except Fault Text :=
  if n.natAbs < Nat.pow 10 maxDigits then .ok (Text.ofInt n) else .error .tooManyDigits

def bytesText (bs : Bytes) : Text :=
  let t : Text := bs.map UInt8.toNat
  let m := Text.mark t
  cp 'b' :: m :: t.flatMap (fun c =>
    if c = m ∨ c = 92 then [92, c]
    else if c = 9 then lit "\\t"
    else if c = 10 then lit "\\n"
    else if c = 13 then lit "\\r"
    else if 32 ≤ c ∧ c < 127 then [c]
    else lit "\\x" ++ Text.hex 2 c) ++ [m]

namespace Offset

def shown (o : Offset) : Text :=
  if o.micros = 0 then lit "datetime.timezone.utc"
  else lit "datetime.timezone(" ++ Fault.spanText o.micros ++ lit ")"

end Offset

namespace Date

def shown (d : Date) : Text :=
  lit "datetime.date(" ++ Text.ofNat d.year ++ lit ", " ++ Text.ofNat d.month ++ lit ", " ++
    Text.ofNat d.day ++ lit ")"

end Date

namespace Stamp

def shown (s : Stamp) : Text :=
  let tail := if s.time.micro ≠ 0 then [s.time.second, s.time.micro]
    else if s.time.second ≠ 0 then [s.time.second] else []
  let fields := [s.date.year, s.date.month, s.date.day, s.time.hour, s.time.minute] ++ tail
  lit "datetime.datetime(" ++ Text.join (lit ", ") (fields.map Text.ofNat) ++
    (match s.offset? with
    | some o => lit ", tzinfo=" ++ o.shown
    | none => []) ++ lit ")"

end Stamp

namespace Value

/-- Positional while the exponent is at most 0 and the number is not below `10 ^ -6`. -/
def decimalText (negative : Bool) (digits : List Nat) (exponent : Int) : Text :=
  let ds := digits.map Text.digit
  let adjusted := exponent + ds.length - 1
  let body :=
    if exponent ≤ 0 ∧ -6 ≤ adjusted then
      let k := exponent.natAbs
      if k = 0 then ds
      else
        let padded := List.replicate (k + 1 - ds.length) (cp '0') ++ ds
        padded.take (padded.length - k) ++ cp '.' :: padded.drop (padded.length - k)
    else
      (match ds with
      | c :: d :: more => c :: cp '.' :: d :: more
      | _ => ds) ++ lit "E" ++ (if adjusted < 0 then [] else lit "+") ++ Text.ofInt adjusted
  (if negative then [cp '-'] else []) ++ body

def partFormat : DoubleFormat := { DoubleFormat.usual with pointZero := false }

def complexText (re im : Double) : Text :=
  let i := im.render partFormat
  if re = Double.zero false then i ++ lit "j"
  else
    let sign := if i.head? = some (cp '-') then [] else lit "+"
    lit "(" ++ re.render partFormat ++ sign ++ i ++ lit "j)"

def commaList (ts : List Text) : Text := Text.join (lit ", ") ts

def openBrace : Text := [0x7B]

def closeBrace : Text := [0x7D]

mutual

def shown : Value → Except Fault Text
  | .none => .ok (lit "None")
  | .bool b => .ok (Text.ofBool b)
  | .int n => intText n
  | .double d => .ok d.toText
  | .text t => .ok (Text.quoted t)
  | .bytes bs => .ok (bytesText bs)
  | .list xs => do
    let ts ← shownAll xs
    pure (lit "[" ++ commaList ts ++ lit "]")
  | .tuple xs => do
    match ← shownAll xs with
    | [t] => pure (lit "(" ++ t ++ lit ",)")
    | ts => pure (lit "(" ++ commaList ts ++ lit ")")
  | .set xs => do
    match ← shownAll xs with
    | [] => pure (lit "set()")
    | ts => pure (openBrace ++ commaList ts ++ closeBrace)
  | .dict kvs => do
    let ts ← shownPairs kvs
    pure (openBrace ++ commaList ts ++ closeBrace)
  | .again .list => .ok (lit "[...]")
  | .again .dict => .ok (openBrace ++ lit "..." ++ closeBrace)
  | .again .set => .ok (lit "set(...)")
  | .path p => .ok (lit "PosixPath(" ++ Text.quoted p.toText ++ lit ")")
  | .date d => .ok d.shown
  | .stamp s => .ok s.shown
  | .decimal b ds e =>
    .ok (lit "Decimal('" ++ decimalText b ds e ++ lit "')")
  | .fraction p q => do
    pure (lit "Fraction(" ++ (← intText p) ++ lit ", " ++
      (← intText q) ++ lit ")")
  | .complex re im => .ok (complexText re im)

def shownAll : List Value → Except Fault (List Text)
  | [] => .ok []
  | v :: vs => do
    let t ← shown v
    let ts ← shownAll vs
    pure (t :: ts)

def shownPairs : List (Value × Value) → Except Fault (List Text)
  | [] => .ok []
  | (k, v) :: kvs => do
    let s ← shown k
    let t ← shown v
    let ts ← shownPairs kvs
    pure ((s ++ lit ": " ++ t) :: ts)

end

/-- The text of a value where a text is itself, a date its digits and a path its names. -/
def plain : Value → Except Fault Text
  | .text t => .ok t
  | .path p => .ok p.toText
  | .date d => .ok d.toText
  | .stamp s => .ok (s.render 32 .nonzero)
  | .decimal b ds e => .ok (decimalText b ds e)
  | .fraction p q => do
    if q = 1 then intText p else pure ((← intText p) ++ lit "/" ++ (← intText q))
  | v => v.shown

end Value

end HostTelemetry
