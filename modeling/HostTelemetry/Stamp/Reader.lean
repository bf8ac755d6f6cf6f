import HostTelemetry.Stamp.Basic
import HostTelemetry.Text.Utf8

/-!
# Reading a stamp

Dates in the extended and the basic form and by week, then any one code point, then a time of
day with an optional offset. A text is read as the bytes of its UTF-8, and what stands at two
places decides where the date ends. A reader of fields gives back the unread rest; the end of a
text counts as the byte 0.
-/

set_option autoImplicit false

namespace HostTelemetry

namespace Text

def digits? (n : Nat) (t : Text) : Option (Nat × Text) :=
  let ds := t.take n
  if ds.length = n ∧ ds.all CodePoint.isDigit then some (digitsValue ds, t.drop n) else none

end Text

namespace Stamp

def front (t : Text) : CodePoint := t.headD 0

/-- Where the date ends and the separator stands. A hyphen after week and year may be either the
separator or part of the date: a digit two places on makes it the separator. Without hyphens an
even number of digits in front of the next other code point leaves the week without a day. -/
def dateEnd (t : Text) : Option Nat :=
  if t.length = 7 then some 7
  else
    let codeAt := fun i => front (t.drop i)
    if codeAt 4 = cp '-' then
      if codeAt 5 = cp 'W' then
        if codeAt 8 = cp '-' then
          if t.length = 9 then none
          else if CodePoint.isDigit (codeAt 10) then some 8 else some 10
        else some 8
      else some 10
    else if codeAt 4 = cp 'W' then
      let n := 7 + ((t.drop 7).takeWhile CodePoint.isDigit).length
      if n < 9 then some n else if n % 2 = 0 then some 7 else some 8
    else some 8

def hyphen? (used : Bool) (t : Text) : Option Text :=
  if used then (if front t = cp '-' then some (t.drop 1) else none) else some t

def readDate? (n : Nat) (t : Text) : Option Date := do
  let (year, rest) ← Text.digits? 4 t
  let used := front rest = cp '-'
  let rest := if used then rest.drop 1 else rest
  if front rest = cp 'W' then
    let (week, rest) ← Text.digits? 2 (rest.drop 1)
    if t.length - rest.length < n then
      let rest ← hyphen? used rest
      let (weekday, _) ← Text.digits? 1 rest
      Date.ofWeek? year week weekday
    else Date.ofWeek? year week 1
  else
    let (month, rest) ← Text.digits? 2 rest
    let rest ← hyphen? used rest
    let (day, _) ← Text.digits? 2 rest
    (Date.make? year month day).toOption

structure Fields where
  values : List Nat
  micro : Nat
  left : Bool

namespace Fields

def nth (f : Fields) (i : Nat) : Nat := f.values.getD i 0

end Fields

/-- Up to six digits of a fraction; further digits are skipped. -/
def readFraction? (next : CodePoint) (t : Text) : Option (Nat × Bool) := do
  let n := min 6 t.length
  let (v, rest) ← Text.digits? n t
  pure (v * Nat.pow 10 (6 - n), front (rest.dropWhile CodePoint.isDigit ++ [next]) ≠ 0)

/-- `k` fields of two digits, with colons between them or without; a fraction may end them early.
`next` is what follows the text. -/
def readFields? (next : CodePoint) : (k : Nat) → (colons : Option Bool) → Text → Option Fields
  | 0, _, t => do
    let (micro, left) ← readFraction? next t
    pure ⟨[], micro, left⟩
  | k + 1, colons, t => do
    let (v, rest) ← Text.digits? 2 t
    match rest with
    | [] => pure ⟨[v], 0, next ≠ 0⟩
    | [c] => pure ⟨[v], 0, c ≠ 0⟩
    | c :: more =>
      let colons := colons.getD (c = cp ':')
      if colons && c = cp ':' then
        let f ← readFields? next k (some colons) more
        pure { f with values := v :: f.values }
      else if c = cp '.' ∨ c = cp ',' then
        let (micro, left) ← readFraction? next more
        pure ⟨[v], micro, left⟩
      else if colons then none
      else
        let f ← readFields? next k (some colons) rest
        pure { f with values := v :: f.values }

def isZoneMark (c : CodePoint) : Bool := c = cp '+' || c = cp '-' || c = cp 'Z'

/-- The offset that fields after a sign stand for. Without whole seconds it is universal time. -/
def offsetOf? (negative : Bool) (f : Fields) : Option Offset :=
  let seconds := f.nth 0 * 3600 + f.nth 1 * 60 + f.nth 2
  if f.left then none
  else if seconds = 0 then some .utc
  else
    let n : Int := seconds * 1000000 + f.micro
    (Offset.make? (if negative then -n else n)).toOption

def readZone? (left : Bool) (t : Text) : Option Zone :=
  match t with
  | [] => if left then none else some .none
  | c :: rest =>
    if c = cp 'Z' then (if front rest = 0 then some (.fixed .utc) else none)
    else do
      let f ← readFields? 0 3 none rest
      let o ← offsetOf? (c = cp '-') f
      pure (.fixed o)

def readTime? (t : Text) : Option (TimeOfDay × Zone) := do
  let body := t.takeWhile fun c => !isZoneMark c
  let rest := t.dropWhile fun c => !isZoneMark c
  let f ← readFields? (front rest) 3 none body
  let zone ← readZone? f.left rest
  let time ← (TimeOfDay.make? (f.nth 0) (f.nth 1) (f.nth 2) f.micro).toOption
  pure (time, zone)

/-- A surrogate may only be the separator, at one of the places where one can stand. -/
def separatorSafe (t : Text) : Text :=
  match [7, 8, 10].find? fun i => decide (CodePoint.IsSurrogate (front (t.drop i))) with
  | some i => t.set i (cp 'T')
  | none => t

def widthOf (b : Nat) : Nat :=
  if b < 0x80 then 1 else if b < 0xE0 then 2 else if b < 0xF0 then 3 else 4

def midnight : TimeOfDay := ⟨0, 0, 0, 0, by decide, by decide, by decide, by decide⟩

def readBytes? (t : Text) : Option Stamp := do
  let n ← dateEnd t
  let date ← readDate? n t
  match t.drop n with
  | [] => pure ⟨date, midnight, .none⟩
  | b :: rest =>
    let (time, zone) ← readTime? ((b :: rest).drop (widthOf b))
    pure ⟨date, time, zone⟩

abbrev leastLength : Nat := 7

def read? (t : Text) : Option Stamp :=
  if t.length < leastLength then none
  else match Utf8.encode (separatorSafe t) with
    | .error _ => none
    | .ok bs => readBytes? (bs.map UInt8.toNat)

end Stamp

end HostTelemetry
