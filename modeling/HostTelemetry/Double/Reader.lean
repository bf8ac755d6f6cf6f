import HostTelemetry.Double.Decimal

/-!
# Reading a double

A sign, digits with a point and an exponent, or a word for infinity or NaN; blanks around it are
ignored, digits of all scripts count, and single underscores may stand between digits.
-/

set_option autoImplicit false

namespace HostTelemetry

namespace Decimal

def exponent? : Text → Option Int
  | [] => some 0
  | c :: t =>
    if c = cp 'e' ∨ c = cp 'E' then
      let (negative, ds) := Text.signed t
      if !ds.isEmpty && ds.all CodePoint.isDigit then
        let n : Int := Text.digitsValue ds
        some (if negative then -n else n)
      else none
    else none

/-- Digits with at most one point and an exponent; at least one digit stands before it. -/
def read? (t : Text) : Option Decimal := do
  let whole := t.takeWhile CodePoint.isDigit
  let rest := t.dropWhile CodePoint.isDigit
  let (part, rest) := match rest with
    | c :: r =>
      if c = cp '.' then (r.takeWhile CodePoint.isDigit, r.dropWhile CodePoint.isDigit)
      else ([], rest)
    | [] => ([], [])
  if whole.isEmpty && part.isEmpty then none
  else
    let e ← exponent? rest
    some ⟨(whole ++ part).map (· - cp '0'), whole.length + e⟩

end Decimal

namespace Double

def readUnsigned? (negative : Bool) (t : Text) : Option Double :=
  let w := Text.lower t
  if w = lit "inf" ∨ w = lit "infinity" then some (.infinite negative)
  else if w = lit "nan" then some .nan
  else (Decimal.read? t).map (ofDecimal negative)

def read? (t : Text) : Option Double := do
  let t ← Text.withoutUnderscores? CodePoint.isDigit none (Text.asciiDigits (Text.trimNumeral t))
  let (negative, rest) := Text.signed t
  readUnsigned? negative rest

end Double

end HostTelemetry
