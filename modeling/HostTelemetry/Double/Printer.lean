import HostTelemetry.Double.Decimal

/-!
# Text of a double

The fewest digits that read back, positional from `10 ^ -4` up to below `10 ^ 16` and with an
exponent of two digits or more elsewhere.
-/

set_option autoImplicit false

namespace HostTelemetry

structure DoubleFormat where
  /-- The least place of the point that is written positionally. -/
  low : Int
  high : Int
  /-- Whether a whole number is written with `.0`. -/
  pointZero : Bool
  infinity : Text
  nan : Text

def DoubleFormat.usual : DoubleFormat := ⟨-3, 16, true, lit "inf", lit "nan"⟩

namespace Decimal

def exponentText (e : Int) : Text :=
  (if e < 0 then lit "e-" else lit "e+") ++ Text.padded 2 e.natAbs

def positional (f : DoubleFormat) (d : Decimal) : Text :=
  let ds := d.digits.map Text.digit
  if d.point ≤ 0 then lit "0." ++ List.replicate d.point.natAbs (cp '0') ++ ds
  else
    let n := d.point.natAbs
    if n < ds.length then ds.take n ++ cp '.' :: ds.drop n
    else ds ++ List.replicate (n - ds.length) (cp '0') ++
      (if f.pointZero then lit ".0" else [])

def scientific (d : Decimal) : Text :=
  match d.digits.map Text.digit with
  | [] => []
  | c :: ds =>
    c :: (if ds.isEmpty then [] else cp '.' :: ds) ++ exponentText (d.point - 1)

def render (f : DoubleFormat) (d : Decimal) : Text :=
  if f.low ≤ d.point ∧ d.point ≤ f.high then d.positional f else d.scientific

end Decimal

namespace Double

def render (f : DoubleFormat) : Double → Text
  | .nan => f.nan
  | .infinite b => (if b then [cp '-'] else []) ++ f.infinity
  | .finite b u _ => (if b then [cp '-'] else []) ++ (shortest u).render f

def toText (x : Double) : Text := x.render .usual

end Double

end HostTelemetry
