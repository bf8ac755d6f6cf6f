import HostTelemetry.Fault
import HostTelemetry.Text.Blank

/-!
# Reading whole numbers

A numeral has blanks around it, a sign, for the bases 2, 8 and 16 perhaps a mark of the base, and
digits of any script with single underscores between them. In base ten the digits are limited.
-/

set_option autoImplicit false

namespace HostTelemetry.Integer

def isDigitOf (base : Nat) (c : CodePoint) : Bool :=
  match c.hexValue? with
  | some d => d < base
  | none => false

def markOf (base : Nat) : Text :=
  if base = 2 then lit "b" else if base = 8 then lit "o" else if base = 16 then lit "x" else []

/-- Drops a zero and the mark of the base, and one underscore after it. -/
def unmarked (base : Nat) (t : Text) : Text :=
  match t with
  | z :: m :: rest =>
    if z = cp '0' ∧ markOf base = [CodePoint.toLower m] then
      (if rest.head? = some (cp '_') then rest.drop 1 else rest)
    else t
  | _ => t

abbrev maxDigits : Nat := 4300

def read (base : Nat) (t : Text) : Except Fault Int :=
  let (negative, body) := Text.signed (Text.asciiDigits (Text.trimNumeral t))
  match Text.withoutUnderscores? (isDigitOf base) none (unmarked base body) with
  | none => .error (.notAnInteger base t)
  | some ds =>
    match ds.mapM CodePoint.hexValue? with
    | none => .error (.notAnInteger base t)
    | some vs =>
      if vs.isEmpty ∨ vs.any (base ≤ ·) then .error (.notAnInteger base t)
      else if base = 10 ∧ maxDigits < vs.length then .error (.numeral vs.length)
      else
        let n : Int := Digits.value base vs
        .ok (if negative then -n else n)

end HostTelemetry.Integer
