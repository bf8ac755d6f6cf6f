/-!
# Text

A text is a list of code points. Lone surrogates are allowed, since file names and decoded
lines can hold them; a text without them is a sequence of characters.
-/

set_option autoImplicit false

namespace HostTelemetry

/-- A number below 0x110000; the surrogates are included. -/
abbrev CodePoint := Nat

abbrev Text := List CodePoint

abbrev cp (c : Char) : CodePoint := c.toNat

def lit (s : String) : Text := s.toList.map Char.toNat

namespace CodePoint

def IsSurrogate (c : CodePoint) : Prop := 0xD800 ≤ c ∧ c ≤ 0xDFFF
  deriving Decidable

def IsHighSurrogate (c : CodePoint) : Prop := 0xD800 ≤ c ∧ c ≤ 0xDBFF
  deriving Decidable

def IsLowSurrogate (c : CodePoint) : Prop := 0xDC00 ≤ c ∧ c ≤ 0xDFFF
  deriving Decidable

def isDigit (c : CodePoint) : Bool := cp '0' ≤ c && c ≤ cp '9'

def isLower (c : CodePoint) : Bool := cp 'a' ≤ c && c ≤ cp 'z'

def isUpper (c : CodePoint) : Bool := cp 'A' ≤ c && c ≤ cp 'Z'

def hexValue? (c : CodePoint) : Option Nat :=
  if c.isDigit then some (c - cp '0')
  else if cp 'a' ≤ c && c ≤ cp 'f' then some (c - cp 'a' + 10)
  else if cp 'A' ≤ c && c ≤ cp 'F' then some (c - cp 'A' + 10)
  else none

def toLower (c : CodePoint) : CodePoint := if c.isUpper then c + 32 else c

end CodePoint

namespace Digits

def ofPos (n : Nat) : List Nat :=
  if n = 0 then [] else ofPos (n / 10) ++ [n % 10]
termination_by n
decreasing_by omega

def ofNat (n : Nat) : List Nat := if n = 0 then [0] else ofPos n

def value (b : Nat) (ds : List Nat) : Nat := ds.foldl (fun n d => n * b + d) 0

end Digits

namespace Text

def digit (d : Nat) : CodePoint := if d < 10 then cp '0' + d else cp 'a' + (d - 10)

def ofNat (n : Nat) : Text := (Digits.ofNat n).map digit

def ofInt : Int → Text
  | .ofNat n => ofNat n
  | .negSucc n => cp '-' :: ofNat (n + 1)

def padded (width n : Nat) : Text :=
  let t := ofNat n
  List.replicate (width - t.length) (cp '0') ++ t

def hex : (width : Nat) → (n : Nat) → Text
  | 0, _ => []
  | w + 1, n => hex w (n / 16) ++ [digit (n % 16)]

def digitsValue (t : Text) : Nat := Digits.value 10 (t.map (· - cp '0'))

def join (sep : Text) : List Text → Text
  | [] => []
  | [t] => t
  | t :: u :: ts => t ++ sep ++ join sep (u :: ts)

/-- The pieces between the occurrences of a code point; one more than the occurrences. -/
def splitOn (c : CodePoint) : Text → List Text
  | [] => [[]]
  | d :: t =>
    if d = c then [] :: splitOn c t
    else match splitOn c t with
      | [] => [[d]]
      | p :: ps => (d :: p) :: ps

def cut? (c : CodePoint) (t : Text) : Option (Text × Text) :=
  if c ∈ t then some (t.takeWhile (· ≠ c), (t.dropWhile (· ≠ c)).drop 1) else none

def isPrefix (p t : Text) : Bool := p.isPrefixOf t

def lt : Text → Text → Bool
  | [], [] => false
  | [], _ :: _ => true
  | _ :: _, [] => false
  | a :: s, b :: t => a < b || (a == b && lt s t)

def le (s t : Text) : Bool := !lt t s

def sort (ts : List Text) : List Text := ts.mergeSort le

def lower (t : Text) : Text := t.map CodePoint.toLower

def ofBool (b : Bool) : Text := if b then lit "True" else lit "False"

/-- Line ends: line feed, carriage return, vertical tab, form feed, the file, group and record
separators, next line, and the line and paragraph separators. -/
def isLineEnd (c : CodePoint) : Bool :=
  (10 ≤ c && c ≤ 13) || (28 ≤ c && c ≤ 30) || c == 0x85 || c == 0x2028 || c == 0x2029

/-- The lines of a text without their ends; a carriage return and a line feed are one end. -/
def lines : Text → List Text
  | [] => []
  | [c] => if isLineEnd c then [[]] else [[c]]
  | c :: d :: t =>
    if c = 13 ∧ d = 10 then lines (d :: t)
    else if isLineEnd c then [] :: lines (d :: t)
    else match lines (d :: t) with
      | [] => [[c]]
      | l :: ls => (c :: l) :: ls

end Text

end HostTelemetry
