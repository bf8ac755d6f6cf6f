import HostTelemetry.Text.Basic

/-!
# Blanks and decimal digits of all scripts

Blanks are the 29 code points that trimming removes. Each script with decimal digits of its own
has ten of them in a row; `zeros` lists where the rows begin.
-/

set_option autoImplicit false

namespace HostTelemetry.Text

/-- White space, the line and paragraph separators, and the four information separators. -/
def blanks : List CodePoint :=
  [9, 10, 11, 12, 13, 28, 29, 30, 31, 32, 0x85, 0xA0, 0x1680, 0x2000, 0x2001, 0x2002, 0x2003,
    0x2004, 0x2005, 0x2006, 0x2007, 0x2008, 0x2009, 0x200A, 0x2028, 0x2029, 0x202F, 0x205F,
    0x3000]

def isBlank (c : CodePoint) : Bool := blanks.contains c

def trimStart (t : Text) : Text := t.dropWhile isBlank

def trimEnd (t : Text) : Text := (t.reverse.dropWhile isBlank).reverse

def trim (t : Text) : Text := trimEnd (trimStart t)

/-- Blanks around a numeral; the information separators are none. -/
def isNumeralBlank (c : CodePoint) : Bool := isBlank c && !(28 ≤ c && c ≤ 31)

def trimNumeral (t : Text) : Text :=
  ((t.dropWhile isNumeralBlank).reverse.dropWhile isNumeralBlank).reverse

def zeros : List CodePoint :=
  [
    48, 0x660, 0x6f0, 0x7c0, 0x966, 0x9e6, 0xa66, 0xae6, 0xb66, 0xbe6, 0xc66, 0xce6, 0xd66, 0xde6,
    0xe50, 0xed0, 0xf20, 0x1040, 0x1090, 0x17e0, 0x1810, 0x1946, 0x19d0, 0x1a80, 0x1a90, 0x1b50,
    0x1bb0, 0x1c40, 0x1c50, 0xa620, 0xa8d0, 0xa900, 0xa9d0, 0xa9f0, 0xaa50, 0xabf0, 0xff10,
    0x104a0, 0x10d30, 0x11066, 0x110f0, 0x11136, 0x111d0, 0x112f0, 0x11450, 0x114d0, 0x11650,
    0x116c0, 0x11730, 0x118e0, 0x11950, 0x11c50, 0x11d50, 0x11da0, 0x16a60, 0x16ac0, 0x16b50,
    0x1d7ce, 0x1d7d8, 0x1d7e2, 0x1d7ec, 0x1d7f6, 0x1e140, 0x1e2f0, 0x1e950, 0x1fbf0
  ]

def decimalValue? (c : CodePoint) : Option Nat :=
  (zeros.find? fun z => z ≤ c && c < z + 10).map (c - ·)

def asciiDigits (t : Text) : Text :=
  t.map fun c => match decimalValue? c with
    | some d => digit d
    | none => c

/-- Underscores between two digits are dropped; any other underscore is a fault. -/
def withoutUnderscores? (isDigit : CodePoint → Bool) : (before : Option CodePoint) → Text →
    Option Text
  | _, [] => some []
  | p, c :: t =>
    if c = cp '_' then
      match p, t with
      | some b, d :: _ => if isDigit b && isDigit d then withoutUnderscores? isDigit (some c) t else none
      | _, _ => none
    else (withoutUnderscores? isDigit (some c) t).map (c :: ·)

def signed : Text → Bool × Text
  | [] => (false, [])
  | c :: t => if c = cp '-' then (true, t) else if c = cp '+' then (false, t) else (false, c :: t)

end HostTelemetry.Text
