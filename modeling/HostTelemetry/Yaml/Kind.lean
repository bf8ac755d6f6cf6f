import HostTelemetry.Yaml.Pattern

/-!
# Kinds of nodes

What a node is to become, by its tag. A scalar without a tag and without quotes gets its kind
from its text: which forms are tried depends on the first code point. A line end at the end of a
text does not keep it from having a form.
-/

set_option autoImplicit false

namespace HostTelemetry.Yaml

inductive NodeKind
  | null
  | bool
  | int
  | float
  | binary
  | timestamp
  | omap
  | pairs
  | set
  | str
  | seq
  | map
  | merge
  | value
  | unknown
  deriving DecidableEq, Repr

namespace NodeKind

def names : List (String × NodeKind) :=
  [("null", .null), ("bool", .bool), ("int", .int), ("float", .float), ("binary", .binary),
    ("timestamp", .timestamp), ("omap", .omap), ("pairs", .pairs), ("set", .set), ("str", .str),
    ("seq", .seq), ("map", .map), ("merge", .merge), ("value", .value)]

def tagStart : Text := lit "tag:yaml.org,2002:"

def ofTag (t : Text) : NodeKind :=
  match names.find? fun n => tagStart ++ lit n.1 == t with
  | some n => n.2
  | none => .unknown

end NodeKind

open Pattern

def boolForm : Pattern :=
  words ["yes", "Yes", "YES", "no", "No", "NO", "true", "True", "TRUE", "false", "False", "FALSE",
    "on", "On", "ON", "off", "Off", "OFF"]

def sign : Pattern := opt (oneOf "+-")

def digits : Pattern := star (oneOf "0123456789_")

def numeral : Pattern := seq digit digits

def exponent : Pattern := opt (all [oneOf "eE", oneOf "+-", plus digit])

def sixtieths : Pattern := plus (all [word ":", opt (oneOf "012345"), digit])

def floatForm : Pattern :=
  any [all [sign, numeral, word ".", digits, exponent],
    all [word ".", numeral, exponent],
    all [sign, numeral, sixtieths, word ".", digits],
    all [sign, words [".inf", ".Inf", ".INF"]],
    words [".nan", ".NaN", ".NAN"]]

def positive : Pattern := seq (oneOf "123456789") digits

def intForm : Pattern :=
  any [all [sign, word "0b", plus (oneOf "01_")],
    all [sign, word "0", plus (oneOf "01234567_")],
    all [sign, alt (word "0") positive],
    all [sign, word "0x", plus (oneOf "0123456789abcdefABCDEF_")],
    all [sign, positive, sixtieths]]

def nullForm : Pattern := words ["~", "null", "Null", "NULL", ""]

def oneOrTwo : Pattern := seq digit (opt digit)

def two : Pattern := seq digit digit

def four : Pattern := seq two two

def blanks : Pattern := star (oneOf " \t")

def zoneForm : Pattern :=
  alt (word "Z") (all [oneOf "+-", oneOrTwo, opt (seq (word ":") two)])

def timestampForm : Pattern :=
  alt (all [four, word "-", two, word "-", two])
    (all [four, word "-", oneOrTwo, word "-", oneOrTwo, alt (oneOf "Tt") (plus (oneOf " \t")),
      oneOrTwo, word ":", two, word ":", two, opt (seq (word ".") (star digit)),
      opt (seq blanks zoneForm)])

/-- The forms that are tried in turn, each with the code points it is tried for; 0 stands for the
empty text. -/
def forms : List (NodeKind × Text × Pattern) :=
  [(.bool, lit "yYnNtTfFoO", boolForm), (.float, lit "-+0123456789.", floatForm),
    (.int, lit "-+0123456789", intForm), (.merge, lit "<", word "<<"),
    (.null, 0 :: lit "~nN", nullForm), (.timestamp, lit "0123456789", timestampForm),
    (.value, lit "=", word "="), (.unknown, lit "!&*", words ["!", "&", "*"])]

/-- A match of the text, or of the text without a line end at its end. -/
def hasForm (p : Pattern) (t : Text) : Bool :=
  p.isMatch t || (t.getLast? == some 10 && p.isMatch t.dropLast)

def NodeKind.ofScalar (t : Text) : NodeKind :=
  match forms.find? fun f => f.2.1.contains (t.headD 0) && hasForm f.2.2 t with
  | some f => f.1
  | none => .str

end HostTelemetry.Yaml
