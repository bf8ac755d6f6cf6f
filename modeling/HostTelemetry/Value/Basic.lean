import HostTelemetry.Number
import HostTelemetry.Path
import HostTelemetry.Stamp.Basic
import HostTelemetry.Text.Utf8

/-!
# Values

Settings, fields of a sample and attributes of a counter come from outside and can be anything:
numbers, texts, bytes, dates, paths, lists, tuples, sets and dictionaries. A container that holds
itself is a finite value with `again` where it comes round.
-/

set_option autoImplicit false

namespace HostTelemetry

inductive Container
  | list
  | dict
  | set
  deriving DecidableEq, Repr

inductive Value
  | none
  | bool (b : Bool)
  | int (n : Int)
  | double (d : Double)
  | text (t : Text)
  | bytes (bs : Bytes)
  | list (xs : List Value)
  | tuple (xs : List Value)
  | set (xs : List Value)
  | dict (kvs : List (Value × Value))
  | again (c : Container)
  | path (p : Path)
  | date (d : Date)
  | stamp (s : Stamp)
  /-- A decimal number: digits and a power of ten. -/
  | decimal (negative : Bool) (digits : List Nat) (exponent : Int)
  | fraction (numerator : Int) (denominator : Nat)
  | complex (re im : Double)

namespace Value

instance : Inhabited Value := ⟨.none⟩

def typeName : Value → Text
  | .none => lit "NoneType"
  | .bool _ => lit "bool"
  | .int _ => lit "int"
  | .double _ => lit "float"
  | .text _ => lit "str"
  | .bytes _ => lit "bytes"
  | .list _ | .again .list => lit "list"
  | .tuple _ => lit "tuple"
  | .set _ | .again .set => lit "set"
  | .dict _ | .again .dict => lit "dict"
  | .path _ => lit "PosixPath"
  | .date _ => lit "date"
  | .stamp _ => lit "datetime"
  | .decimal .. => lit "Decimal"
  | .fraction .. => lit "Fraction"
  | .complex .. => lit "complex"

def number? : Value → Option Number
  | .bool b => some (.bool b)
  | .int n => some (.int n)
  | .double d => some (.double d)
  | _ => Option.none

def ofNumber : Number → Value
  | .bool b => .bool b
  | .int n => .int n
  | .double d => .double d

/-- Whether two keys of a dictionary are one: numbers by their size, other keys if they are
alike. -/
def sameKey (v w : Value) : Bool :=
  match v.number?.bind Number.rank?, w.number?.bind Number.rank? with
  | some a, some b => a == b
  | _, _ =>
    match v, w with
    | .none, .none => true
    | .text s, .text t => s == t
    | .bytes s, .bytes t => s == t
    | .path p, .path q => p == q
    | .date d, .date e => d == e
    | .stamp s, .stamp t => s == t
    | _, _ => false

def insert (key value : Value) : List (Value × Value) → List (Value × Value)
  | [] => [(key, value)]
  | (k, v) :: kvs =>
    if sameKey k key then (k, value) :: kvs else (k, v) :: insert key value kvs

def dictOf (kvs : List (Value × Value)) : Value :=
  .dict (kvs.foldl (fun d p => insert p.1 p.2 d) [])

end Value

end HostTelemetry
