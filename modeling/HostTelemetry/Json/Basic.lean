import HostTelemetry.Double.Decimal

/-!
# JSON values

Whole numbers are kept apart from doubles, texts may hold lone surrogates, and the members of an
object keep their order.
-/

set_option autoImplicit false

namespace HostTelemetry

inductive Json
  | null
  | bool (b : Bool)
  | int (n : Int)
  | double (d : Double)
  | text (t : Text)
  | array (xs : List Json)
  | object (members : List (Text × Json))

namespace Json

instance : Inhabited Json := ⟨.null⟩

/-- Puts a value under a key: a known key keeps its place. -/
def insert (key : Text) (value : Json) : List (Text × Json) → List (Text × Json)
  | [] => [(key, value)]
  | (k, v) :: kvs => if k = key then (k, value) :: kvs else (k, v) :: insert key value kvs

def objectOf (members : List (Text × Json)) : Json :=
  .object (members.foldl (fun o m => insert m.1 m.2 o) [])

end Json

def lookup? {α : Type} (key : Text) : List (Text × α) → Option α
  | [] => none
  | (k, v) :: kvs => if k = key then some v else lookup? key kvs

end HostTelemetry
