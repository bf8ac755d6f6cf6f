import HostTelemetry.Text.Basic

/-!
# Paths

A path is a root of no, one or two slashes and a list of names. Writing a path down drops empty
names and single dots; two dots stay. The path without names is the current place.
-/

set_option autoImplicit false

namespace HostTelemetry

structure Path where
  /-- The number of slashes in front: 0, 1, or exactly 2. -/
  slashes : Nat
  names : List Text
  deriving DecidableEq, Repr

namespace Path

def isName (t : Text) : Bool := !t.isEmpty && t != lit "."

/-- Three slashes or more in front count as one. -/
def ofText (t : Text) : Path :=
  let n := (t.takeWhile (· = cp '/')).length
  ⟨if n ≤ 2 then n else 1, (Text.splitOn (cp '/') t).filter isName⟩

def toText (p : Path) : Text :=
  let t := List.replicate p.slashes (cp '/') ++ Text.join [cp '/'] p.names
  if t.isEmpty then lit "." else t

def parent (p : Path) : Path := { p with names := p.names.dropLast }

end Path

end HostTelemetry
