import HostTelemetry.Text.Basic

/-!
# Tokens of a document

Indicators, the beginning and end of collections that are marked by indentation, and scalars.
-/

set_option autoImplicit false

namespace HostTelemetry.Yaml

/-- A tag as it is written: a handle, unless the tag is verbatim, and a suffix. -/
structure WrittenTag where
  handle : Option Text
  suffix : Text
  deriving DecidableEq, Repr

inductive Directive
  | version (major minor : Nat)
  | tag (handle initial : Text)
  | other
  deriving DecidableEq, Repr

inductive Token
  | streamEnd
  | directive (d : Directive)
  | documentStart
  | documentEnd
  | blockSequence
  | blockMapping
  | blockEnd
  | flowSequence
  | flowSequenceEnd
  | flowMapping
  | flowMappingEnd
  | blockEntry
  | flowEntry
  | key
  | value
  | alias (name : Text)
  | anchor (name : Text)
  | tag (t : WrittenTag)
  | scalar (t : Text) (plain : Bool)
  deriving DecidableEq, Repr

end HostTelemetry.Yaml
