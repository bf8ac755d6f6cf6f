import HostTelemetry.Text.Utf8

/-!
# Text streams

A file that is read as text is decoded piece by piece, and its line ends are unified. Whoever reads
it gets the text in front of the first piece that cannot be decoded, and there the fault.
-/

set_option autoImplicit false

namespace HostTelemetry

structure TextStream where
  text : Text
  fault : Option Utf8.Unreadable

namespace TextStream

def unifiedLines : Text → Text
  | [] => []
  | c :: t =>
    if c = 13 then (if t.head? = some 10 then unifiedLines t else 10 :: unifiedLines t)
    else c :: unifiedLines t

/-- A carriage return at the end waits for what follows, so a fault keeps it back. -/
def ofPieces (ps : List Bytes) : TextStream :=
  match Utf8.decodePieces [] ps with
  | (t, none) => ⟨unifiedLines t, none⟩
  | (t, some u) => ⟨unifiedLines (if t.getLast? = some 13 then t.dropLast else t), some u⟩

end TextStream

end HostTelemetry
