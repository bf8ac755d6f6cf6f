import HostTelemetry.Yaml.Document

/-!
# Loaders

A library that loads the only document of a stream. Into which pieces a file is cut on the way to
it, and what it makes of a text, is its own affair; what is relied on are a few laws.
-/

set_option autoImplicit false

namespace HostTelemetry.Yaml

structure Loader where
  pieces : Bytes → List Bytes
  load : TextStream → Except Fault Document

structure Loader.Lawful (loader : Loader) : Prop where
  pieces_flatten : ∀ bs, (loader.pieces bs).flatten = bs
  /-- A fault in the first part of a stream is met, and is not held back. -/
  load_unread : ∀ t u, t.length < partSize → loader.load ⟨t, some u⟩ = .error (.unreadable u)
  /-- A document is the only one if nothing is left of the stream. -/
  load_whole : ∀ s d, loader.load s = .ok d → s.fault = none
  load_kind : ∀ s f, loader.load s = .error f → f.kind ≠ .settings

abbrev pieceSize : Nat := 8192

def reader (limits : Limits) : Loader :=
  ⟨fun bs => Utf8.pieces pieceSize (bs.length + 1) bs, read limits⟩

/-- The limits of a program that has only begun. -/
def usualReader : Loader := reader ⟨490, 984, 999⟩

end HostTelemetry.Yaml
