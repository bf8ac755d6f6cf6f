import HostTelemetry.Text.Basic

/-!
# Capitals

Capital letters, for names written in ASCII. Apart from the letters of ASCII, ten letters have
capitals in ASCII; all others have capitals outside ASCII and are left as they are.
-/

set_option autoImplicit false

namespace HostTelemetry.Text

def capital (c : CodePoint) : Text :=
  if c.isLower then [c - 32]
  else if c = 0xDF then lit "SS"
  else if c = 0x131 then lit "I"
  else if c = 0x17F then lit "S"
  else if c = 0xFB00 then lit "FF"
  else if c = 0xFB01 then lit "FI"
  else if c = 0xFB02 then lit "FL"
  else if c = 0xFB03 then lit "FFI"
  else if c = 0xFB04 then lit "FFL"
  else if c = 0xFB05 ∨ c = 0xFB06 then lit "ST"
  else [c]

def capitals (t : Text) : Text := t.flatMap capital

end HostTelemetry.Text
