import HostTelemetry.Value.Basic

/-!
# Samples

One reading of a host as it comes from its source, before anything is checked.
-/

set_option autoImplicit false

namespace HostTelemetry

structure Sample where
  cpu : Value
  memory : Value
  disk : Value
  network : Value
  time : Value

end HostTelemetry
