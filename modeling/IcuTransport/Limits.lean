import Mathlib.Data.Nat.Notation

/-!
# The limits of the transport

The sizes that `native/transport.c` defines at its top. Every buffer and every loop of the model is
bounded by one of them.
-/

set_option autoImplicit false

namespace IcuTransport

/-- The largest response head, in bytes. -/
def maxHeaderBytes : ℕ := 64 * 1024

/-- The size of the buffer for a redirect location. -/
def maxLocationBytes : ℕ := 4096

/-- The size of the buffer for a host. -/
def maxHostBytes : ℕ := 1024

/-- The size of the buffer for a request target. -/
def maxTargetBytes : ℕ := 16 * 1024

/-- The number of redirects that are followed. -/
def maxRedirects : ℕ := 8

/-- The largest captured body, in bytes. -/
def maxCaptureBytes : ℕ := 8 * 1024 * 1024

end IcuTransport
