import RouteControl.Draft
import RouteControl.Duration

/-!
# Connection settings

How long to wait for each datagram, how often to send a request while the kernel is busy, and how
large a request and a datagram may be.  At least one transmission is allowed, whatever is asked
for.
-/

namespace RouteControl

/-- How long to wait for each datagram, how often to send a request while the kernel is busy, the
first time included, and the sizes of the buffers that are received and written into. -/
structure Settings where
  timeout : Duration := .ofMilliseconds 1000
  transmissions : Nat := 3
  receiveBuffer : Nat := 32768
  requestCapacity : Nat := Draft.defaultCapacity
  transmissions_pos : 1 ≤ transmissions := by omega
  deriving DecidableEq, Repr

namespace Settings

instance : Inhabited Settings := ⟨{}⟩

def withTimeout (timeout : Duration) (s : Settings) : Settings := { s with timeout }

/-- The settings with so many transmissions, and one where none is asked for. -/
def withTransmissions (n : Nat) (s : Settings) : Settings :=
  { s with transmissions := max 1 n, transmissions_pos := Nat.le_max_left 1 n }

def withReceiveBuffer (size : Nat) (s : Settings) : Settings := { s with receiveBuffer := size }

def withRequestCapacity (size : Nat) (s : Settings) : Settings :=
  { s with requestCapacity := size }

end Settings

end RouteControl
