import RouteControl.Text.Decimal

/-!
# Durations

Spans of time, exact to the nanosecond, and their text: the largest of seconds, milliseconds,
microseconds and nanoseconds in which the span is at least one, with an exact decimal fraction.
-/

namespace RouteControl

/-- A span of time; also a point in time, counted from the start of a run. -/
structure Duration where
  nanoseconds : Nat
  deriving DecidableEq, Repr, Inhabited

namespace Duration

def zero : Duration := ⟨0⟩

def ofNanoseconds (n : Nat) : Duration := ⟨n⟩

def ofMilliseconds (n : Nat) : Duration := ⟨n * 1000000⟩

def ofSeconds (n : Nat) : Duration := ⟨n * 1000000000⟩

def milliseconds (d : Duration) : Nat := d.nanoseconds / 1000000

def add (a b : Duration) : Duration := ⟨a.nanoseconds + b.nanoseconds⟩

instance : Add Duration := ⟨add⟩

/-- Units from the largest down, each with the decimal places from it to the nanosecond. -/
def units : List (String × Nat) := [("s", 9), ("ms", 6), ("µs", 3)]

/-- The text of a span, such as `1.5s`, `50ms`, `999.999µs` or `0ns`. -/
def text (d : Duration) : String :=
  match units.find? fun u => Nat.pow 10 u.2 ≤ d.nanoseconds with
  | some (name, places) => Decimal.fraction places d.nanoseconds ++ name
  | none => toString d.nanoseconds ++ "ns"

end Duration

end RouteControl
