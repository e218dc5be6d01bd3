import RouteControl.Connection

/-!
# Calls at the same time

Calls that are made on one connection at the same time start in order, and each runs on until it
has to wait for a reply.  One exchange at a time has the connection: while it waits, a call that
needs no exchange goes through, and the exchanges of the others queue for their turns.

A wait begins only when no reply is left, and it is given up in the end.  So a call that waits fails
with it, and each exchange in the queue will come to wait in its turn.
-/

namespace RouteControl.Connection

variable {α : Type}

def waits (call : Call α) (c : Connection) : Bool := (c.run call).2.clock ≠ c.clock

/-- How a call stands while an exchange has the connection. -/
inductive Standing (α : Type) where
  | over (result : Except Error α)
  | queued (call : Call α)

/-- How calls stand that start while an exchange has the connection: those that need none are
over. -/
def startBeside : List (Call α) → Connection → List (Standing α) × Connection
  | [], c => ([], c)
  | call :: rest, c =>
    if waits call c then
      let (standings, c) := startBeside rest c
      (.queued call :: standings, c)
    else
      let (result, c) := c.run call
      let (standings, c) := startBeside rest c
      (.over result :: standings, c)

/-- The results of calls after those in the queue have had their turns. -/
def finish : List (Standing α) → Connection → List (Except Error α) × Connection
  | [], c => ([], c)
  | .over result :: rest, c =>
    let (results, c) := finish rest c
    (result :: results, c)
  | .queued call :: rest, c =>
    let (result, c) := c.run call
    let (results, c) := finish rest c
    (result :: results, c)

/-- The results of calls at the same time, and the connection after them. -/
def together : List (Call α) → Connection → List (Except Error α) × Connection
  | [], c => ([], c)
  | call :: rest, c =>
    let (result, next) := c.run call
    let (results, last) :=
      if waits call c then
        let (standings, next) := startBeside rest next
        finish standings next
      else together rest next
    (result :: results, last)

end RouteControl.Connection
