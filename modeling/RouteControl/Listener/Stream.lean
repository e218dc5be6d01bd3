import RouteControl.Listener

/-!
# Streams

Events in a queue: the listener puts them in, a consumer takes them out whenever the listener
waits.  A consumer that wants no more drops the stream, and the listener ends after the next
datagram.
-/

namespace RouteControl.Listener

/-- The events not yet taken, those taken, each with the time, and how many more the consumer wants;
all, where there is no number. -/
structure Stream where
  queue : List Event := []
  taken : List (Duration × Event) := []
  wanted : Option Nat := none
  deriving Repr

namespace Stream

def isDropped (s : Stream) : Bool := s.wanted = some 0

/-- The stream after the listener has put an event in; nothing arrives in one that is dropped. -/
def put (e : Event) (s : Stream) : Stream :=
  if s.isDropped then s else { s with queue := s.queue ++ [e] }

/-- The stream after the consumer has taken what is there and wanted.  With the last event that it
wants, it drops the stream and what is left in the queue. -/
def consume (now : Duration) (s : Stream) : Stream :=
  let count := match s.wanted with
    | some n => min n s.queue.length
    | none => s.queue.length
  { queue := []
    taken := s.taken ++ (s.queue.take count).map fun e => (now, e)
    wanted := s.wanted.map fun n => n - count }

def handler : Handler Stream where
  onEvent _ e s := s.put e
  isClosed := isDropped

def run (backoff : Duration) (stop : Option Duration) : Run Stream where
  handler
  backoff
  stop
  idle := consume

end Stream

end RouteControl.Listener
