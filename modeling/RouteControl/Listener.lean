import RouteControl.Event
import RouteControl.Kernel.Script

/-!
# Listeners

A listener receives datagrams for ever and hands the events in those from the kernel to a handler.
It ends when the handler wants no more after a datagram, or when it is stopped.  No failure to
receive ends it: after one that is transient it receives again at once, after any other when the
backoff is over.

Time stands still while there is something to do.  Whenever the listener has to wait, whoever else
has something to do gets the chance: that is the `idle` of a run.
-/

namespace RouteControl.Listener

inductive Reception where
  | notification (datagram : Bytes)
  | ignored
  | failed
  deriving DecidableEq, Repr

/-- What a listener, which sends no requests, makes of a reply.  A datagram from elsewhere is not
heeded, nor is a failure that is transient. -/
def Reception.ofReply (reply : Script.Reply) : Reception :=
  match reply.receive 0 with
  | .ok datagram => if datagram.isFromKernel then .notification datagram.bytes else .ignored
  | .error (.io kind) => if kind.isTransient then .ignored else .failed
  | .error _ => .failed

/-- What is done with events, how long to wait after a receive has failed, when the listener is
stopped, if ever, and what is done with the state, and when, while it waits.  What is due at the
moment of the stop is not done any more. -/
structure Run (σ : Type) where
  handler : Handler σ
  backoff : Duration
  stop : Option Duration
  idle : Duration → σ → σ

namespace Run

variable {σ : Type}

def goesOn (run : Run σ) (now : Duration) : Bool :=
  match run.stop with
  | some stop => now.nanoseconds < stop.nanoseconds
  | none => true

/-- The state after the backoff has begun; where there is none, there is nothing to wait for. -/
def wait (run : Run σ) (now : Duration) (state : σ) : σ :=
  if run.backoff = .zero then state else run.idle now state

end Run

/-- What is left behind: the state, the replies that were not received, whether the listener had
ended by itself, and when it last had something to do. -/
structure Left (σ : Type) where
  state : σ
  replies : List Script.Reply
  ended : Bool
  now : Duration

/-- Listens from a given time on, with these replies to come. -/
def listen {σ : Type} (run : Run σ) (now : Duration) (state : σ) : List Script.Reply → Left σ
  | [] => ⟨run.idle now state, [], false, now⟩
  | reply :: rest =>
    match Reception.ofReply reply with
    | .notification datagram =>
      let state := (run.handler.dispatch now datagram state).2
      if run.handler.isClosed state then ⟨state, rest, true, now⟩ else listen run now state rest
    | .ignored => listen run now state rest
    | .failed =>
      let state := run.wait now state
      let wake := now + run.backoff
      if run.goesOn wake then listen run wake state rest else ⟨state, rest, false, now⟩

def start {σ : Type} (run : Run σ) (state : σ) (replies : List Script.Reply) : Left σ :=
  if run.goesOn .zero then listen run .zero state replies else ⟨state, replies, false, .zero⟩

end RouteControl.Listener
