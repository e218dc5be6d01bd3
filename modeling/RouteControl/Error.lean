import RouteControl.Duration
import RouteControl.Errno

/-!
# Errors

What can keep an operation from its result, with one message for each cause, the questions that
callers ask of an error, and the outcome that a process reports.

`Error.ofErrno` sorts the error numbers of kernel replies: an entry that is there already, an
entry that is not there, and everything else.
-/

namespace RouteControl

/-- Why the system refused to send or to receive.  The kinds that sockets report have names; the
rest is told by its text. -/
inductive IoKind where
  | notFound
  | permissionDenied
  | connectionRefused
  | connectionReset
  | notConnected
  | brokenPipe
  | wouldBlock
  | invalidInput
  | timedOut
  | writeZero
  | interrupted
  | unexpectedEof
  | outOfMemory
  | other
  | unlisted (description : String)
  deriving DecidableEq, Repr, Inhabited

def IoKind.text : IoKind → String
  | .notFound => "entity not found"
  | .permissionDenied => "permission denied"
  | .connectionRefused => "connection refused"
  | .connectionReset => "connection reset"
  | .notConnected => "not connected"
  | .brokenPipe => "broken pipe"
  | .wouldBlock => "operation would block"
  | .invalidInput => "invalid input parameter"
  | .timedOut => "timed out"
  | .writeZero => "write zero"
  | .interrupted => "operation interrupted"
  | .unexpectedEof => "unexpected end of file"
  | .outOfMemory => "out of memory"
  | .other => "other error"
  | .unlisted description => description

/-- Whether a receive that failed this way is simply to be tried again. -/
def IoKind.isTransient : IoKind → Bool
  | .interrupted | .wouldBlock => true
  | _ => false

inductive Error where
  | io (kind : IoKind)
  | transmitFailure (kind : IoKind)
  | timeout (limit : Duration)
  | bufferOverflow (received capacity : Nat)
  | retryExhausted (attempts : Nat)
  | alreadyExists
  | notFound (errno : Int)
  | protocolError (errno : Int) (text : String)
  | notAcknowledged
  | unreachable (destination : String)
  | bufferTooSmall (needed capacity : Nat)
  | truncated (expected actual : Nat)
  | invalidMessage (reason : String)
  | notSupported (reason : String)
  | undecodable (reason : String)
  | interfaceNotFound (name : String)
  deriving DecidableEq, Repr, Inhabited

namespace Error

def message : Error → String
  | io kind => s!"I/O error: {kind.text}"
  | transmitFailure kind => s!"netlink write error: {kind.text}"
  | timeout limit => s!"no reply from kernel within {limit.text}"
  | bufferOverflow received capacity =>
    s!"netlink response of {received} bytes exceeds buffer size {capacity}"
  | retryExhausted attempts => s!"netlink request timed out after {attempts} transmissions"
  | alreadyExists => "entry already exists"
  | notFound errno => s!"entry not found (errno {errno})"
  | protocolError errno text => s!"kernel error: {text} (errno {errno})"
  | notAcknowledged => "netlink request not acknowledged"
  | unreachable destination => s!"{destination} is unreachable"
  | bufferTooSmall needed capacity =>
    s!"buffer too small: need {needed} bytes, capacity {capacity}"
  | truncated expected actual => s!"message truncated: expected {expected} bytes, got {actual}"
  | invalidMessage reason => s!"invalid message: {reason}"
  | notSupported reason => s!"operation not supported: {reason}"
  | undecodable reason => s!"parse error: {reason}"
  | interfaceNotFound name => s!"interface not found: {name}"

/-- The magnitude of an error code; the least code, which has no positive counterpart, counts as
the greatest. -/
def magnitude (code : Int32) : Int := min code.toInt.natAbs 2147483647

def ofErrno (code : Int32) : Error :=
  let errno := magnitude code
  if errno = Errno.entryExists then alreadyExists
  else if errno = Errno.noSuchEntry ∨ errno = Errno.noEntry then notFound errno
  else protocolError errno s!"{Errno.text errno} (os error {errno})"

def errno? : Error → Option Int
  | alreadyExists => some Errno.entryExists
  | notFound errno => some errno
  | protocolError errno _ => some errno
  | _ => none

def isNotFound : Error → Bool
  | notFound _ | interfaceNotFound _ => true
  | _ => false

def isAlreadyExists : Error → Bool
  | alreadyExists => true
  | _ => false

def isPermissionDenied (e : Error) : Bool :=
  e.errno? = some Errno.notPermitted ∨ e.errno? = some Errno.accessDenied

def isBusy (e : Error) : Bool := e.errno? = some Errno.busy

def isTimeout : Error → Bool
  | timeout _ | retryExhausted _ => true
  | _ => false

def classification : Error → String
  | io _ => "io error"
  | transmitFailure _ => "transmit failure"
  | timeout _ => "timeout"
  | bufferOverflow .. => "buffer overflow"
  | retryExhausted _ => "retry exhausted"
  | alreadyExists => "already exists"
  | notFound _ => "not found"
  | protocolError .. => "protocol error"
  | notAcknowledged => "not acknowledged"
  | unreachable _ => "unreachable"
  | bufferTooSmall .. => "buffer too small"
  | truncated .. | invalidMessage _ | undecodable _ => "malformed reply"
  | notSupported _ => "not supported"
  | interfaceNotFound _ => "interface not found"

end Error

/-- The label of an error, with the error number where the kernel gave one, or that of success. -/
structure Outcome where
  success : Bool
  classification : String
  deriving DecidableEq, Repr

namespace Outcome

def ofError : Error → Outcome
  | .protocolError errno _ => ⟨false, s!"protocol error({errno})"⟩
  | e => ⟨false, e.classification⟩

def ofResult {α : Type} : Except Error α → Outcome
  | .ok _ => ⟨true, "ok"⟩
  | .error e => ofError e

def exitCode (o : Outcome) : Nat := if o.success then 0 else 1

end Outcome

end RouteControl
