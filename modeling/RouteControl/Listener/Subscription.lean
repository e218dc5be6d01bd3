import RouteControl.Duration

/-!
# Subscriptions

Which notifications a listener asks for, by multicast group, and how it receives them.
-/

namespace RouteControl

structure Subscription where
  links : Bool := true
  v4Addresses : Bool := true
  v4Routes : Bool := true
  v6Addresses : Bool := true
  v6Routes : Bool := true
  backoff : Duration := .ofSeconds 1
  receiveBuffer : Nat := 32768
  deriving DecidableEq, Repr, Inhabited

namespace Subscription

def nothing : Subscription where
  links := false
  v4Addresses := false
  v4Routes := false
  v6Addresses := false
  v6Routes := false

def withLinks (wanted : Bool) (s : Subscription) : Subscription := { s with links := wanted }

def withV4Addresses (wanted : Bool) (s : Subscription) : Subscription :=
  { s with v4Addresses := wanted }

def withV6Addresses (wanted : Bool) (s : Subscription) : Subscription :=
  { s with v6Addresses := wanted }

def withAddresses (wanted : Bool) (s : Subscription) : Subscription :=
  { s with v4Addresses := wanted, v6Addresses := wanted }

def withRoutes (wanted : Bool) (s : Subscription) : Subscription :=
  { s with v4Routes := wanted, v6Routes := wanted }

def withBackoff (backoff : Duration) (s : Subscription) : Subscription := { s with backoff }

def withReceiveBuffer (size : Nat) (s : Subscription) : Subscription :=
  { s with receiveBuffer := size }

def groups (s : Subscription) : List Nat :=
  [(s.links, 1), (s.v4Addresses, 5), (s.v4Routes, 7), (s.v6Addresses, 9), (s.v6Routes, 11)]
    |>.filterMap fun (wanted, group) => if wanted then some group else none

end Subscription

end RouteControl
