/-!
# Message types

The types of routing messages that this library sends and receives, the kinds it tells apart, and
the flags of a message.
-/

namespace RouteControl

abbrev MessageType := UInt16

namespace MessageType

def error : MessageType := 2
def done : MessageType := 3
def newLink : MessageType := 16
def deleteLink : MessageType := 17
def getLink : MessageType := 18
def newAddress : MessageType := 20
def deleteAddress : MessageType := 21
def getAddress : MessageType := 22
def newRoute : MessageType := 24
def deleteRoute : MessageType := 25
def getRoute : MessageType := 26
def newRule : MessageType := 32
def deleteRule : MessageType := 33

end MessageType

inductive MessageKind where
  | newLink
  | deleteLink
  | newAddress
  | deleteAddress
  | newRoute
  | deleteRoute
  | newRule
  | deleteRule
  | error
  | done
  | other (type : MessageType)
  deriving DecidableEq, Repr

namespace MessageKind

/-- The kinds that have a name of their own, each with its type. -/
def named : List (MessageType × MessageKind) :=
  [(MessageType.newLink, newLink), (MessageType.deleteLink, deleteLink),
   (MessageType.newAddress, newAddress), (MessageType.deleteAddress, deleteAddress),
   (MessageType.newRoute, newRoute), (MessageType.deleteRoute, deleteRoute),
   (MessageType.newRule, newRule), (MessageType.deleteRule, deleteRule),
   (MessageType.error, error), (MessageType.done, done)]

def ofType (type : MessageType) : MessageKind := (named.lookup type).getD (other type)

def type : MessageKind → MessageType
  | newLink => .newLink
  | deleteLink => .deleteLink
  | newAddress => .newAddress
  | deleteAddress => .deleteAddress
  | newRoute => .newRoute
  | deleteRoute => .deleteRoute
  | newRule => .newRule
  | deleteRule => .deleteRule
  | error => .error
  | done => .done
  | other t => t

end MessageKind

abbrev MessageFlags := UInt16

namespace MessageFlags

def request : MessageFlags := 0x1

def multi : MessageFlags := 0x2

def ack : MessageFlags := 0x4

def dump : MessageFlags := 0x300

def replace : MessageFlags := 0x100

def exclusive : MessageFlags := 0x200

def create : MessageFlags := 0x400

end MessageFlags

end RouteControl
