import RouteControl.Address.Parser
import RouteControl.Address.Printer

/-!
# Prefixes

A prefix is an address with the number of its leading bits that count.  An address lies inside
when it is of the same version and agrees in those bits; a length beyond the width of the address
asks for all of them.  The text is an address, a slash and a length; without slash and length it
is the address alone, at full width.
-/

namespace RouteControl

/-- Whether two words agree in their first `n` bits, most significant bit first. -/
def agree {width : Nat} (n : Nat) (a b : BitVec width) : Bool :=
  a >>> (width - n) == b >>> (width - n)

structure Prefix where
  address : Address
  length : UInt8
  deriving DecidableEq, Repr

namespace Prefix

def contains (p : Prefix) (a : Address) : Bool :=
  match p.address, a with
  | .v4 net, .v4 bits => agree p.length.toNat net bits
  | .v6 net, .v6 bits => agree p.length.toNat net bits
  | _, _ => false

def text (p : Prefix) : String := s!"{p.address.text}/{p.length.toNat}"

inductive ParseError where
  | badAddress (text : String)
  | badLength (text : String)
  | tooLong (length width : UInt8)
  deriving DecidableEq, Repr

def ParseError.message : ParseError → String
  | badAddress text => s!"invalid address: {text}"
  | badLength text => s!"invalid prefix length: {text}"
  | tooLong length width =>
    s!"invalid prefix length: {length.toNat} exceeds maximum {width.toNat} for address family"

def parseAddress (text : String) : Except ParseError Address :=
  match Address.parse? text with
  | some a => .ok a
  | none => .error (.badAddress text)

/-- The text before the first slash and the text behind it, if there is a slash. -/
def splitSlash (text : List Char) : List Char × Option (List Char) :=
  match text.span (· ≠ '/') with
  | (before, []) => (before, none)
  | (before, _ :: behind) => (before, some behind)

def parseLength (a : Address) (text : String) : Except ParseError UInt8 :=
  match Decimal.unsigned? 255 text with
  | none => .error (.badLength text)
  | some n =>
    let length := UInt8.ofNat n
    if a.width < length then .error (.tooLong length a.width) else .ok length

/-- The prefix that a text denotes.  The address is looked at first. -/
def parse (text : String) : Except ParseError Prefix :=
  match splitSlash text.toList with
  | (address, none) => do
    let a ← parseAddress (String.ofList address)
    return ⟨a, a.width⟩
  | (address, some length) => do
    let a ← parseAddress (String.ofList address)
    let n ← parseLength a (String.ofList length)
    return ⟨a, n⟩

end Prefix

end RouteControl
