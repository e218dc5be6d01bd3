import RouteControl.Error
import RouteControl.Text.Blank

/-!
# Interfaces

Interfaces are named or numbered.  A name is one to fifteen bytes without slash, zero character or
blank; only then is it looked up, in a table of the host's interfaces.
-/

namespace RouteControl.Interface

/-- Why a name or a number leads to no interface. -/
inductive LookupError where
  | emptyName
  | nameTooLong
  | badCharacter
  | blankInName
  | noSuchName (name : String)
  | noSuchIndex (index : UInt32)
  deriving DecidableEq, Repr

/-- The size of the system's buffer for a name, with its final zero. -/
def nameBufferSize : Nat := 16

namespace LookupError

def isBadName : LookupError → Bool
  | noSuchName _ | noSuchIndex _ => false
  | _ => true

def detail : LookupError → String
  | emptyName => "empty name"
  | nameTooLong => s!"name too long (max {nameBufferSize - 1} chars)"
  | badCharacter => "name contains invalid characters"
  | blankInName => "name contains whitespace"
  | noSuchName name => name
  | noSuchIndex index => s!"index {index}"

def message (e : LookupError) : String :=
  if e.isBadName then s!"invalid interface name: {e.detail}"
  else s!"interface not found: {e.detail}"

end LookupError

/-- Whether a name may be looked up; the first fault counts. -/
def checkName (name : String) : Except LookupError Unit :=
  if name.isEmpty then .error .emptyName
  else if nameBufferSize ≤ name.utf8ByteSize then .error .nameTooLong
  else if name.toList.any fun c => c == '/' || c == '\x00' then .error .badCharacter
  else if name.toList.any Text.isBlank then .error .blankInName
  else .ok ()

abbrev Table := List (String × UInt32)

def indexOf (name : String) (host : Table) : Except LookupError UInt32 := do
  checkName name
  match host.lookup name with
  | some index => return index
  | none => throw (.noSuchName name)

/-- The name of the interface of this number; no interface has the number zero. -/
def nameOf (index : UInt32) (host : Table) : Except LookupError String :=
  match host.find? fun entry => entry.2 = index ∧ index ≠ 0 with
  | some entry => .ok entry.1
  | none => .error (.noSuchIndex index)

end RouteControl.Interface

namespace RouteControl

/-- An interface as a caller refers to it. -/
inductive InterfaceRef where
  | name (name : String)
  | index (index : UInt32)
  deriving DecidableEq, Repr

namespace InterfaceRef

def text : InterfaceRef → String
  | name n => n
  | index i => s!"ifindex:{i}"

/-- The interface that an argument refers to: by number where it is one, by name otherwise. -/
def ofArgument (argument : String) : InterfaceRef :=
  match Decimal.unsigned? (UInt32.size - 1) argument with
  | some n => index (UInt32.ofNat n)
  | none => name argument

/-- The number of the interface.  A number is taken as it is; a name is looked up. -/
def resolve (host : Interface.Table) : InterfaceRef → Except Error UInt32
  | index i => .ok i
  | name n =>
    match Interface.indexOf n host with
    | .ok i => .ok i
    | .error e =>
      if e.isBadName then .error (.invalidMessage e.detail) else .error (.interfaceNotFound n)

end InterfaceRef

end RouteControl
