/-!
# Arguments

Switches and operands of a command.  A switch is spelled by a word behind two hyphens or by a
letter behind one.  A value follows as the next argument, or in the same one: behind an equals
sign, or, for a letter, directly.  Letters without values may stand together, the last of them with
a value.  Everything behind two lone hyphens is an operand, and so is what does not start with a
hyphen, or is one.  A switch may be given once, and a value that is an argument of its own must not
look like a switch.
-/

namespace RouteControl.CommandLine

/-- A switch is spelled by its letter, where it has one, and by its name after two hyphens, if that
is a word. -/
structure Switch where
  name : String
  isWord : Bool := true
  letter : Option Char := none
  takesValue : Bool := true
  deriving DecidableEq, Repr

/-- Names of switches with their values, which are empty for those without one, and operands. -/
structure Arguments where
  switches : List (String × String) := []
  operands : List String := []
  deriving DecidableEq, Repr

namespace Arguments

def value? (a : Arguments) (name : String) : Option String := a.switches.lookup name

def has (a : Arguments) (name : String) : Bool := (a.value? name).isSome

/-- With one more switch in front; none where it is there already. -/
def withSwitch (name value : String) (a : Arguments) : Option Arguments :=
  if a.has name then none else some { a with switches := (name, value) :: a.switches }

def withOperand (operand : String) (a : Arguments) : Arguments :=
  { a with operands := operand :: a.operands }

def looksLikeSwitch (argument : String) : Bool :=
  match argument.toList with
  | '-' :: _ :: _ => true
  | _ => false

/-- What one argument says.  Nothing but operands follows an escape, and the value of a pending
switch is the next argument. -/
inductive Piece where
  | operand
  | escape
  | switches (found : List (String × String))
  | pending (found : List (String × String)) (name : String)
  | unknown
  deriving DecidableEq, Repr

/-- What is behind the first equals sign, if there is one, and what is in front of it. -/
def splitEquals (text : List Char) : List Char × Option (List Char) :=
  match text.span (· ≠ '=') with
  | (front, []) => (front, none)
  | (front, _ :: behind) => (front, some behind)

def readWord (known : List Switch) (text : List Char) : Piece :=
  let (front, behind) := splitEquals text
  let word := String.ofList front
  match known.find? fun s => s.isWord && s.name == word with
  | none => .unknown
  | some s =>
    match s.takesValue, behind with
    | true, some value => .switches [(s.name, String.ofList value)]
    | true, none => .pending [] s.name
    | false, none => .switches [(s.name, "")]
    | false, some _ => .unknown

/-- The value that follows a letter in the same argument, without the equals sign in front. -/
def attached : List Char → String
  | '=' :: value => String.ofList value
  | value => String.ofList value

/-- What letters behind a hyphen say, behind the switches found so far. -/
def readLetters (known : List Switch) (found : List (String × String)) : List Char → Piece
  | [] => .switches found
  | letter :: rest =>
    match known.find? fun s => s.letter == some letter with
    | none => .unknown
    | some s =>
      if !s.takesValue then readLetters known (found ++ [(s.name, "")]) rest
      else if rest.isEmpty then .pending found s.name
      else .switches (found ++ [(s.name, attached rest)])

def readPiece (known : List Switch) (argument : String) : Piece :=
  match argument.toList with
  | ['-', '-'] => .escape
  | '-' :: '-' :: word => readWord known word
  | '-' :: letter :: rest => readLetters known [] (letter :: rest)
  | _ => .operand

def withSwitches (found : List (String × String)) (a : Arguments) : Option Arguments :=
  found.foldr (fun s a => a.bind (withSwitch s.1 s.2)) (some a)

/-- The switches and operands in a list of arguments; none where the list is not well formed. -/
def parse (known : List Switch) : List String → Option Arguments
  | [] => some {}
  | argument :: rest =>
    match readPiece known argument with
    | .operand => (parse known rest).map (withOperand argument)
    | .escape => some { operands := rest }
    | .switches found => (parse known rest).bind (withSwitches found)
    | .pending found name =>
      match rest with
      | [] => none
      | value :: rest =>
        if looksLikeSwitch value then none
        else (parse known rest).bind (withSwitches (found ++ [(name, value)]))
    | .unknown => none

/-- The switches in front of the first operand, and the list from that operand on. -/
def parseLeading (known : List Switch) : List String → Option (Arguments × List String)
  | [] => some ({}, [])
  | argument :: rest =>
    match readPiece known argument with
    | .operand => some ({}, argument :: rest)
    | .switches found => (parseLeading known rest).bind (lead found)
    | .pending found name =>
      match rest with
      | [] => none
      | value :: rest =>
        if looksLikeSwitch value then none
        else (parseLeading known rest).bind (lead (found ++ [(name, value)]))
    | .escape | .unknown => none
where
  lead (found : List (String × String)) (later : Arguments × List String) :
      Option (Arguments × List String) :=
    (withSwitches found later.1).map fun a => (a, later.2)

end Arguments

end RouteControl.CommandLine
