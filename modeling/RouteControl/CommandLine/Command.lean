import RouteControl.CommandLine.Arguments
import RouteControl.Listener.Subscription
import RouteControl.Request.Rule
import RouteControl.Request.SourceRoute

/-!
# Commands

What can be asked on the command line, and how it is spelled: a word or two, and arguments behind
them.  A command that is not spelled right in every part, names, values and number of operands, is
no command.  Some switches may be known everywhere (`spelled?`), in front of each word and among the
arguments; what is given of them in each of these places is kept apart.
-/

namespace RouteControl

inductive Command where
  | addAddress (device : InterfaceRef) (address : Prefix)
  | deleteAddress (device : InterfaceRef) (address : Prefix)
  | addSourceRoute (route : SourceRoute)
  | deleteSourceRoute (route : SourceRoute)
  | getRoute (destination : Address) (length : Option UInt8) (wanted : Option Address)
  | addRule (rule : Rule)
  | deleteRule (rule : Rule)
  | showLinks
  | showAddresses
  | monitor (subscription : Subscription) (timestamps : Bool)
  deriving DecidableEq, Repr

namespace CommandLine

def word? (text : String) : Option UInt32 :=
  (Decimal.signed? (UInt32.size - 1) text).map UInt32.ofNat

def byte? (text : String) : Option UInt8 := (Decimal.signed? 255 text).map UInt8.ofNat

def network? (text : String) : Option Prefix := (Prefix.parse text).toOption

namespace Arguments

def operand? (a : Arguments) : Option String :=
  match a.operands with
  | [operand] => some operand
  | _ => none

def required? {α : Type} (a : Arguments) (name : String) (read : String → Option α) : Option α :=
  (a.value? name).bind read

/-- The value of a switch that may be left out; none where it is given but cannot be read. -/
def optional? {α : Type} (a : Arguments) (name : String) (read : String → Option α) :
    Option (Option α) :=
  match a.value? name with
  | some text => (read text).map some
  | none => some none

end Arguments

/-- What is behind the words of a command: the switches that it knows of its own, and what its
arguments say. -/
structure Form where
  switches : List Switch
  command? : Arguments → Option Command

def deviceSwitch : Switch := { name := "dev", letter := some 'd' }

def tableSwitch : Switch := { name := "table", letter := some 't' }

def addressArguments? (a : Arguments) : Option (InterfaceRef × Prefix) := do
  let address ← a.operand?.bind network?
  let device ← a.value? "dev"
  return (.ofArgument device, address)

def addressForm (command : InterfaceRef → Prefix → Command) : Form where
  switches := [deviceSwitch]
  command? a := (addressArguments? a).map fun (device, address) => command device address

def sourceRoute? (a : Arguments) : Option SourceRoute := do
  let destination ← a.operand?.bind network?
  let source ← a.required? "src" Address.parse?
  let gateway ← a.optional? "via" Address.parse?
  let table ← a.optional? "table" word?
  let mtu ← a.optional? "mtu" word?
  let advertisedMss ← a.optional? "advmss" word?
  return {
    destination
    source
    gateway
    device := (a.value? "dev").map .ofArgument
    table := table.getD Table.main
    metrics := { mtu, advertisedMss }
    exclusive := a.has "exclusive" }

def sourceRouteForm (more : List Switch) (command : SourceRoute → Command) : Form where
  switches := more ++ [{ name := "src", letter := some 's' }, { name := "via" }, deviceSwitch,
    tableSwitch, { name := "mtu" }, { name := "advmss" }]
  command? a := (sourceRoute? a).map command

def getRoute? (a : Arguments) : Option Command := do
  let destination ← a.operand?.bind Address.parse?
  let length ← a.optional? "prefix" byte?
  let wanted ← a.optional? "from" Address.parse?
  return .getRoute destination length wanted

def rule? (a : Arguments) : Option Rule := do
  let table ← a.required? "table" word?
  let priority ← a.optional? "priority" word?
  if a.operands.isEmpty then
    return {
      family := if a.has "6" then .inet6 else .inet
      table
      priority := priority.getD 0 }
  else none

def ruleForm (command : Rule → Command) : Form where
  switches := [tableSwitch, { name := "priority" },
    { name := "6", isWord := false, letter := some '6', takesValue := false }]
  command? a := (rule? a).map command

def bareForm (command : Command) : Form where
  switches := []
  command? a := if a.operands.isEmpty then some command else none

def watchable : List String := ["link", "address", "route", "all"]

def monitor? (a : Arguments) : Option Command :=
  let named := if a.operands.isEmpty then ["all"] else a.operands
  let wants := fun subject => named.contains subject || named.contains "all"
  if named.all watchable.contains then
    let subscription := Subscription.nothing.withLinks (wants "link")
      |>.withAddresses (wants "address") |>.withRoutes (wants "route")
    some (.monitor subscription (a.has "timestamp"))
  else none

/-- What may stand for each of the spellings of a word. -/
abbrev Words (α : Type) := List (List String × α)

/-- What a first word stands for: a command, or what a second word stands for. -/
inductive Entry where
  | form (f : Form)
  | words (forms : Words Form)

def commands : Words Entry :=
  [(["addr", "a", "address"], .words
      [(["add"], addressForm .addAddress), (["del"], addressForm .deleteAddress)]),
    (["route", "r"], .words
      [(["add"], sourceRouteForm [{ name := "exclusive", takesValue := false }] .addSourceRoute),
        (["del"], sourceRouteForm [] .deleteSourceRoute),
        (["get"], ⟨[{ name := "prefix" }, { name := "from" }], getRoute?⟩)]),
    (["rule", "ru"], .words
      [(["add"], ruleForm .addRule), (["del"], ruleForm .deleteRule)]),
    (["show", "s"], .words
      [(["links"], bareForm .showLinks), (["addrs"], bareForm .showAddresses)]),
    (["monitor", "m", "mon"], .form
      ⟨[{ name := "timestamp", letter := some 't', takesValue := false }], monitor?⟩)]

section

variable (everywhere : List Switch)

def Form.read? (form : Form) (arguments : List String) :
    Option (List Arguments × Command) := do
  let a ← Arguments.parse (everywhere ++ form.switches) arguments
  let command ← form.command? a
  return ([a], command)

/-- Reads a word, with what is in front of it, and goes on with what the word stands for. -/
def Words.read? {α : Type} (words : Words α)
    (next : α → List String → Option (List Arguments × Command)) (arguments : List String) :
    Option (List Arguments × Command) := do
  let (front, rest) ← Arguments.parseLeading everywhere arguments
  match rest with
  | [] => none
  | word :: rest =>
    let entry ← words.find? fun entry => entry.1.contains word
    let (behind, command) ← next entry.2 rest
    return (front :: behind, command)

def Entry.read? : Entry → List String → Option (List Arguments × Command)
  | form f => f.read? everywhere
  | words forms => forms.read? everywhere (Form.read? everywhere)

/-- The command that a list of arguments spells, and what is given in front of each word and behind
the last one, where some switches are known everywhere. -/
def spelled? (arguments : List String) : Option (List Arguments × Command) :=
  commands.read? everywhere (Entry.read? everywhere) arguments

end

/-- The command that a list of arguments spells, where no switches are known but its own. -/
def parse? (arguments : List String) : Option Command :=
  (spelled? [] arguments).map fun (_, command) => command

end CommandLine

end RouteControl
