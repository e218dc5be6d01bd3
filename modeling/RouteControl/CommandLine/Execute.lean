import RouteControl.CommandLine.Command
import RouteControl.Connection.Change
import RouteControl.Connection.Enumeration
import RouteControl.Connection.Lookup
import RouteControl.Listener.Stream
import RouteControl.Report

/-!
# Running commands

What a command does and writes.  A command that fails writes nothing.
-/

namespace RouteControl.CommandLine

open Connection

/-- The result of a call, or none where it fails; what it did stays done. -/
def attempt {α : Type} (call : Call α) : Call (Option α) := fun c =>
  match call c with
  | .ok a c => .ok (some a) c
  | .error _ c => .ok none c

/-- How a destination is reached.  A failure to find the source address leaves it open; the other
two questions have to be answered. -/
def answerRoute (destination : Address) (length : Option UInt8) (wanted : Option Address) :
    Call RouteAnswer := do
  let r ← route ⟨target destination length, wanted⟩
  let source ← attempt (sourceAddress destination wanted)
  let hop ← nextHop destination length wanted
  return ⟨r, source, hop⟩

/-- All addresses, each with the name of its interface, or the number where no link has a name for
it. -/
def labelledAddresses : Call (List LabelledAddress) := do
  let names ← linkNames
  let records ← addresses
  return records.map fun record =>
    ⟨record, (names.lookup record.index).getD (toString record.index)⟩

def monitorBackoff : Duration := .ofSeconds 1

def timestamp (now : Duration) : String :=
  let fraction := String.ofList (Decimal.filled 3 (now.milliseconds % 1000))
  s!"[{now.milliseconds / 1000}.{fraction}] "

def eventLines (format : Format) (timestamps : Bool) (taken : List (Duration × Event)) : String :=
  String.join (taken.map fun (now, e) =>
    (if timestamps then timestamp now else "") ++ Report.one format e)

/-- Writes down the events that come before nothing more comes. -/
def watch (format : Format) (timestamps : Bool) : Call String := fun c =>
  let left := Listener.start (Listener.Stream.run monitorBackoff none) {} c.kernel.replies
  .ok (eventLines format timestamps left.state.taken) (c.withReplies left.replies)

def execute (format : Format) : Command → Call String
  | .addAddress device address => do
    addAddress device address
    return ""
  | .deleteAddress device address => do
    deleteAddress device address
    return ""
  | .addSourceRoute r => do
    addSourceRoute r
    return ""
  | .deleteSourceRoute r => do
    deleteSourceRoute r
    return ""
  | .getRoute destination length wanted => do
    return Report.one format (← answerRoute destination length wanted)
  | .addRule r => do
    addRule r
    return ""
  | .deleteRule r => do
    deleteRule r
    return ""
  | .showLinks => do
    return Report.all format (← links)
  | .showAddresses => do
    return Report.all format (← labelledAddresses)
  | .monitor _ timestamps => watch format timestamps

end RouteControl.CommandLine
