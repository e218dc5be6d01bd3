import RouteControl.CommandLine.Command
import RouteControl.Connection.Settings
import RouteControl.Report

/-!
# Invocations

A command with what is set for it: the format of reports, how long to wait for the kernel and how
often to ask a busy one, and whether to tell what was sent.  All this may be set in front of each
word of the command and among its arguments, once in each place; what is set last counts.
-/

namespace RouteControl

structure Invocation where
  format : Format
  settings : Settings
  verbose : Bool
  command : Command

namespace CommandLine

/-- What is set in one place. -/
structure Preferences where
  json : Bool := false
  pretty : Bool := false
  verbose : Bool := false
  timeout : Option Duration := none
  transmissions : Option UInt32 := none

def preferenceSwitches : List Switch :=
  [{ name := "json", letter := some 'j', takesValue := false },
    { name := "pretty", letter := some 'p', takesValue := false },
    { name := "timeout" }, { name := "retries" },
    { name := "verbose", letter := some 'v', takesValue := false }]

def milliseconds? (text : String) : Option Duration :=
  (Decimal.unsigned? (UInt64.size - 1) text).map .ofMilliseconds

def preferences? (a : Arguments) : Option Preferences := do
  let timeout ← a.optional? "timeout" milliseconds?
  let transmissions ← a.optional? "retries" word?
  return {
    json := a.has "json"
    pretty := a.has "pretty"
    verbose := a.has "verbose"
    timeout
    transmissions }

namespace Preferences

def followedBy (front behind : Preferences) : Preferences where
  json := front.json || behind.json
  pretty := front.pretty || behind.pretty
  verbose := front.verbose || behind.verbose
  timeout := behind.timeout <|> front.timeout
  transmissions := behind.transmissions <|> front.transmissions

def settings (p : Preferences) : Settings :=
  let s : Settings := default
  (s.withTimeout (p.timeout.getD s.timeout)).withTransmissions
    ((p.transmissions.map UInt32.toNat).getD s.transmissions)

end Preferences

/-- The command that a list of arguments spells, with what is set for it. -/
def invocation? (arguments : List String) : Option Invocation := do
  let (places, command) ← spelled? preferenceSwitches arguments
  let p := (← places.mapM preferences?).foldl Preferences.followedBy {}
  return {
    format := .ofFlags p.json p.pretty
    settings := p.settings
    verbose := p.verbose
    command }

end CommandLine

end RouteControl
