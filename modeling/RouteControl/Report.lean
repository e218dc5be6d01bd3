import RouteControl.Event
import RouteControl.Json

/-!
# Reports

Records, look-ups and events for people and for programs: a line of text, or a JSON value.
-/

namespace RouteControl

inductive Format where
  | text
  | json (layout : Json.Layout)

namespace Format

/-- The format for these wishes; the layout matters to JSON only. -/
def ofFlags (json pretty : Bool) : Format := if json then .json ⟨pretty⟩ else .text

end Format

/-- What can be reported. -/
class Report (α : Type) where
  line : α → String
  json : α → Json

namespace Report

variable {α : Type} [Report α]

def one (format : Format) (a : α) : String :=
  match format with
  | .text => line a ++ "\n"
  | .json layout => (json a).render layout ++ "\n"

/-- The report on a list: a line for each entry, or one JSON list. -/
def all (format : Format) (as : List α) : String :=
  match format with
  | .text => String.join (as.map fun a => line a ++ "\n")
  | .json layout => (Json.list (as.map json)).render layout ++ "\n"

end Report

def LinkFlags.names : List (UInt32 × String) :=
  [(loopback, "LOOPBACK"), (up, "UP"), (running, "RUNNING"), (lowerUp, "LOWER_UP")]

def LinkFlags.text (flags : UInt32) : String :=
  let set := names.filter fun (flag, _) => flags &&& flag ≠ 0
  "<" ++ ",".intercalate (set.map Prod.snd) ++ ">"

def detail (word : String) : Option String → String
  | some text => s!" {word} {text}"
  | none => ""

def Address.versionWord (a : Address) : String := if a.isV4 then "inet" else "inet6"

namespace Address

def json (a : Address) : Json := .text a.text

end Address

namespace Link

def line (l : Link) : String :=
  let name := l.nameOr "?"
  s!"{l.index}: {name}: {LinkFlags.text l.flags}"

def json (l : Link) : Json :=
  .object [("index", .number l.index.toNat), ("name", .ofOption .text l.name),
    ("flags", .number l.flags.toNat)]

instance : Report Link := ⟨line, json⟩

end Link

namespace InterfaceAddress

def entries (a : InterfaceAddress) : List (String × Json) :=
  [("index", .number a.index.toNat), ("family", .number a.family.toNat),
    ("prefix_len", .number a.prefixLength.toNat), ("local", .ofOption Address.json a.hostAddress),
    ("address", .ofOption Address.json a.address)]

def json (a : InterfaceAddress) : Json := .object a.entries

def addressText (a : InterfaceAddress) (primary : Address) : String :=
  s!"{primary.versionWord} {primary.text}/{a.prefixLength}"

end InterfaceAddress

structure LabelledAddress where
  record : InterfaceAddress
  label : String
  deriving Repr

namespace LabelledAddress

def line (a : LabelledAddress) : String :=
  let what :=
    match a.record.primary with
    | some primary => a.record.addressText primary
    | none => s!"family {a.record.family}"
  s!"{a.record.index}: {a.label} {what}"

def json (a : LabelledAddress) : Json :=
  .object (a.record.entries ++ [("dev", .text a.label)])

instance : Report LabelledAddress := ⟨line, json⟩

end LabelledAddress

namespace Route

def json (r : Route) : Json :=
  .object [("family", .number r.family.toNat), ("destination", r.destination.json),
    ("prefix_len", .number r.prefixLength.toNat), ("gateway", .ofOption Address.json r.gateway),
    ("prefsrc", .ofOption Address.json r.preferredSource),
    ("oif", .ofOption (fun i : UInt32 => .number i.toNat) r.outputInterface),
    ("table", .number r.table.toNat), ("priority", .number r.priority.toNat),
    ("route_type", .number r.type.toNat), ("protocol", .number r.protocol.toNat),
    ("scope", .number r.scope.toNat)]

def wayText (r : Route) : String :=
  r.destinationText ++ detail "via" (r.gateway.map Address.text) ++
    detail "dev" (r.outputInterface.map toString)

def line (r : Route) : String :=
  r.wayText ++ detail "src" (r.preferredSource.map Address.text) ++ s!" table {r.table}"

end Route

structure RouteAnswer where
  route : Route
  source : Option Address
  nextHop : Address
  deriving DecidableEq, Repr

namespace RouteAnswer

def line (a : RouteAnswer) : String :=
  let priority := if a.route.priority = 0 then none else some (toString a.route.priority)
  a.route.wayText ++ detail "src" (a.source.map Address.text) ++ s!" table {a.route.table}" ++
    detail "metric" priority ++ s!" nexthop {a.nextHop.text}"

def json (a : RouteAnswer) : Json :=
  .object [("route", a.route.json), ("source", .ofOption Address.json a.source),
    ("next_hop", a.nextHop.json)]

instance : Report RouteAnswer := ⟨line, json⟩

end RouteAnswer

namespace Event

def line (e : Event) : String :=
  let gone := if e.isAdded then "" else "Deleted "
  match e.subject with
  | .link l => gone ++ l.line
  | .address a =>
    let what :=
      match a.primary with
      | some primary => a.addressText primary
      | none => "address"
    s!"{gone}{a.index}: {what}"
  | .route r => gone ++ r.line

def recordJson (e : Event) : Json :=
  match e.subject with
  | .link l => l.json
  | .address a => a.json
  | .route r => r.json

def json (e : Event) : Json := .object [("event", .text e.name), ("record", e.recordJson)]

instance : Report Event := ⟨line, json⟩

end Event

end RouteControl
