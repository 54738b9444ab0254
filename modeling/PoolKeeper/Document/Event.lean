import PoolKeeper.Event
import PoolKeeper.Json.Codec

/-!
# Documents of events

An event is written as an object whose member `type` says which kind it is, among the fields of
that kind; or as an array that begins with the kind. All of an event is looked at before the kind
is known, so even members that no kind has must make sense.

* `Event.codec`, `Severity.codec`.
-/

namespace PoolKeeper

def Severity.codec : Codec Severity := .names text table

namespace Event

/-- A severity within an event: its name may also be the only member of an object that holds an
empty object. -/
def severity : Decoder Severity
  | _ + 1, .object [(some s, .object [])] => Severity.table.lookup s
  | depth, x => Severity.codec.decode depth x

/-- The kind of an event, and the tree of its fields. -/
def kind? : Node → Option (String × Node)
  | .object members =>
    match Decoder.membersNamed "type" members with
    | [.string (some kind)] => some (kind, .object (members.filter fun m => m.1 != some "type"))
    | _ => none
  | .array (.string (some kind) :: fields) => some (kind, .array fields)
  | _ => none

/-- The fields of an alert. -/
def alertFields : Decoder Event :=
  .record ["topic", "severity", "message", "at"] fun depth slots =>
    match slots with
    | [topic, severity, message, time] => do
      let topic ← topic.required .string depth
      let severity ← severity.required Event.severity depth
      let message ← message.required .string depth
      let time ← time.required .instant depth
      some (.alert topic severity message time)
    | _ => none

/-- The field of an event about machines. -/
def machineFields (build : List String → Event) : Decoder Event :=
  .record ["machines"] fun depth slots =>
    match slots with
    | [machines] => (machines.required (.list .string) depth).map build
    | _ => none

/-- The fields of a scheduled termination. -/
def scheduledFields : Decoder Event :=
  .record ["machine", "at"] fun depth slots =>
    match slots with
    | [machine, time] => do
      let machine ← machine.required .string depth
      let time ← time.required .instant depth
      some (.terminationScheduled machine time)
    | _ => none

/-- The fields of a changed size. -/
def sizeFields : Decoder Event :=
  .record ["from", "to"] fun depth slots =>
    match slots with
    | [before, after] => do
      let before ← before.optional .nat depth
      let after ← after.required .nat depth
      some (.desiredSizeChanged before after)
    | _ => none

/-- The fields of a changed state. -/
def stateFields : Decoder Event :=
  .record ["from", "to"] fun depth slots =>
    match slots with
    | [before, after] => do
      let before ← before.required .string depth
      let after ← after.required .string depth
      some (.controllerStateChanged before after)
    | _ => none

/-- The fields of each kind of event. -/
def fields? : String → Option (Decoder Event)
  | "Alert" => some alertFields
  | "MachinesStarted" => some (machineFields machinesStarted)
  | "MachinesTerminated" => some (machineFields machinesTerminated)
  | "TerminationScheduled" => some scheduledFields
  | "DesiredSizeChanged" => some sizeFields
  | "ControllerStateChanged" => some stateFields
  | _ => none

/-- Reads an event. -/
def decode : Decoder Event := fun depth x => do
  let _ ← x.json? depth
  let (kind, fields) ← kind? x
  let dec ← fields? kind
  dec depth fields

/-- A list of identifiers. -/
def idList (ids : List String) : Json := .array (ids.map .string)

def codec : Codec Event where
  encode
    | alert topic severity message time => .object [("at", Codec.instant.encode time),
        ("message", .string message), ("severity", Severity.codec.encode severity),
        ("topic", .string topic), ("type", .string "Alert")]
    | machinesStarted machines =>
      .object [("machines", idList machines), ("type", .string "MachinesStarted")]
    | machinesTerminated machines =>
      .object [("machines", idList machines), ("type", .string "MachinesTerminated")]
    | terminationScheduled machine time => .object [("at", Codec.instant.encode time),
        ("machine", .string machine), ("type", .string "TerminationScheduled")]
    | desiredSizeChanged before after => .object [("from", (before.map Json.nat).getD .null),
        ("to", .nat after), ("type", .string "DesiredSizeChanged")]
    | controllerStateChanged before after => .object [("from", .string before),
        ("to", .string after), ("type", .string "ControllerStateChanged")]
  decode

end Event

end PoolKeeper
