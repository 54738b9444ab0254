import PoolKeeper.Json.Decoder
import PoolKeeper.Text.Quoted

/-!
# Settings of the simulated provider

* `CloudSettings`: a quota, the time that a machine takes to boot, the machines to begin with;
* `SettingsError`, `SettingsError.message`: what is wrong with settings;
* `CloudSettings.ofJson`: the settings of a configuration, or what is wrong with them first;
* `CloudSettings.decoder`: the settings of a text.
-/

namespace PoolKeeper

/-- Settings of the simulated provider. -/
structure CloudSettings where
  /-- The most machines that may hold capacity. -/
  quota : Option Nat := none
  /-- Seconds from launch until a machine runs. -/
  bootSeconds : Nat := 0
  /-- Running machines that are there from the first configuration on. -/
  initialMachines : Nat := 0
deriving DecidableEq, Repr

/-- What is wrong with settings. -/
inductive SettingsError where
  | unknownField (name : String)
  /-- A value of another type than the expected one. -/
  | wrongType (found : Json) (expected : String)
  /-- A negative number where none can be. -/
  | negative (n : Int) (expected : String)
  /-- More values in a row than there are settings. -/
  | tooMany (count : Nat)
deriving Repr

namespace SettingsError

/-- A value in words. -/
def describe : Json → String
  | .null => "null"
  | .bool b => s!"boolean `{b}`"
  | .number (.whole n) => s!"integer `{n}`"
  | .number (.real x) => s!"floating point `{x.text}`"
  | .string s => "string " ++ Text.quoted s
  | .array _ => "sequence"
  | .object _ => "map"

def message : SettingsError → String
  | unknownField name =>
    s!"unknown field `{name}`, expected one of `quota`, `boot_secs`, `initial_machines`"
  | wrongType found expected => s!"invalid type: {describe found}, expected {expected}"
  | negative n expected => s!"invalid value: integer `{n}`, expected {expected}"
  | tooMany count => s!"invalid length {count}, expected fewer elements in array"

end SettingsError

namespace CloudSettings

/-- A count, or what is wrong with it. -/
def count (expected : String) : Json → Except SettingsError Nat
  | .number (.whole n) => if 0 ≤ n then .ok n.toNat else .error (.negative n expected)
  | x => .error (.wrongType x expected)

/-- A quota is a count or null. -/
def quotaOf : Json → Except SettingsError (Option Nat)
  | .null => .ok none
  | x => (count "usize" x).map some

/-- The settings with one of them set by name. -/
def set (s : CloudSettings) (name : String) (x : Json) : Except SettingsError CloudSettings :=
  match name with
  | "quota" => (quotaOf x).map fun quota => { s with quota }
  | "boot_secs" => (count "u64" x).map fun bootSeconds => { s with bootSeconds }
  | "initial_machines" => (count "usize" x).map fun initialMachines => { s with initialMachines }
  | _ => .error (.unknownField name)

/-- The settings with some of them set by name, one after the other. -/
def setAll (s : CloudSettings) : List (String × Json) → Except SettingsError CloudSettings
  | [] => .ok s
  | (name, x) :: rest => do setAll (← s.set name x) rest

/-- The names of the settings, in the order of a list of their values. -/
def names : List String := ["quota", "boot_secs", "initial_machines"]

/-- The settings of a configuration: by name or in a row; null sets nothing. -/
def ofJson : Json → Except SettingsError CloudSettings
  | .null => .ok {}
  | .object members => setAll {} members
  | .array items => do
    let s ← setAll {} (names.zip items)
    if items.length ≤ 3 then .ok s else .error (.tooMany items.length)
  | x => .error (.wrongType x "struct SimulatedSettings")

/-- No name occurs twice among members. -/
def noneTwice (members : List (Option String × Node)) : Bool :=
  members.all fun m => (members.filter fun n => n.1 == m.1).length == 1

/-- The settings of a text: an object without repeated members, or an array. -/
def decoder : Decoder CloudSettings := fun depth x =>
  let written := match x with
    | .object members => noneTwice members
    | .array _ => true
    | _ => false
  if written then (x.json? depth).bind fun json => (ofJson json).toOption else none

end CloudSettings

end PoolKeeper
