/-!
# Command lines

* `Invocation`, `Invocation.usage`: what a command line can ask for;
* `Invocation.ofArgs`: what one asks for;
* `UsageError`, `UsageError.message`: what is wrong with one.
-/

namespace PoolKeeper

/-- What a command line asks for. -/
structure Invocation where
  /-- The configuration file to use. -/
  config : Option String := none
  /-- The directory for state, in place of the configured one. -/
  storage : Option String := none
  /-- Events are told as JSON. -/
  json : Bool := false
  /-- Nothing but the usage is asked for. -/
  help : Bool := false
deriving DecidableEq, Repr

/-- What is wrong with a command line. -/
inductive UsageError where
  | unknown (arg : String)
  | repeated (name : String)
  | noValue (name : String)
  | needlessValue (name : String)
deriving DecidableEq, Repr

namespace UsageError

def message : UsageError → String
  | unknown arg => s!"unexpected argument '{arg}' found"
  | repeated name => s!"the argument '{name}' cannot be used multiple times"
  | noValue name => s!"a value is required for '{name}' but none was supplied"
  | needlessValue name => s!"'{name}' takes no value"

end UsageError

namespace Invocation

/-- What a command line can ask for. -/
def usage : String := "Usage: poolwarden [-c|--config FILE] [--storage-dir DIR] [--json-logs]"

/-- An argument as the name of an option, and the value in one piece with it. -/
def split (arg : String) : String × Option String :=
  match arg.toList with
  | '-' :: '-' :: cs =>
    let name := cs.takeWhile (· != '=')
    ("--" ++ String.ofList name, (cs.drop name.length).tail?.map String.ofList)
  | ['-', 'c'] => ("--config", none)
  | '-' :: 'c' :: '=' :: cs => ("--config", some (String.ofList cs))
  | '-' :: 'c' :: cs => ("--config", some (String.ofList cs))
  | ['-', 'h'] => ("--help", none)
  | _ => (arg, none)

/-- Sets an option that has a value, once. -/
def set (i : Invocation) (name value : String) : Except UsageError Invocation :=
  match name, i.config, i.storage with
  | "--config", none, _ => .ok { i with config := some value }
  | "--storage-dir", _, none => .ok { i with storage := some value }
  | name, _, _ => .error (.repeated name)

/-- Sets an option that has no value, once. -/
def turnOn (i : Invocation) (name : String) : Except UsageError Invocation :=
  match name, i.json with
  | "--json-logs", false => .ok { i with json := true }
  | "--json-logs", true => .error (.repeated name)
  | "--help", _ => .ok { i with help := true }
  | name, _ => .error (.unknown name)

/-- The option has a value. -/
def hasValue (name : String) : Bool := name == "--config" || name == "--storage-dir"

/-- What the remaining arguments add. -/
def read (i : Invocation) : List String → Except UsageError Invocation
  | [] => .ok i
  | [arg] =>
    match split arg with
    | (name, none) => if hasValue name then .error (.noValue name) else i.turnOn name
    | (name, some value) =>
      if hasValue name then i.set name value
      else (i.turnOn name).bind fun _ => .error (.needlessValue name)
  | arg :: next :: rest =>
    match split arg with
    | (name, none) =>
      if hasValue name then (i.set name next).bind fun i => i.read rest
      else (i.turnOn name).bind fun i => i.read (next :: rest)
    | (name, some value) =>
      if hasValue name then (i.set name value).bind fun i => i.read (next :: rest)
      else (i.turnOn name).bind fun _ => .error (.needlessValue name)

/-- What a command line asks for. -/
def ofArgs (args : List String) : Except UsageError Invocation := read {} args

end Invocation

end PoolKeeper
