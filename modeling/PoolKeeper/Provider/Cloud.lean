import PoolKeeper.Provider.Basic
import PoolKeeper.Provider.Settings

/-!
# A simulated provider

A provider in memory that behaves like a small cloud: machines boot for a while, a quota caps the
pool, and failures of list and terminate calls can be arranged.

* `Cloud`: what the provider knows;
* `Cloud.configure`, `list`, `start`, `terminate`, `attach`, `detach`, `setService`,
  `setMembership`: its calls;
* `Cloud.boot`: machines that have booted run; it breaks down when a time is out of range.
-/

namespace PoolKeeper

/-- What the simulated provider knows. -/
structure Cloud where
  /-- The name of the pool, once configured. -/
  poolName : Option String := none
  settings : CloudSettings := {}
  /-- The machines of the pool. -/
  machines : IdMap Machine := .empty
  /-- The machines outside the pool. -/
  unmanaged : IdMap Machine := .empty
  /-- How many machines were ever launched. -/
  launches : Nat := 0
  /-- How many list calls are still to fail. -/
  listFailures : Nat := 0
  /-- How many terminate calls are still to fail. -/
  terminateFailures : Nat := 0
  /-- How many list calls there were. -/
  listCalls : Nat := 0

namespace Cloud

instance : Inhabited Cloud := ⟨{}⟩

/-- The identifier of a pool's machine with a number. -/
def machineId (poolName : String) (n : Nat) : String := poolName ++ "-" ++ padded 4 n

/-- The next machine to be launched. -/
def nextMachine (c : Cloud) (state : MachineState) (now : Instant) : Machine :=
  { id := machineId (c.poolName.getD "sim") (c.launches + 1), state, launched := some now }

/-- Puts a newly launched machine into the pool. -/
def launch (c : Cloud) (m : Machine) : Cloud :=
  { c with launches := c.launches + 1, machines := c.machines.insert m.id m }

/-- The number of machines that hold capacity. -/
def allocatedCount (c : Cloud) : Nat := (c.machines.values.filter Machine.isAllocated).length

/-- Launches running machines. -/
def populate (now : Instant) : Nat → Cloud → Cloud
  | 0, c => c
  | n + 1, c => populate now n (c.launch (c.nextMachine .running now))

/-- Applies settings. Only the first configuration creates machines. -/
def configure (poolName : String) (settings : Json) (now : Instant) (c : Cloud) :
    Except DriverError Unit × Cloud :=
  match CloudSettings.ofJson settings with
  | .error e => (.error (.invalidConfiguration e.message), c)
  | .ok settings =>
    let named := { c with poolName := some poolName }
    let populated :=
      if c.poolName.isNone then populate now settings.initialMachines named else named
    (.ok (), { populated with settings })

/-- The seconds that a boot may take: more than a signed word of milliseconds cannot be told. -/
def longestBoot : Nat := 0x7FFF_FFFF_FFFF_FFFF / 1000

/-- A machine at a time: one that has booted runs. Nothing if the end of its boot lies past the
end of time. -/
def bootMachine (bootSeconds : Nat) (now : Instant) (m : Machine) : Option Machine :=
  match m.state, m.launched with
  | .pending, some launched =>
    let ready := launched.addSeconds bootSeconds
    if Instant.endOfTime ≤ ready then none
    else some (if ready ≤ now then { m with state := .running } else m)
  | _, _ => some m

/-- The first machine, by identifier, whose boot cannot be told. -/
def firstBroken? (c : Cloud) (now : Instant) : Option String :=
  (c.machines.entries.find? fun e => (bootMachine c.settings.bootSeconds now e.2).isNone).map
    Prod.fst

/-- Lets time pass for the machines of the pool, one after the other, and tells whether that broke
down before the last one. -/
def boot (c : Cloud) (now : Instant) : Cloud × Bool :=
  if longestBoot < c.settings.bootSeconds then (c, true)
  else
    let booted (m : Machine) : Machine := (bootMachine c.settings.bootSeconds now m).getD m
    match c.firstBroken? now with
    | none => ({ c with machines := c.machines.map fun _ m => booted m }, false)
    | some broken =>
      ({ c with machines := c.machines.map fun id m => if id < broken then booted m else m }, true)

/-- Lists the machines of the pool. -/
def list (now : Instant) (c : Cloud) : Listing × Cloud :=
  let c := { c with listCalls := c.listCalls + 1 }
  if c.poolName.isNone then (.error (.refused .notConfigured), c)
  else if 0 < c.listFailures then
    (.error (.refused (.unavailable "simulated outage")),
      { c with listFailures := c.listFailures - 1 })
  else
    let (c, broken) := c.boot now
    (if broken then .error .crashed else .ok c.machines.values, c)

/-- The quota is used up. -/
def isFull (c : Cloud) : Bool :=
  match c.settings.quota with
  | some quota => quota ≤ c.allocatedCount
  | none => false

/-- Launches machines one by one until the quota is used up: those launched, and how many were
not. -/
def launchUpTo (now : Instant) : Nat → Cloud → List Machine × Nat × Cloud
  | 0, c => ([], 0, c)
  | n + 1, c =>
    if c.isFull then ([], n + 1, c)
    else
      let m := c.nextMachine .pending now
      let (rest, left, c) := launchUpTo now n (c.launch m)
      (m :: rest, left, c)

/-- The most machines that a start has room for: the record of one takes 72 bytes, and all of them
are counted in a signed word. -/
def largestStart : Nat := 0x7FFF_FFFF_FFFF_FFFF / 72

/-- Starts a number of machines. Room is made for all of them first, whatever the quota leaves. -/
def start (count : Nat) (now : Instant) (c : Cloud) : Starting × Cloud :=
  if c.poolName.isNone then (.error (.refused (.beforeAny count .notConfigured)), c)
  else if largestStart < count then (.error .crashed, c)
  else
    let (started, left, c) := launchUpTo now count c
    if left = 0 then (.ok started, c)
    else
      let quota := c.settings.quota.getD 0
      let cause := .capacityExceeded s!"quota of {quota} machines reached"
      (.error (.refused ⟨count, started, cause⟩), c)

/-- The same failure for every machine. -/
def allFail (ids : List String) (e : DriverError) : TerminateError :=
  ⟨[], .ofList (ids.map fun id => (id, e))⟩

/-- A machine that is no more. -/
def terminated (m : Machine) : Machine := { m with state := .terminated }

/-- Terminates machines. -/
def terminate (ids : List String) (c : Cloud) : Except TerminateError Unit × Cloud :=
  if c.poolName.isNone then (.error (allFail ids .notConfigured), c)
  else if 0 < c.terminateFailures then
    (.error (allFail ids (.unavailable "simulated outage")),
      { c with terminateFailures := c.terminateFailures - 1 })
  else
    let known := ids.filter c.machines.contains
    let unknown := ids.filter fun id => !c.machines.contains id
    let machines := known.foldl (fun machines id => machines.modify id terminated) c.machines
    (if unknown.isEmpty then .ok ()
      else .error ⟨known, .ofList (unknown.map fun id => (id, .machineNotFound id))⟩,
      { c with machines })

/-- Takes a machine into the pool. -/
def attach (id : String) (c : Cloud) : Except DriverError Unit × Cloud :=
  if c.poolName.isNone then (.error .notConfigured, c)
  else
    match c.unmanaged.get? id with
    | none => (.error (.machineNotFound id), c)
    | some m =>
      (.ok (), { c with unmanaged := c.unmanaged.erase id, machines := c.machines.insert id m })

/-- Takes a machine out of the pool. -/
def detach (id : String) (c : Cloud) : Except DriverError Unit × Cloud :=
  if c.poolName.isNone then (.error .notConfigured, c)
  else
    match c.machines.get? id with
    | none => (.error (.machineNotFound id), c)
    | some m =>
      (.ok (), { c with machines := c.machines.erase id, unmanaged := c.unmanaged.insert id m })

/-- Changes a machine of the pool. -/
def change (id : String) (f : Machine → Machine) (c : Cloud) : Except DriverError Unit × Cloud :=
  if c.poolName.isNone then (.error .notConfigured, c)
  else if c.machines.contains id then (.ok (), { c with machines := c.machines.modify id f })
  else (.error (.machineNotFound id), c)

def setService (id : String) (service : ServiceState) : Cloud → Except DriverError Unit × Cloud :=
  change id fun m => { m with service }

def setMembership (id : String) (membership : Membership) :
    Cloud → Except DriverError Unit × Cloud :=
  change id fun m => { m with membership }

/-- Makes a machine known that is not in the pool. -/
def addUnmanaged (m : Machine) (c : Cloud) : Cloud :=
  { c with unmanaged := c.unmanaged.insert m.id m }

/-- The kind of driver that this provider has. -/
def kind : String := "simulated"

end Cloud

end PoolKeeper
