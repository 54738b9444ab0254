import PoolKeeper.Provider.Cloud

/-!
# Drivers of simulated providers

Drivers are made for a configuration by its kind; only simulated ones can be made.

* `Fleet`: simulated providers, and whether each configuration gets one of its own;
* `Fleet.provider`: the calls to them.
-/

namespace PoolKeeper

/-- Simulated providers. -/
structure Fleet where
  clouds : List Cloud
  /-- Every configuration after the first gets a provider of its own. -/
  fresh : Bool
  /-- A driver has been made. -/
  used : Bool

namespace Fleet

/-- One simulated provider that knows nothing. -/
def new (fresh : Bool) : Fleet := ⟨[{}], fresh, false⟩

instance : Inhabited Fleet := ⟨new false⟩

/-- The driver of the newest provider. -/
def newest (f : Fleet) : DriverId := f.clouds.length - 1

/-- A further provider. -/
def add (f : Fleet) : Fleet := { f with clouds := f.clouds ++ [{}] }

/-- Makes a driver of a kind. -/
def create (config : DriverConfig) (f : Fleet) : Except ControllerError DriverId × Fleet :=
  if config.kind = Cloud.kind then
    let f := if f.fresh ∧ f.used then f.add else f
    (.ok f.newest, { f with used := true })
  else (.error (.invalidConfiguration s!"unsupported driver kind: {config.kind}"), f)

/-- A call to the provider of one driver. -/
def call {α : Type} (d : DriverId) (act : Cloud → α × Cloud) (f : Fleet) : α × Fleet :=
  let (answer, cloud) := act (f.clouds.getD d {})
  (answer, { f with clouds := f.clouds.set d cloud })

/-- The calls to drivers of simulated providers. -/
def provider : Provider Fleet where
  create := create
  configure d name config now := call d (Cloud.configure name config.settings now)
  list d now := call d (Cloud.list now)
  start d count now := call d (Cloud.start count now)
  terminate d ids _ := call d (Cloud.terminate ids)
  attach d id _ := call d (Cloud.attach id)
  detach d id _ := call d (Cloud.detach id)
  setService d id service _ := call d (Cloud.setService id service)
  setMembership d id membership _ := call d (Cloud.setMembership id membership)

end Fleet

end PoolKeeper
