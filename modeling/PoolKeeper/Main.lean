import PoolKeeper.Document.Event
import PoolKeeper.Invocation
import PoolKeeper.Provider.Fleet
import PoolKeeper.Startup
import Std.Time

/-!
# The daemon

Reads the configuration and the saved state, starts a controller over simulated providers and
keeps it at work: events are printed, and what the controller saves is written to its directory.
-/

namespace PoolKeeper.Main

/-- The time of the clock. -/
def clock : IO Instant := do
  let t ← Std.Time.Timestamp.now
  return ⟨t.val.second.val, t.val.nano.val.toNat⟩

/-- The texts of those files that can be read. -/
def filesAt (paths : List Path) : IO FileTree :=
  paths.foldlM (fun tree path => do
    try return tree.set path (← IO.FS.readFile path.text) catch _ => return tree) ⟨[], []⟩

/-- The directory that the environment names, or one in the home of the user. -/
def userDir (name : String) (inHome : String) : IO (Option String) := do
  match ← IO.getEnv name with
  | some dir => return some dir
  | none => return (← IO.getEnv "HOME").map (· ++ "/" ++ inHome)

/-- Where the daemon looks. -/
def surroundings : IO Surroundings := do
  return {
    named := (← IO.getEnv "POOLWARDEN_CONFIG").map Path.ofText
    userConfig := (← userDir "XDG_CONFIG_HOME" ".config").map Path.ofText
    userData := ← userDir "XDG_DATA_HOME" ".local/share" }

/-- Prints an event: all of them as JSON, or the alerts in words. -/
def tell (json : Bool) (event : Event) : IO Unit := do
  if json then IO.println ((Event.codec.encode event).write Json.compact)
  else
    match event with
    | .alert topic severity message _ => IO.println s!"{severity.text} {topic}: {message}"
    | _ => return ()

/-- Writes the files that differ from what was written before. -/
def writeFiles (before after : FileTree) : IO Unit :=
  after.files.forM fun (path, text) => do
    if before.file? path != some text then
      IO.FS.createDirAll (Path.text path.dropLast)
      IO.FS.writeFile (path.text ++ ".tmp") text
      IO.FS.rename (path.text ++ ".tmp") path.text

/-- The most events that are kept between two looks at them. -/
def eventCapacity : Nat := 1024

/-- Milliseconds to sleep until a time, at most a minute. -/
def pause (now : Instant) (wake : Option Instant) : UInt32 :=
  match wake with
  | some time => (min 60000 ((time.since now).toNat / 1_000_000 + 1)).toUInt32
  | none => 60000

/-- Keeps a controller at work. -/
partial def attend (json : Bool) (written : FileTree) (s : Station Fleet) : IO Unit := do
  let (events, s) := s.takeEvents eventCapacity
  events.forM (tell json)
  (← IO.getStdout).flush
  try writeFiles written s.world.files catch e => IO.eprintln e.toString
  IO.sleep (pause (← clock) s.nextTime)
  let passed := (← clock).since s.world.now
  attend json s.world.files (s.advance Fleet.provider passed.toNat)

/-- Runs the daemon. -/
def run (i : Invocation) : IO UInt32 := do
  let around ← surroundings
  let explicit := i.config.map Path.ofText
  let places := explicit.toList ++ around.named.toList ++ DaemonConfig.usualPlaces around
  match DaemonConfig.resolve FileTree.system explicit around (← filesAt places) with
  | .error e =>
    IO.eprintln s!"Error: {e.message}"
    return 1
  | .ok (config, _) =>
    let store : Store := ⟨Path.ofText (i.storage.getD (config.settings.storage around))⟩
    let files ← filesAt [store.path Station.configFile, store.path Snapshot.file]
    let world : World Fleet := { now := ← clock, outside := Fleet.new false, files }
    match Station.startUp Fleet.provider config.pool (some store) world with
    | .error e =>
      IO.eprintln s!"Error: {e.message}"
      return 1
    | .ok s =>
      attend i.json files s
      return 0

end PoolKeeper.Main

/-- The command line of the daemon. -/
def main (args : List String) : IO UInt32 := do
  match PoolKeeper.Invocation.ofArgs args with
  | .error e =>
    IO.eprintln s!"error: {e.message}"
    IO.eprintln PoolKeeper.Invocation.usage
    return 2
  | .ok i =>
    if i.help then
      IO.println PoolKeeper.Invocation.usage
      return 0
    else PoolKeeper.Main.run i
