import PoolKeeper.Document.Config
import PoolKeeper.Storage.FileTree
import PoolKeeper.Toml.Document

/-!
# Configuration of the daemon

The daemon reads a configuration file: the one it is given, the one that the environment names, or
the first of some usual places. Without a file it uses its defaults.

* `DaemonSettings`, `DaemonConfig`, `DaemonConfig.decoder`: the configuration;
* `Surroundings`: where the daemon looks;
* `DaemonConfig.load`, `DaemonConfig.resolve`: the configuration of a file, and of the file found;
* `DaemonSettings.storage`: the directory for state;
* `LoadError`, `LoadError.message`: why a file gives no configuration.
-/

namespace PoolKeeper

/-- Settings of the daemon itself. -/
structure DaemonSettings where
  /-- The directory for state. -/
  storageDir : Option String := none
  logLevel : String := "info"
deriving DecidableEq, Repr

/-- The configuration of the daemon. -/
structure DaemonConfig where
  settings : DaemonSettings := {}
  /-- The pool to look after; without it, the one that was saved. -/
  pool : Option PoolConfig := none
deriving Repr

/-- Where the daemon looks for its files. -/
structure Surroundings where
  /-- The configuration file that the environment names. -/
  named : Option Path := none
  /-- The configuration directory of the user. -/
  userConfig : Option Path := none
  /-- The data directory of the user. -/
  userData : Option String := none

/-- Why a file gives no configuration. -/
inductive LoadError where
  | unreadable (path : Path)
  | unparsable (path : Path)
deriving DecidableEq, Repr

namespace LoadError

def message : LoadError → String
  | unreadable path => s!"failed to read {path.text}"
  | unparsable path => s!"failed to parse {path.text}"

end LoadError

namespace DaemonSettings

def decoder : Decoder DaemonSettings :=
  .record ["storage_dir", "log_level"] fun depth slots =>
    match slots with
    | [storageDir, logLevel] => do
      let storageDir ← storageDir.withDefault none (Decoder.nullable .string) depth
      let logLevel ← logLevel.withDefault "info" .string depth
      some ⟨storageDir, logLevel⟩
    | _ => none

/-- The directory for state: as configured, or among the data of the user. -/
def storage (s : DaemonSettings) (around : Surroundings) : String :=
  match s.storageDir, around.userData with
  | some dir, _ => dir
  | none, some dir => dir ++ "/poolwarden"
  | none, none => ".poolwarden"

end DaemonSettings

namespace DaemonConfig

variable {φ : Type}

def decoder : Decoder DaemonConfig :=
  .record ["daemon", "pool"] fun depth slots =>
    match slots with
    | [settings, pool] => do
      let settings ← settings.withDefault {} DaemonSettings.decoder depth
      let pool ← pool.withDefault none (Decoder.nullable PoolConfig.codec.decode) depth
      some ⟨settings, pool⟩
    | _ => none

/-- The configuration of a file. -/
def load (fs : FileSystem φ) (path : Path) (files : φ) : Except LoadError DaemonConfig :=
  match fs.read path files with
  | .text content =>
    match (Toml.read? content).bind (decoder maxDepth) with
    | some c => .ok c
    | none => .error (.unparsable path)
  | _ => .error (.unreadable path)

/-- The usual places of a configuration file. -/
def usualPlaces (around : Surroundings) : List Path :=
  [["poolwarden.toml"], ["", "etc", "poolwarden", "poolwarden.toml"]]
    ++ around.userConfig.toList.map (· ++ ["poolwarden", "poolwarden.toml"])

/-- Something is at a path. -/
def isThere (fs : FileSystem φ) (files : φ) (path : Path) : Bool := fs.read path files != .missing

/-- The configuration file to use. -/
def locate (fs : FileSystem φ) (around : Surroundings) (files : φ) : Option Path :=
  around.named <|> (usualPlaces around).find? (isThere fs files)

/-- The configuration, and the file that it comes from. -/
def resolve (fs : FileSystem φ) (explicit : Option Path) (around : Surroundings) (files : φ) :
    Except LoadError (DaemonConfig × Option Path) :=
  match explicit <|> locate fs around files with
  | some path => (load fs path files).map fun c => (c, some path)
  | none => .ok ({}, none)

end DaemonConfig

end PoolKeeper
