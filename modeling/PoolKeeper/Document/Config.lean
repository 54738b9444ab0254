import PoolKeeper.Config
import PoolKeeper.Document.Machine

/-!
# Documents of configurations

* `PoolConfig.codec` and the codecs of its parts.
-/

namespace PoolKeeper

def VictimPolicy.codec : Codec VictimPolicy := .names text table

def DriverConfig.codec : Codec DriverConfig where
  encode d := .object [("kind", .string d.kind), ("settings", d.settings)]
  decode := .record ["kind", "settings"] fun depth slots =>
    match slots with
    | [kind, settings] => do
      let kind ← kind.required .string depth
      let settings ← settings.withDefault .null .json depth
      some ⟨kind, settings⟩
    | _ => none

def ScaleIn.codec : Codec ScaleIn where
  encode s := .object [("instance_hour_margin_secs", .nat s.margin),
    ("victim_selection_policy", VictimPolicy.codec.encode s.policy)]
  decode := .record ["victim_selection_policy", "instance_hour_margin_secs"] fun depth slots =>
    match slots with
    | [policy, margin] => do
      let policy ← policy.withDefault .oldest VictimPolicy.codec.decode depth
      let margin ← margin.withDefault 0 .nat depth
      some ⟨policy, margin⟩
    | _ => none

def Retries.codec : Codec Retries where
  encode r := .object [("initial_backoff_ms", .nat r.initialBackoffMillis),
    ("max_retries", .nat r.maxRetries)]
  decode := .record ["max_retries", "initial_backoff_ms"] fun depth slots =>
    match slots with
    | [maxRetries, initialBackoffMillis] => do
      let maxRetries ← maxRetries.withDefault 3 .nat32 depth
      let initialBackoffMillis ← initialBackoffMillis.withDefault 3000 .nat depth
      some ⟨maxRetries, initialBackoffMillis⟩
    | _ => none

def FetchSchedule.codec : Codec FetchSchedule where
  encode f := .object [("reachability_timeout_secs", .nat f.reachabilityTimeout),
    ("refresh_interval_secs", .nat f.refreshInterval), ("retries", Retries.codec.encode f.retries)]
  decode := .record ["retries", "refresh_interval_secs", "reachability_timeout_secs"]
      fun depth slots =>
    match slots with
    | [retries, refreshInterval, reachabilityTimeout] => do
      let retries ← retries.withDefault {} Retries.codec.decode depth
      let refreshInterval ← refreshInterval.withDefault 30 .nat depth
      let reachabilityTimeout ← reachabilityTimeout.withDefault 300 .nat depth
      some ⟨retries, refreshInterval, reachabilityTimeout⟩
    | _ => none

/-- The update interval stands in a record of its own. -/
def updateCodec : Codec Nat where
  encode seconds := .object [("update_interval_secs", .nat seconds)]
  decode := .record ["update_interval_secs"] fun depth slots =>
    match slots with
    | [seconds] => seconds.withDefault 60 .nat depth
    | _ => none

/-- A desired size that is not given is left out. -/
def PoolConfig.codec : Codec PoolConfig where
  encode c := .object <|
    (match c.desiredSize with
      | some n => [("desired_size", .nat n)]
      | none => [])
    ++ [("driver", DriverConfig.codec.encode c.driver), ("name", .string c.name),
      ("pool_fetch", FetchSchedule.codec.encode c.fetch),
      ("pool_update", updateCodec.encode c.updateInterval),
      ("scale_in", ScaleIn.codec.encode c.scaleIn)]
  decode := .record ["name", "driver", "desired_size", "scale_in", "pool_fetch", "pool_update"]
      fun depth slots =>
    match slots with
    | [name, driver, desiredSize, scaleIn, fetch, updateInterval] => do
      let name ← name.required .string depth
      let driver ← driver.required DriverConfig.codec.decode depth
      let desiredSize ← desiredSize.withDefault none (Decoder.nullable .nat) depth
      let scaleIn ← scaleIn.withDefault {} ScaleIn.codec.decode depth
      let fetch ← fetch.withDefault {} FetchSchedule.codec.decode depth
      let updateInterval ← updateInterval.withDefault 60 updateCodec.decode depth
      some { name, driver, desiredSize, scaleIn, fetch, updateInterval }
    | _ => none

end PoolKeeper
