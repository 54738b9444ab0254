import PoolKeeper.Document.Machine
import PoolKeeper.Event
import PoolKeeper.Fetch.Error
import PoolKeeper.Storage.Store

/-!
# The pool cache

The last good snapshot of a pool is kept and served while it is not too old; failed fetches do not
touch it.

* `Cache`, `Cache.publish`: what the outcome of a refresh changes;
* `Cache.serve`: the snapshot, or why there is none to serve;
* `Snapshot`, `Cache.restored`: the document that outlives the cache;
* `Cache.alert`: what a failed refresh has to tell.
-/

namespace PoolKeeper

/-- A snapshot as it is saved, with the name of its pool. -/
structure Snapshot where
  poolName : String
  pool : Pool
deriving Repr

namespace Snapshot

/-- The document of the snapshot. -/
def file : String := "pool.json"

def codec : Codec Snapshot where
  encode s := .object [("pool", Pool.codec.encode s.pool), ("pool_name", .string s.poolName)]
  decode := .record ["pool_name", "pool"] fun depth slots =>
    match slots with
    | [poolName, pool] => do
      let poolName ← poolName.required .string depth
      let pool ← pool.required Pool.codec.decode depth
      some ⟨poolName, pool⟩
    | _ => none

end Snapshot

/-- The last good snapshot of a pool and the last failure. -/
structure Cache where
  poolName : String
  /-- The age up to which the snapshot is served. -/
  timeout : Span
  snapshot : Option Pool
  /-- The text of the last refresh's failure, if it failed. -/
  lastError : Option String := none
deriving Repr

namespace Cache

/-- What the outcome of a refresh changes. -/
def publish (c : Cache) : Except FetchError Pool → Cache
  | .ok pool => { c with snapshot := some pool, lastError := none }
  | .error e => { c with lastError := some e.message }

/-- The snapshot, or why there is none to serve. One from the future has no age. -/
def serve (c : Cache) (now : Instant) : Except FetchError Pool :=
  match c.snapshot with
  | none => .error (.unreachable c.lastError)
  | some pool =>
    let age : Span := ⟨(pool.age now).toNat⟩
    if c.timeout < age then .error (.reachabilityTimeout age c.timeout c.lastError) else .ok pool

/-- The saved snapshot of a pool, if a readable one of that pool was saved. -/
def restored {φ : Type} (fs : FileSystem φ) (store : Store) (poolName : String) (files : φ) :
    Option Pool :=
  match store.load fs Snapshot.codec Snapshot.file files with
  | .ok (some s) => if s.poolName = poolName then some s.pool else none
  | _ => none

/-- What a failed refresh has to tell. -/
def alert (e : FetchError) (now : Instant) : Event :=
  .alert Topic.fetch .warning s!"failed to refresh machine pool: {e.message}" now

end Cache

end PoolKeeper
