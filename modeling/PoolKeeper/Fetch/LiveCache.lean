import PoolKeeper.Fetch.Cache
import PoolKeeper.Fetch.Fetcher
import PoolKeeper.Time.Ticker
import PoolKeeper.World

/-!
# A cache that keeps itself up to date

The pool is fetched at once and then by a ticker, and whenever a fresh snapshot is asked for. Only
one fetch is under way at a time: who comes second waits for the first to end.

* `LiveCache`, `LiveCache.begin`, `LiveCache.close`: a cache and its ticker;
* `LiveCache.learn`, `LiveCache.publish`: the outcome of a fetch enters the cache, and is saved;
* `LiveCache.settle`: the background work that is ready at this time;
* `LiveCache.force`: a fetch of its own, after the one under way if there is one;
* `LiveCache.awaitFirst`: waits for the end of the first fetch;
* `LiveCache.advance`: lets time pass.
-/

namespace PoolKeeper

/-- A cache, its ticker, and the fetch that is under way. -/
structure LiveCache (ρ : Type) where
  cache : Cache
  /-- Where good snapshots are saved. -/
  store : Option Store
  /-- Failed refreshes are told. -/
  announces : Bool
  /-- The ticker of the background refreshes; none once they have ended. -/
  ticker : Option Ticker
  /-- A tick was taken while another fetch was under way, and its refresh has not begun. -/
  waiting : Bool := false
  /-- The refresh under way in the background: when and where it goes on. -/
  underway : Option (Instant × ρ) := none
  /-- A fetch has come to its end. -/
  fetched : Bool := false

namespace LiveCache

variable {σ ρ : Type}

/-- A cache that begins with the saved snapshot of its pool; its first refresh is due at once. With
no time between refreshes there are none in the background. -/
def begin (poolName : String) (refreshInterval timeout : Span) (store : Option Store)
    (announces : Bool) (w : World σ) : LiveCache ρ where
  cache :=
    { poolName, timeout
      snapshot := store.bind fun s => Cache.restored FileTree.system s poolName w.files }
  store
  announces
  ticker := if refreshInterval.nanos = 0 then none else some ⟨w.now, refreshInterval⟩

/-- Ends the background refreshes, also the one under way. -/
def close (c : LiveCache ρ) : LiveCache ρ :=
  { c with ticker := none, waiting := false, underway := none }

/-- Saves a snapshot, as well as that goes. -/
def save (c : LiveCache ρ) (pool : Pool) (w : World σ) : World σ :=
  match c.store with
  | none => w
  | some store =>
    { w with
      files := (store.save FileTree.system Snapshot.codec Snapshot.file
        ⟨c.cache.poolName, pool⟩ w.files).2 }

/-- The outcome of a fetch enters the cache: a good snapshot is kept, a failure is noted and
told. -/
def learn (c : LiveCache ρ) (result : Except FetchError Pool) (w : World σ) :
    LiveCache ρ × World σ :=
  ({ c with cache := c.cache.publish result },
    match result with
    | .ok _ => w
    | .error e => if c.announces then w.tell [Cache.alert e w.now] else w)

/-- The end of a fetch, while nothing else happens: once its outcome has entered the cache, a good
snapshot is saved, and who waits for the first fetch is told. -/
def publish (c : LiveCache ρ) (result : Except FetchError Pool) (w : World σ) :
    LiveCache ρ × World σ :=
  let (c, w) := c.learn result w
  ({ c with fetched := true },
    match result with
    | .ok pool => c.save pool w
    | .error _ => w)

/-- What a step of the background refresh leads to. -/
def follow (c : LiveCache ρ) (step : FetchStep ρ) (w : World σ) : LiveCache ρ × World σ :=
  match step with
  | .done result => { c with underway := none }.publish result w
  | .wait wake point => ({ c with underway := some (wake, point) }, w)
  | .crashed => (c.close, w)

/-- Begins a background refresh. -/
def beginRefresh (f : Fetcher σ ρ) (c : LiveCache ρ) (w : World σ) : LiveCache ρ × World σ :=
  let (step, outside) := f.begin w.now w.outside
  c.follow step { w with outside }

/-- Goes on with the background refresh, if it has waited long enough. -/
def resumeRefresh (f : Fetcher σ ρ) (c : LiveCache ρ) (w : World σ) : LiveCache ρ × World σ :=
  match c.underway with
  | none => (c, w)
  | some (wake, point) =>
    if wake ≤ w.now then
      let (step, outside) := f.resume point w.now w.outside
      c.follow step { w with outside }
    else (c, w)

/-- Begins the background refresh that had to wait, or the one that is due. -/
def beginReady (f : Fetcher σ ρ) (c : LiveCache ρ) (w : World σ) : LiveCache ρ × World σ :=
  if c.underway.isSome then (c, w)
  else if c.waiting then beginRefresh f { c with waiting := false } w
  else
    match c.ticker with
    | none => (c, w)
    | some t =>
      if t.due ≤ w.now then beginRefresh f { c with ticker := some (t.fire w.now) } w else (c, w)

/-- The background work that is ready at this time: the refresh under way goes on, the one that
had to wait begins, and then the one that is due. -/
def settle (f : Fetcher σ ρ) (c : LiveCache ρ) (w : World σ) : LiveCache ρ × World σ :=
  let (c, w) := c.resumeRefresh f w
  let (c, w) := if c.waiting then c.beginReady f w else (c, w)
  c.beginReady f w

/-- Waits for the end of the background refresh under way, if it has one. -/
def drain (f : Fetcher σ ρ) (c : LiveCache ρ) (w : World σ) : LiveCache ρ × World σ :=
  match c.underway with
  | none => (c, w)
  | some (wake, point) =>
    let p := f.finish Fetcher.patience (.wait wake point) w.now w.outside
    c.follow p.step { w with now := p.time, outside := p.outside }

/-- The tick that came while another fetch was under way, between two times. -/
def takeTick (c : LiveCache ρ) (start stop : Instant) : LiveCache ρ :=
  match c.ticker with
  | none => c
  | some t =>
    if !c.waiting && t.due ≤ stop then
      { c with waiting := true, ticker := some (t.fire (start.latest t.due)) }
    else c

/-- A fetch of its own, once the one under way has ended. There is no answer if either never
ends, or if its own breaks down. -/
def force (f : Fetcher σ ρ) (c : LiveCache ρ) (w : World σ) :
    Option (Except FetchError Pool) × LiveCache ρ × World σ :=
  let (c, w) := c.drain f w
  if c.underway.isSome then (none, c, w)
  else
    let p := f.run w.now w.outside
    let c := c.takeTick w.now p.time
    let w := { w with now := p.time, outside := p.outside }
    match p.step with
    | .done result => (some result, c.publish result w)
    | _ => (none, c, w)

/-- Waits for the end of the first fetch, and tells whether it came. -/
def awaitFirst (f : Fetcher σ ρ) (c : LiveCache ρ) (w : World σ) : LiveCache ρ × World σ :=
  let (c, w) := c.settle f w
  if c.fetched then (c, w)
  else
    let (c, w) := c.drain f w
    if c.fetched then c.settle f w else (c, w)

/-- When the background work goes on. -/
def nextTime (c : LiveCache ρ) : Option Instant :=
  match c.underway with
  | some (wake, _) => some wake
  | none => c.ticker.map Ticker.due

/-- Lets some nanoseconds pass, or fewer if a condition is met before: the background work is done
whenever it is ready. -/
def advance (f : Fetcher σ ρ) (stop : LiveCache ρ → Bool) (nanos : Nat) (c : LiveCache ρ)
    (w : World σ) : LiveCache ρ × World σ :=
  if stop c then (c, w)
  else
    match c.nextTime with
    | none => (c, w.atTime (w.now.plus ⟨nanos⟩))
    | some time =>
      let gap := max 1 (time.since w.now).toNat
      if nanos < gap then (c, w.atTime (w.now.plus ⟨nanos⟩))
      else
        let (c, w) := c.settle f (w.atTime (w.now.plus ⟨gap⟩))
        advance f stop (nanos - gap) c w
termination_by nanos

end LiveCache

end PoolKeeper
