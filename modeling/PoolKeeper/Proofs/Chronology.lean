import PoolKeeper.Proofs.LiveCache
import PoolKeeper.Proofs.RoundTrip
import PoolKeeper.Proofs.Saving

/-!
# Snapshots never get older

A cache shows no snapshot that is older than one that it, or another cache over the same store, has
shown before, as long as the clock never goes back and snapshots are saved.

* `Snapshot.takenAt_of_read`: a saved snapshot is as old as it was, if it can be read;
* `World.Past`: a time that no saved snapshot comes before, and that is over;
  `LiveCache.Past`: nor does the snapshot of a cache;
* `Fetcher.Dated`: fetched snapshots are as old as their fetch;
* `LiveCache.past_begin`: a new cache goes on from what is saved;
* **`LiveCache.Moves.past`**: whatever a cache does, what is past stays past.
-/

namespace PoolKeeper

variable {σ ρ : Type}

/-! ## Saved snapshots -/

/-- The snapshot on file, whatever the name of its pool, if there is one that can be read. -/
def Store.snapshot? (store : Store) (t : FileTree) : Option Snapshot :=
  (store.load FileTree.system Snapshot.codec Snapshot.file t).toOption.join

theorem Store.snapshot?_eq (store : Store) (t : FileTree) :
    store.snapshot? t = (t.file? (store.path Snapshot.file)).bind Snapshot.codec.ofText? :=
  store.join_load Snapshot.codec Snapshot.file t

theorem Cache.restored_of_snapshot? (store : Store) (poolName : String) (t : FileTree) :
    Cache.restored FileTree.system store poolName t =
      (store.snapshot? t).bind fun s => if s.poolName = poolName then some s.pool else none := by
  rw [store.snapshot?_eq, Cache.restored_eq]

theorem Decoder.instant_ofText {t t' : Instant} (h : t.Proper) {depth : Nat}
    (hread : Decoder.instant depth (.ofJson (.string t.toText)) = some t') : t' = t := by
  simp only [Decoder.instant, Node.ofJson, Decoder.string, Option.bind_some,
    Instant.ofText?_toText h] at hread
  split at hread
  · cases hread
    rfl
  · cases hread

theorem Decoder.record_ofJson {α : Type} {names : List String}
    {build : Nat → List Slot → Option α} {members : List (String × Json)} {slots : List Slot}
    (hslots : names.mapM (slot? (Node.ofMembers members)) = some slots) (depth : Nat) :
    record names build (depth + 1) (.ofJson (.object members)) = build depth slots := by
  rw [record, slots?_ofJson, hslots, Option.bind_some]

theorem Pool.takenAt_of_decode {p p' : Pool} (h : p.takenAt.Proper) {depth : Nat}
    (hread : Pool.codec.decode depth (.ofJson (Pool.codec.encode p)) = some p') :
    p'.takenAt = p.takenAt := by
  cases depth with
  | zero => cases hread
  | succ depth =>
    let members := [("machines", (Codec.list Machine.codec).encode p.machines),
      ("timestamp", .string p.takenAt.toText)]
    have hslots : ["machines", "timestamp"].mapM (Decoder.slot? (Node.ofMembers members)) =
        some [.found (.ofJson ((Codec.list Machine.codec).encode p.machines)),
          .found (.ofJson (.string p.takenAt.toText))] := by
      simp [members, Decoder.slot?, Decoder.membersNamed_ofMembers]
    have hdecode : Pool.codec.decode = Decoder.record _ _ := rfl
    have hencode : Pool.codec.encode p = .object members := rfl
    rw [hdecode, hencode, Decoder.record_ofJson hslots] at hread
    simp only [Slot.required, Option.bind_eq_bind, Option.bind_eq_some_iff,
      Option.some.injEq] at hread
    obtain ⟨machines, -, t, ht, rfl⟩ := hread
    exact Decoder.instant_ofText h ht

theorem Snapshot.takenAt_of_read {s s' : Snapshot} (h : s.pool.takenAt.Proper)
    (hread : codec.ofText? (codec.toText s) = some s') : s'.pool.takenAt = s.pool.takenAt := by
  let members := [("pool", Pool.codec.encode s.pool), ("pool_name", Json.string s.poolName)]
  have hslots : ["pool_name", "pool"].mapM (Decoder.slot? (Node.ofMembers members)) =
      some [.found (.ofJson (.string s.poolName)),
        .found (.ofJson (Pool.codec.encode s.pool))] := by
    simp [members, Decoder.slot?, Decoder.membersNamed_ofMembers]
  rw [Codec.ofText?, Codec.toText, decode?] at hread
  rcases Node.read?_write Json.blank_indented (codec.encode s) with htree | ⟨_, hnone⟩
  · rw [htree, Option.bind_some] at hread
    have hdecode : codec.decode = Decoder.record _ _ := rfl
    have hencode : codec.encode s = .object members := rfl
    rw [hdecode, hencode, maxDepth, Decoder.record_ofJson hslots] at hread
    simp only [Slot.required, Option.bind_eq_bind, Option.bind_eq_some_iff,
      Option.some.injEq] at hread
    obtain ⟨poolName, -, pool, hpool, rfl⟩ := hread
    exact Pool.takenAt_of_decode h hpool
  · rw [hnone] at hread
    cases hread

/-! ## Worlds -/

/-- A time is over in a world, and no snapshot is saved from before. Nor is one from the future, and
the next can be saved. -/
structure World.Past (store : Option Store) (t : Instant) (w : World σ) : Prop where
  clock : w.now.Proper
  now : t ≤ w.now
  ready {st : Store} : store = some st → st.Ready Snapshot.file w.files
  saved {st : Store} {s : Snapshot} : store = some st → st.snapshot? w.files = some s →
    t ≤ s.pool.takenAt ∧ s.pool.takenAt ≤ w.now

theorem Instant.proper_plus (t : Instant) (d : Span) : (t.plus d).Proper :=
  .inl (t.ordinary_plus d)

theorem Instant.Proper.latest {t u : Instant} (ht : t.Proper) (hu : u.Proper) :
    (t.latest u).Proper :=
  latest_cases ht hu

namespace World.Past

variable {store : Option Store} {t u : Instant} {w : World σ}

theorem tell (h : w.Past store t) (events : List Event) : (w.tell events).Past store t := { h with }

theorem withOutside (h : w.Past store t) (outside : σ) :
    World.Past store t { w with outside } := { h with }

theorem later (h : w.Past store t) {time : Instant} (hle : w.now ≤ time) (hclock : time.Proper) :
    (w.atTime time).Past store t where
  clock := hclock
  now := Instant.le_trans h.now hle
  ready := h.ready
  saved hst hs := ⟨(h.saved hst hs).1, Instant.le_trans (h.saved hst hs).2 hle⟩

/-- Once a snapshot of this time is saved, all until now is past. -/
theorem save (h : w.Past store t) (hu : u ≤ w.now) {c : LiveCache ρ} (hc : c.store = store)
    {pool : Pool} (htime : pool.takenAt = w.now) : (c.save pool w).Past store u := by
  subst hc
  unfold LiveCache.save
  split
  · rename_i hnone
    refine { h with
      now := hu
      saved := fun hst => ?_ }
    rw [hnone] at hst
    cases hst
  · rename_i st hst
    have hready := h.ready hst
    refine ⟨h.clock, hu, fun hst' => ?_, fun hst' hs => ?_⟩
    · cases hst.symm.trans hst'
      exact (Store.ready_save_iff Snapshot.codec Snapshot.isName_file Snapshot.isName_file).2 hready
    · cases hst.symm.trans hst'
      simp only [Store.snapshot?_eq, Store.file?_save Snapshot.codec Snapshot.isName_file,
        if_pos hready, Option.bind_some] at hs
      have hclock : pool.takenAt.Proper := htime ▸ h.clock
      have hread := Snapshot.takenAt_of_read (s := ⟨c.cache.poolName, pool⟩) hclock hs
      rw [hread, htime]
      exact ⟨hu, Instant.le_refl _⟩

end World.Past

/-! ## Fetches -/

/-- The step of a fetch is of this time: a snapshot was taken now. -/
def FetchStep.Dated (now : Instant) : FetchStep ρ → Prop
  | .done (.ok pool) => pool.takenAt = now
  | .wait wake _ => wake.Proper
  | _ => True

/-- Whenever a fetch gives a snapshot, it is of that time. -/
def Fetcher.Dated (f : Fetcher σ ρ) : Prop :=
  ∀ {now : Instant} {s : σ} {step : FetchStep ρ} {s' : σ}, f.Goes now s step s' → step.Dated now

theorem Fetcher.dated_retrying (p : Provider σ) (d : DriverId) (policy : RetryPolicy) :
    (retrying p d policy).Dated := by
  have hafter : ∀ n now listing, (policy.after n now listing).Dated now := by
    intro n now listing
    unfold RetryPolicy.after
    split
    · rfl
    · trivial
    · split_ifs
      · trivial
      · trivial
      · trivial
      · exact Instant.proper_plus _ _
  intro now s step s' h
  cases h with
  | begin => exact hafter _ _ _
  | resume point => exact hafter _ _ _

/-! ## Caches -/

namespace LiveCache

/-- A time is over for a cache: it shows no snapshot from before, and goes back behind none that it
shows. -/
structure Past (store : Option Store) (t : Instant) (x : LiveCache ρ × World σ) : Prop where
  world : x.2.Past store t
  housed : x.1.store = store
  wake {wake : Instant} {point : ρ} : x.1.underway = some (wake, point) → wake.Proper
  shown {pool : Pool} : x.1.cache.snapshot = some pool →
    t ≤ pool.takenAt ∧ x.2.Past store pool.takenAt

variable {store : Option Store} {t : Instant} {f : Fetcher σ ρ} {c : LiveCache ρ} {w : World σ}

theorem past_begin (h : w.Past store t) (poolName : String) (refreshInterval timeout : Span)
    (announces : Bool) :
    Past store t
      ((begin poolName refreshInterval timeout store announces w : LiveCache ρ), w) where
  world := h
  housed := rfl
  wake hu := by cases hu
  shown {pool} hpool := by
    obtain ⟨st, hst, hrestored⟩ := Option.bind_eq_some_iff.1 hpool
    rw [Cache.restored_of_snapshot?] at hrestored
    obtain ⟨s, hs, hnamed⟩ := Option.bind_eq_some_iff.1 hrestored
    split at hnamed
    · cases hnamed
      obtain ⟨hlow, hhigh⟩ := h.saved hst hs
      refine ⟨hlow, { h with
        now := hhigh
        saved := fun hst' hs' => ?_ }⟩
      cases hst.symm.trans hst'
      cases hs.symm.trans hs'
      exact ⟨Instant.le_refl _, hhigh⟩
    · cases hnamed

namespace Past

theorem inWorld (h : Past store t (c, w)) {w' : World σ}
    (hw : ∀ {u}, w.Past store u → w'.Past store u) : Past store t (c, w') where
  world := hw h.world
  housed := h.housed
  wake := h.wake
  shown hpool := (h.shown hpool).imp_right hw

theorem withOutside (h : Past store t (c, w)) (outside : σ) :
    Past store t (c, { w with outside }) :=
  h.inWorld fun hw => hw.withOutside outside

theorem ended (h : Past store t (c, w)) :
    Past store t (({ c with underway := none } : LiveCache ρ), w) :=
  ⟨h.world, h.housed, fun hu => (by cases hu), h.shown⟩

theorem publish (h : Past store t (c, w)) {result : Except FetchError Pool}
    (hdated : FetchStep.Dated (ρ := ρ) w.now (.done result)) :
    Past store t (c.publish result w) := by
  cases result with
  | ok pool =>
    have htime : pool.takenAt = w.now := hdated
    refine ⟨h.world.save h.world.now h.housed htime, h.housed, h.wake, ?_⟩
    rintro _ ⟨⟩
    rw [htime]
    exact ⟨h.world.now, h.world.save (Instant.le_refl _) h.housed htime⟩
  | error e =>
    have hnoted : Past store t
        (({ c with cache := c.cache.publish (.error e), fetched := true } : LiveCache ρ), w) :=
      ⟨h.world, h.housed, h.wake, h.shown⟩
    rw [publish_error]
    split
    · exact hnoted.inWorld fun hw => hw.tell _
    · exact hnoted

end Past

variable {a b : LiveCache ρ × World σ}

theorem Past.later (h : Past store t (c, w)) {time : Instant} (hlater : Later c w.now time) :
    time.Proper := by
  cases hlater with
  | after d => exact Instant.proper_plus w.now d
  | awake hu => exact h.world.clock.latest (h.wake hu)

theorem Move.past {forced : Bool} (h : Move f forced a b) (hf : f.Dated) (ha : Past store t a) :
    Past store t b := by
  cases h with
  | schedule w hc hunderway =>
    refine ⟨ha.world, hc.store.trans ha.housed, fun hu => ?_, fun hpool => ?_⟩
    · rcases hunderway with hsame | ⟨_, hnone⟩
      · exact ha.wake (hsame.symm.trans hu)
      · cases hnone.symm.trans hu
    · exact ha.shown ((congrArg Cache.snapshot hc.cache).symm.trans hpool)
  | later c w time hlater =>
    exact ha.inWorld fun hw => hw.later hlater.le (ha.later hlater)
  | @wait c w wake point outside hgoes =>
    obtain ⟨hworld, hhoused, _, hshown⟩ := ha.withOutside outside
    refine ⟨hworld, hhoused, ?_, hshown⟩
    rintro _ _ ⟨⟩
    exact hf hgoes.fetch
  | publish c hgoes => exact (ha.withOutside _).ended.publish (hf hgoes.fetch)
  | crash c _ _ =>
    obtain ⟨hworld, hhoused, hwake, hshown⟩ := (ha.withOutside _).ended
    exact ⟨hworld, hhoused, hwake, hshown⟩
  | fail c _ _ => exact (ha.withOutside _).ended

/-- **Whatever a cache does, what is past stays past.** -/
theorem Moves.past (h : Moves f a b) (hf : f.Dated) (ha : Past store t a) : Past store t b := by
  induction h with
  | refl => exact ha
  | tail _ hm ih =>
    obtain ⟨_, hm⟩ := hm
    exact hm.past hf ih

end LiveCache

end PoolKeeper
