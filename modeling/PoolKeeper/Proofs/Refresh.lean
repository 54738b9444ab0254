import Mathlib.Logic.Relation
import PoolKeeper.Proofs.Period

/-!
# Refreshes as runs of a period

All that a cache does by itself is a run of steps of the period that it belongs to.

* `Period.Steps`: several steps;
* `Period.attempt_steps`, `Period.finish_steps`: an attempt to list the machines, and a refresh to
  its end;
* **`Period.settle_steps`**, **`Period.force_steps`**: the background work that is ready, and a
  refresh that was asked for.
-/

namespace PoolKeeper

/-- How the background work of a configuration fetches the pool. -/
def Applied.fetcher {σ : Type} (p : Provider σ) (a : Applied) : Fetcher σ Nat :=
  .retrying p a.driver a.config.fetch.retries.policy

namespace Period

variable {σ : Type}

/-- Several steps. -/
abbrev Steps (p : Provider σ) (a : Applied) (good : σ → Prop) : Period σ → Period σ → Prop :=
  Relation.ReflTransGen (Step p a good)

/-- The period once a refresh has changed the cache and the world. -/
def refreshed (s : Period σ) (after : LiveCache Nat × World σ) : Period σ :=
  { s with live := after.1, world := after.2 }

/-- The cache and the world once a fetch has come so far. -/
def arrived (s : Period σ) (progress : Fetcher.Progress σ Nat) : LiveCache Nat × World σ :=
  s.live.follow progress.step { s.world with now := progress.time, outside := progress.outside }

variable {p : Provider σ} {a : Applied} {good : σ → Prop} {s t : Period σ}

theorem Step.keeps (hk : p.Keeps a.driver good) (h : Step p a good s t)
    (hg : good s.world.outside) : good t.world.outside := by
  cases h with
  | world world _ hworld => exact hworld
  | think controller _ => exact hg
  | schedule live _ _ => exact hg
  | view snapshot _ => exact hg
  | start count _ => exact hk.start hg
  | terminate ids _ => exact hk.terminate hg
  | detach id _ _ => exact hk.detach hg
  | note =>
    unfold Period.note
    split
    · exact hg
    · exact hg
    · exact hg
  | ignore => exact hg
  | begin _ _ => exact hg
  | resume _ attempt _ _ _ => exact hg
  | list call _ _ => exact hk.list hg
  | reply call answer _ _ =>
    show good (s.live.follow _ s.world).2.outside
    rw [(LiveCache.world_follow _ _ _).2]
    exact hg

theorem Steps.keeps (hk : p.Keeps a.driver good) (h : Steps p a good s t)
    (hg : good s.world.outside) : good t.world.outside := by
  induction h with
  | refl => exact hg
  | tail _ hstep ih => exact hstep.keeps hk ih

theorem Reachable.steps (hr : Reachable p a good s) (h : Steps p a good s t) :
    Reachable p a good t := by
  induction h with
  | refl => exact hr
  | tail _ hstep ih => exact ih.step hstep

/-! ## Attempts -/

/-- What an attempt to list the machines comes to. -/
def attempt (p : Provider σ) (a : Applied) (n : Nat) (s : Period σ) : Fetcher.Progress σ Nat :=
  let (step, outside) := (a.fetcher p).resume n s.world.now s.world.outside
  ⟨step, s.world.now, outside⟩

theorem attempt_steps {n : Nat} (hl : s.listing = none) (hb : Step p a good s (s.beginList n)) :
    Steps p a good s (s.refreshed (s.arrived (s.attempt p a n))) := by
  obtain ⟨controller, live, world, listing, pending⟩ := s
  cases hl
  have hbegun := Relation.ReflTransGen.single hb
  have hlisted := hbegun.tail (.list ⟨n, world.now, none⟩ rfl rfl)
  exact hlisted.tail (.reply ⟨n, world.now, some _⟩ _ rfl rfl)

/-! ## Refreshes -/

/-- A refresh from an attempt to its end, through at most so many waits. -/
theorem finish_steps (hk : p.Keeps a.driver good) (waits : Nat) {n : Nat} (hl : s.listing = none)
    (hg : good s.world.outside) (hb : Step p a good s (s.beginList n)) :
    Steps p a good s (s.refreshed (s.arrived ((a.fetcher p).finish waits (s.attempt p a n).step
      (s.attempt p a n).time (s.attempt p a n).outside))) := by
  induction waits generalizing s n with
  | zero =>
    have hfirst := attempt_steps hl hb
    rcases hattempt : s.attempt p a n with ⟨step, time, outside⟩
    rw [hattempt] at hfirst
    cases step with
    | done result => exact hfirst
    | wait wake point => exact hfirst
    | crashed => exact hfirst
  | succ waits ih =>
    have hfirst := attempt_steps hl hb
    rcases hattempt : s.attempt p a n with ⟨step, time, outside⟩
    rw [hattempt] at hfirst
    cases step with
    | done result => exact hfirst
    | crashed => exact hfirst
    | wait wake point =>
      -- The refresh waits until it is time for its next attempt.
      let waiting := s.refreshed (s.arrived ⟨.wait wake point, time, outside⟩)
      let awake : Period σ :=
        { waiting with world := { waiting.world with now := time.latest wake } }
      have hgood : good waiting.world.outside := hfirst.keeps hk hg
      have hawake : Steps p a good s awake :=
        hfirst.tail (.world _ (Instant.le_latest time wake) hgood)
      exact hawake.trans (ih (s := awake) hl hgood
        (.resume wake point hl rfl (Instant.le_latest_right time wake)))

/-! ## Background work -/

theorem beginRefresh_steps (hl : s.listing = none) (hu : s.live.underway = none) :
    Steps p a good s (s.refreshed (s.live.beginRefresh (a.fetcher p) s.world)) :=
  attempt_steps hl (.begin hl hu)

theorem resumeRefresh_steps (hl : s.listing = none) :
    Steps p a good s (s.refreshed (s.live.resumeRefresh (a.fetcher p) s.world)) := by
  unfold LiveCache.resumeRefresh
  split
  · exact .refl
  · rename_i wake point hu
    split
    · rename_i hwake
      exact attempt_steps hl (.resume wake point hl hu hwake)
    · exact .refl

theorem beginReady_steps (hl : s.listing = none) :
    Steps p a good s (s.refreshed (s.live.beginReady (a.fetcher p) s.world)) := by
  have hbegin : ∀ live : LiveCache Nat, live.cache = s.live.cache → live.underway = none →
      live.underway = s.live.underway →
      Steps p a good s (s.refreshed (live.beginRefresh (a.fetcher p) s.world)) := by
    intro live hc hu hsame
    have hscheduled : Steps p a good s { s with live } := .single (.schedule live hc (.inl hsame))
    exact hscheduled.trans (beginRefresh_steps (s := { s with live }) hl hu)
  unfold LiveCache.beginReady
  split
  · exact .refl
  · rename_i hnone
    have hu : s.live.underway = none := by simpa using hnone
    split
    · exact hbegin _ rfl hu rfl
    · split
      · exact .refl
      · split
        · exact hbegin _ rfl hu rfl
        · exact .refl

/-- **The background work that is ready is a run of steps.** -/
theorem settle_steps (hl : s.listing = none) :
    Steps p a good s (s.refreshed (s.live.settle (a.fetcher p) s.world)) := by
  have hresumed : Steps p a good s _ := resumeRefresh_steps hl
  unfold LiveCache.settle
  simp only
  split
  · exact (hresumed.trans (beginReady_steps hl)).trans (beginReady_steps hl)
  · exact hresumed.trans (beginReady_steps hl)

/-! ## Refreshes that were asked for -/

theorem drain_steps (hk : p.Keeps a.driver good) (hl : s.listing = none)
    (hg : good s.world.outside) :
    Steps p a good s (s.refreshed (s.live.drain (a.fetcher p) s.world)) := by
  unfold LiveCache.drain
  split
  · exact .refl
  · rename_i wake point hu
    generalize Fetcher.patience = waits
    cases waits with
    | zero =>
      obtain ⟨_, ⟨_, _, _, _, _, _, _⟩, _, _, _⟩ := s
      cases hu
      exact .refl
    | succ waits =>
      let awake : Period σ := { s with world := { s.world with now := s.world.now.latest wake } }
      have hawake : Steps p a good s awake :=
        .single (.world _ (Instant.le_latest s.world.now wake) hg)
      exact hawake.trans (finish_steps (s := awake) hk waits hl hg
        (.resume wake point hl hu (Instant.le_latest_right s.world.now wake)))

theorem cache_takeTick (live : LiveCache Nat) (start stop : Instant) :
    (live.takeTick start stop).cache = live.cache := by
  unfold LiveCache.takeTick
  split
  · rfl
  · split
    · rfl
    · rfl

theorem follow_done {live : LiveCache Nat} (h : live.underway = none)
    (result : Except FetchError Pool) (w : World σ) :
    live.follow (.done result) w = live.publish result w := by
  obtain ⟨_, _, _, _, _, _, _⟩ := live
  cases h
  rfl

/-- **A refresh that was asked for is a run of steps.** -/
theorem force_steps (hk : p.Keeps a.driver good) (hl : s.listing = none)
    (hg : good s.world.outside) :
    Steps p a good s (s.refreshed (s.live.force (a.fetcher p) s.world).2) := by
  have hdrained := drain_steps hk hl hg
  have hgood := hdrained.keeps hk hg
  unfold LiveCache.force
  generalize s.live.drain (a.fetcher p) s.world = after at hdrained hgood
  obtain ⟨live, world⟩ := after
  simp only
  split
  · exact hdrained
  · rename_i hnone
    let ready (stop : Instant) : Period σ := { s with live := live.takeTick world.now stop, world }
    have hu : ∀ stop, (ready stop).live.underway = none := fun stop =>
      (live.underway_takeTick world.now stop).trans (by simpa using hnone)
    have hready : ∀ stop, Steps p a good s (ready stop) := fun stop =>
      hdrained.tail
        (.schedule _ (cache_takeTick live world.now stop) (.inl (LiveCache.underway_takeTick _ _ _)))
    have hrun : ∀ stop, Steps p a good s
        ((ready stop).refreshed ((ready stop).arrived
          ((a.fetcher p).run world.now world.outside))) := fun stop =>
      (hready stop).trans (finish_steps hk Fetcher.patience hl hgood (.begin hl (hu stop)))
    generalize (a.fetcher p).run world.now world.outside = progress at hrun ⊢
    obtain ⟨step, stop, outside⟩ := progress
    have hend := hrun stop
    cases step with
    | done result =>
      rw [arrived, follow_done (hu stop)] at hend
      exact hend
    -- A refresh that gives no answer leaves the cache as it was.
    | wait wake point => exact hend.tail (.schedule (ready stop).live rfl (.inr (hu stop)))
    | crashed => exact hend.tail (.schedule (ready stop).live rfl (.inr (hu stop)))

theorem awaitFirst_steps (hk : p.Keeps a.driver good) (hl : s.listing = none)
    (hg : good s.world.outside) :
    Steps p a good s (s.refreshed (s.live.awaitFirst (a.fetcher p) s.world)) := by
  have hsettled : Steps p a good s _ := settle_steps hl
  have hdrained := hsettled.trans (drain_steps hk hl (hsettled.keeps hk hg))
  unfold LiveCache.awaitFirst
  simp only
  split
  · exact hsettled
  · split
    · exact hdrained.trans (settle_steps hl)
    · exact hdrained

end Period

end PoolKeeper
