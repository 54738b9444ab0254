import Mathlib.Logic.Relation
import PoolKeeper.Fetch.LiveCache
import PoolKeeper.Proofs.Changes

/-!
# What refreshes change

Whatever refreshes do, they change a cache by what the fetches gave, and tell of no change of state.

* `Cache.lastGood`: the last good snapshot of a row of refreshes, and
  **`Cache.snapshot_foldl_publish`**: the one that a cache has;
* `Fetcher.Goes`, `Fetcher.Gives`: what a fetch can do, and what it can come to;
* `LiveCache.Move`, `LiveCache.Moves`: all that one step of the work of a cache can do, and several;
  `LiveCache.MovesFor`: in the background alone, or for who asked alone;
  **`LiveCache.settle_moves`**, **`LiveCache.force_cases`**, **`LiveCache.awaitFirst_moves`**,
  **`LiveCache.advance_moves`**: all that a cache does is that;
* `LiveCache.Refreshes`, **`LiveCache.Moves.refreshes`**: refreshes have gone on.
-/

namespace PoolKeeper

/-! ## Rows of refreshes -/

namespace Cache

/-- The last good snapshot of a row of refreshes, or the one from before if none was good. -/
def lastGood (before : Option Pool) (outcomes : List (Except FetchError Pool)) : Option Pool :=
  (outcomes.filterMap Except.toOption).getLast?.or before

theorem lastGood_cons (before : Option Pool) (o : Except FetchError Pool)
    (outcomes : List (Except FetchError Pool)) :
    lastGood before (o :: outcomes) = lastGood (o.toOption.or before) outcomes := by
  cases o with
  | error e => rfl
  | ok pool =>
    rw [lastGood, List.filterMap_cons_some (by rfl), List.getLast?_cons, lastGood, Except.toOption,
      Option.some_or]
    cases (outcomes.filterMap Except.toOption).getLast? with
    | none => rfl
    | some last => rfl

theorem lastGood_append (before : Option Pool) (first rest : List (Except FetchError Pool)) :
    lastGood before (first ++ rest) = lastGood (lastGood before first) rest := by
  induction first generalizing before with
  | nil => rfl
  | cons o first ih => rw [List.cons_append, lastGood_cons, ih, lastGood_cons]

/-- **A cache has the last good snapshot.** -/
theorem snapshot_foldl_publish (c : Cache) (outcomes : List (Except FetchError Pool)) :
    (outcomes.foldl publish c).snapshot = lastGood c.snapshot outcomes := by
  induction outcomes generalizing c with
  | nil => rfl
  | cons o outcomes ih =>
    rw [List.foldl_cons, ih, lastGood_cons]
    cases o with
    | error e => rfl
    | ok pool => rfl

theorem timeout_foldl_publish (c : Cache) (outcomes : List (Except FetchError Pool)) :
    (outcomes.foldl publish c).timeout = c.timeout := by
  induction outcomes generalizing c with
  | nil => rfl
  | cons o outcomes ih =>
    rw [List.foldl_cons, ih]
    cases o with
    | error e => rfl
    | ok pool => rfl

end Cache

/-! ## Fetches -/

namespace Fetcher

variable {σ ρ : Type} (f : Fetcher σ ρ)

/-- What a fetch can do, and what it leaves outside: it begins, or it goes on from some point. -/
inductive Goes (now : Instant) (s : σ) : FetchStep ρ → σ → Prop
  | begin : Goes now s (f.begin now s).1 (f.begin now s).2
  | resume (point : ρ) : Goes now s (f.resume point now s).1 (f.resume point now s).2

/-- A fetch can take this step. -/
def Takes (step : FetchStep ρ) : Prop :=
  ∃ now s, (f.begin now s).1 = step ∨ ∃ point, (f.resume point now s).1 = step

/-- A fetch can come to this. -/
def Gives (outcome : Except FetchError Pool) : Prop := f.Takes (.done outcome)

variable {f}

theorem Goes.takes {now : Instant} {s s' : σ} {step : FetchStep ρ} (h : f.Goes now s step s') :
    f.Takes step := by
  cases h with
  | begin => exact ⟨now, s, .inl rfl⟩
  | resume point => exact ⟨now, s, .inr ⟨point, rfl⟩⟩

end Fetcher

theorem Ticker.period_fire (t : Ticker) (now : Instant) : (t.fire now).period = t.period := by
  unfold fire
  split
  · rfl
  · rfl

/-! ## Moves -/

namespace LiveCache

variable {σ ρ : Type}

/-- A background refresh can begin, now or later. -/
def isOpen (c : LiveCache ρ) : Bool := c.ticker.isSome || c.waiting

/-- What a fetch of a cache can do, in the background or for who asked: it begins if none is under
way, or the one under way goes on. -/
inductive Goes (f : Fetcher σ ρ) (forced : Bool) (c : LiveCache ρ) (now : Instant) (s : σ) :
    FetchStep ρ → σ → Prop
  | begin : c.underway = none → (forced || c.isOpen) = true →
    Goes f forced c now s (f.begin now s).1 (f.begin now s).2
  | resume {wake : Instant} {point : ρ} : c.underway = some (wake, point) →
    Goes f forced c now s (f.resume point now s).1 (f.resume point now s).2

/-- When the clock can go on: after a while, or when the fetch under way wakes. -/
inductive Later (c : LiveCache ρ) (now : Instant) : Instant → Prop
  | after (d : Span) : Later c now (now.plus d)
  | awake {wake : Instant} {point : ρ} : c.underway = some (wake, point) →
    Later c now (now.latest wake)

/-- Only what is still to be done in the background changes; the ticker keeps its period. -/
structure Reschedules (c c' : LiveCache ρ) : Prop where
  cache : c'.cache = c.cache
  store : c'.store = c.store
  announces : c'.announces = c.announces
  fetched : c'.fetched = c.fetched
  period : c'.ticker.map Ticker.period = c.ticker.map Ticker.period
  waiting : c'.waiting = true → c.isOpen = true

/-- What one step of the work of a cache can do, in the background or for who asked. A fetch that was
asked for is under way like any other until it ends. -/
inductive Move (f : Fetcher σ ρ) (forced : Bool) :
    LiveCache ρ × World σ → LiveCache ρ × World σ → Prop
  /-- Who asked may not wait for the end. -/
  | schedule {c c' : LiveCache ρ} (w : World σ) : Reschedules c c' →
    (c'.underway = c.underway ∨ forced = true ∧ c'.underway = none) → Move f forced (c, w) (c', w)
  | later (c : LiveCache ρ) (w : World σ) (time : Instant) : Later c w.now time →
    Move f forced (c, w) (c, w.atTime time)
  /-- A fetch waits. -/
  | wait (c : LiveCache ρ) {w : World σ} {wake : Instant} {point : ρ} {outside : σ} :
    Goes f forced c w.now w.outside (.wait wake point) outside →
    Move f forced (c, w) ({ c with underway := some (wake, point) }, { w with outside })
  /-- A fetch comes to its end. -/
  | publish (c : LiveCache ρ) {w : World σ} {result : Except FetchError Pool} {outside : σ} :
    Goes f forced c w.now w.outside (.done result) outside →
    Move f forced (c, w) ({ c with underway := none }.publish result { w with outside })
  /-- A background fetch breaks down, and with it the background work. -/
  | crash (c : LiveCache ρ) {w : World σ} {outside : σ} : forced = false →
    Goes f forced c w.now w.outside .crashed outside →
    Move f forced (c, w) (c.close, { w with outside })
  /-- A fetch that was asked for breaks down. -/
  | fail (c : LiveCache ρ) {w : World σ} {outside : σ} : forced = true →
    Goes f forced c w.now w.outside .crashed outside →
    Move f forced (c, w) ({ c with underway := none }, { w with outside })

/-- What several steps can do, all in the background or all for who asked. -/
abbrev MovesFor (f : Fetcher σ ρ) (forced : Bool) :
    LiveCache ρ × World σ → LiveCache ρ × World σ → Prop :=
  Relation.ReflTransGen (Move f forced)

/-- What several steps can do. -/
abbrev Moves (f : Fetcher σ ρ) : LiveCache ρ × World σ → LiveCache ρ × World σ → Prop :=
  Relation.ReflTransGen fun a b => ∃ forced, Move f forced a b

variable {f : Fetcher σ ρ} {forced : Bool}

theorem MovesFor.moves {a b : LiveCache ρ × World σ} (h : MovesFor f forced a b) : Moves f a b :=
  Relation.ReflTransGen.mono (fun _ _ (hm : Move f forced _ _) => ⟨forced, hm⟩) a b h

theorem Goes.fetch {c : LiveCache ρ} {now : Instant} {s s' : σ} {step : FetchStep ρ}
    (h : Goes f forced c now s step s') : f.Goes now s step s' := by
  cases h with
  | begin _ _ => exact .begin
  | resume _ => exact .resume _

theorem Later.le {c : LiveCache ρ} {now time : Instant} (h : Later c now time) : now ≤ time := by
  cases h with
  | after d => exact Instant.le_plus now d
  | awake _ => exact Instant.le_latest now _

theorem MovesFor.one {a b : LiveCache ρ × World σ} (h : Move f forced a b) :
    MovesFor f forced a b :=
  Relation.ReflTransGen.single h

theorem Move.withTicker {c : LiveCache ρ} {t t' : Ticker} (ht : c.ticker = some t)
    (hperiod : t'.period = t.period) (waiting : Bool) (w : World σ) :
    Move f forced (c, w) ({ c with ticker := some t', waiting }, w) := by
  refine .schedule w ⟨rfl, rfl, rfl, rfl, ?_, fun _ => ?_⟩ (.inl rfl)
  · rw [ht, Option.map_some, Option.map_some, hperiod]
  · rw [isOpen, ht]
    rfl

theorem follow_moves (c : LiveCache ρ) {w : World σ} {step : FetchStep ρ} {outside : σ}
    (h : Goes f false c w.now w.outside step outside) :
    MovesFor f false (c, w) (c.follow step { w with outside }) := by
  cases step with
  | done result => exact .one (.publish c h)
  | wait wake point => exact .one (.wait c h)
  | crashed => exact .one (.crash c rfl h)

/-- Whatever was under way makes no difference to what a step leads to. -/
theorem follow_withUnderway (c : LiveCache ρ) (underway : Option (Instant × ρ))
    (step : FetchStep ρ) (w : World σ) : { c with underway }.follow step w = c.follow step w := by
  cases step with
  | done result => rfl
  | wait wake point => rfl
  | crashed => rfl

theorem follow_withoutWaiting (c : LiveCache ρ) (step : FetchStep ρ) (w : World σ) :
    { c with waiting := false }.follow step w =
      ({ (c.follow step w).1 with waiting := false }, (c.follow step w).2) := by
  cases step with
  | done result => rfl
  | wait wake point => rfl
  | crashed => rfl

theorem beginRefresh_moves (c : LiveCache ρ) (w : World σ) (hu : c.underway = none)
    (hopen : c.isOpen = true) : MovesFor f false (c, w) (c.beginRefresh f w) :=
  follow_moves c (.begin hu hopen)

theorem resumeRefresh_moves (c : LiveCache ρ) (w : World σ) :
    MovesFor f false (c, w) (c.resumeRefresh f w) := by
  unfold resumeRefresh
  split
  · exact .refl
  · rename_i hu
    split
    · exact follow_moves c (.resume hu)
    · exact .refl

theorem beginReady_moves (c : LiveCache ρ) (w : World σ) :
    MovesFor f false (c, w) (c.beginReady f w) := by
  unfold beginReady
  split
  · exact .refl
  · rename_i hidle
    have hu : c.underway = none := by simpa using hidle
    split
    · rename_i hwaiting
      -- the tick was taken: the refresh begins, and then none is waited with any more
      have hopen : c.isOpen = true := by rw [isOpen, hwaiting, Bool.or_true]
      have hbegun := beginRefresh_moves (f := f) c w hu hopen
      unfold beginRefresh at hbegun ⊢
      simp only [follow_withoutWaiting]
      exact hbegun.tail
        (.schedule _ ⟨rfl, rfl, rfl, rfl, rfl, fun h => by cases h⟩ (.inl rfl))
    · split
      · exact .refl
      · rename_i t ht
        split
        · have hfired : MovesFor f false (c, w) ({ c with ticker := some (t.fire w.now) }, w) :=
            .one (.withTicker ht (t.period_fire w.now) c.waiting w)
          exact hfired.trans (beginRefresh_moves _ w hu rfl)
        · exact .refl

/-- **The background work that is ready.** -/
theorem settle_moves (c : LiveCache ρ) (w : World σ) :
    MovesFor f false (c, w) (c.settle f w) := by
  have hresumed : MovesFor f false (c, w) (c.resumeRefresh f w) := resumeRefresh_moves c w
  unfold settle
  simp only
  split
  · exact (hresumed.trans (beginReady_moves _ _)).trans (beginReady_moves _ _)
  · exact hresumed.trans (beginReady_moves _ _)

theorem finish_moves (c : LiveCache ρ) {w : World σ} {step : FetchStep ρ} {outside : σ}
    (h : Goes f forced c w.now w.outside step outside) (waits : Nat) :
    let p := f.finish waits step w.now outside
    ∃ underway s,
      MovesFor f forced (c, w) ({ c with underway }, { w with now := p.time, outside := s }) ∧
      Goes f forced { c with underway } p.time s p.step p.outside := by
  induction waits generalizing c w step outside with
  | zero =>
    cases step with
    | done result => exact ⟨c.underway, w.outside, .refl, h⟩
    | wait wake point => exact ⟨c.underway, w.outside, .refl, h⟩
    | crashed => exact ⟨c.underway, w.outside, .refl, h⟩
  | succ waits ih =>
    cases step with
    | done result => exact ⟨c.underway, w.outside, .refl, h⟩
    | crashed => exact ⟨c.underway, w.outside, .refl, h⟩
    | wait wake point =>
      let waiting : LiveCache ρ := { c with underway := some (wake, point) }
      have hwaits : MovesFor f forced (c, w) (waiting, { w with outside }) := .one (.wait c h)
      have hawake := hwaits.tail (.later waiting _ (w.now.latest wake) (.awake rfl))
      obtain ⟨underway, s, hmoves, hgoes⟩ := ih waiting
        (w := { w with now := w.now.latest wake, outside }) (.resume rfl)
      exact ⟨underway, s, hawake.trans hmoves, hgoes⟩

theorem drain_moves (c : LiveCache ρ) (w : World σ) :
    MovesFor f false (c, w) (c.drain f w) := by
  unfold drain
  split
  · exact .refl
  · rename_i wake point hu
    generalize Fetcher.patience = waits
    cases waits with
    | zero =>
      show MovesFor f false (c, w) ({ c with underway := some (wake, point) }, w)
      rw [← hu]
    | succ waits =>
      have hawake : MovesFor f false (c, w) (c, w.atTime (w.now.latest wake)) :=
        .one (.later c w _ (.awake hu))
      obtain ⟨underway, s, hmoves, hgoes⟩ := finish_moves c (w := w.atTime (w.now.latest wake))
        (.resume (f := f) hu) waits
      have hlast := (hawake.trans hmoves).trans (follow_moves _ hgoes)
      rw [follow_withUnderway] at hlast
      exact hlast

theorem takeTick_moves (c : LiveCache ρ) (w : World σ) (start stop : Instant) :
    MovesFor f forced (c, w) (c.takeTick start stop, w) := by
  unfold takeTick
  split
  · exact .refl
  · rename_i t ht
    split
    · exact .one (.withTicker ht (t.period_fire _) true w)
    · exact .refl

theorem underway_takeTick (c : LiveCache ρ) (start stop : Instant) :
    (c.takeTick start stop).underway = c.underway := by
  unfold takeTick
  split
  · rfl
  · split
    · rfl
    · rfl

/-- A fetch that was asked for comes to its last step, while no other is under way. Without an
outcome it leaves the cache as it was. -/
theorem run_cases {c : LiveCache ρ} (hu : c.underway = none) (w : World σ) :
    let p := f.run w.now w.outside
    let ended : World σ := { w with now := p.time, outside := p.outside }
    (∀ result, p.step = .done result → ∃ before outside, MovesFor f true (c, w) before ∧
        Goes f true before.1 before.2.now before.2.outside (.done result) outside ∧
        c.publish result ended =
          { before.1 with underway := none }.publish result { before.2 with outside }) ∧
      ((∀ result, p.step ≠ .done result) → MovesFor f true (c, w) (c, ended)) := by
  have hbegins : Goes f true c w.now w.outside (f.begin w.now w.outside).1
      (f.begin w.now w.outside).2 := .begin hu rfl
  obtain ⟨underway, s, hfinished, hlast⟩ := finish_moves c hbegins Fetcher.patience
  have hmoves : MovesFor f true (c, w)
      ({ c with underway }, { w with now := (f.run w.now w.outside).time, outside := s }) :=
    hfinished
  have hgoes : Goes f true { c with underway } (f.run w.now w.outside).time s
      (f.run w.now w.outside).step (f.run w.now w.outside).outside := hlast
  have hidle : { c with underway := none } = c := by rw [← hu]
  generalize f.run w.now w.outside = progress at hmoves hgoes
  obtain ⟨step, stop, outside⟩ := progress
  let before : World σ := { w with now := stop, outside := s }
  cases step with
  | done result =>
    refine ⟨?_, fun h => absurd rfl (h result)⟩
    rintro _ ⟨⟩
    exact ⟨({ c with underway }, before), outside, hmoves, hgoes,
      congrArg (publish · result { w with now := stop, outside }) hidle.symm⟩
  | wait wake point =>
    refine ⟨nofun, fun _ => ?_⟩
    have hwaiting : c.waiting = true → c.isOpen = true := fun h => by
      rw [isOpen, h, Bool.or_true]
    have hgivesUp : Reschedules { c with underway := some (wake, point) } c :=
      ⟨rfl, rfl, rfl, rfl, rfl, hwaiting⟩
    exact (hmoves.tail (.wait (w := before) _ hgoes)).tail
      (.schedule _ hgivesUp (.inr ⟨rfl, hu⟩))
  | crashed =>
    refine ⟨nofun, fun _ => ?_⟩
    have hended := hmoves.tail (.fail (w := before) _ rfl hgoes)
    change MovesFor f true (c, w) ({ c with underway := none }, _) at hended
    rwa [hidle] at hended

/-- **A fetch that was asked for.** The one under way comes to its end, or never does. Then the fetch
comes to its last step: it is answered by its own outcome, or leaves the cache as it was. -/
theorem force_cases (c : LiveCache ρ) (w : World σ) :
    ((c.force f w).1 = none ∧ MovesFor f false (c, w) (c.force f w).2) ∨
    ∃ ready, MovesFor f false (c, w) ready ∧ ready.1.underway = none ∧
      ((∃ result before outside, (c.force f w).1 = some result ∧ MovesFor f true ready before ∧
          Goes f true before.1 before.2.now before.2.outside (.done result) outside ∧
          (c.force f w).2 =
            { before.1 with underway := none }.publish result { before.2 with outside }) ∨
        (c.force f w).1 = none ∧ (c.force f w).2.1.underway = none ∧
          MovesFor f true ready (c.force f w).2) := by
  have hdrained : MovesFor f false (c, w) (c.drain f w) := drain_moves c w
  unfold force
  generalize c.drain f w = drained at hdrained
  obtain ⟨c', w'⟩ := drained
  simp only
  split
  · exact .inl ⟨rfl, hdrained⟩
  · rename_i hnone
    have hidle : (c'.takeTick w'.now (f.run w'.now w'.outside).time).underway = none :=
      (underway_takeTick c' _ _).trans (by simpa using hnone)
    have htaken := hdrained.trans (takeTick_moves c' w' w'.now (f.run w'.now w'.outside).time)
    obtain ⟨hdone, hnever⟩ := run_cases (f := f) hidle w'
    refine .inr ⟨_, htaken, hidle, ?_⟩
    split
    · rename_i result hstep
      obtain ⟨before, outside, hmoves, hgoes, heq⟩ := hdone result hstep
      exact .inl ⟨result, before, outside, rfl, hmoves, hgoes, heq⟩
    · rename_i hstep
      exact .inr ⟨rfl, hidle, hnever hstep⟩

theorem force_moves (c : LiveCache ρ) (w : World σ) : Moves f (c, w) (c.force f w).2 := by
  rcases force_cases (f := f) c w with
    ⟨_, h⟩ | ⟨ready, hready, _, ⟨result, before, outside, _, hbefore, hgoes, heq⟩ | ⟨_, _, h⟩⟩
  · exact h.moves
  · rw [heq]
    have hforced : MovesFor f true ready _ := hbefore.tail (.publish _ hgoes)
    exact hready.moves.trans hforced.moves
  · exact hready.moves.trans h.moves

/-- **The wait for the first fetch.** -/
theorem awaitFirst_moves (c : LiveCache ρ) (w : World σ) :
    MovesFor f false (c, w) (c.awaitFirst f w) := by
  have hsettled : MovesFor f false (c, w) (c.settle f w) := settle_moves c w
  have hdrained := hsettled.trans (drain_moves (c.settle f w).1 (c.settle f w).2)
  unfold awaitFirst
  simp only
  split
  · exact hsettled
  · split
    · exact hdrained.trans (settle_moves _ _)
    · exact hdrained

/-- **Time passes.** -/
theorem advance_moves (stop : LiveCache ρ → Bool) (nanos : Nat) (c : LiveCache ρ)
    (w : World σ) : MovesFor f false (c, w) (c.advance f stop nanos w) := by
  induction nanos using Nat.strongRecOn generalizing c w with
  | ind nanos ih =>
    have hlater (d : Span) : MovesFor f false (c, w) (c, w.atTime (w.now.plus d)) :=
      .one (.later c w _ (.after d))
    unfold advance
    split
    · exact .refl
    · split
      · exact hlater _
      · rename_i time htime
        simp only
        split
        · exact hlater _
        · have hpos := Nat.le_max_left 1 (time.since w.now).toNat
          exact ((hlater _).trans (settle_moves c _)).trans (ih _ (by omega) _ _)

end LiveCache

/-! ## Refreshes -/

namespace LiveCache

variable {σ ρ : Type} {f : Fetcher σ ρ}

/-- Refreshes have gone on: the cache has what they gave, and the ticker has its period. -/
structure Refreshes (f : Fetcher σ ρ) (before after : LiveCache ρ × World σ) : Prop where
  cache : ∃ outcomes : List (Except FetchError Pool), (∀ o ∈ outcomes, f.Gives o) ∧
    after.1.cache = outcomes.foldl Cache.publish before.1.cache
  period : ∀ t, after.1.ticker = some t → ∃ t', before.1.ticker = some t' ∧ t.period = t'.period
  changes : after.2.stateChanges = before.2.stateChanges

namespace Refreshes

variable {a b c : LiveCache ρ × World σ}

theorem of_same (hc : b.1.cache = a.1.cache)
    (ht : ∀ t, b.1.ticker = some t → ∃ t', a.1.ticker = some t' ∧ t.period = t'.period)
    (hw : b.2.stateChanges = a.2.stateChanges) : Refreshes f a b :=
  ⟨⟨[], fun _ h => (by cases h), hc⟩, ht, hw⟩

theorem refl (a : LiveCache ρ × World σ) : Refreshes f a a :=
  of_same rfl (fun t h => ⟨t, h, rfl⟩) rfl

theorem trans (h : Refreshes f a b) (h' : Refreshes f b c) : Refreshes f a c where
  cache := by
    obtain ⟨first, hfirst, hb⟩ := h.cache
    obtain ⟨rest, hrest, hc⟩ := h'.cache
    refine ⟨first ++ rest, fun o ho => ?_, by rw [hc, hb, List.foldl_append]⟩
    rcases List.mem_append.1 ho with ho | ho
    · exact hfirst o ho
    · exact hrest o ho
  period t ht := by
    obtain ⟨t', ht', hperiod⟩ := h'.period t ht
    obtain ⟨t'', ht'', hperiod'⟩ := h.period t' ht'
    exact ⟨t'', ht'', hperiod.trans hperiod'⟩
  changes := h'.changes.trans h.changes

end Refreshes

theorem publish_ok (c : LiveCache ρ) (pool : Pool) (w : World σ) :
    c.publish (.ok pool) w =
      ({ c with cache := c.cache.publish (.ok pool), fetched := true }, c.save pool w) :=
  rfl

theorem publish_error (c : LiveCache ρ) (e : FetchError) (w : World σ) :
    c.publish (.error e) w =
      ({ c with cache := c.cache.publish (.error e), fetched := true },
        if c.announces then w.tell [Cache.alert e w.now] else w) :=
  rfl

theorem world_publish (c : LiveCache ρ) (result : Except FetchError Pool) (w : World σ) :
    (c.publish result w).2.now = w.now ∧ (c.publish result w).2.outside = w.outside := by
  cases result with
  | ok pool =>
    rw [publish_ok, save]
    split
    · exact ⟨rfl, rfl⟩
    · exact ⟨rfl, rfl⟩
  | error e =>
    rw [publish_error]
    simp only
    split
    · exact ⟨rfl, rfl⟩
    · exact ⟨rfl, rfl⟩

theorem world_follow (c : LiveCache ρ) (step : FetchStep ρ) (w : World σ) :
    (c.follow step w).2.now = w.now ∧ (c.follow step w).2.outside = w.outside := by
  cases step with
  | done result => exact world_publish _ result w
  | wait wake point => exact ⟨rfl, rfl⟩
  | crashed => exact ⟨rfl, rfl⟩

theorem stateChanges_save (c : LiveCache ρ) (pool : Pool) (w : World σ) :
    (c.save pool w).stateChanges = w.stateChanges := by
  unfold save
  split
  · rfl
  · rfl

theorem stateChanges_publish (c : LiveCache ρ) (result : Except FetchError Pool) (w : World σ) :
    (c.publish result w).2.stateChanges = w.stateChanges := by
  cases result with
  | ok pool => exact stateChanges_save c pool w
  | error e =>
    rw [publish_error]
    simp only
    split
    · exact w.stateChanges_tell_none rfl
    · rfl

theorem Move.refreshes {a b : LiveCache ρ × World σ} {forced : Bool} (h : Move f forced a b) :
    Refreshes f a b := by
  cases h with
  | schedule w hc _ =>
    refine .of_same hc.cache (fun t ht => ?_) rfl
    obtain ⟨t', ht', heq⟩ := Option.map_eq_some_iff.1
      (hc.period.symm.trans (congrArg (Option.map Ticker.period) ht))
    exact ⟨t', ht', heq.symm⟩
  | later c w time _ => exact .of_same rfl (fun t ht => ⟨t, ht, rfl⟩) rfl
  | wait c _ => exact .of_same rfl (fun t ht => ⟨t, ht, rfl⟩) rfl
  | publish c hgoes =>
    refine ⟨⟨[_], fun o ho => ?_, rfl⟩, fun t ht => ⟨t, ht, rfl⟩, stateChanges_publish _ _ _⟩
    rw [List.mem_singleton.1 ho]
    exact hgoes.fetch.takes
  | crash c _ _ => exact .of_same rfl (fun t ht => by cases ht) rfl
  | fail c _ _ => exact .of_same rfl (fun t ht => ⟨t, ht, rfl⟩) rfl

/-- **All that a cache does by itself is that refreshes go on.** -/
theorem Moves.refreshes {a b : LiveCache ρ × World σ} (h : Moves f a b) : Refreshes f a b := by
  induction h with
  | refl => exact .refl _
  | tail _ hm ih =>
    obtain ⟨_, hm⟩ := hm
    exact ih.trans hm.refreshes

theorem settle_refreshes (c : LiveCache ρ) (w : World σ) : Refreshes f (c, w) (c.settle f w) :=
  (settle_moves c w).moves.refreshes

theorem force_refreshes (c : LiveCache ρ) (w : World σ) : Refreshes f (c, w) (c.force f w).2 :=
  (force_moves c w).refreshes

theorem awaitFirst_refreshes (c : LiveCache ρ) (w : World σ) :
    Refreshes f (c, w) (c.awaitFirst f w) :=
  (awaitFirst_moves c w).moves.refreshes

end LiveCache

end PoolKeeper
