import PoolKeeper.Proofs.LiveCache

/-!
# Caches in worlds that are alike

The same cache goes the same way in two worlds, as long as fetches, the clock, saving and telling do
not tell them apart.

* `Fetcher.Agree`: what two worlds have in common for that;
* `LiveCache.Alike`: the same cache in both;
* **`LiveCache.Alike.settle`**, **`LiveCache.Alike.force`**, **`LiveCache.Alike.awaitFirst`**: it
  stays the same in both, whatever it does.
-/

namespace PoolKeeper

variable {σ τ ρ : Type}

/-- A relation of worlds that fetches, the clock, saving and telling keep. Two fetches in related
worlds take the same steps. -/
structure Fetcher.Agree (f : Fetcher σ ρ) (g : Fetcher τ ρ) (store : Option Store)
    (R : World σ → World τ → Prop) : Prop where
  now {v : World σ} {w : World τ} : R v w → v.now = w.now
  later {v : World σ} {w : World τ} (time : Instant) : R v w → R (v.atTime time) (w.atTime time)
  tell {v : World σ} {w : World τ} (events : List Event) : R v w → R (v.tell events) (w.tell events)
  save {v : World σ} {w : World τ} {c : LiveCache ρ} (pool : Pool) : c.store = store → R v w →
    R (c.save pool v) (c.save pool w)
  begin {v : World σ} {w : World τ} : R v w →
    (f.begin v.now v.outside).1 = (g.begin w.now w.outside).1 ∧
      R { v with outside := (f.begin v.now v.outside).2 }
        { w with outside := (g.begin w.now w.outside).2 }
  resume {v : World σ} {w : World τ} (point : ρ) : R v w →
    (f.resume point v.now v.outside).1 = (g.resume point w.now w.outside).1 ∧
      R { v with outside := (f.resume point v.now v.outside).2 }
        { w with outside := (g.resume point w.now w.outside).2 }

namespace LiveCache

variable {f : Fetcher σ ρ} {g : Fetcher τ ρ} {store : Option Store} {R : World σ → World τ → Prop}

/-- The same cache in related worlds. -/
structure Alike (store : Option Store) (R : World σ → World τ → Prop) (x : LiveCache ρ × World σ)
    (y : LiveCache ρ × World τ) : Prop where
  cache : x.1 = y.1
  store : x.1.store = store
  world : R x.2 y.2

namespace Alike

variable {c : LiveCache ρ} {v : World σ} {w : World τ}

/-! ## Steps of a fetch -/

theorem publish (h : f.Agree g store R) (hs : c.store = store) (hw : R v w)
    (result : Except FetchError Pool) :
    Alike store R (c.publish result v) (c.publish result w) where
  cache := rfl
  store := hs
  world := by
    cases result with
    | ok pool => exact h.save pool hs hw
    | error e =>
      simp only [LiveCache.publish_error]
      rw [h.now hw]
      split
      · exact h.tell _ hw
      · exact hw

theorem follow (h : f.Agree g store R) (hs : c.store = store) (hw : R v w) (step : FetchStep ρ) :
    Alike store R (c.follow step v) (c.follow step w) := by
  cases step with
  | done result => exact publish (c := { c with underway := none }) h hs hw result
  | wait wake point => exact ⟨rfl, hs, hw⟩
  | crashed => exact ⟨rfl, hs, hw⟩

theorem took (h : f.Agree g store R) (hs : c.store = store) {a : FetchStep ρ × σ}
    {b : FetchStep ρ × τ} (hstep : a.1 = b.1)
    (hw : R { v with outside := a.2 } { w with outside := b.2 }) :
    Alike store R (c.follow a.1 { v with outside := a.2 })
      (c.follow b.1 { w with outside := b.2 }) := by
  rw [hstep]
  exact follow h hs hw b.1

theorem beginRefresh (h : f.Agree g store R) (hs : c.store = store) (hw : R v w) :
    Alike store R (c.beginRefresh f v) (c.beginRefresh g w) :=
  took h hs (h.begin hw).1 (h.begin hw).2

theorem resumeRefresh (h : f.Agree g store R) (hs : c.store = store) (hw : R v w) :
    Alike store R (c.resumeRefresh f v) (c.resumeRefresh g w) := by
  unfold LiveCache.resumeRefresh
  split
  · exact ⟨rfl, hs, hw⟩
  · rename_i wake point hu
    have htook := took h hs (h.resume point hw).1 (h.resume point hw).2
    by_cases hwake : wake ≤ w.now
    · rw [if_pos (h.now hw ▸ hwake), if_pos hwake]
      exact htook
    · rw [if_neg (h.now hw ▸ hwake), if_neg hwake]
      exact ⟨rfl, hs, hw⟩

/-! ## Background work -/

theorem beginReady (h : f.Agree g store R) (hs : c.store = store) (hw : R v w) :
    Alike store R (c.beginReady f v) (c.beginReady g w) := by
  unfold LiveCache.beginReady
  rw [h.now hw]
  split
  · exact ⟨rfl, hs, hw⟩
  · split
    · exact beginRefresh (c := { c with waiting := false }) h hs hw
    · split
      · exact ⟨rfl, hs, hw⟩
      · split
        · exact beginRefresh (c := { c with ticker := _ }) h hs hw
        · exact ⟨rfl, hs, hw⟩

theorem andThen {x : LiveCache ρ × World σ} {y : LiveCache ρ × World τ} (h : Alike store R x y)
    {F : LiveCache ρ → World σ → LiveCache ρ × World σ}
    {G : LiveCache ρ → World τ → LiveCache ρ × World τ}
    (hnext : ∀ {c v w}, c.store = store → R v w → Alike store R (F c v) (G c w)) :
    Alike store R (F x.1 x.2) (G y.1 y.2) := by
  rw [← h.cache]
  exact hnext h.store h.world

/-- **The background work that is ready.** -/
theorem settle (h : f.Agree g store R) (hs : c.store = store) (hw : R v w) :
    Alike store R (c.settle f v) (c.settle g w) := by
  have hwaited : ∀ {c : LiveCache ρ} {v w}, c.store = store → R v w →
      Alike store R (if c.waiting then c.beginReady f v else (c, v))
        (if c.waiting then c.beginReady g w else (c, w)) := by
    intro c v w hs hw
    split
    · exact beginReady h hs hw
    · exact ⟨rfl, hs, hw⟩
  exact ((resumeRefresh h hs hw).andThen hwaited).andThen (beginReady h)

/-! ## Fetches to their end -/

theorem finish (h : f.Agree g store R) (hw : R v w) (waits : Nat) (step : FetchStep ρ) :
    let p := f.finish waits step v.now v.outside
    let q := g.finish waits step w.now w.outside
    p.step = q.step ∧ p.time = q.time ∧
      R { v with now := p.time, outside := p.outside }
        { w with now := q.time, outside := q.outside } := by
  induction waits generalizing v w step with
  | zero =>
    cases step with
    | done result => exact ⟨rfl, h.now hw, hw⟩
    | wait wake point => exact ⟨rfl, h.now hw, hw⟩
    | crashed => exact ⟨rfl, h.now hw, hw⟩
  | succ waits ih =>
    cases step with
    | done result => exact ⟨rfl, h.now hw, hw⟩
    | crashed => exact ⟨rfl, h.now hw, hw⟩
    | wait wake point =>
      have hlater := h.later (v.now.latest wake) hw
      have htime : w.now.latest wake = v.now.latest wake := by rw [h.now hw]
      obtain ⟨hstep, hworld⟩ := h.resume point hlater
      have hrest := ih hworld (f.resume point (v.now.latest wake) v.outside).1
      simp only [Fetcher.finish, htime]
      rw [show (g.resume point (v.now.latest wake) w.outside).1 = _ from hstep.symm]
      exact hrest

theorem run (h : f.Agree g store R) (hw : R v w) :
    let p := f.run v.now v.outside
    let q := g.run w.now w.outside
    p.step = q.step ∧ p.time = q.time ∧
      R { v with now := p.time, outside := p.outside }
        { w with now := q.time, outside := q.outside } := by
  obtain ⟨hstep, hworld⟩ := h.begin hw
  have hfinish := finish h hworld Fetcher.patience (f.begin v.now v.outside).1
  simp only [Fetcher.run, ← hstep]
  exact hfinish

theorem drain (h : f.Agree g store R) (hs : c.store = store) (hw : R v w) :
    Alike store R (c.drain f v) (c.drain g w) := by
  unfold LiveCache.drain
  split
  · exact ⟨rfl, hs, hw⟩
  · rename_i wake point hu
    obtain ⟨hstep, htime, hworld⟩ := finish h hw Fetcher.patience (.wait wake point)
    have hfollow := follow h hs hworld
      (f.finish Fetcher.patience (.wait wake point) v.now v.outside).step
    rw [hstep] at hfollow
    simp only [hstep]
    exact hfollow

theorem store_takeTick (c : LiveCache ρ) (start stop : Instant) :
    (c.takeTick start stop).store = c.store := by
  unfold takeTick
  split
  · rfl
  · split
    · rfl
    · rfl

/-- **A fetch that was asked for.** It gives the same answer in both worlds. -/
theorem force (h : f.Agree g store R) (hs : c.store = store) (hw : R v w) :
    (c.force f v).1 = (c.force g w).1 ∧ Alike store R (c.force f v).2 (c.force g w).2 := by
  have hdrained := drain h hs hw
  unfold LiveCache.force
  generalize c.drain f v = x at hdrained
  generalize c.drain g w = y at hdrained
  obtain ⟨c, v⟩ := x
  obtain ⟨_, w⟩ := y
  obtain ⟨rfl, hs, hw⟩ := hdrained
  simp only
  split
  · exact ⟨rfl, rfl, hs, hw⟩
  · have hrun := run h hw
    have hnow := h.now hw
    generalize f.run v.now v.outside = p at hrun
    generalize g.run w.now w.outside = q at hrun
    obtain ⟨step, stop, left⟩ := p
    obtain ⟨_, _, right⟩ := q
    obtain ⟨rfl, rfl, hw⟩ := hrun
    have hs := (store_takeTick c v.now stop).trans hs
    rw [← hnow]
    cases step with
    | done result => exact ⟨rfl, publish h hs hw result⟩
    | wait wake point => exact ⟨rfl, rfl, hs, hw⟩
    | crashed => exact ⟨rfl, rfl, hs, hw⟩

/-- **The wait for the first fetch.** -/
theorem awaitFirst (h : f.Agree g store R) (hs : c.store = store) (hw : R v w) :
    Alike store R (c.awaitFirst f v) (c.awaitFirst g w) := by
  have hended : ∀ {c : LiveCache ρ} {v w}, c.store = store → R v w →
      Alike store R (if c.fetched then c.settle f v else (c, v))
        (if c.fetched then c.settle g w else (c, w)) := by
    intro c v w hs hw
    split
    · exact settle h hs hw
    · exact ⟨rfl, hs, hw⟩
  have hawaited : ∀ {c : LiveCache ρ} {v w}, c.store = store → R v w →
      Alike store R
        (if c.fetched then (c, v)
          else if (c.drain f v).1.fetched then (c.drain f v).1.settle f (c.drain f v).2
          else c.drain f v)
        (if c.fetched then (c, w)
          else if (c.drain g w).1.fetched then (c.drain g w).1.settle g (c.drain g w).2
          else c.drain g w) := by
    intro c v w hs hw
    split
    · exact ⟨rfl, hs, hw⟩
    · exact (drain h hs hw).andThen hended
  exact (settle h hs hw).andThen hawaited

end Alike

end LiveCache

end PoolKeeper
