import PoolKeeper.Proofs.Attempts
import PoolKeeper.Proofs.Idle

/-!
# Fetches that always end

While no list call breaks down and every fetch ends, the background refreshes go on.

* `Fetcher.Sturdy`: fetches that never break down and always end;
* `Provider.Sturdy`: a provider whose fetches are so as long as it is called in time and with fit
  configurations; **`Provider.Sturdy.retrying`**: by a measure of the attempts that are left;
* `LiveCache.Sturdy`: the background refreshes go on; **`LiveCache.Sturdy.force`**: who asks for a
  fetch gets it, and **`LiveCache.Sturdy.awaitFirst`**: who waits for the first one is told.
-/

namespace PoolKeeper

variable {σ ρ : Type}

/-! ## Fetches -/

namespace Fetcher

variable {f : Fetcher σ ρ} {good : σ → Prop} {now : Instant} {s s' : σ}

/-- As long as all outside is as it should be, the fetch never breaks down, and ends. -/
structure Sturdy (f : Fetcher σ ρ) (good : σ → Prop) : Prop where
  goes {now : Instant} {s s' : σ} {step : FetchStep ρ} : good s → f.Goes now s step s' →
    good s' ∧ step ≠ .crashed
  ends {now : Instant} {s : σ} (wake : Instant) (point : ρ) : good s →
    ∃ result, (f.finish patience (.wait wake point) now s).step = .done result

theorem finish_done (f : Fetcher σ ρ) (waits : Nat) (result : Except FetchError Pool)
    (now : Instant) (s : σ) : f.finish waits (.done result) now s = ⟨.done result, now, s⟩ := by
  cases waits with
  | zero => rfl
  | succ waits => rfl

/-- A fetch has a result. -/
theorem Sturdy.run (hf : f.Sturdy good) (hs : good s) :
    ∃ result, (f.run now s).step = .done result := by
  have hbegun : good (f.begin now s).2 ∧ (f.begin now s).1 ≠ .crashed := hf.goes hs .begin
  rw [Fetcher.run]
  generalize f.begin now s = begun at hbegun
  obtain ⟨step, s'⟩ := begun
  cases step with
  | done result => exact ⟨result, congrArg Progress.step (f.finish_done patience result now s')⟩
  | wait wake point => exact hf.ends wake point hbegun.1
  | crashed => exact absurd rfl hbegun.2

end Fetcher

namespace RetryPolicy

variable {policy : RetryPolicy} {number : Nat} {now : Instant} {answer : Listing}

theorem conclude_of_answered (h : answer ≠ .error .crashed) :
    ∃ result, conclude number now answer = .done result := by
  rcases answer with (e | _) | machines
  · exact ⟨_, rfl⟩
  · exact absurd rfl h
  · exact ⟨_, rfl⟩

theorem after_ne_crashed (hroom : policy.maxRetries + 1 < attemptLimit)
    (h : answer ≠ .error .crashed) : policy.after number now answer ≠ .crashed := by
  intro hcrashed
  rcases after_eq_crashed hcrashed with heq | ⟨hpassing, hfull⟩
  · exact h heq
  · have hlast : policy.maxRetries < number := by omega
    have hdone : ∃ result, conclude number now answer = .done result := conclude_of_answered h
    obtain ⟨result, hdone⟩ := hdone
    rw [after_eq_conclude (.inr hlast), hdone] at hcrashed
    cases hcrashed

theorem after_of_answered (hroom : policy.maxRetries + 1 < attemptLimit)
    (hnot : ¬ policy.Repeats number answer) (h : answer ≠ .error .crashed) :
    ∃ result, policy.after number now answer = .done result := by
  cases hstep : policy.after number now answer with
  | done result => exact ⟨result, rfl⟩
  | wait wake next => exact absurd hstep (after_ne_wait hnot)
  | crashed => exact absurd hstep (after_ne_crashed hroom h)

end RetryPolicy

/-- Whatever is asked of drivers in time, and whatever fit configuration is applied, all outside
stays as it should be. List calls do not break down, and the attempts of a fetch can be counted. -/
structure Provider.Sturdy (p : Provider σ) (timely : Instant → Prop) (fit : PoolConfig → Prop)
    (good : σ → Prop) : Prop where
  create (config : DriverConfig) {s : σ} : good s → good (p.create config s).2
  configure (d : DriverId) {config : PoolConfig} {now : Instant} {s : σ} : fit config →
    timely now → good s → good (p.configure d config.name config.driver now s).2
  list (d : DriverId) {now : Instant} {s : σ} : good s →
    good (p.list d now s).2 ∧ (p.list d now s).1 ≠ .error .crashed
  start (d : DriverId) (count : Nat) {now : Instant} {s : σ} : timely now → good s →
    good (p.start d count now s).2
  terminate (d : DriverId) (ids : List String) {now : Instant} {s : σ} : good s →
    good (p.terminate d ids now s).2
  attach (d : DriverId) (id : String) {now : Instant} {s : σ} : good s →
    good (p.attach d id now s).2
  detach (d : DriverId) (id : String) {now : Instant} {s : σ} : good s →
    good (p.detach d id now s).2
  setService (d : DriverId) (id : String) (service : ServiceState) {now : Instant} {s : σ} :
    good s → good (p.setService d id service now s).2
  setMembership (d : DriverId) (id : String) (membership : Membership) {now : Instant} {s : σ} :
    good s → good (p.setMembership d id membership now s).2
  room {config : PoolConfig} : fit config →
    config.fetch.retries.maxRetries + 1 < RetryPolicy.attemptLimit

namespace Provider.Sturdy

variable {p : Provider σ} {timely : Instant → Prop} {fit : PoolConfig → Prop} {good : σ → Prop}
  {d : DriverId} {config : PoolConfig}

theorem finish_ends (hp : p.Sturdy timely fit good) {policy : RetryPolicy}
    (hroom : policy.maxRetries + 1 < RetryPolicy.attemptLimit) {waits n : Nat} {now : Instant}
    {s : σ} (hs : good s) (h : policy.maxRetries + 1 - n < waits) (wake : Instant) :
    ∃ result,
      ((Fetcher.retrying p d policy).finish waits (.wait wake n) now s).step = .done result := by
  induction waits generalizing n now s wake with
  | zero => exact absurd h (Nat.not_lt_zero _)
  | succ waits ih =>
    let time := now.latest wake
    obtain ⟨hgood, hanswered⟩ : good (p.list d time s).2 ∧ (p.list d time s).1 ≠ .error .crashed :=
      hp.list d hs
    show ∃ result, ((Fetcher.retrying p d policy).finish waits
      (policy.after n time (p.list d time s).1) time (p.list d time s).2).step = .done result
    by_cases hagain : policy.Repeats n (p.list d time s).1
    · have hleft := hagain.left
      rw [hagain.after]
      exact ih hgood (by omega) _
    · rw [RetryPolicy.finish_of_not_repeats _ hagain]
      exact RetryPolicy.after_of_answered hroom hagain hanswered

/-- **Fetches from a sturdy provider** have their results. -/
theorem retrying (hp : p.Sturdy timely fit good) (d : DriverId) (hfit : fit config) :
    (Fetcher.retrying p d config.fetch.retries.policy).Sturdy good where
  goes hs hgoes := by
    cases hgoes with
    | begin => exact (hp.list d hs).imp_right (RetryPolicy.after_ne_crashed (hp.room hfit))
    | resume point => exact (hp.list d hs).imp_right (RetryPolicy.after_ne_crashed (hp.room hfit))
  ends wake point hs :=
    hp.finish_ends (hp.room hfit) hs (Nat.lt_of_le_of_lt (Nat.sub_le _ point) (hp.room hfit)) wake

end Provider.Sturdy

/-! ## Caches -/

namespace LiveCache

variable {f : Fetcher σ ρ} {good : σ → Prop} {a b : LiveCache ρ × World σ} {c : LiveCache ρ}
  {w : World σ}

/-- The background refreshes go on, and all outside is as it should be. -/
structure Sturdy (good : σ → Prop) (x : LiveCache ρ × World σ) : Prop where
  outside : good x.2.outside
  ticking : x.1.ticker.isSome = true

theorem Move.sturdy {forced : Bool} (h : Move f forced a b) (hf : f.Sturdy good)
    (ha : Sturdy good a) : Sturdy good b := by
  cases h with
  | schedule _ hc _ =>
    have hsome := congrArg Option.isSome hc.period
    rw [Option.isSome_map, Option.isSome_map] at hsome
    exact ⟨ha.outside, hsome.trans ha.ticking⟩
  | later _ _ _ _ => exact ⟨ha.outside, ha.ticking⟩
  | wait _ hgoes => exact ⟨(hf.goes ha.outside hgoes.fetch).1, ha.ticking⟩
  | publish c hgoes =>
    refine ⟨?_, ha.ticking⟩
    rw [(world_publish _ _ _).2]
    exact (hf.goes ha.outside hgoes.fetch).1
  | crash _ _ hgoes => exact absurd rfl (hf.goes ha.outside hgoes.fetch).2
  | fail _ _ hgoes => exact absurd rfl (hf.goes ha.outside hgoes.fetch).2

theorem Moves.sturdy (h : Moves f a b) (hf : f.Sturdy good) (ha : Sturdy good a) :
    Sturdy good b := by
  induction h with
  | refl => exact ha
  | tail _ hm ih =>
    obtain ⟨_, hm⟩ := hm
    exact hm.sturdy hf ih

theorem Sturdy.drain_ends (h : Sturdy good (c, w)) (hf : f.Sturdy good) {wake : Instant} {point : ρ}
    (hu : c.underway = some (wake, point)) :
    ∃ result w', c.drain f w = publish { c with underway := none } result w' := by
  obtain ⟨result, hdone⟩ : ∃ result,
      (f.finish Fetcher.patience (.wait wake point) w.now w.outside).step = .done result :=
    hf.ends wake point h.outside
  rw [drain, hu]
  simp only [hdone]
  exact ⟨result, _, rfl⟩

theorem Sturdy.underway_drain (h : Sturdy good (c, w)) (hf : f.Sturdy good) :
    (c.drain f w).1.underway = none := by
  cases hu : c.underway with
  | none =>
    rw [drain, hu]
    exact hu
  | some underway =>
    obtain ⟨result, w', heq⟩ := h.drain_ends hf hu
    rw [heq]
    rfl

/-- **Who asks for a fetch gets it.** -/
theorem Sturdy.force (h : Sturdy good (c, w)) (hf : f.Sturdy good) :
    (c.force f w).1.isSome = true := by
  have hdrained : Sturdy good (c.drain f w) := (drain_moves c w).moves.sturdy hf h
  have hidle := h.underway_drain hf
  unfold LiveCache.force
  generalize c.drain f w = drained at hdrained hidle
  obtain ⟨c', w'⟩ := drained
  obtain ⟨result, hdone⟩ : ∃ result, (f.run w'.now w'.outside).step = .done result :=
    hf.run hdrained.outside
  have hnone : c'.underway = none := hidle
  simp only [hnone, hdone]
  rfl

/-! ### The first fetch -/

theorem fetched_follow (h : c.fetched = true) (step : FetchStep ρ) (w : World σ) :
    (c.follow step w).1.fetched = true := by
  cases step with
  | done result => rfl
  | wait wake point => exact h
  | crashed => exact h

theorem fetched_beginRefresh (h : c.fetched = true) (f : Fetcher σ ρ) (w : World σ) :
    (c.beginRefresh f w).1.fetched = true :=
  fetched_follow h _ _

theorem fetched_beginReady (h : c.fetched = true) (f : Fetcher σ ρ) (w : World σ) :
    (c.beginReady f w).1.fetched = true := by
  unfold beginReady
  split
  · exact h
  · split
    · exact fetched_beginRefresh (c := { c with waiting := false }) h f w
    · split
      · exact h
      · rename_i t _
        split
        · exact fetched_beginRefresh (c := { c with ticker := some (t.fire w.now) }) h f w
        · exact h

theorem fetched_settle (h : c.fetched = true) (f : Fetcher σ ρ) (w : World σ) :
    (c.settle f w).1.fetched = true := by
  have hresumed : (c.resumeRefresh f w).1.fetched = true := by
    unfold resumeRefresh
    split
    · exact h
    · split
      · exact fetched_follow h _ _
      · exact h
  unfold settle
  simp only
  split
  · exact fetched_beginReady (fetched_beginReady hresumed f _) f _
  · exact fetched_beginReady hresumed f _

/-- A refresh that is due begins, when no other is under way. -/
theorem settle_of_due {t : Ticker} (hu : c.underway = none) (hw : c.waiting = false)
    (ht : c.ticker = some t) (hdue : t.due ≤ w.now) :
    c.settle f w = beginRefresh f { c with ticker := some (t.fire w.now) } w := by
  have hidle : ¬ c.underway.isSome = true := by rw [hu]; exact Bool.false_ne_true
  have hready : ¬ c.waiting = true := by rw [hw]; decide
  have hresumed : c.resumeRefresh f w = (c, w) := by rw [resumeRefresh, hu]
  rw [settle]
  simp only [hresumed, if_neg hready]
  rw [beginReady, if_neg hidle, if_neg hready, ht]
  simp only [if_pos hdue]

variable {t : Ticker}

theorem Sturdy.settle_of_due (h : Sturdy good (c, w)) (hf : f.Sturdy good) (hu : c.underway = none)
    (hw : c.waiting = false) (ht : c.ticker = some t) (hdue : t.due ≤ w.now) :
    (c.settle f w).1.fetched = true ∨
      ∃ wake point, (c.settle f w).1.underway = some (wake, point) := by
  have hfirst : good (f.begin w.now w.outside).2 ∧ (f.begin w.now w.outside).1 ≠ .crashed :=
    hf.goes h.outside .begin
  rw [LiveCache.settle_of_due hu hw ht hdue, beginRefresh]
  generalize f.begin w.now w.outside = begun at hfirst
  obtain ⟨step, outside⟩ := begun
  cases step with
  | done result => exact .inl rfl
  | wait wake point => exact .inr ⟨wake, point, rfl⟩
  | crashed => exact absurd rfl hfirst.2

/-- **The first fetch comes to its end**, and who waits for it is told. -/
theorem Sturdy.awaitFirst (h : Sturdy good (c, w)) (hf : f.Sturdy good) (hu : c.underway = none)
    (hw : c.waiting = false) (ht : c.ticker = some t) (hdue : t.due ≤ w.now) :
    (c.awaitFirst f w).1.fetched = true := by
  have hsettled : Sturdy good (c.settle f w) := (settle_moves c w).moves.sturdy hf h
  have hbegun := h.settle_of_due hf hu hw ht hdue
  unfold LiveCache.awaitFirst
  generalize c.settle f w = settled at hsettled hbegun
  obtain ⟨c', w'⟩ := settled
  simp only
  split
  · assumption
  · rename_i hwaits
    obtain ⟨wake, point, hunderway⟩ := hbegun.resolve_left hwaits
    obtain ⟨result, w'', hended⟩ := hsettled.drain_ends hf hunderway
    have hlast : (c'.drain f w').1.fetched = true := by
      rw [hended]
      rfl
    rw [if_pos hlast]
    exact fetched_settle hlast f _

end LiveCache

end PoolKeeper
