import PoolKeeper.Proofs.Attempts
import PoolKeeper.Proofs.Deeds

/-!
# Stations that go on, and stations that rest

While a controller is started its refreshes go on; while it is not, it leaves the machines alone.

* `Traced.Broke`: a list call has broken down; `Station.Alive`, **`Station.Does.alive`**,
  **`Station.respond_alive`**: the refreshes go on unless one has;
* `Request.manages`, **`Station.respond_refused`**: what is about the pool is refused while the
  controller is not started;
* `Traced.SetUp`, **`Station.respond_idle`**: without a start, drivers are made and configured at
  most.
-/

namespace PoolKeeper

variable {σ : Type}

/-! ## Calls that break down -/

/-- The call is a list call that broke down. -/
def Call.broke : Call → Bool
  | .list _ (.error .crashed) => true
  | _ => false

/-- The call is a list call whose failure may pass. -/
def Call.isPassing : Call → Bool
  | .list _ answer => answer.isPassing
  | _ => false

/-- How many list calls have failed in passing. -/
def Traced.failures (s : Traced σ) : Nat := s.calls.countP Call.isPassing

/-- A list call has broken down, or more have failed than the attempts of a fetch can be counted. -/
def Traced.Broke (s : Traced σ) : Prop :=
  (∃ call ∈ s.calls, call.broke = true) ∨ RetryPolicy.attemptLimit ≤ s.failures + 1

instance (s : Traced σ) : Decidable s.Broke :=
  inferInstanceAs (Decidable ((∃ call ∈ s.calls, call.broke = true) ∨ _ ≤ _))

theorem Traced.failures_mono {s s' : Traced σ} (hcalls : s.calls <+: s'.calls) :
    s.failures ≤ s'.failures :=
  hcalls.sublist.countP_le

theorem Traced.Broke.mono {s s' : Traced σ} (h : s.Broke) (hcalls : s.calls <+: s'.calls) :
    s'.Broke := by
  have hfailures := failures_mono hcalls
  rcases h with ⟨call, hcall, hbroke⟩ | hlimit
  · exact .inl ⟨call, hcalls.subset hcall, hbroke⟩
  · exact .inr (by omega)

theorem Provider.Calls.grows {p : Provider σ} {now : Instant} {s s' : Traced σ}
    (h : p.traced.Calls now s s') : s.calls <+: s'.calls := by
  cases h <;> exact List.prefix_append _ _

namespace LiveCache

variable {p : Provider σ} {d : DriverId} {policy : RetryPolicy}

/-- The fetch under way has no higher number than the failures allow that came before. -/
def Counted (x : LiveCache Nat × World (Traced σ)) : Prop :=
  ∀ wake n, x.1.underway = some (wake, n) → n ≤ x.2.outside.failures + 1

theorem Counted.mono {c : LiveCache Nat} {w w' : World (Traced σ)} (h : Counted (c, w))
    (hcalls : w.outside.calls <+: w'.outside.calls) : Counted (c, w') := by
  intro wake n hu
  have hle : n ≤ w.outside.failures + 1 := h wake n hu
  exact Nat.le_trans hle (Nat.succ_le_succ (Traced.failures_mono hcalls))

theorem listed_of_goes {c : LiveCache Nat} {w : World (Traced σ)} {s' : Traced σ}
    {step : FetchStep Nat} {forced : Bool} (hcounted : Counted (c, w))
    (h : Goes (.retrying p.traced d policy) forced c w.now w.outside step s') :
    ∃ n answer, n ≤ w.outside.failures + 1 ∧ step = policy.after n w.now answer ∧
      s'.calls = w.outside.calls ++ [.list d answer] := by
  cases h with
  | begin _ _ => exact ⟨1, _, Nat.le_add_left 1 _, rfl, rfl⟩
  | resume hu => exact ⟨_, _, hcounted _ _ hu, rfl, rfl⟩

variable {a b : LiveCache Nat × World (Traced σ)} {forced : Bool}

theorem Move.grows (h : Move (.retrying p.traced d policy) forced a b) :
    a.2.outside.calls <+: b.2.outside.calls := by
  have hlisted : ∀ {c : LiveCache Nat} {now step} {s s' : Traced σ},
      Goes (.retrying p.traced d policy) forced c now s step s' → s.calls <+: s'.calls := by
    intro c now step s s' hgoes
    cases hgoes with
    | begin _ _ => exact List.prefix_append _ _
    | resume _ => exact List.prefix_append _ _
  cases h with
  | schedule _ _ _ => exact List.prefix_rfl
  | later _ _ _ _ => exact List.prefix_rfl
  | wait _ hgoes => exact hlisted hgoes
  | publish _ hgoes =>
    rw [(world_publish _ _ _).2]
    exact hlisted hgoes
  | crash _ _ hgoes => exact hlisted hgoes
  | fail _ _ hgoes => exact hlisted hgoes

theorem Move.counted (h : Move (.retrying p.traced d policy) forced a b) (ha : Counted a) :
    Counted b := by
  cases h with
  | schedule _ _ hunderway =>
    intro wake n hu
    rcases hunderway with hsame | ⟨_, hnone⟩
    · exact ha wake n (hsame.symm.trans hu)
    · cases hnone.symm.trans hu
  | later _ _ _ _ => exact ha
  | wait _ hgoes =>
    rintro _ _ ⟨⟩
    obtain ⟨n, answer, hle, hstep, hcalls⟩ := listed_of_goes ha hgoes
    have hagain : policy.Repeats n answer := by
      by_contra hnot
      exact RetryPolicy.after_ne_wait hnot hstep.symm
    rw [hagain.after] at hstep
    cases hstep
    have hfailed : Call.isPassing (.list d answer) = true := hagain.passing
    rw [Traced.failures, hcalls, List.countP_append, List.countP_singleton, if_pos hfailed]
    exact Nat.succ_le_succ hle
  | publish _ _ =>
    rintro _ _ ⟨⟩
  | crash _ _ _ =>
    rintro _ _ ⟨⟩
  | fail _ _ _ =>
    rintro _ _ ⟨⟩

/-- Background refreshes go on unless a list call breaks down, or there are more failures than can be
counted. -/
theorem Move.alive (h : Move (.retrying p.traced d policy) forced a b) (hcounted : Counted a)
    (ha : a.1.ticker.isSome = true) : b.1.ticker.isSome = true ∨ b.2.outside.Broke := by
  cases h with
  | schedule _ hc _ =>
    have hsome := congrArg Option.isSome hc.period
    rw [Option.isSome_map, Option.isSome_map] at hsome
    exact .inl (hsome.trans ha)
  | later _ _ _ _ => exact .inl ha
  | wait _ _ => exact .inl ha
  | publish _ _ => exact .inl ha
  | fail _ _ _ => exact .inl ha
  | crash _ _ hgoes =>
    obtain ⟨n, answer, hle, hstep, hcalls⟩ := listed_of_goes hcounted hgoes
    refine .inr ?_
    rcases RetryPolicy.after_eq_crashed hstep.symm with rfl | ⟨hpassing, hfull⟩
    · refine .inl ⟨.list d (.error .crashed), ?_, rfl⟩
      rw [hcalls]
      exact List.mem_append_right _ (List.mem_singleton_self _)
    · have hfailed : Call.isPassing (.list d answer) = true := hpassing
      refine .inr ?_
      rw [Traced.failures, hcalls, List.countP_append, List.countP_singleton, if_pos hfailed]
      exact Nat.le_trans hfull (Nat.succ_le_succ hle)

theorem Moves.grows (h : Moves (.retrying p.traced d policy) a b) :
    a.2.outside.calls <+: b.2.outside.calls := by
  induction h with
  | refl => exact List.prefix_rfl
  | tail _ hm ih =>
    obtain ⟨_, hm⟩ := hm
    exact ih.trans hm.grows

theorem Moves.counted (h : Moves (.retrying p.traced d policy) a b) (ha : Counted a) :
    Counted b := by
  induction h with
  | refl => exact ha
  | tail _ hm ih =>
    obtain ⟨_, hm⟩ := hm
    exact hm.counted ih

theorem Moves.alive (h : Moves (.retrying p.traced d policy) a b) (hcounted : Counted a)
    (ha : a.1.ticker.isSome = true) : b.1.ticker.isSome = true ∨ b.2.outside.Broke := by
  induction h with
  | refl => exact .inl ha
  | tail hmoves hm ih =>
    obtain ⟨_, hm⟩ := hm
    rcases ih with hsome | hbroke
    · exact hm.alive (Moves.counted hmoves hcounted) hsome
    · exact .inr (hbroke.mono hm.grows)

end LiveCache

namespace Station

variable {p : Provider σ} {store : Option Store} {x y : Option Running × World (Traced σ)}

/-- Attempts are counted rightly. The background refreshes go on unless a list call has broken down
or more have failed than can be counted, or unless there is no time between two of them. -/
def Alive (work : Option Running) (w : World (Traced σ)) : Prop :=
  ∀ r, work = some r → LiveCache.Counted (r.live, w) ∧
    (r.applied.config.fetch.refreshInterval ≠ 0 →
      r.live.ticker.isSome = true ∨ w.outside.Broke)

theorem Alive.mono {work : Option Running} {w w' : World (Traced σ)} (h : Alive work w)
    (hcalls : w.outside.calls <+: w'.outside.calls) : Alive work w' := by
  intro r hr
  obtain ⟨hcounted, halive⟩ := h r hr
  exact ⟨hcounted.mono hcalls,
    fun hinterval => (halive hinterval).imp_right fun hbroke => hbroke.mono hcalls⟩

theorem counted_begun (a : Applied) (s : Station (Traced σ)) (w : World (Traced σ)) :
    LiveCache.Counted (begun a s, w) := by
  rintro _ _ ⟨⟩

theorem Deed.alive (h : Deed p.traced store x y) (hx : Alive x.1 x.2) : Alive y.1 y.2 := by
  cases h with
  | tell _ _ _ => exact hx
  | later _ _ _ _ => exact hx
  | call _ hcall => exact hx.mono hcall.grows
  | @refresh r w w' live hmoves =>
    obtain ⟨hcounted, halive⟩ := hx r rfl
    rintro _ ⟨⟩
    refine ⟨hmoves.counted hcounted, fun hinterval => ?_⟩
    rcases halive hinterval with hsome | hbroke
    · exact hmoves.alive hcounted hsome
    · exact .inr (hbroke.mono hmoves.grows)
  | ticker r _ _ =>
    rintro _ ⟨⟩
    exact hx r rfl
  | wait _ hmoves => exact hx.mono hmoves.grows
  | @launch _ a w w' live ticker hmoves =>
    have hbegun := counted_begun a { world := w, store } w
    rintro _ ⟨⟩
    refine ⟨hmoves.counted hbegun, fun hinterval => hmoves.alive hbegun ?_⟩
    have hpositive : (Span.ofSeconds a.config.fetch.refreshInterval).nanos ≠ 0 :=
      Nat.mul_ne_zero hinterval (by decide)
    rw [begun, LiveCache.begin, if_neg hpositive]
    rfl
  | halt _ _ =>
    rintro _ ⟨⟩

variable {s s' : Station (Traced σ)}

theorem Does.alive (h : Does p.traced s s') (hs : Alive s.running s.world) :
    Alive s'.running s'.world := by
  have hdeeds : ∀ {x y : Option Running × World (Traced σ)},
      Relation.ReflTransGen (Deed p.traced s.store) x y → Alive x.1 x.2 → Alive y.1 y.2 := by
    intro x y hdeeds hx
    induction hdeeds with
    | refl => exact hx
    | tail _ hd ih => exact hd.alive ih
  exact hdeeds h.deeds hs

theorem respond_alive (p : Provider σ) (request : Request) (hs : Alive s.running s.world) :
    Alive (s.respond p.traced request).2.running (s.respond p.traced request).2.world := by
  by_cases hc : ∃ config, request = .configure config
  · obtain ⟨config, rfl⟩ := hc
    show Alive (s.configure p.traced config).2.running (s.configure p.traced config).2.world
    obtain ⟨s', hdoes, hs' | hs'⟩ := configure_does p.traced s config
    · rw [hs']
      exact hdoes.alive hs
    · obtain ⟨files, hsaved⟩ := saveConfiguration_eq s'
      rw [hs', hsaved]
      exact hdoes.alive hs
  · exact (respond_does p.traced s fun config heq => hc ⟨config, heq⟩).alive hs

end Station

/-! ## Stations that are not started -/

/-- The request is about the machines of the pool. -/
def Request.manages : Request → Bool
  | .reconcile | .getPool | .getPoolSize | .terminate .. | .attach _ | .detach .. => true
  | .setService .. | .setMembership .. => true
  | _ => false

/-- The call makes a driver or configures it. -/
def Call.isSetup : Call → Bool
  | .create .. | .configure .. => true
  | _ => false

/-- Drivers were made and configured, and no more. -/
def Traced.SetUp (s s' : Traced σ) : Prop :=
  ∃ calls, s'.calls = s.calls ++ calls ∧ ∀ call ∈ calls, call.isSetup = true

theorem Traced.SetUp.refl (s : Traced σ) : s.SetUp s :=
  ⟨[], (List.append_nil _).symm, fun _ h => (by cases h)⟩

theorem Traced.SetUp.trans {s s' s'' : Traced σ} (h : s.SetUp s') (h' : s'.SetUp s'') :
    s.SetUp s'' := by
  obtain ⟨first, hfirst, hsetup⟩ := h
  obtain ⟨rest, hrest, hsetup'⟩ := h'
  refine ⟨first ++ rest, by rw [hrest, hfirst, List.append_assoc], fun call hcall => ?_⟩
  exact (List.mem_append.1 hcall).elim (hsetup call) (hsetup' call)

theorem Traced.SetUp.one {s : Traced σ} {call : Call} (h : call.isSetup = true) (outside : σ) :
    s.SetUp ⟨s.calls ++ [call], outside⟩ :=
  ⟨[call], rfl, fun c hc => by rwa [List.mem_singleton.1 hc]⟩

namespace Station

/-- **What is about the pool is refused**, and nothing happens. -/
theorem respond_refused (p : Provider σ) {s : Station σ} {request : Request}
    (h : s.controller.state ≠ .started) (hm : request.manages = true) :
    s.respond p request = (.error (if s.controller.state = .unconfigured then .notConfigured
      else .notStarted), s) := by
  have hrefused : s.controller.ensureStarted =
      .error (if s.controller.state = .unconfigured then .notConfigured else .notStarted) := by
    unfold Controller.ensureStarted
    cases hs : s.controller.state with
    | unconfigured => rfl
    | stopped => rfl
    | started => exact absurd hs h
  cases request with
  | reconcile => simp only [respond, reconcile, hrefused, Except.map]
  | getPool => simp only [respond, startedView, hrefused, Except.map]
  | getPoolSize => simp only [respond, poolSize, startedView, hrefused, Except.map]
  | terminate id decrement =>
    simp only [respond, plain, terminate, memberDriver, startedView, hrefused, Except.map]
  | attach id =>
    simp only [respond, plain, attach, machineCall, startedDriver, hrefused, Except.map]
  | detach id decrement =>
    simp only [respond, plain, detach, memberDriver, startedView, hrefused, Except.map]
  | setService id service =>
    simp only [respond, plain, machineCall, startedDriver, hrefused, Except.map]
  | setMembership id membership =>
    simp only [respond, plain, machineCall, startedDriver, hrefused, Except.map]
  | _ => cases hm

variable {p : Provider σ} {s : Station (Traced σ)}

theorem apply_setUp (p : Provider σ) (s : Station (Traced σ)) (config : PoolConfig) :
    s.world.outside.SetUp (s.apply p.traced config).2.world.outside := by
  have hcreate : s.world.outside.SetUp (p.traced.create config.driver s.world.outside).2 :=
    .one rfl _
  unfold apply
  split
  · exact .refl _
  · split
    · rename_i heq
      rwa [heq] at hcreate
    · rename_i driver outside heq
      rw [heq] at hcreate
      have hconfigure : outside.SetUp
          (p.traced.configure driver config.name config.driver s.world.now outside).2 :=
        .one rfl _
      split
      · rename_i heq'
        rw [heq'] at hconfigure
        exact hcreate.trans hconfigure
      · rename_i heq'
        rw [heq'] at hconfigure
        obtain ⟨events, he, _⟩ := become_stopped (s.controller.adopt ⟨config, driver⟩).1
        simp only [become, changed, halt, after, he]
        exact hcreate.trans hconfigure

/-- A station that is not started does not begin to work when it is configured. -/
theorem configure_idle (p : Provider σ) (config : PoolConfig) (h : s.controller.state ≠ .started) :
    (s.configure p.traced config).2.controller.state ≠ .started ∧
      s.world.outside.SetUp (s.configure p.traced config).2.world.outside := by
  have hsetup := apply_setUp p s config
  rcases apply_outcome p.traced s config with ⟨e, outside, heq⟩ | ⟨hvalid, d, outside, htakes⟩
  · rw [heq] at hsetup
    simp only [configure, heq]
    exact ⟨h, hsetup⟩
  · obtain ⟨events, heq⟩ := apply_of_takes hvalid htakes
    rw [heq] at hsetup
    rw [decide_eq_false h] at heq
    obtain ⟨files, hsaved⟩ := saveConfiguration_eq (s.adopted ⟨config, d⟩ outside events)
    rw [configure_of_idle heq, hsaved]
    refine ⟨?_, hsetup⟩
    show Lifecycle.stopped ≠ .started
    decide

/-- **Without a start**, a station that is not started makes and configures drivers at most. -/
theorem respond_idle (p : Provider σ) {request : Request} (h : s.controller.state ≠ .started)
    (hstart : request = .start → s.controller.state = .unconfigured) :
    (s.respond p.traced request).2.controller.state ≠ .started ∧
      s.world.outside.SetUp (s.respond p.traced request).2.world.outside := by
  by_cases hm : request.manages = true
  · rw [respond_refused p.traced h hm]
    exact ⟨h, .refl _⟩
  · cases request with
    | configure config => exact configure_idle p config h
    | getConfiguration =>
      rw [respond]
      split
      · exact ⟨h, .refl _⟩
      · exact ⟨h, .refl _⟩
    | start =>
      have heq : s.respond p.traced .start = (.error .notConfigured, s) := by
        simp only [respond, hstart rfl]
      rw [heq]
      exact ⟨h, .refl _⟩
    | stop =>
      rw [respond, if_neg h]
      exact ⟨h, .refl _⟩
    | getStatus => exact ⟨h, .refl _⟩
    | setDesired size =>
      rw [respond]
      split
      · exact ⟨h, .refl _⟩
      · refine ⟨?_, .refl _⟩
        show (s.controller.setDesired size).1.state ≠ _
        rw [Controller.setDesired_fst]
        exact h
    | _ => exact absurd rfl hm

end Station

end PoolKeeper
