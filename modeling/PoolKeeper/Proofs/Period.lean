import PoolKeeper.Proofs.LiveCache
import PoolKeeper.Proofs.Overlay
import PoolKeeper.Controller.Station
import PoolKeeper.Provider.Trace

/-!
# A controller and its refreshes at the same time

While a controller is started it calls its driver, and refreshes of the cache go on meanwhile. Every
call takes effect at some instant between its beginning and its return. Refreshes take turns: one
begins when the one before it has ended, whether it runs in the background or was asked for.

* `Period`: a started controller with the calls that are under way;
* `Period.Step`: what can happen next, `Period.Reachable`: what comes about by it;
* `Provider.Truthful`: drivers list what is there, and do what they say they did;
* `Period.Sound`, **`Period.Reachable.sound`**: no snapshot is from the future or older than the one
  that is published, and none lists a machine twice.
-/

namespace PoolKeeper

/-- A list call that is under way. -/
structure ListCall where
  /-- Which attempt of the refresh it is. -/
  attempt : Nat
  begun : Instant
  /-- The answer, once the call has taken effect. -/
  answer : Option Listing := none

/-- What a call did to the machines, as its answer has it. -/
inductive Deed where
  | started (machines : List Machine)
  | ended (ids : List String)

/-- A started controller, with the calls that are under way. -/
structure Period (σ : Type) where
  controller : Controller
  live : LiveCache Nat
  world : World σ
  listing : Option ListCall := none
  /-- A deed that the controller has yet to note. -/
  pending : Option Deed := none

/-- Some machine with the identifier holds capacity. -/
def Holds (machines : List Machine) (id : String) : Prop :=
  ∃ m ∈ machines, m.id = id ∧ m.isAllocated = true

instance (machines : List Machine) (id : String) : Decidable (Holds machines id) :=
  inferInstanceAs (Decidable (∃ _ ∈ _, _))

/-- Whatever a driver is asked to do, all that is outside stays as it should be. -/
structure Provider.Keeps {σ : Type} (p : Provider σ) (d : DriverId) (good : σ → Prop) : Prop where
  list {now : Instant} {s : σ} : good s → good (p.list d now s).2
  start {count : Nat} {now : Instant} {s : σ} : good s → good (p.start d count now s).2
  terminate {ids : List String} {now : Instant} {s : σ} : good s → good (p.terminate d ids now s).2
  attach {id : String} {now : Instant} {s : σ} : good s → good (p.attach d id now s).2
  detach {id : String} {now : Instant} {s : σ} : good s → good (p.detach d id now s).2
  setService {id : String} {service : ServiceState} {now : Instant} {s : σ} :
    good s → good (p.setService d id service now s).2
  setMembership {id : String} {membership : Membership} {now : Instant} {s : σ} :
    good s → good (p.setMembership d id membership now s).2

/-- As long as all that is outside is as it should be, a driver lists the machines that are there
and has done what it says it did. -/
structure Provider.Truthful {σ : Type} (p : Provider σ) (d : DriverId) (machines : σ → List Machine)
    (good : σ → Prop) : Prop where
  keeps : p.Keeps d good
  distinct {s : σ} : good s → ((machines s).map Machine.id).Nodup
  listed {now : Instant} {s : σ} {found : List Machine} : good s →
    (p.list d now s).1 = .ok found → found = machines (p.list d now s).2
  started {count : Nat} {now : Instant} {s : σ} {m : Machine} : good s →
    m ∈ launchedBy (p.start d count now s).1 → Holds (machines (p.start d count now s).2) m.id
  terminated {ids : List String} {now : Instant} {s : σ} {id : String} : good s →
    id ∈ confirmedBy ids (p.terminate d ids now s).1 →
      ¬ Holds (machines (p.terminate d ids now s).2) id
  detached {id : String} {now : Instant} {s : σ} : good s → (p.detach d id now s).1 = .ok () →
    ¬ Holds (machines (p.detach d id now s).2) id

namespace Period

variable {σ : Type}

/-- The period with another overlay. -/
def withOverlay (s : Period σ) (overlay : Overlay) : Period σ :=
  { s with controller := { s.controller with overlay } }

/-- The controller notes what a call did. -/
def note (s : Period σ) : Period σ :=
  match s.pending with
  | none => s
  | some (.started machines) =>
    { s.withOverlay (s.controller.overlay.recordStarted machines s.world.now) with pending := none }
  | some (.ended ids) =>
    { s.withOverlay (s.controller.overlay.recordTerminated ids s.world.now) with pending := none }

/-- Another state outside, a deed to note. -/
def did (s : Period σ) (outside : σ) (deed : Deed) : Period σ :=
  { s with world := { s.world with outside }, pending := some deed }

/-- A list call begins. -/
def beginList (s : Period σ) (attempt : Nat) : Period σ :=
  { s with listing := some ⟨attempt, s.world.now, none⟩ }

/-- A list call takes effect. -/
def list (p : Provider σ) (a : Applied) (call : ListCall) (s : Period σ) : Period σ :=
  let (answer, outside) := p.list a.driver s.world.now s.world.outside
  { s with
    world := { s.world with outside }
    listing := some { call with answer := some answer } }

/-- A list call returns: the refresh ends, or waits for its next attempt. -/
def reply (a : Applied) (call : ListCall) (answer : Listing) (s : Period σ) : Period σ :=
  let (live, world) :=
    s.live.follow (a.config.fetch.retries.policy.after call.attempt call.begun answer) s.world
  { s with live, world, listing := none }

/-- What can happen next. -/
inductive Step (p : Provider σ) (a : Applied) (good : σ → Prop) (s : Period σ) : Period σ → Prop
  /-- Time passes, and anything else happens outside. -/
  | world (world : World σ) : s.world.now ≤ world.now → good world.outside →
    Step p a good s { s with world }
  /-- The controller changes what is not about recent actions. -/
  | think (controller : Controller) : controller.overlay = s.controller.overlay →
    Step p a good s { s with controller }
  /-- The schedule of the refreshes changes, or a refresh that waits is given up. -/
  | schedule (live : LiveCache Nat) : live.cache = s.live.cache →
    live.underway = s.live.underway ∨ live.underway = none → Step p a good s { s with live }
  /-- The controller looks at the pool. -/
  | view (snapshot : Pool) : s.live.cache.snapshot = some snapshot →
    Step p a good s { s with controller := (s.controller.view snapshot).2 }
  /-- A start takes effect. -/
  | start (count : Nat) : s.pending = none →
    Step p a good s (s.did (p.start a.driver count s.world.now s.world.outside).2
      (.started (launchedBy (p.start a.driver count s.world.now s.world.outside).1)))
  /-- A termination takes effect. -/
  | terminate (ids : List String) : s.pending = none →
    Step p a good s (s.did (p.terminate a.driver ids s.world.now s.world.outside).2
      (.ended (confirmedBy ids (p.terminate a.driver ids s.world.now s.world.outside).1)))
  /-- A machine is taken out of the pool. -/
  | detach (id : String) : s.pending = none →
    (p.detach a.driver id s.world.now s.world.outside).1 = .ok () →
    Step p a good s (s.did (p.detach a.driver id s.world.now s.world.outside).2 (.ended [id]))
  /-- A call returns, and the controller notes what it did. -/
  | note : Step p a good s s.note
  /-- A call returns, and the controller notes nothing. -/
  | ignore : Step p a good s { s with pending := none }
  /-- A refresh begins. -/
  | begin : s.listing = none → s.live.underway = none → Step p a good s (s.beginList 1)
  /-- A refresh goes on with another attempt. -/
  | resume (wake : Instant) (attempt : Nat) : s.listing = none →
    s.live.underway = some (wake, attempt) → wake ≤ s.world.now →
    Step p a good s (s.beginList attempt)
  | list (call : ListCall) : s.listing = some call → call.answer = none →
    Step p a good s (s.list p a call)
  | reply (call : ListCall) (answer : Listing) : s.listing = some call →
    call.answer = some answer → Step p a good s (s.reply a call answer)

/-- How a period begins: no call is under way, and the cache may have been restored. -/
structure Begins (good : σ → Prop) (s : Period σ) : Prop where
  good : good s.world.outside
  overlay : s.controller.overlay.Distinct
  restored : ∀ snapshot, s.live.cache.snapshot = some snapshot →
    snapshot.Distinct ∧ snapshot.takenAt ≤ s.world.now
  listing : s.listing = none
  pending : s.pending = none

/-- What comes about in a period. -/
inductive Reachable (p : Provider σ) (a : Applied) (good : σ → Prop) : Period σ → Prop
  | begins {s : Period σ} : Begins good s → Reachable p a good s
  | step {s t : Period σ} : Reachable p a good s → Step p a good s t → Reachable p a good t

/-- A run from one state to another along which something holds all the time. -/
inductive While (p : Provider σ) (a : Applied) (good : σ → Prop) (holds : Period σ → Prop)
    (s : Period σ) : Period σ → Prop
  | refl : holds s → While p a good holds s s
  | step {t u : Period σ} : While p a good holds s t → Step p a good t u → holds u →
    While p a good holds s u

/-! ## Snapshots -/

/-- A snapshot that is published, or that a list call under way has taken. -/
def Source (s : Period σ) (snapshot : Pool) : Prop :=
  s.live.cache.snapshot = some snapshot ∨
    ∃ call, s.listing = some call ∧
      ∃ machines, call.answer = some (.ok machines) ∧ snapshot = ⟨machines, call.begun⟩

/-- No snapshot is from the future, none lists a machine twice, and no list call is older than the
snapshot that is published. -/
structure Sound (good : σ → Prop) (s : Period σ) : Prop where
  good : good s.world.outside
  overlay : s.controller.overlay.Distinct
  source : ∀ snapshot, s.Source snapshot → snapshot.Distinct ∧ snapshot.takenAt ≤ s.world.now
  begun : ∀ call, s.listing = some call → call.begun ≤ s.world.now ∧
    ∀ snapshot, s.live.cache.snapshot = some snapshot → snapshot.takenAt ≤ call.begun

variable {p : Provider σ} {a : Applied} {good : σ → Prop} {machines : σ → List Machine}
  {s t : Period σ} {snapshot : Pool}

theorem Sound.published_le (h : s.Sound good) (hp : s.live.cache.snapshot = some snapshot)
    {other : Pool} (ho : s.Source other) : snapshot.takenAt ≤ other.takenAt := by
  rcases ho with ho | ⟨call, hc, found, _, rfl⟩
  · rw [hp] at ho
    cases ho
    exact Instant.le_refl _
  · exact (h.begun call hc).2 snapshot hp

/-- The sources depend on the cache and the list call only. -/
theorem Source.of_eq (hc : t.live.cache.snapshot = s.live.cache.snapshot)
    (hl : t.listing = s.listing) (h : t.Source snapshot) : s.Source snapshot := by
  rw [Source, hc, hl] at h
  exact h

theorem after_eq_done {policy : RetryPolicy} {n : Nat} {begun : Instant} {answer : Listing}
    {pool : Pool} (h : policy.after n begun answer = .done (.ok pool)) :
    ∃ found, answer = .ok found ∧ pool = ⟨found, begun⟩ := by
  rcases answer with e | found
  · rcases e with e | _
    · rw [RetryPolicy.after] at h
      split_ifs at h
      all_goals cases h
    · cases h
  · cases h
    exact ⟨found, rfl, rfl⟩

theorem snapshot_follow {live : LiveCache Nat} {step : FetchStep Nat} {w : World σ}
    (h : (live.follow step w).1.cache.snapshot = some snapshot) :
    live.cache.snapshot = some snapshot ∨ step = .done (.ok snapshot) := by
  rcases step with result | _ | _
  · rcases result with e | pool
    · exact .inl h
    · exact .inr (by cases h; rfl)
  · exact .inl h
  · exact .inl h

/-- What a reply publishes was taken by its call, or was published before. -/
theorem source_reply {call : ListCall} {answer : Listing} (hl : s.listing = some call)
    (ha : call.answer = some answer) (h : (s.reply a call answer).Source snapshot) :
    s.Source snapshot := by
  rcases h with h | ⟨_, h, _⟩
  · rcases snapshot_follow h with h | h
    · exact .inl h
    · obtain ⟨found, rfl, rfl⟩ := after_eq_done h
      exact .inr ⟨call, hl, found, ha, rfl⟩
  · cases h

theorem source_beginList {attempt : Nat} (h : (s.beginList attempt).Source snapshot) :
    s.Source snapshot := by
  rcases h with h | ⟨call, hc, found, hanswer, _⟩
  · exact .inl h
  · cases hc
    cases hanswer

theorem source_list (hp : p.Truthful a.driver machines good) (hg : good s.world.outside)
    {call : ListCall} (h : (s.list p a call).Source snapshot) :
    s.live.cache.snapshot = some snapshot ∨
      snapshot = ⟨machines (s.list p a call).world.outside, call.begun⟩ := by
  rcases h with h | ⟨_, hc, found, hanswer, rfl⟩
  · exact .inl h
  · cases hc
    exact .inr (by rw [hp.listed hg (Option.some.inj hanswer)]; rfl)

/-! ## Soundness -/

theorem Begins.sound (h : s.Begins good) : s.Sound good where
  good := h.good
  overlay := h.overlay
  source snapshot hs := by
    rcases hs with hs | ⟨_, hc, _⟩
    · exact h.restored snapshot hs
    · rw [h.listing] at hc
      cases hc
  begun call hc := by
    rw [h.listing] at hc
    cases hc

theorem Sound.of_same (h : s.Sound good) (hg : good t.world.outside)
    (ho : t.controller.overlay.Distinct) (hc : t.live.cache = s.live.cache)
    (hl : t.listing = s.listing) (hnow : s.world.now ≤ t.world.now) : t.Sound good where
  good := hg
  overlay := ho
  source snapshot hs := by
    obtain ⟨hd, hle⟩ := h.source snapshot (hs.of_eq (by rw [hc]) hl)
    exact ⟨hd, Instant.le_trans hle hnow⟩
  begun call hcall := by
    obtain ⟨hle, hall⟩ := h.begun call (hl ▸ hcall)
    exact ⟨Instant.le_trans hle hnow, hc ▸ hall⟩

theorem Sound.beginList (h : s.Sound good) (attempt : Nat) : (s.beginList attempt).Sound good where
  good := h.good
  overlay := h.overlay
  source snapshot hs := h.source snapshot (source_beginList hs)
  begun call hc := by
    cases hc
    exact ⟨Instant.le_refl _, fun snapshot hs => (h.source snapshot (.inl hs)).2⟩

theorem Sound.list (hp : p.Truthful a.driver machines good) (h : s.Sound good) {call : ListCall}
    (hl : s.listing = some call) : (s.list p a call).Sound good where
  good := hp.keeps.list h.good
  overlay := h.overlay
  source snapshot hs := by
    rcases source_list hp h.good hs with hs | rfl
    · exact h.source snapshot (.inl hs)
    · exact ⟨hp.distinct (hp.keeps.list h.good), (h.begun call hl).1⟩
  begun other hc := by
    cases hc
    exact h.begun call hl

theorem Sound.reply (h : s.Sound good) {call : ListCall} {answer : Listing}
    (hl : s.listing = some call) (ha : call.answer = some answer) :
    (s.reply a call answer).Sound good := by
  obtain ⟨hnow, houtside⟩ := LiveCache.world_follow s.live
    (a.config.fetch.retries.policy.after call.attempt call.begun answer) s.world
  refine ⟨?_, h.overlay, fun snapshot hs => ?_, fun other hc => by cases hc⟩
  · show good (s.live.follow _ s.world).2.outside
    rw [houtside]
    exact h.good
  · show _ ∧ snapshot.takenAt ≤ (s.live.follow _ s.world).2.now
    rw [hnow]
    exact h.source snapshot (source_reply hl ha hs)

theorem Sound.note (h : s.Sound good) : s.note.Sound good := by
  unfold Period.note
  split
  · exact h
  · exact h.of_same h.good (h.overlay.recordStarted _ _) rfl rfl (Instant.le_refl _)
  · exact h.of_same h.good (h.overlay.recordTerminated _ _) rfl rfl (Instant.le_refl _)

theorem Sound.step (hp : p.Truthful a.driver machines good) (h : s.Sound good)
    (hs : Step p a good s t) : t.Sound good := by
  have hnow := Instant.le_refl s.world.now
  cases hs with
  | world world hle hg => exact h.of_same hg h.overlay rfl rfl hle
  | think controller ho => exact h.of_same h.good (ho ▸ h.overlay) rfl rfl hnow
  | schedule live hc _ => exact h.of_same h.good h.overlay hc rfl hnow
  | view snapshot _ => exact h.of_same h.good (h.overlay.forget _) rfl rfl hnow
  | start count _ => exact h.of_same (hp.keeps.start h.good) h.overlay rfl rfl hnow
  | terminate ids _ => exact h.of_same (hp.keeps.terminate h.good) h.overlay rfl rfl hnow
  | detach id _ _ => exact h.of_same (hp.keeps.detach h.good) h.overlay rfl rfl hnow
  | note => exact h.note
  | ignore => exact h.of_same h.good h.overlay rfl rfl hnow
  | begin _ _ => exact h.beginList 1
  | resume _ attempt _ _ _ => exact h.beginList attempt
  | list call hl _ => exact h.list hp hl
  | reply call answer hl ha => exact h.reply hl ha

/-- **Whatever comes about in a period is sound.** -/
theorem Reachable.sound (hp : p.Truthful a.driver machines good) (h : Reachable p a good s) :
    s.Sound good := by
  induction h with
  | begins hb => exact hb.sound
  | step _ hs ih => exact ih.step hp hs

end Period

end PoolKeeper
