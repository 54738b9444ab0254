import PoolKeeper.Proofs.Restart
import PoolKeeper.Proofs.Twin

/-!
# Pools that get another name

A pool that gets another name has nothing from the pool before.

* `Command`, `Station.obeyAll`: what can happen to a station, one after the other;
  `Station.KeepsName`: the pool keeps its name meanwhile;
* `Station.Strangers`: stations in the same state whose pools have other names;
  **`Station.Strangers.ask`**: the same configuration makes twins of them;
* `Station.Indistinct`, **`Station.Twin.obeyAll`**: what happens to twins afterwards is the same,
  apart from their notes;
* **`Station.rename_isolates`**: so nobody can tell strangers apart once their pools have the same
  new name.
-/

namespace PoolKeeper

variable {σ : Type}

/-- What can happen to a station. -/
inductive Command where
  | ask (request : Request)
  | advance (nanos : Nat)

namespace Station

/-- What becomes of a command, and the answer if it asks for something. -/
def obey (p : Provider σ) (command : Command) (s : Station σ) : Option Answer × Station σ :=
  match command with
  | .ask request => s.ask p request
  | .advance nanos => (none, s.advance p nanos)

/-- What becomes of one command after the other. -/
def obeyAll (p : Provider σ) : List Command → Station σ → List (Option Answer) × Station σ
  | [], s => ([], s)
  | command :: rest, s =>
    let (answer, s) := s.obey p command
    let (answers, s) := obeyAll p rest s
    (answer :: answers, s)

/-- No command gives the pool another name. -/
def KeepsName (p : Provider σ) (name : String) : List Command → Station σ → Prop
  | [], _ => True
  | command :: rest, s =>
    (s.obey p command).2.poolName = some name ∧ KeepsName p name rest (s.obey p command).2

instance decidableKeepsName (p : Provider σ) (name : String) :
    (commands : List Command) → (s : Station σ) → Decidable (s.KeepsName p name commands)
  | [], _ => .isTrue trivial
  | command :: rest, s =>
    have := decidableKeepsName p name rest (s.obey p command).2
    inferInstanceAs (Decidable (_ ∧ _))

variable {p : Provider σ} {o : Origin σ} {s t : Station σ} {name : String}

theorem wentWell_ask {request : Request} (h : wentWell (s.ask p request).1 = true) :
    ¬ s.stuck = true ∧ ∃ reply, (s.respond p request).1 = .ok reply := by
  unfold ask at h
  by_cases hstuck : s.stuck = true
  · rw [if_pos hstuck] at h
    cases h
  · rw [if_neg hstuck] at h
    simp only at h
    split at h
    · cases h
    · refine ⟨hstuck, ?_⟩
      cases hanswer : (s.respond p request).1 with
      | ok reply => exact ⟨reply, rfl⟩
      | error e =>
        rw [hanswer] at h
        cases h

theorem keepsName_append {first rest : List Command} :
    s.KeepsName p name (first ++ rest) ↔
      s.KeepsName p name first ∧ (s.obeyAll p first).2.KeepsName p name rest := by
  induction first generalizing s with
  | nil => exact (and_iff_right trivial).symm
  | cons command first ih =>
    rw [List.cons_append, KeepsName, KeepsName, ih, and_assoc]
    rfl

/-! ## Strangers -/

/-- Two stations in the same state and the same world, whose pools have other names than one that
is to come. They may differ in all that they know, in what they have told, and in their files as
far as these are about other pools. -/
structure Strangers (name : String) (s t : Station σ) : Prop where
  state : t.controller.state = s.controller.state
  left : ∃ old, s.poolName = some old ∧ old ≠ name
  right : ∃ old, t.poolName = some old ∧ old ≠ name
  now : s.world.now = t.world.now
  outside : s.world.outside = t.world.outside
  store : s.store = t.store
  files (store : Store) : s.store = some store → store.Matches name s.world.files t.world.files
  stuck : s.stuck = t.stuck

namespace Strangers

variable {a : Applied} {config : PoolConfig}

/-- What is known of other pools is forgotten. -/
theorem placed (h : Strangers a.config.name s t) :
    (s.controller.placed a).Akin ⟨s, t, a.config.name⟩ (t.controller.placed a) := by
  have hforget : ∀ {s : Station σ}, (∃ old, s.poolName = some old ∧ old ≠ a.config.name) →
      s.controller.placed a =
        { state := s.controller.state, applied := some a
          lastReconciled := s.controller.lastReconciled
          lastError := s.controller.lastError } := by
    rintro s ⟨old, hold, hne⟩
    obtain ⟨b, hb, rfl⟩ := Option.map_eq_some_iff.1 hold
    simp only [Controller.placed, Controller.forgetOther, hb, if_neg hne]
  rw [hforget h.left, hforget h.right, h.state]
  exact ⟨rfl, .inr ⟨rfl, rfl⟩, .inr ⟨rfl, rfl⟩⟩

theorem shared (h : Strangers name s t) :
    World.Shared ⟨s, t, name⟩ s.store s.world t.world where
  now := h.now
  outside := h.outside
  events := ⟨[], (List.append_nil _).symm, (List.append_nil _).symm⟩
  files := h.files

/-- **The same configuration** is refused to both, or makes twins of them. -/
theorem configure (h : Strangers config.name s t) (p : Provider σ) :
    (∃ e outside, s.configure p config = (.error e, s.after outside) ∧
      t.configure p config = (.error e, t.after outside)) ∨
    Paired ⟨s, t, config.name⟩ (s.configure p config) (t.configure p config) := by
  rcases configure_alike p config h.now h.outside h.state with
    herror | ⟨d, outside, wasStarted, hs, ht⟩
  · exact .inl herror
  · rw [hs, ht]
    have hplaced := placed (a := ⟨config, d⟩) h
    exact .inr ((twin_taking hplaced h.shared h.store h.stuck rfl outside).proceed p wasStarted)

theorem ask (h : Strangers config.name s t) (p : Provider σ) :
    (s.ask p (.configure config)).1 = (t.ask p (.configure config)).1 ∧
      (wentWell (s.ask p (.configure config)).1 = true →
        Twin ⟨s, t, config.name⟩ (s.ask p (.configure config)).2
          (t.ask p (.configure config)).2) := by
  rcases h.configure p with ⟨e, outside, hs, ht⟩ | hpaired
  · have hrefused : ∀ {s : Station σ}, s.configure p config = (.error e, s.after outside) →
        (s.ask p (.configure config)).1 = if s.stuck then none else some (.error e) := by
      intro s hs
      unfold Station.ask respond
      simp only [hs, plain, after]
      split
      · rfl
      · rfl
    -- the old pools stay, so nothing follows but that the answers are the same
    rw [hrefused hs, hrefused ht, h.stuck]
    refine ⟨rfl, fun hwell => ?_⟩
    split at hwell
    · cases hwell
    · cases hwell
  · have hplain := hpaired.map fun () => Reply.done
    have hask := ask_paired p (.configure config) id h.stuck h.now hplain.answer hplain.twin
    rw [Option.map_id] at hask
    exact hask.imp_right fun htwin hwell => htwin (wentWell_ask hwell).1

theorem traced (h : Strangers name s t) (calls : List Call) :
    Strangers name (s.traced calls) (t.traced calls) where
  state := h.state
  left := h.left
  right := h.right
  now := h.now
  outside := congrArg (Traced.mk calls) h.outside
  store := h.store
  files := h.files
  stuck := h.stuck

end Strangers

/-! ## Commands to twins -/

/-- Two runs give the same answers apart from notes of cycles, tell the same events and leave the
same outside. The notes are the same, or as they were in the beginning. -/
structure Indistinct (s t : Station σ) (x y : List (Option Answer) × Station σ) : Prop where
  answers : x.1.map (Option.map unnoted) = y.1.map (Option.map unnoted)
  events : ∃ events, x.2.world.events = s.world.events ++ events ∧
    y.2.world.events = t.world.events ++ events
  outside : x.2.world.outside = y.2.world.outside
  lastReconciled : Lingers s.controller.lastReconciled t.controller.lastReconciled
    x.2.controller.lastReconciled y.2.controller.lastReconciled
  lastError : Lingers s.controller.lastError t.controller.lastError
    x.2.controller.lastError y.2.controller.lastError

namespace Twin

theorem obey (h : Twin o s t) (p : Provider σ) {command : Command}
    (hname : (s.obey p command).2.poolName = some o.poolName) :
    (s.obey p command).1.map unnoted = (t.obey p command).1.map unnoted ∧
      Twin o (s.obey p command).2 (t.obey p command).2 := by
  cases command with
  | ask request => exact h.ask p hname
  | advance nanos => exact ⟨rfl, h.advance p nanos⟩

/-- **One command after the other.** -/
theorem obeyAll (h : Twin o s t) {commands : List Command}
    (hkeeps : s.KeepsName p o.poolName commands) :
    (s.obeyAll p commands).1.map (Option.map unnoted) =
        (t.obeyAll p commands).1.map (Option.map unnoted) ∧
      Twin o (s.obeyAll p commands).2 (t.obeyAll p commands).2 := by
  induction commands generalizing s t with
  | nil => exact ⟨rfl, h⟩
  | cons command rest ih =>
    obtain ⟨hanswer, htwin⟩ := h.obey p hkeeps.1
    obtain ⟨hanswers, hrest⟩ := ih htwin hkeeps.2
    exact ⟨congrArg₂ List.cons hanswer hanswers, hrest⟩

theorem fromNow (h : Twin o s t) : Twin ⟨s, t, o.poolName⟩ s t :=
  { h with
    controller := ⟨h.controller.rest, .inr ⟨rfl, rfl⟩, .inr ⟨rfl, rfl⟩⟩
    world := { h.world with
      events := ⟨[], (List.append_nil _).symm, (List.append_nil _).symm⟩ } }

theorem indistinct {left right : Station σ} (h : Twin ⟨left, right, name⟩ s t)
    {commands : List Command} (hkeeps : s.KeepsName p name commands) :
    Indistinct left right (s.obeyAll p commands) (t.obeyAll p commands) := by
  obtain ⟨hanswers, htwin⟩ := h.obeyAll hkeeps
  exact ⟨hanswers, htwin.world.events, htwin.world.outside, htwin.controller.lastReconciled,
    htwin.controller.lastError⟩

/-- **A cycle that gives a report** leaves the same notes. -/
theorem ask_reconcile (h : Twin o s t) (p : Provider σ)
    (hwell : wentWell (s.ask p .reconcile).1 = true) :
    (s.ask p .reconcile).2.controller = (t.ask p .reconcile).2.controller := by
  obtain ⟨hstuck, reply, hreply⟩ := wentWell_ask hwell
  obtain ⟨hpaired, hnotes⟩ := h.reconcile p
  have hreport : ∃ report, (s.reconcile p).1 = .ok report := by
    have hmap : (s.reconcile p).1.map Reply.report = .ok reply := hreply
    cases hs : (s.reconcile p).1 with
    | ok report => exact ⟨report, rfl⟩
    | error e =>
      rw [hs] at hmap
      cases hmap
  have hanswer : (s.respond p .reconcile).1 = (t.respond p .reconcile).1 :=
    congrArg (Except.map Reply.report) hpaired.answer
  -- from the report on nothing is different in the controllers, so nothing can linger
  have hnext := (ask_paired p .reconcile id h.stuck h.world.now hanswer
    hpaired.twin.fromNow).2 hstuck
  exact hnext.controller.eq_of_eq (hnotes hreport)

end Twin

/-! ## Another name -/

/-- **A pool that gets another name has nothing from the pool before.** Whatever two stations in
the same state knew of their pools, once the same configuration has given both the same new name,
they give the same answers, tell the same events and make the same calls until the next name. What
they noted of their last cycles may still differ; it is the same as soon as it changes, or a cycle
gives a report. -/
theorem rename_isolates (p : Provider σ) {s t : Station σ} {config : PoolConfig}
    (h : Strangers config.name s t) :
    let x := (s.traced []).ask p.traced (.configure config)
    let y := (t.traced []).ask p.traced (.configure config)
    x.1 = y.1 ∧ (wentWell x.1 = true →
      ∀ commands later, x.2.KeepsName p.traced config.name (commands ++ later) →
        let x' := x.2.obeyAll p.traced commands
        let y' := y.2.obeyAll p.traced commands
        Indistinct (s.traced []) (t.traced []) x' y' ∧
          Indistinct x'.2 y'.2 (x'.2.obeyAll p.traced later) (y'.2.obeyAll p.traced later) ∧
          (wentWell (x'.2.ask p.traced .reconcile).1 = true →
            (x'.2.ask p.traced .reconcile).2.controller =
              (y'.2.ask p.traced .reconcile).2.controller)) := by
  obtain ⟨hanswer, htwin⟩ := (h.traced []).ask p.traced
  refine ⟨hanswer, fun hwell commands later hkeeps => ?_⟩
  obtain ⟨hfirst, hlater⟩ := keepsName_append.1 hkeeps
  have hnext := ((htwin hwell).obeyAll hfirst).2
  exact ⟨(htwin hwell).indistinct hfirst, hnext.fromNow.indistinct hlater,
    hnext.ask_reconcile p.traced⟩

end Station

/-! ## Simulated providers -/

namespace Fleet

/-- Drivers that have no machines to begin with. -/
def bare : DriverConfig := ⟨Cloud.kind, .array [.null, .nat 0, .nat 0]⟩

/-- A station that was put to work on a configuration and has worked for seven seconds. -/
def workingOn (config : PoolConfig) : Station Fleet :=
  let new := Station.boot provider (some ⟨["data"]⟩)
    { now := ⟨0, 0⟩, outside := .new false, files := default }
  let configured := (new.ask provider (.configure config)).2
  (configured.ask provider .start).2.advance provider 7000000000

/-- A pool of two machines at work. -/
def webAtWork : Station Fleet := workingOn { twoMachines with driver := bare }

/-- A pool of another name at work, in the same world. -/
def dbAtWork : Station Fleet :=
  (workingOn { hurried with name := "db", driver := bare }).after webAtWork.world.outside

/-- A configuration with a new name. -/
def api : PoolConfig := { hurried with name := "api", driver := bare }

theorem strangers_webAtWork_dbAtWork : Station.Strangers "api" webAtWork dbAtWork where
  state := by decide +kernel
  left := ⟨"web", by decide +kernel, by decide⟩
  right := ⟨"db", by decide +kernel, by decide⟩
  now := by decide +kernel
  outside := by rw [dbAtWork, Station.outside_after]
  store := by decide +kernel
  files st hst := by
    have hstore : webAtWork.store = some ⟨["data"]⟩ := by decide +kernel
    rw [hstore] at hst
    cases hst
    have hready : (⟨["data"]⟩ : Store).Ready Snapshot.file webAtWork.world.files ↔
        (⟨["data"]⟩ : Store).Ready Snapshot.file dbAtWork.world.files :=
      iff_of_true (by decide +kernel) (by decide +kernel)
    exact .of_foreign (by decide +kernel) (by decide +kernel) hready
  stuck := by decide +kernel

/-- The new pool is asked for its status and its machines, and resized. -/
def errands : List Command :=
  [.ask .getStatus, .ask (.setDesired 3), .ask .reconcile, .ask .getPool, .advance 1000000000]

theorem rename_isolates_webFromDb :
    Station.Strangers api.name webAtWork dbAtWork ∧
      webAtWork.controller.desired ≠ dbAtWork.controller.desired ∧
      webAtWork.controller.lastReconciled ≠ dbAtWork.controller.lastReconciled ∧
      Station.wentWell ((webAtWork.traced []).ask provider.traced (.configure api)).1 = true ∧
      ((webAtWork.traced []).ask provider.traced (.configure api)).2.KeepsName provider.traced
        api.name (errands ++ [.ask .reconcile]) ∧
      Station.Indistinct (webAtWork.traced []) (dbAtWork.traced [])
        (((webAtWork.traced []).ask provider.traced (.configure api)).2.obeyAll provider.traced
          errands)
        (((dbAtWork.traced []).ask provider.traced (.configure api)).2.obeyAll provider.traced
          errands) := by
  have hwell : Station.wentWell
      ((webAtWork.traced []).ask provider.traced (.configure api)).1 = true := by decide +kernel
  have hkeeps : ((webAtWork.traced []).ask provider.traced (.configure api)).2.KeepsName
      provider.traced api.name (errands ++ [.ask .reconcile]) := by decide +kernel
  have hstrangers : Station.Strangers api.name webAtWork dbAtWork := strangers_webAtWork_dbAtWork
  obtain ⟨_, hisolated⟩ := Station.rename_isolates provider hstrangers
  exact ⟨hstrangers, by decide +kernel, by decide +kernel, hwell, hkeeps,
    (hisolated hwell errands [.ask .reconcile] hkeeps).1⟩

end Fleet

end PoolKeeper
