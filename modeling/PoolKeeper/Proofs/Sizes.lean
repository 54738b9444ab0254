import PoolKeeper.Proofs.Failure
import PoolKeeper.Proofs.Naming
import PoolKeeper.Proofs.Restart
import PoolKeeper.Proofs.Transparency

/-!
# Desired sizes

The desired size is set, learned, forgotten, raised and lowered. It is kept in a word, and raising
it is the one change that a word may have no room for: the controller breaks down with it.

* `SizeChange.count`, `SizeChange.hold`: changes of a size without a largest one, and in a word;
* `Station.sizeChanges`, `Station.sizeLog`: the changes that requests and cycles make;
* `Station.desired_respond`, **`Station.desired_happenAll`**: the desired size is what those changes
  make of it in a word;
* `Station.Admits`, `Station.Roomy`: a machine joins the pool; the word has room whenever one does;
* **`Station.size_exact_iff`**: that is when the desired size is exact; otherwise a machine joins
  and the controller ends.
-/

namespace PoolKeeper

/-! ## Changes -/

/-- A change of the desired size. -/
inductive SizeChange where
  | set (size : Nat)
  /-- A cycle found a size. It is taken if none is known. -/
  | learn (size : Nat)
  | forget
  | raise
  | lower
deriving DecidableEq, Repr

namespace SizeChange

/-- The size after a change, if there is no largest one. -/
def count (size : Option Nat) : SizeChange → Option Nat
  | set size => some size
  | learn found => some (size.getD found)
  | forget => none
  | raise => size.map (· + 1)
  | lower => size.map (· - 1)

/-- The size after a change, in a word. It stays when there is no room for one more. -/
def hold (size : Option Nat) : SizeChange → Option Nat
  | raise => size.map fun size => if Controller.sizeLimit ≤ size + 1 then size else size + 1
  | change => count size change

/-- The size of a configuration, whatever the size was. -/
def anew (size : Option Nat) : List SizeChange := .forget :: (size.map .set).toList

/-- A word has room for one more. -/
def Room (size : Option Nat) : Prop := ∀ n, size = some n → n + 1 < Controller.sizeLimit

theorem hold_eq_count {change : SizeChange} (h : change ≠ .raise) (size : Option Nat) :
    hold size change = count size change := by
  cases change with
  | raise => exact absurd rfl h
  | set _ => rfl
  | learn _ => rfl
  | forget => rfl
  | lower => rfl

theorem foldl_hold {changes : List SizeChange} (h : SizeChange.raise ∉ changes)
    (size : Option Nat) : changes.foldl hold size = changes.foldl count size := by
  induction changes generalizing size with
  | nil => rfl
  | cons change rest ih =>
    rw [List.mem_cons, not_or] at h
    rw [List.foldl_cons, List.foldl_cons, hold_eq_count (Ne.symm h.1), ih h.2]

theorem raise_not_mem_set (size : Option Nat) : raise ∉ (size.map set).toList := by
  cases size with
  | none => exact List.not_mem_nil
  | some size => exact fun h => nomatch h

theorem foldl_anew (size known : Option Nat) : (anew size).foldl hold known = size := by
  cases size with
  | none => rfl
  | some size => rfl

theorem room_some {n : Nat} : Room (some n) ↔ n + 1 < Controller.sizeLimit :=
  ⟨fun h => h n rfl, fun h _ hn => Option.some.inj hn ▸ h⟩

theorem not_room_iff (size : Option Nat) :
    ¬ Room size ↔ (size.any fun size => decide (Controller.sizeLimit ≤ size + 1)) = true := by
  cases size with
  | none => exact iff_of_false (fun h => h fun _ hn => (by cases hn)) Bool.false_ne_true
  | some n => rw [room_some, Nat.not_lt, Option.any_some, decide_eq_true_iff]

/-- A word keeps one more exactly if it has room for it. -/
theorem hold_raise_iff (size : Option Nat) : hold size .raise = count size .raise ↔ Room size := by
  cases size with
  | none => exact ⟨fun _ n hn => (by cases hn), fun _ => rfl⟩
  | some n =>
    rw [room_some]
    show some (if Controller.sizeLimit ≤ n + 1 then n else n + 1) = some (n + 1) ↔ _
    split
    · rename_i hfull
      exact iff_of_false (fun h => absurd (Option.some.inj h) (Nat.ne_of_lt (Nat.lt_succ_self n)))
        (Nat.not_lt.2 hfull)
    · rename_i hroom
      exact iff_of_true rfl (Nat.not_le.1 hroom)

theorem le_hold_raise (n : Nat) : ∃ m, hold (some n) .raise = some m ∧ n ≤ m := by
  refine ⟨_, rfl, ?_⟩
  show n ≤ if Controller.sizeLimit ≤ n + 1 then n else n + 1
  split
  · exact Nat.le_refl n
  · exact Nat.le_succ n

end SizeChange

/-! ## Controllers -/

namespace Controller

variable {σ : Type}

/-- The size of a pool is forgotten when it is given another name, -/
def forgotten (c : Controller) (name : String) : List SizeChange :=
  match c.applied with
  | some a => if a.config.name = name then [] else [.forget]
  | none => []

/-- and set when its configuration has one. -/
def sizesOf (c : Controller) (config : PoolConfig) : List SizeChange :=
  c.forgotten config.name ++ (config.desiredSize.map .set).toList

theorem desired_forgetOther (c : Controller) (name : String) :
    (c.forgetOther name).desired = (c.forgotten name).foldl SizeChange.hold c.desired := by
  unfold forgetOther forgotten
  cases c.applied with
  | none => rfl
  | some a =>
    simp only
    split
    · rfl
    · rfl

theorem desired_adopt (c : Controller) (a : Applied) :
    (c.adopt a).1.desired = (c.sizesOf a.config).foldl SizeChange.hold c.desired := by
  rw [sizesOf, List.foldl_append, ← desired_forgetOther, adopt]
  cases a.config.desiredSize with
  | none => rfl
  | some size =>
    simp only [setDesired_fst]
    rfl

theorem raise_not_mem_sizesOf (c : Controller) (config : PoolConfig) :
    SizeChange.raise ∉ c.sizesOf config := by
  intro h
  rcases List.mem_append.1 h with hforgotten | hset
  · unfold forgotten at hforgotten
    split at hforgotten
    · split at hforgotten
      · cases hforgotten
      · cases List.mem_singleton.1 hforgotten
    · cases hforgotten
  · exact SizeChange.raise_not_mem_set _ hset

/-- A cycle that ends with a report has found a size. -/
def found (answer : Except ControllerError Report) : List SizeChange :=
  match answer with
  | .ok report => [.learn report.netSize]
  | .error _ => []

theorem desired_reconcile (p : Provider σ) (a : Applied) (view : Pool) (now : Instant)
    (c : Controller) (outside : σ) :
    (c.reconcile p a view now outside).2.1.desired =
      (found (c.reconcile p a view now outside).1).foldl SizeChange.hold c.desired := by
  let t : Turn σ := ⟨p, a, view, now, c, outside⟩
  show t.outcome.2.1.desired = (found t.outcome.1).foldl SizeChange.hold c.desired
  by_cases hvalid : t.Valid
  · by_cases hgoes : t.GoesThrough
    · rw [t.outcome_of_goesThrough hvalid hgoes, t.closing_controller]
      show some t.desired = (found (.ok t.closing.report)).foldl SizeChange.hold c.desired
      rw [found, t.closing_report]
      rfl
    · rw [t.outcome_of_not_goesThrough hvalid hgoes]
      rfl
  · rw [t.outcome_of_not_valid hvalid]
    rfl

end Controller

/-! ## Stations -/

namespace Station

variable {σ : Type} (p : Provider σ) (s : Station σ)

/-- What a request does to the size when it is done. A machine that leaves is counted off if that
was asked for and it did not wait for its termination. -/
def granted (request : Request) (reply : Reply) (s : Station σ) : List SizeChange :=
  match request, reply with
  | .configure config, _ => s.controller.sizesOf config
  | .setDesired size, _ => [.set size]
  | .reconcile, .report report => [.learn report.netSize]
  | .attach _, _ => [.raise]
  | .terminate id decrement, _ | .detach id decrement, _ =>
    if decrement ∧ ¬ s.controller.queue.contains id then [.lower] else []
  | _, _ => []

/-- What a request does to the size. One that fails does nothing to it. -/
def sizeChanges (request : Request) : List SizeChange :=
  match (s.respond p request).1 with
  | .ok reply => s.granted request reply
  | .error _ => []

theorem desired_view : s.view.2.controller.desired = s.controller.desired := by
  rcases view_cases s with ⟨snapshot, _, heq⟩ | ⟨e, heq⟩
  · rw [heq]
    rfl
  · rw [heq]

theorem desired_reconcile :
    (s.reconcile p).2.controller.desired =
      (Controller.found (s.reconcile p).1).foldl SizeChange.hold s.controller.desired := by
  have hview := s.desired_view
  unfold reconcile
  split
  · rfl
  · split
    · rfl
    · rename_i a _
      split
      · rename_i heq
        rw [heq] at hview
        exact hview
      · rename_i view s' heq
        rw [heq] at hview
        rw [← hview]
        exact Controller.desired_reconcile p a view s'.world.now s'.controller s'.world.outside

theorem desired_configure {config : PoolConfig} (h : (s.configure p config).1 = .ok ()) :
    (s.configure p config).2.controller.desired =
      (s.controller.sizesOf config).foldl SizeChange.hold s.controller.desired := by
  rcases apply_outcome p s config with ⟨e, outside, heq⟩ | ⟨hvalid, d, outside, htakes⟩
  · have hrefused : s.configure p config = (.error e, s.after outside) := by
      simp only [configure, heq]
    rw [hrefused] at h
    cases h
  · obtain ⟨events, heq⟩ := apply_of_takes hvalid htakes
    obtain ⟨_, hc⟩ := controller_proceed p (s.controller.state = .started)
      (s.adopted ⟨config, d⟩ outside events)
    rw [configure_of_apply heq, hc]
    exact s.controller.desired_adopt ⟨config, d⟩

theorem desired_startedView : s.startedView.2.controller.desired = s.controller.desired := by
  unfold startedView
  split
  · rfl
  · exact s.desired_view

theorem plain_eq_ok {r : Except ControllerError Unit × Station σ} {reply : Reply}
    (h : (plain r).1 = .ok reply) : r.1 = .ok () ∧ reply = .done := by
  obtain ⟨answer, s⟩ := r
  cases answer with
  | error e => cases h
  | ok u =>
    cases h
    exact ⟨rfl, rfl⟩

variable {p s}

theorem desired_leaving {request : Request} {id : String} {decrement : Bool} {reply : Reply}
    (hremoval : request = .terminate id decrement ∨ request = .detach id decrement)
    (h : (s.respond p request).1 = .ok reply) :
    (s.respond p request).2.controller.desired =
      (if decrement ∧ ¬ s.controller.queue.contains id then [SizeChange.lower] else []).foldl
        SizeChange.hold s.controller.desired := by
  rcases removal_cases p s hremoval with ⟨snapshot, _, _, _, hc⟩ | ⟨e, herror, _⟩
  · rw [hc]
    show (if decrement ∧ ¬ s.controller.queue.contains id then s.controller.desired.map (· - 1)
      else s.controller.desired) = _
    split
    · rfl
    · rfl
  · rw [herror] at h
    cases h

theorem desired_machineCall (id : String)
    (call : DriverId → Instant → σ → Except DriverError Unit × σ) :
    (s.machineCall p id call fun s => s).2.controller.desired = s.controller.desired := by
  rcases machineCall_cases p id call (fun s => s) s with ⟨_, outside, hc⟩ | ⟨_, _, hc⟩
  · rw [hc]
    rfl
  · rw [hc]

theorem desired_respond_reconcile :
    (s.respond p .reconcile).2.controller.desired =
      (s.sizeChanges p .reconcile).foldl SizeChange.hold s.controller.desired := by
  have hcycle := s.desired_reconcile p
  unfold sizeChanges respond
  generalize s.reconcile p = result at hcycle ⊢
  obtain ⟨answer, s'⟩ := result
  cases answer with
  | ok report => exact hcycle
  | error e => exact hcycle

theorem desired_of_granted {request : Request} {reply : Reply} (hcycle : request ≠ .reconcile)
    (h : (s.respond p request).1 = .ok reply) :
    (s.respond p request).2.controller.desired =
      (s.granted request reply).foldl SizeChange.hold s.controller.desired := by
  cases request with
  | configure config => exact desired_configure p s (plain_eq_ok h).1
  | getConfiguration =>
    rw [respond]
    split
    · rfl
    · rfl
  | start =>
    rw [respond]
    split
    · rfl
    · rfl
    · obtain ⟨_, hc⟩ := controller_launch p s
      exact (congrArg Controller.desired hc).trans rfl
  | stop =>
    rw [respond]
    split
    · obtain ⟨_, hc⟩ := controller_become s.halt .stopped
      exact (congrArg Controller.desired hc).trans rfl
    · rfl
  | getStatus => rfl
  | reconcile => exact absurd rfl hcycle
  | getPool => exact s.desired_startedView
  | getPoolSize =>
    show s.poolSize.2.controller.desired = _
    rw [poolSize_snd]
    exact s.desired_startedView
  | setDesired size =>
    simp only [respond] at h ⊢
    split
    · rename_i hunconfigured
      rw [if_pos hunconfigured] at h
      cases h
    · show (s.controller.setDesired size).1.desired = _
      rw [Controller.setDesired_fst]
      rfl
  | terminate id decrement => exact desired_leaving (.inl rfl) h
  | attach id =>
    obtain ⟨_, rfl⟩ := plain_eq_ok h
    rw [controller_attach h]
    rfl
  | detach id decrement => exact desired_leaving (.inr rfl) h
  | setService id service => exact desired_machineCall id _
  | setMembership id membership => exact desired_machineCall id _

variable (p s) in
/-- **The size after a request.** -/
theorem desired_respond (request : Request) :
    (s.respond p request).2.controller.desired =
      (s.sizeChanges p request).foldl SizeChange.hold s.controller.desired := by
  by_cases hcycle : request = .reconcile
  · rw [hcycle]
    exact desired_respond_reconcile
  · unfold sizeChanges
    cases h : (s.respond p request).1 with
    | ok reply => exact desired_of_granted hcycle h
    | error e =>
      rw [(respond_failed hcycle h).rest]
      rfl

/-! ## Runs -/

/-- A cycle is due. -/
def cycleDue (s : Station σ) : Bool := s.working.any fun r => r.ticker.due ≤ s.world.now

/-- What something that happens does to the size. A controller that begins anew knows the size of
its configuration, if there is one. -/
def happenChanges (p : Provider σ) (h : Happening σ) (s : Station σ) : List SizeChange :=
  match h with
  | .message request => if s.stuck then [] else s.sizeChanges p request
  | .cycle _ => if s.cycleDue then s.sizeChanges p .reconcile else []
  | .restart => SizeChange.anew ((s.restart p).controller.applied.bind (·.config.desiredSize))
  | .refresh | .later _ | .outside _ => []

/-- All changes of the size during a run. -/
def sizeLog (p : Provider σ) : List (Happening σ) → Station σ → List SizeChange
  | [], _ => []
  | h :: rest, s => s.happenChanges p h ++ (s.happen p h).2.sizeLog p rest

theorem sizeChanges_ticker {r : Running} (hr : s.running = some r) (ticker : Ticker) :
    sizeChanges p { s with running := some { r with ticker } } .reconcile =
      s.sizeChanges p .reconcile := by
  have hanswer : (reconcile p { s with running := some { r with ticker } }).1 =
      (s.reconcile p).1 := by
    unfold reconcile
    simp only
    split
    · rfl
    · split
      · rfl
      · simp only [view, hr]
        cases r.live.cache.serve s.world.now with
        | error e => rfl
        | ok pool => rfl
  unfold sizeChanges respond
  simp only [hanswer]
  rfl

theorem desired_tick (freeSince : Instant) :
    (s.tick p freeSince).controller.desired =
      (s.happenChanges p (.cycle freeSince)).foldl SizeChange.hold s.controller.desired := by
  unfold tick happenChanges cycleDue
  cases hr : s.working with
  | none => rfl
  | some r =>
    by_cases hdue : r.ticker.due ≤ s.world.now
    · simp only [if_pos hdue, Option.any_some, decide_eq_true hdue]
      rw [if_pos trivial, ← sizeChanges_ticker (running_of_working hr)
        (r.ticker.fire (freeSince.latest r.ticker.due))]
      exact desired_respond_reconcile
    · simp only [if_neg hdue, Option.any_some, decide_eq_false hdue]
      rfl

variable (p) in
theorem desired_boot (store : Option Store) (world : World σ) :
    (boot p store world).controller.desired =
      (boot p store world).controller.applied.bind (·.config.desiredSize) := by
  unfold boot
  simp only
  split
  · rename_i config _
    rcases apply_outcome p { world, store } config with
      ⟨e, outside, heq⟩ | ⟨hvalid, d, outside, htakes⟩
    · rw [heq]
      rfl
    · obtain ⟨events, heq⟩ := apply_of_takes hvalid htakes
      rw [heq]
      show (Controller.adopt {} ⟨config, d⟩).1.desired =
        (Controller.adopt {} ⟨config, d⟩).1.applied.bind (·.config.desiredSize)
      rw [adopt_new]
      rfl
  · rfl

variable (p s) in
theorem desired_happen (h : Happening σ) :
    (s.happen p h).2.controller.desired =
      (s.happenChanges p h).foldl SizeChange.hold s.controller.desired := by
  cases h with
  | message request =>
    show (s.heed p request).2.controller.desired = _
    unfold heed happenChanges
    split
    · rfl
    · exact desired_respond p s request
  | cycle freeSince => exact desired_tick freeSince
  | refresh =>
    show (s.refreshDue p).controller.desired = _
    rw [controller_refreshDue]
    rfl
  | later d => rfl
  | outside change => rfl
  | restart =>
    show (s.restart p).controller.desired = (SizeChange.anew _).foldl _ _
    rw [SizeChange.foldl_anew]
    exact desired_boot p s.store _

variable (p s) in
/-- **The size during a run** is what those changes make of it, in a word. -/
theorem desired_happenAll (hs : List (Happening σ)) :
    (s.happenAll p hs).controller.desired =
      (s.sizeLog p hs).foldl SizeChange.hold s.controller.desired := by
  induction hs generalizing s with
  | nil => rfl
  | cons h rest ih =>
    rw [sizeLog, List.foldl_append, ← desired_happen]
    exact ih (s.happen p h).2

/-- A request to take a machine into the pool is heard, and the driver does it. -/
def Admits (p : Provider σ) (id : String) (s : Station σ) : Prop :=
  s.stuck = false ∧ ∃ d, s.startedDriver = .ok d ∧
    (p.attach d id s.world.now s.world.outside).1 = .ok ()

/-- The size has room for every machine that is taken in during a run. -/
def Roomy (p : Provider σ) (hs : List (Happening σ)) (s : Station σ) : Prop :=
  ∀ before id after, hs = before ++ .message (.attach id) :: after →
    (s.happenAll p before).Admits p id →
      SizeChange.Room (s.happenAll p before).controller.desired

/-- The size is exact during a run. -/
def Exact (p : Provider σ) (hs : List (Happening σ)) (s : Station σ) : Prop :=
  ∀ before after, hs = before ++ after →
    (s.happenAll p before).controller.desired =
      (s.sizeLog p before).foldl SizeChange.count s.controller.desired

/-- Every machine that is taken in during a run without room for it ends the controller: nobody is
answered. -/
def Ends (p : Provider σ) (hs : List (Happening σ)) (s : Station σ) : Prop :=
  ∀ before id after, hs = before ++ .message (.attach id) :: after →
    (s.happenAll p before).Admits p id →
      ¬ SizeChange.Room (s.happenAll p before).controller.desired →
        ((s.happenAll p before).happen p (.message (.attach id))).1 = none ∧
          (s.happenAll p (before ++ [.message (.attach id)])).stuck = true

/-- No machine that is taken in during a run makes the size smaller. -/
def Upward (p : Provider σ) (hs : List (Happening σ)) (s : Station σ) : Prop :=
  ∀ before id after, hs = before ++ .message (.attach id) :: after →
    (s.happenAll p before).Admits p id →
      ∀ size, (s.happenAll p before).controller.desired = some size →
        ∃ larger, (s.happenAll p (before ++ [.message (.attach id)])).controller.desired =
          some larger ∧ size ≤ larger

theorem machineCall_ok_iff {id : String}
    {call : DriverId → Instant → σ → Except DriverError Unit × σ} {note : Station σ → Station σ} :
    (s.machineCall p id call note).1 = .ok () ↔
      ∃ d, s.startedDriver = .ok d ∧ (call d s.world.now s.world.outside).1 = .ok () := by
  unfold machineCall
  cases s.startedDriver with
  | error e => exact iff_of_false (fun h => by cases h) fun ⟨_, h, _⟩ => by cases h
  | ok d =>
    simp only
    generalize hcall : call d s.world.now s.world.outside = result
    obtain ⟨answer, outside⟩ := result
    cases answer with
    | error e =>
      refine iff_of_false (fun h => by cases h) fun ⟨_, h, hok⟩ => ?_
      cases h
      rw [hcall] at hok
      cases hok
    | ok u => exact iff_of_true rfl ⟨d, rfl, by rw [hcall]⟩

theorem respond_attach_iff {id : String} :
    (s.respond p (.attach id)).1 = .ok .done ↔
      ∃ d, s.startedDriver = .ok d ∧ (p.attach d id s.world.now s.world.outside).1 = .ok () := by
  have hplain : s.respond p (.attach id) = plain (s.attach p id) := rfl
  have hattach : (s.attach p id).1 = .ok () ↔ ∃ d, s.startedDriver = .ok d ∧
      (p.attach d id s.world.now s.world.outside).1 = .ok () := machineCall_ok_iff
  rw [hplain, ← hattach]
  refine ⟨fun h => (plain_eq_ok h).1, fun h => ?_⟩
  rw [plain, h]
  rfl

theorem Admits.changes {id : String} (h : s.Admits p id) :
    s.happenChanges p (.message (.attach id)) = [.raise] := by
  unfold happenChanges sizeChanges
  simp only [h.1, respond_attach_iff.2 h.2]
  rfl

theorem stuck_refresh (h : s.stuck = true) : (s.refresh p).stuck = true := by
  rw [refresh, working, if_pos h]
  exact h

/-- Without room the controller breaks down once the driver has taken the machine in. -/
theorem Admits.stuck {id : String} (h : s.Admits p id)
    (hfull : ¬ SizeChange.Room s.controller.desired) :
    (s.respond p (.attach id)).2.stuck = true := by
  obtain ⟨d, hd, hok⟩ := h.2
  show (s.attach p id).2.stuck = true
  unfold attach machineCall
  rw [hd]
  simp only
  generalize p.attach d id s.world.now s.world.outside = result at hok
  obtain ⟨_, outside⟩ := result
  cases hok
  refine stuck_refresh ?_
  rw [noteAttached_eq]
  show (s.stuck || s.controller.raiseDesired.isNone) = true
  rw [Controller.isNone_raiseDesired, (SizeChange.not_room_iff _).1 hfull, Bool.or_true]

theorem Admits.ends {id : String} (h : s.Admits p id)
    (hfull : ¬ SizeChange.Room s.controller.desired) :
    (s.happen p (.message (.attach id))).1 = none ∧
      (s.happen p (.message (.attach id))).2.stuck = true := by
  have hstuck := h.stuck hfull
  show (s.heed p (.attach id)).1 = none ∧ (s.heed p (.attach id)).2.stuck = true
  rw [heed, if_neg (by rw [h.1]; exact Bool.false_ne_true)]
  exact ⟨if_pos hstuck, hstuck⟩

theorem attach_of_raise {request : Request} {reply : Reply}
    (h : .raise ∈ s.granted request reply) : ∃ id, request = .attach id := by
  unfold granted at h
  split at h
  · exact absurd h (s.controller.raise_not_mem_sizesOf _)
  · cases List.mem_singleton.1 h
  · cases List.mem_singleton.1 h
  · exact ⟨_, rfl⟩
  · split at h
    · cases List.mem_singleton.1 h
    · cases h
  · split at h
    · cases List.mem_singleton.1 h
    · cases h
  · cases h

theorem admits_of_sizeChanges {request : Request} (h : .raise ∈ s.sizeChanges p request) :
    ∃ id, request = .attach id ∧ (s.respond p (.attach id)).1 = .ok .done := by
  unfold sizeChanges at h
  split at h
  · rename_i reply hreply
    obtain ⟨id, rfl⟩ := attach_of_raise h
    obtain ⟨_, rfl⟩ := plain_eq_ok hreply
    exact ⟨id, rfl, hreply⟩
  · cases h

/-- Nothing but a machine that is taken in raises the size. -/
theorem admits_of_raise {h : Happening σ} (hraise : .raise ∈ s.happenChanges p h) :
    ∃ id, h = .message (.attach id) ∧ s.Admits p id := by
  unfold happenChanges at hraise
  split at hraise
  · split at hraise
    · cases hraise
    · rename_i hstuck
      obtain ⟨id, rfl, hok⟩ := admits_of_sizeChanges hraise
      exact ⟨id, rfl, Bool.not_eq_true _ ▸ hstuck, respond_attach_iff.1 hok⟩
  · split at hraise
    · obtain ⟨id, hrequest, _⟩ := admits_of_sizeChanges hraise
      cases hrequest
    · cases hraise
  · rcases List.mem_cons.1 hraise with hforget | hset
    · cases hforget
    · exact absurd hset (SizeChange.raise_not_mem_set _)
  · cases hraise
  · cases hraise
  · cases hraise

/-- What happens is counted exactly unless it is a machine that the size has no room for. -/
theorem happen_exact_iff (h : Happening σ) :
    (s.happen p h).2.controller.desired =
        (s.happenChanges p h).foldl SizeChange.count s.controller.desired ↔
      ∀ id, h = .message (.attach id) → s.Admits p id → SizeChange.Room s.controller.desired := by
  rw [desired_happen]
  by_cases hadmits : ∃ id, h = .message (.attach id) ∧ s.Admits p id
  · obtain ⟨id, rfl, hadmits⟩ := hadmits
    rw [hadmits.changes, List.foldl_cons, List.foldl_nil, List.foldl_cons, List.foldl_nil,
      SizeChange.hold_raise_iff]
    exact ⟨fun hroom _ _ _ => hroom, fun h => h id rfl hadmits⟩
  · have hraise : SizeChange.raise ∉ s.happenChanges p h := mt admits_of_raise hadmits
    rw [SizeChange.foldl_hold hraise]
    exact iff_of_true rfl fun id hh ha => absurd ⟨id, hh, ha⟩ hadmits

theorem Admits.upward {id : String} (h : s.Admits p id) {size : Nat}
    (hsize : s.controller.desired = some size) :
    ∃ larger, (s.happen p (.message (.attach id))).2.controller.desired = some larger ∧
      size ≤ larger := by
  rw [desired_happen, h.changes, hsize]
  exact SizeChange.le_hold_raise size

theorem exact_cons {h : Happening σ} {rest : List (Happening σ)} :
    s.Exact p (h :: rest) ↔
      (s.happen p h).2.controller.desired =
          (s.happenChanges p h).foldl SizeChange.count s.controller.desired ∧
        (s.happen p h).2.Exact p rest := by
  have hlog : ∀ before, (s.sizeLog p (h :: before)).foldl SizeChange.count s.controller.desired =
      ((s.happen p h).2.sizeLog p before).foldl SizeChange.count
        ((s.happenChanges p h).foldl SizeChange.count s.controller.desired) :=
    fun before => List.foldl_append
  constructor
  · intro hexact
    have hone : (s.happen p h).2.controller.desired =
        (s.happenChanges p h).foldl SizeChange.count s.controller.desired :=
      (hexact [h] rest rfl).trans (hlog [])
    refine ⟨hone, fun before after hrest => ?_⟩
    rw [hone, ← hlog before]
    exact hexact (h :: before) after (by rw [hrest]; rfl)
  · rintro ⟨hone, hrest⟩ before after heq
    cases before with
    | nil => rfl
    | cons h' before =>
      cases heq
      rw [hlog before, ← hone]
      exact hrest before after rfl

theorem roomy_cons {h : Happening σ} {rest : List (Happening σ)} :
    s.Roomy p (h :: rest) ↔
      (∀ id, h = .message (.attach id) → s.Admits p id → SizeChange.Room s.controller.desired) ∧
        (s.happen p h).2.Roomy p rest := by
  constructor
  · intro hroomy
    refine ⟨fun id hh ha => hroomy [] id rest (by rw [hh]; rfl) ha, ?_⟩
    intro before id after hrest
    exact hroomy (h :: before) id after (by rw [hrest]; rfl)
  · rintro ⟨hone, hrest⟩ before id after heq
    cases before with
    | nil =>
      cases heq
      exact hone id rfl
    | cons h' before =>
      cases heq
      exact hrest before id after rfl

variable (p s) in
/-- The size is exact while it has room. -/
theorem exact_iff_roomy (hs : List (Happening σ)) : s.Exact p hs ↔ s.Roomy p hs := by
  induction hs generalizing s with
  | nil =>
    refine iff_of_true (fun before after heq => ?_) fun before id after heq => ?_
    · rw [(List.append_eq_nil_iff.1 heq.symm).1]
      rfl
    · cases (List.append_eq_nil_iff.1 heq.symm).2
  | cons h rest ih => rw [exact_cons, roomy_cons, happen_exact_iff, ih]

/-- **When the size is exact.** Whatever happens, the size is what was done to it, in a word, and no
machine that is taken in makes it smaller. It is the exact number of all that was done exactly if
there is room for every machine that is taken in; one without room ends the controller, which
answers nobody. -/
theorem size_exact_iff (p : Provider σ) (s : Station σ) (hs : List (Happening σ)) :
    (s.happenAll p hs).controller.desired =
        (s.sizeLog p hs).foldl SizeChange.hold s.controller.desired ∧
      (s.Exact p hs ↔ s.Roomy p hs) ∧ s.Ends p hs ∧ s.Upward p hs := by
  have hafter : ∀ before id, s.happenAll p (before ++ [.message (.attach id)]) =
      ((s.happenAll p before).happen p (.message (.attach id))).2 :=
    fun before id => happenAll_append p s before _
  refine ⟨desired_happenAll p s hs, exact_iff_roomy p s hs, ?_, ?_⟩
  · intro before id after _ hadmits hfull
    rw [hafter]
    exact hadmits.ends hfull
  · intro before id after _ hadmits size hsize
    rw [hafter]
    exact hadmits.upward hsize

/-- A station at work on one machine. -/
def oneAtWork : Station Fleet :=
  Fleet.atWork { name := "web", driver := ⟨Cloud.kind, .array [.null, .nat 0, .nat 1]⟩ }

/-- The machine leaves, the size is set to the last number of a word, and the machine is taken in
again. -/
def backAtLast : List (Happening Fleet) :=
  [.message (.detach "web-0001" false), .message (.setDesired (Controller.sizeLimit - 1)),
    .message (.attach "web-0001")]

/-- The machine joins the pool, the size does not grow, and the controller ends. -/
theorem size_overflows :
    (oneAtWork.happenAll Fleet.provider backAtLast).controller.desired =
        some (Controller.sizeLimit - 1) ∧
      (oneAtWork.sizeLog Fleet.provider backAtLast).foldl SizeChange.count
        oneAtWork.controller.desired = some Controller.sizeLimit ∧
      (oneAtWork.happenAll Fleet.provider backAtLast).stuck = true ∧
      ¬ oneAtWork.Exact Fleet.provider backAtLast := by
  have hheld : (oneAtWork.happenAll Fleet.provider backAtLast).controller.desired =
      some (Controller.sizeLimit - 1) := by decide +kernel
  have hcounted : (oneAtWork.sizeLog Fleet.provider backAtLast).foldl SizeChange.count
      oneAtWork.controller.desired = some Controller.sizeLimit := by decide +kernel
  refine ⟨hheld, hcounted, by decide +kernel, fun hexact => ?_⟩
  have hlast := hexact backAtLast [] rfl
  rw [hheld, hcounted] at hlast
  exact absurd hlast (by decide)

end Station

end PoolKeeper
