import Mathlib.Data.List.Nodup
import PoolKeeper.Proofs.Forgetting

/-!
# What an overlay remembers

An overlay forgets as it goes. What it shows is told by its whole history all the same: of each
machine, the last that was noted, unless it is older than a snapshot that was looked at since.

* `Overlay.Action`, `Overlay.after`: what is done with an overlay, and what it is then;
* `Overlay.Record`, `Overlay.Entry`: what is noted of one machine, and a history of such notes and
  of looks; `Overlay.lasting`, `Overlay.live`: the records that count, by the history alone;
* `Overlay.lasting_concat`: what one more entry does to them;
* `Overlay.Reflects`: an overlay remembers the lasting records; `Overlay.reflects_after`: after any
  history it does;
* **`Overlay.shows_live`**: what a view shows, and that it does not matter which older snapshots
  were looked at before.
-/

namespace PoolKeeper

namespace Overlay

/-- What is done with an overlay. -/
inductive Action where
  | started (machines : List Machine) (time : Instant)
  | terminated (ids : List String) (time : Instant)
  | applied (snapshot : Pool)

/-- The overlay after an action. -/
def perform (o : Overlay) : Action → Overlay
  | .started machines time => o.recordStarted machines time
  | .terminated ids time => o.recordTerminated ids time
  | .applied snapshot => (o.apply snapshot).2

/-- The overlay after all that was done with it. -/
def after (history : List Action) : Overlay := history.foldl perform .empty

/-- What is noted of one machine. -/
inductive Record where
  | start (m : Machine) (time : Instant)
  | stop (id : String) (time : Instant)

namespace Record

def id : Record → String
  | start m _ => m.id
  | stop id _ => id

def time : Record → Instant
  | start _ time => time
  | stop _ time => time

/-- The machine whose start is noted, and when. -/
def started? : Record → Option (Machine × Instant)
  | start m time => some (m, time)
  | stop _ _ => none

/-- The machine whose end is noted. -/
def stopped? : Record → Option String
  | start _ _ => none
  | stop id _ => some id

end Record

/-- A note of one machine, or a look at a snapshot of a time. -/
inductive Entry where
  | noted (r : Record)
  | looked (takenAt : Instant)

namespace Entry

/-- The entry leaves an earlier record in force. -/
def Spares (r : Record) : Entry → Prop
  | noted r' => r.id ≠ r'.id
  | looked takenAt => takenAt ≤ r.time

instance (r : Record) (e : Entry) : Decidable (e.Spares r) :=
  match e with
  | noted r' => inferInstanceAs (Decidable (r.id ≠ r'.id))
  | looked takenAt => inferInstanceAs (Decidable (takenAt ≤ r.time))

/-- The record that an entry makes. -/
def records : Entry → List Record
  | noted r => [r]
  | looked _ => []

end Entry

/-- One entry for each machine that is noted. -/
def Action.entries : Action → List Entry
  | started machines time => machines.map fun m => .noted (.start m time)
  | terminated ids time => ids.map fun id => .noted (.stop id time)
  | applied snapshot => [.looked snapshot.takenAt]

/-- The records that are the last of their machine, and no older than any snapshot that was looked
at since. -/
def lasting : List Entry → List Record
  | [] => []
  | e :: rest => (e.records.filter fun r => ∀ later ∈ rest, later.Spares r) ++ lasting rest

/-- The lasting records of a history that are no older than a snapshot of a time. -/
def live (history : List Action) (takenAt : Instant) : List Record :=
  (lasting (history.flatMap Action.entries)).filter fun r => takenAt ≤ r.time

/-! ## Lasting records -/

/-- **One more entry ends the records that it does not spare, and adds its own.** -/
theorem lasting_concat (entries : List Entry) (e : Entry) :
    lasting (entries ++ [e]) = ((lasting entries).filter fun r => e.Spares r) ++ e.records := by
  induction entries with
  | nil => simp [lasting]
  | cons first rest ih =>
    have hfirst : (first.records.filter fun r => ∀ later ∈ rest ++ [e], later.Spares r) =
        (first.records.filter fun r => ∀ later ∈ rest, later.Spares r).filter
          fun r => e.Spares r := by
      rw [List.filter_filter]
      refine List.filter_congr fun r _ => ?_
      rw [Bool.eq_iff_iff]
      simp [or_imp, forall_and, and_comm]
    rw [List.cons_append, lasting, lasting, ih, hfirst, List.filter_append, List.append_assoc]

theorem noted_of_mem_lasting {entries : List Entry} {r : Record} (h : r ∈ lasting entries) :
    .noted r ∈ entries := by
  induction entries with
  | nil => cases h
  | cons first rest ih =>
    rcases List.mem_append.1 h with h | h
    · cases first with
      | noted r' =>
        obtain rfl := List.mem_singleton.1 (List.mem_of_mem_filter h)
        exact List.mem_cons_self
      | looked takenAt => cases List.mem_of_mem_filter h
    · exact List.mem_cons_of_mem _ (ih h)

theorem pairwise_lasting (entries : List Entry) :
    (lasting entries).Pairwise fun r r' => r.id ≠ r'.id := by
  induction entries with
  | nil => exact .nil
  | cons first rest ih =>
    refine List.pairwise_append.2 ⟨?_, ih, fun r hr r' hr' => ?_⟩
    · cases first with
      | noted r => exact (List.pairwise_singleton _ r).filter _
      | looked takenAt => exact .nil
    · have hspared := of_decide_eq_true (List.mem_filter.1 hr).2
      exact hspared _ (noted_of_mem_lasting hr')

theorem eq_of_mem_lasting {entries : List Entry} {r r' : Record} (h : r ∈ lasting entries)
    (h' : r' ∈ lasting entries) (hid : r.id = r'.id) : r = r' := by
  have hnodup : ((lasting entries).map Record.id).Nodup := by
    rw [List.Nodup, List.pairwise_map]
    exact pairwise_lasting entries
  exact List.inj_on_of_nodup_map hnodup h h' hid

/-! ## Overlays and their histories -/

/-- An overlay remembers the lasting records of a history. -/
structure Reflects (o : Overlay) (entries : List Entry) : Prop where
  started : o.started = (lasting entries).filterMap Record.started?
  terminated : ∀ id time, (id, time) ∈ o.terminated.entries ↔ Record.stop id time ∈ lasting entries

/-- The overlay after one entry of a history. -/
def enter (o : Overlay) : Entry → Overlay
  | .noted (.start m time) => o.recordStart time m
  | .noted (.stop id time) => o.recordTermination time id
  | .looked takenAt => o.forget takenAt

variable {o : Overlay} {entries : List Entry}

theorem reflects_empty : Reflects .empty [] :=
  ⟨rfl, fun _ _ => ⟨fun h => absurd h List.not_mem_nil, fun h => absurd h List.not_mem_nil⟩⟩

theorem started_filter {keep : Record → Bool} (keep' : Machine × Instant → Bool)
    (h : ∀ m time, keep (.start m time) = keep' (m, time)) (records : List Record) :
    (records.filter keep).filterMap Record.started? =
      (records.filterMap Record.started?).filter keep' := by
  rw [List.filterMap_filter, List.filter_filterMap]
  refine List.filterMap_congr fun r _ => ?_
  cases r with
  | start m time => simp [Record.started?, h, Option.filter]
  | stop id time => simp [Record.started?]

/-- **One entry after the other, an overlay keeps what lasts.** -/
theorem Reflects.enter (h : o.Reflects entries) (e : Entry) :
    (o.enter e).Reflects (entries ++ [e]) := by
  refine ⟨?_, fun id time => ?_⟩
  · rw [lasting_concat, List.filterMap_append]
    cases e with
    | noted r =>
      cases r with
      | start m noted =>
        rw [started_filter (fun e => e.1.id != m.id) fun x _ => ?_, ← h.started]
        · rfl
        · rw [Bool.eq_iff_iff, decide_eq_true_iff, bne_iff_ne]
          rfl
      | stop gone noted =>
        rw [started_filter (fun e => e.1.id != gone) fun x _ => ?_, ← h.started]
        · exact (List.append_nil _).symm
        · rw [Bool.eq_iff_iff, decide_eq_true_iff, bne_iff_ne]
          rfl
    | looked takenAt =>
      rw [started_filter (fun e => takenAt ≤ e.2) fun x _ => rfl, ← h.started]
      exact (List.append_nil _).symm
  · rw [lasting_concat, List.mem_append, List.mem_filter, ← h.terminated, decide_eq_true_iff]
    cases e with
    | noted r =>
      cases r with
      | start m noted =>
        rw [Overlay.enter, recordStart, IdMap.mem_erase]
        simp [Entry.Spares, Entry.records, Record.id]
      | stop gone noted =>
        rw [Overlay.enter, recordTermination, IdMap.mem_insert]
        simp [Entry.Spares, Entry.records, Record.id, or_comm]
    | looked takenAt =>
      rw [Overlay.enter, forget, IdMap.mem_filter]
      simp [Entry.Spares, Entry.records, Record.time]

theorem perform_eq (o : Overlay) (a : Action) : o.perform a = a.entries.foldl enter o := by
  cases a with
  | started machines time =>
    rw [Action.entries, List.foldl_map]
    rfl
  | terminated ids time =>
    rw [Action.entries, List.foldl_map]
    rfl
  | applied snapshot => rfl

theorem Reflects.foldl_enter (h : o.Reflects entries) (more : List Entry) :
    (more.foldl Overlay.enter o).Reflects (entries ++ more) := by
  induction more generalizing o entries with
  | nil =>
    rw [List.append_nil]
    exact h
  | cons e rest ih =>
    rw [List.append_cons]
    exact ih (h.enter e)

/-- **After any history, an overlay remembers what lasts.** -/
theorem reflects_after (history : List Action) :
    (after history).Reflects (history.flatMap Action.entries) := by
  have hfold : ∀ o : Overlay, history.foldl perform o =
      (history.flatMap Action.entries).foldl enter o := by
    induction history with
    | nil => exact fun _ => rfl
    | cons a rest ih =>
      intro o
      rw [List.foldl_cons, ih, perform_eq, List.flatMap_cons, List.foldl_append]
  rw [after, hfold]
  exact reflects_empty.foldl_enter _

/-! ## What is shown -/

/-- A look leaves the records of the history that are live. -/
theorem reflects_forget (history : List Action) (takenAt : Instant) :
    ((after history).forget takenAt).Reflects
      (history.flatMap Action.entries ++ [.looked takenAt]) :=
  (reflects_after history).enter (.looked takenAt)

theorem lasting_looked (history : List Action) (takenAt : Instant) :
    lasting (history.flatMap Action.entries ++ [.looked takenAt]) = live history takenAt := by
  rw [lasting_concat]
  exact List.append_nil _

/-- A machine's end is remembered if its record is among those that last. -/
theorem Reflects.contains_iff (h : o.Reflects entries) {id : String} :
    o.terminated.contains id = true ↔ id ∈ (lasting entries).filterMap Record.stopped? := by
  rw [IdMap.contains_iff, List.mem_filterMap]
  constructor
  · rintro ⟨⟨_, time⟩, he, rfl⟩
    exact ⟨_, (h.terminated _ time).1 he, rfl⟩
  · rintro ⟨r, hr, hid⟩
    cases r with
    | start m time => cases hid
    | stop id' time =>
      cases hid
      exact ⟨(id, time), (h.terminated _ time).2 hr, rfl⟩

theorem Reflects.distinct (h : o.Reflects entries) : o.Distinct := by
  have hstart : ∀ {r : Record} {e : Machine × Instant}, r.started? = some e → e.1.id = r.id := by
    intro r e he
    cases r with
    | start m time =>
      cases he
      rfl
    | stop id time => cases he
  rw [Distinct, startedIds, h.started, List.Nodup, List.pairwise_map, List.pairwise_filterMap]
  refine (pairwise_lasting entries).imp fun hne e he e' he' heq => hne ?_
  rw [← hstart he, ← hstart he', heq]

/-- No machine's start and end are both remembered. -/
theorem Reflects.disjoint (h : o.Reflects entries) {id : String} (hid : id ∈ o.startedIds) :
    o.terminated.contains id = false := by
  rw [← Bool.not_eq_true, h.contains_iff]
  intro hstopped
  obtain ⟨e, he, rfl⟩ := List.mem_map.1 hid
  rw [h.started] at he
  obtain ⟨r, hr, hstart⟩ := List.mem_filterMap.1 he
  obtain ⟨r', hr', hstop⟩ := List.mem_filterMap.1 hstopped
  cases r with
  | stop id time => cases hstart
  | start m time =>
    cases hstart
    cases r' with
    | start m' time' => cases hstop
    | stop id' time' =>
      cases hstop
      cases eq_of_mem_lasting hr hr' rfl

/-- **A view shows what is live, and nothing else.** No start is remembered twice, nor along with an
end of the same machine. A view has the machines of its snapshot in their order, where those that
hold capacity and whose last record is a live end are terminating, and then the machines whose last
record is a live start and that the snapshot does not list. Looks at older snapshots make no
difference. -/
theorem shows_live (history : List Action) (snapshot : Pool) :
    let o := after history
    let records := live history snapshot.takenAt
    let shown := (o.apply snapshot).1
    (o.startedIds.Nodup ∧ ∀ id ∈ o.startedIds, o.terminated.contains id = false) ∧
      shown.takenAt = snapshot.takenAt ∧
      shown.machines =
        (snapshot.machines.map fun m =>
          if m.isAllocated ∧ m.id ∈ records.filterMap Record.stopped? then
            { m with state := .terminating } else m) ++
        ((records.filterMap Record.started?).map Prod.fst).filter
          (fun m => !snapshot.contains m.id) ∧
      (snapshot.Distinct → shown.Distinct) ∧
      (∀ later : Pool, snapshot.takenAt ≤ later.takenAt →
        (o.apply snapshot).2.apply later = o.apply later) ∧
      (o.apply snapshot).2.apply snapshot = o.apply snapshot := by
  intro o records shown
  have hall : o.Reflects _ := reflects_after history
  have hrecent := reflects_forget history snapshot.takenAt
  have hlater : ∀ later : Pool, snapshot.takenAt ≤ later.takenAt →
      (o.apply snapshot).2.apply later = o.apply later := fun later hle => by
    simp only [apply, forget_forget o hle]
  refine ⟨⟨hall.distinct, fun id => hall.disjoint⟩, rfl, ?_,
    fun hdistinct => distinct_overlay hdistinct hrecent.distinct, hlater,
    hlater snapshot (Instant.le_refl _)⟩
  show snapshot.machines.map _ ++ unlisted _ snapshot = _
  rw [unlisted, hrecent.started, lasting_looked]
  refine congrArg₂ _ (List.map_congr_left fun m _ => ?_) rfl
  have hended : (o.forget snapshot.takenAt).terminated.contains m.id = true ↔
      m.id ∈ records.filterMap Record.stopped? := by
    rw [hrecent.contains_iff, lasting_looked]
  rw [showMachine, Bool.and_comm]
  simp only [Bool.and_eq_true, hended]

/-- Machine `a` was started again at the time of its end, `b` was ended twice with the clock gone
back, and `c` was ended at the very time of the snapshot. -/
theorem shows_live_startedAgain :
    let m (id : String) (state : MachineState) : Machine := { id, state }
    let snapshot : Pool := ⟨[m "b" .running, m "c" .running, m "d" .terminated], ⟨11, 0⟩⟩
    let history : List Action := [.started [m "a" .requested, m "b" .requested] ⟨10, 0⟩,
      .terminated ["a", "b", "d"] ⟨12, 0⟩, .started [m "a" .pending] ⟨12, 0⟩,
      .terminated ["c"] ⟨11, 0⟩, .applied snapshot, .terminated ["b"] ⟨9, 0⟩]
    let shown := ((after history).apply snapshot).1
    snapshot.Distinct ∧ shown.Distinct ∧
      shown.machines.map (fun m => (m.id, m.state)) =
        [("b", .running), ("c", .terminating), ("d", .terminated), ("a", .pending)] := by
  intro m snapshot history shown
  have hdistinct : snapshot.Distinct := by decide
  obtain ⟨_, _, hshown, hkept, _⟩ := shows_live history snapshot
  exact ⟨hdistinct, hkept hdistinct, by rw [hshown]; decide +kernel⟩

end Overlay

end PoolKeeper
