import PoolKeeper.Proofs.LiveCache
import PoolKeeper.Proofs.Saving

/-!
# Refreshes in their course

While a refresh is under way, others can ask the cache, and it can be cut off: the outcome of its
fetch enters the cache, then the snapshot is saved, one file operation after the other, and only
then has it come to its end.

* `Note`: what there is to write down of refreshes;
* `Course`, `Course.Action`: a cache between two steps of its refreshes, and what can happen then;
  `Course.cutOff`: a refresh that is cut off; a file operation that was begun may still be done;
* `Course.Stands`, **`LiveCache.Move.course`**, `LiveCache.MovesFor.course`: all that a cache does
  by itself is in the course of its refreshes;
* **`LiveCache.force_course`**: who asks for a fetch is answered at the end of a refresh.
-/

namespace PoolKeeper

/-- What there is to write down of refreshes, those of the background or those that were asked
for. -/
inductive Note where
  /-- The outcome of a fetch entered the cache. -/
  | learned (forced : Bool) (time : Instant) (result : Except FetchError Pool)
  /-- The document is another text now. -/
  | replaced (text : String)
  /-- A refresh was cut off while it saved a snapshot. -/
  | cut
  /-- A refresh came to its end, and gives this. -/
  | ended (forced : Bool) (result : Except FetchError Pool)

/-- What is left to do of a refresh once its fetch has an outcome. -/
inductive Rest where
  /-- The outcome is to enter the cache. -/
  | learn (result : Except FetchError Pool)
  /-- The snapshot is in the cache; this file operation of its save was begun. -/
  | save (pool : Pool) (stage : Store.Stage)

/-- A cache between two steps of its refreshes. One refresh is under way at a time. -/
structure Course (σ ρ : Type) where
  live : LiveCache ρ
  world : World σ
  /-- The refresh under way was asked for; otherwise it is one of the background. -/
  forced : Bool := false
  rest : Option Rest := none
  /-- File operations that were begun by refreshes that were cut off. They may still be done. -/
  late : List (Pool × Store.Stage) := []
  notes : List Note := []

namespace Course

variable {σ ρ : Type}

/-- A refresh is under way. -/
def isBusy (d : Course σ ρ) : Bool := d.live.underway.isSome || d.rest.isSome

/-- A step of a fetch was taken. A background refresh that breaks down takes the others with it. -/
def took (step : FetchStep ρ) (outside : σ) (d : Course σ ρ) : Course σ ρ :=
  let d := { d with world := { d.world with outside } }
  match step with
  | .wait wake point => { d with live := { d.live with underway := some (wake, point) } }
  | .done result =>
    { d with live := { d.live with underway := none }, rest := some (.learn result) }
  | .crashed =>
    { d with live := if d.forced then { d.live with underway := none } else d.live.close }

/-- A refresh begins, if none is under way; in the background only until the cache is closed. -/
def begin (f : Fetcher σ ρ) (forced : Bool) (d : Course σ ρ) : Course σ ρ :=
  if !d.isBusy && (forced || d.live.isOpen) then
    let (step, outside) := f.begin d.world.now d.world.outside
    { d with forced }.took step outside
  else d

/-- The fetch under way goes on. -/
def resume (f : Fetcher σ ρ) (d : Course σ ρ) : Course σ ρ :=
  match d.live.underway, d.rest with
  | some (_, point), none =>
    let (step, outside) := f.resume point d.world.now d.world.outside
    d.took step outside
  | _, _ => d

/-- The refresh under way comes to its end: who waits for the first fetch is told. -/
def ended (result : Except FetchError Pool) (d : Course σ ρ) : Course σ ρ :=
  { d with
    live := { d.live with fetched := true }
    rest := none
    notes := d.notes ++ [.ended d.forced result] }

/-- The outcome enters the cache. A good snapshot is to be saved then, if there is a store. -/
def learn (result : Except FetchError Pool) (d : Course σ ρ) : Course σ ρ :=
  let (live, world) := d.live.learn result d.world
  let d : Course σ ρ :=
    { d with live, world, notes := d.notes ++ [.learned d.forced d.world.now result] }
  match result with
  | .ok pool =>
    if live.store.isSome then { d with rest := some (.save pool .makeDirs) } else d.ended result
  | .error _ => d.ended result

/-- The document of a snapshot. -/
def text (d : Course σ ρ) (pool : Pool) : String :=
  Snapshot.codec.toText ⟨d.live.cache.poolName, pool⟩

/-- What there is to write down of a file operation that works: the last one puts the temporary file
in place of the document. -/
def replacing (store : Store) (stage : Store.Stage) (files : FileTree) : List Note :=
  match stage with
  | .replace => (files.file? (store.temporary Snapshot.file)).toList.map .replaced
  | _ => []

/-- A file operation of a save is done, and whether it works. -/
def operate (pool : Pool) (stage : Store.Stage) (d : Course σ ρ) : Bool × Course σ ρ :=
  match d.live.store with
  | none => (false, d)
  | some store =>
    match store.operate FileTree.system Snapshot.file (d.text pool) stage d.world.files with
    | (.ok (), files) =>
      (true,
        { d with
          world := { d.world with files }
          notes := d.notes ++ replacing store stage d.world.files })
    | (.error _, files) => (false, { d with world := { d.world with files } })

/-- The file operation under way is done. The next one is begun, unless it fails or was the last. -/
def save (pool : Pool) (stage : Store.Stage) (d : Course σ ρ) : Course σ ρ :=
  let (works, d) := d.operate pool stage
  match works, stage.next with
  | true, some next => { d with rest := some (.save pool next) }
  | _, _ => d.ended (.ok pool)

/-- The refresh under way goes on after its fetch. -/
def proceed (d : Course σ ρ) : Course σ ρ :=
  match d.rest with
  | none => d
  | some (.learn result) => d.learn result
  | some (.save pool stage) => d.save pool stage

/-- The refresh under way is cut off. -/
def cutOff (d : Course σ ρ) : Course σ ρ :=
  let d' : Course σ ρ := { d with live := { d.live with underway := none }, rest := none }
  match d.rest with
  | some (.save pool stage) =>
    { d' with late := d.late ++ [(pool, stage)], notes := d.notes ++ [.cut] }
  | _ => d'

/-- Who asked for the refresh under way does not wait for it any more. -/
def drop (d : Course σ ρ) : Course σ ρ := if d.forced then d.cutOff else d

/-- The background refreshes end, also the one under way. -/
def close (d : Course σ ρ) : Course σ ρ :=
  let d := if d.forced then d else d.cutOff
  { d with live := { d.live.close with underway := d.live.underway } }

/-- A file operation that was begun by a refresh that was cut off is done. -/
def tardy (i : Nat) (d : Course σ ρ) : Course σ ρ :=
  match d.late[i]? with
  | none => d
  | some (pool, stage) => ({ d with late := d.late.eraseIdx i }.operate pool stage).2

/-- The background refreshes are due at other times. -/
def reschedule (ticker : Ticker) (waiting : Bool) (d : Course σ ρ) : Course σ ρ :=
  { d with
    live :=
      { d.live with
        ticker := d.live.ticker.map fun _ => ticker
        waiting := waiting && d.live.isOpen } }

/-- What can happen between two steps of refreshes, or is one. -/
inductive Action (σ : Type) where
  | begin (forced : Bool)
  | resume
  | proceed
  | drop
  | close
  | tardy (i : Nat)
  | reschedule (ticker : Ticker) (waiting : Bool)
  /-- The clock advances to a time, if that is not past. -/
  | later (time : Instant)
  /-- Something happens outside. -/
  | outside (change : σ → σ)

/-- What an action does. -/
def Action.perform (f : Fetcher σ ρ) (d : Course σ ρ) : Action σ → Course σ ρ
  | begin forced => d.begin f forced
  | resume => d.resume f
  | proceed => d.proceed
  | drop => d.drop
  | close => d.close
  | tardy i => d.tardy i
  | reschedule ticker waiting => d.reschedule ticker waiting
  | later time => { d with world := d.world.atTime (d.world.now.latest time) }
  | outside change => { d with world := { d.world with outside := change d.world.outside } }

/-- What actions do, one after the other. -/
def perform (f : Fetcher σ ρ) (actions : List (Action σ)) (d : Course σ ρ) : Course σ ρ :=
  actions.foldl (Action.perform f) d

theorem perform_append (f : Fetcher σ ρ) (first rest : List (Action σ)) (d : Course σ ρ) :
    perform f (first ++ rest) d = perform f rest (perform f first d) :=
  List.foldl_append

/-! ## Steps -/

/-- The snapshot that is being saved, and the file operation that was begun. -/
def saving (d : Course σ ρ) : Option (Pool × Store.Stage) :=
  match d.rest with
  | some (.save pool stage) => some (pool, stage)
  | _ => none

/-- Nothing is there to write down, and no file changes. -/
structure Quiet (d d' : Course σ ρ) : Prop where
  cache : d'.live.cache = d.live.cache
  store : d'.live.store = d.live.store
  announces : d'.live.announces = d.live.announces
  files : d'.world.files = d.world.files
  events : d'.world.events = d.world.events
  saving : d'.saving = d.saving
  forced : d.saving.isSome = true → d'.forced = d.forced
  late : d'.late = d.late
  notes : d'.notes = d.notes

/-- What one step can do. -/
inductive Step : Course σ ρ → Course σ ρ → Prop
  | quiet {d d' : Course σ ρ} : Quiet d d' → Step d d'
  | learn {d : Course σ ρ} {result : Except FetchError Pool} : d.rest = some (.learn result) →
    Step d (d.learn result)
  | save {d : Course σ ρ} {pool : Pool} {stage : Store.Stage} : d.saving = some (pool, stage) →
    Step d (d.save pool stage)
  | cut {d : Course σ ρ} {pool : Pool} {stage : Store.Stage} : d.saving = some (pool, stage) →
    Step d
      { d with
        rest := none
        late := d.late ++ [(pool, stage)]
        notes := d.notes ++ [.cut] }
  | tardy {d : Course σ ρ} {i : Nat} {pool : Pool} {stage : Store.Stage} :
    d.late[i]? = some (pool, stage) →
    Step d ({ d with late := d.late.eraseIdx i }.operate pool stage).2

/-- What several steps can do. -/
abbrev Steps : Course σ ρ → Course σ ρ → Prop := Relation.ReflTransGen Step

theorem saving_eq_none_of_rest {d : Course σ ρ} (h : d.rest = none) : d.saving = none := by
  rw [saving, h]

/-- A fetch takes its steps before anything is saved. -/
theorem quiet_took {d : Course σ ρ} (h : d.rest = none) (forced : Bool) (step : FetchStep ρ)
    (outside : σ) : Quiet d ({ d with forced }.took step outside) := by
  have hsaving : d.saving = none := saving_eq_none_of_rest h
  have hforced {forced' : Bool} : d.saving.isSome = true → forced' = d.forced := fun h => by
    rw [hsaving] at h
    cases h
  cases step with
  | wait wake point => exact ⟨rfl, rfl, rfl, rfl, rfl, rfl, hforced, rfl, rfl⟩
  | done result => exact ⟨rfl, rfl, rfl, rfl, rfl, hsaving.symm, hforced, rfl, rfl⟩
  | crashed =>
    cases forced with
    | false => exact ⟨rfl, rfl, rfl, rfl, rfl, rfl, hforced, rfl, rfl⟩
    | true => exact ⟨rfl, rfl, rfl, rfl, rfl, rfl, hforced, rfl, rfl⟩

theorem steps_cutOff (d : Course σ ρ) : Steps d d.cutOff := by
  obtain ⟨live, world, forced, rest, late, notes⟩ := d
  match rest with
  | none => exact .single (.quiet ⟨rfl, rfl, rfl, rfl, rfl, rfl, fun _ => rfl, rfl, rfl⟩)
  | some (.learn result) =>
    exact .single (.quiet ⟨rfl, rfl, rfl, rfl, rfl, rfl, fun _ => rfl, rfl, rfl⟩)
  | some (.save pool stage) =>
    refine .tail (.single (.cut rfl)) (.quiet ?_)
    exact ⟨rfl, rfl, rfl, rfl, rfl, rfl, fun _ => rfl, rfl, rfl⟩

/-- **All that can happen** are these steps. -/
theorem Action.steps (f : Fetcher σ ρ) (action : Action σ) (d : Course σ ρ) :
    Steps d (action.perform f d) := by
  cases action with
  | begin forced =>
    show Steps d (d.begin f forced)
    rw [Course.begin]
    split
    · rename_i hfree
      have hrest : d.rest = none := by
        simp only [isBusy, Bool.and_eq_true, Bool.not_eq_true', Bool.or_eq_false_iff] at hfree
        exact Option.isNone_iff_eq_none.1 (Option.isSome_eq_false_iff.1 hfree.1.2)
      exact .single (.quiet (quiet_took hrest forced _ _))
    · exact .refl
  | resume =>
    show Steps d (d.resume f)
    rw [Course.resume]
    split
    · rename_i hrest
      exact .single (.quiet (quiet_took hrest d.forced _ _))
    · exact .refl
  | proceed =>
    show Steps d d.proceed
    rw [Course.proceed]
    split
    · exact .refl
    · rename_i hrest
      exact .single (.learn hrest)
    · rename_i hrest
      exact .single (.save (by rw [saving, hrest]))
  | drop =>
    show Steps d d.drop
    rw [Course.drop]
    split
    · exact steps_cutOff d
    · exact .refl
  | close =>
    have hclosed (d : Course σ ρ) :
        Step d { d with live := { d.live.close with underway := d.live.underway } } :=
      .quiet ⟨rfl, rfl, rfl, rfl, rfl, rfl, fun _ => rfl, rfl, rfl⟩
    show Steps d d.close
    rw [Course.close]
    split
    · exact .single (hclosed d)
    · exact .tail (steps_cutOff d) (hclosed _)
  | tardy i =>
    show Steps d (d.tardy i)
    rw [Course.tardy]
    split
    · exact .refl
    · rename_i hlate
      exact .single (.tardy hlate)
  | reschedule ticker waiting =>
    exact .single (.quiet ⟨rfl, rfl, rfl, rfl, rfl, rfl, fun _ => rfl, rfl, rfl⟩)
  | later time => exact .single (.quiet ⟨rfl, rfl, rfl, rfl, rfl, rfl, fun _ => rfl, rfl, rfl⟩)
  | outside change =>
    exact .single (.quiet ⟨rfl, rfl, rfl, rfl, rfl, rfl, fun _ => rfl, rfl, rfl⟩)

/-- The course of a cache that is in this state: no refresh was cut off in its save, and of the one
under way no more than the fetch is done. -/
structure Stands (forced : Bool) (x : LiveCache ρ × World σ) (d : Course σ ρ) : Prop where
  live : d.live = x.1
  world : d.world = x.2
  rest : d.rest = none
  forced : x.1.underway.isSome = true → d.forced = forced
  uncut : .cut ∉ d.notes

theorem Stands.start {s : LiveCache ρ × World σ} (hidle : s.1.underway = none) :
    Stands false s ({ live := s.1, world := s.2 } : Course σ ρ) :=
  ⟨rfl, rfl, rfl, fun h => absurd hidle (Option.isSome_iff_ne_none.1 h), List.not_mem_nil⟩

theorem Stands.idle {forced forced' : Bool} {x : LiveCache ρ × World σ} {d : Course σ ρ}
    (h : Stands forced x d) (hu : x.1.underway = none) : Stands forced' x d :=
  ⟨h.live, h.world, h.rest, fun hsome => absurd hu (Option.isSome_iff_ne_none.1 hsome), h.uncut⟩

end Course

namespace LiveCache

open Course

variable {σ ρ : Type} {f : Fetcher σ ρ} {forced : Bool}

theorem Goes.course {c : LiveCache ρ} {w : World σ} {step : FetchStep ρ} {outside : σ}
    (h : Goes f forced c w.now w.outside step outside) {d : Course σ ρ}
    (hd : Stands forced (c, w) d) :
    ∃ action : Course.Action σ, action.perform f d =
      ({ live := c, world := w, forced, late := d.late, notes := d.notes } : Course σ ρ).took step
        outside := by
  obtain ⟨live, world, asked, rest, late, notes⟩ := d
  obtain ⟨hlive, hworld, hrest, hforced, _⟩ := hd
  obtain rfl : live = c := hlive
  obtain rfl : world = w := hworld
  obtain rfl : rest = none := hrest
  cases h with
  | begin hu hopen =>
    refine ⟨.begin forced, ?_⟩
    simp only [Course.Action.perform, Course.begin, isBusy, hu, hopen]
    rfl
  | resume hu =>
    obtain rfl : asked = forced := hforced (by rw [hu]; rfl)
    refine ⟨.resume, ?_⟩
    simp only [Course.Action.perform, Course.resume, hu]

end LiveCache

namespace Course

variable {σ ρ : Type} {f : Fetcher σ ρ} {d : Course σ ρ} {store : Store} {pool : Pool}
  {stage : Store.Stage}

theorem operate_of_ok (hs : d.live.store = some store) {files : FileTree}
    (h : store.operate FileTree.system Snapshot.file (d.text pool) stage d.world.files =
      (.ok (), files)) :
    d.operate pool stage = (true, { d with
      world := { d.world with files }
      notes := d.notes ++ replacing store stage d.world.files }) := by
  rw [operate, hs]
  simp only [h]

theorem operate_of_error (hs : d.live.store = some store) {e : String}
    (h : store.operate FileTree.system Snapshot.file (d.text pool) stage d.world.files =
      (.error e, d.world.files)) :
    d.operate pool stage = (false, d) := by
  rw [operate, hs]
  simp only [h]

/-- A file operation fails, or changes the files and perhaps the document. -/
theorem operate_eq_or (d : Course σ ρ) (pool : Pool) (stage : Store.Stage) :
    d.operate pool stage = (false, d) ∨
    ∃ store files, d.live.store = some store ∧
      store.Done Snapshot.file (d.text pool) d.world.files stage files ∧
      d.operate pool stage = (true, { d with
        world := { d.world with files }
        notes := d.notes ++ replacing store stage d.world.files }) := by
  cases hs : d.live.store with
  | none => exact .inl (by rw [operate, hs])
  | some store =>
    rcases Store.operate_cases (d.text pool) stage d.world.files with
      ⟨files, hworks, hdone⟩ | ⟨e, hfails⟩
    · exact .inr ⟨store, files, rfl, hdone, operate_of_ok hs hworks⟩
    · exact .inl (operate_of_error hs hfails)

theorem exists_of_mem_replacing {files : FileTree} {note : Note}
    (h : note ∈ replacing store stage files) : ∃ text, note = .replaced text := by
  unfold replacing at h
  split at h
  · obtain ⟨text, _, rfl⟩ := List.mem_map.1 h
    exact ⟨text, rfl⟩
  · cases h

theorem uncut_replacing (store : Store) (stage : Store.Stage) (files : FileTree) :
    .cut ∉ replacing store stage files := fun hmem => by
  obtain ⟨_, heq⟩ := exists_of_mem_replacing hmem
  cases heq

/-- A file operation and those that follow, unless one fails. -/
def stages (stage : Store.Stage) : List Store.Stage :=
  match stage with
  | .makeDirs => [.makeDirs, .write, .replace]
  | .write => [.write, .replace]
  | .replace => [.replace]

theorem stages_eq (stage : Store.Stage) :
    stages stage = stage :: (stage.next.elim [] stages) := by
  cases stage with
  | makeDirs => rfl
  | write => rfl
  | replace => rfl

/-- A save that is under way comes to its end when nothing else happens. -/
def Finishes (f : Fetcher σ ρ) (store : Store) (pool : Pool) (stage : Store.Stage) : Prop :=
  ∀ d : Course σ ρ, d.live.store = some store → d.rest = some (.save pool stage) →
    ∃ actions notes, (.cut ∉ d.notes → .cut ∉ notes) ∧ perform f actions d =
      { d with
        live := { d.live with fetched := true }
        world :=
          { d.world with
            files := store.operateAll FileTree.system Snapshot.file (d.text pool) (stages stage)
              d.world.files }
        rest := none
        notes := notes ++ [.ended d.forced (.ok pool)] }

theorem finishes_of_next (hnext : ∀ next, stage.next = some next → Finishes f store pool next) :
    Finishes f store pool stage := by
  intro d hs hrest
  have hgo : d.proceed = d.save pool stage := by rw [proceed, hrest]
  rw [stages_eq]
  rcases Store.operate_cases (d.text pool) stage d.world.files with
    ⟨files, hworks, _⟩ | ⟨e, hfails⟩
  · have heq := operate_of_ok hs hworks
    cases hn : stage.next with
    | none =>
      refine ⟨[.proceed], d.notes ++ replacing store stage d.world.files,
        fun h => List.not_mem_append h (uncut_replacing store stage _), ?_⟩
      show d.proceed = _
      rw [hgo, save, heq, hn, Option.elim_none, Store.operateAll, hworks]
      rfl
    | some next =>
      let saved : Course σ ρ := { d with
        world := { d.world with files }
        rest := some (.save pool next)
        notes := d.notes ++ replacing store stage d.world.files }
      have hsaved : d.proceed = saved := by rw [hgo, save, heq, hn]
      obtain ⟨actions, notes, huncut, hrun⟩ := hnext next hn saved hs rfl
      refine ⟨.proceed :: actions, notes,
        fun h => huncut (List.not_mem_append h (uncut_replacing store stage _)), ?_⟩
      show perform f actions d.proceed = _
      rw [hsaved, hrun, Option.elim_some, Store.operateAll, hworks]
      rfl
  · refine ⟨[.proceed], d.notes, id, ?_⟩
    show d.proceed = _
    rw [hgo, save, operate_of_error hs hfails, Store.operateAll, hfails]
    rfl

/-- **A save comes to its end.** -/
theorem finishes (f : Fetcher σ ρ) (store : Store) (pool : Pool) :
    Finishes f store pool .makeDirs := by
  have hreplace : Finishes f store pool .replace := by
    refine finishes_of_next ?_
    rintro _ ⟨⟩
  have hwrite : Finishes f store pool .write := by
    refine finishes_of_next ?_
    rintro _ ⟨⟩
    exact hreplace
  refine finishes_of_next ?_
  rintro _ ⟨⟩
  exact hwrite

end Course

namespace LiveCache

open Course

variable {σ ρ : Type} {f : Fetcher σ ρ} {forced : Bool}

/-- **A refresh whose fetch has an outcome** comes to its end when nothing else happens. -/
theorem publish_course {c : LiveCache ρ} {w : World σ} {result : Except FetchError Pool}
    {d : Course σ ρ} (hlive : d.live = c) (hworld : d.world = w)
    (hrest : d.rest = some (.learn result)) :
    ∃ actions notes, (.cut ∉ d.notes → .cut ∉ notes) ∧ Course.perform f actions d =
      { d with
        live := (c.publish result w).1
        world := (c.publish result w).2
        rest := none
        notes := notes ++ [.ended d.forced result] } := by
  obtain rfl := hlive
  obtain rfl := hworld
  have hgo : d.proceed = d.learn result := by rw [proceed, hrest]
  have huncut : .cut ∉ d.notes → .cut ∉ d.notes ++ [.learned d.forced d.world.now result] :=
    fun h => List.not_mem_append h fun hmem => by cases List.mem_singleton.1 hmem
  cases result with
  | error e =>
    refine ⟨[.proceed], d.notes ++ [.learned d.forced d.world.now (.error e)], huncut, ?_⟩
    show d.proceed = _
    rw [hgo]
    rfl
  | ok pool =>
    cases hs : d.live.store with
    | none =>
      refine ⟨[.proceed], d.notes ++ [.learned d.forced d.world.now (.ok pool)], huncut, ?_⟩
      show d.proceed = _
      rw [hgo, publish_ok, LiveCache.save, hs, Course.learn]
      simp only [LiveCache.learn, hs]
      rfl
    | some store =>
      obtain ⟨⟨cache, _, announces, ticker, waiting, underway, fetched⟩, world, forced, rest, late,
        before⟩ := d
      cases hs
      let learned : Course σ ρ :=
        { live :=
            ⟨cache.publish (.ok pool), some store, announces, ticker, waiting, underway, fetched⟩
          world, forced, late
          rest := some (.save pool .makeDirs)
          notes := before ++ [.learned forced world.now (.ok pool)] }
      obtain ⟨actions, notes, hsaved, hrun⟩ := Course.finishes f store pool learned rfl rfl
      refine ⟨.proceed :: actions, notes, fun h => hsaved (huncut h), ?_⟩
      show Course.perform f actions (Course.proceed _) = _
      rw [hgo]
      show Course.perform f actions learned = _
      rw [hrun, publish_ok, LiveCache.save]
      simp only [Store.save_eq_stages]
      rfl

/-- A fetch that comes to its end: the refresh does, too. -/
theorem Goes.publish_course {c : LiveCache ρ} {w : World σ} {result : Except FetchError Pool}
    {outside : σ} (h : Goes f forced c w.now w.outside (.done result) outside) {d : Course σ ρ}
    (hd : Stands forced (c, w) d) :
    ∃ actions notes,
      Stands forced ({ c with underway := none }.publish result { w with outside })
        (Course.perform f actions d) ∧
      (Course.perform f actions d).notes = notes ++ [.ended forced result] := by
  obtain ⟨action, haction⟩ := h.course hd
  obtain ⟨actions, notes, huncut, hrun⟩ := LiveCache.publish_course (f := f) (d := action.perform f d)
    (congrArg Course.live haction) (congrArg Course.world haction) (congrArg Course.rest haction)
  have hforced : (action.perform f d).forced = forced := congrArg Course.forced haction
  have hnotes : (action.perform f d).notes = d.notes := by
    rw [haction]
    rfl
  refine ⟨action :: actions, notes, ?_⟩
  show Stands _ _ (Course.perform f actions (action.perform f d)) ∧
    (Course.perform f actions (action.perform f d)).notes = _
  rw [hrun, hforced]
  refine ⟨⟨rfl, rfl, rfl, (fun h => by cases h), ?_⟩, rfl⟩
  refine List.not_mem_append (huncut (hnotes ▸ hd.uncut)) fun hmem => ?_
  cases List.mem_singleton.1 hmem

theorem Reschedules.course {c c' : LiveCache ρ} (h : Reschedules c c')
    (hu : c'.underway = c.underway) {w : World σ} {d : Course σ ρ} (hd : Stands forced (c, w) d) :
    ∃ action : Course.Action σ, Stands forced (c', w) (action.perform f d) := by
  obtain ⟨hlive, hworld, hrest, hforced, huncut⟩ := hd
  obtain rfl : d.live = c := hlive
  -- without a ticker, none is put in its place
  refine ⟨.reschedule (c'.ticker.getD ⟨w.now, ⟨0⟩⟩) c'.waiting, ?_, hworld, hrest,
    fun hsome => ?_, huncut⟩
  · have hticker : d.live.ticker.map (fun _ => c'.ticker.getD ⟨w.now, ⟨0⟩⟩) = c'.ticker := by
      have hperiod := h.period
      cases hold : d.live.ticker with
      | none =>
        rw [hold, Option.map_none] at hperiod
        rw [Option.map_none, Option.map_eq_none_iff.1 hperiod]
      | some t =>
        rw [hold, Option.map_some] at hperiod
        obtain ⟨t', ht', _⟩ := Option.map_eq_some_iff.1 hperiod
        rw [ht', Option.map_some, Option.getD_some]
    have hwaiting : (c'.waiting && d.live.isOpen) = c'.waiting := by
      cases hw : c'.waiting with
      | false => rfl
      | true => rw [h.waiting hw, Bool.true_and]
    show ({ d.live with ticker := _, waiting := _ } : LiveCache ρ) = c'
    simp only [hticker, hwaiting, ← h.cache, ← h.store, ← h.announces, ← h.fetched, ← hu]
  · rw [hu] at hsome
    exact hforced hsome

/-- **A step of the work of a cache** is in the course of its refreshes. -/
theorem Move.course {a b : LiveCache ρ × World σ} (h : Move f forced a b) {d : Course σ ρ}
    (hd : Stands forced a d) : ∃ actions, Stands forced b (Course.perform f actions d) := by
  cases h with
  | @schedule c c' w hc hu =>
    by_cases hsame : c'.underway = c.underway
    · obtain ⟨action, haction⟩ := hc.course (f := f) hsame hd
      exact ⟨[action], haction⟩
    · obtain ⟨rfl, hnone⟩ := hu.resolve_left hsame
      have hforced : d.forced = true :=
        hd.forced (Option.isSome_iff_ne_none.2 fun h => hsame (hnone.trans h.symm))
      have hdropped : Stands true ({ c with underway := none }, w) d.drop := by
        obtain ⟨hlive, hworld, hrest, _, huncut⟩ := hd
        obtain rfl : d.live = c := hlive
        rw [drop, if_pos hforced, cutOff, hrest]
        exact ⟨rfl, hworld, rfl, (fun h => by cases h), huncut⟩
      have hc' : Reschedules { c with underway := none } c' :=
        ⟨hc.cache, hc.store, hc.announces, hc.fetched, hc.period, hc.waiting⟩
      obtain ⟨action, haction⟩ := hc'.course (f := f) hnone hdropped
      exact ⟨[.drop, action], haction⟩
  | later c w time hlater =>
    obtain ⟨hlive, hworld, hrest, hforced, huncut⟩ := hd
    obtain rfl : d.world = w := hworld
    refine ⟨[.later time], hlive, ?_, hrest, hforced, huncut⟩
    show d.world.atTime (d.world.now.latest time) = _
    rw [Instant.latest, if_pos hlater.le]
  | wait c hgoes =>
    obtain ⟨action, haction⟩ := hgoes.course hd
    refine ⟨[action], ?_⟩
    show Stands _ _ (action.perform f d)
    rw [haction]
    exact ⟨rfl, rfl, rfl, (fun _ => rfl), hd.uncut⟩
  | publish c hgoes =>
    obtain ⟨actions, _, hpublished, _⟩ := hgoes.publish_course hd
    exact ⟨actions, hpublished⟩
  | crash c hbackground hgoes =>
    obtain ⟨action, haction⟩ := hgoes.course hd
    refine ⟨[action], ?_⟩
    show Stands _ _ (action.perform f d)
    rw [haction]
    subst hbackground
    exact ⟨rfl, rfl, rfl, (fun h => by cases h), hd.uncut⟩
  | fail c hasked hgoes =>
    obtain ⟨action, haction⟩ := hgoes.course hd
    refine ⟨[action], ?_⟩
    show Stands _ _ (action.perform f d)
    rw [haction]
    subst hasked
    exact ⟨rfl, rfl, rfl, (fun h => by cases h), hd.uncut⟩

theorem MovesFor.course {a b : LiveCache ρ × World σ} (h : MovesFor f forced a b) {d : Course σ ρ}
    (hd : Stands forced a d) : ∃ actions, Stands forced b (Course.perform f actions d) := by
  induction h with
  | refl => exact ⟨[], hd⟩
  | tail _ hm ih =>
    obtain ⟨first, hfirst⟩ := ih
    obtain ⟨rest, hrest⟩ := hm.course hfirst
    refine ⟨first ++ rest, ?_⟩
    rwa [perform_append]

/-- **A fetch that was asked for** is in the course of refreshes, and who asked is answered by the
refresh that ended last. -/
theorem force_course (f : Fetcher σ ρ) {s : LiveCache ρ × World σ} {d : Course σ ρ}
    (hd : Stands false s d) :
    ∃ actions, Stands false (s.1.force f s.2).2 (Course.perform f actions d) ∧
      ∀ result, (s.1.force f s.2).1 = some result →
        ∃ notes, (Course.perform f actions d).notes = notes ++ [.ended true result] := by
  rcases force_cases (f := f) s.1 s.2 with ⟨hnone, hmoves⟩ | ⟨ready, hready, hidle, hforced⟩
  · obtain ⟨actions, hstands⟩ := hmoves.course hd
    exact ⟨actions, hstands, fun result h => by rw [hnone] at h; cases h⟩
  obtain ⟨first, hfirst⟩ := hready.course hd
  rcases hforced with ⟨result, before, outside, hanswer, hmoves, hgoes, heq⟩ | ⟨hnone, hended, hmoves⟩
  · obtain ⟨second, hsecond⟩ := hmoves.course (hfirst.idle hidle)
    obtain ⟨last, notes, hlast, hnotes⟩ := hgoes.publish_course hsecond
    refine ⟨first ++ second ++ last, ?_⟩
    rw [perform_append, perform_append, heq]
    refine ⟨hlast.idle rfl, fun answer h => ⟨notes, ?_⟩⟩
    rw [hanswer] at h
    cases h
    exact hnotes
  · obtain ⟨second, hsecond⟩ := hmoves.course (hfirst.idle hidle)
    refine ⟨first ++ second, ?_⟩
    rw [perform_append]
    exact ⟨hsecond.idle hended, fun result h => by rw [hnone] at h; cases h⟩

/-! ## What happens to a cache -/

/-- What happens to a cache. -/
inductive Action (σ : Type) where
  /-- The background work that is ready is done. -/
  | work
  /-- The clock advances, and the background work is done whenever it is ready. -/
  | advance (nanos : Nat)
  /-- The clock advances, and the background work comes late. -/
  | late (d : Span)
  | awaitFirst
  | force
  | close
  /-- Something happens outside. -/
  | outside (change : σ → σ)

/-- What an action does. -/
def Action.perform (f : Fetcher σ ρ) (s : LiveCache ρ × World σ) :
    Action σ → LiveCache ρ × World σ
  | work => s.1.settle f s.2
  | advance nanos => s.1.advance f (fun _ => false) nanos s.2
  | late d => (s.1, s.2.atTime (s.2.now.plus d))
  | awaitFirst => s.1.awaitFirst f s.2
  | force => (s.1.force f s.2).2
  | close => (s.1.close, s.2)
  | outside change => (s.1, { s.2 with outside := change s.2.outside })

/-- What actions do, one after the other. -/
def perform (f : Fetcher σ ρ) (actions : List (Action σ)) (s : LiveCache ρ × World σ) :
    LiveCache ρ × World σ :=
  actions.foldl (Action.perform f) s

theorem Action.course (action : Action σ) {s : LiveCache ρ × World σ} {d : Course σ ρ}
    (hd : Stands false s d) :
    ∃ actions, Stands false (action.perform f s) (Course.perform f actions d) := by
  cases action with
  | work => exact (settle_moves s.1 s.2).course hd
  | advance nanos => exact (advance_moves _ nanos s.1 s.2).course hd
  | late span =>
    have hlate : MovesFor f false s (s.1, s.2.atTime (s.2.now.plus span)) :=
      .one (.later s.1 s.2 _ (.after span))
    exact hlate.course hd
  | awaitFirst => exact (awaitFirst_moves s.1 s.2).course hd
  | force =>
    obtain ⟨actions, hstands, _⟩ := force_course f hd
    exact ⟨actions, hstands⟩
  | close =>
    obtain ⟨live, world, asked, rest, late, notes⟩ := d
    obtain ⟨hlive, hworld, hrest, hforced, huncut⟩ := hd
    obtain rfl : live = s.1 := hlive
    obtain rfl : rest = none := hrest
    cases asked with
    | false => exact ⟨[.close], rfl, hworld, rfl, (fun h => by cases h), huncut⟩
    | true =>
      have hidle : s.1.underway = none :=
        Option.not_isSome_iff_eq_none.1 fun h => by cases hforced h
      refine ⟨[.close], ?_, hworld, rfl, (fun h => by cases h), huncut⟩
      show ({ s.1.close with underway := s.1.underway } : LiveCache ρ) = s.1.close
      rw [hidle]
      rfl
  | outside change =>
    obtain ⟨hlive, hworld, hrest, hforced, huncut⟩ := hd
    refine ⟨[.outside change], hlive, ?_, hrest, hforced, huncut⟩
    show ({ d.world with outside := _ } : World σ) = _
    rw [hworld]
    rfl

end LiveCache

end PoolKeeper
