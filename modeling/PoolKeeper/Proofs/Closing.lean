import PoolKeeper.Proofs.Course

/-!
# Caches that are closed

* `LiveCache.Closed`: nothing is left to do in the background; `LiveCache.Closed.settle_eq`,
  `LiveCache.Closed.advance_eq`, **`LiveCache.Closed.perform`**: nothing is done there any more;
* `Course.Shut`, `Course.close_shut`, **`Course.Shut.perform`**: only refreshes that were asked for
  go on.
-/

namespace PoolKeeper

namespace LiveCache

variable {σ ρ : Type}

/-- Nothing is left to do in the background. -/
structure Closed (c : LiveCache ρ) : Prop where
  ticker : c.ticker = none
  waiting : c.waiting = false
  underway : c.underway = none

namespace Closed

variable {c : LiveCache ρ}

theorem close (c : LiveCache ρ) : c.close.Closed := ⟨rfl, rfl, rfl⟩

/-- **There is no background work**, whatever a fetch would do. -/
theorem settle_eq (h : c.Closed) (f : Fetcher σ ρ) (w : World σ) : c.settle f w = (c, w) := by
  obtain ⟨_, _, _, _, _, _, _⟩ := c
  obtain ⟨rfl, rfl, rfl⟩ := h
  rfl

theorem drain_eq (h : c.Closed) (f : Fetcher σ ρ) (w : World σ) : c.drain f w = (c, w) := by
  simp only [drain, h.underway]

theorem awaitFirst_eq (h : c.Closed) (f : Fetcher σ ρ) (w : World σ) :
    c.awaitFirst f w = (c, w) := by
  simp only [awaitFirst, h.settle_eq, h.drain_eq, ite_self]

theorem advance_eq (h : c.Closed) (f : Fetcher σ ρ) (nanos : Nat) (w : World σ) :
    c.advance f (fun _ => false) nanos w = (c, w.atTime (w.now.plus ⟨nanos⟩)) := by
  unfold advance
  simp only [nextTime, h.underway, h.ticker]
  rfl

theorem publish (h : c.Closed) (result : Except FetchError Pool) (w : World σ) :
    (c.publish result w).1.Closed :=
  ⟨h.ticker, h.waiting, h.underway⟩

theorem takeTick_eq (h : c.Closed) (start stop : Instant) : c.takeTick start stop = c := by
  simp only [takeTick, h.ticker]

theorem force (h : c.Closed) (f : Fetcher σ ρ) (w : World σ) : (c.force f w).2.1.Closed := by
  simp only [LiveCache.force, h.drain_eq, h.underway, h.takeTick_eq]
  split
  · exact h
  · split
    · exact h.publish _ _
    · exact h

theorem perform {s : LiveCache ρ × World σ} (h : s.1.Closed) (f : Fetcher σ ρ)
    (actions : List (Action σ)) : (LiveCache.perform f actions s).1.Closed := by
  induction actions generalizing s with
  | nil => exact h
  | cons action actions ih =>
    apply ih
    cases action with
    | work => exact (congrArg (·.1.Closed) (h.settle_eq f s.2)).mpr h
    | advance nanos => exact (congrArg (·.1.Closed) (h.advance_eq f nanos s.2)).mpr h
    | late d => exact h
    | awaitFirst => exact (congrArg (·.1.Closed) (h.awaitFirst_eq f s.2)).mpr h
    | force => exact h.force f s.2
    | close => exact Closed.close s.1
    | outside change => exact h

end Closed

end LiveCache

/-- A refresh of the background has gone on. -/
def Note.IsBackground : Note → Prop
  | learned forced _ _ => forced = false
  | ended forced _ => forced = false
  | _ => False

namespace Course

variable {σ ρ : Type} {d d' : Course σ ρ}

/-- The background is closed: no refresh of it is under way, and none can begin. -/
structure Shut (d : Course σ ρ) : Prop where
  ticker : d.live.ticker = none
  waiting : d.live.waiting = false
  asked : d.isBusy = true → d.forced = true

/-- The background stays closed, and nothing of it is written down. -/
structure StaysShut (d d' : Course σ ρ) : Prop where
  shut : Shut d'
  notes : ∃ more, d'.notes = d.notes ++ more ∧ ∀ note ∈ more, ¬ note.IsBackground

namespace StaysShut

theorem of_same (h : Shut d') (hsame : d'.notes = d.notes) : StaysShut d d' :=
  ⟨h, [], by rw [hsame, List.append_nil], fun _ hmem => by cases hmem⟩

/-- A note that is not of the background. -/
theorem note (h : StaysShut d d') {d'' : Course σ ρ} (hshut : Shut d'') {note : Note}
    (hnot : ¬ note.IsBackground) (hnotes : d''.notes = d'.notes ++ [note]) : StaysShut d d'' := by
  obtain ⟨more, hmore, hall⟩ := h.notes
  refine ⟨hshut, more ++ [note], by rw [hnotes, hmore, List.append_assoc], fun other hmem => ?_⟩
  rcases List.mem_append.1 hmem with hmem | hmem
  · exact hall other hmem
  · rwa [List.mem_singleton.1 hmem]

theorem trans {d'' : Course σ ρ} (h : StaysShut d d') (h' : StaysShut d' d'') :
    StaysShut d d'' where
  shut := h'.shut
  notes := by
    obtain ⟨first, hfirst, hnot⟩ := h.notes
    obtain ⟨rest, hrest, hnot'⟩ := h'.notes
    refine ⟨first ++ rest, by rw [hrest, hfirst, List.append_assoc], fun note hmem => ?_⟩
    exact (List.mem_append.1 hmem).elim (hnot note) (hnot' note)

end StaysShut

theorem idle_cutOff (d : Course σ ρ) : d.cutOff.isBusy = false := by
  unfold cutOff
  simp only
  split
  · rfl
  · rfl

theorem close_shut (d : Course σ ρ) : Shut d.close where
  ticker := rfl
  waiting := rfl
  asked hbusy := by
    cases hforced : d.forced with
    | true =>
      rw [close, hforced]
      exact hforced
    | false =>
      have hidle : d.close.isBusy = false := by
        rw [close, hforced]
        exact d.idle_cutOff
      cases hidle.symm.trans hbusy

namespace Shut

theorem took (hticker : d.live.ticker = none) (hwaiting : d.live.waiting = false)
    (hforced : d.forced = true) (step : FetchStep ρ) (outside : σ) :
    Shut (d.took step outside) ∧ (d.took step outside).notes = d.notes := by
  cases step with
  | wait wake point => exact ⟨⟨hticker, hwaiting, fun _ => hforced⟩, rfl⟩
  | done result => exact ⟨⟨hticker, hwaiting, fun _ => hforced⟩, rfl⟩
  | crashed =>
    have heq : d.took .crashed outside =
        { d with world := { d.world with outside }, live := { d.live with underway := none } } := by
      rw [Course.took, hforced]
      rfl
    rw [heq]
    exact ⟨⟨hticker, hwaiting, fun _ => hforced⟩, rfl⟩

theorem operate (h : Shut d) (pool : Pool) (stage : Store.Stage) :
    StaysShut d (d.operate pool stage).2 := by
  rcases d.operate_eq_or pool stage with heq | ⟨store, files, _, _, heq⟩
  · rw [heq]
    exact .of_same h rfl
  · rw [heq]
    refine ⟨⟨h.ticker, h.waiting, h.asked⟩, _, rfl, fun note hmem hback => ?_⟩
    obtain ⟨text, rfl⟩ := exists_of_mem_replacing hmem
    cases hback

theorem ended (h : Shut d) (hforced : d.forced = true) (result : Except FetchError Pool) :
    StaysShut d (d.ended result) :=
  (StaysShut.of_same h rfl).note ⟨h.ticker, h.waiting, fun _ => hforced⟩
    (fun hback => by cases hforced.symm.trans hback) rfl

theorem learn (h : Shut d) (hforced : d.forced = true) (result : Except FetchError Pool) :
    StaysShut d (d.learn result) := by
  let learned : Course σ ρ := { d with
    live := (d.live.learn result d.world).1
    world := (d.live.learn result d.world).2
    notes := d.notes ++ [.learned d.forced d.world.now result] }
  have hshut : Shut learned := ⟨h.ticker, h.waiting, fun _ => hforced⟩
  have hlearned : StaysShut d learned :=
    (StaysShut.of_same h rfl).note hshut (fun hback => by cases hforced.symm.trans hback) rfl
  unfold Course.learn
  cases result with
  | error e => exact hlearned.trans (hshut.ended hforced (.error e))
  | ok pool =>
    simp only
    split
    · exact hlearned.trans (.of_same ⟨h.ticker, h.waiting, fun _ => hforced⟩ rfl)
    · exact hlearned.trans (hshut.ended hforced (.ok pool))

theorem save (h : Shut d) (hforced : d.forced = true) (pool : Pool) (stage : Store.Stage) :
    StaysShut d (d.save pool stage) := by
  have hoperated := h.operate pool stage
  have hstill : (d.operate pool stage).2.forced = true := by
    rcases d.operate_eq_or pool stage with heq | ⟨_, _, _, _, heq⟩
    · rw [heq]
      exact hforced
    · rw [heq]
      exact hforced
  unfold Course.save
  simp only
  split
  · exact hoperated.trans
      (.of_same ⟨hoperated.shut.ticker, hoperated.shut.waiting, fun _ => hstill⟩ rfl)
  · exact hoperated.trans (hoperated.shut.ended hstill (.ok pool))

theorem cutOff (h : Shut d) : StaysShut d d.cutOff := by
  have hidle := d.idle_cutOff
  have hshut {d' : Course σ ρ} (ht : d'.live.ticker = none) (hw : d'.live.waiting = false)
      (hbusy : d'.isBusy = false) : Shut d' := ⟨ht, hw, fun h => by cases hbusy.symm.trans h⟩
  unfold Course.cutOff at hidle ⊢
  simp only at hidle ⊢
  split
  · exact (StaysShut.of_same h rfl).note (hshut h.ticker h.waiting rfl)
      (fun hback : Note.cut.IsBackground => hback.elim) rfl
  · exact .of_same (hshut h.ticker h.waiting rfl) rfl

theorem action (h : Shut d) (f : Fetcher σ ρ) (action : Action σ) :
    StaysShut d (action.perform f d) := by
  cases action with
  | begin forced =>
    show StaysShut d (d.begin f forced)
    rw [Course.begin]
    split
    · rename_i hbegins
      have hasked : forced = true := by
        simpa [LiveCache.isOpen, h.ticker, h.waiting] using (Bool.and_eq_true_iff.1 hbegins).2
      have htook := took (d := { d with forced }) h.ticker h.waiting hasked
      exact .of_same (htook _ _).1 (htook _ _).2
    · exact .of_same h rfl
  | resume =>
    show StaysShut d (d.resume f)
    rw [Course.resume]
    split
    · rename_i hu _
      have htook := took h.ticker h.waiting (h.asked (by rw [isBusy, hu]; rfl))
      exact .of_same (htook _ _).1 (htook _ _).2
    · exact .of_same h rfl
  | proceed =>
    show StaysShut d d.proceed
    have hforced {rest : Rest} (hrest : d.rest = some rest) : d.forced = true :=
      h.asked (by rw [isBusy, hrest, Option.isSome_some, Bool.or_true])
    rw [Course.proceed]
    split
    · exact .of_same h rfl
    · rename_i hrest
      exact h.learn (hforced hrest) _
    · rename_i hrest
      exact h.save (hforced hrest) _ _
  | drop =>
    show StaysShut d d.drop
    rw [Course.drop]
    split
    · exact h.cutOff
    · exact .of_same h rfl
  | close =>
    show StaysShut d d.close
    have hshut := close_shut d
    rw [Course.close] at hshut ⊢
    split
    · rename_i hforced
      rw [if_pos hforced] at hshut
      exact .of_same hshut rfl
    · rename_i hforced
      rw [if_neg hforced] at hshut
      exact h.cutOff.trans (.of_same hshut rfl)
  | tardy i =>
    show StaysShut d (d.tardy i)
    rw [Course.tardy]
    split
    · exact .of_same h rfl
    · have hrest : StaysShut d { d with late := d.late.eraseIdx i } :=
        .of_same ⟨h.ticker, h.waiting, h.asked⟩ rfl
      exact hrest.trans (hrest.shut.operate _ _)
  | reschedule ticker waiting =>
    have hclosed : d.live.isOpen = false := by rw [LiveCache.isOpen, h.ticker, h.waiting]; rfl
    refine .of_same ⟨?_, ?_, h.asked⟩ rfl
    · show d.live.ticker.map _ = none
      rw [h.ticker]
      rfl
    · show (waiting && d.live.isOpen) = false
      rw [hclosed, Bool.and_false]
  | later time => exact .of_same ⟨h.ticker, h.waiting, h.asked⟩ rfl
  | outside change => exact .of_same ⟨h.ticker, h.waiting, h.asked⟩ rfl

/-- **Once the background is closed**, only refreshes that were asked for go on. -/
theorem perform (h : Shut d) (f : Fetcher σ ρ) (actions : List (Action σ)) :
    StaysShut d (perform f actions d) := by
  induction actions generalizing d with
  | nil => exact .of_same h rfl
  | cons action actions ih =>
    have hfirst := h.action f action
    exact hfirst.trans (ih hfirst.shut)

end Shut

end Course

end PoolKeeper
