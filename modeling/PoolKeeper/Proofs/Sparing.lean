import Mathlib.Data.List.Basic
import PoolKeeper.Proofs.Queue

/-!
# Who is spared

A termination queue keeps its entries in the order in which their machines were queued, whatever is
done with it. Sparing takes entries out of that order: those with the latest times, and of equal
times those that stand furthest behind.

* `TerminationQueue.Action`, `TerminationQueue.after`: what is done with a queue, and what it is
  then; `TerminationQueue.distinct_after`: no machine waits twice, ever;
* `TerminationQueue.SparingOrder`: the entries in the order in which they are spared;
  **`TerminationQueue.SparingOrder.eq_ranked`**: there is one such order;
* `TerminationQueue.takeOut?`, **`TerminationQueue.takeOut?_eq`**: entries taken out by their
  positions, the last one first;
* `TerminationQueue.spareInPlace?`, **`TerminationQueue.spareInPlace?_eq`**: sparing step by step,
  without a second copy of the queue, comes to the same and never misses a position;
* **`TerminationQueue.insertion_ordered`**: what each operation makes of a queue.
-/

namespace PoolKeeper

namespace Instant

variable {a b : Instant}

theorem le_of_lt (h : a < b) : a ≤ b := by
  rw [lt_def] at h
  rw [le_def]
  omega

theorem le_antisymm (h : a ≤ b) (h' : b ≤ a) : a = b := by
  obtain ⟨second, nano⟩ := a
  obtain ⟨second', nano'⟩ := b
  simp only [le_def, mk.injEq] at *
  omega

theorem lt_of_le_of_ne (h : a ≤ b) (hne : a ≠ b) : a < b :=
  not_le.1 fun h' => hne (le_antisymm h h')

theorem not_lt_of_le (h : a ≤ b) : ¬ b < a := fun h' => not_le.2 h' h

end Instant

namespace TerminationQueue

variable {q : TerminationQueue} {s : Scheduled} {id : String} {count : Nat}

/-! ## Histories -/

/-- What is done with a queue. -/
inductive Action where
  | insert (s : Scheduled)
  | erase (id : String)
  | retain (keep : Scheduled → Bool)
  | spare (count : Nat)

/-- The queue after an action. -/
def perform (q : TerminationQueue) : Action → TerminationQueue
  | .insert s => q.insert s
  | .erase id => q.erase id
  | .retain keep => q.retain keep
  | .spare count => q.spare count

/-- The queue after all that was done with it. -/
def after (history : List Action) : TerminationQueue := history.foldl perform .empty

theorem Distinct.perform (h : q.Distinct) (a : Action) : (q.perform a).Distinct := by
  cases a with
  | insert s => exact h.insert s
  | erase id => exact h.erase id
  | retain keep => exact h.of_sublist (retain_sublist keep)
  | spare count => exact h.spare count

/-- **No machine ever waits twice.** -/
theorem distinct_after (history : List Action) : (after history).Distinct := by
  have hfold : ∀ q : TerminationQueue, q.Distinct → (history.foldl perform q).Distinct := by
    induction history with
    | nil => exact fun _ h => h
    | cons a rest ih => exact fun q h => ih _ (h.perform a)
  exact hfold .empty distinct_empty

/-! ## Entries in place -/

theorem entries_insert_of_queued (h : q.Distinct) {i : Nat} {old : Scheduled}
    (hold : q.entries[i]? = some old) (hid : old.id = s.id) :
    (q.insert s).entries = q.entries.set i s := by
  have hc : q.contains s.id := contains_iff.2 (hid ▸ id_mem_ids (List.mem_of_getElem? hold))
  rw [insert, if_pos hc]
  refine List.ext_getElem? fun j => ?_
  rw [List.getElem?_map, List.getElem?_set]
  by_cases hj : i = j
  · subst hj
    rw [if_pos rfl, if_pos (List.getElem?_eq_some_iff.1 hold).1, hold, Option.map_some,
      if_pos (beq_iff_eq.2 hid)]
  · rw [if_neg hj]
    cases hother : q.entries[j]? with
    | none => rfl
    | some other =>
      have hne : other.id ≠ s.id := fun heq => by
        have hi : q.ids[i]? = some s.id := by rw [ids, List.getElem?_map, hold, Option.map_some, hid]
        have hj' : q.ids[j]? = some s.id := by
          rw [ids, List.getElem?_map, hother, Option.map_some, heq]
        exact hj ((List.getElem?_inj (List.getElem?_eq_some_iff.1 hi).1 h).1 (hi.trans hj'.symm))
      rw [Option.map_some, if_neg (by simpa using hne)]

theorem entries_insert_of_notMem (h : s.id ∉ q.ids) : (q.insert s).entries = q.entries ++ [s] := by
  rw [insert, if_neg (mt contains_iff.1 h)]

/-- Whatever part of a queue is to stay, a test of single entries tells it from the rest. -/
theorem exists_retain (h : q.Distinct) {kept : List Scheduled} (hkept : kept.Sublist q.entries) :
    ∃ keep, q.retain keep = ⟨kept⟩ := by
  refine ⟨fun s => (kept.map Scheduled.id).contains s.id, congrArg mk ?_⟩
  have hids : (q.entries.map Scheduled.id).Nodup := h
  generalize q.entries = entries at hkept hids
  induction hkept with
  | slnil => rfl
  | @cons kept entries s hsub ih =>
    rw [List.map_cons, List.nodup_cons] at hids
    have hout : s.id ∉ kept.map Scheduled.id := fun hmem => hids.1 ((hsub.map _).subset hmem)
    rw [List.filter_cons_of_neg (by simpa using hout)]
    exact ih hids.2
  | @cons_cons kept entries s hsub ih =>
    rw [List.map_cons, List.nodup_cons] at hids
    rw [List.filter_cons_of_pos (by simp)]
    refine congrArg (s :: ·) ((List.filter_congr fun e he => ?_).trans (ih hids.2))
    have hne : e.id ≠ s.id := fun heq => hids.1 (heq ▸ List.mem_map_of_mem he)
    rw [List.map_cons, List.contains_cons, beq_eq_false_iff_ne.2 hne, Bool.false_or]

/-! ## The order of sparing -/

/-- The first of two entries with their positions is spared before the second. -/
def SparedBefore (a b : Scheduled × Nat) : Prop :=
  b.1.time < a.1.time ∨ a.1.time = b.1.time ∧ b.2 < a.2

instance (a b : Scheduled × Nat) : Decidable (SparedBefore a b) :=
  inferInstanceAs (Decidable (_ ∨ _))

theorem SparedBefore.asymm {a b : Scheduled × Nat} (h : SparedBefore a b) :
    ¬ SparedBefore b a := by
  rcases h with hlt | ⟨heq, hlt⟩
  · rintro (hgt | ⟨heq, -⟩)
    · rw [Instant.lt_def] at hlt hgt
      omega
    · rw [heq, Instant.lt_def] at hlt
      omega
  · rintro (hgt | ⟨-, hgt⟩)
    · rw [heq, Instant.lt_def] at hgt
      omega
    · exact Nat.lt_asymm hlt hgt

/-- The entries with their positions, in the order in which they are spared: the latest time first,
and of equal times the one that stands furthest behind. -/
structure SparingOrder (q : TerminationQueue) (order : List (Scheduled × Nat)) : Prop where
  all : order.Perm q.entries.zipIdx
  ordered : order.Pairwise SparedBefore

theorem sparedFirst_iff {a b : Scheduled × Nat} :
    sparedFirst a b = true ↔ b.1.time < a.1.time ∨ a.1.time = b.1.time ∧ b.2 ≤ a.2 := by
  simp only [sparedFirst, Bool.or_eq_true, Bool.and_eq_true, decide_eq_true_eq, beq_iff_eq]

theorem sparedFirst_trans (a b c : Scheduled × Nat) (h : sparedFirst a b = true)
    (h' : sparedFirst b c = true) : sparedFirst a c = true := by
  rw [sparedFirst_iff] at *
  rcases h with h | ⟨heq, h⟩
  · rcases h' with h' | ⟨heq', -⟩
    · rw [Instant.lt_def] at *
      omega
    · exact .inl (heq' ▸ h)
  · rcases h' with h' | ⟨heq', h'⟩
    · exact .inl (heq ▸ h')
    · exact .inr ⟨heq.trans heq', Nat.le_trans h' h⟩

theorem sparedFirst_total (a b : Scheduled × Nat) :
    (sparedFirst a b || sparedFirst b a) = true := by
  rw [Bool.or_eq_true, sparedFirst_iff, sparedFirst_iff]
  by_cases heq : a.1.time = b.1.time
  · rcases Nat.le_total a.2 b.2 with hle | hle
    · exact .inr (.inr ⟨heq.symm, hle⟩)
    · exact .inl (.inr ⟨heq, hle⟩)
  · rcases Instant.le_total a.1.time b.1.time with hle | hle
    · exact .inr (.inl (Instant.lt_of_le_of_ne hle heq))
    · exact .inl (.inl (Instant.lt_of_le_of_ne hle (Ne.symm heq)))

theorem pairwise_mergeSort_sparedFirst {l : List (Scheduled × Nat)}
    (h : (l.map Prod.snd).Nodup) : (l.mergeSort sparedFirst).Pairwise SparedBefore := by
  have hsorted := List.pairwise_mergeSort sparedFirst_trans sparedFirst_total l
  have hpositions := ((List.mergeSort_perm l sparedFirst).map Prod.snd).nodup_iff.2 h
  refine (hsorted.and (List.pairwise_map.1 hpositions)).imp fun {a b} h => ?_
  rcases sparedFirst_iff.1 h.1 with hlt | ⟨heq, hle⟩
  · exact .inl hlt
  · exact .inr ⟨heq, Nat.lt_of_le_of_ne hle (Ne.symm h.2)⟩

theorem sparingOrder_ranked (q : TerminationQueue) : q.SparingOrder q.ranked where
  all := ranked_perm q
  ordered := pairwise_mergeSort_sparedFirst (by
    rw [List.zipIdx_map_snd]
    exact List.nodup_range')

/-- Entries are put into the order of sparing in one way only. -/
theorem eq_of_pairwise_sparedBefore {l l' : List (Scheduled × Nat)} (h : l.Pairwise SparedBefore)
    (h' : l'.Pairwise SparedBefore) (hperm : l.Perm l') : l = l' :=
  hperm.eq_of_pairwise (fun _ _ _ _ hab hba => absurd hba hab.asymm) h h'

/-- **There is one order of sparing.** -/
theorem SparingOrder.eq_ranked {order : List (Scheduled × Nat)} (h : q.SparingOrder order) :
    order = q.ranked :=
  eq_of_pairwise_sparedBefore h.ordered (sparingOrder_ranked q).ordered
    (h.all.trans (ranked_perm q).symm)

theorem length_spared (q : TerminationQueue) (count : Nat) :
    (q.spared count).length = min count q.entries.length := by
  rw [spared, List.length_map, List.length_take, (ranked_perm q).length_eq, List.length_zipIdx]

theorem entries_spare (h : q.Distinct) (count : Nat) :
    (q.spare count).entries =
      q.entries.filter fun s => !((q.spared count).map Scheduled.id).contains s.id := by
  obtain ⟨keep, hkeep⟩ := exists_retain h (spare_sublist q count)
  have hentries : (q.spare count).entries = q.entries.filter keep := (congrArg entries hkeep).symm
  rw [hentries]
  refine List.filter_congr fun s hs => ?_
  rw [Bool.eq_iff_iff, Bool.not_eq_true', List.contains_eq_mem, decide_eq_false_iff_not]
  constructor
  · intro hk
    exact notMem_spared_of_mem_spare h (hentries ▸ List.mem_filter.2 ⟨hs, hk⟩)
  · intro hout
    have hstays := mem_spare_of_notMem hs hout
    rw [hentries] at hstays
    exact (List.mem_filter.1 hstays).2

/-! ## Sparing step by step -/

/-- The entries at some positions of a row, taken out one after the other, and the rest of the row.
Nothing if a position lies past the end when its turn comes. -/
def takeOut? : List Nat → List Scheduled → Option (List Scheduled × List Scheduled)
  | [], row => some ([], row)
  | i :: rest, row => do
    let s ← row[i]?
    let (taken, left) ← takeOut? rest (row.eraseIdx i)
    some (s :: taken, left)

/-- The first positions in the order of sparing are put in order, the last one in front, so that no
position moves before its turn. The entries that are taken out there are sorted by time. -/
def spareInPlace? (q : TerminationQueue) (count : Nat) :
    Option (List Scheduled × TerminationQueue) := do
  let positions := ((q.ranked.map Prod.snd).take count).mergeSort fun i j => j ≤ i
  let (taken, left) ← takeOut? positions q.entries
  some (taken.mergeSort fun a b => b.time ≤ a.time, ⟨left⟩)

/-- What is left of a row without the entry at a position, if only entries before it are to go. -/
theorem filter_eraseIdx {row : List Scheduled} {i : Nat} (hi : i < row.length) {rest : List Nat}
    (hrest : ∀ j ∈ rest, j < i) :
    ((row.eraseIdx i).zipIdx.filter fun e => !rest.contains e.2).map Prod.fst =
      (row.zipIdx.filter fun e => !(i :: rest).contains e.2).map Prod.fst := by
  have hlength : (row.take i).length = i := List.length_take_of_le (Nat.le_of_lt hi)
  have hrow : row = row.take i ++ row[i] :: row.drop (i + 1) := by
    rw [List.getElem_cons_drop, List.take_append_drop]
  have hfront : (row.take i).zipIdx.filter (fun e => !(i :: rest).contains e.2) =
      (row.take i).zipIdx.filter fun e => !rest.contains e.2 := by
    refine List.filter_congr fun e he => ?_
    have hlt := List.snd_lt_of_mem_zipIdx he
    have hne : e.2 ≠ i := by omega
    rw [List.contains_cons, beq_eq_false_iff_ne.2 hne, Bool.false_or]
  have hback : ∀ (n : Nat) (gone : List Nat), (∀ j ∈ gone, j < n) →
      ((row.drop (i + 1)).zipIdx n).filter (fun e => !gone.contains e.2) =
        (row.drop (i + 1)).zipIdx n := by
    intro n gone hgone
    refine List.filter_eq_self.2 fun e he => ?_
    have hle := List.le_snd_of_mem_zipIdx he
    have hout : e.2 ∉ gone := fun hmem => Nat.not_lt.2 hle (hgone _ hmem)
    simpa using hout
  conv_rhs => rw [hrow]
  rw [List.eraseIdx_eq_take_drop_succ, List.zipIdx_append, List.zipIdx_append, hlength,
    List.filter_append, List.filter_append, hfront, Nat.zero_add, List.zipIdx_cons,
    List.filter_cons_of_neg (by simp), hback i rest hrest,
    hback (i + 1) (i :: rest) (by simpa using fun j hj => Nat.lt_succ_of_lt (hrest j hj)),
    List.map_append, List.map_append, List.zipIdx_map_fst, List.zipIdx_map_fst]

/-- **Entries taken out by their positions, the last one first.** -/
theorem takeOut?_eq {positions : List Nat} {row : List Scheduled}
    (hdesc : positions.Pairwise fun i j => j < i) (hrange : ∀ i ∈ positions, i < row.length) :
    takeOut? positions row = some (positions.filterMap (row[·]?),
      (row.zipIdx.filter fun e => !positions.contains e.2).map Prod.fst) := by
  induction positions generalizing row with
  | nil =>
    have hall : row.zipIdx.filter (fun e => !([] : List Nat).contains e.2) = row.zipIdx :=
      List.filter_eq_self.2 fun _ _ => rfl
    rw [hall, List.zipIdx_map_fst]
    rfl
  | cons i rest ih =>
    obtain ⟨hbefore, hdesc⟩ := List.pairwise_cons.1 hdesc
    have hi : i < row.length := hrange i List.mem_cons_self
    have hshort : (row.eraseIdx i).length = row.length - 1 := List.length_eraseIdx_of_lt hi
    have hthere : ∀ j ∈ rest, j < (row.eraseIdx i).length := by
      intro j hj
      have hlt := hbefore j hj
      omega
    have hrest := ih hdesc hthere
    -- the entries before the one that goes keep their positions
    have hsame : rest.filterMap ((row.eraseIdx i)[·]?) = rest.filterMap (row[·]?) :=
      List.filterMap_congr fun j hj => by
        rw [List.getElem?_eraseIdx, if_pos (hbefore j hj)]
    rw [takeOut?, hrest, List.getElem?_eq_getElem hi, hsame, filter_eraseIdx hi hbefore]
    simp only [Option.bind_eq_bind, Option.bind_some, List.filterMap_cons,
      List.getElem?_eq_getElem hi]

/-- Entries that stand in order of position, the last one first, are sorted by time into the order
of sparing. -/
theorem mergeSort_time {l : List (Scheduled × Nat)} (h : l.Pairwise fun a b => b.2 < a.2) :
    l.mergeSort (fun a b => b.1.time ≤ a.1.time) = l.mergeSort sparedFirst := by
  have hplaces : ∀ a ∈ l.zipIdx, ∀ b ∈ l.zipIdx, a.2 ≤ b.2 ↔ b.1.2 ≤ a.1.2 := by
    intro a ha b hb
    obtain ⟨hi, ha⟩ := List.mem_zipIdx' ha
    obtain ⟨hj, hb⟩ := List.mem_zipIdx' hb
    rw [List.pairwise_iff_getElem] at h
    rcases Nat.lt_trichotomy a.2 b.2 with hlt | heq | hgt
    · have hbehind := h _ _ hi hj hlt
      rw [ha, hb]
      omega
    · simp only [ha, hb, heq, Nat.le_refl]
    · have hbehind := h _ _ hj hi hgt
      rw [ha, hb]
      omega
  -- a stable sort compares by place what it cannot tell apart
  rw [← List.mergeSort_zipIdx, List.map_mergeSort (s := sparedFirst), List.zipIdx_map_fst]
  intro a ha b hb
  rw [Bool.eq_iff_iff, sparedFirst_iff, List.zipIdxLE, ← hplaces a ha b hb]
  by_cases hle : b.1.1.time ≤ a.1.1.time
  · by_cases hge : a.1.1.time ≤ b.1.1.time
    · simp [hle, hge, Instant.not_lt_of_le hge, eq_true (Instant.le_antisymm hge hle)]
    · simp [hle, hge, Instant.not_le.1 hge]
  · have hnot : ¬ b.1.1.time < a.1.1.time := fun hlt => hle (Instant.le_of_lt hlt)
    have hne : a.1.1.time ≠ b.1.1.time := fun heq => hle (heq ▸ Instant.le_refl _)
    simp [hle, hnot, hne]

/-- **Sparing step by step comes to the same**, and every position is there when its turn comes. -/
theorem spareInPlace?_eq (q : TerminationQueue) (count : Nat) :
    q.spareInPlace? count = some (q.spared count, q.spare count) := by
  let top := q.ranked.take count
  let sorted := top.mergeSort fun a b => b.2 ≤ a.2
  have hsorted : sorted.Perm top := List.mergeSort_perm _ _
  have hmem : ∀ e ∈ sorted, q.entries[e.2]? = some e.1 := fun e he =>
    List.mem_zipIdx_iff_getElem?.1
      ((ranked_perm q).mem_iff.1 (List.mem_of_mem_take (hsorted.mem_iff.1 he)))
  have hpositions : ((q.ranked.map Prod.snd).take count).mergeSort (fun i j => j ≤ i) =
      sorted.map Prod.snd := by
    rw [← List.map_take]
    exact (List.map_mergeSort (f := Prod.snd) fun _ _ _ _ => rfl).symm
  have hdesc : sorted.Pairwise fun a b => b.2 < a.2 := by
    have hle : sorted.Pairwise fun a b => decide (b.2 ≤ a.2) = true :=
      List.pairwise_mergeSort (by simp; omega) (by simp; omega) top
    have hnodup : (sorted.map Prod.snd).Nodup :=
      (hsorted.map Prod.snd).nodup_iff.2
        (((List.take_sublist count q.ranked).map Prod.snd).nodup (nodup_positions q))
    refine (hle.and (List.pairwise_map.1 hnodup)).imp fun {a b} h => ?_
    exact Nat.lt_of_le_of_ne (of_decide_eq_true h.1) (Ne.symm h.2)
  have hthere : ∀ i ∈ sorted.map Prod.snd, i < q.entries.length := by
    intro i hi
    obtain ⟨e, he, rfl⟩ := List.mem_map.1 hi
    exact (List.getElem?_eq_some_iff.1 (hmem e he)).1
  have hout := takeOut?_eq (List.pairwise_map.2 hdesc) hthere
  have htaken : (sorted.map Prod.snd).filterMap (q.entries[·]?) = sorted.map Prod.fst := by
    rw [List.filterMap_map, ← List.filterMap_eq_map]
    exact List.filterMap_congr hmem
  have hleft : ((q.entries.zipIdx.filter fun e => !(sorted.map Prod.snd).contains e.2).map
      Prod.fst) = (q.spare count).entries := by
    refine congrArg (List.map Prod.fst) (List.filter_congr fun e _ => ?_)
    rw [Bool.eq_iff_iff, Bool.not_eq_true', Bool.not_eq_true', ← Bool.not_eq_true,
      ← Bool.not_eq_true, List.contains_iff_mem, List.contains_iff_mem,
      (hsorted.map Prod.snd).mem_iff]
  have hspared : (sorted.map Prod.fst).mergeSort (fun a b => b.time ≤ a.time) = q.spared count := by
    rw [← List.map_mergeSort (r := fun a b => decide (b.1.time ≤ a.1.time)) fun _ _ _ _ => rfl,
      mergeSort_time hdesc]
    refine congrArg (List.map Prod.fst) (eq_of_pairwise_sparedBefore ?_ ?_ ?_)
    · exact pairwise_mergeSort_sparedFirst ((List.pairwise_map.2 hdesc).imp Nat.ne_of_gt)
    · exact (sparingOrder_ranked q).ordered.sublist (List.take_sublist _ _)
    · exact (List.mergeSort_perm _ _).trans hsorted
  rw [spareInPlace?, hpositions, hout, htaken, hleft]
  simp only [Option.bind_eq_bind, Option.bind_some, hspared]

/-! ## Queues in order -/

/-- **A queue is a map in the order of insertion, and sparing takes its latest entries.** Whatever
was done with it, no machine waits twice. An entry of a machine that waits takes the place of the one
it has, any other goes to the end. Erasing, retaining and sparing leave what remains in order; a test
that retains may accept any part of the queue. The entries that are spared are the first ones in the
order of sparing, as many as are asked for or there are, and exactly the others stay: none is lost
and none is there twice. -/
theorem insertion_ordered (history : List Action) :
    let q := after history
    q.Distinct ∧
      (∀ s, (s.id ∉ q.ids → (q.insert s).entries = q.entries ++ [s]) ∧
        ∀ i old, q.entries[i]? = some old → old.id = s.id →
          (q.insert s).entries = q.entries.set i s) ∧
      (∀ id, (q.erase id).entries = q.entries.filter fun s => s.id != id) ∧
      (∀ keep, (q.retain keep).entries = q.entries.filter keep) ∧
      (∀ kept, kept.Sublist q.entries → ∃ keep, q.retain keep = ⟨kept⟩) ∧
      (∃! order, q.SparingOrder order) ∧
      ∀ count,
        (∀ order, q.SparingOrder order → q.spared count = (order.take count).map Prod.fst) ∧
        (q.spared count).length = min count q.entries.length ∧
        (q.spare count).entries =
          q.entries.filter (fun s => !((q.spared count).map Scheduled.id).contains s.id) ∧
        (q.spared count ++ (q.spare count).entries).Perm q.entries ∧
        q.spareInPlace? count = some (q.spared count, q.spare count) := by
  intro q
  have h : q.Distinct := distinct_after history
  refine ⟨h, fun s => ⟨entries_insert_of_notMem, fun i old => entries_insert_of_queued h⟩,
    entries_erase h, fun keep => rfl, fun kept => exists_retain h,
    ⟨q.ranked, sparingOrder_ranked q, fun order => SparingOrder.eq_ranked⟩, fun count => ?_⟩
  refine ⟨fun order horder => ?_, length_spared q count, entries_spare h count,
    spared_append_spare q count, spareInPlace?_eq q count⟩
  rw [horder.eq_ranked, spared]

/-- Three machines are to go at one time; the one in the middle was to go later at first. -/
theorem insertion_ordered_threeAtOnce :
    let entry (id : String) (second : Int) : Scheduled := ⟨{ id, state := .running }, ⟨second, 0⟩⟩
    let history : List Action := [.insert (entry "a" 20), .insert (entry "b" 30),
      .insert (entry "c" 20), .insert (entry "d" 5), .insert (entry "b" 20),
      .retain fun s => s.id != "d"]
    let q := after history
    q.SparingOrder [(entry "c" 20, 2), (entry "b" 20, 1), (entry "a" 20, 0)] ∧
      q.spared 2 = [entry "c" 20, entry "b" 20] ∧ (q.spare 2).entries = [entry "a" 20] := by
  intro entry history q
  have hentries : q.entries = [entry "a" 20, entry "b" 20, entry "c" 20] := rfl
  have horder : q.SparingOrder [(entry "c" 20, 2), (entry "b" 20, 1), (entry "a" 20, 0)] :=
    ⟨hentries ▸ List.reverse_perm [entry "a" 20, entry "b" 20, entry "c" 20].zipIdx, by decide⟩
  obtain ⟨_, _, _, _, _, _, hspare⟩ := insertion_ordered history
  obtain ⟨hspared, _, hleft, _, _⟩ := hspare 2
  have htaken : q.spared 2 = [entry "c" 20, entry "b" 20] := hspared _ horder
  refine ⟨horder, htaken, ?_⟩
  rw [hleft, htaken, hentries]
  rfl

end TerminationQueue

end PoolKeeper
