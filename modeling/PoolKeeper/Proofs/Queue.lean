import Mathlib.Data.List.Basic
import Mathlib.Data.List.Nodup
import PoolKeeper.Termination

/-!
# The termination queue as a map

* `TerminationQueue.Distinct`: no machine waits twice; every operation keeps it;
* `mem_ids_insert`, `mem_ids_erase`, `entries_erase`: look-ups after an operation;
* **`spared_append_spare`**: sparing splits the queue, and `length_spare` counts what is left;
* `insertAll`, `eraseAll`: several operations of a kind, one after the other, and
  `entries_insertAll`.
-/

namespace PoolKeeper

namespace TerminationQueue

variable {q : TerminationQueue} {s : Scheduled} {id : String}

/-- No machine waits twice. -/
def Distinct (q : TerminationQueue) : Prop := q.ids.Nodup

theorem distinct_empty : Distinct .empty := List.nodup_nil

theorem contains_iff : q.contains id = true ↔ id ∈ q.ids := by
  simp only [contains, ids, List.any_eq_true, beq_iff_eq, List.mem_map]

theorem id_mem_ids (h : s ∈ q.entries) : s.id ∈ q.ids := List.mem_map_of_mem h

theorem Distinct.of_sublist {q' : TerminationQueue} (h : q.Distinct)
    (hs : q'.entries.Sublist q.entries) : q'.Distinct :=
  (hs.map Scheduled.id).nodup h

theorem retain_sublist (keep : Scheduled → Bool) : (q.retain keep).entries.Sublist q.entries :=
  List.filter_sublist

theorem erase_sublist (id : String) : (q.erase id).entries.Sublist q.entries :=
  List.eraseP_sublist

/-! ## Inserting -/

theorem ids_insert_of_contains (h : q.contains s.id) : (q.insert s).ids = q.ids := by
  rw [insert, if_pos h, ids, ids, List.map_map]
  refine List.map_congr_left fun old _ => ?_
  by_cases he : old.id = s.id
  · simp [he]
  · simp [he]

theorem ids_insert_of_not_contains (h : ¬ q.contains s.id) : (q.insert s).ids = q.ids ++ [s.id] := by
  rw [insert, if_neg h, ids, ids, List.map_append, List.map_singleton]

theorem mem_ids_insert : id ∈ (q.insert s).ids ↔ id ∈ q.ids ∨ id = s.id := by
  by_cases h : q.contains s.id
  · rw [ids_insert_of_contains h]
    refine ⟨.inl, ?_⟩
    rintro (h' | rfl)
    · exact h'
    · exact contains_iff.1 h
  · rw [ids_insert_of_not_contains h, List.mem_append, List.mem_singleton]

theorem mem_of_mem_insert {e : Scheduled} (h : e ∈ (q.insert s).entries) : e ∈ q.entries ∨ e = s := by
  rw [insert] at h
  split at h
  · obtain ⟨old, hold, rfl⟩ := List.mem_map.1 h
    split
    · exact .inr rfl
    · exact .inl hold
  · simpa using h

theorem mem_insert_of_ne {e : Scheduled} (h : e ∈ q.entries) (hne : e.id ≠ s.id) :
    e ∈ (q.insert s).entries := by
  unfold insert
  split
  · exact List.mem_map.2 ⟨e, h, by simp [hne]⟩
  · exact List.mem_append_left _ h

theorem Distinct.insert (h : q.Distinct) (s : Scheduled) : (q.insert s).Distinct := by
  by_cases hc : q.contains s.id
  · rw [Distinct, ids_insert_of_contains hc]
    exact h
  · rw [Distinct, ids_insert_of_not_contains hc]
    refine List.nodup_append.2 ⟨h, List.nodup_singleton _, fun a ha b hb => ?_⟩
    rw [List.mem_singleton.1 hb]
    rintro rfl
    exact hc (contains_iff.2 ha)

/-- Entries inserted one after the other. -/
def insertAll (q : TerminationQueue) (entries : List Scheduled) : TerminationQueue :=
  entries.foldl insert q

@[simp] theorem insertAll_nil (q : TerminationQueue) : q.insertAll [] = q := rfl

@[simp] theorem insertAll_cons (q : TerminationQueue) (s : Scheduled) (rest : List Scheduled) :
    q.insertAll (s :: rest) = (q.insert s).insertAll rest := rfl

theorem Distinct.insertAll (h : q.Distinct) (entries : List Scheduled) :
    (q.insertAll entries).Distinct := by
  induction entries generalizing q with
  | nil => exact h
  | cons s rest ih => exact ih (h.insert s)

theorem entries_insertAll {entries : List Scheduled} (hnodup : (entries.map Scheduled.id).Nodup)
    (h : ∀ e ∈ entries, e.id ∉ q.ids) : (q.insertAll entries).entries = q.entries ++ entries := by
  induction entries generalizing q with
  | nil => exact (List.append_nil _).symm
  | cons s rest ih =>
    rw [List.map_cons, List.nodup_cons] at hnodup
    have hs : ¬ q.contains s.id := fun hc => h s List.mem_cons_self (contains_iff.1 hc)
    have hentries : (q.insert s).entries = q.entries ++ [s] := by rw [insert, if_neg hs]
    rw [insertAll_cons, ih hnodup.2, hentries, List.append_assoc, List.singleton_append]
    intro e he hmem
    rcases mem_ids_insert.1 hmem with hold | heq
    · exact h e (List.mem_cons_of_mem _ he) hold
    · exact hnodup.1 (heq ▸ List.mem_map_of_mem he)

theorem insertAll_append (q : TerminationQueue) (first rest : List Scheduled) :
    q.insertAll (first ++ rest) = (q.insertAll first).insertAll rest := List.foldl_append

theorem mem_ids_insertAll {entries : List Scheduled} :
    id ∈ (q.insertAll entries).ids ↔ id ∈ q.ids ∨ id ∈ entries.map Scheduled.id := by
  induction entries generalizing q with
  | nil => simp
  | cons s rest ih =>
    rw [insertAll_cons, ih, mem_ids_insert, List.map_cons, List.mem_cons, or_assoc]

theorem mem_of_mem_insertAll {entries : List Scheduled} {e : Scheduled}
    (h : e ∈ (q.insertAll entries).entries) : e ∈ q.entries ∨ e ∈ entries := by
  induction entries generalizing q with
  | nil => exact .inl h
  | cons s rest ih =>
    rcases ih h with h | h
    · rcases mem_of_mem_insert h with h | rfl
      · exact .inl h
      · exact .inr List.mem_cons_self
    · exact .inr (List.mem_cons_of_mem _ h)

theorem mem_insertAll_of_notMem {entries : List Scheduled} {e : Scheduled} (h : e ∈ q.entries)
    (hne : e.id ∉ entries.map Scheduled.id) : e ∈ (q.insertAll entries).entries := by
  induction entries generalizing q with
  | nil => exact h
  | cons s rest ih =>
    rw [List.map_cons, List.mem_cons, not_or] at hne
    exact ih (mem_insert_of_ne h hne.1) hne.2

/-! ## Erasing -/

theorem entries_erase (h : q.Distinct) (id : String) :
    (q.erase id).entries = q.entries.filter fun s => s.id != id := by
  obtain ⟨entries⟩ := q
  simp only [Distinct, ids, erase] at h ⊢
  induction entries with
  | nil => rfl
  | cons s rest ih =>
    rw [List.map_cons, List.nodup_cons] at h
    by_cases he : s.id = id
    · rw [List.eraseP_cons_of_pos (by simp [he]), List.filter_cons_of_neg (by simp [he])]
      refine (List.filter_eq_self.2 fun e hrest => ?_).symm
      have hne : e.id ≠ id := fun heq => h.1 (by rw [he, ← heq]; exact List.mem_map_of_mem hrest)
      simp [hne]
    · rw [List.eraseP_cons_of_neg (by simp [he]), List.filter_cons_of_pos (by simp [he]), ih h.2]

theorem contains_erase (h : q.Distinct) (id other : String) :
    (q.erase id).contains other = (other != id && q.contains other) := by
  rw [Bool.eq_iff_iff, Bool.and_eq_true, bne_iff_ne, contains_iff, contains_iff, ids, ids,
    entries_erase h]
  constructor
  · intro hmem
    obtain ⟨e, he, rfl⟩ := List.mem_map.1 hmem
    obtain ⟨he, hne⟩ := List.mem_filter.1 he
    exact ⟨bne_iff_ne.1 hne, List.mem_map_of_mem he⟩
  · rintro ⟨hne, hmem⟩
    obtain ⟨e, he, rfl⟩ := List.mem_map.1 hmem
    exact List.mem_map_of_mem (List.mem_filter.2 ⟨he, bne_iff_ne.2 hne⟩)

theorem Distinct.erase (h : q.Distinct) (id : String) : (q.erase id).Distinct :=
  h.of_sublist (erase_sublist id)

/-- The entries of some machines erased one after the other. -/
def eraseAll (q : TerminationQueue) (ids : List String) : TerminationQueue := ids.foldl erase q

theorem eraseAll_sublist (q : TerminationQueue) (ids : List String) :
    (q.eraseAll ids).entries.Sublist q.entries := by
  induction ids generalizing q with
  | nil => exact List.Sublist.refl _
  | cons id rest ih => exact (ih (q.erase id)).trans (erase_sublist id)

theorem entries_eraseAll (h : q.Distinct) (ids : List String) :
    (q.eraseAll ids).entries = q.entries.filter fun s => !ids.contains s.id := by
  induction ids generalizing q with
  | nil => exact (List.filter_eq_self.2 fun _ _ => rfl).symm
  | cons id rest ih =>
    show ((q.erase id).eraseAll rest).entries = _
    rw [ih (h.erase id), entries_erase h, List.filter_filter]
    refine List.filter_congr fun s _ => ?_
    rw [List.contains_cons, Bool.not_or, Bool.and_comm]
    rfl

/-! ## Sparing -/

theorem ranked_perm (q : TerminationQueue) : q.ranked.Perm q.entries.zipIdx :=
  List.mergeSort_perm _ _

theorem nodup_positions (q : TerminationQueue) : (q.ranked.map Prod.snd).Nodup := by
  refine ((ranked_perm q).map Prod.snd).nodup_iff.2 ?_
  rw [List.zipIdx_map_snd]
  exact List.nodup_range'

/-- Of a list without repeated keys, the elements whose keys are not among the first ones. -/
theorem filter_take_keys {α β : Type} [BEq β] [LawfulBEq β] {l : List α} {key : α → β}
    (h : (l.map key).Nodup) (n : Nat) :
    l.filter (fun e => !((l.take n).map key).contains (key e)) = l.drop n := by
  rw [← List.take_append_drop n l, List.map_append, List.nodup_append] at h
  have htake : (l.take n).filter (fun e => !((l.take n).map key).contains (key e)) = [] := by
    refine List.filter_eq_nil_iff.2 fun e he => ?_
    have : key e ∈ (l.take n).map key := List.mem_map_of_mem he
    simpa using this
  have hdrop : (l.drop n).filter (fun e => !((l.take n).map key).contains (key e)) =
      l.drop n := by
    refine List.filter_eq_self.2 fun e he => ?_
    have : key e ∉ (l.take n).map key := fun hm => h.2.2 _ hm _ (List.mem_map_of_mem he) rfl
    simpa using this
  conv_lhs => arg 2; rw [← List.take_append_drop n l]
  rw [List.filter_append, htake, hdrop, List.nil_append]

theorem spare_perm (q : TerminationQueue) (count : Nat) :
    (q.spare count).entries.Perm ((q.ranked.drop count).map Prod.fst) := by
  rw [spare, ← filter_take_keys (nodup_positions q) count]
  exact ((ranked_perm q).symm.filter _).map Prod.fst

/-- **Sparing splits the queue.** -/
theorem spared_append_spare (q : TerminationQueue) (count : Nat) :
    (q.spared count ++ (q.spare count).entries).Perm q.entries := by
  have h : (q.spared count ++ (q.ranked.drop count).map Prod.fst).Perm q.entries := by
    rw [spared, ← List.map_append, List.take_append_drop]
    simpa using (ranked_perm q).map Prod.fst
  exact ((spare_perm q count).append_left _).trans h

theorem spare_sublist (q : TerminationQueue) (count : Nat) :
    (q.spare count).entries.Sublist q.entries := by
  have h : (q.entries.zipIdx.map Prod.fst).Sublist q.entries := by
    rw [List.zipIdx_map_fst]
  exact (List.filter_sublist.map Prod.fst).trans h

theorem length_spare (q : TerminationQueue) (count : Nat) :
    (q.spare count).entries.length = q.entries.length - count := by
  rw [(spare_perm q count).length_eq, List.length_map, List.length_drop,
    (ranked_perm q).length_eq, List.length_zipIdx]

@[simp] theorem spared_zero (q : TerminationQueue) : q.spared 0 = [] := rfl

@[simp] theorem spare_zero (q : TerminationQueue) : q.spare 0 = q := by
  obtain ⟨entries⟩ := q
  simp [spare]

theorem Distinct.spare (h : q.Distinct) (count : Nat) : (q.spare count).Distinct :=
  h.of_sublist (spare_sublist q count)

theorem mem_spare_of_notMem {count : Nat} (h : s ∈ q.entries)
    (hne : s.id ∉ (q.spared count).map Scheduled.id) : s ∈ (q.spare count).entries := by
  have hs := (spared_append_spare q count).mem_iff.2 h
  rcases List.mem_append.1 hs with hs | hs
  · exact absurd (List.mem_map_of_mem hs) hne
  · exact hs

/-- Nobody who stays is spared. -/
theorem notMem_spared_of_mem_spare (h : q.Distinct) {count : Nat}
    (hs : s ∈ (q.spare count).entries) : s.id ∉ (q.spared count).map Scheduled.id := by
  have hnodup := ((spared_append_spare q count).map Scheduled.id).nodup_iff.2 h
  rw [List.map_append, List.nodup_append] at hnodup
  exact fun hid => hnodup.2.2 _ hid _ (List.mem_map_of_mem hs) rfl

end TerminationQueue

end PoolKeeper
