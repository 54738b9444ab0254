import Mathlib.Data.List.Nodup
import PoolKeeper.IdMap

/-!
# Look-ups in maps from identifiers

* `IdMap.mem_insert`, `IdMap.mem_erase`, `IdMap.mem_filter`: the entries after an operation;
* `IdMap.contains_iff`, `IdMap.contains_insert`, `IdMap.contains_erase`: the keys after it;
* `IdMap.nodup_keys`: no key occurs twice; `IdMap.keys_map`: the keys stay when values change;
* `IdMap.get?_eq_some_iff`, `IdMap.get?_insert_self`, `IdMap.get?_insert_of_ne`,
  `IdMap.get?_erase_of_ne`: the value of a key.
-/

namespace PoolKeeper

namespace IdMap

variable {α : Type} {m : IdMap α} {key k : String} {value : α} {e : String × α}

theorem mem_insertEntry_iff {entries : List (String × α)} (h : Ascending entries) :
    e ∈ insertEntry key value entries ↔ e = (key, value) ∨ e ∈ entries ∧ e.1 ≠ key := by
  induction entries with
  | nil => simp [insertEntry]
  | cons x rest ih =>
    obtain ⟨k, v⟩ := x
    obtain ⟨hk, hr⟩ := List.pairwise_cons.1 h
    unfold insertEntry
    split
    · rename_i hlt
      have hne : ∀ e ∈ (k, v) :: rest, e.1 ≠ key := by
        intro e he heq
        rcases List.mem_cons.1 he with rfl | he
        · exact String.lt_irrefl key (heq ▸ hlt)
        · exact String.lt_irrefl key (String.lt_trans hlt (heq ▸ hk e he))
      rw [List.mem_cons]
      exact or_congr_right ⟨fun he => ⟨he, hne e he⟩, And.left⟩
    · split
      · rename_i heq
        subst heq
        have hne : ∀ e ∈ rest, e.1 ≠ key := fun e he h' =>
          String.lt_irrefl key (h' ▸ hk e he)
        rw [List.mem_cons, List.mem_cons]
        refine or_congr_right ⟨fun he => ⟨.inr he, hne e he⟩, ?_⟩
        rintro ⟨rfl | he, hkey⟩
        · exact absurd rfl hkey
        · exact he
      · rename_i hne
        rw [List.mem_cons, List.mem_cons, ih hr]
        constructor
        · rintro (rfl | rfl | ⟨he, hkey⟩)
          · exact .inr ⟨.inl rfl, fun h' => hne h'.symm⟩
          · exact .inl rfl
          · exact .inr ⟨.inr he, hkey⟩
        · rintro (rfl | ⟨rfl | he, hkey⟩)
          · exact .inr (.inl rfl)
          · exact .inl rfl
          · exact .inr (.inr ⟨he, hkey⟩)

theorem mem_insert :
    e ∈ (m.insert key value).entries ↔ e = (key, value) ∨ e ∈ m.entries ∧ e.1 ≠ key :=
  mem_insertEntry_iff m.sorted

theorem mem_filter {keep : String → α → Bool} :
    e ∈ (m.filter keep).entries ↔ e ∈ m.entries ∧ keep e.1 e.2 = true :=
  List.mem_filter

theorem mem_erase : e ∈ (m.erase key).entries ↔ e ∈ m.entries ∧ e.1 ≠ key := by
  rw [erase, mem_filter, bne_iff_ne]

theorem contains_iff : m.contains key = true ↔ ∃ e ∈ m.entries, e.1 = key := by
  simp only [contains, List.any_eq_true, beq_iff_eq]

theorem contains_insert : (m.insert key value).contains k = (k == key || m.contains k) := by
  rw [Bool.eq_iff_iff, Bool.or_eq_true, beq_iff_eq, contains_iff, contains_iff]
  constructor
  · rintro ⟨e, he, rfl⟩
    rcases mem_insert.1 he with rfl | ⟨he, _⟩
    · exact .inl rfl
    · exact .inr ⟨e, he, rfl⟩
  · intro h
    by_cases hk : k = key
    · exact ⟨(key, value), mem_insert.2 (.inl rfl), hk.symm⟩
    · obtain ⟨e, he, rfl⟩ := h.resolve_left hk
      exact ⟨e, mem_insert.2 (.inr ⟨he, hk⟩), rfl⟩

theorem contains_erase : (m.erase key).contains k = (k != key && m.contains k) := by
  rw [Bool.eq_iff_iff, Bool.and_eq_true, bne_iff_ne, contains_iff, contains_iff]
  constructor
  · rintro ⟨e, he, rfl⟩
    obtain ⟨he, hne⟩ := mem_erase.1 he
    exact ⟨hne, e, he, rfl⟩
  · rintro ⟨hne, e, he, rfl⟩
    exact ⟨e, mem_erase.2 ⟨he, hne⟩, rfl⟩

theorem mem_modify {f : α → α} (h : e ∈ (m.modify key f).entries) :
    ∃ old ∈ m.entries, e.1 = old.1 ∧ e.2 = if old.1 = key then f old.2 else old.2 := by
  obtain ⟨old, hold, rfl⟩ := List.mem_map.1 h
  exact ⟨old, hold, rfl, rfl⟩

theorem get?_eq_some (h : m.get? key = some value) : (key, value) ∈ m.entries := by
  obtain ⟨_, _, heq, _⟩ := List.lookup_eq_some_iff.1 h
  rw [heq]
  simp

theorem nodup_keys (m : IdMap α) : m.keys.Nodup := by
  rw [keys, List.Nodup, List.pairwise_map]
  refine m.sorted.imp ?_
  intro x y hlt heq
  rw [heq] at hlt
  exact String.lt_irrefl _ hlt

theorem get?_eq_some_iff : m.get? key = some value ↔ (key, value) ∈ m.entries := by
  refine ⟨get?_eq_some, fun h => ?_⟩
  cases hget : m.get? key with
  | none => simpa using List.lookup_eq_none_iff.1 hget _ h
  | some other =>
    have heq := List.inj_on_of_nodup_map m.nodup_keys (get?_eq_some hget) h rfl
    exact congrArg some (Prod.mk.inj heq).2

theorem get?_insert_self : (m.insert key value).get? key = some value :=
  get?_eq_some_iff.2 (mem_insert.2 (.inl rfl))

theorem get?_insert_of_ne (h : k ≠ key) : (m.insert key value).get? k = m.get? k := by
  refine Option.ext fun v => ?_
  rw [get?_eq_some_iff, get?_eq_some_iff, mem_insert]
  simp [h]

theorem get?_erase_of_ne (h : k ≠ key) : (m.erase key).get? k = m.get? k := by
  refine Option.ext fun v => ?_
  rw [get?_eq_some_iff, get?_eq_some_iff, mem_erase]
  simp [h]

theorem contains_eq (m : IdMap α) (key : String) : m.contains key = (m.get? key).isSome := by
  rw [Bool.eq_iff_iff, contains_iff, Option.isSome_iff_exists]
  constructor
  · rintro ⟨⟨_, value⟩, he, rfl⟩
    exact ⟨value, get?_eq_some_iff.2 he⟩
  · rintro ⟨value, h⟩
    exact ⟨(key, value), get?_eq_some h, rfl⟩

theorem mem_keys : key ∈ m.keys ↔ m.contains key = true := by
  rw [contains_iff, keys, List.mem_map]

theorem keys_map {β : Type} (m : IdMap α) (f : String → α → β) : (m.map f).keys = m.keys := by
  rw [keys, keys, map, List.map_map]
  rfl

theorem keys_modify (m : IdMap α) (key : String) (f : α → α) : (m.modify key f).keys = m.keys :=
  keys_map m _

end IdMap

end PoolKeeper
