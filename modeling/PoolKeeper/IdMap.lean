/-!
# Maps from identifiers

Finite maps whose keys are identifiers, listed in ascending order.

* `IdMap`, `IdMap.empty`, `IdMap.get?`, `IdMap.insert`, `IdMap.erase`, `IdMap.modify`;
* `IdMap.keys`, `IdMap.values`: what it holds, in the order of the keys;
* `IdMap.sorted`: the keys ascend, so none occurs twice.
-/

namespace PoolKeeper

/-- Entries whose keys strictly ascend. -/
abbrev Ascending {α : Type} (entries : List (String × α)) : Prop :=
  entries.Pairwise fun a b => a.1 < b.1

/-- A finite map from identifiers. -/
structure IdMap (α : Type) where
  entries : List (String × α)
  sorted : Ascending entries

namespace IdMap

variable {α β : Type}

/-- Entries with one more among them, in place of any with the same key. -/
def insertEntry (key : String) (value : α) : List (String × α) → List (String × α)
  | [] => [(key, value)]
  | (k, v) :: rest =>
    if key < k then (key, value) :: (k, v) :: rest
    else if key = k then (key, value) :: rest
    else (k, v) :: insertEntry key value rest

theorem mem_insertEntry {key : String} {value : α} {entries : List (String × α)}
    {e : String × α} (h : e ∈ insertEntry key value entries) : e = (key, value) ∨ e ∈ entries := by
  induction entries with
  | nil => simpa [insertEntry] using h
  | cons x rest ih =>
    obtain ⟨k, v⟩ := x
    simp only [insertEntry] at h
    split at h
    · simpa using h
    · split at h
      · simp only [List.mem_cons] at h ⊢
        exact h.imp id .inr
      · simp only [List.mem_cons] at h ⊢
        rcases h with h | h
        · exact .inr (.inl h)
        · exact (ih h).imp id .inr

theorem ascending_insertEntry (key : String) (value : α) {entries : List (String × α)}
    (h : Ascending entries) : Ascending (insertEntry key value entries) := by
  induction entries with
  | nil => simp [insertEntry, Ascending]
  | cons x rest ih =>
    obtain ⟨k, v⟩ := x
    obtain ⟨hk, hr⟩ := List.pairwise_cons.1 h
    simp only [insertEntry]
    split
    · rename_i hlt
      refine List.pairwise_cons.2 ⟨?_, h⟩
      intro e he
      rcases List.mem_cons.1 he with rfl | he
      · exact hlt
      · exact String.lt_trans hlt (hk e he)
    · rename_i hlt
      split
      · rename_i heq
        subst heq
        exact List.pairwise_cons.2 ⟨hk, hr⟩
      · rename_i hne
        refine List.pairwise_cons.2 ⟨?_, ih hr⟩
        intro e he
        rcases mem_insertEntry he with rfl | he
        · have hle : k ≤ key := Decidable.byContradiction fun h' => hlt (String.not_le.1 h')
          exact String.not_le.1 fun h' => hne (String.le_antisymm h' hle)
        · exact hk e he

/-- The map without entries. -/
def empty : IdMap α := ⟨[], .nil⟩

instance : Inhabited (IdMap α) := ⟨empty⟩

/-- The value of a key. -/
def get? (m : IdMap α) (key : String) : Option α := m.entries.lookup key

/-- The key has a value. -/
def contains (m : IdMap α) (key : String) : Bool := m.entries.any (·.1 == key)

/-- The keys in ascending order. -/
def keys (m : IdMap α) : List String := m.entries.map Prod.fst

/-- The values in the order of their keys. -/
def values (m : IdMap α) : List α := m.entries.map Prod.snd

/-- The number of keys. -/
def size (m : IdMap α) : Nat := m.entries.length

def isEmpty (m : IdMap α) : Bool := m.entries.isEmpty

/-- The map with a key set to a value. -/
def insert (m : IdMap α) (key : String) (value : α) : IdMap α :=
  ⟨insertEntry key value m.entries, ascending_insertEntry key value m.sorted⟩

/-- The map of the entries that a test accepts. -/
def filter (m : IdMap α) (keep : String → α → Bool) : IdMap α :=
  ⟨m.entries.filter fun e => keep e.1 e.2, m.sorted.filter _⟩

/-- The map without a key. -/
def erase (m : IdMap α) (key : String) : IdMap α := m.filter fun k _ => k != key

/-- The map with every value changed. -/
def map (m : IdMap α) (f : String → α → β) : IdMap β :=
  ⟨m.entries.map fun e => (e.1, f e.1 e.2), by
    have h := m.sorted
    rw [Ascending, List.pairwise_map]
    exact h⟩

/-- The map with the value of one key changed, if the key is there. -/
def modify (m : IdMap α) (key : String) (f : α → α) : IdMap α :=
  m.map fun k v => if k = key then f v else v

/-- The map of some entries; the last of equal keys wins. -/
def ofList (entries : List (String × α)) : IdMap α :=
  entries.foldl (fun m e => m.insert e.1 e.2) empty

end IdMap

end PoolKeeper
