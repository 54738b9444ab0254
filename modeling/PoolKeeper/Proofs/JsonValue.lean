import PoolKeeper.Proofs.Document
import PoolKeeper.Proofs.JsonText

/-!
# The tree of a value is worth that value

* `Numeral.absorb_eq`, `Numeral.number?_ofInt`: whole numbers of the 64-bit range;
* `Json.ofMembers_of_pairwise`: members that are in order stay as they are;
* `Json.levels`: the levels of arrays and objects;
* **`Node.json?_ofJson`**: the tree of a value, within its levels.
-/

namespace PoolKeeper

/-! ## Whole numbers -/

namespace Numeral

theorem le_ofDigitChars (n : Nat) (ds : List Char) : n ≤ Nat.ofDigitChars 10 ds n := by
  rw [Nat.ofDigitChars_eq_ofDigitChars_zero]
  have hpow : 0 < 10 ^ ds.length := Nat.pow_pos (by decide)
  have hmul := Nat.le_mul_of_pos_left n hpow
  omega

/-- Digits of a number that fits a word are all absorbed. -/
theorem absorb_eq {n : Nat} {ds : List Char} (h : Nat.ofDigitChars 10 ds n < wordLimit) :
    absorb n ds = (Nat.ofDigitChars 10 ds n, []) := by
  induction ds generalizing n with
  | nil => rfl
  | cons c ds ih =>
    have hcons : Nat.ofDigitChars 10 (c :: ds) n = Nat.ofDigitChars 10 ds (10 * n + digit c) :=
      Nat.ofDigitChars_cons
    have hle := le_ofDigitChars (10 * n + digit c) ds
    rw [hcons] at h ⊢
    rw [absorb, if_pos (Nat.lt_of_le_of_lt hle h)]
    exact ih h

theorem absorb_toString {n : Nat} (h : n < wordLimit) :
    absorb 0 (toString n).toList = (n, []) := by
  have hvalue : Nat.ofDigitChars 10 (toString n).toList 0 = n := by
    rw [Nat.toString_eq_ofList_toDigits, String.toList_ofList]
    exact Nat.ofDigitChars_ten_toDigits
  rw [absorb_eq (by rwa [hvalue]), hvalue]

theorem number?_ofInt {n : Int} (hlow : -0x8000_0000_0000_0000 ≤ n)
    (hhigh : n < 0x1_0000_0000_0000_0000) : (ofInt n).number? = some (.whole n) := by
  have hfits : n.natAbs < wordLimit := by
    rw [wordLimit]
    omega
  have habsorb : absorb 0 (ofInt n).whole = (n.natAbs, []) := absorb_toString hfits
  rw [number?, habsorb]
  by_cases hsign : n < 0
  · have hnegative : (ofInt n).negative = true := decide_eq_true hsign
    have hrange : 0 < n.natAbs ∧ n.natAbs ≤ 0x8000_0000_0000_0000 := by omega
    have hvalue : -(n.natAbs : Int) = n := by omega
    simp only [ofInt] at hnegative ⊢
    simp only [hnegative, not_true_eq_false, if_false, if_pos hrange, hvalue]
  · have hpositive : (ofInt n).negative = false := decide_eq_false hsign
    have hvalue : (n.natAbs : Int) = n := by omega
    simp only [ofInt] at hpositive ⊢
    simp only [hpositive, Bool.false_eq_true, not_false_eq_true, if_true, hvalue]

end Numeral

/-! ## Members in order -/

namespace Json

theorem insertMember_of_lt {name : String} {value : Json} {members : List (String × Json)}
    (h : ∀ m ∈ members, m.1 < name) :
    insertMember name value members = members ++ [(name, value)] := by
  induction members with
  | nil => rfl
  | cons m rest ih =>
    obtain ⟨key, x⟩ := m
    have hlt : key < name := h (key, x) List.mem_cons_self
    have hnot : ¬ name < key := String.lt_asymm hlt
    have hne : ¬ name = key := fun heq => String.lt_irrefl key (heq ▸ hlt)
    rw [insertMember, if_neg hnot, if_neg hne, ih fun m hm => h m (List.mem_cons_of_mem _ hm)]
    rfl

theorem ofMembers_of_pairwise {members : List (String × Json)}
    (h : members.Pairwise (fun a b => a.1 < b.1)) : ofMembers members = object members := by
  have hfold : ∀ (members sorted : List (String × Json)),
      (sorted ++ members).Pairwise (fun a b => a.1 < b.1) →
      members.foldl (fun sorted m => insertMember m.1 m.2 sorted) sorted = sorted ++ members := by
    intro members
    induction members with
    | nil => exact fun sorted _ => (List.append_nil sorted).symm
    | cons m rest ih =>
      intro sorted hsorted
      have hlast : ∀ a ∈ sorted, a.1 < m.1 := fun a ha =>
        (List.pairwise_append.1 hsorted).2.2 a ha m List.mem_cons_self
      rw [List.foldl_cons, insertMember_of_lt hlast]
      have hmore := ih (sorted ++ [m]) (by rwa [List.append_assoc, List.singleton_append])
      rwa [List.append_assoc, List.singleton_append] at hmore
  rw [ofMembers, hfold members [] h]
  rfl

mutual

/-- The levels of arrays and objects. -/
def levels : Json → Nat
  | array items => levelsOfItems items + 1
  | object members => levelsOfMembers members + 1
  | _ => 0

/-- The levels of arrays and objects within items. -/
def levelsOfItems : List Json → Nat
  | [] => 0
  | item :: rest => max (levels item) (levelsOfItems rest)

/-- The levels of arrays and objects within members. -/
def levelsOfMembers : List (String × Json) → Nat
  | [] => 0
  | (_, value) :: rest => max (levels value) (levelsOfMembers rest)

end

end Json

/-! ## Values -/

namespace Node

mutual

/-- **The tree of a value is worth that value**, within its levels. -/
theorem json?_ofJson : ∀ (x : Json) (depth : Nat), x.Exact → x.InOrder → x.levels ≤ depth →
    json? depth (ofJson x) = some x
  | .null, _, _, _, _ => rfl
  | .bool _, _, _, _, _ => rfl
  | .number (.whole n), _, hexact, _, _ => by
    show (Numeral.ofInt n).number?.map Json.number = _
    rw [Numeral.number?_ofInt hexact.1 hexact.2]
    rfl
  | .number (.real _), _, hexact, _, _ => hexact.elim
  | .string _, _, _, _, _ => rfl
  | .array xs, depth + 1, hexact, horder, hlevels => by
    have hitems := jsonItems?_ofItems xs depth hexact horder (Nat.le_of_succ_le_succ hlevels)
    rw [ofJson, json?, hitems]
    rfl
  | .object xs, depth + 1, hexact, horder, hlevels => by
    have hmembers := jsonMembers?_ofMembers xs depth hexact horder.2
      (Nat.le_of_succ_le_succ hlevels)
    rw [ofJson, json?, hmembers, Option.map_some, Json.ofMembers_of_pairwise horder.1]

theorem jsonItems?_ofItems : ∀ (xs : List Json) (depth : Nat), Json.ItemsExact xs →
    Json.ItemsInOrder xs → Json.levelsOfItems xs ≤ depth → jsonItems? depth (ofItems xs) = some xs
  | [], _, _, _, _ => rfl
  | x :: xs, depth, hexact, horder, hlevels => by
    have hlevels := Nat.max_le.1 hlevels
    rw [ofItems, jsonItems?, json?_ofJson x depth hexact.1 horder.1 hlevels.1,
      jsonItems?_ofItems xs depth hexact.2 horder.2 hlevels.2]
    rfl

theorem jsonMembers?_ofMembers : ∀ (xs : List (String × Json)) (depth : Nat),
    Json.MembersExact xs → Json.MembersInOrder xs → Json.levelsOfMembers xs ≤ depth →
      jsonMembers? depth (ofMembers xs) = some xs
  | [], _, _, _, _ => rfl
  | (name, x) :: xs, depth, hexact, horder, hlevels => by
    have hlevels := Nat.max_le.1 hlevels
    rw [ofMembers, jsonMembers?, json?_ofJson x depth hexact.1 horder.1 hlevels.1,
      jsonMembers?_ofMembers xs depth hexact.2 horder.2 hlevels.2]
    rfl

end

end Node

end PoolKeeper
