import PoolKeeper.Number.Binary64

/-!
# JSON values

* `Json.Number`, `Json`: values; a whole number that fits a 64-bit word keeps its exact value;
* `Json.object`: an object from members in any order, the last of equal names winning;
* `Json.InOrder`: all objects of a value list their members by strictly ascending name.
-/

namespace PoolKeeper

/-- A number: a whole number of the signed or unsigned 64-bit range, or any other number. -/
inductive Json.Number where
  | whole (n : Int)
  | real (x : Binary64)
deriving DecidableEq, Repr

/-- A JSON value. -/
inductive Json where
  | null
  | bool (b : Bool)
  | number (n : Json.Number)
  | string (s : String)
  | array (items : List Json)
  | object (members : List (String × Json))
deriving Repr

namespace Json

instance : Inhabited Json := ⟨null⟩

mutual

/-- Whether two values are the same. -/
def same : Json → Json → Bool
  | null, null => true
  | bool a, bool b => a == b
  | number a, number b => a == b
  | string a, string b => a == b
  | array a, array b => sameItems a b
  | object a, object b => sameMembers a b
  | _, _ => false

/-- Whether two lists of values are the same. -/
def sameItems : List Json → List Json → Bool
  | [], [] => true
  | a :: as, b :: bs => same a b && sameItems as bs
  | _, _ => false

/-- Whether two lists of members are the same. -/
def sameMembers : List (String × Json) → List (String × Json) → Bool
  | [], [] => true
  | (k, a) :: as, (l, b) :: bs => k == l && same a b && sameMembers as bs
  | _, _ => false

end

instance : BEq Json := ⟨same⟩

/-- The value is null. -/
def isNull : Json → Bool
  | null => true
  | _ => false

/-- A count. -/
def nat (n : Nat) : Json := number (.whole n)

/-- Members with one more among them, in order of name; it replaces one of the same name. -/
def insertMember (name : String) (value : Json) : List (String × Json) → List (String × Json)
  | [] => [(name, value)]
  | (k, v) :: rest =>
    if name < k then (name, value) :: (k, v) :: rest
    else if name = k then (name, value) :: rest
    else (k, v) :: insertMember name value rest

/-- An object with the given members; the last of equal names wins. -/
def ofMembers (members : List (String × Json)) : Json :=
  object (members.foldl (fun sorted m => insertMember m.1 m.2 sorted) [])

mutual

/-- Every object lists its members by strictly ascending name. -/
def InOrder : Json → Prop
  | array items => ItemsInOrder items
  | object members => members.Pairwise (fun a b => a.1 < b.1) ∧ MembersInOrder members
  | _ => True

/-- Every object within the items lists its members by strictly ascending name. -/
def ItemsInOrder : List Json → Prop
  | [] => True
  | item :: rest => InOrder item ∧ ItemsInOrder rest

/-- Every object within the members lists its members by strictly ascending name. -/
def MembersInOrder : List (String × Json) → Prop
  | [] => True
  | (_, value) :: rest => InOrder value ∧ MembersInOrder rest

end

end Json

end PoolKeeper
